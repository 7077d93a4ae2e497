namespace CodePanel.Fit

-- The browsers that need special care.
structure Browser where
  ios : Bool
  trident : Bool
  edgeHtml : Bool
deriving DecidableEq

-- Any browser that needs no special care.
def Browser.plain : Browser := ⟨false, false, false⟩

-- Whether `part` stands somewhere in a text.
def containsText (part : List Char) : List Char → Bool
  | [] => part.isEmpty
  | c :: rest => part.isPrefixOf (c :: rest) || containsText part rest

-- Whether a string mentions a word, in small or capital letters. The words looked for are ASCII,
-- and no character beyond ASCII has a small form that could complete one of them.
def mentions (text : String) (word : String) : Bool :=
  containsText word.toList (text.toList.map Char.toLower)

-- The strings and the number in which a browser describes itself.
structure Navigator where
  userAgent : String := ""
  platform : String := ""
  maxTouchPoints : Int := 0
deriving DecidableEq

-- A tablet that poses as a desktop computer gives itself away by its touch screen.
def Browser.detect (userAgent platform : String) (maxTouchPoints : Int) : Browser where
  ios := mentions userAgent "iphone" || mentions userAgent "ipad" || mentions userAgent "ipod" ||
    (mentions platform "mac" && 0 < maxTouchPoints)
  trident := mentions userAgent "trident/" || mentions userAgent "msie "
  edgeHtml := mentions userAgent "edge/"

def Navigator.browser (navigator : Navigator) : Browser :=
  .detect navigator.userAgent navigator.platform navigator.maxTouchPoints

end CodePanel.Fit
