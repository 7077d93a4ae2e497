namespace CodePanel.Text

-- The characters with the Unicode property White_Space.
def spaceRanges : List (Nat × Nat) := [
  (0x9, 0xd), (0x20, 0x20), (0x85, 0x85), (0xa0, 0xa0), (0x1680, 0x1680), (0x2000, 0x200a),
  (0x2028, 0x2029), (0x202f, 0x202f), (0x205f, 0x205f), (0x3000, 0x3000)]

-- Whether a code point lies in one of the given ranges, ends included.
def inRanges (ranges : List (Nat × Nat)) (code : Nat) : Bool :=
  ranges.any fun range => range.1 ≤ code && code ≤ range.2

def isSpace (c : Char) : Bool :=
  inRanges spaceRanges c.toNat

def trimStart (text : List Char) : List Char :=
  text.dropWhile isSpace

def trimEnd (text : List Char) : List Char :=
  (text.reverse.dropWhile isSpace).reverse

def trim (text : List Char) : List Char :=
  trimEnd (trimStart text)

-- A text that holds nothing but white space.
def isBlank (text : List Char) : Bool :=
  text.all isSpace

end CodePanel.Text
