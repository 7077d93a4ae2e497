import CodePanel.Fit.Browser
import CodePanel.Markup

namespace CodePanel.Fit

-- The hint asks for an optional break behind each space. The inset is added to the left and the
-- right padding, in pixels.
structure Adjustment where
  spaceBreakHint : Bool
  inset : Float

-- The padding that iOS puts inside a text field.
def iosInset : Float := 3.0

def Adjustment.forBrowser (browser : Browser) : Adjustment where
  spaceBreakHint := browser.trident || browser.edgeHtml
  inset := if browser.ios then iosInset else 0.0

-- An adjustment that changes nothing.
def Adjustment.isNeutral (adjustment : Adjustment) : Bool :=
  !adjustment.spaceBreakHint && adjustment.inset == 0.0

def Adjustment.options (adjustment : Adjustment) : Markup.Options where
  spaceBreakHint := adjustment.spaceBreakHint

-- Values set by hand, which win over detected ones.
structure Overrides where
  spaceBreakHint : Option Bool := none
  inset : Option Float := none

def Overrides.apply (overrides : Overrides) (detected : Adjustment) : Adjustment where
  spaceBreakHint := overrides.spaceBreakHint.getD detected.spaceBreakHint
  inset := overrides.inset.getD detected.inset

end CodePanel.Fit
