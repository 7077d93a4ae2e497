import CodePanel.Fit.Length
import CodePanel.Overlay.Host
import CodePanel.Page.Basic

namespace CodePanel

open Fit Overlay

-- The page keeps whole numbers of 32 bits, nearest to the offset that is set.
def wholeOffset (x : Float) : Int :=
  x.round.toInt32.toInt

def Offset.ofScroll (scroll : Scroll) : Offset :=
  ⟨wholeOffset scroll.top, wholeOffset scroll.left⟩

def Page.scrollOf (page : Page) (n : Nat) : Scroll :=
  let offset := (page.elements[n]?.map Element.scroll).getD {}
  ⟨Float.ofInt offset.top, Float.ofInt offset.left⟩

-- A style can be asked for its properties unless something is wrong with it.
def Element.canReadStyle (element : Element) : Bool :=
  element.styleFault.isNone || element.styleFault == some .readOnly

def Element.padding (element : Element) : Padding :=
  if element.canReadStyle then
    ⟨(readLength? element.paddingLeft).getD 0.0, (readLength? element.paddingRight).getD 0.0⟩
  else ⟨0.0, 0.0⟩

def Page.paddingOf (page : Page) (n : Nat) : Padding :=
  (page.elements[n]?.map Element.padding).getD ⟨0.0, 0.0⟩

-- Sets both paddings. A style that refuses them is left as it is, and both refusals are reported.
def Page.setPadding (page : Page) (n : Nat) (padding : Padding) : Page :=
  match page.elements[n]? with
  | none => page
  | some element =>
    if element.styleFault = some .readOnly then
      let error := element.throws.message
      (page.report (.paddingRejected "padding-left" error)).report
        (.paddingRejected "padding-right" error)
    else page.modifyElement n fun e =>
      { e with
        paddingLeft := writeLength padding.left
        paddingRight := writeLength padding.right }

instance : Host Page where
  setHtml n html page := page.modifyElement n fun e => { e with html }
  setScroll n scroll page :=
    page.modifyElement n fun e => { e with scroll := Offset.ofScroll scroll }
  padding n page := page.paddingOf n
  setPadding n padding page := page.setPadding n padding

end CodePanel
