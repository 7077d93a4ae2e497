import CodePanel.Page.Basic

namespace CodePanel

open Map

-- Looks up a canvas that can be drawn on.
def Page.openCanvas (page : Page) (id : String) : Except Error Nat :=
  match page.lookup .canvas id with
  | .error error => .error error
  | .ok n =>
    match page.elements[n]? with
    | none => .error (.missingElement id)
    | some element =>
      match element.contextFault with
      | none => .ok n
      | some .absent => .error (.browserCall ("canvas #" ++ element.id ++ " has no 2d context"))
      | some .throwing => .error (.browserCall element.throws.message)
      | some .foreign => .error (.browserCall "2d context has an unexpected type")

-- The whole number of pixels that hold a length.
def wholePixels (x : Float) : Nat :=
  if 0.0 < x.ceil then x.ceil.toUInt32.toNat else 0

-- Gives a canvas a new size. Nothing is left of the drawing.
def Drawing.resize (drawing : Drawing) (width height : Float) : Drawing :=
  { drawing with width := wholePixels width, height := wholePixels height, draws := [] }

def Drawing.clear (drawing : Drawing) : Drawing :=
  { drawing with
    clears := drawing.clears + 1
    cleared := some (Float.ofNat drawing.width, Float.ofNat drawing.height)
    draws := [] }

def Page.modifyDrawing (page : Page) (n : Nat) (change : Drawing → Drawing) : Page :=
  page.modifyElement n fun e => { e with drawing := change e.drawing }

def Page.resize (page : Page) (n : Nat) (size : Float × Float) : Page :=
  page.modifyDrawing n (·.resize size.1 size.2)

def Page.srcOf (page : Page) (image : Nat) : String :=
  (page.images[image]?.map Image.src).getD ""

-- Draws one sprite. An image that throws is left out and reported.
def Page.draw (page : Page) (n : Nat) (sprite : Sprite Nat) : Page :=
  let src := page.srcOf sprite.asset
  match page.images[sprite.asset]?.bind Image.throws with
  | some thrown => page.report (.drawFailed src thrown.message)
  | none => page.modifyDrawing n fun drawing =>
    { drawing with draws := drawing.draws ++ [{ sprite with asset := src }] }

-- Clears a canvas and draws sprites on it.
def Page.paint (page : Page) (n : Nat) (sprites : List (Sprite Nat)) : Page :=
  sprites.foldl (fun page sprite => page.draw n sprite) (page.modifyDrawing n Drawing.clear)

end CodePanel
