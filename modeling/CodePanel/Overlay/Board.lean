import CodePanel.Overlay.Host

namespace CodePanel.Overlay

-- A plain surface only remembers what was written to it and how often.
structure Surface where
  html : String := ""
  scroll : Scroll := ⟨0.0, 0.0⟩
  padding : Padding
  htmlWrites : Nat := 0
  paddingWrites : Nat := 0

def Surface.writeHtml (html : String) (surface : Surface) : Surface :=
  { surface with html, htmlWrites := surface.htmlWrites + 1 }

def Surface.writeScroll (scroll : Scroll) (surface : Surface) : Surface :=
  { surface with scroll }

def Surface.writePadding (padding : Padding) (surface : Surface) : Surface :=
  { surface with padding, paddingWrites := surface.paddingWrites + 1 }

structure Board where
  surfaces : List Surface

def Board.modify (board : Board) (index : Nat) (change : Surface → Surface) : Board :=
  ⟨board.surfaces.modify index change⟩

-- A surface that is not there has no padding.
def Board.padding (board : Board) (index : Nat) : Padding :=
  match board.surfaces[index]? with
  | some surface => surface.padding
  | none => ⟨0.0, 0.0⟩

instance : Host Board where
  setHtml index html board := board.modify index (Surface.writeHtml html)
  setScroll index scroll board := board.modify index (Surface.writeScroll scroll)
  padding index board := board.padding index
  setPadding index padding board := board.modify index (Surface.writePadding padding)

end CodePanel.Overlay
