import CodePanel.Map.Grid

namespace CodePanel.Map

-- A movable window onto a larger map.
structure Viewport where
  x : Nat
  y : Nat
  width : Nat
  height : Nat
deriving DecidableEq

inductive Direction where
  | up
  | down
  | left
  | right
deriving DecidableEq

-- One step. Moving left and up stops at the edge.
def Viewport.move (viewport : Viewport) : Direction → Viewport
  | .up => { viewport with y := viewport.y - 1 }
  | .down => { viewport with y := viewport.y + 1 }
  | .left => { viewport with x := viewport.x - 1 }
  | .right => { viewport with x := viewport.x + 1 }

-- The part of a grid under the viewport. Where the grid has no cell there is air.
def Viewport.view (viewport : Viewport) (grid : Grid) : Grid :=
  .generate viewport.width viewport.height fun x y =>
    (grid.get? (viewport.x + x) (viewport.y + y)).getD Tile.empty

end CodePanel.Map
