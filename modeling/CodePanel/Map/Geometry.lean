import CodePanel.Json.Parser
import CodePanel.Json.Record
import CodePanel.Json.Writer

namespace CodePanel.Map

open Json

-- The size of a cell in pixels.
structure Geometry where
  tileWidth : Float
  tileHeight : Float
deriving DecidableEq

-- A column and a row.
structure Cell where
  x : Nat
  y : Nat
deriving DecidableEq

-- A pixel offset cut down to a whole number of tiles. It is only taken of offsets that are not
-- negative, and then cutting towards zero is rounding down.
def tileIndex (offset size : Float) : Nat :=
  (offset / size).toUInt64.toNat

-- The cell under a pixel, if it is one of a grid of the given size.
def Geometry.cellAt? (geometry : Geometry) (px py : Float) (columns rows : Nat) : Option Cell :=
  if px < 0.0 || py < 0.0 || geometry.tileWidth ≤ 0.0 || geometry.tileHeight ≤ 0.0 then none
  else
    let x := tileIndex px geometry.tileWidth
    let y := tileIndex py geometry.tileHeight
    if x < columns ∧ y < rows then some ⟨x, y⟩ else none

-- The upper left pixel of a cell.
def Geometry.cellOrigin (geometry : Geometry) (cell : Cell) : Float × Float :=
  (Float.ofNat cell.x * geometry.tileWidth, Float.ofNat cell.y * geometry.tileHeight)

-- The pixels that a grid takes.
def Geometry.canvasSize (geometry : Geometry) (columns rows : Nat) : Float × Float :=
  geometry.cellOrigin ⟨columns, rows⟩

-- A cell that a pixel lies in is always one of the grid.
theorem Geometry.lt_of_cellAt? {geometry : Geometry} {px py : Float} {columns rows : Nat}
    {cell : Cell} (h : geometry.cellAt? px py columns rows = some cell) :
    cell.x < columns ∧ cell.y < rows := by
  rw [cellAt?] at h
  split at h
  · cases h
  · simp only at h
    split at h
    · next inside => cases h; exact inside
    · cases h

def Geometry.toValue (geometry : Geometry) : Value :=
  .ofFields [
    ("tile_width", .ofFloat geometry.tileWidth), ("tile_height", .ofFloat geometry.tileHeight)]

def Geometry.ofValue? (value : Value) : Option Geometry :=
  match value.record? ["tile_width", "tile_height"] with
  | some [width, height] => do
    some ⟨← required? Value.float? width, ← required? Value.float? height⟩
  | _ => none

def Geometry.read? (text : String) : Option Geometry :=
  (parse? text.toList).bind ofValue?

end CodePanel.Map
