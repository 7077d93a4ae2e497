import CodePanel.Error
import CodePanel.Map.Geometry
import CodePanel.Map.Tile
import CodePanel.Text.Order

namespace CodePanel.Map

-- Tiles are stored row by row.
structure Grid where
  width : Nat
  height : Nat
  cells : List Tile
  length_cells : cells.length = width * height
deriving DecidableEq

-- A grid from a rule for each cell.
def Grid.generate (width height : Nat) (tile : Nat → Nat → Tile) : Grid where
  width
  height
  cells := (List.range (width * height)).map fun i => tile (i % width) (i / width)
  length_cells := by simp

-- A grid of air.
def Grid.blank (width height : Nat) : Grid where
  width
  height
  cells := List.replicate (width * height) Tile.empty
  length_cells := by simp

theorem length_flatten_of_forall {rows : List (List α)} {width : Nat}
    (h : ∀ row ∈ rows, row.length = width) : rows.flatten.length = width * rows.length := by
  induction rows with
  | nil => simp
  | cons row rest ih =>
    have hrow := h row (by simp)
    have hrest := ih fun other hother => h other (by simp [hother])
    simp [hrow, hrest, Nat.mul_add, Nat.add_comm]

-- A grid from its rows. The first row sets the width, and the first row of another length is
-- reported.
def Grid.ofRows (rows : List (List Tile)) : Except MapError Grid :=
  let width := (rows.head?.map List.length).getD 0
  match h : rows.findIdx? (·.length ≠ width) with
  | some row => .error (.raggedRows row ((rows[row]?.map List.length).getD 0) width)
  | none => .ok {
      width
      height := rows.length
      cells := rows.flatten
      length_cells := length_flatten_of_forall (by simpa [List.findIdx?_eq_none_iff] using h) }

-- Tiles from pairs of bytes.
def tilesOfBytes : List UInt8 → List Tile
  | id :: orientation :: rest => ⟨id, orientation⟩ :: tilesOfBytes rest
  | _ => []

def bytesOfTiles (tiles : List Tile) : List UInt8 :=
  tiles.flatMap fun tile => [tile.id, tile.orientation]

-- A grid from its flat form: two bytes for each cell, row by row.
def Grid.ofBytes (width height : Nat) (bytes : List UInt8) : Except MapError Grid :=
  if bytes.length % 2 ≠ 0 then .error (.oddLength bytes.length)
  else
    let cells := tilesOfBytes bytes
    if h : cells.length = width * height then .ok ⟨width, height, cells, h⟩
    else .error (.dimensionMismatch width height cells.length)

def Grid.toBytes (grid : Grid) : List UInt8 :=
  bytesOfTiles grid.cells

-- The place of a cell in the list of cells.
def Grid.index? (grid : Grid) (x y : Nat) : Option Nat :=
  if x < grid.width ∧ y < grid.height then some (y * grid.width + x) else none

def Grid.get? (grid : Grid) (x y : Nat) : Option Tile :=
  (grid.index? x y).bind fun i => grid.cells[i]?

-- Replaces one cell. There is no result for a cell outside the grid.
def Grid.set? (grid : Grid) (x y : Nat) (tile : Tile) : Option Grid :=
  (grid.index? x y).map fun i =>
    { grid with cells := grid.cells.set i tile, length_cells := by simp [grid.length_cells] }

-- Every cell with its place, row by row.
def Grid.toList (grid : Grid) : List (Cell × Tile) :=
  grid.cells.mapIdx fun i tile => (⟨i % grid.width, i / grid.width⟩, tile)

-- The names of the images that the grid needs, each once and in order.
def Grid.assetNames (grid : Grid) : List String :=
  Text.sortTexts (grid.cells.map Tile.assetName).eraseDups

end CodePanel.Map
