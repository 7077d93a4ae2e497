import CodePanel.Proofs.Map.Cells
import Mathlib.Data.List.Nodup

namespace CodePanel.Map

-- The cells of a map of a given size, row by row.
def rowByRow (width height : Nat) : List Cell :=
  (List.range height).flatMap fun y => (List.range width).map fun x => ⟨x, y⟩

section RowByRow

variable {width height : Nat}

theorem mem_rowByRow {cell : Cell} :
    cell ∈ rowByRow width height ↔ cell.x < width ∧ cell.y < height := by
  simp only [rowByRow, List.mem_flatMap, List.mem_map, List.mem_range]
  constructor
  · rintro ⟨y, hy, x, hx, rfl⟩
    exact ⟨hx, hy⟩
  · rintro ⟨hx, hy⟩
    exact ⟨cell.y, hy, cell.x, hx, rfl⟩

theorem rowByRow_succ :
    rowByRow width (height + 1) =
      rowByRow width height ++ (List.range width).map fun x => ⟨x, height⟩ := by
  simp only [rowByRow, List.range_succ, List.flatMap_append, List.flatMap_singleton]

-- Counting through the places goes through the rows one after the other.
theorem rowByRow_eq_map :
    rowByRow width height =
      (List.range (width * height)).map fun i => ⟨i % width, i / width⟩ := by
  induction height with
  | zero => rfl
  | succ height ih =>
    rw [rowByRow_succ, ih, Nat.mul_succ, List.range_add, List.map_append, List.map_map]
    congr 1
    apply List.map_congr_left
    intro x hx
    have hlt := List.mem_range.mp hx
    simp only [Function.comp_apply, Nat.mul_comm width height, place_mod hlt, place_div hlt]

theorem length_rowByRow : (rowByRow width height).length = width * height := by
  rw [rowByRow_eq_map, List.length_map, List.length_range]

theorem nodup_rowByRow : (rowByRow width height).Nodup := by
  rw [rowByRow_eq_map]
  apply List.nodup_range.map
  intro i j hij
  have hmod : i % width = j % width := congrArg Cell.x hij
  have hdiv : i / width = j / width := congrArg Cell.y hij
  rw [← Nat.div_add_mod i width, ← Nat.div_add_mod j width, hmod, hdiv]

end RowByRow

namespace Grid

variable {grid : Grid}

-- Every place is the place of a cell.
theorem get_place (grid : Grid) {i : Nat} (h : i < grid.width * grid.height) :
    grid.Has (i % grid.width) (i / grid.width) ∧
      grid.get? (i % grid.width) (i / grid.width) = grid.cells[i]? := by
  have hpos : 0 < grid.width := Nat.pos_of_mul_pos_right (Nat.zero_lt_of_lt h)
  have hcell : grid.Has (i % grid.width) (i / grid.width) :=
    ⟨Nat.mod_lt i hpos, Nat.div_lt_of_lt_mul h⟩
  refine ⟨hcell, ?_⟩
  rw [get_of_has hcell, Nat.mul_comm, Nat.div_add_mod]

-- Maps of one size that agree on every cell are the same.
theorem ext_get {first second : Grid} (hwidth : first.width = second.width)
    (hheight : first.height = second.height)
    (hcells : ∀ x y, first.Has x y → first.get? x y = second.get? x y) : first = second := by
  have hlist : first.cells = second.cells := by
    apply List.ext_getElem?
    intro i
    by_cases hi : i < first.width * first.height
    · obtain ⟨hcell, hfirst⟩ := first.get_place hi
      have hsecond := (second.get_place (by rwa [← hwidth, ← hheight])).2
      rw [← hfirst, hcells _ _ hcell, hwidth, hsecond]
    · have hlength := second.length_cells
      rw [← hwidth, ← hheight] at hlength
      rw [List.getElem?_eq_none (by rw [first.length_cells]; omega),
        List.getElem?_eq_none (by rw [hlength]; omega)]
  cases first
  cases second
  rw [Grid.mk.injEq]
  exact ⟨hwidth, hheight, hlist⟩

theorem map_fst_toList (grid : Grid) :
    grid.toList.map Prod.fst = rowByRow grid.width grid.height := by
  rw [rowByRow_eq_map, ← grid.length_cells]
  apply List.ext_getElem
  · simp [toList]
  · intro i _ _
    simp [toList]

theorem get_of_mem_toList {cell : Cell} {tile : Tile} (h : (cell, tile) ∈ grid.toList) :
    grid.get? cell.x cell.y = some tile := by
  obtain ⟨i, hi, heq⟩ := List.mem_mapIdx.mp h
  cases heq
  rw [(grid.get_place (by rwa [← grid.length_cells])).2, List.getElem?_eq_getElem hi]

theorem mem_cells_of_get {x y : Nat} {tile : Tile} (h : grid.get? x y = some tile) :
    tile ∈ grid.cells := by
  obtain ⟨i, _, hi⟩ := Option.bind_eq_some_iff.mp h
  exact List.mem_of_getElem? hi

theorem mem_assetNames {name : String} :
    name ∈ grid.assetNames ↔ ∃ tile ∈ grid.cells, tile.assetName = name := by
  unfold assetNames Text.sortTexts
  rw [List.mem_mergeSort, List.mem_eraseDups, List.mem_map]

end Grid

end CodePanel.Map
