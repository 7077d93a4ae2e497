import CodePanel.Proofs.Map.Layout

namespace CodePanel.Map

-- Where a cell is only ever given one tile, that one is the last.
theorem lastTile_of_mem_iff {writes : List Write} {x y : Nat} {tile? : Option Tile}
    (h : ∀ tile, ⟨x, y, tile⟩ ∈ writes ↔ tile? = some tile) : lastTile? writes x y = tile? := by
  unfold lastTile?
  cases hfind : writes.reverse.find? (·.isTo x y) with
  | none =>
    cases tile? with
    | none => rfl
    | some tile =>
      have hmem := List.mem_reverse.mpr ((h tile).mpr rfl)
      have hnot := List.find?_eq_none.mp hfind _ hmem
      exact absurd (Write.isTo_iff.mpr ⟨rfl, rfl⟩) hnot
  | some write =>
    have hto := List.find?_some hfind
    obtain ⟨rfl, rfl⟩ := Write.isTo_iff.mp hto
    have hmem := List.mem_reverse.mp (List.mem_of_find?_eq_some hfind)
    exact ((h write.tile).mp hmem).symm

theorem Grid.get_blank {width height x y : Nat} (hx : x < width) (hy : y < height) :
    (blank width height).get? x y = some .empty := by
  have hbuilt : (Origin.blank width height).build = .ok (blank width height) := rfl
  obtain ⟨-, -, hget⟩ := Origin.get_build hbuilt
  exact hget x y ⟨hx, hy⟩

namespace Viewport

variable {viewport : Viewport} {grid : Grid} {x y : Nat}

theorem get_view (hx : x < viewport.width) (hy : y < viewport.height) :
    (viewport.view grid).get? x y =
      some ((grid.get? (viewport.x + x) (viewport.y + y)).getD .empty) :=
  Grid.get_generate ⟨hx, hy⟩

-- The tiles under the viewport, row by row, with the cells that they have in the view.
def copies (viewport : Viewport) (grid : Grid) : List Write :=
  (rowByRow viewport.width viewport.height).filterMap fun cell =>
    (grid.get? (viewport.x + cell.x) (viewport.y + cell.y)).map fun tile => ⟨cell.x, cell.y, tile⟩

theorem mem_copies (hx : x < viewport.width) (hy : y < viewport.height) (tile : Tile) :
    ⟨x, y, tile⟩ ∈ viewport.copies grid ↔
      grid.get? (viewport.x + x) (viewport.y + y) = some tile := by
  simp only [copies, List.mem_filterMap, Option.map_eq_some_iff, mem_rowByRow]
  constructor
  · rintro ⟨cell, _, other, hget, heq⟩
    cases heq
    exact hget
  · intro hget
    exact ⟨⟨x, y⟩, ⟨hx, hy⟩, tile, hget, rfl⟩

-- Tiles that are not there are not copied, and the map below has air in their cells.
theorem view_eq_writeAll (viewport : Viewport) (grid : Grid) :
    viewport.view grid =
      (Grid.blank viewport.width viewport.height).writeAll (viewport.copies grid) := by
  have hsize := (Grid.blank viewport.width viewport.height).size_writeAll (viewport.copies grid)
  refine Grid.ext_get hsize.1.symm hsize.2.symm fun x y hcell => ?_
  obtain ⟨hx, hy⟩ : x < viewport.width ∧ y < viewport.height := hcell
  rw [get_view hx hy, Grid.get_writeAll ⟨hx, hy⟩, Grid.get_blank hx hy,
    lastTile_of_mem_iff (mem_copies hx hy)]
  cases grid.get? (viewport.x + x) (viewport.y + y) with
  | none => rfl
  | some tile => rfl

-- Inside the outer view, the inner one finds what the map itself has there, and air for air.
theorem view_view {outer inner : Viewport} (hwidth : inner.x + inner.width ≤ outer.width)
    (hheight : inner.y + inner.height ≤ outer.height) (grid : Grid) :
    inner.view (outer.view grid) =
      view ⟨outer.x + inner.x, outer.y + inner.y, inner.width, inner.height⟩ grid := by
  refine Grid.ext_get rfl rfl fun x y hcell => ?_
  obtain ⟨hx, hy⟩ : x < inner.width ∧ y < inner.height := hcell
  have hx' : inner.x + x < outer.width := by omega
  have hy' : inner.y + y < outer.height := by omega
  have hwhole : (view ⟨outer.x + inner.x, outer.y + inner.y, _, _⟩ grid).get? x y =
    some ((grid.get? (outer.x + inner.x + x) (outer.y + inner.y + y)).getD .empty) := get_view hx hy
  rw [get_view hx hy, get_view hx' hy', hwhole, Option.getD_some, Nat.add_assoc, Nat.add_assoc]

-- A view has the size of its viewport, and shows in each cell the tile of the map that lies under
-- it, or air where there is none: just what copying the tiles of the map onto a map of air gives. A
-- viewport inside another one cuts out of its view what it would cut out of the map itself,
-- wherever the other one lies.
theorem window_cut (viewport : Viewport) (grid : Grid) :
    (viewport.view grid).width = viewport.width ∧
    (viewport.view grid).height = viewport.height ∧
    (∀ x y, x < viewport.width → y < viewport.height →
      (viewport.view grid).get? x y =
        some ((grid.get? (viewport.x + x) (viewport.y + y)).getD .empty)) ∧
    viewport.view grid =
      (Grid.blank viewport.width viewport.height).writeAll (viewport.copies grid) ∧
    ∀ inner : Viewport, inner.x + inner.width ≤ viewport.width →
      inner.y + inner.height ≤ viewport.height →
      inner.view (viewport.view grid) =
        view ⟨viewport.x + inner.x, viewport.y + inner.y, inner.width, inner.height⟩ grid :=
  ⟨rfl, rfl, fun _ _ => get_view, view_eq_writeAll viewport grid,
    fun _ hwidth hheight => view_view hwidth hheight grid⟩

-- The map has two rows of two tiles. The outer viewport starts in its second column and reaches
-- past it on two sides, and the inner one cuts out the lower left part of that.
theorem window_cut_past_edge :
    let grid : Grid := ⟨2, 2, [⟨1, 0⟩, ⟨2, 0⟩, ⟨3, 0⟩, ⟨4, 3⟩], rfl⟩
    let outer : Viewport := ⟨1, 0, 3, 3⟩
    let inner : Viewport := ⟨0, 1, 2, 2⟩
    inner.view (outer.view grid) = view ⟨1, 1, 2, 2⟩ grid ∧
      (outer.view grid).get? 0 1 = some ⟨4, 3⟩ ∧ (outer.view grid).get? 2 1 = some .empty := by
  intro grid outer inner
  obtain ⟨-, -, hget, -, hcompose⟩ := window_cut outer grid
  exact ⟨hcompose inner (by decide) (by decide), hget 0 1 (by decide) (by decide),
    hget 2 1 (by decide) (by decide)⟩

end Viewport

end CodePanel.Map
