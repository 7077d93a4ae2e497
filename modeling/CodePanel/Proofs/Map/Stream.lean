import CodePanel.Map.Grid
import Mathlib.Data.List.Basic

namespace CodePanel.Map

-- The width that the first row sets.
def firstLength (rows : List (List Tile)) : Nat :=
  (rows.head?.map List.length).getD 0

section Bytes

theorem bytesOfTiles_cons (tile : Tile) (rest : List Tile) :
    bytesOfTiles (tile :: rest) = tile.id :: tile.orientation :: bytesOfTiles rest := rfl

theorem tilesOfBytes_bytesOfTiles (tiles : List Tile) :
    tilesOfBytes (bytesOfTiles tiles) = tiles := by
  induction tiles with
  | nil => rfl
  | cons tile rest ih => rw [bytesOfTiles_cons, tilesOfBytes, ih]

theorem length_bytesOfTiles (tiles : List Tile) :
    (bytesOfTiles tiles).length = 2 * tiles.length := by
  induction tiles with
  | nil => rfl
  | cons tile rest ih =>
    rw [bytesOfTiles_cons, List.length_cons, List.length_cons, List.length_cons, ih]
    omega

theorem length_lt_two {bytes : List UInt8}
    (h : ∀ id orientation rest, bytes = id :: orientation :: rest → False) : bytes.length < 2 := by
  match bytes with
  | [] => exact Nat.zero_lt_two
  | [_] => exact Nat.one_lt_two
  | id :: orientation :: rest => exact (h id orientation rest rfl).elim

-- A byte that is left over at the end is dropped.
theorem length_tilesOfBytes (bytes : List UInt8) :
    (tilesOfBytes bytes).length = bytes.length / 2 := by
  fun_induction tilesOfBytes bytes with
  | case1 id orientation rest ih =>
    rw [List.length_cons, List.length_cons, List.length_cons, ih]
    omega
  | case2 bytes hshort =>
    have hlength := length_lt_two hshort
    rw [List.length_nil]
    omega

theorem bytesOfTiles_tilesOfBytes {bytes : List UInt8} (h : bytes.length % 2 = 0) :
    bytesOfTiles (tilesOfBytes bytes) = bytes := by
  fun_induction tilesOfBytes bytes with
  | case1 id orientation rest ih =>
    have hrest : rest.length % 2 = 0 := by
      rw [List.length_cons, List.length_cons] at h
      omega
    rw [bytesOfTiles_cons, ih hrest]
  | case2 bytes hshort =>
    have hlength := length_lt_two hshort
    have hnil : bytes = [] := List.eq_nil_of_length_eq_zero (by omega)
    rw [hnil]
    rfl

end Bytes

namespace Grid

-- A stream is that of a map exactly if the map has it for its flat form.
theorem ofBytes_eq_ok_iff {width height : Nat} {bytes : List UInt8} {grid : Grid} :
    ofBytes width height bytes = .ok grid ↔
      grid.width = width ∧ grid.height = height ∧ grid.toBytes = bytes := by
  unfold ofBytes
  constructor
  · intro h
    split at h
    · cases h
    · rename_i heven
      simp only at h
      split at h
      · cases h
        exact ⟨rfl, rfl, bytesOfTiles_tilesOfBytes (not_not.1 heven)⟩
      · cases h
  · rintro ⟨rfl, rfl, rfl⟩
    have hcells : tilesOfBytes grid.toBytes = grid.cells := tilesOfBytes_bytesOfTiles grid.cells
    have heven : ¬grid.toBytes.length % 2 ≠ 0 := by
      have hlength : grid.toBytes.length = 2 * grid.cells.length := length_bytesOfTiles grid.cells
      omega
    rw [if_neg heven]
    simp only [hcells, grid.length_cells, dite_true]

theorem exists_ofBytes_iff {width height : Nat} {bytes : List UInt8} :
    (∃ grid, ofBytes width height bytes = .ok grid) ↔ bytes.length = 2 * (width * height) := by
  constructor
  · rintro ⟨grid, h⟩
    obtain ⟨rfl, rfl, rfl⟩ := ofBytes_eq_ok_iff.1 h
    exact (length_bytesOfTiles grid.cells).trans (congrArg (2 * ·) grid.length_cells)
  · intro hlength
    have hcells : (tilesOfBytes bytes).length = width * height := by
      rw [length_tilesOfBytes]
      omega
    refine ⟨⟨width, height, tilesOfBytes bytes, hcells⟩, ofBytes_eq_ok_iff.2 ⟨rfl, rfl, ?_⟩⟩
    exact bytesOfTiles_tilesOfBytes (by omega)

theorem ofBytes_toBytes (grid : Grid) :
    ofBytes grid.width grid.height grid.toBytes = .ok grid :=
  ofBytes_eq_ok_iff.2 ⟨rfl, rfl, rfl⟩

-- Rows are read if all of them have the length of the first. Otherwise the first row of another
-- length is reported.
theorem ofRows_cases (rows : List (List Tile)) :
    (∃ grid, ofRows rows = .ok grid ∧ (∀ row ∈ rows, row.length = firstLength rows) ∧
      grid.width = firstLength rows ∧ grid.height = rows.length ∧ grid.cells = rows.flatten) ∨
    ∃ n row, ofRows rows = .error (.raggedRows n row.length (firstLength rows)) ∧
      rows[n]? = some row ∧ row.length ≠ firstLength rows ∧
      ∀ m < n, ∀ earlier, rows[m]? = some earlier → earlier.length = firstLength rows := by
  unfold ofRows
  simp only
  split
  · rename_i n hn
    obtain ⟨hlt, hragged, hfirst⟩ := List.findIdx?_eq_some_iff_getElem.1 hn
    have hrow : rows[n]? = some rows[n] := List.getElem?_eq_getElem hlt
    refine .inr ⟨n, rows[n], ?_, hrow, of_decide_eq_true hragged, fun m hm earlier hearlier => ?_⟩
    · rw [hrow]
      rfl
    · obtain ⟨_, rfl⟩ := List.getElem?_eq_some_iff.1 hearlier
      exact of_not_not fun hne => hfirst m hm (decide_eq_true hne)
  · rename_i hnone
    refine .inl ⟨_, rfl, fun row hrow => ?_, rfl, rfl, rfl⟩
    have hfits := List.findIdx?_eq_none_iff.1 hnone row hrow
    exact of_not_not (of_decide_eq_false hfits)

end Grid

theorem length_eq_firstLength_iff {rows : List (List Tile)} :
    (∀ row ∈ rows, row.length = firstLength rows) ↔
      ∀ row ∈ rows, ∀ other ∈ rows, row.length = other.length := by
  constructor
  · intro h row hrow other hother
    exact (h row hrow).trans (h other hother).symm
  · intro h row hrow
    match rows with
    | [] => cases hrow
    | first :: rest => exact h row hrow first List.mem_cons_self

-- Reading a stream and reading rows agree, and both read back what a map writes. A stream is read
-- if its length fits, and rows are read if they have one length. Otherwise the first row that is
-- out of line is reported.
theorem stream_round_trip :
    (∀ width height bytes,
      ((∃ grid, Grid.ofBytes width height bytes = .ok grid) ↔
        bytes.length = 2 * (width * height)) ∧
      ∀ grid, Grid.ofBytes width height bytes = .ok grid → grid.toBytes = bytes) ∧
    (∀ grid : Grid, Grid.ofBytes grid.width grid.height grid.toBytes = .ok grid) ∧
    ∀ rows : List (List Tile),
      ((∃ grid, Grid.ofRows rows = .ok grid) ↔
        ∀ row ∈ rows, ∀ other ∈ rows, row.length = other.length) ∧
      (∀ grid, Grid.ofRows rows = .ok grid →
        Grid.ofBytes (firstLength rows) rows.length (bytesOfTiles rows.flatten) = .ok grid) ∧
      ∀ error, Grid.ofRows rows = .error error →
        ∃ first n row, rows.head? = some first ∧ rows[n]? = some row ∧
          row.length ≠ first.length ∧
          (∀ m < n, ∀ earlier, rows[m]? = some earlier → earlier.length = first.length) ∧
          error = .raggedRows n row.length first.length := by
  refine ⟨fun width height bytes => ⟨Grid.exists_ofBytes_iff, fun grid h => ?_⟩,
    Grid.ofBytes_toBytes, fun rows => ?_⟩
  · exact (Grid.ofBytes_eq_ok_iff.1 h).2.2
  · rw [← length_eq_firstLength_iff]
    rcases Grid.ofRows_cases rows with
      ⟨grid, hgrid, hlengths, hwidth, hheight, hcells⟩ | ⟨n, row, herror, hrow, hragged, hfirst⟩
    · refine ⟨iff_of_true ⟨grid, hgrid⟩ hlengths, fun other hother => ?_, fun error h => ?_⟩
      · cases hgrid.symm.trans hother
        exact Grid.ofBytes_eq_ok_iff.2 ⟨hwidth, hheight, congrArg bytesOfTiles hcells⟩
      · cases hgrid.symm.trans h
    · refine ⟨iff_of_false ?_ fun hlengths => ?_, fun grid hgrid => ?_, fun error h => ?_⟩
      · rintro ⟨grid, hgrid⟩
        cases herror.symm.trans hgrid
      · exact hragged (hlengths row (List.mem_of_getElem? hrow))
      · cases herror.symm.trans hgrid
      · cases herror.symm.trans h
        match rows with
        | [] => cases hrow
        | first :: rest => exact ⟨first, n, row, rfl, hrow, hragged, hfirst, rfl⟩

-- Two rows fit, the third does not, and neither does a stream that stops within a tile.
theorem stream_round_trip_ragged :
    let tile : Tile := ⟨7, 1⟩
    let rows := [[tile, tile], [tile, tile], [tile], []]
    (∃ first n row, rows.head? = some first ∧ rows[n]? = some row ∧ row.length ≠ first.length ∧
      (∀ m < n, ∀ earlier, rows[m]? = some earlier → earlier.length = first.length) ∧
      MapError.raggedRows 2 1 2 = .raggedRows n row.length first.length) ∧
    ¬∃ grid, Grid.ofBytes 1 1 [7, 1, 7] = .ok grid := by
  intro tile rows
  have herror : Grid.ofRows rows = .error (.raggedRows 2 1 2) := rfl
  refine ⟨(stream_round_trip.2.2 rows).2.2 _ herror, fun h => ?_⟩
  have hlength := ((stream_round_trip.1 1 1 [7, 1, 7]).1).1 h
  cases hlength

end CodePanel.Map
