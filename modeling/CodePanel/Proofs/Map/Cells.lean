import CodePanel.Map.Scene
import CodePanel.Proofs.Map.Stream

namespace CodePanel.Map

section Places

variable {width height x y x' y' : Nat}

theorem place_lt (hx : x < width) (hy : y < height) : y * width + x < width * height :=
  calc y * width + x < y * width + width := Nat.add_lt_add_left hx _
    _ = (y + 1) * width := (Nat.succ_mul y width).symm
    _ ≤ height * width := Nat.mul_le_mul_right width hy
    _ = width * height := Nat.mul_comm height width

theorem place_mod (hx : x < width) : (y * width + x) % width = x := by
  rw [Nat.mul_add_mod_of_lt hx]

theorem place_div (hx : x < width) : (y * width + x) / width = y := by
  rw [Nat.add_comm, Nat.add_mul_div_right _ _ (Nat.zero_lt_of_lt hx), Nat.div_eq_of_lt hx,
    Nat.zero_add]

-- No two cells share a place.
theorem place_inj (hx : x < width) (hx' : x' < width) :
    y * width + x = y' * width + x' ↔ x = x' ∧ y = y' := by
  constructor
  · intro h
    constructor
    · rw [← place_mod (y := y) hx, h, place_mod hx']
    · rw [← place_div (y := y) hx, h, place_div hx']
  · rintro ⟨rfl, rfl⟩
    rfl

end Places

namespace Grid

variable {grid : Grid} {x y : Nat}

-- Whether a cell is one of the map.
def Has (grid : Grid) (x y : Nat) : Prop :=
  x < grid.width ∧ y < grid.height

instance : Decidable (grid.Has x y) :=
  inferInstanceAs (Decidable (_ ∧ _))

theorem index_of_has (h : grid.Has x y) : grid.index? x y = some (y * grid.width + x) :=
  if_pos h

theorem index_of_not_has (h : ¬grid.Has x y) : grid.index? x y = none :=
  if_neg h

theorem lt_of_index {i : Nat} (h : grid.index? x y = some i) : i < grid.cells.length := by
  by_cases hcell : grid.Has x y
  · rw [index_of_has hcell] at h
    cases h
    rw [grid.length_cells]
    exact place_lt hcell.1 hcell.2
  · rw [index_of_not_has hcell] at h
    cases h

theorem get_of_has (h : grid.Has x y) : grid.get? x y = grid.cells[y * grid.width + x]? := by
  rw [get?, index_of_has h, Option.bind_some]

theorem get_of_not_has (h : ¬grid.Has x y) : grid.get? x y = none := by
  rw [get?, index_of_not_has h, Option.bind_none]

theorem isSome_get_iff : (grid.get? x y).isSome ↔ grid.Has x y := by
  by_cases h : grid.Has x y
  · have hlt := lt_of_index (index_of_has h)
    rw [get_of_has h, List.getElem?_eq_getElem hlt]
    exact iff_of_true rfl h
  · rw [get_of_not_has h]
    exact iff_of_false nofun h

end Grid

-- A tile for a cell.
structure Write where
  x : Nat
  y : Nat
  tile : Tile

def Write.isTo (write : Write) (x y : Nat) : Bool :=
  write.x == x && write.y == y

theorem Write.isTo_iff {write : Write} {x y : Nat} :
    write.isTo x y ↔ write.x = x ∧ write.y = y := by
  simp [isTo]

-- The tile that was last written to a cell.
def lastTile? (writes : List Write) (x y : Nat) : Option Tile :=
  (writes.reverse.find? (·.isTo x y)).map Write.tile

namespace Grid

-- The map after a write. One that is refused leaves the map as it is.
def write (grid : Grid) (write : Write) : Grid :=
  (grid.set? write.x write.y write.tile).getD grid

def writeAll (grid : Grid) (writes : List Write) : Grid :=
  writes.foldl Grid.write grid

variable {grid : Grid} {x y : Nat}

theorem isSome_set_iff {tile : Tile} : (grid.set? x y tile).isSome ↔ grid.Has x y := by
  rw [set?, Option.isSome_map]
  by_cases h : grid.Has x y
  · rw [index_of_has h]
    exact iff_of_true rfl h
  · rw [index_of_not_has h]
    exact iff_of_false nofun h

theorem write_of_not_has {write : Write} (h : ¬grid.Has write.x write.y) :
    grid.write write = grid := by
  rw [Grid.write, set?, index_of_not_has h]
  rfl

-- The tile is put into its place, and nothing else changes.
theorem write_of_has {write : Write} (h : grid.Has write.x write.y) :
    (grid.write write).width = grid.width ∧ (grid.write write).height = grid.height ∧
      (grid.write write).cells =
        grid.cells.set (write.y * grid.width + write.x) write.tile := by
  rw [Grid.write, set?, index_of_has h]
  exact ⟨rfl, rfl, rfl⟩

theorem size_write (grid : Grid) (write : Write) :
    (grid.write write).width = grid.width ∧ (grid.write write).height = grid.height := by
  by_cases h : grid.Has write.x write.y
  · obtain ⟨hwidth, hheight, _⟩ := write_of_has h
    exact ⟨hwidth, hheight⟩
  · rw [write_of_not_has h]
    exact ⟨rfl, rfl⟩

theorem has_write (write : Write) : (grid.write write).Has x y ↔ grid.Has x y := by
  rw [Has, (grid.size_write write).1, (grid.size_write write).2, Has]

theorem get_write (hcell : grid.Has x y) (write : Write) :
    (grid.write write).get? x y = if write.isTo x y then some write.tile else grid.get? x y := by
  by_cases h : grid.Has write.x write.y
  · obtain ⟨hwidth, _, hcells⟩ := write_of_has h
    have hlt := lt_of_index (index_of_has h)
    rw [get_of_has ((has_write write).2 hcell), get_of_has hcell, hwidth, hcells,
      List.getElem?_set]
    by_cases hto : write.isTo x y
    · obtain ⟨rfl, rfl⟩ := Write.isTo_iff.1 hto
      rw [if_pos rfl, if_pos hlt, if_pos hto]
    · rw [if_neg, if_neg hto]
      exact fun hplace => hto (Write.isTo_iff.2 ((place_inj h.1 hcell.1).1 hplace))
  · have hto : ¬write.isTo x y := by
      intro hto
      obtain ⟨rfl, rfl⟩ := Write.isTo_iff.1 hto
      exact h hcell
    rw [write_of_not_has h, if_neg hto]

theorem get_write_of_not_isTo {write : Write} (h : ¬write.isTo x y) :
    (grid.write write).get? x y = grid.get? x y := by
  by_cases hcell : grid.Has x y
  · rw [get_write hcell, if_neg h]
  · rw [get_of_not_has hcell, get_of_not_has fun hcell' => hcell ((has_write write).1 hcell')]

theorem size_writeAll (grid : Grid) (writes : List Write) :
    (grid.writeAll writes).width = grid.width ∧ (grid.writeAll writes).height = grid.height := by
  induction writes generalizing grid with
  | nil => exact ⟨rfl, rfl⟩
  | cons write rest ih =>
    obtain ⟨hwidth, hheight⟩ := ih (grid.write write)
    obtain ⟨hwidth', hheight'⟩ := grid.size_write write
    exact ⟨hwidth.trans hwidth', hheight.trans hheight'⟩

-- A cell holds what was written to it last.
theorem get_writeAll (hcell : grid.Has x y) (writes : List Write) :
    (grid.writeAll writes).get? x y = (lastTile? writes x y).or (grid.get? x y) := by
  induction writes generalizing grid with
  | nil => rfl
  | cons write rest ih =>
    have hrest := ih ((has_write write).2 hcell)
    rw [get_write hcell write] at hrest
    refine hrest.trans ?_
    rw [lastTile?, lastTile?, List.reverse_cons, List.find?_append, Option.map_or,
      Option.or_assoc]
    congr 1
    by_cases hto : write.isTo x y
    · simp [hto]
    · simp [hto]

end Grid

section Origins

-- What a map is made from.
inductive Origin where
  | blank (width height : Nat)
  | ofRows (rows : List (List Tile))
  | ofBytes (width height : Nat) (bytes : List UInt8)
  | view (viewport : Viewport) (world : Grid)

-- The two bytes of one tile in a stream.
def pairAt? (bytes : List UInt8) (n : Nat) : Option Tile :=
  match bytes[2 * n]?, bytes[2 * n + 1]? with
  | some id, some orientation => some ⟨id, orientation⟩
  | _, _ => none

namespace Origin

def build : Origin → Except MapError Grid
  | .blank width height => .ok (.blank width height)
  | .ofRows rows => Grid.ofRows rows
  | .ofBytes width height bytes => Grid.ofBytes width height bytes
  | .view viewport world => .ok (viewport.view world)

def width : Origin → Nat
  | .blank width _ => width
  | .ofRows rows => firstLength rows
  | .ofBytes width _ _ => width
  | .view viewport _ => viewport.width

def height : Origin → Nat
  | .blank _ height => height
  | .ofRows rows => rows.length
  | .ofBytes _ height _ => height
  | .view viewport _ => viewport.height

-- The tile of a cell before anything is written to it.
def tile? : Origin → Nat → Nat → Option Tile
  | .blank _ _, _, _ => some .empty
  | .ofRows rows, x, y => rows[y]?.bind (·[x]?)
  | .ofBytes width _ bytes, x, y => pairAt? bytes (y * width + x)
  | .view viewport world, x, y => some ((world.get? (viewport.x + x) (viewport.y + y)).getD .empty)

end Origin

theorem pairAt_bytesOfTiles (tiles : List Tile) (n : Nat) :
    pairAt? (bytesOfTiles tiles) n = tiles[n]? := by
  induction tiles generalizing n with
  | nil => rfl
  | cons tile rest ih =>
    cases n with
    | zero => rfl
    | succ n => exact ih n

theorem getElem_flatten {rows : List (List α)} {width x : Nat}
    (h : ∀ row ∈ rows, row.length = width) (hx : x < width) (y : Nat) :
    rows.flatten[y * width + x]? = rows[y]?.bind (·[x]?) := by
  induction rows generalizing y with
  | nil => rfl
  | cons row rest ih =>
    have hrow := h row List.mem_cons_self
    rw [List.flatten_cons]
    cases y with
    | zero =>
      rw [Nat.zero_mul, Nat.zero_add, List.getElem?_append_left (hrow.symm ▸ hx)]
      rfl
    | succ y =>
      have hplace : (y + 1) * width + x = row.length + (y * width + x) := by
        rw [hrow, Nat.succ_mul]
        omega
      rw [hplace, List.getElem?_append_right (Nat.le_add_right _ _), Nat.add_sub_cancel_left]
      exact ih (fun other hother => h other (List.mem_cons_of_mem _ hother)) y

theorem Grid.get_generate {width height : Nat} {tile : Nat → Nat → Tile} {x y : Nat}
    (h : (generate width height tile).Has x y) :
    (generate width height tile).get? x y = some (tile x y) := by
  have hx : x < width := h.1
  have hplace : (List.range (width * height))[y * width + x]? = some (y * width + x) :=
    List.getElem?_range (place_lt hx h.2)
  rw [get_of_has h]
  change ((List.range (width * height)).map _)[y * width + x]? = _
  rw [List.getElem?_map, hplace, Option.map_some, place_mod hx, place_div hx]

-- A map that has just been made has the size and the tiles of what it was made from.
theorem Origin.get_build {origin : Origin} {grid : Grid} (h : origin.build = .ok grid) :
    grid.width = origin.width ∧ grid.height = origin.height ∧
      ∀ x y, grid.Has x y → grid.get? x y = origin.tile? x y := by
  cases origin with
  | blank width height =>
    cases h
    refine ⟨rfl, rfl, fun x y hcell => ?_⟩
    have hlt : y * width + x < width * height := place_lt hcell.1 hcell.2
    rw [Grid.get_of_has hcell]
    exact List.getElem?_replicate_of_lt hlt
  | ofRows rows =>
    rcases Grid.ofRows_cases rows with
      ⟨other, hother, hlengths, hwidth, hheight, hcells⟩ | ⟨_, _, herror, _⟩
    · cases hother.symm.trans h
      refine ⟨hwidth, hheight, fun x y hcell => ?_⟩
      rw [Grid.get_of_has hcell, hcells, hwidth]
      exact getElem_flatten hlengths (hwidth ▸ hcell.1) y
    · cases herror.symm.trans h
  | ofBytes width height bytes =>
    obtain ⟨hwidth, hheight, rfl⟩ := Grid.ofBytes_eq_ok_iff.1 h
    refine ⟨hwidth, hheight, fun x y hcell => ?_⟩
    rw [Grid.get_of_has hcell, hwidth]
    exact (pairAt_bytesOfTiles grid.cells _).symm
  | view viewport world =>
    cases h
    exact ⟨rfl, rfl, fun x y hcell => Grid.get_generate hcell⟩

end Origins

-- What a scene answers to a write, and the map that it has then.
theorem Scene.step_set (scene : Scene) (x y : Nat) (tile : Tile) :
    scene.step (.set x y tile) =
      (.set (decide (scene.grid.Has x y)) (scene.grid.write ⟨x, y, tile⟩).toBytes,
        { scene with grid := scene.grid.write ⟨x, y, tile⟩ }) := by
  have hsome : (scene.grid.set? x y tile).isSome = decide (scene.grid.Has x y) := by
    rw [Bool.eq_iff_iff, Grid.isSome_set_iff, decide_eq_true_iff]
  simp only [Scene.step, Grid.write, ← hsome]
  cases scene.grid.set? x y tile with
  | none => rfl
  | some grid => rfl

-- However a map was made, and whatever was written to it since, it has as many cells as its size
-- says, the place of a cell is always one of them, and each cell holds the last tile written to
-- it, or else the one it was made with. One more write is answered by whether there is such a cell,
-- and touches no other.
theorem faithful_grid {origin : Origin} {grid : Grid} (hbuilt : origin.build = .ok grid)
    (writes : List Write) :
    let map := grid.writeAll writes
    map.width = origin.width ∧ map.height = origin.height ∧
    map.cells.length = origin.width * origin.height ∧
    (∀ x y i, map.index? x y = some i → i < map.cells.length) ∧
    (∀ x y, (map.get? x y).isSome ↔ x < origin.width ∧ y < origin.height) ∧
    (∀ x y, x < origin.width → y < origin.height →
      map.get? x y = (lastTile? writes x y).or (origin.tile? x y)) ∧
    ∀ (scene : Scene) x y tile, ∃ inside next,
      { scene with grid := map }.step (.set x y tile) =
        (.set inside next.toBytes, { scene with grid := next }) ∧
      (inside = true ↔ x < origin.width ∧ y < origin.height) ∧
      next.width = map.width ∧ next.height = map.height ∧
      (inside = true → next.get? x y = some tile) ∧
      (∀ x' y', (x, y) ≠ (x', y') → next.get? x' y' = map.get? x' y') ∧
      (inside = false → next = map) := by
  intro map
  obtain ⟨hwidth, hheight, hget⟩ := origin.get_build hbuilt
  obtain ⟨hwidth', hheight'⟩ := grid.size_writeAll writes
  have hhas : ∀ x y, map.Has x y ↔ x < origin.width ∧ y < origin.height := by
    intro x y
    rw [Grid.Has, hwidth', hheight', hwidth, hheight]
  refine ⟨hwidth'.trans hwidth, hheight'.trans hheight, ?_, fun x y i => Grid.lt_of_index,
    fun x y => Grid.isSome_get_iff.trans (hhas x y), fun x y hx hy => ?_,
    fun scene x y tile => ?_⟩
  · rw [map.length_cells, hwidth', hheight', hwidth, hheight]
  · have hcell : grid.Has x y := ⟨hwidth ▸ hx, hheight ▸ hy⟩
    rw [← hget x y hcell]
    exact Grid.get_writeAll hcell writes
  · obtain ⟨hsame, hsame'⟩ := map.size_write ⟨x, y, tile⟩
    refine ⟨decide (map.Has x y), map.write ⟨x, y, tile⟩, Scene.step_set _ x y tile,
      decide_eq_true_iff.trans (hhas x y), hsame, hsame', fun hinside => ?_,
      fun x' y' hother => ?_, fun hinside => ?_⟩
    · rw [Grid.get_write (of_decide_eq_true hinside), if_pos (Write.isTo_iff.2 ⟨rfl, rfl⟩)]
    · refine Grid.get_write_of_not_isTo fun hto => hother ?_
      obtain ⟨rfl, rfl⟩ := Write.isTo_iff.1 hto
      rfl
    · exact Grid.write_of_not_has (of_decide_eq_false hinside)

-- The cell right of the first row would have the place of the first cell of the second row.
theorem faithful_grid_refused_write :
    let origin := Origin.ofBytes 2 2 [1, 0, 2, 0, 3, 0, 4, 0]
    let writes : List Write := [⟨1, 0, ⟨8, 1⟩⟩, ⟨2, 0, ⟨9, 0⟩⟩, ⟨1, 0, ⟨8, 2⟩⟩]
    ∃ grid, origin.build = .ok grid ∧ (grid.writeAll writes).get? 1 0 = some ⟨8, 2⟩ ∧
      (grid.writeAll writes).get? 0 1 = some ⟨3, 0⟩ := by
  intro origin writes
  have hbuilt : origin.build = .ok ⟨2, 2, [⟨1, 0⟩, ⟨2, 0⟩, ⟨3, 0⟩, ⟨4, 0⟩], rfl⟩ := rfl
  obtain ⟨_, _, _, _, _, hget, _⟩ := faithful_grid hbuilt writes
  exact ⟨_, hbuilt, hget 1 0 (by decide) (by decide), hget 0 1 (by decide) (by decide)⟩

end CodePanel.Map
