import CodePanel.Map.Drawing
import CodePanel.Proofs.Asset.Names
import CodePanel.Proofs.Map.Layout

namespace CodePanel.Map

open Asset

variable {cache : Cache α κ} {grid : Grid}

-- The image of a cell, if there is such a cell and its image is loaded.
def assetAt? (cache : Cache α κ) (grid : Grid) (cell : Cell) : Option α :=
  (grid.get? cell.x cell.y).bind fun tile => cache.get? tile.assetName

-- The cells whose images are loaded, row by row, with their images.
def loadedCells (cache : Cache α κ) (grid : Grid) : List (Cell × α) :=
  (rowByRow grid.width grid.height).filterMap fun cell =>
    (assetAt? cache grid cell).map fun asset => (cell, asset)

theorem assetAt_eq_some_iff {cell : Cell} {asset : α} :
    assetAt? cache grid cell = some asset ↔
      ∃ tile, grid.get? cell.x cell.y = some tile ∧ cache.get? tile.assetName = some asset :=
  Option.bind_eq_some_iff

-- A cell with an image is one of the map, so it is not missed.
theorem mem_loadedCells {cell : Cell} {asset : α} :
    (cell, asset) ∈ loadedCells cache grid ↔ assetAt? cache grid cell = some asset := by
  simp only [loadedCells, List.mem_filterMap, Option.map_eq_some_iff, Prod.mk.injEq]
  constructor
  · rintro ⟨_, _, _, hasset, rfl, rfl⟩
    exact hasset
  · intro hasset
    obtain ⟨tile, htile, _⟩ := assetAt_eq_some_iff.mp hasset
    have hcell : grid.Has cell.x cell.y := Grid.isSome_get_iff.mp (by rw [htile]; rfl)
    exact ⟨cell, mem_rowByRow.mpr hcell, asset, hasset, rfl, rfl⟩

theorem map_fst_loadedCells :
    (loadedCells cache grid).map Prod.fst =
      (rowByRow grid.width grid.height).filter fun cell => (assetAt? cache grid cell).isSome := by
  rw [loadedCells, List.map_filterMap, ← List.filterMap_eq_filter]
  apply List.filterMap_congr
  intro cell _
  cases hasset : assetAt? cache grid cell with
  | none => simp [Option.guard, hasset]
  | some asset => simp [Option.guard, hasset]

-- Drawing goes through the list of cells, which gives every cell with its own tile.
theorem tileSprites_eq (geometry : Geometry) :
    tileSprites geometry cache grid =
      (loadedCells cache grid).map fun (cell, asset) => geometry.sprite cell asset := by
  rw [loadedCells, List.map_filterMap, ← grid.map_fst_toList, List.filterMap_map, tileSprites]
  apply List.filterMap_congr
  rintro ⟨cell, tile⟩ hmem
  simp only [Function.comp_apply, assetAt?, Grid.get_of_mem_toList hmem, Option.bind_some,
    Option.map_map]
  rfl

theorem isSome_assetAt_of_loaded (h : ∀ name ∈ grid.assetNames, cache.state name = .loaded)
    {cell : Cell} (hcell : cell ∈ rowByRow grid.width grid.height) :
    (assetAt? cache grid cell).isSome := by
  have hsome := Grid.isSome_get_iff.mpr (mem_rowByRow.mp hcell)
  obtain ⟨tile, htile⟩ := Option.isSome_iff_exists.mp hsome
  have hname : tile.assetName ∈ grid.assetNames :=
    Grid.mem_assetNames.mpr ⟨tile, Grid.mem_cells_of_get htile, rfl⟩
  obtain ⟨asset, hasset⟩ := cache.state_eq_loaded_iff.mp (h _ hname)
  exact Option.isSome_iff_exists.mpr ⟨asset, assetAt_eq_some_iff.mpr ⟨tile, htile, hasset⟩⟩

-- The canvas is cleared once. Then those cells are drawn whose images are loaded, each once and in
-- the order of the rows, with its image, at its place and in the size of a tile, and they are
-- counted. If every image that the map asks for is loaded, no cell is left out.
theorem tiles_covered (geometry : Geometry) (cache : Cache α κ) (grid : Grid) (canvas : Canvas α) :
    ∃ drawn : List (Cell × α),
      drawTiles geometry cache grid canvas =
        (drawn.length, {
          clears := canvas.clears + 1
          draws := drawn.map fun (cell, asset) => {
            asset
            x := (geometry.cellOrigin cell).1
            y := (geometry.cellOrigin cell).2
            width := geometry.tileWidth
            height := geometry.tileHeight } }) ∧
      (∀ cell asset, (cell, asset) ∈ drawn ↔
        ∃ tile, grid.get? cell.x cell.y = some tile ∧
          cache.get? ("tile" ++ toString tile.id.toNat ++ "_" ++ toString tile.orientation.toNat) =
            some asset) ∧
      (drawn.map Prod.fst).Sublist (rowByRow grid.width grid.height) ∧
      (drawn.map Prod.fst).Nodup ∧
      ((∀ name ∈ grid.assetNames, cache.state name = .loaded) →
        drawn.map Prod.fst = rowByRow grid.width grid.height ∧
        drawn.length = grid.width * grid.height) := by
  refine ⟨loadedCells cache grid, ?_, fun cell asset => ?_, ?_, ?_, fun hloaded => ?_⟩
  · rw [drawTiles, tileSprites_eq, List.length_map]
    rfl
  · exact mem_loadedCells.trans assetAt_eq_some_iff
  · rw [map_fst_loadedCells]
    exact List.filter_sublist
  · rw [map_fst_loadedCells]
    exact nodup_rowByRow.filter _
  · have hall : (loadedCells cache grid).map Prod.fst = rowByRow grid.width grid.height := by
      rw [map_fst_loadedCells, List.filter_eq_self]
      exact fun cell => isSome_assetAt_of_loaded hloaded
    refine ⟨hall, ?_⟩
    rw [← length_rowByRow, ← hall, List.length_map]

-- Two images make up a map of four tiles.
theorem tiles_covered_four_tiles :
    let grid : Grid := ⟨2, 2, [⟨1, 0⟩, ⟨2, 3⟩, ⟨2, 3⟩, ⟨1, 0⟩], rfl⟩
    let cache : Cache String Unit :=
      ⟨[("tile2_3", .loaded "wall"), ("highlight", .failed), ("tile1_0", .loaded "floor")], [],
        by decide⟩
    (∀ name ∈ grid.assetNames, cache.state name = .loaded) ∧
      (drawTiles ⟨16.0, 24.0⟩ cache grid {}).1 = 4 := by
  intro grid cache
  have htiles : ∀ tile ∈ grid.cells, cache.state tile.assetName = .loaded := by decide
  have hloaded : ∀ name ∈ grid.assetNames, cache.state name = .loaded := by
    intro name hname
    obtain ⟨tile, htile, rfl⟩ := Grid.mem_assetNames.mp hname
    exact htiles tile htile
  obtain ⟨drawn, hdraw, -, -, -, hall⟩ := tiles_covered ⟨16.0, 24.0⟩ cache grid {}
  refine ⟨hloaded, ?_⟩
  rw [hdraw]
  exact (hall hloaded).2

end CodePanel.Map
