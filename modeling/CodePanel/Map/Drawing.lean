import CodePanel.Asset.Cache
import CodePanel.Map.Grid

namespace CodePanel.Map

open Asset

-- An asset in a rectangle of pixels.
structure Sprite (α : Type) where
  asset : α
  x : Float
  y : Float
  width : Float
  height : Float
deriving DecidableEq

def Geometry.sprite (geometry : Geometry) (cell : Cell) (asset : α) : Sprite α :=
  let origin := geometry.cellOrigin cell
  ⟨asset, origin.1, origin.2, geometry.tileWidth, geometry.tileHeight⟩

-- One sprite for each cell whose image is loaded, row by row.
def tileSprites (geometry : Geometry) (cache : Cache α κ) (grid : Grid) : List (Sprite α) :=
  grid.toList.filterMap fun (cell, tile) =>
    (cache.get? tile.assetName).map (geometry.sprite cell)

-- The marker on the cell under the mouse, if there is such a cell and the marker is loaded.
def hoverSprites (geometry : Geometry) (cache : Cache α κ) (marker : String)
    (hover : Option Cell) : List (Sprite α) :=
  match hover, cache.get? marker with
  | some cell, some asset => [geometry.sprite cell asset]
  | _, _ => []

-- A canvas that remembers how often it was cleared and what was drawn since.
structure Canvas (α : Type) where
  clears : Nat := 0
  draws : List (Sprite α) := []

-- Clears the canvas and draws sprites on it.
def Canvas.paint (canvas : Canvas α) (sprites : List (Sprite α)) : Canvas α :=
  ⟨canvas.clears + 1, sprites⟩

-- Clears the canvas, draws the tiles of a map on it, and tells how many there were.
def drawTiles (geometry : Geometry) (cache : Cache α κ) (grid : Grid) (canvas : Canvas α) :
    Nat × Canvas α :=
  let sprites := tileSprites geometry cache grid
  (sprites.length, canvas.paint sprites)

end CodePanel.Map
