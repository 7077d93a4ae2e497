import CodePanel.Map.Drawing
import CodePanel.Map.Settings
import CodePanel.Map.Viewport

namespace CodePanel.Map

open Asset

-- A map, a window and a mouse over it, a cache of images named by strings, and two canvases to draw
-- on.
structure Scene where
  grid : Grid := .blank 0 0
  viewport : Viewport := ⟨0, 0, 0, 0⟩
  geometry : Geometry := ⟨32.0, 32.0⟩
  hover : Option Cell := none
  cache : Cache String String := .empty
  tiles : Canvas String := {}
  overlay : Canvas String := {}

inductive SceneCommand where
  | blank (width height : Nat)
  | rows (rows : List (List Tile))
  | bytes (width height : Nat) (bytes : List UInt8)
  | get (x y : Nat)
  | set (x y : Nat) (tile : Tile)
  | cells
  | assetNames
  | viewport (viewport : Viewport)
  | move (direction : Direction)
  | view
  | adoptView
  | geometry (geometry : Geometry)
  | cellAt (px py : Float) (columns rows : Nat)
  | cellOrigin (cell : Cell)
  | canvasSize
  | hover (px py : Float)
  | leave
  | request (ids : List String)
  | requestMap
  | loaded (id asset : String)
  | failed (id : String)
  | onReady (name : String)
  | lookup (id : String)
  | drawTiles
  | drawHover (marker : String)

-- The account of a cache that goes with every reply about it.
structure CacheReport where
  ready : Bool
  pending : Nat
  size : Nat
  summary : String

inductive SceneReply where
  | grid (grid : Grid)
  | failed (error : MapError)
  | tile (tile : Option Tile)
  | set (inside : Bool) (bytes : List UInt8)
  | cells (cells : List (Cell × Tile))
  | names (names : List String)
  | viewport (viewport : Viewport)
  | pixels (x y : Float)
  | cell (cell : Option Cell)
  | hover (changed : Bool) (cell : Option Cell)
  | load (ids : List String) (cache : CacheReport)
  | fired (names : List String) (cache : CacheReport)
  | asset (asset : Option String) (state : LoadState)
  | drawnTiles (count : Nat) (canvas : Canvas String)
  | drawnHover (drawn : Bool) (canvas : Canvas String)

def cacheReport (cache : Cache α κ) : CacheReport :=
  ⟨cache.isReady, cache.pending, cache.size, cache.summary⟩

-- Replaces the grid, or reports why there is none.
def Scene.adopt (scene : Scene) : Except MapError Grid → SceneReply × Scene
  | .ok grid => (.grid grid, { scene with grid })
  | .error error => (.failed error, scene)

def Scene.hoverAt (scene : Scene) (cell : Option Cell) : SceneReply × Scene :=
  (.hover (cell ≠ scene.hover) cell, { scene with hover := cell })

def Scene.request (scene : Scene) (ids : List String) : SceneReply × Scene :=
  let (started, cache) := scene.cache.request ids
  (.load started (cacheReport cache), { scene with cache })

def Scene.settle (scene : Scene) (id : String) (entry : Entry String) : SceneReply × Scene :=
  let (names, cache) := scene.cache.settle id entry
  (.fired names (cacheReport cache), { scene with cache })

def Scene.step (scene : Scene) : SceneCommand → SceneReply × Scene
  | .blank width height => scene.adopt (.ok (.blank width height))
  | .rows rows => scene.adopt (Grid.ofRows rows)
  | .bytes width height bytes => scene.adopt (Grid.ofBytes width height bytes)
  | .get x y => (.tile (scene.grid.get? x y), scene)
  | .set x y tile =>
    match scene.grid.set? x y tile with
    | some grid => (.set true grid.toBytes, { scene with grid })
    | none => (.set false scene.grid.toBytes, scene)
  | .cells => (.cells scene.grid.toList, scene)
  | .assetNames => (.names scene.grid.assetNames, scene)
  | .viewport viewport => (.viewport viewport, { scene with viewport })
  | .move direction =>
    let viewport := scene.viewport.move direction
    (.viewport viewport, { scene with viewport })
  | .view => (.grid (scene.viewport.view scene.grid), scene)
  | .adoptView => scene.adopt (.ok (scene.viewport.view scene.grid))
  | .geometry geometry =>
    (.pixels geometry.tileWidth geometry.tileHeight, { scene with geometry })
  | .cellAt px py columns rows => (.cell (scene.geometry.cellAt? px py columns rows), scene)
  | .cellOrigin cell =>
    let origin := scene.geometry.cellOrigin cell
    (.pixels origin.1 origin.2, scene)
  | .canvasSize =>
    let size := scene.geometry.canvasSize scene.grid.width scene.grid.height
    (.pixels size.1 size.2, scene)
  | .hover px py =>
    scene.hoverAt (scene.geometry.cellAt? px py scene.grid.width scene.grid.height)
  | .leave => scene.hoverAt none
  | .request ids => scene.request ids
  | .requestMap => scene.request scene.grid.assetNames
  | .loaded id asset => scene.settle id (.loaded asset)
  | .failed id => scene.settle id .failed
  | .onReady name =>
    let (now, cache) := scene.cache.onReady name
    (.fired now.toList (cacheReport cache), { scene with cache })
  | .lookup id => (.asset (scene.cache.get? id) (scene.cache.state id), scene)
  | .drawTiles =>
    let (count, tiles) := drawTiles scene.geometry scene.cache scene.grid scene.tiles
    (.drawnTiles count tiles, { scene with tiles })
  | .drawHover marker =>
    let sprites := hoverSprites scene.geometry scene.cache marker scene.hover
    let overlay := scene.overlay.paint sprites
    (.drawnHover (!sprites.isEmpty) overlay, { scene with overlay })

end CodePanel.Map
