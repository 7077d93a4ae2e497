import CodePanel.Map.Settings
import CodePanel.Map.Viewport
import CodePanel.Page.Canvas
import CodePanel.Page.Loader

namespace CodePanel

open Asset Map

-- A canvas with the tiles of a map, and over it a canvas with the marker of the cell under the
-- mouse. The callbacks of the view's loader are all the same: they ask for a redraw.
structure View where
  settings : Settings
  canvas : Nat
  overlay : Nat
  grid : Grid
  hover : Option Cell
  world : Option (Grid × Viewport)
  loader : Loader Unit

def View.geometry (view : View) : Geometry :=
  view.settings.geometry

def View.imagesReady (view : View) : Bool :=
  view.loader.cache.isReady

-- The sprites of the whole map.
def View.tileSprites (view : View) : List (Sprite Nat) :=
  Map.tileSprites view.geometry view.loader.cache view.grid

-- The marker, or nothing.
def View.hoverSprites (view : View) : List (Sprite Nat) :=
  Map.hoverSprites view.geometry view.loader.cache view.settings.highlightAsset view.hover

def View.drawHover (view : View) (page : Page) : Page :=
  page.paint view.overlay view.hoverSprites

def View.redraw (view : View) (page : Page) : Page :=
  view.drawHover (page.paint view.canvas view.tileSprites)

-- Looks up both canvases before anything is changed.
def Page.resolveView (page : Page) (settings : Settings) : Except Error (Nat × Nat) :=
  match settings.validate with
  | .error error => .error (.settings error)
  | .ok () =>
    match page.document with
    | .error error => .error error
    | .ok () =>
      match page.openCanvas settings.canvasId with
      | .error error => .error error
      | .ok canvas =>
        match page.openCanvas settings.overlayId with
        | .error error => .error error
        | .ok overlay => .ok (canvas, overlay)

-- Mounts a view with no map. The marker is loaded at once.
def View.mount (slot : Nat) (settings : Settings) (page : Page) : Except Error (View × Page) :=
  match page.resolveView settings with
  | .error error => .error error
  | .ok (canvas, overlay) =>
    let loader : Loader Unit := { base := settings.assetBase, extension := settings.assetExtension }
    match loader.load (.view slot) page [settings.highlightAsset] with
    | (.error error, _, _) => .error error
    | (.ok _, loader, page) =>
      let view : View :=
        { settings, canvas, overlay, grid := .blank 0 0, hover := none, world := none, loader }
      let target := Target.element overlay
      .ok (view, (page.listen target (.point slot)).listen target (.leave slot))

def View.unmount (slot : Nat) (page : Page) : Page :=
  (page.silence (Listener.ofLoader (.view slot))).silence (Listener.ofView slot)

-- Both canvases take the size of the new map, and no cell is under the mouse.
def View.show (view : View) (page : Page) (grid : Grid) : View × Page :=
  let size := view.geometry.canvasSize grid.width grid.height
  ({ view with grid, hover := none }, (page.resize view.canvas size).resize view.overlay size)

-- Draws when all images are there: now, or after the last one.
def View.drawWhenReady (view : View) (page : Page) : View × Page :=
  match view.loader.cache.onReady () with
  | (some (), cache) =>
    let view := { view with loader := { view.loader with cache } }
    (view, view.redraw page)
  | (none, cache) => ({ view with loader := { view.loader with cache } }, page)

-- Replaces the map that is shown.
def View.setMap (slot : Nat) (view : View) (page : Page) (grid : Grid) :
    Except Error Unit × View × Page :=
  let (view, page) := view.show page grid
  let (outcome, loader, page) := view.loader.load (.view slot) page grid.assetNames
  let view := { view with loader }
  match outcome with
  | .error error => (.error error, view, page)
  | .ok _ => (.ok (), view.drawWhenReady page)

-- Shows a map given by its bytes.
def View.setBytes (slot : Nat) (view : View) (page : Page) (width height : Nat)
    (bytes : List UInt8) : Except Error Unit × View × Page :=
  match Grid.ofBytes width height bytes with
  | .error error => (.error (.map error), view, page)
  | .ok grid => view.setMap slot page grid

-- Keeps a larger map and shows the part under a viewport.
def View.setWorld (slot : Nat) (view : View) (page : Page) (world : Grid) (viewport : Viewport) :
    Except Error Unit × View × Page :=
  { view with world := some (world, viewport) }.setMap slot page (viewport.view world)

-- Moves the viewport over the larger map, if there is one.
def View.pan (slot : Nat) (view : View) (page : Page) (direction : Direction) :
    Except Error Unit × View × Page :=
  match view.world with
  | none => (.ok (), view, page)
  | some (world, viewport) => view.setWorld slot page world (viewport.move direction)

-- The mouse is over another cell, or over none. The marker is drawn only if that is news.
def View.hoverAt (view : View) (page : Page) (cell : Option Cell) : View × Page :=
  let moved := { view with hover := cell }
  (moved, if cell = view.hover then page else moved.drawHover page)

def View.point (view : View) (page : Page) (x y : Int) : View × Page :=
  view.hoverAt page (view.geometry.cellAt? (Float.ofInt x) (Float.ofInt y) view.grid.width
    view.grid.height)

-- The end of a load. Every callback that it sets free draws the view again.
def View.settle (view : View) (page : Page) (name : String) (entry : Entry Nat) : View × Page :=
  let (ready, loader, page) := view.loader.settle page name entry
  let view := { view with loader }
  (view, ready.foldl (fun page _ => view.redraw page) page)

end CodePanel
