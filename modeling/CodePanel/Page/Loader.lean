import CodePanel.Asset.Cache
import CodePanel.Page.Basic

namespace CodePanel

open Asset

-- The address of an asset is its name between a base and an extension. Names whose listeners are
-- on their image are kept with the number of the image.
structure Loader (κ : Type) where
  base : String
  extension : String := ""
  cache : Cache Nat κ := .empty
  attached : List (String × Nat) := []

def Loader.url (loader : Loader κ) (name : String) : String :=
  loader.base ++ name ++ loader.extension

-- The number of images whose listeners are still there.
def Loader.inFlight (loader : Loader κ) : Nat :=
  loader.attached.length

-- Adds an image element, unless making one throws.
def Page.addImage (page : Page) (image : Image) : Except Error Page :=
  match page.faults.image with
  | some thrown => .error (.browserCall thrown.message)
  | none => .ok { page with images := page.images ++ [image] }

def detachImage (self : LoaderName) (page : Page) (attachment : String × Nat) : Page :=
  let (name, image) := attachment
  (page.unlisten (.image image) (.arrive self name image)).unlisten (.image image)
    (.fail self name image)

-- Takes the listeners off all images whose load has ended.
def Loader.prune (self : LoaderName) (loader : Loader κ) (page : Page) : Loader κ × Page :=
  let isLive (attachment : String × Nat) : Bool := loader.cache.state attachment.1 == .loading
  ({ loader with attached := loader.attached.filter isLive },
    (loader.attached.filter (!isLive ·)).foldl (detachImage self) page)

-- Starts one load after the other, up to the first image that cannot be made.
def Loader.start (self : LoaderName) (loader : Loader κ) (page : Page) :
    List String → Except Error Unit × Loader κ × Page
  | [] => (.ok (), loader, page)
  | name :: rest =>
    let image := page.images.length
    let listeners := [.arrive self name image, .fail self name image]
    match page.addImage { src := loader.url name, listeners } with
    | .error error => (.error error, loader, page)
    | .ok page =>
      Loader.start self { loader with attached := loader.attached ++ [(name, image)] } page rest

-- Asks for assets and tells how many loads were started.
def Loader.load (self : LoaderName) (loader : Loader κ) (page : Page) (names : List String) :
    Except Error Nat × Loader κ × Page :=
  let (loader, page) := loader.prune self page
  let (started, cache) := loader.cache.request names
  let (outcome, loader, page) := Loader.start self { loader with cache } page started
  (outcome.map fun _ => started.length, loader, page)

-- Takes note of the end of a load. A failure is reported, unless the load had ended before.
def Loader.settle (loader : Loader κ) (page : Page) (name : String) (entry : Entry Nat) :
    List κ × Loader κ × Page :=
  let page := match entry with
    | .failed => if loader.cache.isSettled name then page else page.report (.assetFailed name)
    | _ => page
  let (ready, cache) := loader.cache.settle name entry
  (ready, { loader with cache }, page)

end CodePanel
