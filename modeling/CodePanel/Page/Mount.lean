import CodePanel.Overlay.Mounted
import CodePanel.Overlay.Settings
import CodePanel.Page.Backdrop

namespace CodePanel

open Overlay

-- The number of the text field, and the overlay.
structure PageOverlay where
  input : Nat
  overlay : Mounted

-- The browser that the page is shown in. One that cannot be asked is taken to be a plain one.
def Page.browser (page : Page) : Fit.Browser :=
  match page.navigator with
  | some navigator => navigator.browser
  | none => .plain

-- What the browser needs by itself.
def Page.adjustment (page : Page) : Fit.Adjustment :=
  .forBrowser page.browser

-- Checks the settings and looks up all elements before anything is changed.
def Page.resolve (page : Page) (settings : Settings) : Except Error (Nat × List Nat) :=
  match settings.validate with
  | .error error => .error (.settings error)
  | .ok () =>
    match page.document with
    | .error error => .error error
    | .ok () =>
      match page.lookup .textArea settings.inputId with
      | .error error => .error error
      | .ok input =>
        match page.lookupAll .htmlElement settings.backdropIds with
        | .error error => .error error
        | .ok backdrops => .ok (input, backdrops)

def PageOverlay.fill (mount : PageOverlay) (page : Page) : Page :=
  mount.overlay.input (page.valueOf mount.input) page

def PageOverlay.follow (mount : PageOverlay) (page : Page) : Page :=
  mount.overlay.scroll (page.scrollOf mount.input) page

-- Shows the text as it is now, and moves along.
def PageOverlay.refresh (mount : PageOverlay) (page : Page) : Page :=
  mount.overlay.refresh (page.valueOf mount.input) (page.scrollOf mount.input) page

def PageOverlay.mount (slot : Nat) (settings : Settings) (page : Page) :
    Except Error (PageOverlay × Page) :=
  match page.resolve settings with
  | .error error => .error error
  | .ok (input, backdrops) =>
    let (overlay, page) :=
      Mounted.mount backdrops (settings.adjust page.adjustment) settings.options page
    let mount : PageOverlay := ⟨input, overlay⟩
    let page := mount.refresh page
    .ok (mount, (page.listen (.element input) (.fill slot)).listen (.element input) (.follow slot))

-- Takes the listeners off and puts the paddings back. The markup stays.
def PageOverlay.unmount (slot : Nat) (mount : PageOverlay) (page : Page) : Page :=
  mount.overlay.unmount (page.silence (Listener.ofOverlay slot))

end CodePanel
