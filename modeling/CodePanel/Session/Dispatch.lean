import CodePanel.Session.State

namespace CodePanel

open Asset

-- The end of a load that the shared loader waits for.
def Session.settleShared (session : Session) (name : String) (entry : Entry Nat) : Session :=
  match session.loader with
  | none => session
  | some loader =>
    let (ready, loader, page) := loader.settle session.page name entry
    { session with loader := some loader, page, fired := session.fired ++ ready }

-- The end of a load that the map view in a slot waits for.
def Session.settleView (session : Session) (slot : Nat) (name : String) (entry : Entry Nat) :
    Session :=
  match session.views slot with
  | none => session
  | some view =>
    let (view, page) := view.settle session.page name entry
    { session with page }.setView slot (some view)

def Session.settle (session : Session) (name : String) (entry : Entry Nat) : LoaderName → Session
  | .shared => session.settleShared name entry
  | .view slot => session.settleView slot name entry

-- Moves the mouse over the map view in a slot, or off it.
def Session.hover (session : Session) (slot : Nat) (change : View → Page → View × Page) : Session :=
  match session.views slot with
  | none => session
  | some view =>
    let (view, page) := change view session.page
    { session with page }.setView slot (some view)

def Session.withOverlay (session : Session) (slot : Nat) (change : PageOverlay → Page → Page) :
    Session :=
  match session.overlays slot with
  | some (.mounted mount) => { session with page := change mount session.page }
  | _ => session

def Session.changePage (session : Session) (change : Page → Page) : Session :=
  { session with page := change session.page }

-- Does what a listener is there for.
def Session.handle (session : Session) (event : Event) : Listener → Session
  | .fill slot => session.withOverlay slot PageOverlay.fill
  | .follow slot => session.withOverlay slot PageOverlay.follow
  | .point slot =>
    match event with
    | .mouse x y => session.hover slot fun view page => view.point page x y
    | _ => session
  | .leave slot => session.hover slot fun view page => view.hoverAt page none
  | .arrive loader name image => session.settle name (.loaded image) loader
  | .fail loader name _ => session.settle name .failed loader
  | .opened socket => session.changePage fun page => page.report (.socketOpen (page.urlOf socket))
  | .received _ => session.changePage fun page => page.receive event
  | .closed socket => session.changePage fun page => page.reportClosed socket event
  | .broken socket => session.changePage fun page => page.report (.socketError (page.urlOf socket))
  | .upload socket input => session.changePage fun page => page.clickUpload socket input

-- A listener that runs only once is taken off just before it runs.
def Session.fire (session : Session) (target : Target) (event : Event)
    (listener : Listener) : Session :=
  let session := if listener.isOnce then session.changePage (·.unlisten target listener)
    else session
  session.handle event listener

-- The listeners of a target that wait for an event run in the order in which they were added.
def Session.dispatch (session : Session) (target : Target) (type : String)
    (event : Event) : Session :=
  ((session.page.listeners target).filter (·.event == type)).foldl
    (fun session listener => session.fire target event listener) session

end CodePanel
