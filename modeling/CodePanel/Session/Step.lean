import CodePanel.Session.Dispatch

namespace CodePanel

open Asset Map Overlay

inductive SessionCommand where
  -- The user and the page.
  | setValue (id value : String)
  | setScroll (id : String) (scroll : Offset)
  | remove (id : String)
  | faults (faults : Faults)
  | event (id type : String) (event : Event)
  | imageEvent (image : Nat) (type : String) (throws : Option Thrown)
  | socketEvent (socket : Nat) (type : String) (event : Event)
  -- Single surfaces.
  | browser
  | textArea (id : String) (scroll : Option Scroll)
  | backdrop (id : String) (html : Option String) (scroll : Option Scroll)
      (padding : Option Padding)
  | canvas (id : String) (size : Option (Float × Float))
  -- The shared loader.
  | newLoader (base : String)
  | load (names : List String)
  | onReady (name : String)
  | loaderState (names : List String)
  -- Overlays. Settings that cannot be made out are refused.
  | mount (slot : Nat) (settings : Option Overlay.Settings)
  | refresh (slot : Nat)
  | unmount (slot : Nat)
  | mounted (slot : Nat)
  -- Map views.
  | mountView (slot : Nat) (settings : Option Map.Settings)
  | unmountView (slot : Nat)
  | setBytes (slot width height : Nat) (bytes : List UInt8)
  | setWorld (slot width height : Nat) (bytes : List UInt8) (viewport : Viewport)
  | pan (slot : Nat) (direction : Direction)
  | redraw (slot : Nat)
  | viewState (slot : Nat)
  -- Sockets.
  | connect (slot : Nat) (url : String)
  | disconnect (slot : Nat)
  | send (slot : Nat) (text : String)
  | bind (slot : Nat) (buttonId inputId : String)
  | unbind
  | socketState (slot : Nat)

inductive SessionReply where
  | done
  | notMounted
  | noSuchObject
  | failed (error : Error)
  | socketFailed (error : SocketError)
  | refused (message : String)
  | flag (value : Bool)
  | count (value : Nat)
  | browser (browser : Fit.Browser) (adjustment : Fit.Adjustment)
  | textArea (id text : String) (scroll : Scroll)
  | backdrop (id : String) (scroll : Scroll) (padding : Padding)
  | canvas (id : String)
  | loader (ready : Bool) (inFlight : Nat) (assets : List (LoadState × Option String))
  | overlay (inputId : String) (backdropIds : List String) (options : Markup.Options)
  | view (hover : Option Cell) (ready : Bool)
  | socket (url : String) (readyState : Nat)

def SessionReply.ofOutcome : Except Error Unit → SessionReply
  | .ok () => .done
  | .error error => .failed error

-- The element that the user means: the first one with the id, on the page or removed from it.
def Page.reach? (page : Page) (id : String) : Option Nat :=
  page.elements.findIdx? (·.id == id)

-- A change to an element by the user or the page.
def Session.touch (session : Session) (id : String) (change : Element → Element) :
    SessionReply × Session :=
  match session.page.reach? id with
  | none => (.noSuchObject, session)
  | some n => (.done, session.changePage (·.modifyElement n change))

-- Looks an element up, changes the page with it, and answers about it.
def Session.inspect (session : Session) (lookup : Page → Except Error Nat)
    (change : Nat → Page → Page) (reply : Nat → Page → SessionReply) : SessionReply × Session :=
  match session.page.document with
  | .error error => (.failed error, session)
  | .ok () =>
    match lookup session.page with
    | .error error => (.failed error, session)
    | .ok n =>
      let page := change n session.page
      (reply n page, { session with page })

-- Applies a change if there is a value for it.
def whenGiven (value : Option α) (change : α → Page → Page) (page : Page) : Page :=
  match value with
  | some a => change a page
  | none => page

def Session.imageEvent (session : Session) (image : Nat) (type : String) (throws : Option Thrown) :
    SessionReply × Session :=
  if image < session.page.images.length then
    let session := session.changePage (·.modifyImage image fun i => { i with throws })
    (.done, session.dispatch (.image image) type .plain)
  else (.noSuchObject, session)

-- Opening and closing change the state of the socket before anyone hears of it.
def Session.socketEvent (session : Session) (socket : Nat) (type : String)
    (event : Event) : SessionReply × Session :=
  if socket < session.page.sockets.length then
    let session := session.changePage (·.modifySocket socket fun s =>
      if type = "open" then { s with readyState := 1 }
      else if type = "close" then { s with readyState := 3 }
      else s)
    (.done, session.dispatch (.socket socket) type event)
  else (.noSuchObject, session)

def Session.load (session : Session) (names : List String) : SessionReply × Session :=
  match session.loader with
  | none => (.notMounted, session)
  | some loader =>
    match loader.load .shared session.page names with
    | (.ok count, loader, page) => (.count count, { session with loader := some loader, page })
    | (.error error, loader, page) => (.failed error, { session with loader := some loader, page })

def Session.onReady (session : Session) (name : String) : SessionReply × Session :=
  match session.loader with
  | none => (.notMounted, session)
  | some loader =>
    let (now, cache) := loader.cache.onReady name
    (.done, { session with
      loader := some { loader with cache }
      fired := session.fired ++ now.toList })

def Session.loaderState (session : Session) (names : List String) : SessionReply :=
  match session.loader with
  | none => .notMounted
  | some loader =>
    .loader loader.cache.isReady loader.inFlight <| names.map fun name =>
      (loader.cache.state name, (loader.cache.get? name).map session.page.srcOf)

def Session.mount (session : Session) (slot : Nat) (settings : Option Overlay.Settings) :
    SessionReply × Session :=
  let session := session.clearOverlay slot none
  match settings with
  | none => (.refused "Invalid overlay config", session)
  | some settings =>
    match PageOverlay.mount slot settings session.page with
    | .error error => (.failed error, session)
    | .ok (mount, page) =>
      (.done, { session with page }.setOverlay slot (some (.mounted mount)))

def Session.refresh (session : Session) (slot : Nat) : SessionReply × Session :=
  match session.overlays slot with
  | none => (.notMounted, session)
  | some _ => (.done, session.withOverlay slot PageOverlay.refresh)

def Session.unmount (session : Session) (slot : Nat) : SessionReply × Session :=
  match session.overlays slot, session.access with
  | none, _ => (.notMounted, session)
  | some _, .direct => (.done, session.clearOverlay slot none)
  | some _, .scripted => (.done, session.clearOverlay slot (some .unmounted))

def Session.mounted (session : Session) (slot : Nat) : SessionReply :=
  match session.overlays slot, session.access with
  | none, _ => .notMounted
  | some (.mounted mount), .direct =>
    .overlay (session.page.idOf mount.input) (mount.overlay.backdrops.map session.page.idOf)
      mount.overlay.options
  | some (.mounted _), .scripted => .flag true
  | some .unmounted, _ => .flag false

def Session.mountView (session : Session) (slot : Nat) (settings : Option Map.Settings) :
    SessionReply × Session :=
  let session := session.clearView slot
  match settings with
  | none => (.refused "Invalid tile view config", session)
  | some settings =>
    match View.mount slot settings session.page with
    | .error error => (.failed error, session)
    | .ok (view, page) => (.done, { session with page }.setView slot (some view))

-- Asks something of the map view in a slot.
def Session.withView (session : Session) (slot : Nat)
    (change : View → Page → Except Error Unit × View × Page) : SessionReply × Session :=
  match session.views slot with
  | none => (.notMounted, session)
  | some view =>
    let (outcome, view, page) := change view session.page
    (.ofOutcome outcome, { session with page }.setView slot (some view))

def View.setWorldBytes (slot : Nat) (view : View) (page : Page) (width height : Nat)
    (bytes : List UInt8) (viewport : Viewport) : Except Error Unit × View × Page :=
  match Grid.ofBytes width height bytes with
  | .error error => (.error (.map error), view, page)
  | .ok world => view.setWorld slot page world viewport

def Session.connect (session : Session) (slot : Nat) (url : String) : SessionReply × Session :=
  let session := session.clearConnection slot
  match session.page.connect url with
  | .error error => (.socketFailed error, session)
  | .ok (socket, page) =>
    (.done, { session with page, connections := session.connections ++ [(slot, socket)] })

def Session.send (session : Session) (slot : Nat) (text : String) : SessionReply × Session :=
  match session.connection? slot with
  | none => (.notMounted, session)
  | some socket =>
    match session.page.upload socket text with
    | (.ok (), page) => (.done, { session with page })
    | (.error error, page) => (.socketFailed error, { session with page })

def Session.bind (session : Session) (slot : Nat) (buttonId inputId : String) :
    SessionReply × Session :=
  match session.connection? slot with
  | none => (.notMounted, session)
  | some socket =>
    match session.page.bind socket buttonId inputId with
    | .error error => (.failed error, session)
    | .ok page => (.done, { session with page, bindings := session.bindings ++ [socket] })

def Session.socketState (session : Session) (slot : Nat) : SessionReply :=
  match session.connection? slot with
  | none => .notMounted
  | some socket => .socket (session.page.urlOf socket) (session.page.readyState socket)

def Session.respond (session : Session) : SessionCommand → SessionReply × Session
  | .setValue id value => session.touch id fun e => { e with value }
  | .setScroll id scroll => session.touch id fun e => { e with scroll }
  | .remove id => session.touch id fun e => { e with isRemoved := true }
  | .faults faults => (.done, session.changePage fun page => { page with faults })
  | .event id type event =>
    match session.page.reach? id with
    | none => (.noSuchObject, session)
    | some n => (.done, session.dispatch (.element n) type event)
  | .imageEvent image type throws => session.imageEvent image type throws
  | .socketEvent socket type event => session.socketEvent socket type event
  | .browser => (.browser session.page.browser session.page.adjustment, session)
  | .textArea id scroll =>
    session.inspect (·.lookup .textArea id) (fun n => whenGiven scroll (Host.setScroll n))
      fun n page => .textArea (page.idOf n) (page.valueOf n) (page.scrollOf n)
  | .backdrop id html scroll padding =>
    session.inspect (·.lookup .htmlElement id)
      (fun n page => whenGiven padding (Host.setPadding n)
        (whenGiven scroll (Host.setScroll n) (whenGiven html (Host.setHtml n) page)))
      fun n page => .backdrop (page.idOf n) (page.scrollOf n) (page.paddingOf n)
  | .canvas id size =>
    session.inspect (·.openCanvas id) (fun n => whenGiven size fun size page => page.resize n size)
      fun n page => .canvas (page.idOf n)
  | .newLoader base =>
    (.done, { session with
      loader := some { base }
      page := session.page.silence (Listener.ofLoader .shared) })
  | .load names => session.load names
  | .onReady name => session.onReady name
  | .loaderState names => (session.loaderState names, session)
  | .mount slot settings => session.mount slot settings
  | .refresh slot => session.refresh slot
  | .unmount slot => session.unmount slot
  | .mounted slot => (session.mounted slot, session)
  | .mountView slot settings => session.mountView slot settings
  | .unmountView slot => (.flag (session.views slot).isSome, session.clearView slot)
  | .setBytes slot width height bytes =>
    session.withView slot fun view page => view.setBytes slot page width height bytes
  | .setWorld slot width height bytes viewport =>
    session.withView slot fun view page =>
      view.setWorldBytes slot page width height bytes viewport
  | .pan slot direction => session.withView slot fun view page => view.pan slot page direction
  | .redraw slot => session.withView slot fun view page => (.ok (), view, view.redraw page)
  | .viewState slot =>
    match session.views slot with
    | none => (.notMounted, session)
    | some view => (.view view.hover view.imagesReady, session)
  | .connect slot url => session.connect slot url
  | .disconnect slot =>
    (.flag (session.connection? slot).isSome, session.clearConnection slot)
  | .send slot text => session.send slot text
  | .bind slot buttonId inputId => session.bind slot buttonId inputId
  | .unbind => (.done, session.unbind)
  | .socketState slot => (session.socketState slot, session)

-- Every step starts with an empty log and no callbacks run.
def Session.step (session : Session) (command : SessionCommand) : SessionReply × Session :=
  { session with page := { session.page with log := [] }, fired := [] }.respond command

-- The session after a list of commands.
def Session.run (session : Session) (commands : List SessionCommand) : Session :=
  commands.foldl (fun session command => (session.step command).2) session

end CodePanel
