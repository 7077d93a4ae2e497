import CodePanel.Page.Connection
import CodePanel.Page.Mount
import CodePanel.Page.View

namespace CodePanel

-- How the parts are held. Held directly, an overlay that is unmounted is gone and the bound
-- buttons are held beside the sockets. Scripts hold handles: an overlay's handle stays when the
-- overlay is unmounted, and a socket's handle holds its buttons.
inductive Access where
  | direct
  | scripted
deriving DecidableEq

inductive OverlayHandle where
  | mounted (mount : PageOverlay)
  | unmounted

-- A connection is a slot with the number of its socket. The bindings name the socket of each bound
-- button, in the order in which they were bound.
structure Session where
  access : Access
  page : Page
  overlays : Nat → Option OverlayHandle := fun _ => none
  views : Nat → Option View := fun _ => none
  connections : List (Nat × Nat) := []
  bindings : List Nat := []
  loader : Option (Loader String) := none
  fired : List String := []

-- A table with one entry replaced.
def setEntry (table : Nat → Option α) (slot : Nat) (entry : Option α) : Nat → Option α :=
  fun other => if other = slot then entry else table other

def Session.setOverlay (session : Session) (slot : Nat) (handle : Option OverlayHandle) : Session :=
  { session with overlays := setEntry session.overlays slot handle }

def Session.setView (session : Session) (slot : Nat) (view : Option View) : Session :=
  { session with views := setEntry session.views slot view }

-- Takes down the overlay of a slot, if one is mounted, and leaves the given handle.
def Session.clearOverlay (session : Session) (slot : Nat) (rest : Option OverlayHandle) : Session :=
  match session.overlays slot with
  | some (.mounted mount) =>
    { session with page := mount.unmount slot session.page }.setOverlay slot rest
  | _ => session.setOverlay slot rest

def Session.clearView (session : Session) (slot : Nat) : Session :=
  match session.views slot with
  | some _ => { session with page := View.unmount slot session.page }.setView slot none
  | none => session

-- The socket that a slot holds.
def Session.connection? (session : Session) (slot : Nat) : Option Nat :=
  session.connections.lookup slot

-- Whether a slot or a bound button holds a socket.
def Session.holds (session : Session) (socket : Nat) : Bool :=
  session.connections.any (·.2 == socket) || session.bindings.contains socket

-- A socket that nobody holds any more is closed.
def Session.release (session : Session) (socket : Nat) : Session :=
  if session.holds socket then session
  else { session with page := session.page.hangUp socket }

-- Drops the buttons of a socket's handle, which scripts hold together with the socket.
def Session.dropButtons (session : Session) (socket : Nat) : Session :=
  match session.access with
  | .direct => session
  | .scripted =>
    { session with
      bindings := session.bindings.filter (· ≠ socket)
      page := session.page.silence (Listener.ofBinding socket) }

def Session.clearConnection (session : Session) (slot : Nat) : Session :=
  match session.connection? slot with
  | none => session
  | some socket =>
    let session := { session with connections := session.connections.filter (·.1 ≠ slot) }
    (session.dropButtons socket).release socket

-- Lets go of the given bindings, one after the other.
def Session.releaseBindings (session : Session) : List Nat → Session
  | [] => session
  | socket :: rest => ({ session with bindings := rest }.release socket).releaseBindings rest

-- Drops all bound buttons that are held directly.
def Session.unbind (session : Session) : Session :=
  match session.access with
  | .direct =>
    { session with page := session.page.silence Listener.isUpload }.releaseBindings
      session.bindings
  | .scripted => session

end CodePanel
