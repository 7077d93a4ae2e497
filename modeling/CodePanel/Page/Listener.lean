namespace CodePanel

-- The loaders of the panel: one of its own for each map view, and one shared by the page.
inductive LoaderName where
  | shared
  | view (slot : Nat)
deriving DecidableEq

-- A listener is named by the part of the panel that it belongs to, so nothing else has to be kept
-- to run it or to take it off.
inductive Listener where
  -- The overlay in a slot shows the input's text.
  | fill (slot : Nat)
  -- The overlay in a slot follows the input's scroll offsets.
  | follow (slot : Nat)
  -- The map view in a slot follows the mouse.
  | point (slot : Nat)
  -- The mouse has left the map view in a slot.
  | leave (slot : Nat)
  -- An image has arrived.
  | arrive (loader : LoaderName) (name : String) (image : Nat)
  -- An image could not be loaded.
  | fail (loader : LoaderName) (name : String) (image : Nat)
  -- A socket has been opened, has received a message, has been closed, has broken.
  | opened (socket : Nat)
  | received (socket : Nat)
  | closed (socket : Nat)
  | broken (socket : Nat)
  -- The text of an input goes out over a socket.
  | upload (socket input : Nat)
deriving DecidableEq

-- The type of event that a listener waits for.
def Listener.event : Listener → String
  | .fill _ => "input"
  | .follow _ => "scroll"
  | .point _ => "mousemove"
  | .leave _ => "mouseleave"
  | .arrive .. => "load"
  | .fail .. => "error"
  | .opened _ => "open"
  | .received _ => "message"
  | .closed _ => "close"
  | .broken _ => "error"
  | .upload .. => "click"

-- A load ends only once, so its listeners run only once.
def Listener.isOnce : Listener → Bool
  | .arrive .. | .fail .. => true
  | _ => false

def Listener.ofOverlay (slot : Nat) : Listener → Bool
  | .fill other | .follow other => other == slot
  | _ => false

def Listener.ofView (slot : Nat) : Listener → Bool
  | .point other | .leave other => other == slot
  | _ => false

def Listener.ofLoader (loader : LoaderName) : Listener → Bool
  | .arrive other .. | .fail other .. => other == loader
  | _ => false

def Listener.ofSocket (socket : Nat) : Listener → Bool
  | .opened other | .received other | .closed other | .broken other => other == socket
  | _ => false

def Listener.ofBinding (socket : Nat) : Listener → Bool
  | .upload other _ => other == socket
  | _ => false

def Listener.isUpload : Listener → Bool
  | .upload .. => true
  | _ => false

end CodePanel
