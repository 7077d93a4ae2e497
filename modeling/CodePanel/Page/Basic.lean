import CodePanel.Error
import CodePanel.Fit.Browser
import CodePanel.Map.Drawing
import CodePanel.Page.Event
import CodePanel.Page.Listener
import CodePanel.Page.Log

namespace CodePanel

inductive ElementKind where
  | textArea
  | canvas
  | plain
  -- Not an HTML element.
  | foreign
deriving DecidableEq

-- What is wrong with the style of an element: there is no computed style, asking for it throws,
-- reading it throws, or writing the style throws.
inductive StyleFault where
  | absent
  | throwing
  | unreadable
  | readOnly
deriving DecidableEq

-- What is wrong with the drawing context of a canvas.
inductive ContextFault where
  | absent
  | throwing
  | foreign
deriving DecidableEq

-- Scroll offsets as the page keeps them.
structure Offset where
  top : Int := 0
  left : Int := 0
deriving DecidableEq

-- The drawing of a canvas, with the rectangle of the last clearing.
structure Drawing where
  width : Nat := 300
  height : Nat := 150
  clears : Nat := 0
  cleared : Option (Float × Float) := none
  draws : List (Map.Sprite String) := []

structure Element where
  id : String
  kind : ElementKind
  isRemoved : Bool := false
  value : String := ""
  html : String := ""
  scroll : Offset := {}
  paddingLeft : String := ""
  paddingRight : String := ""
  drawing : Drawing := {}
  styleFault : Option StyleFault := none
  contextFault : Option ContextFault := none
  throws : Thrown := .null
  listeners : List Listener := []

-- An image element. Drawing it may throw.
structure Image where
  src : String
  throws : Option Thrown := none
  listeners : List Listener := []

structure Socket where
  url : String
  readyState : Nat := 0
  sent : List String := []
  closes : Nat := 0
  listeners : List Listener := []

-- The calls that throw, and whether there is no document to look elements up in.
structure Faults where
  noDocument : Bool := false
  image : Option Thrown := none
  connect : Option Thrown := none
  send : Option Thrown := none
  close : Option Thrown := none

-- There is no navigator if there is no window to ask for it.
structure Page where
  elements : List Element := []
  images : List Image := []
  sockets : List Socket := []
  faults : Faults := {}
  log : List LogEntry := []
  navigator : Option Fit.Navigator := none

def Page.report (page : Page) (entry : LogEntry) : Page :=
  { page with log := page.log ++ [entry] }

def Page.modifyElement (page : Page) (n : Nat) (change : Element → Element) : Page :=
  { page with elements := page.elements.modify n change }

def Page.modifyImage (page : Page) (n : Nat) (change : Image → Image) : Page :=
  { page with images := page.images.modify n change }

def Page.modifySocket (page : Page) (n : Nat) (change : Socket → Socket) : Page :=
  { page with sockets := page.sockets.modify n change }

-- What an event can happen to.
inductive Target where
  | element (n : Nat)
  | image (n : Nat)
  | socket (n : Nat)
deriving DecidableEq

def Page.listeners (page : Page) : Target → List Listener
  | .element n => (page.elements[n]?.map Element.listeners).getD []
  | .image n => (page.images[n]?.map Image.listeners).getD []
  | .socket n => (page.sockets[n]?.map Socket.listeners).getD []

def Page.modifyListeners (page : Page) (change : List Listener → List Listener) : Target → Page
  | .element n => page.modifyElement n fun e => { e with listeners := change e.listeners }
  | .image n => page.modifyImage n fun i => { i with listeners := change i.listeners }
  | .socket n => page.modifySocket n fun s => { s with listeners := change s.listeners }

-- Adds a listener behind those that are there.
def Page.listen (page : Page) (target : Target) (listener : Listener) : Page :=
  page.modifyListeners (· ++ [listener]) target

-- Takes one listener off.
def Page.unlisten (page : Page) (target : Target) (listener : Listener) : Page :=
  page.modifyListeners (·.erase listener) target

-- Takes off all listeners of a kind, wherever they are.
def Page.silence (page : Page) (isOf : Listener → Bool) : Page :=
  let keep (listeners : List Listener) := listeners.filter (!isOf ·)
  { page with
    elements := page.elements.map fun e => { e with listeners := keep e.listeners }
    images := page.images.map fun i => { i with listeners := keep i.listeners }
    sockets := page.sockets.map fun s => { s with listeners := keep s.listeners } }

-- What an element is looked up as.
inductive Role where
  | textArea
  | htmlElement
  | canvas
deriving DecidableEq

def Role.name : Role → String
  | .textArea => "textarea"
  | .htmlElement => "HTML element"
  | .canvas => "canvas"

def Role.accepts : Role → ElementKind → Bool
  | .textArea, kind => kind == .textArea
  | .canvas, kind => kind == .canvas
  | .htmlElement, kind => kind != .foreign

-- Elements can only be looked up in a document.
def Page.document (page : Page) : Except Error Unit :=
  if page.faults.noDocument then .error (.browserCall "no document available") else .ok ()

-- The number of the first element on the page with a given id.
def Page.find? (page : Page) (id : String) : Option Nat :=
  if id = "" then none else page.elements.findIdx? fun e => e.id == id && !e.isRemoved

-- Looks an element up by its id.
def Page.lookup (page : Page) (role : Role) (id : String) : Except Error Nat :=
  match page.find? id with
  | none => .error (.missingElement id)
  | some n =>
    if (page.elements[n]?.map fun e => role.accepts e.kind).getD false then .ok n
    else .error (.wrongElement id role.name)

-- Looks up one element after the other, up to the first that cannot be had.
def Page.lookupAll (page : Page) (role : Role) : List String → Except Error (List Nat)
  | [] => .ok []
  | id :: rest =>
    match page.lookup role id with
    | .error error => .error error
    | .ok n =>
      match page.lookupAll role rest with
      | .error error => .error error
      | .ok more => .ok (n :: more)

def Page.idOf (page : Page) (n : Nat) : String :=
  (page.elements[n]?.map Element.id).getD ""

def Page.valueOf (page : Page) (n : Nat) : String :=
  (page.elements[n]?.map Element.value).getD ""

end CodePanel
