import CodePanel.Proofs.Page.Traffic
import CodePanel.Proofs.Session.Loads

namespace CodePanel

open Asset Map Overlay Upload

-- What a socket can tell.
inductive SocketNews where
  | opened
  | received
  | closed
  | broken

def SocketNews.type : SocketNews → String
  | .opened => "open"
  | .received => "message"
  | .closed => "close"
  | .broken => "error"

-- The state of a socket after the news.
def SocketNews.state (ready : Nat) : SocketNews → Nat
  | .opened => 1
  | .closed => 3
  | .received | .broken => ready

inductive UploadAction where
  -- A socket goes over to a state by itself.
  | ready (socket state : Nat)
  | socketEvent (socket : Nat) (news : SocketNews) (event : Event)
  | edit (id value : String)
  | event (id type : String) (event : Event)
  | send (slot : Nat) (text : String)
  | bind (slot : Nat) (buttonId inputId : String)
  | unbind

def Session.undergo (session : Session) : UploadAction → Session
  | .ready socket state =>
    session.changePage (·.modifySocket socket fun s => { s with readyState := state })
  | .socketEvent socket news event => (session.step (.socketEvent socket news.type event)).2
  | .edit id value => (session.step (.setValue id value)).2
  | .event id type event => (session.step (.event id type event)).2
  | .send slot text => (session.step (.send slot text)).2
  | .bind slot buttonId inputId => (session.step (.bind slot buttonId inputId)).2
  | .unbind => (session.step .unbind).2

def Session.undergoAll (session : Session) (actions : List UploadAction) : Session :=
  actions.foldl undergo session

-- The state of a socket, the text of each field, and the fields that are bound to each button: all
-- that uploads over the socket depend on.
structure Desk where
  ready : Nat
  text : Nat → String
  fields : Nat → List Nat

def Session.desk (session : Session) (socket : Nat) : Desk where
  ready := session.page.readyState socket
  text := session.page.valueOf
  fields := session.page.fieldsOf socket

structure Attempt where
  ready : Nat
  text : String

namespace Desk

variable (start : Session) (socket : Nat)

-- The texts that an action tries to send: that of a call, or those of all fields bound to the
-- button that is clicked.
def tries (desk : Desk) : UploadAction → List String
  | .send slot text => if start.connection? slot = some socket then [text] else []
  | .event id type _ =>
    match start.page.reach? id with
    | some n => if type = "click" then (desk.fields n).map desk.text else []
    | none => []
  | _ => []

def bind (desk : Desk) (button field : Nat) : Desk :=
  { desk with fields := fun n => if n = button then desk.fields n ++ [field] else desk.fields n }

def next (desk : Desk) : UploadAction → Desk
  | .ready other state => if other = socket then { desk with ready := state } else desk
  | .socketEvent other news _ =>
    if other = socket then { desk with ready := news.state desk.ready } else desk
  | .edit id value =>
    match start.page.reach? id with
    | some n => { desk with text := fun m => if m = n then value else desk.text m }
    | none => desk
  | .bind slot buttonId inputId =>
    match start.page.binding? buttonId inputId with
    | some (button, field) =>
      if start.connection? slot = some socket then desk.bind button field else desk
    | none => desk
  | .unbind =>
    match start.access with
    | .direct => { desk with fields := fun _ => [] }
    | .scripted => desk
  | _ => desk

def nextAll (desk : Desk) (actions : List UploadAction) : Desk :=
  actions.foldl (next start socket) desk

-- All that is tried in a run, in order, each with the state of the socket at that time.
def attempts (desk : Desk) : List UploadAction → List Attempt
  | [] => []
  | action :: rest =>
    (desk.tries start socket action).map (⟨desk.ready, ·⟩) ++
      attempts (desk.next start socket action) rest

end Desk

-- What goes out of some texts.
def messages (ready : Nat) (texts : List String) : List String :=
  if ready = openState then texts.map fun text => (Envelope.upload text).write else []

theorem messages_append (ready : Nat) (first second : List String) :
    messages ready (first ++ second) = messages ready first ++ messages ready second := by
  unfold messages
  split
  · exact List.map_append
  · rfl

theorem messages_eq (ready : Nat) (texts : List String) : messages ready texts =
    ((texts.map (Attempt.mk ready)).filter (·.ready = openState)).map
      fun attempt => (Envelope.upload attempt.text).write := by
  unfold messages
  by_cases h : ready = openState
  · simp [h, List.filter_map, Function.comp_def]
  · simp [h, List.filter_map, Function.comp_def]

@[simp] theorem messages_nil (ready : Nat) : messages ready [] = [] := by
  unfold messages
  split <;> rfl

namespace Session

-- A slot holds a socket of the page, and sending does not throw.
structure Connected (session : Session) (slot socket : Nat) : Prop where
  slot : session.connection? slot = some socket
  socket : socket < session.page.sockets.length
  send : session.page.faults.send = none

-- Two sessions in which uploads over a socket go the same way.
structure Alike (socket : Nat) (before after : Session) : Prop where
  page : before.page.Alike socket after.page
  access : after.access = before.access
  connections : after.connections = before.connections

-- What no action changes: who holds what, how elements are found, and the faults of the page.
structure Steady (start session : Session) : Prop where
  access : session.access = start.access
  connections : session.connections = start.connections
  labels : session.page.elements.map Element.label = start.page.elements.map Element.label
  sockets : session.page.sockets.length = start.page.sockets.length
  faults : session.page.faults = start.page.faults

-- An action that tries to send some texts, and after which the desk is as given.
structure Advance (start : Session) (socket : Nat) (before : Session) (texts : List String)
    (desk : Desk) (after : Session) : Prop where
  steady : start.Steady after
  desk : after.desk socket = desk
  sent : after.page.sentOf socket =
    before.page.sentOf socket ++ messages (before.page.readyState socket) texts

variable {start session before middle after : Session} {slot socket : Nat}

theorem Steady.refl (session : Session) : session.Steady session :=
  ⟨rfl, rfl, rfl, rfl, rfl⟩

theorem Steady.connection (h : start.Steady session) (slot : Nat) :
    session.connection? slot = start.connection? slot := by
  rw [connection?, connection?, h.connections]

theorem Steady.connected (h : start.Steady session) (hstart : start.Connected slot socket) :
    session.Connected slot socket where
  slot := (h.connection slot).trans hstart.slot
  socket := h.sockets ▸ hstart.socket
  send := h.faults ▸ hstart.send

theorem Steady.reach (h : start.Steady session) (id : String) :
    session.page.reach? id = start.page.reach? id :=
  Page.reach_of_labels h.labels id

theorem Steady.binding (h : start.Steady session) (buttonId inputId : String) :
    session.page.binding? buttonId inputId = start.page.binding? buttonId inputId := by
  simp only [Page.binding?, Page.document, h.faults, Page.lookup_of_labels h.labels]

theorem Alike.refl (session : Session) : session.Alike socket session :=
  ⟨.refl _, rfl, rfl⟩

theorem Alike.trans (first : before.Alike socket middle) (second : middle.Alike socket after) :
    before.Alike socket after :=
  ⟨first.page.trans second.page, second.access.trans first.access,
    second.connections.trans first.connections⟩

theorem Alike.steady (h : before.Alike socket after) (hbefore : start.Steady before) :
    start.Steady after where
  access := h.access.trans hbefore.access
  connections := h.connections.trans hbefore.connections
  labels := h.page.labels.trans hbefore.labels
  sockets := h.page.sockets.trans hbefore.sockets
  faults := h.page.faults.trans hbefore.faults

theorem Alike.desk (h : before.Alike socket after) : after.desk socket = before.desk socket := by
  simp only [Session.desk, Desk.mk.injEq]
  exact ⟨Page.readyState_of_line h.page.line, funext h.page.valueOf, funext h.page.fields⟩

theorem Alike.advance (h : before.Alike socket after) (hbefore : start.Steady before) :
    Advance start socket before [] (before.desk socket) after where
  steady := h.steady hbefore
  desk := h.desk
  sent := by rw [Page.sentOf_of_line h.page.line, messages_nil, List.append_nil]

theorem Advance.refl (h : start.Steady session) :
    Advance start socket session [] (session.desk socket) session :=
  (Alike.refl session).advance h

theorem Steady.cleared (h : start.Steady session) : start.Steady session.cleared :=
  ⟨h.access, h.connections, h.labels, h.sockets, h.faults⟩

-- Every step starts with an empty log, which says nothing about uploads.
theorem Advance.of_cleared {texts : List String} {desk : Desk}
    (h : Advance start socket session.cleared texts desk after) :
    Advance start socket session texts desk after :=
  ⟨h.steady, h.desk, h.sent⟩

-- The state of the socket is still the one before, as the desk is.
theorem Advance.trans {first second : List String} {desk : Desk}
    (h : Advance start socket before first (before.desk socket) middle)
    (hnext : Advance start socket middle second desk after) :
    Advance start socket before (first ++ second) desk after where
  steady := hnext.steady
  desk := hnext.desk
  sent := by
    have hready : middle.page.readyState socket = before.page.readyState socket :=
      congrArg Desk.ready h.desk
    rw [hnext.sent, h.sent, hready, messages_append, List.append_assoc]

-- After the action, nothing more is tried, and the desk stays.
theorem Advance.andThen {texts : List String} {desk : Desk}
    (h : Advance start socket before texts desk middle)
    (hnext : Advance start socket middle [] (middle.desk socket) after) :
    Advance start socket before texts desk after where
  steady := hnext.steady
  desk := hnext.desk.trans h.desk
  sent := by rw [hnext.sent, h.sent, messages_nil, List.append_nil]

section Handling

variable (session)

theorem alike_withOverlay (slot : Nat) {change : PageOverlay → Page → Page}
    (h : ∀ mount (page : Page), page.Alike socket (change mount page)) :
    session.Alike socket (session.withOverlay slot change) := by
  unfold withOverlay
  split
  · exact ⟨h _ _, rfl, rfl⟩
  · exact .refl session

theorem alike_hover (slot : Nat) {change : View → Page → View × Page}
    (h : ∀ view (page : Page), page.Alike socket (change view page).2) :
    session.Alike socket (session.hover slot change) := by
  unfold hover
  split
  · exact .refl session
  · exact ⟨h _ _, rfl, rfl⟩

theorem alike_settle (name : String) (entry : Entry Nat) (loader : LoaderName) :
    session.Alike socket (session.settle name entry loader) := by
  cases loader with
  | shared =>
    simp only [settle, settleShared]
    split
    · exact .refl session
    · exact ⟨.settleLoader _ name entry, rfl, rfl⟩
  | view slot =>
    simp only [settle, settleView]
    split
    · exact .refl session
    · exact ⟨.settleView _ name entry, rfl, rfl⟩

-- Only a bound button sends anything.
theorem alike_handle (event : Event) {listener : Listener} (h : listener.isUpload = false) :
    session.Alike socket (session.handle event listener) := by
  cases listener with
  | fill slot =>
    exact alike_withOverlay session slot fun _ page => .foldl (fun _ _ => .setHtml _ _) _ page
  | follow slot =>
    exact alike_withOverlay session slot fun _ page => .foldl (fun _ _ => .setScroll _ _) _ page
  | point slot =>
    cases event with
    | mouse x y => exact alike_hover session slot fun view _ => .hoverAt view _
    | _ => exact .refl session
  | leave slot => exact alike_hover session slot fun view _ => .hoverAt view none
  | arrive loader name image => exact alike_settle session name _ loader
  | fail loader name image => exact alike_settle session name _ loader
  | opened n => exact ⟨.report _, rfl, rfl⟩
  | received n => exact ⟨.receive event, rfl, rfl⟩
  | closed n => exact ⟨.reportClosed n event, rfl, rfl⟩
  | broken n => exact ⟨.report _, rfl, rfl⟩
  | upload n field => cases h

theorem alike_fire (target : Target) (event : Event) {listener : Listener}
    (h : listener.isUpload = false) :
    session.Alike socket (session.fire target event listener) := by
  rw [fire_eq]
  refine Alike.trans ?_ (alike_handle _ event h)
  unfold readied
  split
  · exact ⟨.unlisten (field_of_isUpload h) target, rfl, rfl⟩
  · exact .refl session

end Handling

section Fire

variable (hsteady : start.Steady session)
include hsteady

-- A change of the socket itself.
theorem advance_modifySocket (hsocket : socket < session.page.sockets.length)
    (change : Socket → Socket) (state : Nat → Nat) {texts : List String}
    (hready : ∀ s, (change s).readyState = state s.readyState)
    (hsent : ∀ s, (change s).sent = s.sent ++ messages (session.page.readyState socket) texts) :
    Advance start socket session texts
      { session.desk socket with ready := state (session.desk socket).ready }
      (session.changePage (·.modifySocket socket change)) where
  steady := by
    refine ⟨hsteady.access, hsteady.connections, hsteady.labels, ?_, hsteady.faults⟩
    exact (List.length_modify ..).trans hsteady.sockets
  desk := by
    have hstate : (session.page.modifySocket socket change).readyState socket =
        state (session.page.readyState socket) := by
      simp [Page.readyState, Page.modifySocket, hsocket, hready]
    simp only [Session.desk, changePage, hstate]
    rfl
  sent := by simp [changePage, Page.sentOf, Page.modifySocket, hsocket, hsent]

theorem advance_modifySocket_of_ne {n : Nat} (hn : n ≠ socket) (change : Socket → Socket) :
    Advance start socket session [] (session.desk socket)
      (session.changePage (·.modifySocket n change)) := by
  have halike : session.Alike socket (session.changePage (·.modifySocket n change)) :=
    ⟨.modifySocket_of_ne hn change, rfl, rfl⟩
  exact halike.advance hsteady

variable (hstart : start.Connected slot socket)
include hstart

theorem advance_upload (n : Nat) (text : String) :
    Advance start socket session (if n = socket then [text] else []) (session.desk socket)
      { session with page := (session.page.upload n text).2 } := by
  obtain ⟨-, hsocket, hsend⟩ := hsteady.connected hstart
  rw [Page.upload_eq hsend]
  by_cases hopen : session.page.readyState n = openState
  · rw [if_pos hopen]
    by_cases hn : n = socket
    · subst hn
      rw [if_pos rfl]
      refine advance_modifySocket hsteady hsocket (Socket.transmit text) id (fun _ => rfl) ?_
      rw [messages, if_pos hopen]
      exact fun _ => rfl
    · rw [if_neg hn]
      exact advance_modifySocket_of_ne hsteady hn _
  · rw [if_neg hopen]
    refine ⟨hsteady, rfl, ?_⟩
    by_cases hn : n = socket
    · rw [if_pos hn, messages, if_neg (hn ▸ hopen), List.append_nil]
    · rw [if_neg hn, messages_nil, List.append_nil]

-- A listener sends the text of its field, if it is that of a button bound to the socket.
theorem advance_fire (target : Target) (event : Event) (listener : Listener) :
    Advance start socket session ((listener.field? socket).toList.map session.page.valueOf)
      (session.desk socket) (session.fire target event listener) := by
  cases listener with
  | upload n field =>
    have hupload := advance_upload hsteady hstart n (session.page.valueOf field)
    have hreport : Alike socket { session with page := (session.page.upload n _).2 }
        (session.fire target event (.upload n field)) := ⟨.clickUpload n field, rfl, rfl⟩
    have htexts : ((Listener.upload n field).field? socket).toList.map session.page.valueOf =
        if n = socket then [session.page.valueOf field] else [] := by
      by_cases hn : n = socket <;> simp [Listener.field?, hn]
    rw [htexts]
    exact hupload.andThen (hreport.advance hupload.steady)
  | _ => exact (alike_fire session target event rfl).advance hsteady

end Fire

section Dispatch

variable (hstart : start.Connected slot socket)
include hstart

theorem advance_foldl_fire (hsteady : start.Steady session) (target : Target) (event : Event)
    (listeners : List Listener) :
    Advance start socket session
      ((listeners.filterMap (Listener.field? socket)).map session.page.valueOf)
      (session.desk socket)
      (listeners.foldl (fun session listener => session.fire target event listener) session) := by
  induction listeners generalizing session with
  | nil => exact Advance.refl hsteady
  | cons listener rest ih =>
    have hfire := advance_fire hsteady hstart target event listener
    have hrest := ih hfire.steady
    have htext : (session.fire target event listener).page.valueOf = session.page.valueOf :=
      congrArg Desk.text hfire.desk
    rw [htext, hfire.desk] at hrest
    have hsplit : (listener :: rest).filterMap (Listener.field? socket) =
        (listener.field? socket).toList ++ rest.filterMap (Listener.field? socket) := by
      cases hfield : listener.field? socket <;> simp [hfield]
    rw [hsplit, List.map_append]
    exact hfire.trans hrest

theorem advance_dispatch_element (hsteady : start.Steady session) (n : Nat) (type : String)
    (event : Event) :
    Advance start socket session
      (if type = "click" then (session.page.fieldsOf socket n).map session.page.valueOf else [])
      (session.desk socket) (session.dispatch (.element n) type event) := by
  have hfold := advance_foldl_fire hstart hsteady (.element n) event
    ((session.page.listeners (.element n)).filter (·.event == type))
  by_cases htype : type = "click"
  · rw [filterMap_field_filter fun other field => by simp [htype, Listener.event]] at hfold
    rw [if_pos htype]
    exact hfold
  · rw [filterMap_field_quiet htype] at hfold
    rw [if_neg htype]
    exact hfold

theorem advance_dispatch_socket (hsteady : start.Steady session) (n : Nat) (news : SocketNews)
    (event : Event) :
    Advance start socket session [] (session.desk socket)
      (session.dispatch (.socket n) news.type event) := by
  have hfold := advance_foldl_fire hstart hsteady (.socket n) event
    ((session.page.listeners (.socket n)).filter (·.event == news.type))
  have htype : news.type ≠ "click" := by cases news <;> decide
  rw [filterMap_field_quiet htype] at hfold
  exact hfold

end Dispatch

end Session

end CodePanel
