import CodePanel.Proofs.Session.Desk
import CodePanel.Proofs.Upload.Wire

namespace CodePanel

open Upload

namespace Session

variable {start session : Session} {slot socket : Nat}

section Actions

variable (hsteady : start.Steady session)
include hsteady

theorem advance_ready (hsocket : socket < session.page.sockets.length) (n : Nat)
    (state : Nat → Nat) {change : Socket → Socket}
    (hready : ∀ s, (change s).readyState = state s.readyState)
    (hsent : ∀ s, (change s).sent = s.sent) :
    Advance start socket session []
      (if n = socket then { session.desk socket with ready := state (session.desk socket).ready }
        else session.desk socket)
      (session.changePage (·.modifySocket n change)) := by
  by_cases hn : n = socket
  · subst hn
    rw [if_pos rfl]
    refine advance_modifySocket hsteady hsocket change state hready fun s => ?_
    rw [hsent, messages_nil, List.append_nil]
  · rw [if_neg hn]
    exact advance_modifySocket_of_ne hsteady hn change

theorem advance_edit {n : Nat} (hn : n < session.page.elements.length) (value : String) :
    Advance start socket session []
      { session.desk socket with
        text := fun m => if m = n then value else (session.desk socket).text m }
      (session.changePage (·.modifyElement n fun e => { e with value })) where
  steady := by
    refine ⟨hsteady.access, hsteady.connections, ?_, hsteady.sockets, hsteady.faults⟩
    refine Eq.trans ?_ hsteady.labels
    apply Page.map_modify
    exact fun _ => rfl
  desk := by
    have hlisteners : (session.page.modifyElement n fun e => { e with value }).listeners =
        session.page.listeners := by
      apply Page.listeners_modifyElement
      exact fun _ => rfl
    have hfields : (session.page.modifyElement n fun e => { e with value }).fieldsOf socket =
        session.page.fieldsOf socket := by
      funext m
      rw [Page.fieldsOf, Page.fieldsOf, hlisteners]
    have hvalue : (session.page.modifyElement n fun e => { e with value }).valueOf =
        fun m => if m = n then value else session.page.valueOf m := by
      funext m
      by_cases hm : m = n
      · simp [Page.valueOf, Page.modifyElement, hm, hn]
      · simp [Page.valueOf, Page.modifyElement, hm, Ne.symm hm]
    simp only [Session.desk, changePage, hfields, hvalue]
    rfl
  sent := by
    rw [messages_nil, List.append_nil]
    rfl

theorem advance_listen {button : Nat} (hbutton : button < session.page.elements.length)
    (n field : Nat) (bindings : List Nat) :
    Advance start socket session []
      (if n = socket then (session.desk socket).bind button field else session.desk socket)
      { session with
        page := session.page.listen (.element button) (.upload n field)
        bindings } := by
  have hvalue : (session.page.listen (.element button) (.upload n field)).valueOf =
      session.page.valueOf :=
    funext fun m => Page.valueOf_of_view (Page.view_listen (fun _ _ => rfl) _ _) m
  have hlabels : (session.page.listen (.element button) (.upload n field)).elements.map
      Element.label = session.page.elements.map Element.label :=
    Page.view_listen (fun _ _ => rfl) _ _
  refine ⟨⟨hsteady.access, hsteady.connections, hlabels.trans hsteady.labels, hsteady.sockets,
    hsteady.faults⟩, ?_, ?_⟩
  · by_cases hn : n = socket
    · subst hn
      rw [if_pos rfl]
      simp only [Session.desk, Desk.bind, hvalue, Page.fieldsOf_listen hbutton, Listener.field?,
        if_true, Option.toList_some]
      rfl
    · rw [if_neg hn]
      simp only [Session.desk, hvalue, Page.fieldsOf_listen hbutton, Listener.field?, hn, if_false,
        Option.toList_none, List.append_nil, ite_self]
      rfl
  · rw [messages_nil, List.append_nil]
    rfl

end Actions

section Release

-- The slot still holds its socket, so letting go of a bound button does not close it.
theorem alike_release (h : session.connection? slot = some socket) (n : Nat) :
    session.Alike socket (session.release n) := by
  unfold release
  split
  · exact .refl session
  · rename_i hfree
    refine ⟨.hangUp_of_ne ?_, rfl, rfl⟩
    rintro rfl
    obtain ⟨earlier, later, hconnections, -⟩ := List.lookup_eq_some_iff.1 h
    have hheld : session.connections.any (·.2 == n) = true := by simp [hconnections]
    simp [holds, hheld] at hfree

theorem alike_releaseBindings (h : session.connection? slot = some socket) (bindings : List Nat) :
    session.Alike socket (session.releaseBindings bindings) := by
  induction bindings generalizing session with
  | nil => exact .refl session
  | cons n rest ih =>
    have hfewer : session.Alike socket { session with bindings := rest } := ⟨.refl _, rfl, rfl⟩
    have hheld : ({ session with bindings := rest } : Session).connection? slot = some socket := h
    have hlet := hfewer.trans (alike_release hheld n)
    refine hlet.trans (ih ?_)
    rw [connection?, hlet.connections]
    exact h

theorem advance_silence (hsteady : start.Steady session) :
    Advance start socket session [] { session.desk socket with fields := fun _ => [] }
      { session with page := session.page.silence Listener.isUpload } where
  steady := by
    refine ⟨hsteady.access, hsteady.connections, ?_, ?_, hsteady.faults⟩
    · exact (Page.view_silence (fun _ _ => rfl) _).trans hsteady.labels
    · exact (List.length_map ..).trans hsteady.sockets
  desk := by
    have hvalue : (session.page.silence Listener.isUpload).valueOf = session.page.valueOf :=
      funext fun n => Page.valueOf_of_view (Page.view_silence (fun _ _ => rfl) _) n
    have hfields : (session.page.silence Listener.isUpload).fieldsOf socket = fun _ => [] := by
      funext n
      rw [Page.fieldsOf, Page.listeners_silence, List.filterMap_eq_nil_iff]
      intro listener hlistener
      have hother : listener.isUpload = false := by simpa using (List.mem_filter.1 hlistener).2
      exact field_of_isUpload hother
    simp only [Session.desk, hvalue, hfields, Page.readyState_of_line (Page.line_silence _)]
  sent := by rw [Page.sentOf_of_line (Page.line_silence _), messages_nil, List.append_nil]

theorem advance_unbind (hsteady : start.Steady session) (hstart : start.Connected slot socket) :
    Advance start socket session [] ((session.desk socket).next start socket .unbind)
      session.unbind := by
  unfold unbind
  split
  · rename_i haccess
    have hdesk : (session.desk socket).next start socket .unbind =
        { session.desk socket with fields := fun _ => [] } := by
      simp only [Desk.next, ← hsteady.access, haccess]
    have hsilent : Advance start socket session [] _ _ := advance_silence hsteady
    have hrelease := alike_releaseBindings (hsilent.steady.connected hstart).slot session.bindings
    rw [hdesk]
    exact hsilent.andThen (hrelease.advance hsilent.steady)
  · rename_i haccess
    have hdesk : (session.desk socket).next start socket .unbind = session.desk socket := by
      simp only [Desk.next, ← hsteady.access, haccess]
    rw [hdesk]
    exact Advance.refl hsteady

end Release

section Calls

theorem send_of_connection {other n : Nat} (h : session.connection? other = some n)
    (text : String) : (session.send other text).2 =
      { session with page := (session.page.upload n text).2 } := by
  rw [send, h]
  simp only
  split <;> simp only [*]

theorem reply_send (h : session.Connected slot socket) (text : String) :
    (session.send slot text).1 = if session.page.readyState socket = openState then .done
      else .socketFailed (.notOpen (session.page.readyState socket)) := by
  rw [send, h.slot]
  by_cases hopen : session.page.readyState socket = openState
  · simp only [Page.upload_eq h.send, hopen, if_true]
  · simp only [Page.upload_eq h.send, hopen, if_false]

variable (hsteady : start.Steady session) (hstart : start.Connected slot socket)
include hsteady hstart

theorem advance_send (other : Nat) (text : String) :
    Advance start socket session ((session.desk socket).tries start socket (.send other text))
      (session.desk socket) (session.send other text).2 := by
  have hconnection := hsteady.connection other
  simp only [Desk.tries]
  cases hother : start.connection? other with
  | none =>
    rw [send, hconnection, hother]
    exact Advance.refl hsteady
  | some n =>
    rw [send_of_connection (hconnection.trans hother)]
    simp only [Option.some.injEq]
    exact advance_upload hsteady hstart n text

omit hstart in
theorem advance_bind (other : Nat) (buttonId inputId : String) :
    Advance start socket session []
      ((session.desk socket).next start socket (.bind other buttonId inputId))
      (session.bind other buttonId inputId).2 := by
  simp only [Desk.next, ← hsteady.connection other, ← hsteady.binding buttonId inputId, bind]
  cases session.connection? other with
  | none =>
    simp only [reduceCtorEq, if_false]
    split <;> exact Advance.refl hsteady
  | some n =>
    simp only [Option.some.injEq]
    rcases session.page.bind_cases n buttonId inputId with
      ⟨hbinding, error, hbind⟩ | ⟨button, field, hbinding, hbutton, hbind⟩
    · rw [hbind, hbinding]
      exact Advance.refl hsteady
    · rw [hbind, hbinding]
      exact advance_listen hsteady hbutton n field _

theorem advance_socketEvent (n : Nat) (news : SocketNews) (event : Event) :
    Advance start socket session []
      ((session.desk socket).next start socket (.socketEvent n news event))
      (session.socketEvent n news.type event).2 := by
  have hsocket := (hsteady.connected hstart).socket
  unfold socketEvent
  split
  · have hready : Advance start socket session []
        ((session.desk socket).next start socket (.socketEvent n news event))
        (session.changePage (·.modifySocket n fun s =>
          if news.type = "open" then { s with readyState := 1 }
          else if news.type = "close" then { s with readyState := 3 } else s)) := by
      refine advance_ready hsteady hsocket n (news.state ·) ?_ ?_
      · cases news <;> simp [SocketNews.type, SocketNews.state]
      · cases news <;> simp [SocketNews.type]
    have hheard := advance_dispatch_socket hstart hready.steady n news event
    exact hready.andThen hheard
  · rename_i hn
    have hne : n ≠ socket := fun heq => hn (heq ▸ hsocket)
    have hdesk : (session.desk socket).next start socket (.socketEvent n news event) =
        session.desk socket := if_neg hne
    rw [hdesk]
    exact Advance.refl hsteady

omit hstart in
theorem advance_setValue (id value : String) :
    Advance start socket session [] ((session.desk socket).next start socket (.edit id value))
      (session.touch id fun e => { e with value }).2 := by
  simp only [Desk.next, touch, ← hsteady.reach id]
  cases hreach : session.page.reach? id with
  | none => exact Advance.refl hsteady
  | some n => exact advance_edit hsteady (Page.lt_of_reach hreach) value

theorem advance_event (id type : String) (event : Event) :
    Advance start socket session
      ((session.desk socket).tries start socket (.event id type event)) (session.desk socket)
      (session.respond (.event id type event)).2 := by
  simp only [Desk.tries, respond, ← hsteady.reach id]
  cases session.page.reach? id with
  | none => exact Advance.refl hsteady
  | some n => exact advance_dispatch_element hstart hsteady n type event

-- One action: what it tries goes out if the socket is open, and the desk keeps track.
theorem advance_undergo (action : UploadAction) :
    Advance start socket session ((session.desk socket).tries start socket action)
      ((session.desk socket).next start socket action) (session.undergo action) := by
  have hcleared := hsteady.cleared
  cases action with
  | ready n state =>
    have hsocket := (hsteady.connected hstart).socket
    exact advance_ready hsteady hsocket n (fun _ => state) (fun _ => rfl) (fun _ => rfl)
  | socketEvent n news event => exact .of_cleared (advance_socketEvent hcleared hstart n news event)
  | edit id value => exact .of_cleared (advance_setValue hcleared id value)
  | event id type event => exact .of_cleared (advance_event hcleared hstart id type event)
  | send other text => exact .of_cleared (advance_send hcleared hstart other text)
  | bind other buttonId inputId =>
    exact .of_cleared (advance_bind hcleared other buttonId inputId)
  | unbind => exact .of_cleared (advance_unbind hcleared hstart)

end Calls

section Runs

theorem advance_undergoAll (hsteady : start.Steady session) (hstart : start.Connected slot socket)
    (actions : List UploadAction) :
    start.Steady (session.undergoAll actions) ∧
      (session.undergoAll actions).desk socket =
        (session.desk socket).nextAll start socket actions ∧
      (session.undergoAll actions).page.sentOf socket = session.page.sentOf socket ++
        (((session.desk socket).attempts start socket actions).filter (·.ready = openState)).map
          fun attempt => (Envelope.upload attempt.text).write := by
  induction actions generalizing session with
  | nil => exact ⟨hsteady, rfl, (List.append_nil _).symm⟩
  | cons action rest ih =>
    have hstep := advance_undergo hsteady hstart action
    obtain ⟨hafter, hdesk, hsent⟩ := ih hstep.steady
    rw [hstep.desk] at hdesk hsent
    refine ⟨hafter, hdesk, hsent.trans ?_⟩
    rw [hstep.sent, Desk.attempts, List.filter_append, List.map_append, messages_eq,
      List.append_assoc]
    rfl

-- Every text that is tried while the socket is open goes out once and in order, with its runs of
-- blank lines squeezed. Nothing else goes out, and a call on a socket that is not open says so.
theorem uploads_sent (h : start.Connected slot socket) (actions : List UploadAction) :
    let desk := start.desk socket
    let after := start.undergoAll actions
    let ready := (desk.nextAll start socket actions).ready
    after.page.readyState socket = ready ∧
    (∃ sent, after.page.sentOf socket = start.page.sentOf socket ++ sent ∧
      sent.map Envelope.read? =
        ((desk.attempts start socket actions).filter (·.ready = openState)).map fun attempt =>
          some ⟨.upload, String.ofList (collapseBlankLines attempt.text.toList)⟩) ∧
    ∀ text, (after.step (.send slot text)).1 =
      if ready = openState then .done else .socketFailed (.notOpen ready) := by
  intro desk after ready
  obtain ⟨hsteady, hdesk, hsent⟩ := advance_undergoAll (Steady.refl start) h actions
  have hready : after.page.readyState socket = ready := congrArg Desk.ready hdesk
  refine ⟨hready, ⟨_, hsent, ?_⟩, fun text => ?_⟩
  · rw [List.map_map]
    refine List.map_congr_left fun attempt _ => ?_
    rw [Function.comp_apply, read_write]
    rfl
  · rw [← hready]
    exact reply_send (hsteady.cleared.connected h) text

-- A page with two fields and a button, on which a connection has just been opened.
def twoFields : Session :=
  let elements : List Element := [{ id := "code", kind := .textArea },
    { id := "notes", kind := .textArea, value := "# notes" }, { id := "run", kind := .plain }]
  (({ access := .direct, page := { elements } } : Session).step (.connect 0 "ws://host")).2

-- Clicks before, while and after the socket is open, with one and with two fields bound.
def twoFieldsRun : List UploadAction :=
  [.bind 0 "run" "code", .event "run" "click" .plain, .edit "code" "push 1\n\n\n\npop",
    .socketEvent 0 .opened .plain, .bind 0 "run" "notes", .event "run" "click" .plain,
    .edit "code" "halt", .send 0 "\"stop\"", .event "run" "click" .plain, .ready 0 2,
    .event "run" "click" .plain]

theorem uploads_sent_two_fields :
    twoFields.Connected 0 0 ∧
    (∃ sent, (twoFields.undergoAll twoFieldsRun).page.sentOf 0 = sent ∧
      sent.map Envelope.read? = [some ⟨.upload, "push 1\n\npop"⟩, some ⟨.upload, "# notes"⟩,
        some ⟨.upload, "\"stop\""⟩, some ⟨.upload, "halt"⟩, some ⟨.upload, "# notes"⟩]) ∧
    ((twoFields.undergoAll twoFieldsRun).step (.send 0 "late")).1 =
      .socketFailed (.notOpen 2) := by
  have hconnected : twoFields.Connected 0 0 := ⟨by decide, by decide, rfl⟩
  obtain ⟨-, ⟨sent, hsent, hread⟩, hreply⟩ := uploads_sent hconnected twoFieldsRun
  refine ⟨hconnected, ⟨sent, hsent, hread.trans ?_⟩, hreply "late"⟩
  decide +kernel

end Runs

end Session

end CodePanel
