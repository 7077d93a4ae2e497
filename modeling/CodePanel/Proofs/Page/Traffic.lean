import CodePanel.Proofs.Page.Backdrops
import CodePanel.Proofs.Page.Resolving
import CodePanel.Session.Step

namespace CodePanel

open Asset Map Overlay Upload

-- The field whose text a listener sends over a socket.
def Listener.field? (socket : Nat) : Listener → Option Nat
  | .upload other field => if other = socket then some field else none
  | _ => none

-- How an element is found.
def Element.label (element : Element) : String × ElementKind × Bool :=
  (element.id, element.kind, element.isRemoved)

-- How an element is found, and what it holds.
def Element.face (element : Element) : (String × ElementKind × Bool) × String :=
  (element.label, element.value)

-- The state of a socket and what it has sent.
def Socket.line (socket : Socket) : Nat × List String :=
  (socket.readyState, socket.sent)

-- Sends a program.
def Socket.transmit (text : String) (socket : Socket) : Socket :=
  { socket with sent := socket.sent ++ [(Envelope.upload text).write] }

theorem field_of_isUpload {socket : Nat} {listener : Listener} (h : listener.isUpload = false) :
    listener.field? socket = none := by
  cases listener with
  | upload n field => cases h
  | _ => rfl

theorem filterMap_field_filter {socket : Nat} {keep : Listener → Bool}
    (h : ∀ other field, keep (.upload other field) = true) (listeners : List Listener) :
    (listeners.filter keep).filterMap (Listener.field? socket) =
      listeners.filterMap (Listener.field? socket) := by
  induction listeners with
  | nil => rfl
  | cons listener rest ih =>
    by_cases hkeep : keep listener
    · rw [List.filter_cons_of_pos hkeep, List.filterMap_cons, List.filterMap_cons, ih]
    · have hnone : listener.field? socket = none := by
        cases listener with
        | upload other field => exact absurd (h other field) hkeep
        | _ => rfl
      rw [List.filter_cons_of_neg hkeep, List.filterMap_cons_none hnone, ih]

theorem filterMap_field_erase {socket : Nat} {listener : Listener}
    (h : listener.field? socket = none) (listeners : List Listener) :
    (listeners.erase listener).filterMap (Listener.field? socket) =
      listeners.filterMap (Listener.field? socket) := by
  induction listeners with
  | nil => rfl
  | cons first rest ih =>
    by_cases hfirst : first = listener
    · rw [hfirst, List.erase_cons_head, List.filterMap_cons_none h]
    · rw [List.erase_cons_tail (by simpa using hfirst), List.filterMap_cons, List.filterMap_cons,
        ih]

-- Bound buttons wait for clicks only.
theorem filterMap_field_quiet {socket : Nat} {type : String} (h : type ≠ "click")
    (listeners : List Listener) :
    (listeners.filter (·.event == type)).filterMap (Listener.field? socket) = [] := by
  rw [List.filterMap_eq_nil_iff]
  intro listener hlistener
  have hevent : listener.event = type := by simpa using (List.mem_filter.1 hlistener).2
  cases listener with
  | upload n field => exact absurd hevent.symm h
  | _ => rfl

namespace Page

-- The fields whose texts a click on an element sends over a socket.
def fieldsOf (page : Page) (socket n : Nat) : List Nat :=
  (page.listeners (.element n)).filterMap (Listener.field? socket)

def sentOf (page : Page) (socket : Nat) : List String :=
  (page.sockets[socket]?.map Socket.sent).getD []

-- Two pages on which uploads over a socket go the same way.
structure Alike (socket : Nat) (before after : Page) : Prop where
  faces : after.elements.map Element.face = before.elements.map Element.face
  fields : ∀ n, after.fieldsOf socket n = before.fieldsOf socket n
  line : after.sockets[socket]?.map Socket.line = before.sockets[socket]?.map Socket.line
  sockets : after.sockets.length = before.sockets.length
  faults : after.faults = before.faults

section Lines

variable {socket : Nat} {page before after : Page}

theorem line_silence (isOf : Listener → Bool) :
    (page.silence isOf).sockets[socket]?.map Socket.line =
      page.sockets[socket]?.map Socket.line := by
  simp only [silence, List.getElem?_map]
  cases page.sockets[socket]? <;> rfl

theorem readyState_of_line
    (h : after.sockets[socket]?.map Socket.line = before.sockets[socket]?.map Socket.line) :
    after.readyState socket = before.readyState socket := by
  have hfst := congrArg (Option.map Prod.fst) h
  simp only [Option.map_map] at hfst
  exact congrArg (Option.getD · 3) hfst

theorem sentOf_of_line
    (h : after.sockets[socket]?.map Socket.line = before.sockets[socket]?.map Socket.line) :
    after.sentOf socket = before.sentOf socket := by
  have hsnd := congrArg (Option.map Prod.snd) h
  simp only [Option.map_map] at hsnd
  exact congrArg (Option.getD · []) hsnd

end Lines

namespace Alike

variable {socket : Nat} {page before after : Page}

theorem refl (page : Page) : page.Alike socket page :=
  ⟨rfl, fun _ => rfl, rfl, rfl, rfl⟩

theorem trans {middle : Page} (first : before.Alike socket middle)
    (second : middle.Alike socket after) : before.Alike socket after where
  faces := second.faces.trans first.faces
  fields n := (second.fields n).trans (first.fields n)
  line := second.line.trans first.line
  sockets := second.sockets.trans first.sockets
  faults := second.faults.trans first.faults

theorem foldl {f : Page → β → Page} (h : ∀ (page : Page) b, page.Alike socket (f page b))
    (list : List β) (page : Page) : page.Alike socket (list.foldl f page) := by
  induction list generalizing page with
  | nil => exact refl page
  | cons b rest ih => exact (h page b).trans (ih _)

theorem report (entry : LogEntry) : page.Alike socket (page.report entry) :=
  ⟨rfl, fun _ => rfl, rfl, rfl, rfl⟩

theorem modifyElement {change : Element → Element} (hface : ∀ e, (change e).face = e.face)
    (hlisteners : ∀ e, (change e).listeners = e.listeners) (n : Nat) :
    page.Alike socket (page.modifyElement n change) where
  faces := map_modify hface page.elements n
  fields m := by rw [fieldsOf, fieldsOf, listeners_modifyElement hlisteners]
  line := rfl
  sockets := rfl
  faults := rfl

theorem modifySocket_of_ne {n : Nat} (h : n ≠ socket) (change : Socket → Socket) :
    page.Alike socket (page.modifySocket n change) where
  faces := rfl
  fields _ := rfl
  line := by simp [Page.modifySocket, h]
  sockets := List.length_modify ..
  faults := rfl

theorem unlisten {listener : Listener} (h : listener.field? socket = none) (target : Target) :
    page.Alike socket (page.unlisten target listener) where
  faces := by
    cases target with
    | element n =>
      apply map_modify
      exact fun _ => rfl
    | image n => rfl
    | socket n => rfl
  fields m := by
    unfold fieldsOf
    by_cases hm : target = .element m
    · rw [hm, listeners_unlisten_self, filterMap_field_erase h]
    · rw [Page.unlisten, listeners_modifyListeners_of_ne hm]
  line := by
    cases target with
    | element n => rfl
    | image n => rfl
    | socket n =>
      simp only [Page.unlisten, modifyListeners, Page.modifySocket, List.getElem?_modify]
      cases page.sockets[socket]? with
      | none => rfl
      | some s => by_cases hn : n = socket <;> simp [hn, Socket.line]
  sockets := by
    cases target with
    | element n => rfl
    | image n => rfl
    | socket n => exact List.length_modify ..
  faults := by cases target <;> rfl

-- Listeners other than those of bound buttons are taken off.
theorem silence {isOf : Listener → Bool} (h : ∀ other field, isOf (.upload other field) = false) :
    page.Alike socket (page.silence isOf) where
  faces := view_silence (fun _ _ => rfl) isOf
  fields n := by
    rw [fieldsOf, listeners_silence, filterMap_field_filter fun other field => by simp [h]]
    rfl
  line := line_silence isOf
  sockets := List.length_map ..
  faults := rfl

section Parts

theorem setHtml (n : Nat) (html : String) : page.Alike socket (Host.setHtml n html page) := by
  apply modifyElement <;> exact fun _ => rfl

theorem setScroll (n : Nat) (scroll : Scroll) :
    page.Alike socket (Host.setScroll n scroll page) := by
  apply modifyElement <;> exact fun _ => rfl

theorem modifyDrawing (n : Nat) (change : Drawing → Drawing) :
    page.Alike socket (page.modifyDrawing n change) := by
  apply modifyElement <;> exact fun _ => rfl

theorem draw (n : Nat) (sprite : Sprite Nat) : page.Alike socket (page.draw n sprite) := by
  simp only [Page.draw]
  split
  · exact report _
  · exact modifyDrawing n _

theorem paint (n : Nat) (sprites : List (Sprite Nat)) :
    page.Alike socket (page.paint n sprites) :=
  (modifyDrawing n _).trans (foldl (fun _ _ => draw n _) sprites _)

theorem redraw (view : View) (page : Page) : page.Alike socket (view.redraw page) :=
  (paint _ _).trans (paint _ _)

theorem hoverAt (view : View) (cell : Option Cell) :
    page.Alike socket (view.hoverAt page cell).2 := by
  simp only [View.hoverAt]
  split
  · exact refl page
  · exact paint _ _

theorem settleLoader (loader : Loader κ) (name : String) (entry : Entry Nat) :
    page.Alike socket (loader.settle page name entry).2.2 := by
  simp only [Loader.settle]
  split
  · split
    · exact refl page
    · exact report _
  · exact refl page

theorem settleView (view : View) (name : String) (entry : Entry Nat) :
    page.Alike socket (view.settle page name entry).2 :=
  (settleLoader _ name entry).trans (foldl (fun page _ => redraw _ page) _ _)

theorem receive (event : Event) : page.Alike socket (page.receive event) := by
  unfold Page.receive
  split
  · split <;> exact report _
  · exact refl page

theorem reportClosed (n : Nat) (event : Event) : page.Alike socket (page.reportClosed n event) := by
  unfold Page.reportClosed
  split <;> exact report _

theorem hangUp_of_ne {n : Nat} (h : n ≠ socket) : page.Alike socket (page.hangUp n) := by
  unfold Page.hangUp
  refine trans ?_ (silence fun _ _ => rfl)
  split
  · exact modifySocket_of_ne h _
  · exact (modifySocket_of_ne h _).trans (report _)

theorem clickUpload (n field : Nat) :
    (page.upload n (page.valueOf field)).2.Alike socket (page.clickUpload n field) := by
  unfold Page.clickUpload
  split
  · rename_i heq
    rw [heq]
    exact refl _
  · rename_i heq
    rw [heq]
    exact report _

end Parts

section Readings

theorem labels (h : before.Alike socket after) :
    after.elements.map Element.label = before.elements.map Element.label := by
  have hfst := congrArg (List.map Prod.fst) h.faces
  rwa [List.map_map, List.map_map] at hfst

theorem valueOf (h : before.Alike socket after) (n : Nat) : after.valueOf n = before.valueOf n := by
  have hsnd := congrArg (List.map Prod.snd) h.faces
  rw [List.map_map, List.map_map] at hsnd
  exact valueOf_of_view hsnd n

end Readings

end Alike

section Labels

variable {page other : Page}

-- The user, the page and the panel find the same elements where the labels are the same.
theorem reach_of_labels (h : page.elements.map Element.label = other.elements.map Element.label)
    (id : String) : page.reach? id = other.reach? id := by
  have hmap : ∀ elements : List Element, elements.findIdx? (·.id == id) =
      (elements.map Element.label).findIdx? (·.1 == id) := fun elements => by
    rw [List.findIdx?_map]
    rfl
  rw [reach?, reach?, hmap, hmap, h]

theorem find_of_labels (h : page.elements.map Element.label = other.elements.map Element.label)
    (id : String) : page.find? id = other.find? id := by
  have hmap : ∀ elements : List Element, elements.findIdx? (fun e => e.id == id && !e.isRemoved) =
      (elements.map Element.label).findIdx? (fun label => label.1 == id && !label.2.2) :=
    fun elements => by
      rw [List.findIdx?_map]
      rfl
  rw [find?, find?, hmap, hmap, h]

theorem lookup_of_labels (h : page.elements.map Element.label = other.elements.map Element.label)
    (role : Role) (id : String) : page.lookup role id = other.lookup role id := by
  have hkind : ∀ n, page.elements[n]?.map (fun e : Element => role.accepts e.kind) =
      other.elements[n]?.map (fun e : Element => role.accepts e.kind) := fun n => by
    have hlabel := congrArg (Option.map fun label => role.accepts label.2.1) (getElem_of_view h n)
    rwa [Option.map_map, Option.map_map] at hlabel
  simp only [lookup, find_of_labels h, hkind]

end Labels

section Upload

variable {page : Page}

theorem upload_eq (h : page.faults.send = none) (n : Nat) (text : String) :
    page.upload n text =
      if page.readyState n = openState then (.ok (), page.modifySocket n (Socket.transmit text))
      else (.error (.notOpen (page.readyState n)), page) := by
  unfold upload
  rw [h]
  by_cases hopen : page.readyState n = openState
  · simp only [hopen, ne_eq, not_true_eq_false, if_false, if_true]
    rfl
  · simp only [ne_eq, hopen, not_false_eq_true, if_true, if_false]

end Upload

section Binding

variable {page : Page}

-- The button and the field that a binding is about.
def binding? (page : Page) (buttonId inputId : String) : Option (Nat × Nat) :=
  match page.document, page.lookup .htmlElement buttonId, page.lookup .textArea inputId with
  | .ok (), .ok button, .ok field => some (button, field)
  | _, _, _ => none

theorem lt_of_reach {id : String} {n : Nat} (h : page.reach? id = some n) :
    n < page.elements.length :=
  (List.findIdx?_eq_some_iff_getElem.1 h).1

theorem bind_cases (page : Page) (n : Nat) (buttonId inputId : String) :
    (page.binding? buttonId inputId = none ∧ ∃ error, page.bind n buttonId inputId = .error error) ∨
      ∃ button field, page.binding? buttonId inputId = some (button, field) ∧
        button < page.elements.length ∧
        page.bind n buttonId inputId = .ok (page.listen (.element button) (.upload n field)) := by
  unfold binding? bind
  cases page.document with
  | error error => exact .inl ⟨rfl, error, rfl⟩
  | ok found =>
    rcases page.lookup_eq .htmlElement buttonId with
      ⟨error, -, hbutton⟩ | ⟨button, -, hbutton, hfind⟩
    · rw [hbutton]
      exact .inl ⟨rfl, error, rfl⟩
    · rw [hbutton]
      cases page.lookup .textArea inputId with
      | error error => exact .inl ⟨rfl, error, rfl⟩
      | ok field => exact .inr ⟨button, field, rfl, lt_of_find hfind, rfl⟩

theorem fieldsOf_listen {button : Nat} (h : button < page.elements.length) (socket n field : Nat) :
    (page.listen (.element button) (.upload n field)).fieldsOf socket = fun m =>
      if m = button then page.fieldsOf socket m ++ ((Listener.upload n field).field? socket).toList
      else page.fieldsOf socket m := by
  funext m
  unfold fieldsOf
  by_cases hm : m = button
  · subst hm
    rw [if_pos rfl, listeners_listen_self h, List.filterMap_append]
    cases hfield : (Listener.upload n field).field? socket <;> simp [hfield]
  · have hne : Target.element button ≠ .element m := by
      intro heq
      cases heq
      exact hm rfl
    rw [if_neg hm, listen, listeners_modifyListeners_of_ne hne]

end Binding

end Page

end CodePanel
