import CodePanel.Proofs.Page.Backdrops
import CodePanel.Proofs.Page.Resolving
import CodePanel.Proofs.Session.Events
import CodePanel.Session.Step

namespace CodePanel

open Overlay

-- What can happen to the text field of an overlay, and to the overlay itself. Values and offsets
-- that are set fire no event of their own.
inductive FieldAction where
  | setValue (value : String)
  | setScroll (scroll : Offset)
  | input (event : Event)
  | scroll (event : Event)
  | refresh

namespace FieldAction

def isEdit : FieldAction → Bool
  | .setValue _ | .setScroll _ => true
  | _ => false

-- The text of the field after an action.
def text (text : String) : FieldAction → String
  | .setValue value => value
  | _ => text

-- The text that is shown after an action, with the text of the field before it.
def shown (text shown : String) : FieldAction → String
  | .input _ | .refresh => text
  | _ => shown

end FieldAction

-- The text that is shown at the end, from the text of the field and the text that is shown first.
def shownAfter (text shown : String) : List FieldAction → String
  | [] => shown
  | action :: rest => shownAfter (action.text text) (action.shown text shown) rest

-- All of an element but what changes in the life of an overlay.
def Element.frame (element : Element) : Element :=
  { element with value := "", html := "", scroll := {} }

namespace Session

-- The field is given by its number.
def attend (session : Session) (slot input : Nat) : FieldAction → Session
  | .setValue value => session.changePage (·.modifyElement input fun e => { e with value })
  | .setScroll scroll => session.changePage (·.modifyElement input fun e => { e with scroll })
  | .input event => session.dispatch (.element input) "input" event
  | .scroll event => session.dispatch (.element input) "scroll" event
  | .refresh => (session.refresh slot).2

def attendAll (session : Session) (slot input : Nat) (actions : List FieldAction) : Session :=
  actions.foldl (fun session action => session.attend slot input action) session

variable {session : Session} {target : Target} {event : Event} {listeners : List Listener}

section Frames

theorem overlays_withOverlay (slot : Nat) (change : PageOverlay → Page → Page) :
    (session.withOverlay slot change).overlays = session.overlays := by
  unfold withOverlay
  split <;> rfl

theorem withOverlay_of_mounted {slot : Nat} {mount : PageOverlay}
    (h : session.overlays slot = some (.mounted mount)) (change : PageOverlay → Page → Page) :
    session.withOverlay slot change = session.changePage (change mount) := by
  simp only [withOverlay, h]
  rfl

theorem refresh_eq_withOverlay (slot : Nat) :
    (session.refresh slot).2 = session.withOverlay slot PageOverlay.refresh := by
  unfold refresh withOverlay
  split
  · rename_i hnone
    rw [hnone]
  · rfl

-- Each listener for a type of event makes the same change to the overlay of its slot.
def Serves (type : String) (change : PageOverlay → Page → Page) : Prop :=
  ∀ listener : Listener, listener.event = type → ∃ slot, ∀ (session : Session) target event,
    session.fire target event listener = session.withOverlay slot change

theorem serves_input : Serves "input" PageOverlay.fill := by
  intro listener hevent
  cases listener with
  | fill slot => exact ⟨slot, fun _ _ _ => rfl⟩
  | _ => simp [Listener.event] at hevent

theorem serves_scroll : Serves "scroll" PageOverlay.follow := by
  intro listener hevent
  cases listener with
  | follow slot => exact ⟨slot, fun _ _ _ => rfl⟩
  | _ => simp [Listener.event] at hevent

-- Whatever the change to one overlay keeps is kept when all listeners have run.
theorem foldl_fire {P : Session → Prop} {type : String} {change : PageOverlay → Page → Page}
    (hserves : Serves type change)
    (hchange : ∀ (session : Session) slot, P session → P (session.withOverlay slot change))
    (hevents : ∀ listener ∈ listeners, listener.event = type) (h : P session) :
    P (listeners.foldl (fun session listener => session.fire target event listener) session) := by
  refine List.foldlRecOn listeners _ h fun session hsession listener hlistener => ?_
  obtain ⟨slot, hfire⟩ := hserves listener (hevents listener hlistener)
  rw [hfire]
  exact hchange session slot hsession

theorem event_of_mem_filter {type : String} :
    ∀ listener ∈ listeners.filter (·.event == type), listener.event = type :=
  fun _ hlistener => eq_of_beq (List.mem_filter.1 hlistener).2

theorem view_withOverlay {view : Element → α} (slot : Nat) {change : PageOverlay → Page → Page}
    (h : ∀ mount (page : Page), (change mount page).elements.map view = page.elements.map view) :
    (session.withOverlay slot change).page.elements.map view = session.page.elements.map view := by
  unfold withOverlay
  split
  · exact h _ _
  · rfl

theorem view_foldl_fire {view : Element → α} {type : String} {change : PageOverlay → Page → Page}
    (hserves : Serves type change)
    (hview : ∀ mount (page : Page), (change mount page).elements.map view = page.elements.map view)
    (hevents : ∀ listener ∈ listeners, listener.event = type) :
    (listeners.foldl (fun session listener => session.fire target event listener)
      session).page.elements.map view = session.page.elements.map view :=
  foldl_fire (P := fun after => after.page.elements.map view = session.page.elements.map view)
    hserves (fun _ slot h => (view_withOverlay slot hview).trans h) hevents rfl

-- What no action on a field changes.
structure Kept (before after : Session) : Prop where
  overlays : after.overlays = before.overlays
  listeners : after.page.listeners = before.page.listeners
  frame : after.page.elements.map Element.frame = before.page.elements.map Element.frame

namespace Kept

variable {before middle after : Session}

theorem refl (session : Session) : session.Kept session :=
  ⟨rfl, rfl, rfl⟩

theorem trans (h : before.Kept middle) (h' : middle.Kept after) : before.Kept after :=
  ⟨h'.overlays.trans h.overlays, h'.listeners.trans h.listeners, h'.frame.trans h.frame⟩

theorem view (h : before.Kept after) {view : Element → α} (hview : ∀ e, view e.frame = view e) :
    after.page.elements.map view = before.page.elements.map view := by
  have hframe := congrArg (List.map view) h.frame
  simp only [List.map_map] at hframe
  have hcomp : view ∘ Element.frame = view := funext hview
  rwa [hcomp] at hframe

theorem length (h : before.Kept after) :
    after.page.elements.length = before.page.elements.length :=
  Page.length_of_view h.frame

theorem withOverlay (slot : Nat) {change : PageOverlay → Page → Page}
    (hlisteners : ∀ mount (page : Page), (change mount page).listeners = page.listeners)
    (hframe : ∀ mount (page : Page),
      (change mount page).elements.map Element.frame = page.elements.map Element.frame) :
    session.Kept (session.withOverlay slot change) :=
  ⟨overlays_withOverlay slot change, session.listeners_withOverlay slot hlisteners,
    view_withOverlay slot hframe⟩

theorem fill (session : Session) (slot : Nat) :
    session.Kept (session.withOverlay slot PageOverlay.fill) :=
  withOverlay slot (fun mount _ => Page.listeners_fill mount) (Page.view_fill fun _ _ => rfl)

theorem follow (session : Session) (slot : Nat) :
    session.Kept (session.withOverlay slot PageOverlay.follow) :=
  withOverlay slot (fun mount _ => Page.listeners_follow mount) (Page.view_follow fun _ _ => rfl)

theorem refresh (session : Session) (slot : Nat) : session.Kept (session.refresh slot).2 := by
  rw [refresh_eq_withOverlay]
  refine withOverlay slot (fun mount page => ?_) (fun mount page => ?_)
  · rw [Page.refresh_eq, Page.listeners_follow, Page.listeners_fill]
  · rw [Page.refresh_eq, Page.view_follow fun _ _ => rfl, Page.view_fill fun _ _ => rfl]

theorem edit (change : Element → Element) (hlisteners : ∀ e, (change e).listeners = e.listeners)
    (hframe : ∀ e, (change e).frame = e.frame) (session : Session) (n : Nat) :
    session.Kept (session.changePage (·.modifyElement n change)) :=
  ⟨rfl, Page.listeners_modifyElement hlisteners n, Page.map_modify hframe _ n⟩

theorem attend (session : Session) (slot input : Nat) (action : FieldAction) :
    session.Kept (session.attend slot input action) := by
  cases action with
  | setValue value =>
    exact edit (fun e => { e with value }) (fun _ => rfl) (fun _ => rfl) session input
  | setScroll scroll =>
    exact edit (fun e => { e with scroll }) (fun _ => rfl) (fun _ => rfl) session input
  | input event =>
    exact foldl_fire serves_input (fun after slot h => h.trans (fill after slot))
      event_of_mem_filter (refl session)
  | scroll event =>
    exact foldl_fire serves_scroll (fun after slot h => h.trans (follow after slot))
      event_of_mem_filter (refl session)
  | refresh => exact refresh session slot

theorem attendAll (session : Session) (slot input : Nat) (actions : List FieldAction) :
    session.Kept (session.attendAll slot input actions) := by
  induction actions generalizing session with
  | nil => exact refl session
  | cons action rest ih => exact (attend session slot input action).trans (ih _)

end Kept

end Frames

-- An overlay that is mounted on a field with a given text, and shows a text that may be older.
structure Shows (slot : Nat) (mount : PageOverlay) (text shown : String) (session : Session) :
    Prop where
  mounted : session.overlays slot = some (.mounted mount)
  field : mount.input < session.page.elements.length
  backdrops : ∀ n ∈ mount.overlay.backdrops, n < session.page.elements.length
  listening : ∃ earlier, session.page.listeners (.element mount.input) =
    earlier ++ [.fill slot, .follow slot]
  text : session.page.valueOf mount.input = text
  shown : ∀ n ∈ mount.overlay.backdrops, session.page.htmlOf? n =
    some (Markup.highlight mount.overlay.options shown)

namespace Shows

variable {slot : Nat} {mount : PageOverlay} {text shown : String}

-- Only the two texts are left to be looked at after an action.
theorem of_kept (h : session.Shows slot mount text shown) {after : Session}
    (hkept : session.Kept after) {text' shown' : String}
    (htext : after.page.valueOf mount.input = text')
    (hshown : ∀ n ∈ mount.overlay.backdrops, after.page.htmlOf? n =
      some (Markup.highlight mount.overlay.options shown')) :
    after.Shows slot mount text' shown' where
  mounted := hkept.overlays ▸ h.mounted
  field := hkept.length ▸ h.field
  backdrops := hkept.length ▸ h.backdrops
  listening := hkept.listeners ▸ h.listening
  text := htext
  shown := hshown

-- The overlay listens behind all others, so what it shows is not replaced by theirs.
theorem input (h : session.Shows slot mount text shown) (event : Event) :
    (session.attend slot mount.input (.input event)).Shows slot mount text text := by
  obtain ⟨earlier, hlistening⟩ := h.listening
  let others := earlier.filter (·.event == "input")
  let middle := others.foldl
    (fun session listener => session.fire (.element mount.input) event listener) session
  have hlast : session.attend slot mount.input (.input event) =
      middle.withOverlay slot PageOverlay.fill := by
    have hfilter : (session.page.listeners (.element mount.input)).filter (·.event == "input") =
        others ++ [.fill slot] := by
      rw [hlistening, List.filter_append]
      rfl
    change session.dispatch (.element mount.input) "input" event = _
    rw [dispatch, hfilter, List.foldl_append]
    rfl
  have hkept : session.Kept middle := foldl_fire serves_input
    (fun after slot h => h.trans (Kept.fill after slot)) event_of_mem_filter (Kept.refl session)
  have hvalue : middle.page.elements.map Element.value = session.page.elements.map Element.value :=
    view_foldl_fire serves_input (Page.view_fill fun _ _ => rfl) event_of_mem_filter
  have htext : middle.page.valueOf mount.input = text :=
    (Page.valueOf_of_view hvalue mount.input).trans h.text
  have hmounted : middle.overlays slot = some (.mounted mount) := hkept.overlays ▸ h.mounted
  refine h.of_kept (Kept.attend session slot mount.input (.input event)) ?_ fun n hn => ?_
  · rw [hlast, withOverlay_of_mounted hmounted]
    exact (Page.valueOf_of_view (Page.view_fill (fun _ _ => rfl) mount _) _).trans htext
  · rw [hlast, withOverlay_of_mounted hmounted, ← htext]
    exact Page.htmlOf_fill mount hn (hkept.length ▸ h.backdrops n hn)

theorem scroll (h : session.Shows slot mount text shown) (event : Event) :
    (session.attend slot mount.input (.scroll event)).Shows slot mount text shown := by
  refine h.of_kept (Kept.attend session slot mount.input (.scroll event)) ?_ fun n hn => ?_
  · refine (Page.valueOf_of_view ?_ _).trans h.text
    exact view_foldl_fire serves_scroll (Page.view_follow fun _ _ => rfl) event_of_mem_filter
  · refine (Page.htmlOf_of_view ?_ n).trans (h.shown n hn)
    exact view_foldl_fire serves_scroll (Page.view_follow fun _ _ => rfl) event_of_mem_filter

theorem refresh (h : session.Shows slot mount text shown) :
    (session.attend slot mount.input .refresh).Shows slot mount text text := by
  have hrefresh : session.attend slot mount.input .refresh =
      session.changePage fun page => mount.follow (mount.fill page) := by
    refine (refresh_eq_withOverlay slot).trans ((withOverlay_of_mounted h.mounted _).trans ?_)
    exact congrArg session.changePage (funext (Page.refresh_eq mount))
  refine h.of_kept (Kept.attend session slot mount.input .refresh) ?_ fun n hn => ?_
  · rw [hrefresh, ← h.text]
    exact (Page.valueOf_of_view (Page.view_follow (fun _ _ => rfl) mount _) _).trans
      (Page.valueOf_of_view (Page.view_fill (fun _ _ => rfl) mount _) _)
  · rw [hrefresh, ← h.text]
    exact (Page.htmlOf_of_view (Page.view_follow (fun _ _ => rfl) mount _) n).trans
      (Page.htmlOf_fill mount hn (h.backdrops n hn))

theorem setValue (h : session.Shows slot mount text shown) (value : String) :
    (session.attend slot mount.input (.setValue value)).Shows slot mount value shown := by
  refine h.of_kept (Kept.attend session slot mount.input (.setValue value)) ?_ fun n hn => ?_
  · have hfield := h.field
    simp [Session.attend, changePage, Page.valueOf, Page.modifyElement, hfield]
  · refine (Page.htmlOf_of_view ?_ n).trans (h.shown n hn)
    apply Page.map_modify
    exact fun _ => rfl

theorem setScroll (h : session.Shows slot mount text shown) (scroll : Offset) :
    (session.attend slot mount.input (.setScroll scroll)).Shows slot mount text shown := by
  refine h.of_kept (Kept.attend session slot mount.input (.setScroll scroll)) ?_ fun n hn => ?_
  · refine (Page.valueOf_of_view ?_ _).trans h.text
    apply Page.map_modify
    exact fun _ => rfl
  · refine (Page.htmlOf_of_view ?_ n).trans (h.shown n hn)
    apply Page.map_modify
    exact fun _ => rfl

theorem attend (h : session.Shows slot mount text shown) (action : FieldAction) :
    (session.attend slot mount.input action).Shows slot mount (action.text text)
      (action.shown text shown) := by
  cases action with
  | setValue value => exact h.setValue value
  | setScroll scroll => exact h.setScroll scroll
  | input event => exact h.input event
  | scroll event => exact h.scroll event
  | refresh => exact h.refresh

theorem attendAll (h : session.Shows slot mount text shown) (actions : List FieldAction) :
    ∃ last, (session.attendAll slot mount.input actions).Shows slot mount last
      (shownAfter text shown actions) := by
  induction actions generalizing session text shown with
  | nil => exact ⟨text, h⟩
  | cons action rest ih => exact ih (h.attend action)

end Shows

-- A session in which neither the slot nor the field has an overlay to serve.
structure Quiet (slot input : Nat) (session : Session) : Prop where
  unmounted : ∀ mount, session.overlays slot ≠ some (.mounted mount)
  silent : ∀ listener ∈ session.page.listeners (.element input),
    listener.event ≠ "input" ∧ listener.event ≠ "scroll"

namespace Quiet

variable {slot input : Nat}

theorem attend (h : session.Quiet slot input) {action : FieldAction} (hedit : ¬action.isEdit) :
    session.attend slot input action = session := by
  cases action with
  | setValue value => exact absurd rfl hedit
  | setScroll scroll => exact absurd rfl hedit
  | input event =>
    have hnone : (session.page.listeners (.element input)).filter (·.event == "input") = [] :=
      List.filter_eq_nil_iff.2 fun listener hlistener => by simp [(h.silent listener hlistener).1]
    simp only [Session.attend, dispatch, hnone, List.foldl_nil]
  | scroll event =>
    have hnone : (session.page.listeners (.element input)).filter (·.event == "scroll") = [] :=
      List.filter_eq_nil_iff.2 fun listener hlistener => by simp [(h.silent listener hlistener).2]
    simp only [Session.attend, dispatch, hnone, List.foldl_nil]
  | refresh =>
    simp only [Session.attend, refresh_eq_withOverlay, withOverlay]
    split
    · rename_i mount hmount
      exact absurd hmount (h.unmounted mount)
    · rfl

theorem of_kept (h : session.Quiet slot input) {after : Session} (hkept : session.Kept after) :
    after.Quiet slot input :=
  ⟨hkept.overlays ▸ h.unmounted, hkept.listeners ▸ h.silent⟩

-- Only what is set by hand still has an effect.
theorem attendAll (h : session.Quiet slot input) (actions : List FieldAction) :
    session.attendAll slot input actions =
      session.attendAll slot input (actions.filter FieldAction.isEdit) := by
  induction actions generalizing session with
  | nil => rfl
  | cons action rest ih =>
    by_cases hedit : action.isEdit
    · rw [List.filter_cons_of_pos hedit]
      exact ih (h.of_kept (Kept.attend session slot input action))
    · rw [List.filter_cons_of_neg hedit, ← ih h]
      exact congrArg (·.attendAll slot input rest) (h.attend hedit)

end Quiet

section Mounting

-- The overlay that is mounted on given elements, and the session right after.
def overlayOn (before : Session) (input : Nat) (backdrops : List Nat) (adjustment : Fit.Adjustment)
    (options : Markup.Options) : PageOverlay :=
  ⟨input, (Mounted.mount backdrops adjustment options before.page).1⟩

def overlaid (before : Session) (slot input : Nat) (backdrops : List Nat)
    (adjustment : Fit.Adjustment) (options : Markup.Options) : Session :=
  let mount := before.overlayOn input backdrops adjustment options
  let inset := (Mounted.mount backdrops adjustment options before.page).2
  { before with page := mount.place slot inset }.setOverlay slot (some (.mounted mount))

variable {slot input : Nat} {backdrops : List Nat} {settings : Settings}

theorem clearOverlay_of_free (h : session.overlays slot = none) :
    session.clearOverlay slot none = session := by
  have hoverlays : setEntry session.overlays slot none = session.overlays := by
    funext other
    by_cases hother : other = slot
    · simp [setEntry, hother, h]
    · simp [setEntry, hother]
  simp only [clearOverlay, h, setOverlay, hoverlays]

theorem mount_of_fault {start : Session} {error : Error}
    (h : (start.clearOverlay slot none).page.resolve settings = .error error) :
    start.mount slot (some settings) = (.failed error, start.clearOverlay slot none) := by
  simp only [mount, PageOverlay.mount, h]

theorem mount_of_resolve {start : Session}
    (h : (start.clearOverlay slot none).page.resolve settings = .ok (input, backdrops)) :
    start.mount slot (some settings) = (.done, (start.clearOverlay slot none).overlaid slot input
      backdrops (settings.adjust (start.clearOverlay slot none).page.adjustment)
        settings.options) := by
  simp only [mount, PageOverlay.mount, h]
  rfl

theorem unmount_of_mounted {mount : PageOverlay}
    (h : session.overlays slot = some (.mounted mount)) :
    ∃ gone, session.unmount slot = (.done, gone) ∧
      gone.page = mount.unmount slot session.page ∧
      ∀ other, gone.overlays slot ≠ some (.mounted other) := by
  simp only [unmount, clearOverlay, h]
  cases session.access with
  | direct => exact ⟨_, rfl, rfl, by simp [setOverlay, setEntry]⟩
  | scripted => exact ⟨_, rfl, rfl, by simp [setOverlay, setEntry]⟩

section Life

variable (slot : Nat) (before : Session) (adjustment : Fit.Adjustment) (options : Markup.Options)

-- Right after mounting, the field's text is shown.
theorem shows_overlaid (hinput : input < before.page.elements.length)
    (hbackdrops : ∀ n ∈ backdrops, n < before.page.elements.length) :
    (before.overlaid slot input backdrops adjustment options).Shows slot
      (before.overlayOn input backdrops adjustment options) (before.page.valueOf input)
      (before.page.valueOf input) := by
  let mount := before.overlayOn input backdrops adjustment options
  let inset := (Mounted.mount backdrops adjustment options before.page).2
  have hinset : inset.elements.map Element.value = before.page.elements.map Element.value :=
    Page.view_mount Element.value_pad backdrops adjustment options before.page
  have hplace : (mount.place slot inset).elements.map Element.value =
      inset.elements.map Element.value :=
    Page.view_place slot mount (fun _ _ => rfl) (fun _ _ => rfl) fun _ _ => rfl
  have hlength : inset.elements.length = before.page.elements.length := Page.length_of_view hinset
  have hplaced : (mount.place slot inset).elements.length = inset.elements.length :=
    Page.length_of_view hplace
  refine ⟨by simp [overlaid, setOverlay, setEntry], ?_, fun n hn => ?_, ?_, ?_, fun n hn => ?_⟩
  · exact hplaced ▸ hlength ▸ hinput
  · exact hplaced ▸ hlength ▸ hbackdrops n hn
  · exact ⟨_, Page.listeners_place slot mount (hlength ▸ hinput)⟩
  · exact Page.valueOf_of_view (hplace.trans hinset) input
  · rw [← Page.valueOf_of_view hinset input]
    exact Page.htmlOf_place slot mount hn (hlength ▸ hbackdrops n hn)

-- Neither what happens to the field nor a listener has to do with the style of an element.
theorem view_attendAll_overlaid {view : Element → Padding}
    (hstyle : ∀ e other : Element, e.style = other.style → view e = view other)
    (actions : List FieldAction) :
    (((before.overlaid slot input backdrops adjustment options).attendAll slot input
      actions).page.silence (Listener.ofOverlay slot)).elements.map view =
        (Mounted.mount backdrops adjustment options before.page).2.elements.map view := by
  rw [Page.view_silence fun _ _ => hstyle _ _ rfl,
    (Kept.attendAll _ slot input actions).view fun _ => hstyle _ _ rfl]
  exact Page.view_place slot _ (fun _ _ => hstyle _ _ rfl) (fun _ _ => hstyle _ _ rfl)
    fun _ _ => hstyle _ _ rfl

-- What unmounting leaves of the page, after anything has happened to the field.
theorem unmount_attendAll (hinput : input < before.page.elements.length)
    (hbackdrops : ∀ n ∈ backdrops, n < before.page.elements.length) (hnodup : backdrops.Nodup)
    (actions : List FieldAction) :
    let mounted := before.overlaid slot input backdrops adjustment options
    let text := before.page.valueOf input
    ∃ gone, (mounted.attendAll slot input actions).unmount slot = (.done, gone) ∧
      (∀ other, gone.overlays slot ≠ some (.mounted other)) ∧
      (∀ n ∈ backdrops, gone.page.htmlOf? n =
        some (Markup.highlight (mergeHint adjustment options) (shownAfter text text actions))) ∧
      (∀ n, (before.page.paddingOf n).ReadsBack →
        gone.page.paddingOf n = before.page.paddingOf n) ∧
      ∀ target, gone.page.listeners target =
        (before.page.listeners target).filter (!Listener.ofOverlay slot ·) := by
  intro mounted text
  obtain ⟨last, hshows⟩ :=
    (shows_overlaid slot before adjustment options hinput hbackdrops).attendAll actions
  obtain ⟨gone, hunmount, hpage, hgone⟩ := unmount_of_mounted hshows.mounted
  refine ⟨gone, hunmount, hgone, fun n hn => ?_, fun n hreads => ?_, fun target => ?_⟩
  · refine Eq.trans (Page.htmlOf_of_view ?_ n) (hshows.shown n hn)
    rw [hpage, PageOverlay.unmount, Page.view_unmount Element.html_pad,
      Page.view_silence fun _ _ => rfl]
  · rw [hpage]
    refine Page.paddingOf_unmount adjustment options hnodup ?_ (fun padding => ?_) hreads
    · exact view_attendAll_overlaid slot before adjustment options
        (fun _ _ => Element.padding_congr) actions
    · exact view_attendAll_overlaid slot before adjustment options
        (fun _ _ hsame => Element.padding_pad_congr hsame padding) actions
  · rw [hpage, PageOverlay.unmount, Page.listeners_unmount, Page.listeners_silence,
      (Kept.attendAll _ slot _ actions).listeners]
    refine (Page.filter_listeners_place slot _ target).trans ?_
    rw [Page.listeners_mount]

end Life

end Mounting

-- A slot that is free is not touched by a mounting that fails. The first fault keeps everything as
-- it was. Without a fault, the text is shown at once, and later as of the last input or refresh;
-- unmounting puts the paddings back and takes the listeners off, and then nothing more happens on
-- a field that nobody else listens to.
theorem overlay_all_or_nothing (start : Session) (slot : Nat) (settings : Settings) :
    let before := start.clearOverlay slot none
    (start.overlays slot = none → before = start) ∧
    match before.page.mountFault? settings with
    | some error => start.mount slot (some settings) = (.failed error, before)
    | none => ∃ (input : Nat) (backdrops : List Nat) (mounted : Session),
      start.mount slot (some settings) = (.done, mounted) ∧
      before.page.find? settings.inputId = some input ∧
      settings.backdropIds.map before.page.find? = backdrops.map some ∧
      let adjustment := settings.adjust before.page.adjustment
      let render := Markup.highlight (mergeHint adjustment settings.options)
      let text := before.page.valueOf input
      (∀ n ∈ backdrops, mounted.page.htmlOf? n = some (render text)) ∧
      ∀ actions, ∃ gone, (mounted.attendAll slot input actions).unmount slot = (.done, gone) ∧
        (∀ n ∈ backdrops, gone.page.htmlOf? n = some (render (shownAfter text text actions))) ∧
        (∀ n, (before.page.paddingOf n).ReadsBack →
          gone.page.paddingOf n = before.page.paddingOf n) ∧
        (∀ target, gone.page.listeners target =
          (before.page.listeners target).filter (!Listener.ofOverlay slot ·)) ∧
        ((∀ listener ∈ before.page.listeners (.element input), ¬listener.ofOverlay slot →
            listener.event ≠ "input" ∧ listener.event ≠ "scroll") →
          ∀ later, gone.attendAll slot input later =
            gone.attendAll slot input (later.filter FieldAction.isEdit)) := by
  intro before
  refine ⟨fun hfree => clearOverlay_of_free hfree, ?_⟩
  rcases before.page.resolve_eq settings with
    ⟨error, hfault, hresolve⟩ | ⟨input, backdrops, hfault, hresolve, hinput, hbackdrops, hnodup⟩
  · rw [hfault]
    exact mount_of_fault hresolve
  · rw [hfault]
    have hlt : ∀ n ∈ backdrops, n < before.page.elements.length := by
      intro n hn
      have hmem : some n ∈ settings.backdropIds.map before.page.find? :=
        hbackdrops ▸ List.mem_map_of_mem hn
      obtain ⟨id, _, hid⟩ := List.mem_map.1 hmem
      exact Page.lt_of_find hid
    have hshows := shows_overlaid slot before (settings.adjust before.page.adjustment)
      settings.options (Page.lt_of_find hinput) hlt
    refine ⟨input, backdrops, _, mount_of_resolve hresolve, hinput, hbackdrops, hshows.shown,
      fun actions => ?_⟩
    obtain ⟨gone, hunmount, hgone, hhtml, hpadding, hlisteners⟩ :=
      unmount_attendAll slot before (settings.adjust before.page.adjustment) settings.options
        (Page.lt_of_find hinput) hlt hnodup actions
    refine ⟨gone, hunmount, hhtml, hpadding, hlisteners, fun hothers => ?_⟩
    refine Quiet.attendAll ⟨hgone, fun listener hlistener => ?_⟩
    rw [hlisteners, List.mem_filter] at hlistener
    exact hothers listener hlistener.1 (by simpa using hlistener.2)

-- A field with two backdrops, one of them padded, in a browser that puts a padding into its fields.
def paddedSession : Session where
  access := .direct
  page.elements := [{ id := "code", kind := .textArea, value := "mov 1" },
    { id := "highlights", kind := .plain, paddingLeft := "10px", paddingRight := "0.5px" },
    { id := "highlights_text", kind := .plain }]
  page.navigator := some { userAgent := "Mozilla/5.0 (iPhone)" }

theorem overlay_all_or_nothing_inset :
    ∃ mounted, paddedSession.mount 0 (some {}) = (.done, mounted) ∧
      mounted.page.paddingOf 1 = ⟨13.0, 3.5⟩ ∧
      mounted.page.htmlOf? 1 = some (Markup.highlight {} "mov 1") ∧
      ∃ gone, (mounted.attendAll 0 0 [.setValue "drop", .input .plain, .setValue "fwd"]).unmount 0 =
          (.done, gone) ∧
        gone.page.htmlOf? 1 = some (Markup.highlight {} "drop") ∧
        gone.page.paddingOf 1 = ⟨10.0, 0.5⟩ := by
  obtain ⟨hfree, hmount⟩ := overlay_all_or_nothing paddedSession 0 {}
  have hbefore : paddedSession.clearOverlay 0 none = paddedSession := hfree rfl
  rw [hbefore] at hmount
  have hfault : paddedSession.page.mountFault? {} = none := by
    decide +kernel
  rw [hfault] at hmount
  obtain ⟨input, backdrops, mounted, hmount, hinput, hbackdrops, hshown, hlife⟩ := hmount
  obtain rfl : input = 0 := (Option.some.inj hinput).symm
  obtain rfl : backdrops = [1, 2] := by
    have hmap : [1, 2].map some = backdrops.map some := hbackdrops
    exact (List.map_injective_iff.mpr (Option.some_injective Nat) hmap).symm
  obtain ⟨gone, hunmount, hhtml, hpadding, -⟩ :=
    hlife [.setValue "drop", .input .plain, .setValue "fwd"]
  have hstart : paddedSession.page.paddingOf 1 = ⟨10.0, 0.5⟩ := by
    decide +kernel
  have hinset : (paddedSession.mount 0 (some {})).2.page.paddingOf 1 = ⟨13.0, 3.5⟩ := by
    decide +kernel
  rw [hmount] at hinset
  refine ⟨mounted, hmount, hinset, hshown 1 (by simp), gone, hunmount, hhtml 1 (by simp), ?_⟩
  rw [hpadding 1, hstart]
  rw [hstart]
  exact ⟨by decide +kernel, by decide +kernel⟩

end Session

end CodePanel
