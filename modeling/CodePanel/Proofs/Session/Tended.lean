import CodePanel.Proofs.Session.Aside

namespace CodePanel

open Asset Map Overlay

namespace Session

variable {session : Session}

section Events

theorem Tended.fire (h : session.Tended) (target : Target) (event : Event) (listener : Listener) :
    (session.fire target event listener).Tended := by
  rw [fire_eq]
  refine h.of_change ?_ ?_
  · intro slot hslot
    have hcanvases := canvases_handle (session.readied target listener) event listener slot
    rw [views_readied] at hcanvases
    rw [← Option.isSome_map, hcanvases, Option.isSome_map]
    exact hslot
  · exact (change_readied session target listener).trans
      (change_handle _ event listener fun _ _ _ _ => ⟨id, id⟩)

theorem Tended.dispatch (h : session.Tended) (target : Target) (type : String) (event : Event) :
    (session.dispatch target type event).Tended := by
  unfold Session.dispatch
  generalize List.filter _ _ = listeners
  induction listeners generalizing session with
  | nil => exact h
  | cons listener rest ih => exact ih (h.fire target event listener)

theorem Tended.imageEvent (h : session.Tended) (image : Nat) (type : String)
    (throws : Option Thrown) : (session.imageEvent image type throws).2.Tended := by
  unfold Session.imageEvent
  split
  · refine Tended.dispatch (h.changePage ?_) _ _ _
    exact .modifyImage (fun _ => rfl) (fun _ _ => .inr trivial) (fun _ _ h => .inl h)
  · exact h

theorem Tended.socketEvent (h : session.Tended) (socket : Nat) (type : String) (event : Event) :
    (session.socketEvent socket type event).2.Tended := by
  unfold Session.socketEvent
  split
  · refine Tended.dispatch (h.changePage ?_) _ _ _
    refine .modifySocket fun s listener hlistener => .inl ?_
    split at hlistener
    · exact hlistener
    · split at hlistener <;> exact hlistener
  · exact h

end Events

section Views

theorem not_heard_clearView (h : session.Tended) (slot : Nat) (target : Target) :
    ∀ listener ∈ (session.clearView slot).page.listeners target,
      listener.ofLoader (.view slot) = false := by
  intro listener hlistener
  unfold clearView at hlistener
  split at hlistener
  · have hsilent := (mem_listeners_silence.1 hlistener).1
    exact (mem_listeners_silence.1 hsilent).2
  · rename_i hnone
    apply Bool.eq_false_iff.2
    intro hloader
    have hview := h target listener hlistener slot hloader
    rw [hnone] at hview
    cases hview

theorem views_clearView (slot other : Nat) :
    (session.clearView slot).views other = if other = slot then none else session.views other := by
  unfold clearView
  split
  · rfl
  · split
    · rename_i hother
      rwa [hother]
    · rfl

theorem Tended.clearView (h : session.Tended) (slot : Nat) : (session.clearView slot).Tended := by
  intro target listener hlistener other hother
  have hheard := not_heard_clearView h slot target listener hlistener
  by_cases hslot : other = slot
  · rw [hslot, hheard] at hother
    cases hother
  · rw [views_clearView, if_neg hslot]
    refine h target listener ?_ other hother
    unfold Session.clearView at hlistener
    split at hlistener
    · exact (mem_listeners_silence.1 (mem_listeners_silence.1 hlistener).1).1
    · exact hlistener

theorem isSome_setEntry {table : Nat → Option α} {slot : Nat} {entry : α} {other : Nat}
    (h : (table other).isSome) : (setEntry table slot (some entry) other).isSome := by
  unfold setEntry
  split
  · rfl
  · exact h

theorem expects_setView (slot : Nat) (view : View) (name : String) (n : Nat) :
    (session.setView slot (some view)).Expects (.arrive (.view slot) name n) ∧
      (session.setView slot (some view)).Expects (.fail (.view slot) name n) := by
  have hslot : ∀ other, (LoaderName.view slot == .view other) →
      ((session.setView slot (some view)).views other).isSome := by
    intro other hother
    cases LoaderName.view.inj (eq_of_beq hother)
    simp [setView, setEntry]
  exact ⟨hslot, hslot⟩

theorem Tended.mountView (h : session.Tended) (slot : Nat) (settings : Option Map.Settings) :
    (session.mountView slot settings).2.Tended := by
  have hclear := h.clearView slot
  unfold Session.mountView
  simp only
  split
  · exact hclear
  · split
    · exact hclear
    · rename_i view page hmount
      refine hclear.of_change (fun _ => isSome_setEntry) ?_
      exact .mountView (fun name n _ _ _ => expects_setView slot view name n) nofun nofun hmount

theorem Tended.withView (h : session.Tended) (slot : Nat)
    {change : View → Page → Except Error Unit × View × Page}
    (hchange : ∀ {fresh : Listener → Prop} view (page : Page),
      (∀ name n, fresh (.arrive (.view slot) name n) ∧ fresh (.fail (.view slot) name n)) →
      page.Change fresh (fun _ => True) (fun _ => False) (change view page).2.2) :
    (session.withView slot change).2.Tended := by
  unfold Session.withView
  split
  · exact h
  · refine h.of_change (fun _ => isSome_setEntry) (hchange _ _ ?_)
    exact expects_setView slot _

end Views

theorem Tended.respond (h : session.Tended) (command : SessionCommand) :
    (session.respond command).2.Tended := by
  cases command with
  | setValue id value =>
    refine (aside_touch session id ?_).tended h
    exact fun _ => rfl
  | setScroll id scroll =>
    refine (aside_touch session id ?_).tended h
    exact fun _ => rfl
  | remove id =>
    refine (aside_touch session id ?_).tended h
    exact fun _ => rfl
  | faults faults =>
    intro target listener hlistener
    exact h target listener (by cases target <;> exact hlistener)
  | event id type event =>
    simp only [Session.respond]
    split
    · exact h
    · exact h.dispatch _ _ _
  | imageEvent image type throws => exact h.imageEvent image type throws
  | socketEvent socket type event => exact h.socketEvent socket type event
  | browser => exact h
  | textArea id scroll =>
    exact (aside_inspect session fun _ _ => change_whenGiven fun _ => .setScroll _ _).tended h
  | backdrop id html scroll padding =>
    refine (aside_inspect session fun _ _ => ?_).tended h
    refine .trans ?_ (change_whenGiven fun _ => .setPadding _ _)
    refine .trans ?_ (change_whenGiven fun _ => .setScroll _ _)
    exact change_whenGiven fun _ => .setHtml _ _
  | canvas id size =>
    refine (aside_inspect session fun _ _ => change_whenGiven fun _ => ?_).tended h
    exact .modifyDrawing (fun hkept => hkept) _
  | newLoader base =>
    have haside : Aside session (session.respond (.newLoader base)).2 := ⟨rfl, .silence _⟩
    exact haside.tended h
  | load names => exact (aside_load session names).tended h
  | onReady name => exact (aside_onReady session name).tended h
  | loaderState names => exact h
  | mount slot settings => exact (aside_mount session slot settings).tended h
  | refresh slot => exact (aside_refresh session slot).tended h
  | unmount slot => exact (aside_unmount session slot).tended h
  | mounted slot => exact h
  | mountView slot settings => exact h.mountView slot settings
  | unmountView slot => exact h.clearView slot
  | setBytes slot width height bytes =>
    exact h.withView slot fun _ _ hfresh => .setBytes id id hfresh width height bytes
  | setWorld slot width height bytes viewport =>
    refine h.withView slot fun _ _ hfresh => ?_
    unfold View.setWorldBytes
    split
    · exact .refl _
    · exact .setWorld id id hfresh _ viewport
  | pan slot direction => exact h.withView slot fun _ _ hfresh => .pan id id hfresh direction
  | redraw slot => exact h.withView slot fun _ _ _ => .redraw id id
  | viewState slot =>
    simp only [Session.respond]
    split <;> exact h
  | connect slot url => exact (aside_connect session slot url).tended h
  | disconnect slot => exact (aside_clearConnection session slot).tended h
  | send slot text => exact (aside_send session slot text).tended h
  | bind slot buttonId inputId => exact (aside_bind session slot buttonId inputId).tended h
  | unbind => exact (aside_unbind session).tended h
  | socketState slot => exact h

theorem Tended.step (h : session.Tended) (command : SessionCommand) :
    (session.step command).2.Tended := by
  have haside : Aside session
      { session with page := { session.page with log := [] }, fired := [] } := ⟨rfl, .setLog []⟩
  exact (haside.tended h).respond command

theorem Tended.run (h : session.Tended) (commands : List SessionCommand) :
    (session.run commands).Tended := by
  unfold Session.run
  induction commands generalizing session with
  | nil => exact h
  | cons command rest ih => exact ih (h.step command)

-- The sessions of a page that nothing has been mounted on before.
def Reachable (session : Session) : Prop :=
  ∃ access page commands, (∀ target, page.listeners target = []) ∧
    session = ({ access, page } : Session).run commands

theorem Reachable.tended (h : session.Reachable) : session.Tended := by
  obtain ⟨access, page, commands, hpage, rfl⟩ := h
  refine Tended.run (fun target listener hlistener => ?_) commands
  rw [hpage target] at hlistener
  cases hlistener

end Session

end CodePanel
