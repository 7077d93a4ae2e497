import CodePanel.Proofs.Session.Canvases

namespace CodePanel

open Asset Map

namespace SessionCommand

-- Whether a command ends the view in a slot.
def ends (slot : Nat) : SessionCommand → Bool
  | .mountView other _ | .unmountView other => other == slot
  | _ => false

-- What a command does to the view in a slot by itself.
def action? (slot : Nat) : SessionCommand → Option ViewAction
  | .setBytes other width height bytes =>
    if other = slot then some (.setBytes width height bytes) else none
  | .setWorld other width height bytes window =>
    if other = slot then (Grid.ofBytes width height bytes).toOption.map (.setWorld · window)
    else none
  | .pan other direction => if other = slot then some (.pan direction) else none
  | .redraw other => if other = slot then some .redraw else none
  | _ => none

end SessionCommand

namespace Session

variable {session : Session} {slot : Nat}

theorem map_views_dispatch {f : View → α} (hf : View.IsLasting f) (target : Target) (type : String)
    (event : Event) (other : Nat) :
    ((session.dispatch target type event).views other).map f = (session.views other).map f := by
  unfold dispatch
  generalize List.filter _ _ = listeners
  induction listeners generalizing session with
  | nil => rfl
  | cons listener rest ih =>
    rw [List.foldl_cons, ih, fire_eq, map_views_handle _ hf, views_readied]

theorem views_touch (id : String) (change : Element → Element) :
    (session.touch id change).2.views = session.views := by
  unfold touch
  split <;> rfl

theorem views_inspect (lookup : Page → Except Error Nat) (change : Nat → Page → Page)
    (reply : Nat → Page → SessionReply) :
    (session.inspect lookup change reply).2.views = session.views := by
  unfold inspect
  split
  · rfl
  · split <;> rfl

theorem views_mountView_of_ne {other : Nat} (h : slot ≠ other) (settings : Option Settings) :
    (session.mountView other settings).2.views slot = session.views slot := by
  have hclear : (session.clearView other).views slot = session.views slot := by
    rw [views_clearView, if_neg h]
  unfold mountView
  simp only
  split
  · exact hclear
  · split
    · exact hclear
    · exact (if_neg h).trans hclear

theorem views_withView_of_ne {other : Nat} (h : slot ≠ other)
    (change : View → Page → Except Error Unit × View × Page) :
    (session.withView other change).2.views slot = session.views slot := by
  unfold withView
  split
  · rfl
  · exact if_neg h

theorem withView_eq {view : View} (h : session.views slot = some view)
    (change : View → Page → Except Error Unit × View × Page) :
    session.withView slot change = (.ofOutcome (change view session.page).1,
      { session with page := (change view session.page).2.2 }.setView slot
        (some (change view session.page).2.1)) := by
  simp only [withView, h]

theorem views_withView {view : View} (hview : session.views slot = some view)
    (change : View → Page → Except Error Unit × View × Page) :
    (session.withView slot change).2.views slot = some (change view session.page).2.1 := by
  rw [withView_eq hview]
  exact if_pos rfl

-- A call that fails, or has nothing to do, leaves the session as it is.
theorem withView_of_idle (change : View → Page → Except Error Unit × View × Page) {view : View}
    (h : session.views slot = some view) {outcome : Except Error Unit}
    (hchange : change view session.page = (outcome, view, session.page)) :
    session.withView slot change = (.ofOutcome outcome, session) := by
  have hviews : setEntry session.views slot (some view) = session.views := by
    funext other
    by_cases hother : other = slot
    · simp [setEntry, hother, h]
    · simp [setEntry, hother]
  rw [withView_eq h, hchange]
  simp only [setView, hviews]

-- A larger map that cannot be made out is not given to the view.
theorem views_setWorld_of_error {width height : Nat} {bytes : List UInt8} {error : MapError}
    (h : Grid.ofBytes width height bytes = .error error) (window : Viewport) :
    (session.respond (.setWorld slot width height bytes window)).2.views slot =
      session.views slot := by
  cases hview : session.views slot with
  | none => simp only [respond, withView, hview]
  | some view =>
    have hidle : view.setWorldBytes slot session.page width height bytes window =
        (.error (.map error), view, session.page) := by
      simp only [View.setWorldBytes, h]
    have hcall := withView_of_idle (View.setWorldBytes slot · · width height bytes window) hview
      hidle
    rw [respond, hcall, hview]

theorem respond_of_action {command : SessionCommand} {action : ViewAction}
    (h : command.action? slot = some action) :
    (session.respond command).2 = session.act slot action := by
  unfold SessionCommand.action? at h
  split at h
  · split at h
    · next hslot =>
      cases h
      rw [hslot]
      rfl
    · cases h
  · next other width height bytes window =>
    split at h
    · next hslot =>
      cases hgrid : Grid.ofBytes width height bytes with
      | error error =>
        rw [hgrid] at h
        cases h
      | ok world =>
        rw [hgrid] at h
        cases h
        simp only [respond, View.setWorldBytes, hgrid, act, hslot]
    · cases h
  · split at h
    · next hslot =>
      cases h
      rw [hslot]
      rfl
    · cases h
  · split at h
    · next hslot =>
      cases h
      rw [hslot]
      rfl
    · cases h
  · cases h

-- All other commands leave the view alone, apart from events.
theorem respond_cases (session : Session) {command : SessionCommand}
    (hends : command.ends slot = false) (h : command.action? slot = none) :
    (session.respond command).2.views slot = session.views slot ∨
      ∃ page target type event, (session.respond command).2 =
        { session with page }.dispatch target type event := by
  have haside : ∀ {after : Session}, after.views = session.views →
      after.views slot = session.views slot := fun hviews => by rw [hviews]
  cases command with
  | setValue id value => exact .inl (haside (views_touch id _))
  | setScroll id scroll => exact .inl (haside (views_touch id _))
  | remove id => exact .inl (haside (views_touch id _))
  | event id type event =>
    simp only [respond]
    split
    · exact .inl rfl
    · exact .inr ⟨_, _, type, event, rfl⟩
  | imageEvent image type throws =>
    simp only [respond, imageEvent]
    split
    · exact .inr ⟨_, _, type, .plain, rfl⟩
    · exact .inl rfl
  | socketEvent socket type event =>
    simp only [respond, socketEvent]
    split
    · exact .inr ⟨_, _, type, event, rfl⟩
    · exact .inl rfl
  | textArea id scroll => exact .inl (haside (views_inspect _ _ _))
  | backdrop id html scroll padding => exact .inl (haside (views_inspect _ _ _))
  | canvas id size => exact .inl (haside (views_inspect _ _ _))
  | load names => exact .inl (haside (aside_load session names).views)
  | onReady name => exact .inl (haside (aside_onReady session name).views)
  | mount other settings => exact .inl (haside (aside_mount session other settings).views)
  | refresh other => exact .inl (haside (aside_refresh session other).views)
  | unmount other => exact .inl (haside (aside_unmount session other).views)
  | mountView other settings =>
    have hne : slot ≠ other := fun heq => by simp [SessionCommand.ends, heq] at hends
    exact .inl (views_mountView_of_ne hne settings)
  | unmountView other =>
    have hne : slot ≠ other := fun heq => by simp [SessionCommand.ends, heq] at hends
    exact .inl ((views_clearView other slot).trans (if_neg hne))
  | setBytes other width height bytes =>
    have hne : slot ≠ other := fun heq => by simp [SessionCommand.action?, heq] at h
    exact .inl (views_withView_of_ne hne _)
  | setWorld other width height bytes window =>
    by_cases hslot : slot = other
    · subst hslot
      rw [SessionCommand.action?, if_pos rfl] at h
      cases hgrid : Grid.ofBytes width height bytes with
      | error error => exact .inl (views_setWorld_of_error hgrid window)
      | ok world =>
        rw [hgrid] at h
        cases h
    · exact .inl (views_withView_of_ne hslot _)
  | pan other direction =>
    have hne : slot ≠ other := fun heq => by simp [SessionCommand.action?, heq] at h
    exact .inl (views_withView_of_ne hne _)
  | redraw other =>
    have hne : slot ≠ other := fun heq => by simp [SessionCommand.action?, heq] at h
    exact .inl (views_withView_of_ne hne _)
  | viewState other =>
    simp only [respond]
    split <;> exact .inl rfl
  | connect other url => exact .inl (haside (aside_connect session other url).views)
  | disconnect other => exact .inl (haside (aside_clearConnection session other).views)
  | send other text => exact .inl (haside (aside_send session other text).views)
  | bind other buttonId inputId =>
    exact .inl (haside (aside_bind session other buttonId inputId).views)
  | unbind => exact .inl (haside (aside_unbind session).views)
  | _ => exact .inl rfl

end Session

end CodePanel
