import CodePanel.Proofs.Page.Watching
import CodePanel.Proofs.Session.Handling

namespace CodePanel

open Asset Overlay

-- The call that a listener makes to the cache of the shared loader.
def Listener.operation? : Listener → Option (Operation Nat String)
  | .arrive .shared name image => some (.loaded name image)
  | .fail .shared name _ => some (.failed name)
  | _ => none

def Loader.advance (operations : List (Operation Nat String)) (loader : Loader String) :
    Loader String :=
  { loader with cache := loader.cache.performAll operations }

theorem advance_advance (earlier later : List (Operation Nat String)) (loader : Loader String) :
    (loader.advance earlier).advance later = loader.advance (earlier ++ later) := by
  simp only [Loader.advance, Cache.performAll_append]

namespace Session

variable (session : Session)

theorem listeners_withOverlay (slot : Nat) {change : PageOverlay → Page → Page}
    (h : ∀ mount (page : Page), (change mount page).listeners = page.listeners) :
    (session.withOverlay slot change).page.listeners = session.page.listeners := by
  unfold withOverlay
  split
  · exact h _ _
  · rfl

theorem listeners_hover (slot : Nat) {change : View → Page → View × Page}
    (h : ∀ view (page : Page), (change view page).2.listeners = page.listeners) :
    (session.hover slot change).page.listeners = session.page.listeners := by
  unfold hover
  split
  · rfl
  · exact h _ _

theorem listeners_settle (name : String) (entry : Entry Nat) (loader : LoaderName) :
    (session.settle name entry loader).page.listeners = session.page.listeners := by
  cases loader with
  | shared =>
    simp only [settle, settleShared]
    split
    · rfl
    · exact Page.listeners_settleLoader _ name entry
  | view slot =>
    simp only [settle, settleView]
    split
    · rfl
    · exact Page.listeners_settleView _ name entry

theorem listeners_handle (event : Event) (listener : Listener) :
    (session.handle event listener).page.listeners = session.page.listeners := by
  cases listener with
  | fill slot => exact listeners_withOverlay session slot fun mount _ => Page.listeners_fill mount
  | follow slot =>
    exact listeners_withOverlay session slot fun mount _ => Page.listeners_follow mount
  | point slot =>
    cases event with
    | mouse x y => exact listeners_hover session slot fun view _ => Page.listeners_hoverAt view _
    | _ => rfl
  | leave slot => exact listeners_hover session slot fun view _ => Page.listeners_hoverAt view _
  | arrive loader name image => exact listeners_settle session name _ loader
  | fail loader name image => exact listeners_settle session name _ loader
  | opened socket => exact Page.listeners_report _
  | received socket => exact Page.listeners_receive event
  | closed socket => exact Page.listeners_reportClosed socket event
  | broken socket => exact Page.listeners_report _
  | upload socket input => exact Page.listeners_clickUpload socket input

theorem loader_settle (name : String) (entry : Entry Nat) (loader : LoaderName) :
    (session.settle name entry loader).loader =
      if loader = .shared then session.loader.map fun shared =>
        { shared with cache := (shared.cache.settle name entry).2 }
      else session.loader := by
  cases loader with
  | shared =>
    rw [if_pos rfl]
    simp only [settle, settleShared]
    cases hloader : session.loader with
    | none => exact hloader
    | some loader => rfl
  | view slot =>
    simp only [settle, settleView]
    split <;> rfl

theorem loader_handle (event : Event) (listener : Listener) :
    (session.handle event listener).loader =
      session.loader.map (Loader.advance listener.operation?.toList) := by
  have hsame : session.loader = session.loader.map (Loader.advance []) := by
    cases session.loader <;> rfl
  cases listener with
  | fill slot =>
    refine Eq.trans ?_ hsame
    simp only [handle, withOverlay]
    split <;> rfl
  | follow slot =>
    refine Eq.trans ?_ hsame
    simp only [handle, withOverlay]
    split <;> rfl
  | point slot =>
    refine Eq.trans ?_ hsame
    cases event with
    | mouse x y =>
      simp only [handle, hover]
      split <;> rfl
    | _ => rfl
  | leave slot =>
    refine Eq.trans ?_ hsame
    simp only [handle, hover]
    split <;> rfl
  | arrive loader name image =>
    refine (loader_settle session name _ loader).trans ?_
    cases loader with
    | shared => rfl
    | view slot => exact hsame
  | fail loader name image =>
    refine (loader_settle session name _ loader).trans ?_
    cases loader with
    | shared => rfl
    | view slot => exact hsame
  | _ => exact hsame

section Fire

variable {session} {target other : Target} {event : Event} {listener heard : Listener}

theorem loader_fire : (session.fire target event listener).loader =
    session.loader.map (Loader.advance listener.operation?.toList) := by
  rw [fire_eq, loader_handle]
  unfold readied
  split <;> rfl

theorem mem_listeners_fire (h : heard ∈ session.page.listeners other) (hne : heard ≠ listener) :
    heard ∈ (session.fire target event listener).page.listeners other := by
  rw [fire_eq, listeners_handle]
  unfold readied
  split
  · exact Page.mem_listeners_unlisten h hne
  · exact h

theorem mem_of_mem_listeners_fire
    (h : heard ∈ (session.fire target event listener).page.listeners other) :
    heard ∈ session.page.listeners other := by
  rw [fire_eq, listeners_handle] at h
  have hchange : session.page.Change (fun _ => False) (fun _ => True) (fun _ => True)
      (session.readied target listener).page := change_readied session target listener
  exact (hchange.listeners other heard h).resolve_right id

end Fire

section Dispatch

variable (target : Target) (type : String) (event : Event)

-- The listeners that an event sets off.
def roused : List Listener :=
  (session.page.listeners target).filter (·.event == type)

theorem loader_dispatch :
    (session.dispatch target type event).loader = session.loader.map
      (Loader.advance ((session.roused target type).filterMap Listener.operation?)) := by
  unfold dispatch roused
  generalize (session.page.listeners target).filter _ = listeners
  induction listeners generalizing session with
  | nil => cases h : session.loader <;> simp [Loader.advance, Cache.performAll, h]
  | cons listener rest ih =>
    rw [List.foldl_cons, ih, loader_fire, Option.map_map]
    congr 1
    funext loader
    rw [Function.comp_apply, advance_advance]
    congr 1
    cases hoperation : listener.operation? <;> simp [hoperation]

variable {session target type event} {other : Target} {heard : Listener}

theorem mem_listeners_dispatch (h : heard ∈ session.page.listeners other)
    (hquiet : heard ∉ session.roused target type) :
    heard ∈ (session.dispatch target type event).page.listeners other := by
  unfold dispatch
  unfold roused at hquiet
  revert hquiet
  generalize (session.page.listeners target).filter _ = listeners
  intro hquiet
  induction listeners generalizing session with
  | nil => exact h
  | cons listener rest ih =>
    rw [List.mem_cons, not_or] at hquiet
    exact ih (mem_listeners_fire h hquiet.1) hquiet.2

theorem mem_of_mem_listeners_dispatch
    (h : heard ∈ (session.dispatch target type event).page.listeners other) :
    heard ∈ session.page.listeners other := by
  unfold dispatch at h
  revert h
  generalize (session.page.listeners target).filter _ = listeners
  intro h
  induction listeners generalizing session with
  | nil => exact h
  | cons listener rest ih => exact mem_of_mem_listeners_fire (ih h)

end Dispatch

end Session

end CodePanel
