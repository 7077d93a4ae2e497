import CodePanel.Proofs.Page.Loading
import CodePanel.Session.Dispatch

namespace CodePanel

open Asset Map Overlay

-- The slot of the map view that a listener works for.
def Listener.viewSlot? : Listener → Option Nat
  | .point slot | .leave slot | .arrive (.view slot) .. | .fail (.view slot) .. => some slot
  | _ => none

def View.canvases (view : View) : Nat × Nat :=
  (view.canvas, view.overlay)

-- What no event changes of a view: anything but the cell under the mouse and the loader.
def View.IsLasting (f : View → α) : Prop :=
  ∀ (view : View) hover loader, f { view with hover, loader } = f view

theorem map_setEntry_of_eq {f : α → β} {table : Nat → Option α} {slot : Nat} {old new : α}
    (hold : table slot = some old) (hnew : f new = f old) (other : Nat) :
    (setEntry table slot (some new) other).map f = (table other).map f := by
  unfold setEntry
  split
  · rename_i hother
    rw [hother, hold]
    exact congrArg some hnew
  · rfl

namespace Session

variable {fresh : Listener → Prop} {refusing kept : Nat → Prop}
variable (session : Session)

theorem change_withOverlay (slot : Nat) {change : PageOverlay → Page → Page}
    (h : ∀ mount (page : Page), page.Change fresh refusing kept (change mount page)) :
    session.page.Change fresh refusing kept (session.withOverlay slot change).page := by
  unfold withOverlay
  split
  · exact h _ _
  · exact .refl _

theorem change_hover {slot : Nat} {change : View → Page → View × Page}
    (h : ∀ view, session.views slot = some view →
      session.page.Change fresh refusing kept (change view session.page).2) :
    session.page.Change fresh refusing kept (session.hover slot change).page := by
  unfold hover
  split
  · exact .refl _
  · rename_i view hview
    exact h view hview

theorem change_settleView {slot : Nat} (name : String) (entry : Entry Nat)
    (h : ∀ view, session.views slot = some view → ¬kept view.canvas ∧ ¬kept view.overlay) :
    session.page.Change fresh refusing kept (session.settleView slot name entry).page := by
  unfold settleView
  split
  · exact .refl _
  · rename_i view hview
    exact .settleView (h view hview).1 (h view hview).2 name entry

theorem change_settleShared (name : String) (entry : Entry Nat) :
    session.page.Change fresh refusing kept (session.settleShared name entry).page := by
  unfold settleShared
  split
  · exact .refl _
  · exact .settleLoader _ name entry

theorem change_settle (name : String) (entry : Entry Nat) (loader : LoaderName)
    (h : ∀ slot view, loader = .view slot → session.views slot = some view →
      ¬kept view.canvas ∧ ¬kept view.overlay) :
    session.page.Change fresh refusing kept (session.settle name entry loader).page := by
  cases loader with
  | shared => exact change_settleShared session name entry
  | view slot => exact change_settleView session name entry fun view => h slot view rfl

-- No handler adds a listener, and only those of a map view draw.
theorem change_handle (event : Event) (listener : Listener)
    (h : ∀ slot view, listener.viewSlot? = some slot → session.views slot = some view →
      ¬kept view.canvas ∧ ¬kept view.overlay) :
    session.page.Change fresh refusing kept (session.handle event listener).page := by
  cases listener with
  | fill slot =>
    exact change_withOverlay session slot fun _ page => .foldl (fun _ _ _ => .setHtml _ _) page
  | follow slot =>
    exact change_withOverlay session slot fun _ page => .foldl (fun _ _ _ => .setScroll _ _) page
  | point slot =>
    cases event with
    | mouse x y =>
      exact change_hover session fun view hview => .hoverAt (h slot view rfl hview).2 _
    | _ => exact .refl _
  | leave slot =>
    exact change_hover session fun view hview => .hoverAt (h slot view rfl hview).2 none
  | arrive loader name image =>
    refine change_settle session name _ loader fun slot view hloader => h slot view ?_
    rw [hloader]
    rfl
  | fail loader name image =>
    refine change_settle session name _ loader fun slot view hloader => h slot view ?_
    rw [hloader]
    rfl
  | opened socket => exact .report _
  | received socket => exact .receive event
  | closed socket => exact .reportClosed socket event
  | broken socket => exact .report _
  | upload socket input => exact .clickUpload socket input

theorem map_views_hover {f : View → α} {slot : Nat} {change : View → Page → View × Page}
    (h : ∀ view page, f (change view page).1 = f view) (other : Nat) :
    ((session.hover slot change).views other).map f = (session.views other).map f := by
  unfold hover
  split
  · rfl
  · rename_i view hview
    exact map_setEntry_of_eq hview (h view session.page) other

theorem map_views_settle {f : View → α} (hf : View.IsLasting f) (name : String) (entry : Entry Nat)
    (loader : LoaderName) (other : Nat) :
    ((session.settle name entry loader).views other).map f = (session.views other).map f := by
  cases loader with
  | shared => simp only [settle, settleShared]; split <;> rfl
  | view slot =>
    simp only [settle, settleView]
    split
    · rfl
    · rename_i view hview
      exact map_setEntry_of_eq hview (hf view view.hover _) other

theorem map_views_handle {f : View → α} (hf : View.IsLasting f) (event : Event)
    (listener : Listener) (other : Nat) :
    ((session.handle event listener).views other).map f = (session.views other).map f := by
  cases listener with
  | fill slot => simp only [handle, withOverlay]; split <;> rfl
  | follow slot => simp only [handle, withOverlay]; split <;> rfl
  | point slot =>
    cases event with
    | mouse x y => exact map_views_hover session (fun view _ => hf view _ view.loader) other
    | _ => rfl
  | leave slot => exact map_views_hover session (fun view _ => hf view none view.loader) other
  | arrive loader name image => exact map_views_settle session hf name _ loader other
  | fail loader name image => exact map_views_settle session hf name _ loader other
  | _ => rfl

theorem canvases_handle (event : Event) (listener : Listener) (other : Nat) :
    ((session.handle event listener).views other).map View.canvases =
      (session.views other).map View.canvases :=
  map_views_handle session (fun _ _ _ => rfl) event listener other

theorem views_hover_of_ne {slot other : Nat} (h : other ≠ slot)
    (change : View → Page → View × Page) :
    (session.hover slot change).views other = session.views other := by
  unfold hover
  split
  · rfl
  · simp [setView, setEntry, h]

theorem views_settle_of_ne {other : Nat} {loader : LoaderName} (h : loader ≠ .view other)
    (name : String) (entry : Entry Nat) :
    (session.settle name entry loader).views other = session.views other := by
  cases loader with
  | shared => simp only [settle, settleShared]; split <;> rfl
  | view slot =>
    have hslot : other ≠ slot := by intro heq; exact h (heq ▸ rfl)
    simp only [settle, settleView]
    split
    · rfl
    · simp [setView, setEntry, hslot]

theorem views_handle_of_ne (event : Event) {listener : Listener} {other : Nat}
    (h : listener.viewSlot? ≠ some other) :
    (session.handle event listener).views other = session.views other := by
  cases listener with
  | fill slot => simp only [handle, withOverlay]; split <;> rfl
  | follow slot => simp only [handle, withOverlay]; split <;> rfl
  | point slot =>
    have hslot : other ≠ slot := by intro heq; exact h (heq ▸ rfl)
    cases event with
    | mouse x y => exact views_hover_of_ne session hslot _
    | _ => rfl
  | leave slot =>
    have hslot : other ≠ slot := by intro heq; exact h (heq ▸ rfl)
    exact views_hover_of_ne session hslot _
  | arrive loader name image =>
    have hloader : loader ≠ .view other := by intro heq; exact h (heq ▸ rfl)
    exact views_settle_of_ne session hloader name _
  | fail loader name image =>
    have hloader : loader ≠ .view other := by intro heq; exact h (heq ▸ rfl)
    exact views_settle_of_ne session hloader name _
  | _ => rfl

section Fire

variable (target : Target) (event : Event) (listener : Listener)

-- The session in which a listener runs: one that runs only once is already off the page.
def readied : Session :=
  if listener.isOnce then session.changePage (·.unlisten target listener) else session

theorem fire_eq : session.fire target event listener =
    (session.readied target listener).handle event listener := rfl

@[simp] theorem views_readied : (session.readied target listener).views = session.views := by
  unfold readied
  split <;> rfl

theorem change_readied :
    session.page.Change fresh refusing kept (session.readied target listener).page := by
  unfold readied
  split
  · exact .unlisten _ _
  · exact .refl _

end Fire

end Session

end CodePanel
