import CodePanel.Proofs.Session.Handling
import CodePanel.Session.Step

namespace CodePanel

open Asset Map Overlay

-- A listener of a map view's loader has a view to work for.
def Session.Expects (session : Session) (listener : Listener) : Prop :=
  ∀ slot, listener.ofLoader (.view slot) → (session.views slot).isSome

def Session.Tended (session : Session) : Prop :=
  ∀ target, ∀ listener ∈ session.page.listeners target, session.Expects listener

namespace Session

variable {session before after : Session}

theorem Tended.of_change (h : before.Tended)
    (hviews : ∀ slot, (before.views slot).isSome → (after.views slot).isSome)
    (hchange : before.page.Change after.Expects (fun _ => True) (fun _ => False) after.page) :
    after.Tended := by
  intro target listener hlistener
  rcases hchange.listeners target listener hlistener with hold | hnew
  · exact fun slot hslot => hviews slot (h target listener hold slot hslot)
  · exact hnew

theorem Tended.changePage (h : session.Tended) {change : Page → Page}
    (hchange : session.page.Change session.Expects (fun _ => True) (fun _ => False)
      (change session.page)) : (session.changePage change).Tended :=
  h.of_change (fun _ hslot => hslot) hchange

-- A change that leaves all map views alone.
structure Aside (before after : Session) : Prop where
  views : after.views = before.views
  page : before.page.Change after.Expects (fun _ => True) (fun _ => False) after.page

theorem Aside.tended (h : Aside before after) (hbefore : before.Tended) : after.Tended :=
  hbefore.of_change (fun slot hslot => by rwa [h.views]) h.page

theorem Aside.trans {middle : Session} (first : Aside before middle) (second : Aside middle after) :
    Aside before after where
  views := second.views.trans first.views
  page := by
    have hexpects : middle.Expects = after.Expects := by
      unfold Expects
      rw [second.views]
    exact (hexpects ▸ first.page).trans second.page

section Sockets

variable (session : Session)

theorem aside_release (socket : Nat) : Aside session (session.release socket) := by
  unfold release
  split
  · exact ⟨rfl, .refl _⟩
  · exact ⟨rfl, .hangUp socket⟩

theorem aside_dropButtons (socket : Nat) : Aside session (session.dropButtons socket) := by
  unfold dropButtons
  split
  · exact ⟨rfl, .refl _⟩
  · exact ⟨rfl, .silence _⟩

theorem aside_clearConnection (slot : Nat) : Aside session (session.clearConnection slot) := by
  unfold clearConnection
  split
  · exact ⟨rfl, .refl _⟩
  · refine Aside.trans ?_ (aside_release _ _)
    refine Aside.trans ?_ (aside_dropButtons _ _)
    exact ⟨rfl, .refl _⟩

theorem aside_releaseBindings (bindings : List Nat) :
    Aside session (session.releaseBindings bindings) := by
  induction bindings generalizing session with
  | nil => exact ⟨rfl, .refl _⟩
  | cons socket rest ih =>
    refine Aside.trans ?_ (ih _)
    refine Aside.trans ?_ (aside_release _ _)
    exact ⟨rfl, .refl _⟩

theorem aside_unbind : Aside session session.unbind := by
  unfold unbind
  split
  · refine Aside.trans ?_ (aside_releaseBindings _ _)
    exact ⟨rfl, .silence _⟩
  · exact ⟨rfl, .refl _⟩

theorem aside_connect (slot : Nat) (url : String) : Aside session (session.connect slot url).2 := by
  unfold connect
  refine (aside_clearConnection session slot).trans ?_
  simp only
  split
  · exact ⟨rfl, .refl _⟩
  · rename_i socket page hconnect
    exact ⟨rfl, .connect ⟨nofun, nofun, nofun, nofun⟩ hconnect⟩

theorem aside_send (slot : Nat) (text : String) : Aside session (session.send slot text).2 := by
  unfold send
  split
  · exact ⟨rfl, .refl _⟩
  · rename_i socket _
    have hupload : session.page.Change session.Expects (fun _ => True) (fun _ => False)
      (session.page.upload socket text).2 := .upload socket text
    split
    · rename_i heq
      rw [heq] at hupload
      exact ⟨rfl, hupload⟩
    · rename_i heq
      rw [heq] at hupload
      exact ⟨rfl, hupload⟩

theorem aside_bind (slot : Nat) (buttonId inputId : String) :
    Aside session (session.bind slot buttonId inputId).2 := by
  unfold bind
  split
  · exact ⟨rfl, .refl _⟩
  · split
    · exact ⟨rfl, .refl _⟩
    · rename_i page hbind
      exact ⟨rfl, .bind (fun _ => nofun) hbind⟩

end Sockets

section Overlays

variable (session : Session)

theorem aside_clearOverlay (slot : Nat) (rest : Option OverlayHandle) :
    Aside session (session.clearOverlay slot rest) := by
  unfold clearOverlay
  split
  · exact ⟨rfl, .unmountOverlay slot _⟩
  · exact ⟨rfl, .refl _⟩

theorem aside_mount (slot : Nat) (settings : Option Overlay.Settings) :
    Aside session (session.mount slot settings).2 := by
  unfold mount
  refine (aside_clearOverlay session slot none).trans ?_
  simp only
  split
  · exact ⟨rfl, .refl _⟩
  · split
    · exact ⟨rfl, .refl _⟩
    · rename_i hmount
      exact ⟨rfl, .mountOverlay nofun nofun hmount⟩

theorem aside_refresh (slot : Nat) : Aside session (session.refresh slot).2 := by
  unfold refresh withOverlay
  split
  · exact ⟨rfl, .refl _⟩
  · split
    · exact ⟨rfl, .refreshOverlay _⟩
    · exact ⟨rfl, .refl _⟩

theorem aside_unmount (slot : Nat) : Aside session (session.unmount slot).2 := by
  unfold unmount
  split
  · exact ⟨rfl, .refl _⟩
  · exact aside_clearOverlay session slot _
  · exact aside_clearOverlay session slot _

end Overlays

section Surfaces

variable (session : Session)

theorem aside_touch (id : String) {change : Element → Element}
    (h : ∀ e, (change e).listeners = e.listeners) : Aside session (session.touch id change).2 := by
  unfold touch
  split
  · exact ⟨rfl, .refl _⟩
  · exact ⟨rfl, .modifyElement (fun e _ hlistener => .inl (h e ▸ hlistener)) nofun⟩

theorem aside_inspect {lookup : Page → Except Error Nat} {change : Nat → Page → Page}
    {reply : Nat → Page → SessionReply}
    (h : ∀ n (page : Page),
      page.Change session.Expects (fun _ => True) (fun _ => False) (change n page)) :
    Aside session (session.inspect lookup change reply).2 := by
  unfold inspect
  split
  · exact ⟨rfl, .refl _⟩
  · split
    · exact ⟨rfl, .refl _⟩
    · exact ⟨rfl, h _ _⟩

theorem change_whenGiven {fresh : Listener → Prop} {refusing kept : Nat → Prop} {value : Option α}
    {change : α → Page → Page} {page : Page}
    (h : ∀ a, page.Change fresh refusing kept (change a page)) :
    page.Change fresh refusing kept (whenGiven value change page) := by
  cases value with
  | none => exact .refl page
  | some a => exact h a

theorem aside_load (names : List String) : Aside session (session.load names).2 := by
  unfold load
  split
  · exact ⟨rfl, .refl _⟩
  · rename_i loader _
    have hload : session.page.Change session.Expects (fun _ => True) (fun _ => False)
        (loader.load .shared session.page names).2.2 :=
      .load _ _ _ _ fun _ _ _ _ _ => ⟨nofun, nofun⟩
    split
    · rename_i heq
      rw [heq] at hload
      exact ⟨rfl, hload⟩
    · rename_i heq
      rw [heq] at hload
      exact ⟨rfl, hload⟩

theorem aside_onReady (name : String) : Aside session (session.onReady name).2 := by
  unfold onReady
  split <;> exact ⟨rfl, .refl _⟩

end Surfaces

end Session

end CodePanel
