import CodePanel.Proofs.Session.Handling
import CodePanel.Proofs.View.Steps

namespace CodePanel

open Asset Map

def View.DrawsOn (view : View) (n : Nat) : Prop :=
  n = view.canvas ∨ n = view.overlay

-- The canvases of the map view in a slot are its own. Two views on one canvas would paint over
-- each other.
def Session.OwnsCanvases (session : Session) (slot : Nat) : Prop :=
  ∀ view, session.views slot = some view → ∀ other, other ≠ slot →
    ∀ neighbour, session.views other = some neighbour → ∀ n, view.DrawsOn n → ¬neighbour.DrawsOn n

-- The map view in a slot, and whether it is known to have a map.
structure Session.Follows (refusing : Nat → Prop) (slot : Nat) (hasMap : Prop)
    (session : Session) : Prop where
  mounted : ∃ view, session.views slot = some view ∧ view.Sound refusing slot session.page ∧
    (hasMap → view.InStep refusing session.page)
  owned : session.OwnsCanvases slot

namespace Session

variable {refusing : Nat → Prop} {slot : Nat} {hasMap : Prop} {session after : Session}

theorem OwnsCanvases.of_canvases (h : session.OwnsCanvases slot)
    (hcanvases : ∀ other, (after.views other).map View.canvases =
      (session.views other).map View.canvases) : after.OwnsCanvases slot := by
  have hold : ∀ other view, after.views other = some view → ∃ old, session.views other = some old ∧
      old.DrawsOn = view.DrawsOn := by
    intro other view hview
    have hmap := hcanvases other
    rw [hview] at hmap
    obtain ⟨old, hold, heq⟩ := Option.map_eq_some_iff.1 hmap.symm
    refine ⟨old, hold, ?_⟩
    unfold View.DrawsOn
    rw [(Prod.mk.inj heq).1, (Prod.mk.inj heq).2]
  intro view hview other hother neighbour hneighbour n hn
  obtain ⟨oldView, hview, hdraws⟩ := hold slot view hview
  obtain ⟨oldNeighbour, hneighbour, hdraws'⟩ := hold other neighbour hneighbour
  rw [← hdraws] at hn
  rw [← hdraws']
  exact h oldView hview other hother oldNeighbour hneighbour n hn

-- Something else on the page happens.
theorem Follows.aside (h : session.Follows refusing slot hasMap)
    (hview : after.views slot = session.views slot)
    (hcanvases : ∀ other, (after.views other).map View.canvases =
      (session.views other).map View.canvases)
    (hchange : ∀ view, session.views slot = some view →
      session.page.Change (fun _ => False) refusing view.DrawsOn after.page) :
    after.Follows refusing slot hasMap := by
  obtain ⟨view, hmounted, hsound, hstep⟩ := h.mounted
  have hpage := hchange view hmounted
  refine ⟨⟨view, hview.trans hmounted, hsound.of_change hpage nofun, ?_⟩,
    h.owned.of_canvases hcanvases⟩
  intro hmap
  exact (hstep hmap).of_change hpage (.inl rfl) (.inr rfl) hsound

-- The view itself moves on.
theorem Follows.own {view moved : View} {page : Page} {hasMap' : Prop}
    (h : session.Follows refusing slot hasMap) (hmounted : session.views slot = some view)
    (hcanvases : moved.canvases = view.canvases) (hsound : moved.Sound refusing slot page)
    (hstep : hasMap' → moved.InStep refusing page) :
    ({ session with page }.setView slot (some moved)).Follows refusing slot hasMap' := by
  refine ⟨⟨moved, ?_, hsound, hstep⟩, h.owned.of_canvases ?_⟩
  · simp [setView, setEntry]
  · exact map_setEntry_of_eq hmounted hcanvases

section Events

theorem Follows.hover (h : session.Follows refusing slot hasMap)
    {change : View → Page → View × Page}
    (hcanvases : ∀ view page, (change view page).1.canvases = view.canvases)
    (hsound : ∀ {view : View} {page}, view.Sound refusing slot page →
      (change view page).1.Sound refusing slot (change view page).2)
    (hstep : ∀ {view : View} {page}, view.Sound refusing slot page → view.InStep refusing page →
      (change view page).1.InStep refusing (change view page).2) :
    (session.hover slot change).Follows refusing slot hasMap := by
  obtain ⟨view, hmounted, hview, hmap⟩ := h.mounted
  simp only [Session.hover, hmounted]
  exact h.own hmounted (hcanvases view session.page) (hsound hview) fun h => hstep hview (hmap h)

theorem Follows.settleView (h : session.Follows refusing slot hasMap) (name : String)
    {entry : Entry Nat} (hloading : entry.isLoading = false)
    (hentry : ∀ n, entry = .loaded n → session.page.Usable refusing n) :
    (session.settleView slot name entry).Follows refusing slot hasMap := by
  obtain ⟨view, hmounted, hview, hmap⟩ := h.mounted
  simp only [Session.settleView, hmounted]
  exact h.own hmounted rfl (hview.settle name hentry) fun h =>
    (hmap h).settle name hentry hloading hview

theorem Follows.handle (h : session.Follows refusing slot hasMap) (event : Event)
    {listener : Listener} (hanswers : session.page.Answers refusing slot listener) :
    (session.handle event listener).Follows refusing slot hasMap := by
  by_cases hslot : listener.viewSlot? = some slot
  · cases listener with
    | point other =>
      cases hslot
      cases event with
      | mouse x y =>
        exact h.hover (fun _ _ => rfl) (·.hoverAt _) (fun hview hstep => hstep.hoverAt hview _)
      | _ => exact h
    | leave other =>
      cases hslot
      exact h.hover (fun _ _ => rfl) (·.hoverAt none) (fun hview hstep => hstep.hoverAt hview none)
    | arrive loader name n =>
      cases loader with
      | shared => cases hslot
      | view other =>
        cases hslot
        exact h.settleView name rfl fun m heq => Entry.loaded.inj heq ▸ hanswers name n rfl
    | fail loader name n =>
      cases loader with
      | shared => cases hslot
      | view other =>
        cases hslot
        exact h.settleView name rfl nofun
    | _ => cases hslot
  · refine h.aside (views_handle_of_ne session event hslot)
      (canvases_handle session event listener) ?_
    intro view hmounted
    refine change_handle session event listener fun other neighbour hother hneighbour => ?_
    have hne : other ≠ slot := by intro heq; exact hslot (heq ▸ hother)
    have hapart := h.owned view hmounted other hne neighbour hneighbour
    exact ⟨fun hdraws => hapart _ hdraws (.inl rfl), fun hdraws => hapart _ hdraws (.inr rfl)⟩

theorem Follows.fire (h : session.Follows refusing slot hasMap) (target : Target) (event : Event)
    {listener : Listener} (hanswers : session.page.Answers refusing slot listener) :
    (session.fire target event listener).Follows refusing slot hasMap := by
  have hreadied : (session.readied target listener).Follows refusing slot hasMap := by
    refine h.aside ?_ ?_ fun view _ => change_readied session target listener
    · rw [views_readied]
    · rw [views_readied]
      exact fun _ => rfl
  have hchange : session.page.Change (fun _ => False) refusing (fun _ => False)
      (session.readied target listener).page := change_readied session target listener
  rw [fire_eq]
  exact hreadied.handle event fun name n heq => (hanswers name n heq).of_change hchange

theorem Follows.answers (h : session.Follows refusing slot hasMap) {target : Target}
    {listener : Listener} (hlistener : listener ∈ session.page.listeners target) :
    session.page.Answers refusing slot listener := by
  obtain ⟨view, _, hsound, _⟩ := h.mounted
  exact hsound.heard target listener hlistener

theorem Follows.dispatch (h : session.Follows refusing slot hasMap) (target : Target)
    (type : String) (event : Event) :
    (session.dispatch target type event).Follows refusing slot hasMap := by
  have hanswers : ∀ listener ∈ (session.page.listeners target).filter (·.event == type),
      session.page.Answers refusing slot listener :=
    fun listener hlistener => h.answers (List.mem_filter.1 hlistener).1
  unfold Session.dispatch
  revert hanswers
  generalize List.filter _ _ = listeners
  intro hanswers
  -- The listeners were picked before the first of them ran, and what they wait for stays usable.
  induction listeners generalizing session with
  | nil => exact h
  | cons listener rest ih =>
    have hchange : session.page.Change (fun _ => False) refusing (fun _ => False)
        (session.fire target event listener).page :=
      (change_readied session target listener).trans
        (change_handle _ event listener fun _ _ _ _ => ⟨id, id⟩)
    refine ih (h.fire target event (hanswers listener List.mem_cons_self)) fun other hother => ?_
    intro name n heq
    exact (hanswers other (List.mem_cons_of_mem _ hother) name n heq).of_change hchange

end Events

end Session

end CodePanel
