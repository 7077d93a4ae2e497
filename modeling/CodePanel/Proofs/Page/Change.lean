import CodePanel.Page.Connection
import CodePanel.Page.Mount
import CodePanel.Page.View

namespace CodePanel

open Overlay Map

def Page.drawingOf? (page : Page) (n : Nat) : Option Drawing :=
  page.elements[n]?.map Element.drawing

-- How far a page may change: which listeners may be new on it, which images may begin to throw,
-- and which elements have to keep their drawings. No image goes away or takes another address.
structure Page.Change (fresh : Listener → Prop) (refusing kept : Nat → Prop)
    (before after : Page) : Prop where
  listeners : ∀ target, ∀ listener ∈ after.listeners target,
    listener ∈ before.listeners target ∨ fresh listener
  images : ∀ n image, before.images[n]? = some image →
    ∃ later, after.images[n]? = some later ∧ later.src = image.src ∧
      (later.throws.isSome → image.throws.isSome ∨ refusing n)
  drawings : ∀ n, kept n → after.drawingOf? n = before.drawingOf? n
  elements : after.elements.length = before.elements.length
  faults : after.faults.image = before.faults.image

-- Listeners of one thing in a list of things, one of which is modified.
theorem mem_of_mem_modify {change : β → β} {listeners : β → List α} {list : List β} {n m : Nat}
    {a : α} {p : Prop} (hchange : ∀ b, a ∈ listeners (change b) → a ∈ listeners b ∨ p)
    (h : a ∈ ((list.modify n change)[m]?.map listeners).getD []) :
    a ∈ (list[m]?.map listeners).getD [] ∨ p := by
  rw [List.getElem?_modify] at h
  generalize list[m]? = b at h ⊢
  cases b with
  | none => simp at h
  | some b =>
    by_cases hn : n = m
    · simp only [hn, if_true] at h
      exact hchange b h
    · simp only [hn, if_false] at h
      exact .inl h

theorem mem_of_mem_append_singleton {listeners : β → List α} {list : List β} {b : β} {m : Nat}
    {a : α} (h : a ∈ ((list ++ [b])[m]?.map listeners).getD []) :
    a ∈ (list[m]?.map listeners).getD [] ∨ a ∈ listeners b := by
  rw [List.getElem?_append] at h
  by_cases hm : m < list.length
  · rw [if_pos hm] at h
    exact .inl h
  · rw [if_neg hm] at h
    right
    generalize m - list.length = k at h
    cases k <;> simp_all

theorem mem_listeners_silence {page : Page} {isOf : Listener → Bool} {target : Target}
    {listener : Listener} :
    listener ∈ (page.silence isOf).listeners target ↔
      listener ∈ page.listeners target ∧ isOf listener = false := by
  cases target with
  | element n =>
    simp only [Page.listeners, Page.silence, List.getElem?_map]
    cases page.elements[n]? <;> simp
  | image n =>
    simp only [Page.listeners, Page.silence, List.getElem?_map]
    cases page.images[n]? <;> simp
  | socket n =>
    simp only [Page.listeners, Page.silence, List.getElem?_map]
    cases page.sockets[n]? <;> simp

namespace Page.Change

variable {fresh : Listener → Prop} {refusing kept : Nat → Prop} {page before after : Page}

theorem refl (page : Page) : page.Change fresh refusing kept page where
  listeners _ _ h := .inl h
  images _ image h := ⟨image, h, rfl, .inl⟩
  drawings _ _ := rfl
  elements := rfl
  faults := rfl

theorem trans {middle : Page} (first : before.Change fresh refusing kept middle)
    (second : middle.Change fresh refusing kept after) :
    before.Change fresh refusing kept after where
  listeners target listener h := by
    rcases second.listeners target listener h with hmiddle | hfresh
    · exact first.listeners target listener hmiddle
    · exact .inr hfresh
  images n image h := by
    obtain ⟨middle, hmiddle, hsrc, hthrows⟩ := first.images n image h
    obtain ⟨later, hlater, hsrc', hthrows'⟩ := second.images n middle hmiddle
    refine ⟨later, hlater, hsrc'.trans hsrc, ?_⟩
    intro hthrow
    rcases hthrows' hthrow with hmiddle | hrefusing
    · exact hthrows hmiddle
    · exact .inr hrefusing
  drawings n h := (second.drawings n h).trans (first.drawings n h)
  elements := second.elements.trans first.elements
  faults := second.faults.trans first.faults

theorem foldl {β : Type} {f : Page → β → Page} {list : List β}
    (h : ∀ (page : Page), ∀ b ∈ list, page.Change fresh refusing kept (f page b)) (page : Page) :
    page.Change fresh refusing kept (list.foldl f page) := by
  induction list generalizing page with
  | nil => exact refl page
  | cons b rest ih =>
    have hrest := ih (fun page c hc => h page c (List.mem_cons_of_mem _ hc)) (f page b)
    exact (h page b List.mem_cons_self).trans hrest

theorem setLog (log : List LogEntry) : page.Change fresh refusing kept { page with log } where
  listeners target _ h := by cases target <;> exact .inl h
  images _ image h := ⟨image, h, rfl, .inl⟩
  drawings _ _ := rfl
  elements := rfl
  faults := rfl

theorem report (entry : LogEntry) : page.Change fresh refusing kept (page.report entry) :=
  setLog _

theorem modifyElement {change : Element → Element} {n : Nat}
    (hlisteners : ∀ e, ∀ listener ∈ (change e).listeners, listener ∈ e.listeners ∨ fresh listener)
    (hdrawing : kept n → ∀ e, (change e).drawing = e.drawing) :
    page.Change fresh refusing kept (page.modifyElement n change) where
  listeners target listener h := by
    cases target with
    | element m => exact mem_of_mem_modify (fun e => hlisteners e listener) h
    | image m => exact .inl h
    | socket m => exact .inl h
  images _ image h := ⟨image, h, rfl, .inl⟩
  drawings m hm := by
    simp only [Page.drawingOf?, Page.modifyElement, List.getElem?_modify]
    by_cases hn : n = m
    · subst hn
      cases page.elements[n]? <;> simp [hdrawing hm]
    · simp [hn]
  elements := List.length_modify ..
  faults := rfl

theorem modifyImage {change : Image → Image} {n : Nat}
    (hsrc : ∀ image, (change image).src = image.src)
    (hthrows : ∀ image, (change image).throws.isSome → image.throws.isSome ∨ refusing n)
    (hlisteners : ∀ image, ∀ listener ∈ (change image).listeners,
      listener ∈ image.listeners ∨ fresh listener) :
    page.Change fresh refusing kept (page.modifyImage n change) where
  listeners target listener h := by
    cases target with
    | element m => exact .inl h
    | image m => exact mem_of_mem_modify (fun image => hlisteners image listener) h
    | socket m => exact .inl h
  images m image h := by
    simp only [Page.modifyImage, List.getElem?_modify, h]
    by_cases hn : n = m
    · subst hn
      exact ⟨change image, by simp, hsrc image, hthrows image⟩
    · exact ⟨image, by simp [hn], rfl, .inl⟩
  drawings _ _ := rfl
  elements := rfl
  faults := rfl

theorem modifySocket {change : Socket → Socket} {n : Nat}
    (hlisteners : ∀ socket, ∀ listener ∈ (change socket).listeners,
      listener ∈ socket.listeners ∨ fresh listener) :
    page.Change fresh refusing kept (page.modifySocket n change) where
  listeners target listener h := by
    cases target with
    | element m => exact .inl h
    | image m => exact .inl h
    | socket m => exact mem_of_mem_modify (fun socket => hlisteners socket listener) h
  images _ image h := ⟨image, h, rfl, .inl⟩
  drawings _ _ := rfl
  elements := rfl
  faults := rfl

theorem modifyListeners {change : List Listener → List Listener} {target : Target}
    (h : ∀ listeners, ∀ listener ∈ change listeners, listener ∈ listeners ∨ fresh listener) :
    page.Change fresh refusing kept (page.modifyListeners change target) := by
  cases target with
  | element n => exact modifyElement (fun e => h e.listeners) (fun _ _ => rfl)
  | image n => exact modifyImage (fun _ => rfl) (fun _ => .inl) (fun image => h image.listeners)
  | socket n => exact modifySocket (fun socket => h socket.listeners)

theorem listen {listener : Listener} (hfresh : fresh listener) (target : Target) :
    page.Change fresh refusing kept (page.listen target listener) := by
  refine modifyListeners fun listeners other hother => ?_
  rcases List.mem_append.1 hother with hold | hnew
  · exact .inl hold
  · exact .inr (List.mem_singleton.1 hnew ▸ hfresh)

theorem unlisten (target : Target) (listener : Listener) :
    page.Change fresh refusing kept (page.unlisten target listener) :=
  modifyListeners fun _ _ h => .inl (List.mem_of_mem_erase h)

theorem silence (isOf : Listener → Bool) :
    page.Change fresh refusing kept (page.silence isOf) where
  listeners target listener h := .inl (mem_listeners_silence.1 h).1
  images n image h := by
    refine ⟨{ image with listeners := image.listeners.filter (!isOf ·) }, ?_, rfl, .inl⟩
    simp [Page.silence, h]
  drawings n _ := by
    simp only [Page.drawingOf?, Page.silence, List.getElem?_map, Option.map_map]
    rfl
  elements := List.length_map ..
  faults := rfl

theorem addImage {image : Image} (hfresh : ∀ listener ∈ image.listeners, fresh listener)
    (h : page.addImage image = .ok after) : page.Change fresh refusing kept after := by
  unfold Page.addImage at h
  split at h
  · cases h
  · cases h
    refine ⟨?_, ?_, fun _ _ => rfl, rfl, rfl⟩
    · intro target listener hlistener
      cases target with
      | element m => exact .inl hlistener
      | image m => exact (mem_of_mem_append_singleton hlistener).imp_right (hfresh listener)
      | socket m => exact .inl hlistener
    · intro n old hold
      exact ⟨old, by simp [List.getElem?_append_left (List.getElem?_eq_some_iff.1 hold).1, hold],
        rfl, .inl⟩

end Page.Change

end CodePanel
