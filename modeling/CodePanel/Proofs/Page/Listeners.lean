import CodePanel.Proofs.Page.Loading

namespace CodePanel

open Asset Map Overlay

theorem listeners_modify {change : β → β} {listeners : β → List α}
    (h : ∀ b, listeners (change b) = listeners b) (list : List β) (n m : Nat) :
    ((list.modify n change)[m]?.map listeners).getD [] = (list[m]?.map listeners).getD [] := by
  rw [List.getElem?_modify]
  cases list[m]? with
  | none => rfl
  | some b =>
    by_cases hn : n = m
    · simp [hn, h]
    · simp [hn]

namespace Page

variable {page : Page}

theorem listeners_foldl {f : Page → β → Page}
    (h : ∀ (page : Page) b, (f page b).listeners = page.listeners) (list : List β) (page : Page) :
    (list.foldl f page).listeners = page.listeners := by
  induction list generalizing page with
  | nil => rfl
  | cons b rest ih => rw [List.foldl_cons, ih, h]

theorem listeners_setLog (log : List LogEntry) :
    ({ page with log } : Page).listeners = page.listeners := by
  funext target
  cases target <;> rfl

theorem listeners_report (entry : LogEntry) : (page.report entry).listeners = page.listeners :=
  listeners_setLog _

theorem listeners_setFaults (faults : Faults) :
    ({ page with faults } : Page).listeners = page.listeners := by
  funext target
  cases target <;> rfl

theorem listeners_modifyElement {change : Element → Element}
    (h : ∀ e, (change e).listeners = e.listeners) (n : Nat) :
    (page.modifyElement n change).listeners = page.listeners := by
  funext target
  cases target with
  | element m => exact listeners_modify h page.elements n m
  | image m => rfl
  | socket m => rfl

theorem listeners_modifyImage {change : Image → Image}
    (h : ∀ image, (change image).listeners = image.listeners) (n : Nat) :
    (page.modifyImage n change).listeners = page.listeners := by
  funext target
  cases target with
  | element m => rfl
  | image m => exact listeners_modify h page.images n m
  | socket m => rfl

theorem listeners_modifySocket {change : Socket → Socket}
    (h : ∀ socket, (change socket).listeners = socket.listeners) (n : Nat) :
    (page.modifySocket n change).listeners = page.listeners := by
  funext target
  cases target with
  | element m => rfl
  | image m => rfl
  | socket m => exact listeners_modify h page.sockets n m

section Backdrops

theorem listeners_setHtml (n : Nat) (html : String) :
    (Host.setHtml n html page).listeners = page.listeners := by
  apply listeners_modifyElement
  exact fun _ => rfl

theorem listeners_setScroll (n : Nat) (scroll : Scroll) :
    (Host.setScroll n scroll page).listeners = page.listeners := by
  apply listeners_modifyElement
  exact fun _ => rfl

theorem listeners_setPadding (n : Nat) (padding : Padding) :
    (Host.setPadding n padding page).listeners = page.listeners := by
  change (page.setPadding n padding).listeners = page.listeners
  unfold setPadding
  split
  · rfl
  · split
    · rw [listeners_report, listeners_report]
    · apply listeners_modifyElement
      exact fun _ => rfl

theorem listeners_fill (mount : PageOverlay) : (mount.fill page).listeners = page.listeners :=
  listeners_foldl (fun _ _ => listeners_setHtml _ _) _ page

theorem listeners_follow (mount : PageOverlay) : (mount.follow page).listeners = page.listeners :=
  listeners_foldl (fun _ _ => listeners_setScroll _ _) _ page

end Backdrops

section Canvases

theorem listeners_modifyDrawing (n : Nat) (change : Drawing → Drawing) :
    (page.modifyDrawing n change).listeners = page.listeners := by
  apply listeners_modifyElement
  exact fun _ => rfl

theorem listeners_draw (n : Nat) (sprite : Sprite Nat) :
    (page.draw n sprite).listeners = page.listeners := by
  simp only [draw]
  split
  · exact listeners_report _
  · exact listeners_modifyDrawing n _

theorem listeners_paint (n : Nat) (sprites : List (Sprite Nat)) :
    (page.paint n sprites).listeners = page.listeners :=
  (listeners_foldl (fun _ _ => listeners_draw n _) sprites _).trans (listeners_modifyDrawing n _)

theorem listeners_redraw (view : View) : (view.redraw page).listeners = page.listeners :=
  (listeners_paint _ _).trans (listeners_paint _ _)

theorem listeners_hoverAt (view : View) (cell : Option Cell) :
    (view.hoverAt page cell).2.listeners = page.listeners := by
  simp only [View.hoverAt]
  split
  · rfl
  · exact listeners_paint _ _

theorem listeners_settleLoader (loader : Loader κ) (name : String) (entry : Entry Nat) :
    (loader.settle page name entry).2.2.listeners = page.listeners := by
  simp only [Loader.settle]
  split
  · split
    · rfl
    · exact listeners_report _
  · rfl

theorem listeners_settleView (view : View) (name : String) (entry : Entry Nat) :
    (view.settle page name entry).2.listeners = page.listeners :=
  (listeners_foldl (fun _ _ => listeners_redraw _) _ _).trans (listeners_settleLoader _ name entry)

end Canvases

section Sockets

theorem listeners_upload (socket : Nat) (text : String) :
    (page.upload socket text).2.listeners = page.listeners := by
  simp only [upload]
  split
  · rfl
  · split
    · rfl
    · apply listeners_modifySocket
      exact fun _ => rfl

theorem listeners_clickUpload (socket input : Nat) :
    (page.clickUpload socket input).listeners = page.listeners := by
  have hupload := page.listeners_upload socket (page.valueOf input)
  unfold clickUpload
  split
  · rename_i heq
    rwa [heq] at hupload
  · rename_i heq
    rw [heq] at hupload
    rw [listeners_report, hupload]

theorem listeners_receive (event : Event) : (page.receive event).listeners = page.listeners := by
  unfold receive
  split
  · split <;> exact listeners_report _
  · rfl

theorem listeners_reportClosed (socket : Nat) (event : Event) :
    (page.reportClosed socket event).listeners = page.listeners := by
  unfold reportClosed
  split <;> exact listeners_report _

end Sockets

section Registration

theorem listeners_silence (isOf : Listener → Bool) (target : Target) :
    (page.silence isOf).listeners target = (page.listeners target).filter (!isOf ·) := by
  cases target with
  | element n =>
    simp only [listeners, silence, List.getElem?_map]
    cases page.elements[n]? <;> rfl
  | image n =>
    simp only [listeners, silence, List.getElem?_map]
    cases page.images[n]? <;> rfl
  | socket n =>
    simp only [listeners, silence, List.getElem?_map]
    cases page.sockets[n]? <;> rfl

theorem listeners_unlisten_self (target : Target) (listener : Listener) :
    (page.unlisten target listener).listeners target = (page.listeners target).erase listener := by
  cases target with
  | element n =>
    simp only [listeners, unlisten, modifyListeners, modifyElement, List.getElem?_modify]
    cases page.elements[n]? <;> simp
  | image n =>
    simp only [listeners, unlisten, modifyListeners, modifyImage, List.getElem?_modify]
    cases page.images[n]? <;> simp
  | socket n =>
    simp only [listeners, unlisten, modifyListeners, modifySocket, List.getElem?_modify]
    cases page.sockets[n]? <;> simp

theorem listeners_modifyListeners_of_ne {target other : Target} (h : target ≠ other)
    (change : List Listener → List Listener) :
    (page.modifyListeners change target).listeners other = page.listeners other := by
  cases target with
  | element n =>
    cases other with
    | element m =>
      have hne : n ≠ m := fun heq => h (heq ▸ rfl)
      simp [listeners, modifyListeners, modifyElement, hne]
    | _ => rfl
  | image n =>
    cases other with
    | image m =>
      have hne : n ≠ m := fun heq => h (heq ▸ rfl)
      simp [listeners, modifyListeners, modifyImage, hne]
    | _ => rfl
  | socket n =>
    cases other with
    | socket m =>
      have hne : n ≠ m := fun heq => h (heq ▸ rfl)
      simp [listeners, modifyListeners, modifySocket, hne]
    | _ => rfl

theorem mem_listeners_unlisten {target other : Target} {gone listener : Listener}
    (h : listener ∈ page.listeners other) (hne : listener ≠ gone) :
    listener ∈ (page.unlisten target gone).listeners other := by
  by_cases htarget : target = other
  · rw [htarget, listeners_unlisten_self]
    exact (List.mem_erase_of_ne hne).2 h
  · rwa [unlisten, listeners_modifyListeners_of_ne htarget]

end Registration

end Page

end CodePanel
