import CodePanel.Proofs.Page.Change

namespace CodePanel

open Asset Overlay Map

namespace Page.Change

variable {fresh : Listener → Prop} {refusing kept : Nat → Prop} {page after : Page}

section Overlay

theorem setHtml (n : Nat) (html : String) :
    page.Change fresh refusing kept (Host.setHtml n html page) :=
  modifyElement (fun _ _ h => .inl h) (fun _ _ => rfl)

theorem setScroll (n : Nat) (scroll : Scroll) :
    page.Change fresh refusing kept (Host.setScroll n scroll page) :=
  modifyElement (fun _ _ h => .inl h) (fun _ _ => rfl)

theorem setPadding (n : Nat) (padding : Padding) :
    page.Change fresh refusing kept (Host.setPadding n padding page) := by
  change page.Change fresh refusing kept (page.setPadding n padding)
  unfold Page.setPadding
  split
  · exact refl page
  · split
    · exact (report _).trans (report _)
    · exact modifyElement (fun _ _ h => .inl h) (fun _ _ => rfl)

theorem insetAll (inset : Float) (backdrops : List Nat) (page : Page) :
    page.Change fresh refusing kept (insetAll inset backdrops page).2 := by
  induction backdrops generalizing page with
  | nil => exact refl page
  | cons backdrop rest ih => exact (setPadding _ _).trans (ih _)

theorem mountBackdrops (backdrops : List Nat) (adjustment : Fit.Adjustment)
    (options : Markup.Options) :
    page.Change fresh refusing kept (Mounted.mount backdrops adjustment options page).2 := by
  simp only [Mounted.mount]
  split
  · exact insetAll _ _ page
  · exact refl page

theorem refreshOverlay (mount : PageOverlay) :
    page.Change fresh refusing kept (mount.refresh page) :=
  (foldl (fun _ _ _ => setHtml _ _) page).trans (foldl (fun _ _ _ => setScroll _ _) _)

theorem unmountOverlay (slot : Nat) (mount : PageOverlay) :
    page.Change fresh refusing kept (mount.unmount slot page) :=
  (silence _).trans (foldl (fun _ _ _ => setPadding _ _) _)

theorem mountOverlay {slot : Nat} {settings : Overlay.Settings} {mount : PageOverlay}
    (hfill : fresh (.fill slot)) (hfollow : fresh (.follow slot))
    (h : PageOverlay.mount slot settings page = .ok (mount, after)) :
    page.Change fresh refusing kept after := by
  unfold PageOverlay.mount at h
  split at h
  · cases h
  · rename_i input backdrops _
    cases h
    have hmount : page.Change fresh refusing kept _ :=
      mountBackdrops backdrops (settings.adjust page.adjustment) settings.options
    exact ((hmount.trans (refreshOverlay _)).trans (listen hfill _)).trans (listen hfollow _)

end Overlay

section Socket

theorem upload (socket : Nat) (text : String) :
    page.Change fresh refusing kept (page.upload socket text).2 := by
  unfold Page.upload
  simp only
  split
  · exact refl page
  · split
    · exact refl page
    · exact modifySocket (fun _ _ h => .inl h)

theorem clickUpload (socket input : Nat) :
    page.Change fresh refusing kept (page.clickUpload socket input) := by
  have hupload : page.Change fresh refusing kept (page.upload socket (page.valueOf input)).2 :=
    upload socket _
  unfold Page.clickUpload
  split
  · rename_i heq
    rwa [heq] at hupload
  · rename_i heq
    rw [heq] at hupload
    exact hupload.trans (report _)

theorem receive (event : Event) : page.Change fresh refusing kept (page.receive event) := by
  unfold Page.receive
  split
  · split <;> exact report _
  · exact refl page

theorem reportClosed (socket : Nat) (event : Event) :
    page.Change fresh refusing kept (page.reportClosed socket event) := by
  unfold Page.reportClosed
  split <;> exact report _

theorem hangUp (socket : Nat) : page.Change fresh refusing kept (page.hangUp socket) := by
  unfold Page.hangUp
  refine trans ?_ (silence _)
  split
  · exact modifySocket (fun _ _ h => .inl h)
  · refine trans (modifySocket ?_) (report _)
    exact fun _ _ h => .inl h

theorem connect {url : String} {n : Nat}
    (hfresh : fresh (.opened n) ∧ fresh (.received n) ∧ fresh (.closed n) ∧ fresh (.broken n))
    (h : page.connect url = .ok (n, after)) : page.Change fresh refusing kept after := by
  unfold Page.connect at h
  split at h
  · cases h
  · cases h
    refine ⟨?_, fun _ image h => ⟨image, h, rfl, .inl⟩, fun _ _ => rfl, rfl, rfl⟩
    intro target listener hlistener
    cases target with
    | element m => exact .inl hlistener
    | image m => exact .inl hlistener
    | socket m =>
      refine (mem_of_mem_append_singleton hlistener).imp_right fun hnew => ?_
      simp only [List.mem_cons, List.not_mem_nil, or_false] at hnew
      rcases hnew with rfl | rfl | rfl | rfl
      · exact hfresh.1
      · exact hfresh.2.1
      · exact hfresh.2.2.1
      · exact hfresh.2.2.2

theorem bind {socket : Nat} {buttonId inputId : String}
    (hfresh : ∀ input, fresh (.upload socket input))
    (h : page.bind socket buttonId inputId = .ok after) :
    page.Change fresh refusing kept after := by
  unfold Page.bind at h
  repeat' split at h
  all_goals cases h
  exact listen (hfresh _) _

end Socket

end Page.Change

end CodePanel
