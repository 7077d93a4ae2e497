import CodePanel.Proofs.Asset.Entries
import CodePanel.Proofs.Page.Operations

namespace CodePanel

open Asset Map

theorem getElem?_of_isPrefix {list longer : List α} (h : list <+: longer) {n : Nat} {a : α}
    (hn : list[n]? = some a) : longer[n]? = some a := by
  obtain ⟨rest, rfl⟩ := h
  rw [List.getElem?_append_left (List.getElem?_eq_some_iff.1 hn).1, hn]

section Start

variable (self : LoaderName)

theorem images_addImage {page after : Page} {image : Image} (h : page.addImage image = .ok after) :
    after.images = page.images ++ [image] := by
  unfold Page.addImage at h
  split at h
  · cases h
  · cases h
    rfl

theorem addImage_ok {page : Page} (h : page.faults.image = none) (image : Image) :
    page.addImage image = .ok { page with images := page.images ++ [image] } := by
  unfold Page.addImage
  rw [h]

theorem images_prefix_start (loader : Loader κ) (page : Page) (names : List String) :
    page.images <+: (Loader.start self loader page names).2.2.images := by
  induction names generalizing loader page with
  | nil => exact List.prefix_rfl
  | cons name rest ih =>
    unfold Loader.start
    simp only
    split
    · exact List.prefix_rfl
    · rename_i later hlater
      refine List.IsPrefix.trans ?_ (ih _ later)
      rw [images_addImage hlater]
      exact List.prefix_append _ _

@[simp] theorem cache_start (loader : Loader κ) (page : Page) (names : List String) :
    (Loader.start self loader page names).2.1.cache = loader.cache := by
  induction names generalizing loader page with
  | nil => rfl
  | cons name rest ih =>
    unfold Loader.start
    simp only
    split
    · rfl
    · rw [ih]

theorem start_ok (loader : Loader κ) (page : Page) (names : List String)
    (h : page.faults.image = none) : (Loader.start self loader page names).1 = .ok () := by
  induction names generalizing loader page with
  | nil => rfl
  | cons name rest ih =>
    unfold Loader.start
    simp only [addImage_ok h]
    exact ih _ _ h

end Start

namespace Page.Change

variable {fresh : Listener → Prop} {refusing kept : Nat → Prop} {page : Page}

-- New listeners wait for images that the page has in the end and that do not throw.
theorem start (self : LoaderName) (loader : Loader κ) (page : Page) (names : List String)
    (hfresh : ∀ name n image, (Loader.start self loader page names).2.2.images[n]? = some image →
      image.throws = none → fresh (.arrive self name n) ∧ fresh (.fail self name n)) :
    page.Change fresh refusing kept (Loader.start self loader page names).2.2 := by
  induction names generalizing loader page with
  | nil => exact refl page
  | cons name rest ih =>
    unfold Loader.start at hfresh ⊢
    simp only at hfresh ⊢
    split
    · exact refl page
    · rename_i later hlater
      simp only [hlater] at hfresh
      refine trans (addImage ?_ hlater) (ih _ later hfresh)
      obtain ⟨image, himage, hthrows⟩ : ∃ image, later.images[page.images.length]? = some image ∧
          image.throws = none := by
        simp [images_addImage hlater]
      obtain ⟨harrive, hfail⟩ := hfresh name _ image
        (getElem?_of_isPrefix (images_prefix_start self _ later rest) himage) hthrows
      intro listener hlistener
      simp only [List.mem_cons, List.not_mem_nil, or_false] at hlistener
      rcases hlistener with rfl | rfl
      · exact harrive
      · exact hfail

theorem prune (self : LoaderName) (loader : Loader κ) :
    page.Change fresh refusing kept (loader.prune self page).2 :=
  foldl (fun _ _ _ => (unlisten _ _).trans (unlisten _ _)) page

theorem load (self : LoaderName) (loader : Loader κ) (page : Page) (names : List String)
    (hfresh : ∀ name n image, (loader.load self page names).2.2.images[n]? = some image →
      image.throws = none → fresh (.arrive self name n) ∧ fresh (.fail self name n)) :
    page.Change fresh refusing kept (loader.load self page names).2.2 :=
  (prune self loader).trans (start self _ _ _ hfresh)

theorem settleLoader (loader : Loader κ) (name : String) (entry : Entry Nat) :
    page.Change fresh refusing kept (loader.settle page name entry).2.2 := by
  unfold Loader.settle
  simp only
  split
  · split
    · exact refl page
    · exact report _
  · exact refl page

theorem modifyDrawing {n : Nat} (hn : ¬kept n) (change : Drawing → Drawing) :
    page.Change fresh refusing kept (page.modifyDrawing n change) :=
  modifyElement (fun _ _ h => .inl h) (fun h => absurd h hn)

theorem draw {n : Nat} (hn : ¬kept n) (sprite : Sprite Nat) :
    page.Change fresh refusing kept (page.draw n sprite) := by
  unfold Page.draw
  simp only
  split
  · exact report _
  · exact modifyDrawing hn _

theorem paint {n : Nat} (hn : ¬kept n) (sprites : List (Sprite Nat)) :
    page.Change fresh refusing kept (page.paint n sprites) :=
  (modifyDrawing hn _).trans (foldl (fun _ _ _ => draw hn _) _)

section View

variable {view : View} (hcanvas : ¬kept view.canvas) (hoverlay : ¬kept view.overlay)

include hoverlay in
theorem hoverAt (cell : Option Cell) :
    page.Change fresh refusing kept (view.hoverAt page cell).2 := by
  simp only [View.hoverAt]
  split
  · exact refl page
  · exact paint hoverlay _

include hcanvas hoverlay

theorem redraw : page.Change fresh refusing kept (view.redraw page) :=
  (paint hcanvas _).trans (paint hoverlay _)

theorem settleView (name : String) (entry : Entry Nat) :
    page.Change fresh refusing kept (view.settle page name entry).2 := by
  refine (settleLoader view.loader name entry).trans (foldl (fun _ _ _ => ?_) _)
  exact (paint hcanvas _).trans (paint hoverlay _)

theorem showGrid (grid : Grid) : page.Change fresh refusing kept (view.show page grid).2 := by
  simp only [View.show, Page.resize]
  exact (modifyDrawing hcanvas _).trans (modifyDrawing hoverlay _)

theorem drawWhenReady : page.Change fresh refusing kept (view.drawWhenReady page).2 := by
  unfold View.drawWhenReady
  split
  · exact (paint hcanvas _).trans (paint hoverlay _)
  · exact refl page

section SetMap

variable {slot : Nat} (hfresh : ∀ name n, fresh (.arrive (.view slot) name n) ∧
  fresh (.fail (.view slot) name n))

include hfresh

theorem setMap (grid : Grid) :
    page.Change fresh refusing kept (view.setMap slot page grid).2.2 := by
  have hload : page.Change fresh refusing kept _ := (showGrid hcanvas hoverlay grid).trans
    (load (.view slot) view.loader _ grid.assetNames fun name n _ _ _ => hfresh name n)
  unfold View.setMap
  simp only
  split
  · exact hload
  · exact hload.trans (drawWhenReady hcanvas hoverlay)

theorem setBytes (width height : Nat) (bytes : List UInt8) :
    page.Change fresh refusing kept (view.setBytes slot page width height bytes).2.2 := by
  unfold View.setBytes
  split
  · exact refl page
  · exact setMap hcanvas hoverlay hfresh _

theorem setWorld (world : Grid) (viewport : Viewport) :
    page.Change fresh refusing kept (view.setWorld slot page world viewport).2.2 := by
  unfold View.setWorld
  apply setMap
  all_goals assumption

theorem pan (direction : Direction) :
    page.Change fresh refusing kept (view.pan slot page direction).2.2 := by
  unfold View.pan
  split
  · exact refl page
  · exact setWorld hcanvas hoverlay hfresh _ _

end SetMap

end View

end Page.Change

section Load

variable (self : LoaderName) (loader : Loader κ) (page : Page) (names : List String)

theorem cache_load :
    (loader.load self page names).2.1.cache = (loader.cache.request names).2 := by
  simp only [Loader.load, cache_start, Loader.prune]

theorem load_ok (h : page.faults.image = none) :
    (loader.load self page names).1 = .ok (loader.cache.request names).1.length := by
  have hprune : page.Change (fun _ => True) (fun _ => True) (fun _ => True) _ :=
    .prune self loader
  simp only [Loader.load]
  rw [start_ok self _ _ _ (hprune.faults.trans h)]
  rfl

end Load

-- What a view has when it is mounted.
theorem mount_cases {slot : Nat} {settings : Settings} {page after : Page} {view : View}
    (h : View.mount slot settings page = .ok (view, after)) :
    ∃ canvas overlay, page.resolveView settings = .ok (canvas, overlay) ∧
      let loader : Loader Unit :=
        { base := settings.assetBase, extension := settings.assetExtension }
      let loaded := loader.load (.view slot) page [settings.highlightAsset]
      loaded.1.isOk ∧
        view = { settings, canvas, overlay, grid := .blank 0 0, hover := none, world := none,
                 loader := loaded.2.1 } ∧
        after = (loaded.2.2.listen (.element overlay) (.point slot)).listen (.element overlay)
          (.leave slot) := by
  unfold View.mount at h
  split at h
  · cases h
  · rename_i canvas overlay hresolve
    refine ⟨canvas, overlay, hresolve, ?_⟩
    simp only at h ⊢
    split at h
    · cases h
    · rename_i heq
      cases h
      rw [heq]
      exact ⟨rfl, rfl, rfl⟩

theorem Page.Change.mountView {fresh : Listener → Prop} {refusing kept : Nat → Prop} {slot : Nat}
    {settings : Settings} {page after : Page} {view : View}
    (hfresh : ∀ name n image, after.images[n]? = some image → image.throws = none →
      fresh (.arrive (.view slot) name n) ∧ fresh (.fail (.view slot) name n))
    (hpoint : fresh (.point slot)) (hleave : fresh (.leave slot))
    (h : View.mount slot settings page = .ok (view, after)) :
    page.Change fresh refusing kept after := by
  obtain ⟨canvas, overlay, _, _, _, rfl⟩ := mount_cases h
  exact ((load _ _ page _ hfresh).trans (listen hpoint _)).trans (listen hleave _)

end CodePanel
