import CodePanel.Proofs.Map.Layout
import CodePanel.Proofs.View.InStep

namespace CodePanel

open Asset Map

theorem answers_of_not_throwing {refusing : Nat → Prop} {slot : Nat} {page : Page} {n : Nat}
    {image : Image} (himage : page.images[n]? = some image) (hthrows : image.throws = none)
    (name : String) :
    page.Answers refusing slot (.arrive (.view slot) name n) ∧
      page.Answers refusing slot (.fail (.view slot) name n) := by
  constructor
  · intro other m heq
    cases heq
    exact ⟨image, himage, by simp [hthrows]⟩
  · exact nofun

namespace View

variable {refusing : Nat → Prop} {slot : Nat} {view : View} {page : Page}

-- Asking for images keeps a view sound, and makes all their names known.
theorem Sound.load (h : view.Sound refusing slot page) (names : List String) :
    let loaded := view.loader.load (.view slot) page names
    { view with loader := loaded.2.1 }.Sound refusing slot loaded.2.2 := by
  intro loaded
  have hchange :
      page.Change (loaded.2.2.Answers refusing slot) refusing (fun _ => True) loaded.2.2 :=
    .load _ _ _ _ fun name n image himage hthrows => answers_of_not_throwing himage hthrows name
  have hsound := h.of_change hchange fun _ hanswers => hanswers
  have hcache := cache_load (.view slot) view.loader page names
  refine ⟨hsound.apart, hsound.canvas, hsound.overlay, hsound.faults, hsound.heard, ?_, ?_⟩
  · intro name n hname
    rw [hcache] at hname
    exact hsound.loaded name n (view.loader.cache.find_of_loaded_request hname)
  · rw [hcache]
    exact view.loader.cache.knows_request (.inl h.marker)

theorem Sound.show (h : view.Sound refusing slot page) (grid : Grid) :
    (view.show page grid).1.Sound refusing slot (view.show page grid).2 := by
  have hchange : page.Change (fun _ => False) refusing (fun _ => False) (view.show page grid).2 :=
    .showGrid id id grid
  exact (h.of_change hchange nofun).congr rfl rfl rfl rfl

theorem setMap_eq (h : page.faults.image = none) (grid : Grid) :
    let loaded := view.loader.load (.view slot) (view.show page grid).2 grid.assetNames
    view.setMap slot page grid =
      (.ok (), { (view.show page grid).1 with loader := loaded.2.1 }.drawWhenReady loaded.2.2) := by
  have hshow : page.Change (fun _ => False) (fun _ => False) (fun _ => False)
      (view.show page grid).2 := .showGrid id id grid
  have hok := load_ok (.view slot) view.loader (view.show page grid).2 grid.assetNames
    (hshow.faults.trans h)
  intro loaded
  have hloader : (view.show page grid).1.loader = view.loader := rfl
  simp only [View.setMap, hloader]
  rw [hok]

-- Whether or not its images can be asked for, a new map takes the place of the old one, and no cell
-- is under the mouse.
theorem exists_setMap_eq (view : View) (page : Page) (grid : Grid) :
    ∃ loader, (view.setMap slot page grid).2.1 = { view with grid, hover := none, loader } := by
  simp only [View.setMap, View.drawWhenReady]
  split
  · exact ⟨_, rfl⟩
  · split <;> exact ⟨_, rfl⟩

theorem inStep_setMap (h : view.Sound refusing slot page) (grid : Grid) :
    let after := view.setMap slot page grid
    after.2.1.Sound refusing slot after.2.2 ∧ after.2.1.InStep refusing after.2.2 := by
  rw [setMap_eq h.faults]
  refine inStep_drawWhenReady ((h.show grid).load grid.assetNames) ?_
  intro tile htile
  rw [cache_load]
  exact view.loader.cache.knows_request (.inr (Grid.mem_assetNames.mpr ⟨_, htile, rfl⟩))

theorem inStep_setWorld (h : view.Sound refusing slot page) (world : Grid) (viewport : Viewport) :
    let after := view.setWorld slot page world viewport
    after.2.1.Sound refusing slot after.2.2 ∧ after.2.1.InStep refusing after.2.2 := by
  have hworld : { view with world := some (world, viewport) }.Sound refusing slot page :=
    h.congr rfl rfl rfl rfl
  exact inStep_setMap hworld (viewport.view world)

theorem InStep.redraw (hsound : view.Sound refusing slot page) (h : view.InStep refusing page) :
    view.InStep refusing (view.redraw page) :=
  ⟨h.known, h.queued, fun _ => hsound.shows_redraw⟩

theorem Sound.hoverAt (h : view.Sound refusing slot page) (cell : Option Cell) :
    (view.hoverAt page cell).1.Sound refusing slot (view.hoverAt page cell).2 := by
  have hchange : page.Change (fun _ => False) refusing (fun _ => False)
      (view.hoverAt page cell).2 := .hoverAt id cell
  exact (h.of_change hchange nofun).congr rfl rfl rfl rfl

theorem InStep.hoverAt (hsound : view.Sound refusing slot page) (h : view.InStep refusing page)
    (cell : Option Cell) :
    (view.hoverAt page cell).1.InStep refusing (view.hoverAt page cell).2 := by
  by_cases hcell : cell = view.hover
  · simp only [View.hoverAt, if_pos hcell]
    subst hcell
    exact h
  · simp only [View.hoverAt, if_neg hcell]
    refine ⟨h.known, h.queued, fun hpending => ?_⟩
    have hmoved : { view with hover := cell }.Sound refusing slot page :=
      hsound.congr rfl rfl rfl rfl
    have hpaint : page.Change (fun _ => False) refusing (· = view.canvas)
        ({ view with hover := cell }.drawHover page) := .paint (fun heq => hsound.apart heq.symm) _
    exact ⟨(h.shown hpending).1.of_change hpaint rfl hsound.usable_tile,
      shows_paint (isSome_drawingOf hsound.overlay) hmoved.usable_hover⟩

theorem settle_eq (name : String) (entry : Entry Nat) :
    view.settle page name entry =
      let settled := view.withCache (view.loader.cache.settle name entry).2
      (settled, (view.loader.cache.settle name entry).1.foldl (fun page _ => settled.redraw page)
        (view.loader.settle page name entry).2.2) := rfl

-- An image that nobody has asked for is not needed for any sprite.
theorem InStep.sprites_put (hsound : view.Sound refusing slot page) (h : view.InStep refusing page)
    {name : String} (hnone : view.loader.cache.find? name = none) (entry : Entry Nat) :
    let settled := view.withCache (view.loader.cache.put name entry)
    settled.tileSprites = view.tileSprites ∧ settled.hoverSprites = view.hoverSprites := by
  have hother : ∀ other, view.loader.cache.Knows other →
      (view.loader.cache.put name entry).find? other = view.loader.cache.find? other := by
    intro other hknows
    rw [Cache.find_put, if_neg]
    intro hname
    exact hknows (hname ▸ hnone)
  constructor
  · exact tileSprites_congr rfl rfl fun tile htile => hother _ (h.known tile htile)
  · exact hoverSprites_congr rfl rfl (hother _ hsound.marker)

section Settle

variable (name : String) {entry : Entry Nat}
variable (hentry : ∀ n, entry = .loaded n → page.Usable refusing n)

include hentry

theorem Sound.settleLoader (h : view.Sound refusing slot page) :
    (view.withCache (view.loader.cache.settle name entry).2).Sound refusing slot
      (view.loader.settle page name entry).2.2 := by
  have hchange : page.Change (fun _ => False) refusing (fun _ => True)
      (view.loader.settle page name entry).2.2 := .settleLoader view.loader name entry
  have hsound := h.of_change hchange nofun
  refine ⟨hsound.apart, hsound.canvas, hsound.overlay, hsound.faults, hsound.heard, ?_, ?_⟩
  · intro other n hother
    rcases view.loader.cache.find_settle name other entry with hold | hnew
    · exact hsound.loaded other n (hold.symm.trans hother)
    · exact (hentry n (Option.some.inj (hnew.symm.trans hother))).of_change hchange
  · exact view.loader.cache.knows_settle h.marker name entry

theorem Sound.settle (h : view.Sound refusing slot page) :
    (view.settle page name entry).1.Sound refusing slot (view.settle page name entry).2 :=
  (h.settleLoader name hentry).foldl_redraw _

-- The last load that ends finds the queued redraw. A load that ends later is of an image that
-- neither the map nor the marker needs, so the canvases stay as they are.
theorem InStep.settle (hloading : entry.isLoading = false) (hsound : view.Sound refusing slot page)
    (h : view.InStep refusing page) :
    (view.settle page name entry).1.InStep refusing (view.settle page name entry).2 := by
  have hchange : page.Change (fun _ => False) refusing (fun _ => True)
      (view.loader.settle page name entry).2.2 := .settleLoader view.loader name entry
  have hknown : ∀ tile ∈ view.grid.cells,
      (view.loader.cache.settle name entry).2.Knows tile.assetName :=
    fun tile htile => view.loader.cache.knows_settle (h.known tile htile) name entry
  have hsettled := hsound.settleLoader name hentry
  have hstep := h.of_change hchange trivial trivial hsound
  rw [settle_eq]
  rcases view.loader.cache.settle_cases name entry with
    heq | ⟨heq, hpos, hdone⟩ | ⟨heq, hunsettled, hpending⟩
  · rw [heq]
    exact hstep
  · rw [heq] at hknown hsettled ⊢
    exact ⟨hknown, fun hloads => absurd hdone (Nat.ne_of_gt hloads),
      fun _ => hsettled.shows_foldl_redraw (h.queued hpos)⟩
  · rw [heq] at hknown ⊢
    have hle := view.loader.cache.pending_put_le hloading name
    refine ⟨hknown, fun hloads => h.queued (Nat.lt_of_lt_of_le hloads hle), fun hdone => ?_⟩
    have hput : (view.loader.cache.put name entry).pending = 0 := hdone
    have hready : view.loader.cache.pending = 0 := by omega
    have hnone := view.loader.cache.find_eq_none_of_ready hunsettled hready
    obtain ⟨htiles, hhover⟩ := h.sprites_put hsound hnone entry
    rw [htiles, hhover]
    exact hstep.shown hready

end Settle

end View

end CodePanel
