import CodePanel.Proofs.Page.Loading
import CodePanel.Proofs.Page.Painting
import Mathlib.Data.List.Basic

namespace CodePanel

open Asset Map

-- An image whose arrival a view waits for is one that it can draw.
def Page.Answers (refusing : Nat → Prop) (slot : Nat) (page : Page) (listener : Listener) : Prop :=
  ∀ name n, listener = .arrive (.view slot) name n → page.Usable refusing n

structure View.Sound (refusing : Nat → Prop) (slot : Nat) (view : View) (page : Page) : Prop where
  apart : view.canvas ≠ view.overlay
  canvas : view.canvas < page.elements.length
  overlay : view.overlay < page.elements.length
  faults : page.faults.image = none
  heard : ∀ target, ∀ listener ∈ page.listeners target, page.Answers refusing slot listener
  loaded : ∀ name n, view.loader.cache.find? name = some (.loaded n) → page.Usable refusing n
  marker : view.loader.cache.Knows view.settings.highlightAsset

-- While loads are under way a redraw is queued, and afterwards both canvases show the view.
structure View.InStep (refusing : Nat → Prop) (view : View) (page : Page) : Prop where
  known : ∀ tile ∈ view.grid.cells, view.loader.cache.Knows tile.assetName
  queued : 0 < view.loader.cache.pending → view.loader.cache.waiting ≠ []
  shown : view.loader.cache.pending = 0 →
    page.Shows refusing view.canvas view.tileSprites ∧
      page.Shows refusing view.overlay view.hoverSprites

theorem isSome_drawingOf {page : Page} {n : Nat} (h : n < page.elements.length) :
    (page.drawingOf? n).isSome := by
  simp [Page.drawingOf?, h]

theorem get_of_mem_tileSprites {view : View} {sprite : Sprite Nat} (h : sprite ∈ view.tileSprites) :
    ∃ name, view.loader.cache.find? name = some (.loaded sprite.asset) := by
  obtain ⟨⟨cell, tile⟩, _, hget⟩ := List.mem_filterMap.1 h
  obtain ⟨n, hn, rfl⟩ := Option.map_eq_some_iff.1 hget
  exact ⟨tile.assetName, view.loader.cache.get_eq_some hn⟩

theorem get_of_mem_hoverSprites {view : View} {sprite : Sprite Nat}
    (h : sprite ∈ view.hoverSprites) :
    ∃ name, view.loader.cache.find? name = some (.loaded sprite.asset) := by
  unfold View.hoverSprites Map.hoverSprites at h
  split at h
  · rename_i n _ hn
    cases List.mem_singleton.1 h
    exact ⟨_, view.loader.cache.get_eq_some hn⟩
  · cases h

def View.withCache (view : View) (cache : Cache Nat Unit) : View :=
  { view with loader := { view.loader with cache } }

section Sprites

variable {view other : View}

-- The sprites depend on the images of the grid and of the marker alone.
theorem tileSprites_congr (hsettings : other.settings = view.settings)
    (hgrid : other.grid = view.grid)
    (hget : ∀ tile ∈ view.grid.cells,
      other.loader.cache.find? tile.assetName = view.loader.cache.find? tile.assetName) :
    other.tileSprites = view.tileSprites := by
  unfold View.tileSprites Map.tileSprites View.geometry
  rw [hsettings, hgrid]
  apply List.filterMap_congr
  intro ⟨cell, tile⟩ hmem
  have htile : tile ∈ view.grid.cells := by
    obtain ⟨i, hi, heq⟩ := List.mem_mapIdx.1 hmem
    cases heq
    exact List.getElem_mem hi
  simp only [Cache.get?, hget tile htile]

theorem hoverSprites_congr (hsettings : other.settings = view.settings)
    (hhover : other.hover = view.hover)
    (hget : other.loader.cache.find? view.settings.highlightAsset =
      view.loader.cache.find? view.settings.highlightAsset) :
    other.hoverSprites = view.hoverSprites := by
  unfold View.hoverSprites Map.hoverSprites View.geometry
  simp only [Cache.get?, hsettings, hhover, hget]

end Sprites

namespace View

variable {refusing : Nat → Prop} {slot : Nat} {view : View} {page after : Page}

theorem Sound.usable_tile (h : view.Sound refusing slot page) :
    ∀ sprite ∈ view.tileSprites, page.Usable refusing sprite.asset := by
  intro sprite hsprite
  obtain ⟨name, hname⟩ := get_of_mem_tileSprites hsprite
  exact h.loaded name sprite.asset hname

theorem Sound.usable_hover (h : view.Sound refusing slot page) :
    ∀ sprite ∈ view.hoverSprites, page.Usable refusing sprite.asset := by
  intro sprite hsprite
  obtain ⟨name, hname⟩ := get_of_mem_hoverSprites hsprite
  exact h.loaded name sprite.asset hname

-- Soundness is a matter of the canvases, the marker's name and the cached images.
theorem Sound.congr {other : View} (h : view.Sound refusing slot page)
    (hcanvas : other.canvas = view.canvas) (hoverlay : other.overlay = view.overlay)
    (hsettings : other.settings = view.settings)
    (hentries : other.loader.cache.entries = view.loader.cache.entries) :
    other.Sound refusing slot page := by
  have hentry : other.loader.cache.find? = view.loader.cache.find? := by
    funext name
    simp only [Cache.find?, hentries]
  refine ⟨?_, ?_, ?_, h.faults, h.heard, ?_, ?_⟩
  · rw [hcanvas, hoverlay]
    exact h.apart
  · rw [hcanvas]
    exact h.canvas
  · rw [hoverlay]
    exact h.overlay
  · rw [hentry]
    exact h.loaded
  · rw [Cache.Knows, hentry, hsettings]
    exact h.marker

theorem Sound.of_change {fresh : Listener → Prop} {kept : Nat → Prop}
    (hchange : page.Change fresh refusing kept after)
    (hfresh : ∀ listener, fresh listener → after.Answers refusing slot listener)
    (h : view.Sound refusing slot page) : view.Sound refusing slot after where
  apart := h.apart
  canvas := hchange.elements ▸ h.canvas
  overlay := hchange.elements ▸ h.overlay
  faults := hchange.faults.trans h.faults
  heard target listener hlistener := by
    rcases hchange.listeners target listener hlistener with hold | hnew
    · intro name n hname
      exact (h.heard target listener hold name n hname).of_change hchange
    · exact hfresh listener hnew
  loaded name n hname := (h.loaded name n hname).of_change hchange
  marker := h.marker

theorem InStep.of_change {fresh : Listener → Prop} {kept : Nat → Prop}
    (hchange : page.Change fresh refusing kept after)
    (hcanvas : kept view.canvas) (hoverlay : kept view.overlay)
    (hsound : view.Sound refusing slot page) (h : view.InStep refusing page) :
    view.InStep refusing after where
  known := h.known
  queued := h.queued
  shown hpending := by
    obtain ⟨htiles, hhover⟩ := h.shown hpending
    exact ⟨htiles.of_change hchange hcanvas hsound.usable_tile,
      hhover.of_change hchange hoverlay hsound.usable_hover⟩

theorem Sound.redraw (h : view.Sound refusing slot page) :
    view.Sound refusing slot (view.redraw page) := by
  have hchange : page.Change (fun _ => False) refusing (fun _ => False) (view.redraw page) :=
    .redraw id id
  exact h.of_change hchange nofun

theorem Sound.shows_redraw (h : view.Sound refusing slot page) :
    (view.redraw page).Shows refusing view.canvas view.tileSprites ∧
      (view.redraw page).Shows refusing view.overlay view.hoverSprites := by
  have htiles : page.Change (fun _ => False) refusing (fun _ => False)
      (page.paint view.canvas view.tileSprites) := .paint id _
  have hpainted := h.of_change htiles nofun
  have hhover : (page.paint view.canvas view.tileSprites).Change (fun _ => False) refusing
      (· = view.canvas) (view.redraw page) := .paint (fun heq => h.apart heq.symm) _
  constructor
  · exact (shows_paint (isSome_drawingOf h.canvas) h.usable_tile).of_change hhover rfl
      hpainted.usable_tile
  · exact shows_paint (isSome_drawingOf hpainted.overlay) hpainted.usable_hover

theorem Sound.foldl_redraw (h : view.Sound refusing slot page) (ready : List Unit) :
    view.Sound refusing slot (ready.foldl (fun page _ => view.redraw page) page) := by
  induction ready generalizing page with
  | nil => exact h
  | cons callback rest ih => exact ih h.redraw

theorem Sound.shows_foldl_redraw (h : view.Sound refusing slot page) {ready : List Unit}
    (hready : ready ≠ []) :
    let drawn := ready.foldl (fun page _ => view.redraw page) page
    drawn.Shows refusing view.canvas view.tileSprites ∧
      drawn.Shows refusing view.overlay view.hoverSprites := by
  induction ready generalizing page with
  | nil => exact absurd rfl hready
  | cons callback rest ih =>
    by_cases hrest : rest = []
    · subst hrest
      exact h.shows_redraw
    · exact ih h.redraw hrest

theorem inStep_drawWhenReady (h : view.Sound refusing slot page)
    (hknown : ∀ tile ∈ view.grid.cells, view.loader.cache.Knows tile.assetName) :
    (view.drawWhenReady page).1.Sound refusing slot (view.drawWhenReady page).2 ∧
      (view.drawWhenReady page).1.InStep refusing (view.drawWhenReady page).2 := by
  by_cases hpending : view.loader.cache.pending = 0
  · have hready : view.drawWhenReady page = (view, view.redraw page) := by
      simp [View.drawWhenReady, Cache.onReady, Cache.isReady, hpending]
    rw [hready]
    exact ⟨h.redraw, hknown, fun hloading => absurd hpending (Nat.ne_of_gt hloading),
      fun _ => h.shows_redraw⟩
  · have hwait : view.drawWhenReady page =
        (view.withCache { view.loader.cache with waiting := view.loader.cache.waiting ++ [()] },
          page) := by
      simp [View.drawWhenReady, Cache.onReady, Cache.isReady, hpending, withCache]
    rw [hwait]
    refine ⟨h.congr rfl rfl rfl rfl, hknown, ?_, ?_⟩
    · exact fun _ => List.append_ne_nil_of_right_ne_nil _ (List.cons_ne_nil _ _)
    · exact fun hnone => absurd hnone hpending

end View

end CodePanel
