import CodePanel.Proofs.Page.Change

namespace CodePanel

open Map

-- A sprite as a canvas keeps it, with the address of its image.
def Page.render (page : Page) (sprite : Sprite Nat) : Sprite String :=
  { sprite with asset := page.srcOf sprite.asset }

def Page.throwsAt (page : Page) (n : Nat) : Bool :=
  (page.images[n]?.bind Image.throws).isSome

-- An image that is on the page and can be drawn, unless it is a refusing one.
def Page.Usable (refusing : Nat → Prop) (page : Page) (n : Nat) : Prop :=
  ∃ image, page.images[n]? = some image ∧ (image.throws.isSome → refusing n)

-- The drawing of an element consists of given sprites, in order. Refusing images may be missing.
def Page.Shows (refusing : Nat → Prop) (page : Page) (n : Nat)
    (sprites : List (Sprite Nat)) : Prop :=
  ∃ drawing, ∃ missing : List Nat, page.drawingOf? n = some drawing ∧
    (∀ image ∈ missing, refusing image) ∧
    drawing.draws = (sprites.filter (!missing.contains ·.asset)).map page.render

section Paint

variable (page : Page) (n : Nat)

theorem drawingOf_modifyDrawing (change : Drawing → Drawing) :
    (page.modifyDrawing n change).drawingOf? n = (page.drawingOf? n).map change := by
  simp only [Page.drawingOf?, Page.modifyDrawing, Page.modifyElement, List.getElem?_modify_eq]
  cases page.elements[n]? <;> rfl

theorem images_draw (sprite : Sprite Nat) : (page.draw n sprite).images = page.images := by
  unfold Page.draw
  simp only
  split <;> rfl

theorem drawingOf_draw (sprite : Sprite Nat) :
    (page.draw n sprite).drawingOf? n = (page.drawingOf? n).map fun drawing =>
      { drawing with draws := drawing.draws ++
          ([sprite].filter (!page.throwsAt ·.asset)).map page.render } := by
  unfold Page.draw Page.throwsAt
  simp only
  split
  · rename_i thrown hthrown
    simp only [Page.report, Page.drawingOf?, Option.map_map]
    cases page.elements[n]? <;> simp [hthrown]
  · rename_i hnone
    rw [drawingOf_modifyDrawing]
    simp [hnone, Page.render]

theorem drawingOf_foldl_draw (sprites : List (Sprite Nat)) :
    (sprites.foldl (fun page sprite => page.draw n sprite) page).drawingOf? n =
      (page.drawingOf? n).map fun drawing =>
        { drawing with draws := drawing.draws ++
            (sprites.filter (!page.throwsAt ·.asset)).map page.render } := by
  induction sprites generalizing page with
  | nil => simp
  | cons sprite rest ih =>
    have himages := images_draw page n sprite
    have hthrows : (page.draw n sprite).throwsAt = page.throwsAt := by
      funext m
      simp only [Page.throwsAt, himages]
    have hrender : (page.draw n sprite).render = page.render := by
      funext other
      simp only [Page.render, Page.srcOf, himages]
    rw [List.foldl_cons, ih, drawingOf_draw, hthrows, hrender, Option.map_map]
    congr 1
    funext drawing
    simp only [Function.comp, List.append_assoc, ← List.map_append, ← List.filter_append,
      List.singleton_append]

theorem drawingOf_paint (sprites : List (Sprite Nat)) :
    (page.paint n sprites).drawingOf? n = (page.drawingOf? n).map fun drawing =>
      { drawing.clear with
        draws := (sprites.filter (!page.throwsAt ·.asset)).map page.render } := by
  unfold Page.paint
  rw [drawingOf_foldl_draw, drawingOf_modifyDrawing, Option.map_map]
  rfl

theorem images_paint (sprites : List (Sprite Nat)) :
    (page.paint n sprites).images = page.images := by
  unfold Page.paint
  generalize hstart : page.modifyDrawing n Drawing.clear = start
  have himages : start.images = page.images := by rw [← hstart]; rfl
  clear hstart
  induction sprites generalizing start with
  | nil => exact himages
  | cons sprite rest ih => exact ih _ ((images_draw start n sprite).trans himages)

end Paint

section Shows

variable {refusing : Nat → Prop} {page : Page} {n : Nat} {sprites : List (Sprite Nat)}

theorem Page.Usable.refusing_of_throws (h : page.Usable refusing n) (hthrows : page.throwsAt n) :
    refusing n := by
  obtain ⟨image, himage, hrefusing⟩ := h
  rw [Page.throwsAt, himage] at hthrows
  exact hrefusing hthrows

theorem shows_paint (hn : (page.drawingOf? n).isSome)
    (hsprites : ∀ sprite ∈ sprites, page.Usable refusing sprite.asset) :
    (page.paint n sprites).Shows refusing n sprites := by
  obtain ⟨drawing, hdrawing⟩ := Option.isSome_iff_exists.1 hn
  have hrender : (page.paint n sprites).render = page.render := by
    funext other
    simp only [Page.render, Page.srcOf, images_paint]
  have hpaint := drawingOf_paint page n sprites
  rw [hdrawing] at hpaint
  refine ⟨_, (sprites.map (·.asset)).filter page.throwsAt, hpaint, ?_, ?_⟩
  · intro image himage
    obtain ⟨hmem, hthrows⟩ := List.mem_filter.1 himage
    obtain ⟨sprite, hsprite, rfl⟩ := List.mem_map.1 hmem
    exact (hsprites sprite hsprite).refusing_of_throws hthrows
  · rw [hrender]
    refine congrArg (List.map page.render) (List.filter_congr ?_)
    intro sprite hsprite
    have hmem : sprite.asset ∈ sprites.map (·.asset) := List.mem_map_of_mem hsprite
    cases hthrows : page.throwsAt sprite.asset <;> simp [List.mem_filter, hmem, hthrows]

variable {fresh : Listener → Prop} {kept : Nat → Prop} {after : Page}
variable (hchange : page.Change fresh refusing kept after)

include hchange

theorem Page.Usable.of_change (h : page.Usable refusing n) : after.Usable refusing n := by
  obtain ⟨image, himage, hthrows⟩ := h
  obtain ⟨later, hlater, _, hrefusing⟩ := hchange.images n image himage
  refine ⟨later, hlater, ?_⟩
  intro hthrow
  rcases hrefusing hthrow with hold | hnew
  · exact hthrows hold
  · exact hnew

theorem Page.Usable.srcOf_eq (h : page.Usable refusing n) : after.srcOf n = page.srcOf n := by
  obtain ⟨image, himage, _⟩ := h
  obtain ⟨later, hlater, hsrc, _⟩ := hchange.images n image himage
  simp only [Page.srcOf, himage, hlater, Option.map_some, hsrc]

theorem Page.Shows.of_change (hn : kept n) (h : page.Shows refusing n sprites)
    (hsprites : ∀ sprite ∈ sprites, page.Usable refusing sprite.asset) :
    after.Shows refusing n sprites := by
  obtain ⟨drawing, missing, hdrawing, hmissing, hdraws⟩ := h
  refine ⟨drawing, missing, (hchange.drawings n hn).trans hdrawing, hmissing, ?_⟩
  rw [hdraws]
  apply List.map_congr_left
  intro sprite hsprite
  simp only [Page.render, (hsprites sprite (List.mem_filter.1 hsprite).1).srcOf_eq hchange]

end Shows

end CodePanel
