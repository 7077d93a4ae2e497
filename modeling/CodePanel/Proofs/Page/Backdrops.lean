import CodePanel.Proofs.Page.Listeners

namespace CodePanel

open Fit Overlay

-- A padding that is read as it was written.
def Overlay.Padding.ReadsBack (padding : Padding) : Prop :=
  readLength? (writeLength padding.left) = some padding.left ∧
    readLength? (writeLength padding.right) = some padding.right

namespace Element

-- Sets both paddings, unless the style refuses them.
def pad (padding : Padding) (element : Element) : Element :=
  if element.styleFault = some .readOnly then element
  else { element with
    paddingLeft := writeLength padding.left
    paddingRight := writeLength padding.right }

theorem pad_pad (first second : Padding) (element : Element) :
    (element.pad first).pad second = element.pad second := by
  by_cases h : element.styleFault = some .readOnly
  · simp [pad, h]
  · simp [pad, h]

theorem value_pad (element : Element) (padding : Padding) :
    (element.pad padding).value = element.value := by
  unfold pad
  split <;> rfl

theorem html_pad (element : Element) (padding : Padding) :
    (element.pad padding).html = element.html := by
  unfold pad
  split <;> rfl

-- All that decides about the padding that is read.
def style (element : Element) : Option StyleFault × String × String :=
  (element.styleFault, element.paddingLeft, element.paddingRight)

theorem padding_congr {element other : Element} (h : element.style = other.style) :
    element.padding = other.padding := by
  obtain ⟨hfault, hleft, hright⟩ : _ ∧ _ ∧ _ := by simpa only [style, Prod.mk.injEq] using h
  unfold padding canReadStyle
  rw [hfault, hleft, hright]

theorem padding_pad_congr {element other : Element} (h : element.style = other.style)
    (padding : Padding) : (element.pad padding).padding = (other.pad padding).padding := by
  have hfault : element.styleFault = other.styleFault := congrArg Prod.fst h
  apply padding_congr
  unfold pad
  rw [hfault]
  split
  · exact h
  · simp only [style]

-- The fault of the style stays, so what could be read before can be read after.
theorem padding_pad {element : Element} (h : element.padding.ReadsBack) :
    (element.pad element.padding).padding = element.padding := by
  unfold pad
  split
  · rfl
  · cases hread : element.canReadStyle with
    | true =>
      have hwritten : ∀ padding : Padding, ({ element with
          paddingLeft := writeLength padding.left
          paddingRight := writeLength padding.right } : Element).padding =
            ⟨(readLength? (writeLength padding.left)).getD 0.0,
              (readLength? (writeLength padding.right)).getD 0.0⟩ :=
        fun _ => if_pos hread
      rw [hwritten, h.1, h.2, Option.getD_some, Option.getD_some]
    | false =>
      have hzero : ∀ left right : String, ({ element with
          paddingLeft := left, paddingRight := right } : Element).padding = ⟨0.0, 0.0⟩ :=
        fun _ _ => if_neg (Bool.eq_false_iff.1 hread)
      rw [hzero]
      exact (hzero element.paddingLeft element.paddingRight).symm

end Element

namespace Page

def htmlOf? (page : Page) (n : Nat) : Option String :=
  page.elements[n]?.map Element.html

variable {page : Page}

theorem elements_setPadding (n : Nat) (padding : Padding) :
    (Host.setPadding n padding page).elements = page.elements.modify n (Element.pad padding) := by
  change (page.setPadding n padding).elements = _
  apply List.ext_getElem?
  intro m
  rw [List.getElem?_modify]
  unfold setPadding
  by_cases hm : n = m
  · subst hm
    cases helement : page.elements[n]? with
    | none => exact helement
    | some element =>
      simp only [if_true, Option.map_eq_map, Option.map_some]
      by_cases hfault : element.styleFault = some .readOnly
      · rw [if_pos hfault, Element.pad, if_pos hfault]
        exact helement
      · rw [if_neg hfault, Element.pad, if_neg hfault]
        simp [modifyElement, helement]
  · simp only [hm, if_false, Option.map_eq_map, Option.map_id']
    split
    · rfl
    · split
      · rfl
      · simp [modifyElement, hm]

theorem unmount_eq (overlay : Mounted) (page : Page) : overlay.unmount page =
    (overlay.backdrops.zip overlay.saved).foldl
      (fun page entry => Host.setPadding entry.1 entry.2 page) page := rfl

section Views

variable {view : Element → α}

theorem map_modify {change : Element → Element} (h : ∀ e, view (change e) = view e)
    (elements : List Element) (n : Nat) :
    (elements.modify n change).map view = elements.map view := by
  apply List.ext_getElem?
  intro m
  rw [List.getElem?_map, List.getElem?_map, List.getElem?_modify]
  cases elements[m]? with
  | none => rfl
  | some element =>
    by_cases hm : n = m
    · simp [hm, h]
    · simp [hm]

theorem length_of_view {other : Page} (h : page.elements.map view = other.elements.map view) :
    page.elements.length = other.elements.length := by
  have hlength := congrArg List.length h
  rwa [List.length_map, List.length_map] at hlength

theorem getElem_of_view {other : Page} (h : page.elements.map view = other.elements.map view)
    (n : Nat) : page.elements[n]?.map view = other.elements[n]?.map view := by
  rw [← List.getElem?_map, ← List.getElem?_map, h]

theorem view_foldl {f : Page → β → Page}
    (h : ∀ (page : Page) b, (f page b).elements.map view = page.elements.map view) (list : List β)
    (page : Page) : (list.foldl f page).elements.map view = page.elements.map view := by
  induction list generalizing page with
  | nil => rfl
  | cons b rest ih => rw [List.foldl_cons, ih, h]

theorem view_fill (h : ∀ e html, view { e with html } = view e) (mount : PageOverlay)
    (page : Page) : (mount.fill page).elements.map view = page.elements.map view :=
  view_foldl (fun page n => map_modify (fun e => h e _) page.elements n) _ page

theorem view_follow (h : ∀ e scroll, view { e with scroll } = view e) (mount : PageOverlay)
    (page : Page) : (mount.follow page).elements.map view = page.elements.map view :=
  view_foldl (fun page n => map_modify (fun e => h e _) page.elements n) _ page

theorem refresh_eq (mount : PageOverlay) (page : Page) :
    mount.refresh page = mount.follow (mount.fill page) := by
  have hview : (mount.fill page).elements.map Element.scroll = page.elements.map Element.scroll :=
    view_fill (fun _ _ => rfl) mount page
  have hscroll : (mount.fill page).scrollOf mount.input = page.scrollOf mount.input := by
    simp only [scrollOf, getElem_of_view hview]
  rw [PageOverlay.follow, hscroll]
  rfl

theorem view_setPadding (h : ∀ e padding, view (e.pad padding) = view e) (n : Nat)
    (padding : Padding) (page : Page) :
    (Host.setPadding n padding page).elements.map view = page.elements.map view := by
  rw [elements_setPadding]
  exact map_modify (fun e => h e padding) page.elements n

theorem view_insetAll (h : ∀ e padding, view (e.pad padding) = view e) (inset : Float)
    (targets : List Nat) (page : Page) :
    (insetAll inset targets page).2.elements.map view = page.elements.map view := by
  induction targets generalizing page with
  | nil => rfl
  | cons n rest ih => rw [insetAll, ih, view_setPadding h]

theorem view_mount (h : ∀ e padding, view (e.pad padding) = view e) (targets : List Nat)
    (adjustment : Adjustment) (options : Markup.Options) (page : Page) :
    (Mounted.mount targets adjustment options page).2.elements.map view =
      page.elements.map view := by
  unfold Mounted.mount
  split
  · exact view_insetAll h _ targets page
  · rfl

theorem view_unmount (h : ∀ e padding, view (e.pad padding) = view e) (overlay : Mounted)
    (page : Page) : (overlay.unmount page).elements.map view = page.elements.map view := by
  rw [unmount_eq]
  exact view_foldl (fun page _ => view_setPadding h _ _ page) _ page

theorem view_silence (h : ∀ e listeners, view { e with listeners } = view e)
    (isOf : Listener → Bool) : (page.silence isOf).elements.map view = page.elements.map view := by
  simp only [silence, List.map_map]
  exact List.map_congr_left fun e _ => h e _

theorem view_listen (h : ∀ e listeners, view { e with listeners } = view e) (target : Target)
    (listener : Listener) :
    (page.listen target listener).elements.map view = page.elements.map view := by
  cases target with
  | element n => exact map_modify (fun e => h e _) page.elements n
  | image n => rfl
  | socket n => rfl

end Views

section Contents

theorem valueOf_of_view {other : Page}
    (h : page.elements.map Element.value = other.elements.map Element.value) (n : Nat) :
    page.valueOf n = other.valueOf n := by
  simp only [valueOf, getElem_of_view h]

theorem htmlOf_of_view {other : Page}
    (h : page.elements.map Element.html = other.elements.map Element.html) (n : Nat) :
    page.htmlOf? n = other.htmlOf? n :=
  getElem_of_view h n

theorem htmlOf_setHtml (page : Page) (html : String) (target n : Nat) :
    (Host.setHtml target html page).htmlOf? n =
      (page.htmlOf? n).map fun old => if target = n then html else old := by
  change ((page.elements.modify target _)[n]?).map Element.html = _
  rw [List.getElem?_modify, htmlOf?]
  cases page.elements[n]? with
  | none => rfl
  | some element =>
    by_cases h : target = n
    · simp [h]
    · simp [h]

theorem htmlOf_foldl_setHtml (html : String) (targets : List Nat) (page : Page) (n : Nat) :
    (targets.foldl (fun page target => Host.setHtml target html page) page).htmlOf? n =
      (page.htmlOf? n).map fun old => if n ∈ targets then html else old := by
  induction targets generalizing page with
  | nil => simp
  | cons target rest ih =>
    rw [List.foldl_cons, ih, htmlOf_setHtml, Option.map_map]
    congr 1
    funext old
    by_cases htarget : target = n
    · simp [htarget]
    · simp [htarget, Ne.symm htarget]

-- A backdrop of the page shows the text of the field.
theorem htmlOf_fill (mount : PageOverlay) {n : Nat} (hmem : n ∈ mount.overlay.backdrops)
    (hn : n < page.elements.length) :
    (mount.fill page).htmlOf? n =
      some (Markup.highlight mount.overlay.options (page.valueOf mount.input)) := by
  refine (htmlOf_foldl_setHtml _ _ page n).trans ?_
  simp [htmlOf?, hn, hmem]

end Contents

section Paddings

theorem elements_setPadding_of_ne {n m : Nat} (h : n ≠ m) (padding : Padding) :
    (Host.setPadding n padding page).elements[m]? = page.elements[m]? := by
  rw [elements_setPadding, List.getElem?_modify]
  simp [h]

theorem elements_insetAll_of_not_mem (inset : Float) {targets : List Nat} {m : Nat}
    (h : m ∉ targets) (page : Page) :
    (insetAll inset targets page).2.elements[m]? = page.elements[m]? := by
  induction targets generalizing page with
  | nil => rfl
  | cons n rest ih =>
    obtain ⟨hne, hrest⟩ := not_or.1 (mt List.mem_cons.2 h)
    rw [insetAll, ih hrest, elements_setPadding_of_ne (Ne.symm hne)]

-- No backdrop is widened before its padding is saved, for none is listed twice.
theorem saved_insetAll (inset : Float) {targets : List Nat} (h : targets.Nodup) (page : Page) :
    (insetAll inset targets page).1 = targets.map page.paddingOf := by
  induction targets generalizing page with
  | nil => rfl
  | cons n rest ih =>
    obtain ⟨hn, hrest⟩ := List.nodup_cons.1 h
    rw [insetAll, ih hrest, List.map_cons]
    refine congrArg _ (List.map_congr_left fun m hm => ?_)
    have hne : n ≠ m := fun heq => hn (heq ▸ hm)
    simp only [paddingOf, elements_setPadding_of_ne hne]

-- What an overlay with one padding for each of its backdrops puts back.
theorem elements_unmount (paddings : Nat → Padding) (targets : List Nat) (options : Markup.Options)
    (page : Page) (m : Nat) :
    ((⟨targets, options, targets.map paddings⟩ : Mounted).unmount page).elements[m]? =
      page.elements[m]?.map fun e => if m ∈ targets then e.pad (paddings m) else e := by
  induction targets generalizing page with
  | nil => simp [unmount_eq]
  | cons n rest ih =>
    have hstep : (⟨n :: rest, options, (n :: rest).map paddings⟩ : Mounted).unmount page =
        (⟨rest, options, rest.map paddings⟩ : Mounted).unmount
          (Host.setPadding n (paddings n) page) := rfl
    rw [hstep, ih, elements_setPadding, List.getElem?_modify, Option.map_eq_map, Option.map_map]
    congr 1
    funext e
    by_cases hn : n = m
    · subst hn
      by_cases hmem : n ∈ rest
      · simp [hmem, Element.pad_pad]
      · simp [hmem]
    · simp [hn, Ne.symm hn]

theorem paddingOf_of_elements {before : Page} {n : Nat}
    (h : page.elements[n]?.map Element.padding = before.elements[n]?.map Element.padding) :
    page.paddingOf n = before.paddingOf n := by
  simp only [paddingOf, h]

-- An element that was padded, however often, and gets its padding back.
theorem padding_of_pad {before : Page} {n : Nat} (hreads : (before.paddingOf n).ReadsBack)
    (h : ∀ padding, page.elements.map (fun e => (e.pad padding).padding) =
      before.elements.map fun e => (e.pad padding).padding) :
    (page.elements[n]?.map fun e => (e.pad (before.paddingOf n)).padding) =
      before.elements[n]?.map Element.padding := by
  rw [getElem_of_view (h (before.paddingOf n))]
  cases helement : before.elements[n]? with
  | none => rfl
  | some element =>
    have hfound : before.paddingOf n = element.padding := by simp [paddingOf, helement]
    rw [hfound] at hreads ⊢
    exact congrArg some (Element.padding_pad hreads)

-- Between mounting and unmounting anything may be done to a page that keeps the paddings, also
-- those that an element would have if it were padded anew.
theorem paddingOf_unmount {before page : Page} {targets : List Nat} (adjustment : Adjustment)
    (options : Markup.Options) (hnodup : targets.Nodup)
    (hsame : page.elements.map Element.padding =
      (Mounted.mount targets adjustment options before).2.elements.map Element.padding)
    (hanew : ∀ padding, page.elements.map (fun e => (e.pad padding).padding) =
      (Mounted.mount targets adjustment options before).2.elements.map
        fun e => (e.pad padding).padding)
    {n : Nat} (hreads : (before.paddingOf n).ReadsBack) :
    ((Mounted.mount targets adjustment options before).1.unmount page).paddingOf n =
      before.paddingOf n := by
  apply paddingOf_of_elements
  have hkept := getElem_of_view hsame n
  by_cases hinset : adjustment.inset != 0.0
  · have hmount : Mounted.mount targets adjustment options before =
        (⟨targets, mergeHint adjustment options, targets.map before.paddingOf⟩,
          (insetAll adjustment.inset targets before).2) := by
      simp only [Mounted.mount, hinset, if_true, saved_insetAll _ hnodup]
    rw [hmount] at hkept ⊢
    rw [elements_unmount, Option.map_map]
    by_cases hmem : n ∈ targets
    · simp only [hmem, if_true]
      refine padding_of_pad hreads fun padding => (hanew padding).trans ?_
      exact view_mount (fun e _ => by rw [Element.pad_pad]) targets adjustment options before
    · simp only [hmem, if_false]
      rw [elements_insetAll_of_not_mem _ hmem] at hkept
      exact hkept
  · have hmount : Mounted.mount targets adjustment options before =
        (⟨targets, mergeHint adjustment options, []⟩, before) := by
      simp only [Mounted.mount, hinset]
      rfl
    rw [hmount] at hkept ⊢
    rw [unmount_eq, List.zip_nil_right]
    exact hkept

example : (⟨10.0, 0.5⟩ : Padding).ReadsBack :=
  ⟨by decide +kernel, by decide +kernel⟩

end Paddings

section Listening

theorem listeners_insetAll (inset : Float) (targets : List Nat) (page : Page) :
    (insetAll inset targets page).2.listeners = page.listeners := by
  induction targets generalizing page with
  | nil => rfl
  | cons n rest ih => rw [insetAll, ih, listeners_setPadding]

theorem listeners_mount (targets : List Nat) (adjustment : Adjustment) (options : Markup.Options)
    (page : Page) :
    (Mounted.mount targets adjustment options page).2.listeners = page.listeners := by
  unfold Mounted.mount
  split
  · exact listeners_insetAll _ targets page
  · rfl

theorem listeners_unmount (overlay : Mounted) (page : Page) :
    (overlay.unmount page).listeners = page.listeners := by
  rw [unmount_eq]
  exact listeners_foldl (fun _ _ => listeners_setPadding _ _) _ page

theorem listeners_listen_self {n : Nat} (hn : n < page.elements.length) (listener : Listener) :
    (page.listen (.element n) listener).listeners (.element n) =
      page.listeners (.element n) ++ [listener] := by
  simp [listeners, listen, modifyListeners, modifyElement, hn]

theorem filter_listeners_listen {keep : Listener → Bool} {listener : Listener}
    (h : keep listener = false) (target other : Target) :
    ((page.listen target listener).listeners other).filter keep =
      (page.listeners other).filter keep := by
  by_cases htarget : target = other
  · subst htarget
    cases target with
    | element n =>
      simp only [listeners, listen, modifyListeners, modifyElement, List.getElem?_modify]
      cases page.elements[n]? <;> simp [h]
    | image n =>
      simp only [listeners, listen, modifyListeners, modifyImage, List.getElem?_modify]
      cases page.images[n]? <;> simp [h]
    | socket n =>
      simp only [listeners, listen, modifyListeners, modifySocket, List.getElem?_modify]
      cases page.sockets[n]? <;> simp [h]
  · rw [listen, listeners_modifyListeners_of_ne htarget]

end Listening

end Page

-- What is left of a mounting once the backdrops have been inset.
def PageOverlay.place (slot : Nat) (mount : PageOverlay) (page : Page) : Page :=
  ((mount.refresh page).listen (.element mount.input) (.fill slot)).listen (.element mount.input)
    (.follow slot)

namespace Page

variable (slot : Nat) (mount : PageOverlay) {page : Page}

theorem view_place {view : Element → α} (hhtml : ∀ e html, view { e with html } = view e)
    (hscroll : ∀ e scroll, view { e with scroll } = view e)
    (hlisteners : ∀ e listeners, view { e with listeners } = view e) :
    (mount.place slot page).elements.map view = page.elements.map view := by
  rw [PageOverlay.place, view_listen hlisteners, view_listen hlisteners, refresh_eq,
    view_follow hscroll, view_fill hhtml]

theorem htmlOf_place {n : Nat} (hmem : n ∈ mount.overlay.backdrops)
    (hn : n < page.elements.length) :
    (mount.place slot page).htmlOf? n =
      some (Markup.highlight mount.overlay.options (page.valueOf mount.input)) := by
  rw [← htmlOf_fill mount hmem hn]
  apply htmlOf_of_view
  rw [PageOverlay.place, view_listen fun _ _ => rfl, view_listen fun _ _ => rfl, refresh_eq,
    view_follow fun _ _ => rfl]

theorem listeners_refresh : (mount.refresh page).listeners = page.listeners := by
  rw [refresh_eq, listeners_follow, listeners_fill]

theorem listeners_place (hfield : mount.input < page.elements.length) :
    (mount.place slot page).listeners (.element mount.input) =
      page.listeners (.element mount.input) ++ [.fill slot, .follow slot] := by
  have hview : (mount.refresh page).elements.map Element.id = page.elements.map Element.id := by
    rw [refresh_eq, view_follow fun _ _ => rfl, view_fill fun _ _ => rfl]
  have hrefreshed : mount.input < (mount.refresh page).elements.length :=
    length_of_view hview ▸ hfield
  have hlistened : mount.input <
      ((mount.refresh page).listen (.element mount.input) (.fill slot)).elements.length := by
    have hlisten : ((mount.refresh page).listen (.element mount.input) (.fill slot)).elements.map
        Element.id = (mount.refresh page).elements.map Element.id :=
      view_listen (fun _ _ => rfl) _ _
    exact length_of_view hlisten ▸ hrefreshed
  rw [PageOverlay.place, listeners_listen_self hlistened, listeners_listen_self hrefreshed,
    listeners_refresh, List.append_assoc]
  rfl

theorem filter_listeners_place (target : Target) :
    ((mount.place slot page).listeners target).filter (!Listener.ofOverlay slot ·) =
      (page.listeners target).filter (!Listener.ofOverlay slot ·) := by
  rw [PageOverlay.place, filter_listeners_listen (by simp [Listener.ofOverlay]),
    filter_listeners_listen (by simp [Listener.ofOverlay]), listeners_refresh]

end Page

end CodePanel
