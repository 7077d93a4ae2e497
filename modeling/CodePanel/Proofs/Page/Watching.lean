import CodePanel.Proofs.Asset.History
import CodePanel.Proofs.Page.Listeners

namespace CodePanel

open Asset

-- Both listeners of a load are on its image.
def Page.Watches (page : Page) (self : LoaderName) (name : String) (n : Nat) : Prop :=
  .arrive self name n ∈ page.listeners (.image n) ∧ .fail self name n ∈ page.listeners (.image n)

-- The load of a loader that a listener waits for.
def Listener.loadOf? (self : LoaderName) : Listener → Option String
  | .arrive other name _ | .fail other name _ => if other = self then some name else none
  | _ => none

def Loader.names (loader : Loader κ) : List String :=
  loader.attached.map Prod.fst

-- Every load that is under way is watched or stranded, and nobody listens for a stranded one.
structure Loader.Watchful (owner : LoaderName) (stranded : List String) (loader : Loader κ)
    (page : Page) : Prop where
  nodup : (loader.names ++ stranded).Nodup
  loading : ∀ name, loader.cache.state name = .loading → name ∈ loader.names ++ stranded
  hung : ∀ name ∈ stranded, loader.cache.state name = .loading
  watched : ∀ name n, (name, n) ∈ loader.attached → loader.cache.state name = .loading →
    page.Watches owner name n
  heard : ∀ target, ∀ listener ∈ page.listeners target, ∀ name, listener.loadOf? owner = some name →
    loader.cache.state name ≠ .unknown ∧ name ∉ stranded

theorem listeners_addImage {page after : Page} {image : Image}
    (h : page.addImage image = .ok after) (target : Target) :
    after.listeners target =
      if target = .image page.images.length then image.listeners else page.listeners target := by
  unfold Page.addImage at h
  split at h
  · cases h
  · cases h
    cases target with
    | element n => rfl
    | socket n => rfl
    | image n =>
      simp only [Page.listeners, Target.image.injEq]
      by_cases hn : n = page.images.length
      · simp [hn]
      · rw [if_neg hn]
        rcases Nat.lt_or_gt_of_ne hn with hlt | hgt
        · rw [List.getElem?_append_left hlt]
        · rw [List.getElem?_eq_none (by simp; omega), List.getElem?_eq_none (by omega)]

theorem mem_listeners_detachAll {self : LoaderName} {page : Page} {target : Target}
    {listener : Listener} {gone : List (String × Nat)} (h : listener ∈ page.listeners target)
    (hgone : ∀ attachment ∈ gone, listener.loadOf? self ≠ some attachment.1) :
    listener ∈ (gone.foldl (detachImage self) page).listeners target := by
  induction gone generalizing page with
  | nil => exact h
  | cons attachment rest ih =>
    have hne := hgone attachment List.mem_cons_self
    refine ih ?_ fun other hother => hgone other (List.mem_cons_of_mem _ hother)
    refine Page.mem_listeners_unlisten (Page.mem_listeners_unlisten h ?_) ?_
    all_goals
      rintro rfl
      simp [Listener.loadOf?] at hne

namespace Loader.Watchful

variable {self : LoaderName} {stranded : List String} {loader : Loader κ} {page : Page}

-- A new loader, on a page that has no listeners of its kind.
theorem of_silence (base extension : String) (page : Page) :
    Watchful self [] ({ base, extension } : Loader κ)
      (page.silence (Listener.ofLoader self)) where
  nodup := List.nodup_nil
  loading name h := by cases h
  hung name h := by cases h
  watched name n h := by cases h
  heard target listener hlistener name hname := by
    have hquiet := (mem_listeners_silence.1 hlistener).2
    cases listener <;> simp_all [Listener.loadOf?, Listener.ofLoader]

theorem notMem_stranded (h : loader.Watchful self stranded page) {name : String}
    (hname : name ∈ loader.names) : name ∉ stranded :=
  fun hstranded => (List.nodup_append.1 h.nodup).2.2 name hname name hstranded rfl

-- Where every attached load is under way, all loads can be counted.
theorem pending_eq (h : loader.Watchful self stranded page)
    (hlive : ∀ name ∈ loader.names, loader.cache.state name = .loading) :
    loader.cache.pending = loader.inFlight + stranded.length := by
  have hcount := loader.cache.pending_eq_length h.nodup fun name =>
    ⟨fun hname => ?_, h.loading name⟩
  · rw [hcount, List.length_append, Loader.names, List.length_map, Loader.inFlight]
  · rcases List.mem_append.1 hname with hattached | hstranded
    · exact hlive name hattached
    · exact h.hung name hstranded

-- The page may change around the loader as long as its listeners stay.
theorem of_page {after : Page} (h : loader.Watchful self stranded page)
    (hlisteners : after.listeners = page.listeners) : loader.Watchful self stranded after where
  nodup := h.nodup
  loading := h.loading
  hung := h.hung
  watched := by
    unfold Page.Watches
    rw [hlisteners]
    exact h.watched
  heard := by
    rw [hlisteners]
    exact h.heard

section Load

theorem prune (h : loader.Watchful self stranded page) :
    (loader.prune self page).1.Watchful self stranded (loader.prune self page).2 ∧
      ∀ name ∈ (loader.prune self page).1.names,
        (loader.prune self page).1.cache.state name = .loading := by
  have hpage : page.Change (fun _ => False) (fun _ => True) (fun _ => True)
      (loader.prune self page).2 := .prune self loader
  have hlive : ∀ name n, (name, n) ∈ (loader.prune self page).1.attached ↔
      (name, n) ∈ loader.attached ∧ loader.cache.state name = .loading := by
    intro name n
    simp [Loader.prune]
  have hnames : (loader.prune self page).1.names.Sublist loader.names :=
    List.filter_sublist.map Prod.fst
  refine ⟨⟨h.nodup.sublist (hnames.append_right _), ?_, h.hung, ?_, ?_⟩, ?_⟩
  · intro name hname
    rcases List.mem_append.1 (h.loading name hname) with hattached | hstranded
    · obtain ⟨⟨name, n⟩, hmem, rfl⟩ := List.mem_map.1 hattached
      exact List.mem_append_left _ (List.mem_map.2 ⟨(name, n), (hlive name n).2 ⟨hmem, hname⟩, rfl⟩)
    · exact List.mem_append_right _ hstranded
  · intro name n hmem _
    obtain ⟨hattached, hloading⟩ := (hlive name n).1 hmem
    obtain ⟨harrive, hfail⟩ := h.watched name n hattached hloading
    have hgone : ∀ listener, Listener.loadOf? self listener = some name → ∀ attachment ∈
        loader.attached.filter fun attachment => !(loader.cache.state attachment.1 == .loading),
        Listener.loadOf? self listener ≠ some attachment.1 := by
      intro listener hlistener attachment hattachment heq
      have hstate := (List.mem_filter.1 hattachment).2
      rw [← Option.some.inj (hlistener.symm.trans heq), hloading] at hstate
      cases hstate
    exact ⟨mem_listeners_detachAll harrive (hgone _ (if_pos rfl)),
      mem_listeners_detachAll hfail (hgone _ (if_pos rfl))⟩
  · intro target listener hlistener
    exact h.heard target listener ((hpage.listeners target listener hlistener).resolve_right id)
  · intro name hname
    obtain ⟨⟨name, n⟩, hmem, rfl⟩ := List.mem_map.1 hname
    exact ((hlive name n).1 hmem).2

-- As long as they have no image, the loads that are to be started are stranded.
theorem request (h : loader.Watchful self stranded page)
    (hlive : ∀ name ∈ loader.names, loader.cache.state name = .loading) (names : List String) :
    Watchful self ((loader.cache.request names).1 ++ stranded)
        { loader with cache := (loader.cache.request names).2 } page ∧
      ∀ name ∈ loader.names, (loader.cache.request names).2.state name = .loading := by
  have hkeeps : ∀ name, loader.cache.state name = .loading →
      (loader.cache.request names).2.state name = .loading := by
    intro name hname
    rw [Cache.state_eq_loading_iff] at hname ⊢
    rw [Cache.find_request, hname, Option.some_or]
  have hnew : ∀ name, (loader.cache.request names).2.state name = .loading →
      loader.cache.state name = .loading ∨ name ∈ (loader.cache.request names).1 := by
    intro name hname
    rw [Cache.mem_request, Cache.state_eq_unknown_iff]
    rw [Cache.state_eq_loading_iff, Cache.find_request] at hname
    cases hentry : loader.cache.find? name with
    | some entry =>
      rw [hentry, Option.some_or] at hname
      exact .inl (Cache.state_eq_loading_iff.2 (hentry.trans hname))
    | none =>
      rw [hentry, Option.none_or] at hname
      split at hname
      · rename_i hmem
        exact .inr ⟨hmem, rfl⟩
      · cases hname
  have hunknown : ∀ name ∈ (loader.cache.request names).1, loader.cache.state name = .unknown :=
    fun name hname => (loader.cache.mem_request.1 hname).2
  refine ⟨⟨?_, ?_, ?_, ?_, ?_⟩, fun name hname =>
    hkeeps name (hlive name hname)⟩
  · refine List.nodup_append.2 ⟨(List.nodup_append.1 h.nodup).1, ?_, ?_⟩
    · refine List.nodup_append.2 ⟨loader.cache.nodup_request names,
        (List.nodup_append.1 h.nodup).2.1, ?_⟩
      rintro name hname other hother rfl
      have hstate := h.hung name hother
      rw [hunknown name hname] at hstate
      cases hstate
    · rintro name hname other hother rfl
      rcases List.mem_append.1 hother with hstarted | hstranded
      · have hstate := hlive name hname
        rw [hunknown name hstarted] at hstate
        cases hstate
      · exact h.notMem_stranded hname hstranded
  · intro name hname
    rcases hnew name hname with hold | hstarted
    · rcases List.mem_append.1 (h.loading name hold) with hattached | hstranded
      · exact List.mem_append_left _ hattached
      · exact List.mem_append_right _ (List.mem_append_right _ hstranded)
    · exact List.mem_append_right _ (List.mem_append_left _ hstarted)
  · intro name hname
    rcases List.mem_append.1 hname with hstarted | hstranded
    · have hmem := loader.cache.mem_request.1 hstarted
      rw [Cache.state_eq_unknown_iff] at hmem
      rw [Cache.state_eq_loading_iff, Cache.find_request, hmem.2, Option.none_or, if_pos hmem.1]
    · exact hkeeps name (h.hung name hstranded)
  · intro name n hmem _
    exact h.watched name n hmem (hlive name (List.mem_map.2 ⟨(name, n), hmem, rfl⟩))
  · intro target listener hlistener name hname
    obtain ⟨hknown, hstranded⟩ := h.heard target listener hlistener name hname
    refine ⟨?_, fun hmem => ?_⟩
    · rw [Ne, Cache.state_eq_unknown_iff] at hknown ⊢
      exact loader.cache.knows_request (.inl hknown)
    · rcases List.mem_append.1 hmem with hstarted | hmem
      · exact hknown (hunknown name hstarted)
      · exact hstranded hmem

-- An image is made for the first of the loads that have none.
theorem attach {name : String} {after : Page} {image : Image}
    (h : loader.Watchful self (name :: stranded) page)
    (himage : image.listeners =
      [.arrive self name page.images.length, .fail self name page.images.length])
    (hafter : page.addImage image = .ok after) :
    Watchful self stranded
      { loader with attached := loader.attached ++ [(name, page.images.length)] } after := by
  have hlisteners := listeners_addImage hafter
  have hname : name ∉ stranded :=
    (List.nodup_cons.1 (List.nodup_append.1 h.nodup).2.1).1
  have hold : ∀ target, ∀ listener ∈ page.listeners target, listener ∈ after.listeners target := by
    intro target listener hlistener
    rw [hlisteners, if_neg]
    · exact hlistener
    · rintro rfl
      simp [Page.listeners] at hlistener
  have hnames : Loader.names { loader with
      attached := loader.attached ++ [(name, page.images.length)] } ++ stranded =
        loader.names ++ name :: stranded := by
    simp [Loader.names]
  refine ⟨hnames ▸ h.nodup, hnames ▸ h.loading,
    fun other hother => h.hung other (List.mem_cons_of_mem _ hother), ?_, ?_⟩
  · intro other n hmem hother
    rcases List.mem_append.1 hmem with hmem | hmem
    · obtain ⟨harrive, hfail⟩ := h.watched other n hmem hother
      exact ⟨hold _ _ harrive, hold _ _ hfail⟩
    · cases List.mem_singleton.1 hmem
      unfold Page.Watches
      rw [hlisteners, if_pos rfl, himage]
      simp
  · intro target listener hlistener other hother
    rw [hlisteners] at hlistener
    split at hlistener
    · have hloads : other = name := by
        rw [himage] at hlistener
        simp only [List.mem_cons, List.not_mem_nil, or_false] at hlistener
        rcases hlistener with rfl | rfl <;> simpa [Listener.loadOf?, eq_comm] using hother
      subst hloads
      refine ⟨?_, hname⟩
      rw [h.hung other List.mem_cons_self]
      intro hunknown
      cases hunknown
    · obtain ⟨hknown, hstranded⟩ := h.heard target listener hlistener other hother
      exact ⟨hknown, fun hmem => hstranded (List.mem_cons_of_mem _ hmem)⟩

-- Starting goes on up to the first image that cannot be made. What is left then stays stranded.
theorem start {names : List String} (h : loader.Watchful self (names ++ stranded) page)
    (hlive : ∀ name ∈ loader.names, loader.cache.state name = .loading) :
    let result := Loader.start self loader page names
    ∃ left, result.2.1.Watchful self (left ++ stranded) result.2.2 ∧
      (∀ name ∈ result.2.1.names, result.2.1.cache.state name = .loading) ∧
      (left = [] ↔ result.1.isOk) := by
  induction names generalizing loader page with
  | nil => exact ⟨[], h, hlive, by simp [Loader.start, Except.isOk, Except.toBool]⟩
  | cons name rest ih =>
    unfold Loader.start
    simp only
    split
    · exact ⟨name :: rest, h, hlive, by simp [Except.isOk, Except.toBool]⟩
    · rename_i after hafter
      refine ih (h.attach rfl hafter) fun other hother => ?_
      rw [Loader.names, List.map_append, List.mem_append] at hother
      rcases hother with hold | hnew
      · exact hlive other hold
      · rw [List.map_singleton, List.mem_singleton] at hnew
        exact h.hung other (hnew ▸ List.mem_cons_self)

theorem load (h : loader.Watchful self stranded page) (names : List String) :
    let result := loader.load self page names
    ∃ left, result.2.1.Watchful self (left ++ stranded) result.2.2 ∧
      (∀ name ∈ result.2.1.names, result.2.1.cache.state name = .loading) ∧
      (left = [] ↔ result.1.isOk) := by
  intro result
  obtain ⟨hpruned, hlive⟩ := h.prune
  obtain ⟨hrequested, hlive⟩ := hpruned.request hlive names
  obtain ⟨left, hstarted, hlive, hleft⟩ := hrequested.start hlive
  refine ⟨left, hstarted, hlive, hleft.trans ?_⟩
  simp only [result, Loader.load]
  cases (Loader.start ..).1 <;> rfl

end Load

end Loader.Watchful

end CodePanel
