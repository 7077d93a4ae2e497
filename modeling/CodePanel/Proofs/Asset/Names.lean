import CodePanel.Proofs.Asset.Delivery
import Mathlib.Data.List.Nodup

namespace CodePanel.Asset

theorem lookup_eq_some_iff {id : String} {entry : Entry α} {entries : List (String × Entry α)}
    (hnames : (entries.map Prod.fst).Nodup) :
    lookup? id entries = some entry ↔ (id, entry) ∈ entries := by
  induction entries with
  | nil => simp [lookup?]
  | cons head rest ih =>
    obtain ⟨first, old⟩ := head
    rw [List.map_cons, List.nodup_cons] at hnames
    by_cases hfirst : first = id
    · subst hfirst
      have hrest : (first, entry) ∉ rest := fun h => hnames.1 (List.mem_map.2 ⟨_, h, rfl⟩)
      simp [lookup?, hrest, eq_comm]
    · simp [lookup?, hfirst, Ne.symm hfirst, ih hnames.2]

namespace Cache

variable {cache : Cache α κ}

theorem state_eq_loading_iff {id : String} :
    cache.state id = .loading ↔ cache.find? id = some .loading := by
  unfold state
  cases cache.find? id with
  | none => simp
  | some entry => cases entry <;> simp [Entry.state]

theorem state_eq_loaded_iff {id : String} :
    cache.state id = .loaded ↔ ∃ asset, cache.get? id = some asset := by
  unfold state get?
  cases cache.find? id with
  | none => simp
  | some entry => cases entry <;> simp [Entry.state]

theorem state_eq_unknown_iff {id : String} :
    cache.state id = .unknown ↔ cache.find? id = none := by
  unfold state
  cases cache.find? id with
  | none => simp
  | some entry => cases entry <;> simp [Entry.state]

-- The pending loads are counted by any list that names each of them once.
theorem pending_eq_length (cache : Cache α κ) {names : List String} (hnames : names.Nodup)
    (hloading : ∀ id, id ∈ names ↔ cache.state id = .loading) :
    cache.pending = names.length := by
  let loading := (cache.entries.filter (·.2.isLoading)).map Prod.fst
  have hnodup : loading.Nodup :=
    List.Nodup.sublist (List.filter_sublist.map Prod.fst) cache.distinct
  have hmem : ∀ id, id ∈ loading ↔ id ∈ names := by
    intro id
    rw [hloading, state_eq_loading_iff, find?, lookup_eq_some_iff cache.distinct]
    simp only [loading, List.mem_map, List.mem_filter]
    constructor
    · rintro ⟨⟨name, entry⟩, ⟨hentry, hisLoading⟩, rfl⟩
      cases entry with
      | loading => exact hentry
      | _ => cases hisLoading
    · exact fun hentry => ⟨(id, .loading), ⟨hentry, rfl⟩, rfl⟩
  have hperm : loading.Perm names := (List.perm_ext_iff_of_nodup hnodup hnames).2 hmem
  rw [← hperm.length_eq, List.length_map, pending, List.countP_eq_length_filter]

end Cache

end CodePanel.Asset
