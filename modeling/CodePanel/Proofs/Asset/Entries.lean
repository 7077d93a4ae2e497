import CodePanel.Asset.Cache

namespace CodePanel.Asset

theorem lookup_putEntry (id other : String) (entry : Entry α)
    (entries : List (String × Entry α)) :
    lookup? other (putEntry id entry entries) =
      if id = other then some entry else lookup? other entries := by
  induction entries with
  | nil => simp only [putEntry, lookup?]
  | cons head rest ih =>
    obtain ⟨first, old⟩ := head
    simp only [putEntry, lookup?]
    by_cases hfirst : first = id
    · subst hfirst
      by_cases hother : first = other <;> simp [lookup?, hother]
    · simp only [hfirst, if_false, lookup?, ih]
      by_cases hother : first = other
      · have hid : id ≠ other := by intro h; exact hfirst (hother.trans h.symm)
        simp [hother, hid]
      · simp [hother]

-- An entry that takes the place of none counts on its own.
theorem countP_putEntry_of_unknown (p : String × Entry α → Bool) (id : String) (entry : Entry α)
    (entries : List (String × Entry α)) (h : lookup? id entries = none) :
    (putEntry id entry entries).countP p = entries.countP p + if p (id, entry) then 1 else 0 := by
  induction entries with
  | nil => simp [putEntry, List.countP_cons]
  | cons head rest ih =>
    obtain ⟨first, old⟩ := head
    by_cases hfirst : first = id
    · simp [lookup?, hfirst] at h
    · simp only [lookup?, hfirst, if_false] at h
      simp only [putEntry, hfirst, if_false, List.countP_cons, ih h]
      omega

namespace Cache

variable (cache : Cache α κ)

def Knows (id : String) : Prop :=
  cache.find? id ≠ none

theorem find_put (id other : String) (entry : Entry α) :
    (cache.put id entry).find? other =
      if id = other then some entry else cache.find? other :=
  lookup_putEntry id other entry cache.entries

theorem find_request (ids : List String) (id : String) :
    (cache.request ids).2.find? id =
      (cache.find? id).or (if id ∈ ids then some .loading else none) := by
  fun_induction cache.request ids
  case case1 => simp
  case case2 cache other rest entry hentry ih =>
    rw [ih]
    by_cases hother : id = other
    · subst hother
      simp [hentry]
    · simp [hother]
  case case3 cache other rest hnone later ih =>
    rw [ih, find_put]
    by_cases hother : other = id
    · subst hother
      simp [hnone]
    · simp [hother, Ne.symm hother]

theorem knows_request {ids : List String} {id : String} (h : cache.Knows id ∨ id ∈ ids) :
    (cache.request ids).2.Knows id := by
  unfold Knows at h ⊢
  rw [find_request]
  rcases h with hknown | hmem
  · cases hentry : cache.find? id with
    | none => exact absurd hentry hknown
    | some entry => simp
  · cases cache.find? id <;> simp [hmem]

theorem find_of_loaded_request {ids : List String} {id : String} {asset : α}
    (h : (cache.request ids).2.find? id = some (.loaded asset)) :
    cache.find? id = some (.loaded asset) := by
  rw [find_request] at h
  cases hentry : cache.find? id with
  | some entry => simpa [hentry] using h
  | none =>
    rw [hentry] at h
    split at h <;> cases h

theorem get_eq_some {id : String} {asset : α} (h : cache.get? id = some asset) :
    cache.find? id = some (.loaded asset) := by
  unfold get? at h
  split at h
  · rename_i hentry
    rw [hentry, Option.some.inj h]
  · cases h

theorem pending_pos_of_loading {id : String} (h : cache.find? id = some .loading) :
    0 < cache.pending := by
  unfold find? at h
  unfold pending
  generalize cache.entries = entries at h ⊢
  induction entries with
  | nil => cases h
  | cons head rest ih =>
    obtain ⟨first, entry⟩ := head
    rw [List.countP_cons]
    unfold lookup? at h
    split at h
    · cases h
      simp [Entry.isLoading]
    · have hrest := ih h
      omega

theorem pending_put_le {entry : Entry α} (hentry : entry.isLoading = false) (id : String) :
    (cache.put id entry).pending ≤ cache.pending := by
  unfold put pending
  simp only
  induction cache.entries with
  | nil => simp [putEntry, hentry]
  | cons head rest ih =>
    obtain ⟨first, old⟩ := head
    unfold putEntry
    split
    · simp [List.countP_cons, hentry]
    · simp only [List.countP_cons]
      omega

theorem pending_put_loading (id : String) (h : cache.find? id = none) :
    (cache.put id .loading).pending = cache.pending + 1 :=
  countP_putEntry_of_unknown _ id .loading cache.entries h

@[simp] theorem waiting_request (ids : List String) :
    (cache.request ids).2.waiting = cache.waiting := by
  fun_induction cache.request ids
  case case1 => rfl
  case case2 ih => exact ih
  case case3 ih => exact ih

theorem pending_le_request (ids : List String) :
    cache.pending ≤ (cache.request ids).2.pending := by
  fun_induction cache.request ids
  case case1 => exact Nat.le_refl _
  case case2 ih => exact ih
  case case3 cache id rest hnone later ih =>
    have hput := cache.pending_put_loading id hnone
    exact Nat.le_trans (by omega) ih

-- A load that ends once more changes nothing, the last one sets the callbacks free, and any other
-- is only taken note of.
theorem settle_cases (id : String) (entry : Entry α) :
    cache.settle id entry = ([], cache) ∨
      (cache.settle id entry = (cache.waiting, { cache.put id entry with waiting := [] }) ∧
        0 < cache.pending ∧ (cache.put id entry).pending = 0) ∨
      (cache.settle id entry = ([], cache.put id entry) ∧ cache.isSettled id = false ∧
        (0 < cache.pending → 0 < (cache.put id entry).pending)) := by
  unfold settle
  by_cases hsettled : cache.isSettled id
  · exact .inl (if_pos hsettled)
  · rw [if_neg hsettled]
    by_cases hdrain : 0 < cache.pending ∧ (cache.put id entry).pending = 0
    · exact .inr (.inl ⟨if_pos hdrain, hdrain⟩)
    · exact .inr (.inr ⟨if_neg hdrain, by simpa using hsettled, by omega⟩)

theorem find_settle (id other : String) (entry : Entry α) :
    (cache.settle id entry).2.find? other = cache.find? other ∨
      (cache.settle id entry).2.find? other = some entry := by
  have hput := cache.find_put id other entry
  rcases cache.settle_cases id entry with heq | ⟨heq, _⟩ | ⟨heq, _⟩
  · exact .inl (by rw [heq])
  all_goals
    rw [heq]
    by_cases hid : id = other
    · exact .inr (hput.trans (if_pos hid))
    · exact .inl (hput.trans (if_neg hid))

theorem knows_settle {other : String} (h : cache.Knows other) (id : String) (entry : Entry α) :
    (cache.settle id entry).2.Knows other := by
  unfold Knows at h ⊢
  rcases cache.find_settle id other entry with hold | hnew
  · rwa [hold]
  · rw [hnew]
    exact Option.some_ne_none entry

theorem find_eq_none_of_ready {id : String} (hsettled : cache.isSettled id = false)
    (hpending : cache.pending = 0) : cache.find? id = none := by
  cases hentry : cache.find? id with
  | none => rfl
  | some entry =>
    cases entry with
    | loading =>
      have hpos := cache.pending_pos_of_loading hentry
      omega
    | loaded asset => simp [isSettled, state, hentry, Entry.state] at hsettled
    | failed => simp [isSettled, state, hentry, Entry.state] at hsettled

end Cache

end CodePanel.Asset
