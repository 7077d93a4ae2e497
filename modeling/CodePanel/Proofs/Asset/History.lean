import CodePanel.Proofs.Asset.Names

namespace CodePanel.Asset

def Entry.asset? : Entry α → Option α
  | .loaded asset => some asset
  | _ => none

-- How a call ends the load of an asset, if that is what it does.
def Operation.settlement? (id : String) : Operation α κ → Option (Entry α)
  | .loaded other asset => if other = id then some (.loaded asset) else none
  | .failed other => if other = id then some .failed else none
  | _ => none

def Operation.asksFor (id : String) : Operation α κ → Bool
  | .request ids => ids.contains id
  | _ => false

-- The first end of an asset's load in a run.
def settlement? (id : String) (operations : List (Operation α κ)) : Option (Entry α) :=
  operations.findSome? (Operation.settlement? id)

-- A load starts and ends once. It may also end without having been started.
inductive LoadState.Moves : LoadState → LoadState → Prop where
  | stays (state : LoadState) : Moves state state
  | starts : Moves .unknown .loading
  | arrives {state : LoadState} (h : state = .unknown ∨ state = .loading) : Moves state .loaded
  | fails {state : LoadState} (h : state = .unknown ∨ state = .loading) : Moves state .failed

-- The loads that a call tells to start.
def Cache.started (cache : Cache α κ) : Operation α κ → List String
  | .request ids => (cache.request ids).1
  | _ => []

def Cache.startedAll (cache : Cache α κ) : List (Operation α κ) → List String
  | [] => []
  | operation :: rest =>
    cache.started operation ++ (cache.perform operation).after.startedAll rest

theorem isLoading_settlement {id : String} {operation : Operation α κ} {entry : Entry α}
    (h : operation.settlement? id = some entry) : entry.isLoading = false := by
  cases operation with
  | request ids => cases h
  | loaded other asset =>
    simp only [Operation.settlement?] at h
    split at h
    · cases h
      rfl
    · cases h
  | failed other =>
    simp only [Operation.settlement?] at h
    split at h
    · cases h
      rfl
    · cases h
  | onReady callback => cases h

theorem isLoading_of_settlement {id : String} {operations : List (Operation α κ)} {entry : Entry α}
    (h : settlement? id operations = some entry) : entry.isLoading = false := by
  obtain ⟨operation, _, hoperation⟩ := List.exists_of_findSome?_eq_some h
  exact isLoading_settlement hoperation

namespace Cache

variable (cache : Cache α κ)

theorem isSettled_iff {id : String} :
    cache.isSettled id ↔ ∃ entry, cache.find? id = some entry ∧ entry.isLoading = false := by
  unfold isSettled state
  cases cache.find? id with
  | none => simp
  | some entry => cases entry <;> simp [Entry.state, Entry.isLoading]

theorem state_of_find {id : String} {entry : Entry α} (h : cache.find? id = some entry) :
    cache.state id = entry.state := by
  simp only [state, h]

theorem get_eq_asset (id : String) : cache.get? id = (cache.find? id).bind Entry.asset? := by
  unfold get?
  cases cache.find? id with
  | none => rfl
  | some entry => cases entry <;> rfl

section Settle

theorem settle_of_isSettled {id : String} (h : cache.isSettled id) (entry : Entry α) :
    cache.settle id entry = ([], cache) :=
  if_pos h

theorem find_settle_eq (id other : String) (entry : Entry α) :
    (cache.settle id entry).2.find? other =
      if id = other ∧ cache.isSettled id = false then some entry else cache.find? other := by
  have hput := cache.find_put id other entry
  by_cases hsettled : cache.isSettled id
  · simp [cache.settle_of_isSettled hsettled, hsettled]
  · have hentry : (cache.settle id entry).2.find? other =
        (cache.put id entry).find? other := by
      simp only [settle, hsettled, Bool.false_eq_true, if_false]
      split <;> rfl
    rw [hentry, hput]
    simp [hsettled]

end Settle

section Perform

variable (operation : Operation α κ) (id : String)

-- All that a call can do to what is known of an asset.
theorem find_perform :
    (cache.perform operation).after.find? id =
      if cache.isSettled id then cache.find? id
      else (operation.settlement? id).or
        ((cache.find? id).or (if operation.asksFor id then some .loading else none)) := by
  have hsettle : ∀ other entry, (cache.settle other entry).2.find? id =
      if cache.isSettled id then cache.find? id
      else (if other = id then some entry else none).or (cache.find? id) := by
    intro other entry
    rw [find_settle_eq]
    by_cases hother : other = id
    · subst hother
      by_cases hsettled : cache.isSettled other <;> simp [hsettled]
    · simp [hother]
  cases operation with
  | request ids =>
    have hrequest := cache.find_request ids id
    simp only [perform, Operation.settlement?, Operation.asksFor, Option.none_or,
      List.contains_eq_mem, decide_eq_true_eq, hrequest]
    by_cases hsettled : cache.isSettled id
    · obtain ⟨entry, hentry, _⟩ := cache.isSettled_iff.1 hsettled
      rw [if_pos hsettled, hentry, Option.some_or]
    · rw [if_neg hsettled]
  | loaded other asset =>
    simpa [perform, markLoaded, Operation.settlement?, Operation.asksFor] using hsettle other _
  | failed other =>
    simpa [perform, markFailed, Operation.settlement?, Operation.asksFor] using hsettle other _
  | onReady callback =>
    have hentry : (cache.onReady callback).2.find? id = cache.find? id := by
      unfold onReady
      split <;> rfl
    simp [perform, hentry, Operation.settlement?, Operation.asksFor]

theorem find_perform_of_isSettled {id : String} (h : cache.isSettled id) :
    (cache.perform operation).after.find? id = cache.find? id := by
  rw [find_perform, if_pos h]

theorem state_moves :
    LoadState.Moves (cache.state id) ((cache.perform operation).after.state id) := by
  by_cases hsettled : cache.isSettled id
  · have hstate : (cache.perform operation).after.state id = cache.state id := by
      simp only [state, cache.find_perform_of_isSettled operation hsettled]
    rw [hstate]
    exact .stays _
  · have hbefore : cache.state id = .unknown ∨ cache.state id = .loading := by
      simp only [isSettled, Bool.or_eq_true, decide_eq_true_eq, not_or] at hsettled
      cases hstate : cache.state id <;> simp_all
    have hafter := cache.find_perform operation id
    rw [if_neg hsettled] at hafter
    cases hsettlement : operation.settlement? id with
    | some entry =>
      rw [hsettlement, Option.some_or] at hafter
      rw [state_of_find _ hafter]
      have hloading := isLoading_settlement hsettlement
      cases entry with
      | loading => cases hloading
      | loaded asset => exact .arrives hbefore
      | failed => exact .fails hbefore
    | none =>
      rw [hsettlement, Option.none_or] at hafter
      rcases hbefore with hunknown | hloading
      · rw [hunknown]
        rw [state_eq_unknown_iff.1 hunknown, Option.none_or] at hafter
        split at hafter
        · rw [state_of_find _ hafter]
          exact .starts
        · rw [state_eq_unknown_iff.2 hafter]
          exact .stays _
      · rw [hloading]
        rw [state_eq_loading_iff.1 hloading, Option.some_or] at hafter
        rw [state_of_find _ hafter]
        exact .stays _

-- A load that has ended once cannot end again.
theorem perform_of_isSettled {id : String} (h : cache.isSettled id)
    (hoperation : (operation.settlement? id).isSome) :
    cache.perform operation = ⟨operation, [], cache⟩ := by
  cases operation with
  | request ids => cases hoperation
  | loaded other asset =>
    have hother : other = id := by
      by_contra hne
      simp [Operation.settlement?, hne] at hoperation
    subst hother
    simp only [perform, markLoaded, cache.settle_of_isSettled h]
  | failed other =>
    have hother : other = id := by
      by_contra hne
      simp [Operation.settlement?, hne] at hoperation
    subst hother
    simp only [perform, markFailed, cache.settle_of_isSettled h]
  | onReady callback => cases hoperation

end Perform

theorem performAll_append (earlier later : List (Operation α κ)) :
    cache.performAll (earlier ++ later) = (cache.performAll earlier).performAll later := by
  induction earlier generalizing cache with
  | nil => rfl
  | cons operation rest ih => exact ih _

-- Induction over the run: a load that has ended stays so, and one that goes on is as it would be
-- if the first call had come before the run.
theorem find_performAll (operations : List (Operation α κ)) (id : String) :
    (cache.performAll operations).find? id =
      if cache.isSettled id then cache.find? id
      else (settlement? id operations).or ((cache.find? id).or
        (if operations.any (Operation.asksFor id) then some .loading else none)) := by
  induction operations generalizing cache with
  | nil => simp [performAll, settlement?]
  | cons operation rest ih =>
    have hstep := cache.find_perform operation id
    rw [performAll, ih]
    by_cases hsettled : cache.isSettled id
    · rw [if_pos hsettled] at hstep ⊢
      have hafter : (cache.perform operation).after.isSettled id := by
        rw [isSettled_iff, hstep]
        exact cache.isSettled_iff.1 hsettled
      rw [if_pos hafter, hstep]
    · rw [if_neg hsettled] at hstep ⊢
      cases hsettlement : operation.settlement? id with
      | some entry =>
        rw [hsettlement, Option.some_or] at hstep
        have hafter : (cache.perform operation).after.isSettled id :=
          (isSettled_iff _).2 ⟨entry, hstep, isLoading_settlement hsettlement⟩
        rw [if_pos hafter, hstep]
        simp [settlement?, hsettlement]
      | none =>
        rw [hsettlement, Option.none_or] at hstep
        have hafter : ¬(cache.perform operation).after.isSettled id := by
          rw [isSettled_iff, hstep]
          rw [isSettled_iff] at hsettled
          rintro ⟨entry, hentry, hloading⟩
          cases hold : cache.find? id with
          | some old =>
            rw [hold, Option.some_or] at hentry
            exact hsettled ⟨entry, hold.trans hentry, hloading⟩
          | none =>
            rw [hold, Option.none_or] at hentry
            split at hentry
            · cases hentry
              cases hloading
            · cases hentry
        rw [if_neg hafter, hstep]
        simp only [settlement?, List.findSome?_cons, hsettlement, List.any_cons, Bool.or_eq_true]
        by_cases hask : operation.asksFor id <;> simp [hask]

theorem find_performAll_empty (operations : List (Operation α κ)) (id : String) :
    ((empty : Cache α κ).performAll operations).find? id =
      (settlement? id operations).or
        (if operations.any (Operation.asksFor id) then some .loading else none) :=
  (empty : Cache α κ).find_performAll operations id

theorem isSettled_performAll_empty (operations : List (Operation α κ)) (id : String) :
    ((empty : Cache α κ).performAll operations).isSettled id ↔
      (settlement? id operations).isSome := by
  rw [isSettled_iff, find_performAll_empty]
  cases hsettlement : settlement? id operations with
  | some entry => simpa using isLoading_of_settlement hsettlement
  | none =>
    rw [Option.none_or]
    split <;> simp [Entry.isLoading]

section Started

-- A load is started for a name that has not been heard of, where it first occurs.
theorem request_eq (ids : List String) :
    (cache.request ids).1 = (ids.filter (cache.state · = .unknown)).eraseDups := by
  fun_induction cache.request ids
  case case1 => rfl
  case case2 cache id rest entry hentry ih =>
    have hknown : cache.state id ≠ .unknown := by
      rw [Ne, state_eq_unknown_iff, hentry]
      exact Option.some_ne_none entry
    rw [List.filter_cons_of_neg (by simpa using hknown)]
    exact ih
  case case3 cache id rest hnone later ih =>
    have hunknown : cache.state id = .unknown := state_eq_unknown_iff.2 hnone
    rw [List.filter_cons_of_pos (by simpa using hunknown), List.eraseDups_cons, List.filter_filter]
    refine congrArg (id :: ·) (ih.trans ?_)
    refine congrArg List.eraseDups (List.filter_congr fun other _ => ?_)
    rw [Bool.eq_iff_iff]
    simp only [decide_eq_true_eq, Bool.and_eq_true, Bool.not_eq_true', beq_eq_false_iff_ne,
      state_eq_unknown_iff, find_put]
    by_cases hother : id = other
    · simp [hother]
    · simp [hother, Ne.symm hother]

theorem mem_request {ids : List String} {id : String} :
    id ∈ (cache.request ids).1 ↔ id ∈ ids ∧ cache.state id = .unknown := by
  rw [request_eq, List.mem_eraseDups, List.mem_filter, decide_eq_true_eq]

theorem nodup_request (ids : List String) : (cache.request ids).1.Nodup := by
  fun_induction cache.request ids
  case case1 => exact List.nodup_nil
  case case2 ih => exact ih
  case case3 cache id rest hnone later ih =>
    refine List.nodup_cons.2 ⟨fun hid => ?_, ih⟩
    have hunknown := (mem_request _).1 hid
    rw [state_eq_unknown_iff, find_put, if_pos rfl] at hunknown
    cases hunknown.2

theorem mem_started {operation : Operation α κ} {id : String} :
    id ∈ cache.started operation ↔ operation.asksFor id ∧ cache.state id = .unknown := by
  cases operation with
  | request ids => simp [started, mem_request, Operation.asksFor]
  | _ => simp [started, Operation.asksFor]

theorem nodup_started (operation : Operation α κ) : (cache.started operation).Nodup := by
  cases operation with
  | request ids => exact cache.nodup_request ids
  | _ => exact List.nodup_nil

theorem state_perform_ne_unknown {operation : Operation α κ} {id : String}
    (h : cache.state id ≠ .unknown ∨ operation.asksFor id) :
    (cache.perform operation).after.state id ≠ .unknown := by
  rw [Ne, state_eq_unknown_iff, find_perform]
  rw [Ne, state_eq_unknown_iff] at h
  split
  · rename_i hsettled
    obtain ⟨entry, hentry, _⟩ := cache.isSettled_iff.1 hsettled
    simp [hentry]
  · rcases h with hknown | hask
    · simp [hknown]
    · simp [hask]

theorem state_of_mem_startedAll {operations : List (Operation α κ)} {id : String}
    (h : id ∈ cache.startedAll operations) : cache.state id = .unknown := by
  induction operations generalizing cache with
  | nil => cases h
  | cons operation rest ih =>
    rcases List.mem_append.1 h with hnow | hlater
    · exact (cache.mem_started.1 hnow).2
    · by_contra hknown
      exact cache.state_perform_ne_unknown (.inl hknown) (ih _ hlater)

theorem nodup_startedAll (operations : List (Operation α κ)) :
    (cache.startedAll operations).Nodup := by
  induction operations generalizing cache with
  | nil => exact List.nodup_nil
  | cons operation rest ih =>
    refine List.nodup_append.2 ⟨cache.nodup_started operation, ih _, ?_⟩
    rintro id hnow other hlater rfl
    exact cache.state_perform_ne_unknown (.inr (cache.mem_started.1 hnow).1)
      (state_of_mem_startedAll _ hlater)

-- A load that is under way was so from the beginning, or has been started in the run.
theorem mem_startedAll_of_loading {operations : List (Operation α κ)} {id : String}
    (h : (cache.performAll operations).state id = .loading) :
    cache.state id = .loading ∨ id ∈ cache.startedAll operations := by
  induction operations generalizing cache with
  | nil => exact .inl h
  | cons operation rest ih =>
    rcases ih _ h with hafter | hlater
    · cases hbefore : cache.state id with
      | loading => exact .inl rfl
      | unknown =>
        right
        refine List.mem_append_left _ (cache.mem_started.2 ⟨?_, hbefore⟩)
        by_contra hask
        rw [state_eq_loading_iff, find_perform, state_eq_unknown_iff.1 hbefore] at hafter
        split at hafter
        · cases hafter
        · rw [Option.or_none, Option.or_none] at hafter
          have hloading := isLoading_settlement hafter
          cases hloading
      | loaded =>
        have hmoves := cache.state_moves operation id
        rw [hbefore, hafter] at hmoves
        cases hmoves
      | failed =>
        have hmoves := cache.state_moves operation id
        rw [hbefore, hafter] at hmoves
        cases hmoves
    · exact .inr (List.mem_append_right _ hlater)

theorem state_performAll_ne_unknown {operations : List (Operation α κ)} {id : String}
    (h : cache.state id ≠ .unknown ∨ id ∈ cache.startedAll operations) :
    (cache.performAll operations).state id ≠ .unknown := by
  induction operations generalizing cache with
  | nil => exact h.resolve_right List.not_mem_nil
  | cons operation rest ih =>
    apply ih
    rcases h with hknown | hstarted
    · exact .inl (cache.state_perform_ne_unknown (.inl hknown))
    · rcases List.mem_append.1 hstarted with hnow | hlater
      · exact .inl (cache.state_perform_ne_unknown (.inr (cache.mem_started.1 hnow).1))
      · exact .inr hlater

end Started

end Cache

theorem pending_performAll_empty (operations : List (Operation α κ)) :
    let started := (Cache.empty : Cache α κ).startedAll operations
    ((Cache.empty : Cache α κ).performAll operations).pending =
      started.length - started.countP (fun id => (settlement? id operations).isSome) := by
  intro started
  let cache := (Cache.empty : Cache α κ).performAll operations
  have hloading : ∀ id, id ∈ started.filter (cache.state · = .loading) ↔
      cache.state id = .loading := by
    intro id
    simp only [List.mem_filter, decide_eq_true_eq, and_iff_right_iff_imp]
    intro hstate
    exact (Cache.empty.mem_startedAll_of_loading hstate).resolve_left nofun
  have hpending : cache.pending = started.countP (cache.state · = .loading) := by
    rw [List.countP_eq_length_filter]
    exact cache.pending_eq_length ((Cache.empty.nodup_startedAll operations).filter _) hloading
  have hrest : started.countP (fun id => decide ¬(decide (cache.state id = .loading)) = true) =
      started.countP (fun id => (settlement? id operations).isSome) := by
    refine List.countP_congr fun id hid => ?_
    have hknown : cache.state id ≠ .unknown :=
      Cache.empty.state_performAll_ne_unknown (.inr hid)
    rw [← Cache.isSettled_performAll_empty]
    simp only [Cache.isSettled, decide_eq_true_eq, Bool.or_eq_true]
    cases hstate : cache.state id <;> simp_all [cache]
  have hlength := List.length_eq_countP_add_countP (cache.state · = .loading) (l := started)
  have hgoal : cache.pending =
    started.length - started.countP (fun id => (settlement? id operations).isSome) := by omega
  exact hgoal

-- An asset is loaded at most once in a run, and the first end of its load is final. A call starts
-- the loads that are not known yet, and as many are pending as were started and have not ended.
theorem Cache.assets_settle_once (operations : List (Operation α κ)) :
    let cache := (Cache.empty : Cache α κ).performAll operations
    let started := (Cache.empty : Cache α κ).startedAll operations
    started.Nodup ∧
      (∀ ids, (cache.request ids).1 = (ids.filter (cache.state · = .unknown)).eraseDups) ∧
      (∀ operation id,
        LoadState.Moves (cache.state id) ((cache.perform operation).after.state id)) ∧
      (∀ id entry, settlement? id operations = some entry →
        cache.state id = entry.state ∧ cache.get? id = entry.asset? ∧
          ∀ operation : Operation α κ, (operation.settlement? id).isSome →
            cache.perform operation = ⟨operation, [], cache⟩) ∧
      (∀ id, settlement? id operations = none →
        (cache.state id = .unknown ∨ cache.state id = .loading) ∧ cache.get? id = none) ∧
      cache.pending =
        started.length - started.countP (fun id => (settlement? id operations).isSome) := by
  intro cache started
  refine ⟨empty.nodup_startedAll operations, cache.request_eq, cache.state_moves, ?_, ?_,
    pending_performAll_empty operations⟩
  · intro id entry hsettlement
    have hentry : cache.find? id = some entry := by
      rw [find_performAll_empty, hsettlement, Option.some_or]
    have hsettled : cache.isSettled id :=
      cache.isSettled_iff.2 ⟨entry, hentry, isLoading_of_settlement hsettlement⟩
    refine ⟨cache.state_of_find hentry, ?_, fun operation hoperation => ?_⟩
    · rw [get_eq_asset, hentry, Option.bind_some]
    · exact cache.perform_of_isSettled operation hsettled hoperation
  · intro id hsettlement
    have hentry := find_performAll_empty operations id
    rw [hsettlement, Option.none_or] at hentry
    rw [get_eq_asset]
    split at hentry
    · exact ⟨.inr (state_eq_loading_iff.2 hentry), by rw [hentry]; rfl⟩
    · exact ⟨.inl (state_eq_unknown_iff.2 hentry), by rw [hentry]; rfl⟩

end CodePanel.Asset
