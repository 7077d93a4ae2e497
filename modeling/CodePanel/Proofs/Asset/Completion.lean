import CodePanel.Proofs.Asset.History

namespace CodePanel.Asset

-- How a load ends: with the asset, or without it.
def Entry.ofOutcome : Option α → Entry α
  | some asset => .loaded asset
  | none => .failed

-- The call that reports how the load of an asset has ended.
def reportOf (outcome : String → Option α) (id : String) : Operation α κ :=
  match outcome id with
  | some asset => .loaded id asset
  | none => .failed id

-- An order in which all loads that are under way can end.
structure Cache.EndsIn (cache : Cache α κ) (order : List String) : Prop where
  nodup : order.Nodup
  loading : ∀ id, id ∈ order ↔ cache.state id = .loading

variable (outcome : String → Option α)

theorem isLoading_ofOutcome (asset : Option α) : (Entry.ofOutcome asset).isLoading = false := by
  cases asset <;> rfl

theorem perform_report (cache : Cache α κ) (id : String) :
    cache.perform (reportOf outcome id) =
      ⟨reportOf outcome id, (cache.settle id (.ofOutcome (outcome id))).1,
        (cache.settle id (.ofOutcome (outcome id))).2⟩ := by
  unfold reportOf
  cases outcome id <;> rfl

theorem settlement_report (id other : String) :
    (reportOf outcome id : Operation α κ).settlement? other =
      if id = other then some (.ofOutcome (outcome id)) else none := by
  unfold reportOf
  cases outcome id <;> rfl

theorem asksFor_report (id other : String) :
    (reportOf outcome id : Operation α κ).asksFor other = false := by
  unfold reportOf
  cases outcome id <;> rfl

theorem settlement_reports (order : List String) (id : String) :
    settlement? id (order.map (reportOf outcome) : List (Operation α κ)) =
      if id ∈ order then some (.ofOutcome (outcome id)) else none := by
  induction order with
  | nil => rfl
  | cons first rest ih =>
    unfold settlement? at ih ⊢
    rw [List.map_cons, List.findSome?_cons, settlement_report]
    by_cases hfirst : first = id
    · simp [hfirst]
    · simp only [hfirst, if_false, ih, List.mem_cons, Ne.symm hfirst, false_or]

namespace Cache

variable {cache : Cache α κ} {order rest : List String} {id : String}

theorem EndsIn.put (h : cache.EndsIn (id :: rest)) {entry : Entry α}
    (hentry : entry.isLoading = false) : (cache.put id entry).EndsIn rest where
  nodup := (List.nodup_cons.1 h.nodup).2
  loading other := by
    rw [state_eq_loading_iff, find_put]
    by_cases hother : id = other
    · subst hother
      have hnot : id ∉ rest := (List.nodup_cons.1 h.nodup).1
      simp only [hnot, if_true, Option.some.injEq, false_iff]
      rintro rfl
      cases hentry
    · rw [if_neg hother, ← state_eq_loading_iff, ← h.loading]
      simp [Ne.symm hother]

-- Only the end of the last load hands out the callbacks.
theorem EndsIn.settle_eq (h : cache.EndsIn (id :: rest)) {entry : Entry α}
    (hentry : entry.isLoading = false) :
    cache.settle id entry =
      if rest = [] then (cache.waiting, { cache.put id entry with waiting := [] })
      else ([], cache.put id entry) := by
  have hbefore : 0 < cache.pending := by
    rw [cache.pending_eq_length h.nodup h.loading]
    exact Nat.succ_pos _
  have hafter : (cache.put id entry).pending = rest.length :=
    (cache.put id entry).pending_eq_length (h.put hentry).nodup (h.put hentry).loading
  have hsettled : ¬cache.isSettled id := by
    simp [isSettled, (h.loading id).1 List.mem_cons_self]
  simp only [settle, hsettled, hbefore, hafter, Bool.false_eq_true, if_false, true_and,
    List.length_eq_zero_iff]
  rfl

theorem EndsIn.handed_reports (h : cache.EndsIn order) (horder : order ≠ []) :
    (cache.trace (order.map (reportOf outcome))).map Call.handed =
        List.replicate (order.length - 1) [] ++ [cache.waiting] ∧
      (cache.performAll (order.map (reportOf outcome))).waiting = [] := by
  induction order generalizing cache with
  | nil => exact absurd rfl horder
  | cons id rest ih =>
    have hsettle := h.settle_eq (isLoading_ofOutcome (outcome id))
    simp only [List.map_cons, trace, performAll, perform_report, hsettle]
    cases rest with
    | nil => exact ⟨rfl, rfl⟩
    | cons next more =>
      have hrest := ih (h.put (isLoading_ofOutcome (outcome id))) (List.cons_ne_nil next more)
      simp only [reduceCtorEq, if_false, List.length_cons, Nat.add_sub_cancel,
        List.replicate_succ, List.cons_append] at hrest ⊢
      exact ⟨congrArg _ hrest.1, hrest.2⟩

theorem EndsIn.find_reports (h : cache.EndsIn order) (id : String) :
    (cache.performAll (order.map (reportOf outcome))).find? id =
      if cache.state id = .loading then some (.ofOutcome (outcome id)) else cache.find? id := by
  have hasks : (order.map (reportOf outcome) : List (Operation α κ)).any
      (Operation.asksFor id) = false := by
    simp [asksFor_report]
  rw [find_performAll, settlement_reports, hasks]
  simp only [h.loading]
  by_cases hloading : cache.state id = .loading
  · simp [isSettled, hloading]
  · simp [hloading]

-- Whatever the order, the same is known in the end of every asset, and the last call hands out all
-- the callbacks that waited.
theorem completion_order_irrelevant (hloading : ∃ id, cache.state id = .loading)
    {first second : List String} (hfirst : cache.EndsIn first) (hsecond : cache.EndsIn second) :
    let after order := cache.performAll (order.map (reportOf outcome))
    let handed order := (cache.trace (order.map (reportOf outcome))).map Call.handed
    (∀ id, (after first).state id = (after second).state id ∧
      (after first).get? id = (after second).get? id) ∧
    (after first).waiting = (after second).waiting ∧
    handed first = List.replicate (first.length - 1) [] ++ [cache.waiting] ∧
    handed second = List.replicate (second.length - 1) [] ++ [cache.waiting] := by
  intro after handed
  obtain ⟨id, hid⟩ := hloading
  have hrun := hfirst.handed_reports outcome (List.ne_nil_of_mem ((hfirst.loading id).2 hid))
  have hrun' := hsecond.handed_reports outcome (List.ne_nil_of_mem ((hsecond.loading id).2 hid))
  refine ⟨fun id => ?_, hrun.2.trans hrun'.2.symm, hrun.1, hrun'.1⟩
  have hentry : (after first).find? id = (after second).find? id :=
    (hfirst.find_reports outcome id).trans (hsecond.find_reports outcome id).symm
  exact ⟨by simp only [state, hentry], by simp only [get?, hentry]⟩

end Cache

-- Two loads under way, and two callbacks that wait for them.
def twoLoads : Cache Nat String :=
  Cache.empty.performAll [.request ["a", "b"], .onReady "draw", .onReady "log"]

theorem endsIn_twoLoads {order : List String} (h : order.Perm ["a", "b"]) :
    twoLoads.EndsIn order where
  nodup := h.nodup_iff.2 (by decide)
  loading id := by
    have hentry : twoLoads.find? id = if id ∈ ["a", "b"] then some .loading else none := by
      rw [twoLoads, Cache.find_performAll_empty]
      simp [settlement?, List.findSome?, Operation.settlement?, Operation.asksFor]
    rw [Cache.state_eq_loading_iff, hentry, h.mem_iff]
    split <;> simp_all

theorem completion_order_irrelevant_two_loads :
    let outcome id := if id = "a" then some 7 else none
    let handed order := (twoLoads.trace (order.map (reportOf outcome))).map Call.handed
    let after order := twoLoads.performAll (order.map (reportOf outcome))
    (after ["a", "b"]).state "b" = (after ["b", "a"]).state "b" ∧
      handed ["a", "b"] = [[], ["draw", "log"]] ∧ handed ["b", "a"] = [[], ["draw", "log"]] := by
  intro outcome handed after
  have hperm : ["b", "a"].Perm ["a", "b"] := List.Perm.swap ..
  have hloading : ∃ id, twoLoads.state id = .loading := ⟨"a", rfl⟩
  have horders := Cache.completion_order_irrelevant outcome hloading
    (endsIn_twoLoads (List.Perm.refl _)) (endsIn_twoLoads hperm)
  exact ⟨(horders.1 "b").1, horders.2.2.1, horders.2.2.2⟩

end CodePanel.Asset
