import CodePanel.Proofs.Asset.Entries

namespace CodePanel.Asset

-- The calls that change a cache.
inductive Operation (α κ : Type) where
  | request (ids : List String)
  | loaded (id : String) (asset : α)
  | failed (id : String)
  | onReady (callback : κ)

-- One call of a run, the callbacks it handed back and the cache it left.
structure Call (α κ : Type) where
  operation : Operation α κ
  handed : List κ
  after : Cache α κ

def Cache.perform (cache : Cache α κ) (operation : Operation α κ) : Call α κ :=
  match operation with
  | .request ids => ⟨operation, [], (cache.request ids).2⟩
  | .loaded id asset => ⟨operation, (cache.markLoaded id asset).1, (cache.markLoaded id asset).2⟩
  | .failed id => ⟨operation, (cache.markFailed id).1, (cache.markFailed id).2⟩
  | .onReady callback =>
    ⟨operation, (cache.onReady callback).1.toList, (cache.onReady callback).2⟩

def Cache.trace (cache : Cache α κ) : List (Operation α κ) → List (Call α κ)
  | [] => []
  | operation :: rest => cache.perform operation :: (cache.perform operation).after.trace rest

def Cache.performAll (cache : Cache α κ) : List (Operation α κ) → Cache α κ
  | [] => cache
  | operation :: rest => (cache.perform operation).after.performAll rest

namespace Call

variable (call : Call α κ)

-- The callback that the call brought in.
def registered : List κ :=
  match call.operation with
  | .onReady callback => [callback]
  | _ => []

-- The callback that the call brought in and did not hand straight back.
def queued : List κ :=
  if call.handed.isEmpty then call.registered else []

-- The callbacks of earlier calls that the call handed back.
def released : List κ :=
  match call.operation with
  | .onReady _ => []
  | _ => call.handed

end Call

-- The four ways in which one call can deal with the callbacks of a cache.
inductive Turn (cache : Cache α κ) : Call α κ → Prop where
  | kept (operation : Operation α κ) (after : Cache α κ)
      (hoperation : ∀ callback, operation ≠ .onReady callback)
      (hwaiting : after.waiting = cache.waiting)
      (hpending : 0 < cache.pending → 0 < after.pending) : Turn cache ⟨operation, [], after⟩
  | drained (operation : Operation α κ) (after : Cache α κ)
      (hoperation : ∀ callback, operation ≠ .onReady callback)
      (hwaiting : after.waiting = [])
      (hpending : after.pending = 0) : Turn cache ⟨operation, cache.waiting, after⟩
  | returned (callback : κ) (hpending : cache.pending = 0) :
      Turn cache ⟨.onReady callback, [callback], cache⟩
  | queued (callback : κ) (after : Cache α κ)
      (hwaiting : after.waiting = cache.waiting ++ [callback])
      (hpending : 0 < after.pending) : Turn cache ⟨.onReady callback, [], after⟩

theorem turn_settle (cache : Cache α κ) (operation : Operation α κ)
    (hoperation : ∀ callback, operation ≠ .onReady callback) (id : String) (entry : Entry α) :
    Turn cache ⟨operation, (cache.settle id entry).1, (cache.settle id entry).2⟩ := by
  rcases cache.settle_cases id entry with hsame | ⟨hdrain, _, hpending⟩ | ⟨hput, _, hpending⟩
  · rw [hsame]
    exact .kept operation cache hoperation rfl (fun hpending => hpending)
  · rw [hdrain]
    exact .drained operation _ hoperation rfl hpending
  · rw [hput]
    exact .kept operation _ hoperation rfl hpending

theorem turn_perform (cache : Cache α κ) (operation : Operation α κ) :
    Turn cache (cache.perform operation) := by
  cases operation with
  | request ids =>
    have hpending := cache.pending_le_request ids
    exact .kept _ _ (by simp) (cache.waiting_request ids) (by omega)
  | loaded id asset => exact turn_settle cache _ (by simp) id (.loaded asset)
  | failed id => exact turn_settle cache _ (by simp) id .failed
  | onReady callback =>
    simp only [Cache.perform, Cache.onReady, Cache.isReady]
    by_cases hpending : cache.pending = 0
    · simp only [hpending, decide_true, if_true]
      exact .returned callback hpending
    · simp only [hpending, decide_false, Bool.false_eq_true, if_false]
      exact .queued callback _ rfl (Nat.pos_of_ne_zero hpending)

section Call

variable {operation : Operation α κ} (hoperation : ∀ callback, operation ≠ .onReady callback)
include hoperation

theorem Call.registered_eq_nil (handed : List κ) (after : Cache α κ) :
    Call.registered ⟨operation, handed, after⟩ = [] := by
  cases operation with
  | onReady callback => exact absurd rfl (hoperation callback)
  | _ => rfl

theorem Call.released_eq_handed (handed : List κ) (after : Cache α κ) :
    Call.released ⟨operation, handed, after⟩ = handed := by
  cases operation with
  | onReady callback => exact absurd rfl (hoperation callback)
  | _ => rfl

end Call

section Turn

variable {cache : Cache α κ} {call : Call α κ} (turn : Turn cache call)
include turn

theorem Turn.registered_perm :
    (cache.waiting ++ call.registered).Perm (call.handed ++ call.after.waiting) := by
  cases turn with
  | kept operation after hoperation hwaiting =>
    simp [Call.registered_eq_nil hoperation, hwaiting]
  | drained operation after hoperation hwaiting =>
    simp [Call.registered_eq_nil hoperation, hwaiting]
  | returned callback => exact List.perm_append_comm
  | queued callback after hwaiting => simp [Call.registered, hwaiting]

theorem Turn.queue_balance :
    cache.waiting ++ call.queued = call.released ++ call.after.waiting := by
  unfold Call.queued
  cases turn with
  | kept operation after hoperation hwaiting =>
    simp [Call.registered_eq_nil hoperation, Call.released_eq_handed hoperation, hwaiting]
  | drained operation after hoperation hwaiting =>
    simp [Call.registered_eq_nil hoperation, Call.released_eq_handed hoperation, hwaiting]
  | returned callback => simp [Call.released]
  | queued callback after hwaiting => simp [Call.registered, Call.released, hwaiting]

theorem Turn.handed_onReady (callback : κ) (h : call.operation = .onReady callback) :
    call.handed = if call.after.isReady then [callback] else [] := by
  unfold Cache.isReady
  cases turn with
  | kept operation after hoperation => exact absurd h (hoperation callback)
  | drained operation after hoperation => exact absurd h (hoperation callback)
  | returned other hpending =>
    cases h
    simp [hpending]
  | queued other after hwaiting hpending => simp [Nat.ne_of_gt hpending]

theorem Turn.pending_of_handed (h : call.handed ≠ []) : call.after.pending = 0 := by
  cases turn with
  | kept => exact absurd rfl h
  | drained operation after hoperation hwaiting hpending => exact hpending
  | returned callback hpending => exact hpending
  | queued => exact absurd rfl h

theorem Turn.pending_of_waiting (hcache : cache.waiting ≠ [] → 0 < cache.pending)
    (h : call.after.waiting ≠ []) : 0 < call.after.pending := by
  cases turn with
  | kept operation after hoperation hwaiting hpending =>
    exact hpending (hcache (hwaiting ▸ h))
  | drained operation after hoperation hwaiting => exact absurd hwaiting h
  | returned callback => exact hcache h
  | queued callback after hwaiting hpending => exact hpending

end Turn

theorem registered_trace_perm (cache : Cache α κ) (operations : List (Operation α κ)) :
    (cache.waiting ++ (cache.trace operations).flatMap Call.registered).Perm
      ((cache.trace operations).flatMap Call.handed ++ (cache.performAll operations).waiting) := by
  induction operations generalizing cache with
  | nil => simp [Cache.trace, Cache.performAll]
  | cons operation rest ih =>
    have hstep := (turn_perform cache operation).registered_perm
    have hrest := ih (cache.perform operation).after
    simp only [Cache.trace, Cache.performAll, List.flatMap_cons, List.append_assoc]
    rw [← List.append_assoc]
    refine (hstep.append_right _).trans ?_
    rw [List.append_assoc]
    exact hrest.append_left _

theorem queue_trace_balance (cache : Cache α κ) (operations : List (Operation α κ)) :
    cache.waiting ++ (cache.trace operations).flatMap Call.queued =
      (cache.trace operations).flatMap Call.released ++ (cache.performAll operations).waiting := by
  induction operations generalizing cache with
  | nil => simp [Cache.trace, Cache.performAll]
  | cons operation rest ih =>
    have hstep := (turn_perform cache operation).queue_balance
    have hrest := ih (cache.perform operation).after
    simp only [Cache.trace, Cache.performAll, List.flatMap_cons]
    rw [← List.append_assoc, hstep, List.append_assoc, hrest, List.append_assoc]

-- Before every call of a run, callbacks wait only where loads do.
theorem turn_of_mem_trace (cache : Cache α κ) (hcache : cache.waiting ≠ [] → 0 < cache.pending)
    (operations : List (Operation α κ)) (call : Call α κ) (h : call ∈ cache.trace operations) :
    ∃ before, Turn before call ∧ (before.waiting ≠ [] → 0 < before.pending) := by
  induction operations generalizing cache with
  | nil => cases h
  | cons operation rest ih =>
    have turn := turn_perform cache operation
    rcases List.mem_cons.1 h with hhead | htail
    · exact ⟨cache, hhead ▸ turn, hcache⟩
    · exact ih _ (turn.pending_of_waiting hcache) htail

-- A callback that waited is handed back once, in its turn, by the call that ends the last load;
-- every other one is handed back by the call that brought it in. None waits in a ready cache.
theorem Cache.callbacks_delivered_once (operations : List (Operation α κ)) :
    let calls := (Cache.empty : Cache α κ).trace operations
    let waiting := ((Cache.empty : Cache α κ).performAll operations).waiting
    (calls.flatMap Call.registered).Perm (calls.flatMap Call.handed ++ waiting) ∧
      calls.flatMap Call.queued = calls.flatMap Call.released ++ waiting ∧
      ∀ call ∈ calls,
        (∀ callback, call.operation = .onReady callback →
          call.handed = if call.after.isReady then [callback] else []) ∧
        (call.handed ≠ [] → call.after.pending = 0) ∧
        (call.after.waiting ≠ [] → 0 < call.after.pending) := by
  intro calls waiting
  refine ⟨registered_trace_perm Cache.empty operations, queue_trace_balance Cache.empty operations,
    ?_⟩
  intro call hcall
  obtain ⟨before, turn, hbefore⟩ :=
    turn_of_mem_trace Cache.empty (fun h => absurd rfl h) operations call hcall
  exact ⟨turn.handed_onReady, turn.pending_of_handed, turn.pending_of_waiting hbefore⟩

-- Two callbacks wait for two loads, and a third one comes when both have ended.
def lateRun : List (Operation Nat String) :=
  [.request ["a", "b"], .onReady "draw", .loaded "a" 7, .onReady "log", .failed "b",
    .onReady "late"]

theorem callbacks_delivered_once_late_run :
    let calls := Cache.empty.trace lateRun
    calls.map Call.handed = [[], [], [], [], ["draw", "log"], ["late"]] ∧
      (calls.flatMap Call.registered).Perm ["draw", "log", "late"] ∧
      calls.flatMap Call.queued = calls.flatMap Call.released := by
  intro calls
  obtain ⟨hregistered, hqueued, -⟩ := Cache.callbacks_delivered_once lateRun
  have hwaiting : (Cache.empty.performAll lateRun).waiting = [] := rfl
  rw [hwaiting, List.append_nil] at hqueued
  exact ⟨by decide, hregistered, hqueued⟩

end CodePanel.Asset
