import CodePanel.Proofs.Session.Events
import CodePanel.Session.Step

namespace CodePanel

open Asset

-- What can happen to the shared loader: it is asked for images, images arrive or fail, callbacks
-- are left with it, and the browser begins or ceases to refuse images.
inductive LoadAction where
  | load (names : List String)
  | image (n : Nat) (type : String) (throws : Option Thrown)
  | onReady (name : String)
  | faults (given : Faults)

def LoadAction.command : LoadAction → SessionCommand
  | .load names => .load names
  | .image n type throws => .imageEvent n type throws
  | .onReady name => .onReady name
  | .faults given => .faults given

def SessionReply.isFailure : SessionReply → Bool
  | .failed _ => true
  | _ => false

namespace Asset.Cache

variable {cache : Cache α κ} {operations : List (Operation α κ)} {name : String}

-- Calls that ask for nothing can only end loads.
theorem state_performAll_loading_iff
    (h : ∀ operation ∈ operations, operation.asksFor name = false) :
    (cache.performAll operations).state name = .loading ↔
      cache.state name = .loading ∧ settlement? name operations = none := by
  have hasks : operations.any (Operation.asksFor name) = false := by simpa using h
  rw [state_eq_loading_iff, state_eq_loading_iff, find_performAll, hasks]
  by_cases hsettled : cache.isSettled name
  · obtain ⟨entry, hentry, hloading⟩ := cache.isSettled_iff.1 hsettled
    rw [if_pos hsettled, hentry]
    constructor
    · rintro ⟨⟩
      cases hloading
    · rintro ⟨⟨⟩, _⟩
      cases hloading
  · rw [if_neg hsettled]
    cases hsettlement : settlement? name operations with
    | none => simp
    | some entry =>
      simp only [Option.some_or, Option.some.injEq, reduceCtorEq, and_false, iff_false]
      rintro rfl
      cases isLoading_of_settlement hsettlement

theorem state_performAll_of_settlement {entry : Entry α} (hloading : cache.state name = .loading)
    (h : settlement? name operations = some entry) :
    (cache.performAll operations).state name = entry.state := by
  apply state_of_find
  rw [find_performAll, if_neg, h, Option.some_or]
  simp [isSettled, hloading]

end Asset.Cache

namespace Session

def perform (session : Session) (actions : List LoadAction) : Session :=
  session.run (actions.map LoadAction.command)

-- Whether every call of a run succeeds.
def Succeeds (session : Session) : List LoadAction → Prop
  | [] => True
  | action :: rest =>
    (session.step action.command).1.isFailure = false ∧
      (session.step action.command).2.Succeeds rest

def loadState? (session : Session) (name : String) : Option LoadState :=
  session.loader.map (·.cache.state name)

def loaderReady? (session : Session) : Option Bool :=
  session.loader.map (·.cache.isReady)

-- Both listeners of a load are on an image, and when the image arrives or fails, so does the load.
def Observes (session : Session) (name : String) : Prop :=
  ∃ n, session.page.Watches .shared name n ∧ ∀ throws,
    (session.perform [.image n "load" throws]).loadState? name = some .loaded ∧
      (session.perform [.image n "error" throws]).loadState? name = some .failed

-- The shared loader, with the loads that it will never hear of.
def Watchful (stranded : List String) (session : Session) : Prop :=
  ∃ loader, session.loader = some loader ∧ loader.Watchful .shared stranded session.page

variable {session : Session} {stranded : List String}

section Events

variable {target : Target} {type : String}

-- The calls that the shared loader makes when an event sets its listeners off.
def reports (session : Session) (target : Target) (type : String) : List (Operation Nat String) :=
  (session.roused target type).filterMap Listener.operation?

theorem asksFor_of_mem_reports {operation : Operation Nat String}
    (h : operation ∈ session.reports target type) (name : String) :
    operation.asksFor name = false := by
  obtain ⟨listener, _, hoperation⟩ := List.mem_filterMap.1 h
  unfold Listener.operation? at hoperation
  split at hoperation <;> cases hoperation <;> rfl

-- A load of which a report tells has a listener among those that were set off.
theorem exists_listener_of_report {name : String} {entry : Entry Nat}
    (h : settlement? name (session.reports target type) = some entry) :
    ∃ listener ∈ session.roused target type, listener.loadOf? .shared = some name ∧
      ((∃ n, listener = .arrive .shared name n ∧ entry = .loaded n) ∨
        ∃ n, listener = .fail .shared name n ∧ entry = .failed) := by
  obtain ⟨operation, hmem, hsettlement⟩ := List.exists_of_findSome?_eq_some h
  obtain ⟨listener, hlistener, hoperation⟩ := List.mem_filterMap.1 hmem
  refine ⟨listener, hlistener, ?_⟩
  unfold Listener.operation? at hoperation
  split at hoperation
  · rename_i other n
    cases hoperation
    simp only [Operation.settlement?] at hsettlement
    split at hsettlement
    · rename_i hother
      cases hsettlement
      subst hother
      exact ⟨rfl, .inl ⟨n, rfl, rfl⟩⟩
    · cases hsettlement
  · rename_i other n
    cases hoperation
    simp only [Operation.settlement?] at hsettlement
    split at hsettlement
    · rename_i hother
      cases hsettlement
      subst hother
      exact ⟨rfl, .inr ⟨n, rfl, rfl⟩⟩
    · cases hsettlement
  · cases hoperation

theorem settlement_ne_none {name : String} {listener : Listener}
    (h : listener ∈ session.roused target type) {operation : Operation Nat String}
    (hoperation : listener.operation? = some operation)
    (hsettlement : operation.settlement? name ≠ none) :
    settlement? name (session.reports target type) ≠ none := by
  intro hnone
  exact hsettlement (List.findSome?_eq_none_iff.1 hnone operation
    (List.mem_filterMap.2 ⟨listener, h, hoperation⟩))

-- A load that goes on has not had its listeners set off, so they are still there.
theorem watchful_dispatch {loader : Loader String}
    (h : loader.Watchful .shared stranded session.page) (event : Event) :
    (loader.advance (session.reports target type)).Watchful .shared stranded
      (session.dispatch target type event).page := by
  have hloading : ∀ name, (loader.advance (session.reports target type)).cache.state name =
      .loading ↔ loader.cache.state name = .loading ∧
        settlement? name (session.reports target type) = none := fun name =>
    Cache.state_performAll_loading_iff fun operation hmem => asksFor_of_mem_reports hmem name
  have harrive : ∀ name n, settlement? name (session.reports target type) = none →
      .arrive .shared name n ∉ session.roused target type := fun name n hnone hmem =>
    settlement_ne_none hmem rfl (by simp [Operation.settlement?]) hnone
  have hfail : ∀ name n, settlement? name (session.reports target type) = none →
      .fail .shared name n ∉ session.roused target type := fun name n hnone hmem =>
    settlement_ne_none hmem rfl (by simp [Operation.settlement?]) hnone
  refine ⟨h.nodup, fun name hname => ?_, fun name hname => ?_,
    fun name n hmem hname => ?_, fun other listener hlistener name hname => ?_⟩
  · exact h.loading name ((hloading name).1 hname).1
  · refine (hloading name).2 ⟨h.hung name hname, ?_⟩
    by_contra hsome
    obtain ⟨entry, hentry⟩ := Option.ne_none_iff_exists'.1 hsome
    obtain ⟨listener, hlistener, hload, _⟩ := exists_listener_of_report hentry
    exact (h.heard target listener (List.mem_filter.1 hlistener).1 name hload).2 hname
  · obtain ⟨hstate, hnone⟩ := (hloading name).1 hname
    obtain ⟨hold, hold'⟩ := h.watched name n hmem hstate
    exact ⟨mem_listeners_dispatch hold (harrive name n hnone),
      mem_listeners_dispatch hold' (hfail name n hnone)⟩
  · obtain ⟨hknown, hstranded⟩ :=
      h.heard other listener (mem_of_mem_listeners_dispatch hlistener) name hname
    exact ⟨loader.cache.state_performAll_ne_unknown (.inl hknown), hstranded⟩

end Events

section Steps

-- Every step starts with an empty log and no callbacks run.
def cleared (session : Session) : Session :=
  { session with page := { session.page with log := [] }, fired := [] }

theorem Watchful.cleared (h : session.Watchful stranded) : session.cleared.Watchful stranded := by
  obtain ⟨loader, hloader, hwatchful⟩ := h
  exact ⟨loader, hloader, hwatchful.of_page (Page.listeners_setLog [])⟩

-- The session in which an image's listeners run.
def struck (session : Session) (n : Nat) (throws : Option Thrown) : Session :=
  session.cleared.changePage (·.modifyImage n fun image => { image with throws })

theorem listeners_struck (n : Nat) (throws : Option Thrown) :
    (session.struck n throws).page.listeners = session.page.listeners := by
  have himage : (session.struck n throws).page.listeners = session.cleared.page.listeners := by
    apply Page.listeners_modifyImage
    exact fun _ => rfl
  exact himage.trans (Page.listeners_setLog [])

theorem perform_image (n : Nat) (type : String) (throws : Option Thrown) :
    session.perform [.image n type throws] =
      if n < session.page.images.length then
        (session.struck n throws).dispatch (.image n) type .plain
      else session.cleared := by
  change (session.cleared.imageEvent n type throws).2 = _
  by_cases hn : n < session.page.images.length
  · rw [if_pos hn]
    exact congrArg Prod.snd (if_pos hn)
  · rw [if_neg hn]
    exact congrArg Prod.snd (if_neg hn)

theorem Watchful.image (h : session.Watchful stranded) (n : Nat) (type : String)
    (throws : Option Thrown) : (session.perform [.image n type throws]).Watchful stranded := by
  rw [perform_image]
  split
  · obtain ⟨loader, hloader, hwatchful⟩ := h
    refine ⟨_, ?_, watchful_dispatch (hwatchful.of_page (listeners_struck n throws)) .plain⟩
    rw [loader_dispatch]
    exact congrArg (Option.map _) hloader
  · exact h.cleared

theorem Watchful.load (h : session.Watchful stranded) (names : List String) :
    ∃ left, (session.load names).2.Watchful (left ++ stranded) ∧
      (left = [] ↔ (session.load names).1.isFailure = false) ∧
      ∀ loader, (session.load names).2.loader = some loader →
        loader.cache.pending = loader.inFlight + (left ++ stranded).length := by
  obtain ⟨loader, hloader, hwatchful⟩ := h
  obtain ⟨left, hafter, hlive, hleft⟩ := hwatchful.load names
  have hpending := hafter.pending_eq hlive
  refine ⟨left, ?_⟩
  simp only [Session.load, hloader]
  split
  all_goals
    rename_i after page hresult
    simp only [hresult] at hafter hpending hleft
    refine ⟨⟨after, rfl, hafter⟩, hleft.trans ?_, fun other hother => ?_⟩
    · simp [Except.isOk, Except.toBool, SessionReply.isFailure]
    · cases hother
      exact hpending

theorem Watchful.onReady (h : session.Watchful stranded) (name : String) :
    (session.onReady name).2.Watchful stranded ∧ (session.onReady name).1.isFailure = false := by
  obtain ⟨loader, hloader, hwatchful⟩ := h
  unfold Session.onReady
  rw [hloader]
  refine ⟨⟨_, rfl, ?_⟩, rfl⟩
  unfold Cache.onReady
  split
  · exact hwatchful
  · exact ⟨hwatchful.nodup, hwatchful.loading, hwatchful.hung, hwatchful.watched,
      hwatchful.heard⟩

-- Only a call that fails leaves loads behind.
theorem Watchful.step (h : session.Watchful stranded) (action : LoadAction) :
    ∃ left, (session.step action.command).2.Watchful (left ++ stranded) ∧
      (left = [] ↔ (session.step action.command).1.isFailure = false) := by
  cases action with
  | load names =>
    obtain ⟨left, hafter, hleft, _⟩ := h.cleared.load names
    exact ⟨left, hafter, hleft⟩
  | image n type throws =>
    refine ⟨[], h.image n type throws, ?_⟩
    change [] = [] ↔ (session.cleared.imageEvent n type throws).1.isFailure = false
    unfold imageEvent
    split <;> simp [SessionReply.isFailure]
  | onReady name =>
    obtain ⟨hafter, hreply⟩ := h.cleared.onReady name
    exact ⟨[], hafter, iff_of_true rfl hreply⟩
  | faults given =>
    obtain ⟨loader, hloader, hwatchful⟩ := h.cleared
    exact ⟨[], ⟨loader, hloader, hwatchful.of_page (Page.listeners_setFaults given)⟩,
      by simp [LoadAction.command, Session.step, respond, SessionReply.isFailure]⟩

theorem Watchful.perform (h : session.Watchful stranded) (actions : List LoadAction) :
    ∃ left, (session.perform actions).Watchful (left ++ stranded) ∧
      (left = [] ↔ session.Succeeds actions) := by
  induction actions generalizing session stranded with
  | nil => exact ⟨[], h, by simp [Succeeds]⟩
  | cons action rest ih =>
    obtain ⟨now, hstep, hnow⟩ := h.step action
    obtain ⟨later, hrest, hlater⟩ := ih hstep
    refine ⟨later ++ now, ?_, ?_⟩
    · rw [List.append_assoc]
      exact hrest
    · rw [List.append_eq_nil_iff, hlater, hnow, Succeeds]
      exact and_comm

theorem watchful_newLoader (start : Session) (base : String) :
    (start.step (.newLoader base)).2.Watchful [] :=
  ⟨{ base }, rfl, .of_silence base "" _⟩

end Steps

section Observation

theorem Watchful.not_watches (h : session.Watchful stranded) {name : String}
    (hname : name ∈ stranded) (n : Nat) : ¬session.page.Watches .shared name n := by
  obtain ⟨loader, _, hwatchful⟩ := h
  intro hwatches
  exact (hwatchful.heard _ _ hwatches.1 name (by simp [Listener.loadOf?])).2 hname

theorem Watchful.loadState_stranded (h : session.Watchful stranded) {name : String}
    (hname : name ∈ stranded) : session.loadState? name = some .loading := by
  obtain ⟨loader, hloader, hwatchful⟩ := h
  rw [loadState?, hloader, Option.map_some, hwatchful.hung name hname]

theorem lt_of_watches {name : String} {n : Nat} (h : session.page.Watches .shared name n) :
    n < session.page.images.length := by
  by_contra hn
  have hnone : session.page.listeners (.image n) = [] := by
    simp [Page.listeners, List.getElem?_eq_none (Nat.le_of_not_lt hn)]
  rw [Page.Watches, hnone] at h
  cases h.1

-- The listeners of one load that an event sets off all tell the same of it.
theorem loadState_image {name : String} {n : Nat} {verdict : LoadState}
    (hstate : session.loadState? name = some .loading)
    (hwatches : session.page.Watches .shared name n) {type : String}
    (hroused : ∃ listener ∈ (session.page.listeners (.image n)).filter (·.event == type),
      ∃ operation, listener.operation? = some operation ∧ operation.settlement? name ≠ none)
    (harrive : ∀ m, (Listener.arrive .shared name m).event = type → verdict = .loaded)
    (hfail : ∀ m, (Listener.fail .shared name m).event = type → verdict = .failed)
    (throws : Option Thrown) :
    (session.perform [.image n type throws]).loadState? name = some verdict := by
  obtain ⟨loader, hloader, hloading⟩ := Option.map_eq_some_iff.1 hstate
  have hlisteners := session.listeners_struck n throws
  obtain ⟨listener, hlistener, operation, hoperation, hsettlement⟩ := hroused
  rw [← hlisteners] at hlistener
  have hsome : settlement? name ((session.struck n throws).reports (.image n) type) ≠ none :=
    settlement_ne_none hlistener hoperation hsettlement
  obtain ⟨entry, hentry⟩ := Option.ne_none_iff_exists'.1 hsome
  have hverdict : entry.state = verdict := by
    obtain ⟨other, hother, _, hcases⟩ := exists_listener_of_report hentry
    have hevent : other.event = type := eq_of_beq (List.mem_filter.1 hother).2
    rcases hcases with ⟨m, rfl, rfl⟩ | ⟨m, rfl, rfl⟩
    · exact (harrive m hevent).symm
    · exact (hfail m hevent).symm
  have hafter := Cache.state_performAll_of_settlement hloading hentry
  have hstruck : (session.struck n throws).loader = some loader := hloader
  rw [perform_image, if_pos (lt_of_watches hwatches), loadState?, loader_dispatch, hstruck]
  exact congrArg some (hafter.trans hverdict)

theorem loadState_of_watches {name : String} {n : Nat}
    (hstate : session.loadState? name = some .loading)
    (hwatches : session.page.Watches .shared name n) (throws : Option Thrown) :
    (session.perform [.image n "load" throws]).loadState? name = some .loaded ∧
      (session.perform [.image n "error" throws]).loadState? name = some .failed := by
  constructor
  · refine loadState_image hstate hwatches ⟨_, List.mem_filter.2 ⟨hwatches.1, rfl⟩, _, rfl, ?_⟩
      (fun _ _ => rfl) (fun _ hevent => absurd hevent (by simp [Listener.event])) throws
    simp [Operation.settlement?]
  · refine loadState_image hstate hwatches ⟨_, List.mem_filter.2 ⟨hwatches.2, rfl⟩, _, rfl, ?_⟩
      (fun _ hevent => absurd hevent (by simp [Listener.event])) (fun _ _ => rfl) throws
    simp [Operation.settlement?]

end Observation

section Readiness

-- An event of an image ends loads at most, and no attachment goes.
theorem loader_image {loader : Loader String} (hloader : session.loader = some loader) (n : Nat)
    (type : String) (throws : Option Thrown) :
    ∃ after, (session.perform [.image n type throws]).loader = some after ∧
      after.attached = loader.attached ∧
      ∀ name, after.cache.state name = .loading → loader.cache.state name = .loading := by
  rw [perform_image]
  split
  · have hstruck : (session.struck n throws).loader = some loader := hloader
    rw [loader_dispatch, hstruck]
    refine ⟨_, rfl, rfl, fun name hname => ?_⟩
    exact ((Cache.state_performAll_loading_iff fun operation hmem =>
      asksFor_of_mem_reports hmem name).1 hname).1
  · exact ⟨loader, hloader, rfl, fun _ hname => hname⟩

-- Once the images of some attached loads have arrived, none of these loads is under way.
theorem Watchful.arrived {loader : Loader String} (h : session.Watchful stranded)
    (hloader : session.loader = some loader) (attachments : List (String × Nat))
    (hattached : ∀ attachment ∈ attachments, attachment ∈ loader.attached) :
    ∃ after, (session.perform (attachments.map fun attachment =>
        .image attachment.2 "load" none)).loader = some after ∧
      (∀ name, after.cache.state name = .loading → loader.cache.state name = .loading) ∧
      ∀ attachment ∈ attachments, after.cache.state attachment.1 ≠ .loading := by
  induction attachments generalizing session loader with
  | nil => exact ⟨loader, hloader, fun _ hname => hname, nofun⟩
  | cons attachment rest ih =>
    obtain ⟨next, hnext, hsame, hmonotone⟩ := loader_image hloader attachment.2 "load" none
    obtain ⟨after, hafter, hlater, hrest⟩ := ih (h.image attachment.2 "load" none) hnext
      fun other hother => hsame ▸ hattached other (List.mem_cons_of_mem _ hother)
    refine ⟨after, hafter, fun name hname => hmonotone name (hlater name hname), ?_⟩
    rintro other hother
    rcases List.mem_cons.1 hother with rfl | hmem
    · intro hname
      have hstill := hlater other.1 hname
      obtain ⟨first, hfirst, hwatchful⟩ := h
      cases hloader.symm.trans hfirst
      have hstate := hmonotone other.1 hstill
      have hwatches := hwatchful.watched other.1 other.2 (hattached other hother) hstate
      have hloading : session.loadState? other.1 = some .loading := by
        rw [loadState?, hloader, Option.map_some, hstate]
      have hloaded := (loadState_of_watches hloading hwatches none).1
      rw [loadState?, hnext, Option.map_some, hstill] at hloaded
      cases hloaded
    · exact hrest other hmem

-- The images of all attached loads are enough to make the loader ready, if none is stranded.
theorem Watchful.ready_of_arrivals (h : session.Watchful []) :
    ∃ images : List Nat,
      (session.perform (images.map (.image · "load" none))).loaderReady? = some true := by
  obtain ⟨loader, hloader, hwatchful⟩ := id h
  obtain ⟨after, hafter, hmonotone, harrived⟩ := h.arrived hloader loader.attached fun _ h => h
  have hnone : ∀ name, after.cache.state name ≠ .loading := by
    intro name hname
    have hmem := hwatchful.loading name (hmonotone name hname)
    rw [List.append_nil] at hmem
    obtain ⟨attachment, hattachment, rfl⟩ := List.mem_map.1 hmem
    exact harrived attachment hattachment hname
  have hpending : after.cache.pending = 0 :=
    after.cache.pending_eq_length List.nodup_nil fun name =>
      iff_of_false List.not_mem_nil (hnone name)
  refine ⟨loader.attached.map Prod.snd, ?_⟩
  rw [List.map_map]
  exact (congrArg (Option.map _) hafter).trans (by simp [Cache.isReady, hpending])

theorem Watchful.not_ready (h : session.Watchful stranded) (hstranded : stranded ≠ []) :
    session.loaderReady? ≠ some true := by
  obtain ⟨loader, hloader, hwatchful⟩ := h
  obtain ⟨name, hname⟩ := List.exists_mem_of_ne_nil stranded hstranded
  have hpending := loader.cache.pending_pos_of_loading
    (Cache.state_eq_loading_iff.1 (hwatchful.hung name hname))
  simp only [loaderReady?, hloader, Option.map_some, Cache.isReady, ne_eq, Option.some.injEq,
    decide_eq_true_eq]
  omega

end Readiness

-- As long as no call has failed, every load that goes on is observed, the loader can become ready,
-- and a call that succeeds leaves as many attachments as pending loads. After one that has failed,
-- none of this holds any more.
theorem loads_observed_iff (start : Session) (base : String) (actions : List LoadAction) :
    let session := (start.step (.newLoader base)).2
    let after := session.perform actions
    ((∀ name, after.loadState? name = some .loading → after.Observes name) ↔
      session.Succeeds actions) ∧
    (session.Succeeds actions → ∃ images : List Nat,
      (after.perform (images.map (.image · "load" none))).loaderReady? = some true) ∧
    (¬session.Succeeds actions → ∀ later, (after.perform later).loaderReady? ≠ some true) ∧
    ∀ names count next, after.step (.load names) = (.count count, next) →
      ∃ loader, next.loader = some loader ∧
        (loader.inFlight = loader.cache.pending ↔ session.Succeeds actions) := by
  intro session after
  obtain ⟨stranded, hafter, hsucceeds⟩ := (watchful_newLoader start base).perform actions
  rw [List.append_nil] at hafter
  rw [← hsucceeds]
  refine ⟨⟨fun h => ?_, ?_⟩, ?_, fun hfailed later => ?_, fun names count next hload => ?_⟩
  · refine List.eq_nil_iff_forall_not_mem.2 fun name hname => ?_
    obtain ⟨n, hwatches, _⟩ := h name (hafter.loadState_stranded hname)
    exact hafter.not_watches hname n hwatches
  · rintro rfl name hname
    obtain ⟨loader, hloader, hwatchful⟩ := hafter
    have hloading : loader.cache.state name = .loading := by
      rw [loadState?, hloader] at hname
      exact Option.some.inj hname
    have hmem := hwatchful.loading name hloading
    rw [List.append_nil] at hmem
    obtain ⟨⟨name, n⟩, hattached, rfl⟩ := List.mem_map.1 hmem
    have hwatches := hwatchful.watched name n hattached hloading
    exact ⟨n, hwatches, loadState_of_watches hname hwatches⟩
  · rintro rfl
    exact hafter.ready_of_arrivals
  · obtain ⟨left, hlater, _⟩ := hafter.perform later
    exact hlater.not_ready fun hnil => hfailed (List.append_eq_nil_iff.1 hnil).2
  · have hstep : after.cleared.load names = (.count count, next) := hload
    obtain ⟨left, ⟨loader, hloader, _⟩, hleft, hpending⟩ := hafter.cleared.load names
    rw [hstep] at hloader hleft hpending
    refine ⟨loader, hloader, ?_⟩
    have hcount := hpending loader hloader
    rw [hleft.2 rfl, List.nil_append] at hcount
    rw [hcount, ← List.length_eq_zero_iff]
    omega

-- The browser refuses an image once, and is asked for the same image again.
def refusedOnce : List LoadAction :=
  [.faults { image := some (.text "no image") }, .load ["tile"], .faults {}]

-- The load goes on, nobody listens for its end, and asking again does not start it anew.
theorem load_left_unobserved :
    let session := (({ access := .direct, page := {} } : Session).step (.newLoader "img/")).2
    let after := session.perform refusedOnce
    after.loadState? "tile" = some .loading ∧ ¬after.Observes "tile" ∧
      ∃ loader next, after.step (.load ["tile"]) = (.count 0, next) ∧ next.loader = some loader ∧
        loader.inFlight = 0 ∧ loader.cache.pending = 1 := by
  intro session after
  refine ⟨rfl, ?_, _, _, rfl, rfl, rfl, rfl⟩
  rintro ⟨n, hwatches, _⟩
  have hnone : after.page.listeners (.image n) = [] := rfl
  rw [Page.Watches, hnone] at hwatches
  cases hwatches.1

end Session

end CodePanel
