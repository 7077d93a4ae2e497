import CodePanel.Proofs.Settings.Validity
import Mathlib.Data.List.Nodup
import Mathlib.Order.Bounds.Basic

namespace CodePanel

open Text

section Repetition

variable {α : Type} {list : List α}

-- The places of a list whose element also stands at an earlier place.
def repetitions (list : List α) : Set Nat :=
  {j | ∃ i < j, ∃ a, list[i]? = some a ∧ list[j]? = some a}

theorem not_mem_repetitions (h : list.Nodup) (j : Nat) : j ∉ repetitions list := by
  rintro ⟨i, hlt, a, hi, hj⟩
  obtain ⟨hbound, _⟩ := List.getElem?_eq_some_iff.mp hi
  have heq := (List.getElem?_inj hbound h).mp (hi.trans hj.symm)
  omega

-- Nothing is repeated before the first element that was there already.
theorem isLeast_repetitions {before after : List α} {a : α} (h : before.Nodup)
    (hmem : a ∈ before) : IsLeast (repetitions (before ++ a :: after)) before.length := by
  constructor
  · obtain ⟨i, hi⟩ := List.mem_iff_getElem?.mp hmem
    obtain ⟨hlt, _⟩ := List.getElem?_eq_some_iff.mp hi
    refine ⟨i, hlt, a, ?_, ?_⟩
    · rw [List.getElem?_append_left hlt, hi]
    · simp
  · rintro j ⟨i, hlt, b, hi, hj⟩
    by_contra hbefore
    rw [List.getElem?_append_left (by omega)] at hi hj
    exact not_mem_repetitions h j ⟨i, hlt, b, hi, hj⟩

-- The search keeps what it has passed, which is without repetition, in reverse.
theorem firstRepeated_spec [DecidableEq α] {before : List α} (h : before.Nodup)
    (after : List α) :
    match firstRepeated? before.reverse after with
    | some a => ∃ j, IsLeast (repetitions (before ++ after)) j ∧ (before ++ after)[j]? = some a
    | none => (before ++ after).Nodup := by
  induction after generalizing before with
  | nil => simpa [firstRepeated?] using h
  | cons a rest ih =>
    by_cases hmem : a ∈ before
    · simp only [firstRepeated?, List.mem_reverse, hmem, if_true]
      exact ⟨before.length, isLeast_repetitions h hmem, by simp⟩
    · -- the element joins the ones before it, which still hold no repetition
      have hnext : (before ++ [a]).Nodup := by
        rw [List.nodup_append_comm]
        exact List.nodup_cons.mpr ⟨hmem, h⟩
      have hrest := ih hnext
      rw [List.reverse_append, List.reverse_singleton, List.singleton_append,
        List.append_assoc, List.singleton_append] at hrest
      simpa only [firstRepeated?, List.mem_reverse, hmem, if_false] using hrest

theorem firstRepeated_eq_none_iff [DecidableEq α] :
    firstRepeated? [] list = none ↔ list.Nodup := by
  have hspec := firstRepeated_spec List.nodup_nil list
  rw [List.reverse_nil, List.nil_append] at hspec
  constructor
  · intro hnone
    rwa [hnone] at hspec
  · intro hnodup
    by_contra hsome
    obtain ⟨a, ha⟩ := Option.ne_none_iff_exists'.mp hsome
    rw [ha] at hspec
    obtain ⟨j, hleast, _⟩ := hspec
    exact not_mem_repetitions hnodup j hleast.1

theorem isLeast_of_firstRepeated [DecidableEq α] {a : α} (h : firstRepeated? [] list = some a) :
    ∃ j, IsLeast (repetitions list) j ∧ list[j]? = some a := by
  have hspec := firstRepeated_spec List.nodup_nil list
  rwa [List.reverse_nil, List.nil_append, h] at hspec

end Repetition

section Checks

variable {ι ε : Type} {check : ι → Except ε Unit} {list : List ι}

theorem forM_eq_ok_iff : forM list check = .ok () ↔ ∀ i ∈ list, check i = .ok () := by
  induction list with
  | nil => simp [pure, Except.pure]
  | cons i rest ih =>
    rw [List.forM_cons, List.forall_mem_cons, ← ih]
    cases check i <;> simp [bind, Except.bind]

-- Checking stops at the first check that fails.
theorem forM_eq_error_iff {error : ε} :
    forM list check = .error error ↔
      ∃ before i after, list = before ++ i :: after ∧ (∀ j ∈ before, check j = .ok ()) ∧
        check i = .error error := by
  induction list with
  | nil => simp [pure, Except.pure]
  | cons i rest ih =>
    rw [List.forM_cons]
    constructor
    · intro herror
      cases hcheck : check i with
      | error found =>
        rw [hcheck] at herror
        exact ⟨[], i, rest, rfl, nofun, hcheck.trans herror⟩
      | ok =>
        rw [hcheck] at herror
        obtain ⟨before, j, after, hsplit, hbefore, hj⟩ := ih.mp herror
        refine ⟨i :: before, j, after, congrArg (i :: ·) hsplit, ?_, hj⟩
        exact List.forall_mem_cons.mpr ⟨hcheck, hbefore⟩
    · rintro ⟨before, j, after, hsplit, hbefore, hj⟩
      cases before with
      | nil =>
        obtain ⟨rfl, -⟩ := List.cons.inj hsplit
        rw [hj]
        rfl
      | cons first before =>
        obtain ⟨rfl, hrest⟩ := List.cons.inj hsplit
        obtain ⟨hfirst, hothers⟩ := List.forall_mem_cons.mp hbefore
        rw [hfirst]
        exact ih.mpr ⟨before, j, after, hrest, hothers, hj⟩

end Checks

namespace Overlay

-- What is asked of settings.
inductive Condition where
  | inputNamed
  | hasBackdrop
  | distinctIds
  | plainStem
  | soundInset

namespace Condition

def order : List Condition :=
  [.inputNamed, .hasBackdrop, .distinctIds, .plainStem, .soundInset]

theorem mem_order (condition : Condition) : condition ∈ order := by
  cases condition <;> simp [order]

-- The characters of style classes, one range after the other.
def IsPlain (c : Char) : Prop :=
  ('A' ≤ c ∧ c ≤ 'Z') ∨ ('a' ≤ c ∧ c ≤ 'z') ∨ ('0' ≤ c ∧ c ≤ '9') ∨ c = '-' ∨ c = '_'

def Holds (settings : Settings) : Condition → Prop
  | inputNamed => ∃ c ∈ settings.inputId.toList, isSpace c = false
  | hasBackdrop => settings.backdropIds ≠ []
  | distinctIds => (settings.inputId :: settings.backdropIds).Nodup
  | plainStem => ∀ stem, settings.classStem = some stem → ∀ c ∈ stem.toList, IsPlain c
  | soundInset => ∀ inset, settings.inset? = some inset → inset.isFinite = true ∧ 0.0 ≤ inset

-- The error that goes with a condition. It names what is wrong.
inductive Reports (settings : Settings) : Condition → SettingsError → Prop
  | inputNamed : Reports settings .inputNamed .emptyInputId
  | hasBackdrop : Reports settings .hasBackdrop .noBackdrops
  | distinctIds {j : Nat} {id : String}
      (hfirst : IsLeast (repetitions (settings.inputId :: settings.backdropIds)) j)
      (hid : (settings.inputId :: settings.backdropIds)[j]? = some id) :
      Reports settings .distinctIds (.duplicateId id)
  | plainStem {stem : String} (hstem : settings.classStem = some stem) :
      Reports settings .plainStem (.invalidClassStem stem)
  | soundInset {inset : Float} (hinset : settings.inset? = some inset) :
      Reports settings .soundInset (.invalidLength "quirks.horizontalPaddingPx" inset)

end Condition

-- The check of one condition.
def Settings.check (settings : Settings) : Condition → Except SettingsError Unit
  | .inputNamed => if isBlank settings.inputId.toList then .error .emptyInputId else .ok ()
  | .hasBackdrop => if settings.backdropIds.isEmpty then .error .noBackdrops else .ok ()
  | .distinctIds =>
    match firstRepeated? [] (settings.inputId :: settings.backdropIds) with
    | some id => .error (.duplicateId id)
    | none => .ok ()
  | .plainStem => checkStem settings.classStem
  | .soundInset => checkInset settings.inset?

namespace Settings

variable {settings : Settings}

-- The settings are checked for one condition after the other.
theorem validate_eq_forM (settings : Settings) :
    settings.validate = forM Condition.order settings.check := by
  simp only [Condition.order, List.forM_cons, List.forM_nil, check, validate]
  split
  · rfl
  split
  · rfl
  cases firstRepeated? [] (settings.inputId :: settings.backdropIds) with
  | some id => rfl
  | none =>
    cases checkStem settings.classStem with
    | error error => rfl
    | ok => cases checkInset settings.inset? <;> rfl

theorem isBlank_eq_false_iff {text : List Char} :
    isBlank text = false ↔ ∃ c ∈ text, isSpace c = false := by
  rw [isBlank, List.all_eq_false]
  simp

theorem isClassChar_iff {c : Char} : isClassChar c = true ↔ Condition.IsPlain c := by
  have hclass : isClassChar c = (c.isUpper || c.isLower || c.isDigit || c == '-' || c == '_') := rfl
  have hupper : c.isUpper = decide ('A' ≤ c ∧ c ≤ 'Z') := rfl
  have hlower : c.isLower = (decide ('a' ≤ c) && decide (c ≤ 'z')) := rfl
  have hdigit : c.isDigit = (decide ('0' ≤ c) && decide (c ≤ '9')) := rfl
  rw [hclass, hupper, hlower, hdigit, Condition.IsPlain]
  simp only [Bool.or_eq_true, Bool.and_eq_true, decide_eq_true_eq, beq_iff_eq, or_assoc]

theorem check_eq_ok_iff (condition : Condition) :
    settings.check condition = .ok () ↔ condition.Holds settings := by
  cases condition with
  | inputNamed =>
    rw [Condition.Holds, ← isBlank_eq_false_iff]
    cases hblank : isBlank settings.inputId.toList <;> simp [check, hblank]
  | hasBackdrop =>
    rw [Condition.Holds]
    cases hids : settings.backdropIds <;> simp [check, hids]
  | distinctIds =>
    rw [Condition.Holds, ← firstRepeated_eq_none_iff, check]
    cases firstRepeated? [] (settings.inputId :: settings.backdropIds) <;> simp
  | plainStem =>
    rw [Condition.Holds, check]
    cases settings.classStem with
    | none => simp [checkStem]
    | some stem => simp [checkStem, ← isClassChar_iff]
  | soundInset =>
    rw [Condition.Holds, check]
    cases settings.inset? with
    | none => simp [checkInset]
    | some inset => simp [checkInset, checkLength_eq_ok_iff]

theorem reports_of_check {condition : Condition} {error : SettingsError}
    (h : settings.check condition = .error error) : condition.Reports settings error := by
  cases condition with
  | inputNamed =>
    rw [check] at h
    split at h
    · cases h
      exact .inputNamed
    · cases h
  | hasBackdrop =>
    rw [check] at h
    split at h
    · cases h
      exact .hasBackdrop
    · cases h
  | distinctIds =>
    rw [check] at h
    split at h
    · rename_i id hfirst
      cases h
      obtain ⟨j, hleast, hid⟩ := isLeast_of_firstRepeated hfirst
      exact .distinctIds hleast hid
    · cases h
  | plainStem =>
    rw [check] at h
    cases hstem : settings.classStem with
    | none =>
      rw [hstem] at h
      cases h
    | some stem =>
      rw [hstem, checkStem] at h
      split at h
      · cases h
      · cases h
        exact .plainStem hstem
  | soundInset =>
    rw [check] at h
    cases hinset : settings.inset? with
    | none =>
      rw [hinset] at h
      cases h
    | some inset =>
      rw [hinset, checkInset, checkLength] at h
      split at h
      · cases h
      · cases h
        exact .soundInset hinset

theorem reports_unique {condition : Condition} {error other : SettingsError}
    (h : condition.Reports settings error) (h' : condition.Reports settings other) :
    error = other := by
  cases h with
  | inputNamed => cases h'; rfl
  | hasBackdrop => cases h'; rfl
  | distinctIds hfirst hid =>
    cases h' with
    | distinctIds hfirst' hid' =>
      rw [hfirst.unique hfirst', hid'] at hid
      rw [Option.some.inj hid]
  | plainStem hstem =>
    cases h' with
    | plainStem hstem' => rw [Option.some.inj (hstem.symm.trans hstem')]
  | soundInset hinset =>
    cases h' with
    | soundInset hinset' => rw [Option.some.inj (hinset.symm.trans hinset')]

theorem check_eq_error_iff {condition : Condition} {error : SettingsError} :
    settings.check condition = .error error ↔
      ¬condition.Holds settings ∧ condition.Reports settings error := by
  rw [← check_eq_ok_iff]
  constructor
  · intro h
    exact ⟨by rw [h]; exact nofun, reports_of_check h⟩
  · rintro ⟨hfails, hreports⟩
    cases hcheck : settings.check condition with
    | ok => exact absurd hcheck hfails
    | error found => rw [reports_unique (reports_of_check hcheck) hreports]

-- Settings pass exactly if all conditions hold. Else the first condition that does not hold, in the
-- order of the checks, is the one that is reported.
theorem first_fault_reported (settings : Settings) :
    (settings.validate = .ok () ↔ ∀ condition : Condition, condition.Holds settings) ∧
    ∀ error, settings.validate = .error error ↔
      ∃ before condition after, Condition.order = before ++ condition :: after ∧
        (∀ earlier ∈ before, earlier.Holds settings) ∧ ¬condition.Holds settings ∧
        condition.Reports settings error := by
  rw [validate_eq_forM]
  constructor
  · rw [forM_eq_ok_iff]
    constructor
    · intro h condition
      exact (check_eq_ok_iff condition).mp (h condition condition.mem_order)
    · intro h condition _
      exact (check_eq_ok_iff condition).mpr (h condition)
  · intro error
    simp only [forM_eq_error_iff, check_eq_ok_iff, check_eq_error_iff]

-- Two ids are used twice. The one whose second use comes first is reported, and not the stem, which
-- is checked later.
example :
    validate { backdropIds := ["front", "back", "back", "front"], classStem := some "<" } =
      .error (.duplicateId "back") := rfl

end Settings

end Overlay

end CodePanel
