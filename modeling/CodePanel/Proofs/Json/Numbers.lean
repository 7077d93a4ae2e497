import CodePanel.Json.Parser

namespace CodePanel.Decimal

-- A row of at least one digit.
def IsDigits (digits : List Char) : Prop :=
  digits ≠ [] ∧ ∀ c ∈ digits, c.isDigit = true

-- A numeral that JSON has a spelling for.
structure Numeral.WellSpelled (numeral : Numeral) : Prop where
  whole : IsDigits numeral.whole
  leading : numeral.whole.head? = some '0' → numeral.whole = ['0']
  fraction : ∀ c ∈ numeral.fraction, c.isDigit = true
  exponent : ∀ exponent ∈ numeral.exponent, IsDigits exponent.2

theorem spanDigits_append {digits rest : List Char} (h : ∀ c ∈ digits, c.isDigit = true)
    (hrest : rest.head?.any Char.isDigit = false) :
    spanDigits (digits ++ rest) = (digits, rest) := by
  induction digits with
  | nil =>
    cases rest with
    | nil => rfl
    | cons c rest =>
      have hc : c.isDigit = false := by simpa using hrest
      simp [spanDigits, hc]
  | cons c digits ih =>
    have hc := h c (by simp)
    have hmore := ih fun d hd => h d (by simp [hd])
    simp only [spanDigits, Prod.mk.injEq] at hmore ⊢
    simp [hc, hmore]

def exponentText : Option (Bool × List Char) → List Char
  | none => []
  | some (true, digits) => 'e' :: '-' :: digits
  | some (false, digits) => 'e' :: '+' :: digits

def fractionText (fraction : List Char) : List Char :=
  if fraction.isEmpty then [] else '.' :: fraction

def signText (negative : Bool) : List Char :=
  if negative then ['-'] else []

theorem Numeral.write_eq (numeral : Numeral) :
    numeral.write = signText numeral.negative ++ (numeral.whole ++
      (fractionText numeral.fraction ++ exponentText numeral.exponent)) := by
  simp only [Numeral.write, signText, fractionText, List.append_assoc]
  rfl

end CodePanel.Decimal

namespace CodePanel.Json

open CodePanel.Decimal

def readSign : List Char → Bool × List Char
  | '-' :: rest => (true, rest)
  | text => (false, text)

def readWhole : List Char → List Char × List Char
  | '0' :: rest => (['0'], rest)
  | text => spanDigits text

def readFraction : List Char → Option (List Char × List Char)
  | '.' :: rest => if (spanDigits rest).1.isEmpty then none else some (spanDigits rest)
  | rest => some ([], rest)

-- The parts of a number are read one after the other.
theorem readNumber_eq (text : List Char) :
    readNumber text =
      let (negative, unsigned) := readSign text
      let (whole, rest) := readWhole unsigned
      if whole.isEmpty then none
      else match readFraction rest with
        | none => none
        | some (fraction, rest) =>
          (readExponent rest).map fun (exponent, rest) =>
            (⟨negative, whole, fraction, exponent⟩, rest) :=
  rfl

theorem readSign_append (negative : Bool) {text : List Char} (h : text.head? ≠ some '-') :
    readSign (signText negative ++ text) = (negative, text) := by
  cases negative with
  | true => rfl
  | false =>
    cases text with
    | nil => rfl
    | cons c text =>
      have hc : c ≠ '-' := by simpa using h
      simp [signText, readSign, hc]

theorem readWhole_append {whole rest : List Char} (h : IsDigits whole)
    (hleading : whole.head? = some '0' → whole = ['0'])
    (hrest : rest.head?.any Char.isDigit = false) :
    readWhole (whole ++ rest) = (whole, rest) := by
  have hspan := spanDigits_append h.2 hrest
  cases whole with
  | nil => exact absurd rfl h.1
  | cons c whole =>
    by_cases hc : c = '0'
    · subst hc
      cases hleading rfl
      rfl
    · simp only [List.cons_append] at hspan ⊢
      rw [readWhole, hspan]
      intro more h
      exact hc (List.cons.inj h).1

theorem readFraction_append {fraction rest : List Char} (h : ∀ c ∈ fraction, c.isDigit = true)
    (hdigit : rest.head?.any Char.isDigit = false) (hpoint : rest.head? ≠ some '.') :
    readFraction (fractionText fraction ++ rest) = some (fraction, rest) := by
  cases fraction with
  | nil =>
    cases rest with
    | nil => rfl
    | cons c rest =>
      have hc : c ≠ '.' := by simpa using hpoint
      simp [fractionText, readFraction, hc]
  | cons c fraction =>
    have htext : fractionText (c :: fraction) ++ rest = '.' :: (c :: fraction ++ rest) := rfl
    rw [htext, readFraction, spanDigits_append h hdigit]
    rfl

-- A character that could make a number longer.
def extendsNumber (c : Char) : Bool :=
  c.isDigit || c = '.' || c = 'e' || c = 'E'

theorem of_not_extendsNumber {c : Char} (h : extendsNumber c = false) :
    c.isDigit = false ∧ c ≠ '.' ∧ ¬(c = 'e' ∨ c = 'E') := by
  simpa [extendsNumber, and_assoc] using h

-- Nothing behind a number belongs to its digits, and no point follows.
theorem head_of_not_extends {rest : List Char} (h : rest.head?.any extendsNumber = false) :
    rest.head?.any Char.isDigit = false ∧ rest.head? ≠ some '.' := by
  cases rest with
  | nil => exact ⟨rfl, by simp⟩
  | cons c rest =>
    obtain ⟨hdigit, hpoint, -⟩ := of_not_extendsNumber (by simpa using h)
    exact ⟨by simpa using hdigit, by simpa using hpoint⟩

theorem head_exponentText_append {exponent : Option (Bool × List Char)} {rest : List Char}
    (h : rest.head?.any extendsNumber = false) :
    (exponentText exponent ++ rest).head?.any Char.isDigit = false ∧
      (exponentText exponent ++ rest).head? ≠ some '.' := by
  match exponent with
  | none => exact head_of_not_extends h
  | some (true, digits) => exact ⟨rfl, by simp [exponentText]⟩
  | some (false, digits) => exact ⟨rfl, by simp [exponentText]⟩

theorem readExponent_append {exponent : Option (Bool × List Char)} {rest : List Char}
    (h : ∀ found ∈ exponent, IsDigits found.2) (hrest : rest.head?.any extendsNumber = false) :
    readExponent (exponentText exponent ++ rest) = some (exponent, rest) := by
  have hdigit := (head_of_not_extends hrest).1
  match exponent with
  | none =>
    cases rest with
    | nil => rfl
    | cons c rest =>
      have hmark := (of_not_extendsNumber (by simpa using hrest)).2.2
      rw [exponentText, List.nil_append]
      unfold readExponent
      exact if_neg hmark
  | some (true, digits) =>
    obtain ⟨hne, hall⟩ := h _ rfl
    simp [exponentText, readExponent, spanDigits_append hall hdigit, hne]
  | some (false, digits) =>
    obtain ⟨hne, hall⟩ := h _ rfl
    simp [exponentText, readExponent, spanDigits_append hall hdigit, hne]

-- A spelled number is read back as it is spelled.
theorem readNumber_write {numeral : Numeral} (h : numeral.WellSpelled) {rest : List Char}
    (hrest : rest.head?.any extendsNumber = false) :
    readNumber (numeral.write ++ rest) = some (numeral, rest) := by
  obtain ⟨hdigit, hpoint⟩ := @head_exponentText_append numeral.exponent rest hrest
  have hfraction : (fractionText numeral.fraction ++
      (exponentText numeral.exponent ++ rest)).head?.any Char.isDigit = false := by
    unfold fractionText
    split
    · exact hdigit
    · rfl
  have hsign : (numeral.whole ++ (fractionText numeral.fraction ++
      (exponentText numeral.exponent ++ rest))).head? ≠ some '-' := by
    obtain ⟨c, more, hwhole⟩ := List.exists_cons_of_ne_nil h.whole.1
    have hc := h.whole.2 c (by simp [hwhole])
    rw [hwhole]
    rintro heq
    cases heq
    cases hc
  have hwhole : numeral.whole.isEmpty = false := by simpa using h.whole.1
  rw [Numeral.write_eq, readNumber_eq]
  simp only [List.append_assoc, readSign_append _ hsign,
    readWhole_append h.whole h.leading hfraction, readFraction_append h.fraction hdigit hpoint,
    readExponent_append h.exponent hrest, hwhole, Bool.false_eq_true, if_false, Option.map_some]

end CodePanel.Json
