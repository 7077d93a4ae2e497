import CodePanel.Proofs.Json.Numbers
import CodePanel.Proofs.Json.Strings

namespace CodePanel.Json

open CodePanel.Decimal

-- A value with all its numbers spelled well.
inductive Value.WellSpelled : Value → Prop where
  | null : WellSpelled .null
  | bool (value : Bool) : WellSpelled (.bool value)
  | number {numeral : Numeral} (h : numeral.WellSpelled) : WellSpelled (.number numeral)
  | string (text : Option String) : WellSpelled (.string text)
  | array {items : List Value} (h : ∀ item ∈ items, WellSpelled item) : WellSpelled (.array items)
  | object {fields : List (Option String × Value)} (h : ∀ field ∈ fields, WellSpelled field.2) :
      WellSpelled (.object fields)

theorem skipSpace_cons {c : Char} (h : isBetween c = false) (rest : List Char) :
    skipSpace (c :: rest) = c :: rest := by
  simp [skipSpace, h]

-- A number starts with its sign or a digit, and nothing else starts with one of these.
def startsNumber (c : Char) : Bool :=
  c = '-' || c.isDigit

theorem ne_of_startsNumber {c : Char} (h : startsNumber c = true) (d : Char)
    (hd : startsNumber d = false) : c ≠ d := by
  rintro rfl
  rw [h] at hd
  cases hd

theorem not_isBetween_of_startsNumber {c : Char} (h : startsNumber c = true) :
    isBetween c = false := by
  have hne := ne_of_startsNumber h
  simp [isBetween, hne ' ' rfl, hne '\t' rfl, hne '\n' rfl, hne '\r' rfl]

theorem exists_cons_write {numeral : Numeral} (h : numeral.WellSpelled) :
    ∃ c more, numeral.write = c :: more ∧ startsNumber c = true := by
  obtain ⟨c, more, hwhole⟩ := List.exists_cons_of_ne_nil h.whole.1
  have hdigit : startsNumber c = true := by
    simp [startsNumber, h.whole.2 c (by simp [hwhole])]
  rw [Numeral.write_eq, hwhole]
  cases numeral.negative with
  | true => exact ⟨'-', _, rfl, rfl⟩
  | false => exact ⟨c, _, rfl, hdigit⟩

theorem readValue_startsNumber {c : Char} (h : startsNumber c = true) (fuel : Nat)
    (more : List Char) :
    readValue (fuel + 1) (c :: more) =
      (readNumber (c :: more)).map fun read => (.number read.1, read.2) := by
  have hne := ne_of_startsNumber h
  rw [readValue, skipSpace_cons (not_isBetween_of_startsNumber h)]
  split
  · next heq => exact absurd (List.cons.inj heq).1 (hne 'n' rfl)
  · next heq => exact absurd (List.cons.inj heq).1 (hne 't' rfl)
  · next heq => exact absurd (List.cons.inj heq).1 (hne 'f' rfl)
  · next heq => exact absurd (List.cons.inj heq).1 (hne '"' rfl)
  · next heq => exact absurd (List.cons.inj heq).1 (hne '[' rfl)
  · next heq => exact absurd (List.cons.inj heq).1 (hne '\x7b' rfl)
  · rfl

-- Every value starts with a character of its own, and none starts like the end of a list.
theorem Value.WellSpelled.exists_cons {value : Value} (h : value.WellSpelled) :
    ∃ c more, value.write = c :: more ∧ isBetween c = false ∧ c ≠ ']' := by
  cases h with
  | null => exact ⟨'n', _, rfl, rfl, by decide⟩
  | bool value => cases value <;> exact ⟨_, _, rfl, rfl, by decide⟩
  | number h =>
    obtain ⟨c, more, hwrite, hstart⟩ := exists_cons_write h
    exact ⟨c, more, hwrite, not_isBetween_of_startsNumber hstart, ne_of_startsNumber hstart _ rfl⟩
  | string text =>
    obtain ⟨inside, hwrite, -⟩ := readString_writeText text
    exact ⟨'"', inside, hwrite, rfl, by decide⟩
  | @array items h => cases items <;> exact ⟨'[', _, rfl, rfl, by decide⟩
  | @object fields h => cases fields <;> exact ⟨'\x7b', _, rfl, rfl, by decide⟩

-- A written value is taken off the front of a text that does not make it longer. Each character
-- pays for two calls.
def Value.ReadsBack (value : Value) : Prop :=
  ∀ fuel rest, 2 * value.write.length ≤ fuel → rest.head?.any extendsNumber = false →
    readValue fuel (value.write ++ rest) = some (value, rest)

theorem Value.WellSpelled.length_pos {value : Value} (h : value.WellSpelled) :
    0 < value.write.length := by
  obtain ⟨c, more, hwrite, -⟩ := h.exists_cons
  simp [hwrite]

-- So there is fuel for a first call.
theorem Value.WellSpelled.readsBack_of_succ {value : Value} (h : value.WellSpelled)
    (hread : ∀ fuel rest, 2 * value.write.length ≤ fuel + 1 →
      rest.head?.any extendsNumber = false →
      readValue (fuel + 1) (value.write ++ rest) = some (value, rest)) : value.ReadsBack := by
  intro fuel rest hfuel hrest
  have hpos := h.length_pos
  obtain ⟨fuel, rfl⟩ := Nat.exists_eq_add_one_of_ne_zero (by omega : fuel ≠ 0)
  exact hread fuel rest hfuel hrest

section

variable {item : Value} {name : Option String} {fuel : Nat}

-- What follows a value inside a list or a record does not make the value longer.
theorem readValue_before (h : item.ReadsBack) (hfuel : 2 * item.write.length ≤ fuel) {c : Char}
    (hc : extendsNumber c = false) (rest : List Char) :
    readValue fuel (item.write ++ c :: rest) = some (item, c :: rest) :=
  h fuel (c :: rest) hfuel (by simpa using hc)

theorem readItems_comma (h : item.ReadsBack) (hfuel : 2 * item.write.length ≤ fuel)
    (rest : List Char) :
    readItems (fuel + 1) (item.write ++ ',' :: rest) =
      (readItems fuel rest).map fun read => (item :: read.1, read.2) := by
  rw [readItems, readValue_before h hfuel rfl]
  rfl

theorem readItems_bracket (h : item.ReadsBack) (hfuel : 2 * item.write.length ≤ fuel)
    (rest : List Char) :
    readItems (fuel + 1) (item.write ++ ']' :: rest) = some ([item], rest) := by
  rw [readItems, readValue_before h hfuel rfl]
  rfl

theorem readFields_comma (h : item.ReadsBack) (hfuel : 2 * item.write.length ≤ fuel)
    (rest : List Char) :
    readFields (fuel + 1) (writeText name ++ ':' :: (item.write ++ ',' :: rest)) =
      (readFields fuel rest).map fun read => ((name, item) :: read.1, read.2) := by
  obtain ⟨inside, hname, hinside⟩ := readString_writeText name
  rw [hname, List.cons_append, readFields, skipSpace_cons rfl]
  simp only [hinside, skipSpace_cons (c := ':') rfl]
  rw [readValue_before h hfuel rfl]
  rfl

theorem readFields_brace (h : item.ReadsBack) (hfuel : 2 * item.write.length ≤ fuel)
    (rest : List Char) :
    readFields (fuel + 1) (writeText name ++ ':' :: (item.write ++ '\x7d' :: rest)) =
      some ([(name, item)], rest) := by
  obtain ⟨inside, hname, hinside⟩ := readString_writeText name
  rw [hname, List.cons_append, readFields, skipSpace_cons rfl]
  simp only [hinside, skipSpace_cons (c := ':') rfl]
  rw [readValue_before h hfuel rfl]
  rfl

-- The items of an array that is not empty, up to its closing bracket.
theorem readItems_write {items : List Value}
    (h : ∀ value ∈ item :: items, value.ReadsBack)
    (hfuel : 2 * (item.write.length + (writeItems items).length) ≤ fuel) (rest : List Char) :
    readItems fuel (item.write ++ (writeItems items ++ rest)) = some (item :: items, rest) := by
  have hitem := h item (by simp)
  induction items generalizing item fuel with
  | nil =>
    have hwrite : writeItems [] = [']'] := rfl
    rw [hwrite] at hfuel ⊢
    rw [List.length_singleton] at hfuel
    obtain ⟨fuel, rfl⟩ := Nat.exists_eq_add_one_of_ne_zero (by omega : fuel ≠ 0)
    exact readItems_bracket hitem (by omega) rest
  | cons second items ih =>
    have hwrite : writeItems (second :: items) = ',' :: (second.write ++ writeItems items) := rfl
    rw [hwrite] at hfuel ⊢
    simp only [List.length_cons, List.length_append] at hfuel
    obtain ⟨fuel, rfl⟩ := Nat.exists_eq_add_one_of_ne_zero (by omega : fuel ≠ 0)
    have hsecond : ∀ value ∈ second :: items, value.ReadsBack :=
      fun value hvalue => h value (List.mem_cons_of_mem item hvalue)
    have hmore : readItems fuel (second.write ++ (writeItems items ++ rest)) =
        some (second :: items, rest) := ih hsecond (by omega) (hsecond second (by simp))
    rw [List.cons_append, List.append_assoc, readItems_comma hitem (by omega), hmore]
    rfl

-- The fields of an object that is not empty, up to its closing brace.
theorem readFields_write {fields : List (Option String × Value)}
    (h : ∀ field ∈ (name, item) :: fields, field.2.ReadsBack)
    (hfuel : 2 * (item.write.length + (writeFields fields).length) ≤ fuel) (rest : List Char) :
    readFields fuel (writeText name ++ ':' :: (item.write ++ (writeFields fields ++ rest))) =
      some ((name, item) :: fields, rest) := by
  have hitem : item.ReadsBack := h (name, item) (by simp)
  induction fields generalizing name item fuel with
  | nil =>
    have hwrite : writeFields [] = ['\x7d'] := rfl
    rw [hwrite] at hfuel ⊢
    rw [List.length_singleton] at hfuel
    obtain ⟨fuel, rfl⟩ := Nat.exists_eq_add_one_of_ne_zero (by omega : fuel ≠ 0)
    exact readFields_brace hitem (by omega) rest
  | cons second fields ih =>
    have hwrite : writeFields (second :: fields) =
        ',' :: (writeText second.1 ++ ':' :: (second.2.write ++ writeFields fields)) := rfl
    rw [hwrite] at hfuel ⊢
    simp only [List.length_cons, List.length_append] at hfuel
    obtain ⟨fuel, rfl⟩ := Nat.exists_eq_add_one_of_ne_zero (by omega : fuel ≠ 0)
    have hsecond : ∀ field ∈ second :: fields, field.2.ReadsBack :=
      fun field hfield => h field (List.mem_cons_of_mem (name, item) hfield)
    have hmore : readFields fuel
        (writeText second.1 ++ ':' :: (second.2.write ++ (writeFields fields ++ rest))) =
          some (second :: fields, rest) := ih hsecond (by omega) (hsecond second (by simp))
    simp only [List.cons_append, List.append_assoc]
    rw [readFields_comma hitem (by omega), hmore]
    rfl

end

theorem readsBack_array {items : List Value}
    (h : ∀ item ∈ items, item.WellSpelled ∧ item.ReadsBack) : (Value.array items).ReadsBack := by
  have hspelled := Value.WellSpelled.array fun item hitem => (h item hitem).1
  refine hspelled.readsBack_of_succ fun fuel rest hfuel _ => ?_
  cases items with
  | nil =>
    have hwrite : (Value.array []).write ++ rest = '[' :: ']' :: rest := rfl
    rw [hwrite, readValue, skipSpace_cons rfl]
    rfl
  | cons item items =>
    have hwrite : (Value.array (item :: items)).write = '[' :: (item.write ++ writeItems items) :=
      rfl
    rw [hwrite] at hfuel ⊢
    simp only [List.length_cons, List.length_append] at hfuel
    have hitems : readItems fuel (item.write ++ (writeItems items ++ rest)) =
        some (item :: items, rest) :=
      readItems_write (fun value hvalue => (h value hvalue).2) (by omega) rest
    -- the first item is not taken for the end of an empty array
    obtain ⟨c, more, hitem, hbetween, hclose⟩ := (h item (by simp)).1.exists_cons
    rw [hitem] at hitems ⊢
    simp only [List.cons_append, List.append_assoc] at hitems ⊢
    rw [readValue, skipSpace_cons rfl]
    simp only [skipSpace_cons hbetween]
    split
    · next heq => exact absurd (List.cons.inj heq).1 hclose
    · rw [hitems]
      rfl

theorem readsBack_object {fields : List (Option String × Value)}
    (h : ∀ field ∈ fields, field.2.WellSpelled ∧ field.2.ReadsBack) :
    (Value.object fields).ReadsBack := by
  have hspelled := Value.WellSpelled.object fun field hfield => (h field hfield).1
  refine hspelled.readsBack_of_succ fun fuel rest hfuel _ => ?_
  cases fields with
  | nil =>
    have hwrite : (Value.object []).write ++ rest = '\x7b' :: '\x7d' :: rest := rfl
    rw [hwrite, readValue, skipSpace_cons rfl]
    rfl
  | cons field fields =>
    have hwrite : (Value.object (field :: fields)).write =
        '\x7b' :: (writeText field.1 ++ ':' :: (field.2.write ++ writeFields fields)) := rfl
    rw [hwrite] at hfuel ⊢
    simp only [List.length_cons, List.length_append] at hfuel
    have hfields : readFields fuel
        (writeText field.1 ++ ':' :: (field.2.write ++ (writeFields fields ++ rest))) =
          some (field :: fields, rest) :=
      readFields_write (fun other hother => (h other hother).2) (by omega) rest
    obtain ⟨inside, hname, -⟩ := readString_writeText field.1
    rw [hname] at hfields ⊢
    simp only [List.cons_append, List.append_assoc] at hfields ⊢
    rw [readValue, skipSpace_cons rfl]
    simp only [skipSpace_cons (c := '"') rfl]
    split
    · next heq => cases heq
    · rw [hfields]
      rfl

-- Reading follows the value down to its leaves.
theorem Value.WellSpelled.readsBack {value : Value} (h : value.WellSpelled) : value.ReadsBack := by
  induction h with
  | null =>
    refine Value.WellSpelled.null.readsBack_of_succ fun fuel rest _ _ => ?_
    have hwrite : Value.null.write ++ rest = 'n' :: 'u' :: 'l' :: 'l' :: rest := rfl
    rw [hwrite, readValue, skipSpace_cons rfl]
    rfl
  | bool value =>
    refine (Value.WellSpelled.bool value).readsBack_of_succ fun fuel rest _ _ => ?_
    cases value with
    | true =>
      have hwrite : (Value.bool true).write ++ rest = 't' :: 'r' :: 'u' :: 'e' :: rest := rfl
      rw [hwrite, readValue, skipSpace_cons rfl]
      rfl
    | false =>
      have hwrite :
          (Value.bool false).write ++ rest = 'f' :: 'a' :: 'l' :: 's' :: 'e' :: rest := rfl
      rw [hwrite, readValue, skipSpace_cons rfl]
      rfl
  | number h =>
    refine (Value.WellSpelled.number h).readsBack_of_succ fun fuel rest _ hrest => ?_
    obtain ⟨c, more, hwrite, hstart⟩ := exists_cons_write h
    have hread := readNumber_write h hrest
    rw [hwrite, List.cons_append] at hread
    have hvalue : (Value.number _).write = c :: more := hwrite
    rw [hvalue, List.cons_append, readValue_startsNumber hstart, hread]
    rfl
  | string text =>
    refine (Value.WellSpelled.string text).readsBack_of_succ fun fuel rest _ _ => ?_
    obtain ⟨inside, hwrite, hinside⟩ := readString_writeText text
    have hvalue : (Value.string text).write = '"' :: inside := hwrite
    rw [hvalue, List.cons_append, readValue, skipSpace_cons rfl]
    simp only [hinside, Option.map_some]
  | array h ih => exact readsBack_array fun item hitem => ⟨h item hitem, ih item hitem⟩
  | object h ih => exact readsBack_object fun field hfield => ⟨h field hfield, ih field hfield⟩

-- The whole text is read, and nothing is left over.
theorem parse_write {value : Value} (h : value.WellSpelled) : parse? value.write = some value := by
  have hread := h.readsBack (2 * value.write.length + 2) [] (by omega) rfl
  rw [List.append_nil] at hread
  rw [parse?, hread]
  rfl

theorem parse_toText {value : Value} (h : value.WellSpelled) :
    parse? value.toText.toList = some value := by
  rw [Value.toText, String.toList_ofList, parse_write h]

end CodePanel.Json
