import CodePanel.Proofs.Lexical.Extent

namespace CodePanel.Source

theorem length_wordAhead_le (text : List Char) : (wordAhead text).length ≤ text.length :=
  (List.takeWhile_prefix isWordChar).length_le

theorem lineLength_le (text : List Char) : lineLength text ≤ text.length := by
  fun_induction lineLength text with
  | case1 => simp
  | case2 rest => simp
  | case3 rest => simp
  | case4 c rest hbreak hreturn ih =>
    simp only [List.length_cons]
    omega

theorem sigilReach_le (kind : Kind) (rest : List Char) :
    (sigilReach kind rest).2 ≤ rest.length := by
  unfold sigilReach
  split
  · exact length_wordAhead_le rest
  · exact Nat.zero_le _

theorem wordReach_le (c : Char) (rest : List Char) : (wordReach c rest).2 ≤ rest.length := by
  have hword := length_wordAhead_le rest
  simp only [wordReach]
  split
  · exact hword
  · split
    · next hcolon =>
      -- the colon is a character of the text behind the word
      obtain ⟨more, hmore⟩ := List.head?_eq_some_iff.mp hcolon
      have hlen := congrArg List.length hmore
      simp only [List.length_drop, List.length_cons] at hlen
      simp only
      omega
    · exact hword

-- A step never claims more than there is.
theorem reach_le (before : Option Char) (c : Char) (rest : List Char) :
    (reach before c rest).2 ≤ rest.length := by
  unfold reach
  split
  · exact Nat.zero_le _
  split
  · next h =>
    obtain ⟨more, rfl⟩ := List.head?_eq_some_iff.mp h.2
    simp
  split
  · next h =>
    obtain ⟨more, rfl⟩ := List.head?_eq_some_iff.mp h.2
    have hline := lineLength_le more
    simp only [List.drop_one, List.tail_cons, List.length_cons]
    omega
  split
  · simp only
    split
    · exact length_wordAhead_le rest
    · exact Nat.zero_le _
  split
  · exact sigilReach_le _ rest
  split
  · exact sigilReach_le _ rest
  split
  · exact wordReach_le c rest
  · exact Nat.zero_le _

-- A line break that can stand behind a text without taking a `\r` from it.
def IsEnding (text ending : List Char) : Prop :=
  ending = ['\r', '\n'] ∨ (ending = ['\n'] ∧ text.getLast? ≠ some '\r')

-- The rest of a text ends as the text does.
theorem IsEnding.drop {text ending : List Char} (h : IsEnding text ending) (n : Nat) :
    IsEnding (text.drop n) ending := by
  rcases h with rfl | ⟨rfl, hlast⟩
  · exact Or.inl rfl
  · refine Or.inr ⟨rfl, ?_⟩
    rw [List.getLast?_drop]
    split
    · simp
    · exact hlast

theorem IsEnding.tail {c : Char} {text ending : List Char} (h : IsEnding (c :: text) ending) :
    IsEnding text ending :=
  h.drop 1

section

variable {text ending : List Char} (behind : List Char)

-- No test but one for line breaks can tell a break from the end of the text.
theorem IsEnding.any_head? (h : IsEnding text ending) (test : Char → Bool)
    (hnewline : test '\n' = false) (hreturn : test '\r' = false) :
    (text ++ (ending ++ behind)).head?.any test = text.head?.any test := by
  cases text with
  | nil => rcases h with rfl | ⟨rfl, -⟩ <;> simp [hnewline, hreturn]
  | cons c text => rfl

theorem IsEnding.head?_eq_some (h : IsEnding text ending) {d : Char} (hnewline : d ≠ '\n')
    (hreturn : d ≠ '\r') :
    (text ++ (ending ++ behind)).head? = some d ↔ text.head? = some d := by
  have hany := h.any_head? behind (· == d) (by simpa using hnewline.symm)
    (by simpa using hreturn.symm)
  have hiff : ∀ o : Option Char, o = some d ↔ o.any (· == d) = true := by
    intro o
    cases o <;> simp
  rw [hiff, hiff, hany]

-- A `\r` is not made part of the break behind it.
theorem IsEnding.return_iff {c : Char} (h : IsEnding (c :: text) ending) :
    c = '\r' ∧ (text ++ (ending ++ behind)).head? = some '\n' ↔
      c = '\r' ∧ text.head? = some '\n' := by
  cases text with
  | nil =>
    rcases h with rfl | ⟨rfl, hlast⟩
    · simp
    · have hne : c ≠ '\r' := by simpa using hlast
      simp [hne]
  | cons d text => rfl

theorem IsEnding.wordAhead_eq (h : IsEnding text ending) :
    wordAhead (text ++ (ending ++ behind)) = wordAhead text := by
  unfold wordAhead
  induction text with
  | nil => rcases h with rfl | ⟨rfl, -⟩ <;> rfl
  | cons c text ih =>
    rw [List.cons_append, List.takeWhile_cons, List.takeWhile_cons, ih h.tail]

theorem IsEnding.lineLength_eq (h : IsEnding text ending) :
    lineLength (text ++ (ending ++ behind)) = lineLength text := by
  fun_induction lineLength text with
  | case1 => rcases h with rfl | ⟨rfl, -⟩ <;> simp [lineLength]
  | case2 rest => simp [lineLength]
  | case3 rest => simp [lineLength]
  | case4 c rest hbreak hreturn ih =>
    rw [List.cons_append, lineLength, ih h.tail]
    · exact hbreak
    · intro more hc hmore
      obtain ⟨-, hhead⟩ := (h.return_iff behind).mp ⟨hc, by rw [hmore]; rfl⟩
      obtain ⟨tail, rfl⟩ := List.head?_eq_some_iff.mp hhead
      exact hreturn tail hc rfl

theorem IsEnding.sigilReach_eq (h : IsEnding text ending) (kind : Kind) :
    sigilReach kind (text ++ (ending ++ behind)) = sigilReach kind text := by
  simp only [sigilReach, h.wordAhead_eq, h.any_head? behind isIdentStart rfl rfl]

theorem IsEnding.wordReach_eq (h : IsEnding text ending) (c : Char) :
    wordReach c (text ++ (ending ++ behind)) = wordReach c text := by
  have hword := length_wordAhead_le text
  have hcolon := (h.drop (wordAhead text).length).head?_eq_some behind (d := ':') (by decide)
    (by decide)
  simp only [wordReach, h.wordAhead_eq, List.drop_append_of_le_length hword, hcolon]

-- What stands behind the end of the line makes no difference to a step.
theorem IsEnding.reach_eq {c : Char} (h : IsEnding (c :: text) ending) (before : Option Char) :
    reach before c (text ++ (ending ++ behind)) = reach before c text := by
  have hslash := h.tail.head?_eq_some behind (d := '/') (by decide) (by decide)
  simp only [reach, h.return_iff, hslash, h.tail.wordAhead_eq, h.tail.sigilReach_eq,
    h.tail.wordReach_eq]
  split
  · rfl
  split
  · rfl
  split
  · next hcomment =>
    -- the second slash belongs to the text, and so the line ends where it ended
    obtain ⟨more, rfl⟩ := List.head?_eq_some_iff.mp hcomment.2
    rw [List.drop_append_of_le_length (by simp), (h.tail.drop 1).lineLength_eq]
  · rfl

end

end CodePanel.Source
