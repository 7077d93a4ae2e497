import CodePanel.Proofs.Lexical.Description
import CodePanel.Proofs.Lexical.Pieces

namespace CodePanel.Source

-- The scanner's classes of characters are the ones of the description.
theorem isSmall_eq : isSmall = Char.isLower := rfl

theorem isDecimal_eq : isDecimal = Char.isDigit := rfl

theorem isCapital_eq : isCapital = Char.isUpper := by
  funext c
  have hupper : c.isUpper = decide ('A' ≤ c ∧ c ≤ 'Z') := rfl
  rw [hupper, Bool.decide_and]
  rfl

theorem opensName_eq : opensName = isIdentStart := by
  funext c
  have halpha : c.isAlpha = (c.isUpper || c.isLower) := rfl
  rw [isIdentStart, halpha, opensName, isSmall_eq, isCapital_eq, Bool.or_comm c.isLower]

theorem inWord_eq : inWord = isWordChar := by
  funext c
  have halphanum : c.isAlphanum = (c.isUpper || c.isLower || c.isDigit) := rfl
  rw [isWordChar, halphanum, inWord, isSmall_eq, isCapital_eq, isDecimal_eq,
    Bool.or_comm c.isLower]

-- Looking ahead in the rest of a text is looking at later positions of the text.
theorem drop_eq_cons_iff {source rest : List Char} {p : Nat} {c : Char} :
    source.drop p = c :: rest ↔ source[p]? = some c ∧ rest = source.drop (p + 1) := by
  constructor
  · intro h
    have hget := congrArg (·[0]?) h
    have hdrop := congrArg (·.drop 1) h
    simp only [List.getElem?_drop, List.drop_drop] at hget hdrop
    exact ⟨by simpa using hget, by simpa [Nat.add_comm] using hdrop.symm⟩
  · rintro ⟨hget, rfl⟩
    obtain ⟨hp, rfl⟩ := List.getElem?_eq_some_iff.mp hget
    exact List.drop_eq_getElem_cons hp

theorem length_between {source : List Char} {p q : Nat} (hq : q ≤ source.length) :
    (between source p q).length = q - p := by
  simp only [between, List.length_take, List.length_drop]
  omega

theorem drop_eq_between_append {source : List Char} {p q : Nat} (h : p ≤ q) :
    source.drop p = between source p q ++ source.drop q := by
  unfold between
  rw [show source.drop q = (source.drop p).drop (q - p) by rw [List.drop_drop, Nat.add_sub_of_le h],
    List.take_append_drop]

theorem wordAt_eq (source : List Char) (k : Nat) :
    wordAt source k = source[k]?.any isWordChar := by
  rw [wordAt, inWord_eq]

theorem wordAt_iff {source : List Char} {k : Nat} :
    wordAt source k = true ↔ ∃ c, source[k]? = some c ∧ isWordChar c = true := by
  rw [wordAt_eq]
  cases source[k]? <;> simp

theorem wordAt_of_get {source : List Char} {k : Nat} {c : Char} (h : source[k]? = some c) :
    wordAt source k = isWordChar c := by
  simp [wordAt_eq, h]

-- The end of the run of word characters that starts at a position.
def wordEnd (source : List Char) (p : Nat) : Nat :=
  p + (wordAhead (source.drop p)).length

private theorem any_takeWhile (test : Char → Bool) (text : List Char) :
    (∀ k < (text.takeWhile test).length, text[k]?.any test = true) ∧
      text[(text.takeWhile test).length]?.any test = false := by
  induction text with
  | nil => simp
  | cons c rest ih =>
    by_cases hc : test c = true
    · simp only [List.takeWhile_cons, hc, if_true, List.length_cons, List.getElem?_cons_succ]
      refine ⟨fun k hk => ?_, ih.2⟩
      cases k with
      | zero => simpa using hc
      | succ k => simpa using ih.1 k (by omega)
    · simp [hc]

theorem wordAt_of_lt_wordEnd {source : List Char} {p k : Nat} (hp : p ≤ k)
    (hk : k < wordEnd source p) : wordAt source k = true := by
  have h := (any_takeWhile isWordChar (source.drop p)).1 (k - p) (by
    simp only [wordEnd, wordAhead] at hk
    omega)
  rw [List.getElem?_drop, Nat.add_sub_of_le hp] at h
  exact (wordAt_eq source k).trans h

theorem wordAt_wordEnd (source : List Char) (p : Nat) :
    wordAt source (wordEnd source p) = false := by
  have h := (any_takeWhile isWordChar (source.drop p)).2
  rw [List.getElem?_drop] at h
  exact (wordAt_eq source _).trans h

-- The first position from `p` on that holds no word character is the end of the run.
theorem eq_wordEnd {source : List Char} {p j : Nat} (hp : p ≤ j)
    (hinside : ∀ k, p ≤ k → k < j → wordAt source k = true) (hj : wordAt source j = false) :
    j = wordEnd source p := by
  have hle : p ≤ wordEnd source p := Nat.le_add_right _ _
  rcases Nat.lt_trichotomy j (wordEnd source p) with h | h | h
  · simp [wordAt_of_lt_wordEnd hp h] at hj
  · exact h
  · have := hinside _ hle h
    simp [wordAt_wordEnd] at this

theorem between_wordEnd (source : List Char) (p : Nat) :
    between source p (wordEnd source p) = wordAhead (source.drop p) := by
  simp only [between, wordEnd, Nat.add_sub_cancel_left]
  exact List.prefix_iff_eq_take.mp (List.takeWhile_prefix isWordChar) |>.symm

theorem IsRun.eq_wordEnd {source : List Char} {i j : Nat} (h : IsRun source i j) :
    j = wordEnd source i :=
  Source.eq_wordEnd (Nat.le_of_lt h.lt) h.inside h.behind

-- A word character with no word character in front of it starts a run.
theorem isRun_wordEnd {source : List Char} {p : Nat} (hword : wordAt source p = true)
    (hbefore : (charBefore source p).any inWord = false) :
    IsRun source p (wordEnd source p) where
  lt := by
    have hle : p ≤ wordEnd source p := Nat.le_add_right _ _
    have hne : p ≠ wordEnd source p := by
      intro h
      have := wordAt_wordEnd source p
      rw [← h, hword] at this
      cases this
    omega
  inside _ hp hk := wordAt_of_lt_wordEnd hp hk
  before := hbefore
  behind := wordAt_wordEnd source p

-- No run starts behind a word character.
theorem not_isRun_of_wordAt {source : List Char} {k j : Nat} (h : wordAt source k = true) :
    ¬IsRun source (k + 1) j := by
  intro hrun
  have := hrun.before
  simp only [charBefore] at this
  rw [wordAt] at h
  simp [h] at this

-- A text is read up to its first end of line.
theorem lineLength_spec (text : List Char) :
    (∀ k < lineLength text, ¬EndsLine text k) ∧ EndsLine text (lineLength text) := by
  fun_induction lineLength text with
  | case1 => simp [EndsLine]
  | case2 rest => simp [EndsLine]
  | case3 rest => simp [EndsLine]
  | case4 c rest hbreak hreturn ih =>
    refine ⟨fun k hk => ?_, by simpa [EndsLine] using ih.2⟩
    cases k with
    | zero =>
      rintro (h | ⟨h, h'⟩ | h)
      · exact hbreak (by simpa using h)
      · obtain ⟨tail, rfl⟩ : ∃ tail, rest = '\n' :: tail := by
          cases rest with
          | nil => simp at h'
          | cons d tail => exact ⟨tail, by simpa using h'⟩
        exact hreturn tail (by simpa using h) rfl
      · simp at h
    | succ k => simpa [EndsLine] using ih.1 k (by omega)

-- The end of the line that a position lies on.
def lineEnd (source : List Char) (p : Nat) : Nat :=
  p + lineLength (source.drop p)

theorem endsLine_drop {source : List Char} {p k : Nat} (hp : p ≤ source.length) :
    EndsLine (source.drop p) k ↔ EndsLine source (p + k) := by
  simp only [EndsLine, List.getElem?_drop, List.length_drop, Nat.add_assoc]
  have : k = source.length - p ↔ p + k = source.length := by omega
  rw [this]

theorem endsLine_lineEnd {source : List Char} {p : Nat} (hp : p ≤ source.length) :
    EndsLine source (lineEnd source p) :=
  (endsLine_drop hp).mp (lineLength_spec _).2

theorem not_endsLine_of_lt {source : List Char} {p k : Nat} (hp : p ≤ k)
    (hk : k < lineEnd source p) : ¬EndsLine source k := by
  intro h
  have hlen : p ≤ source.length := by
    rcases h with h | ⟨h, -⟩ | h
    · have := (List.getElem?_eq_some_iff.mp h).1; omega
    · have := (List.getElem?_eq_some_iff.mp h).1; omega
    · omega
  have hnot := (lineLength_spec (source.drop p)).1 (k - p) (by unfold lineEnd at hk; omega)
  rw [endsLine_drop hlen, Nat.add_sub_of_le hp] at hnot
  exact hnot h

-- A text has one line at each position.
theorem IsLine.unique {source : List Char} {a e b f k : Nat} (h : IsLine source a e)
    (h' : IsLine source b f) (ha : a ≤ k) (he : k ≤ e) (hb : b ≤ k) (hf : k ≤ f) :
    a = b ∧ e = f := by
  -- a line cannot start inside another one, since a terminator stands in front of it
  have hstart : ∀ {a e b f : Nat}, IsLine source a e → IsLine source b f → b ≤ e → b ≤ a := by
    intro a e b f h h' hle
    apply Nat.le_of_not_lt
    intro hlt
    rcases h'.start with rfl | hb
    · omega
    · obtain ⟨m, rfl⟩ : ∃ m, b = m + 1 := ⟨b - 1, by omega⟩
      exact h.inside m (by omega) (by omega) (Or.inl hb)
  have hab : a = b := Nat.le_antisymm (hstart h' h (by omega)) (hstart h h' (by omega))
  subst hab
  refine ⟨rfl, ?_⟩
  rcases Nat.lt_trichotomy e f with hlt | heq | hlt
  · exact absurd h.stop (h'.inside e h.le hlt)
  · exact heq
  · exact absurd h'.stop (h.inside f h'.le hlt)

theorem IsLine.stop_le {source : List Char} {a e : Nat} (h : IsLine source a e) :
    e ≤ source.length := by
  rcases h.stop with h | ⟨h, -⟩ | h
  · exact Nat.le_of_lt (List.getElem?_eq_some_iff.mp h).1
  · exact Nat.le_of_lt (List.getElem?_eq_some_iff.mp h).1
  · exact Nat.le_of_eq h

theorem IsLine.eq_lineEnd {source : List Char} {a e p : Nat} (h : IsLine source a e)
    (ha : a ≤ p) (he : p ≤ e) :
    e = lineEnd source p := by
  have hle : p ≤ lineEnd source p := Nat.le_add_right _ _
  rcases Nat.lt_trichotomy e (lineEnd source p) with hlt | heq | hlt
  · exact absurd h.stop (not_endsLine_of_lt he hlt)
  · exact heq
  · exact absurd (endsLine_lineEnd (Nat.le_trans he h.stop_le)) (h.inside _ (by omega) hlt)

theorem IsRun.stop_le {source : List Char} {i j : Nat} (h : IsRun source i j) :
    j ≤ source.length := by
  have hlt := h.lt
  obtain ⟨c, hget, -⟩ := wordAt_iff.mp (h.inside (j - 1) (by omega) (by omega))
  have := (List.getElem?_eq_some_iff.mp hget).1
  omega

-- No run starts inside a run or right behind it.
theorem IsRun.not_isRun {source : List Char} {i j k l : Nat} (h : IsRun source i j)
    (hik : i < k) (hkj : k ≤ j) :
    ¬IsRun source k l := by
  obtain ⟨m, rfl⟩ : ∃ m, k = m + 1 := ⟨k - 1, by omega⟩
  exact not_isRun_of_wordAt (h.inside m (by omega) (by omega))

-- So a run that starts there is the run itself.
theorem IsRun.eq_of_start_le {source : List Char} {i j k l : Nat} (h : IsRun source i j)
    (hik : i ≤ k) (hkj : k ≤ j) (h' : IsRun source k l) : k = i ∧ l = j := by
  have hstart : k = i := by
    apply Nat.le_antisymm _ hik
    apply Nat.le_of_not_lt
    intro hgt
    exact h.not_isRun hgt hkj h'
  subst hstart
  exact ⟨rfl, h'.eq_wordEnd.trans h.eq_wordEnd.symm⟩

end CodePanel.Source
