import CodePanel.Proofs.Lexical.Extent

namespace CodePanel.Source

variable {source : List Char}

theorem bareSpan_start {i j : Nat} {span : Span} (h : bareSpan? source i j = some span) :
    span.start = i := by
  simp only [bareSpan?] at h
  split at h
  · split at h
    · cases h; rfl
    · cases h
  · split at h
    · cases h; rfl
    · split at h
      · cases h; rfl
      · split at h
        · cases h; rfl
        · cases h

-- Only three characters are sigils.
def IsSigil (c : Char) : Prop := c = '$' ∨ c = '@' ∨ c = '%'

theorem isSigil_of_sigilKind? {i j : Nat} {kind : Kind}
    (h : sigilKind? source i j = some kind) : ∃ c, charBefore source i = some c ∧ IsSigil c := by
  simp only [sigilKind?] at h
  split at h
  · next hs => exact ⟨'$', hs.2, Or.inl rfl⟩
  · split at h
    · next hs => exact ⟨'@', hs.2, Or.inr (Or.inl rfl)⟩
    · split at h
      · next hs => exact ⟨'%', hs.2.1, Or.inr (Or.inr rfl)⟩
      · cases h

theorem not_isWordChar_of_isSigil {c : Char} (h : IsSigil c) : isWordChar c = false := by
  rcases h with rfl | rfl | rfl <;> rfl

theorem sigilKind_cases {i j : Nat} {kind : Kind} (h : sigilKind? source i j = some kind) :
    kind = .variable ∨ kind = .jump ∨ kind = .register := by
  simp only [sigilKind?] at h
  split at h
  · exact Or.inl (Option.some.inj h).symm
  · split at h
    · exact Or.inr (Or.inl (Option.some.inj h).symm)
    · split at h
      · exact Or.inr (Or.inr (Option.some.inj h).symm)
      · cases h

theorem sigilKind_eq_none {i j : Nat} {c : Char} (h : charBefore source i = some c)
    (hsigil : ¬IsSigil c) : sigilKind? source i j = none := by
  cases hkind : sigilKind? source i j with
  | none => rfl
  | some kind =>
    obtain ⟨d, hd, hsigil'⟩ := isSigil_of_sigilKind? hkind
    rw [h] at hd
    cases hd
    exact absurd hsigil' hsigil

theorem runSpan_start {i j : Nat} {span : Span} (h : runSpan? source i j = some span) :
    span.start = i ∨ ∃ kind c, sigilKind? source i j = some kind ∧ i = span.start + 1 ∧
      source[span.start]? = some c ∧ IsSigil c ∧ span = ⟨kind, span.start, j⟩ := by
  unfold runSpan? at h
  split at h
  · next kind hkind =>
    cases h
    obtain ⟨c, hc, hsigil⟩ := isSigil_of_sigilKind? hkind
    cases i with
    | zero => cases hc
    | succ m => exact Or.inr ⟨kind, c, hkind, rfl, hc, hsigil, rfl⟩
  · exact Or.inl (bareSpan_start h)

-- A position that neither ends a line nor starts a comment.
def Inline (source : List Char) (k : Nat) : Prop :=
  ¬EndsLine source k ∧ ¬SlashesAt source k

theorem inline_of_get {k : Nat} {c : Char} (h : source[k]? = some c) (hbreak : c ≠ '\n')
    (hreturn : ¬(c = '\r' ∧ source[k + 1]? = some '\n'))
    (hslash : ¬(c = '/' ∧ source[k + 1]? = some '/')) : Inline source k := by
  refine ⟨?_, ?_⟩
  · rintro (h' | ⟨h', hnext⟩ | h')
    · exact hbreak (Option.some.inj (h.symm.trans h'))
    · exact hreturn ⟨Option.some.inj (h.symm.trans h'), hnext⟩
    · have := (List.getElem?_eq_some_iff.mp h).1
      omega
  · rintro ⟨h', hnext⟩
    exact hslash ⟨Option.some.inj (h.symm.trans h'), hnext⟩

theorem inline_of_wordAt {k : Nat} (h : wordAt source k = true) : Inline source k := by
  obtain ⟨c, hget, hword⟩ := wordAt_iff.mp h
  apply inline_of_get hget
  · rintro rfl; cases hword
  · rintro ⟨rfl, -⟩; cases hword
  · rintro ⟨rfl, -⟩; cases hword

theorem eq_of_endsLine {k : Nat} {c : Char} (h : EndsLine source k) (hget : source[k]? = some c) :
    c = '\n' ∨ c = '\r' := by
  rcases h with h | ⟨h, -⟩ | h
  · exact Or.inl (Option.some.inj (hget.symm.trans h))
  · exact Or.inr (Option.some.inj (hget.symm.trans h))
  · have := (List.getElem?_eq_some_iff.mp hget).1
    omega

theorem not_wordAt_of_endsLine {k : Nat} (h : EndsLine source k) : wordAt source k = false := by
  cases hword : wordAt source k with
  | false => rfl
  | true => exact absurd h (inline_of_wordAt hword).1

theorem isBreak_iff {i j : Nat} : IsBreak source i j ↔
    (source[i]? = some '\n' ∧ charBefore source i ≠ some '\r' ∧ j = i + 1) ∨
    (source[i]? = some '\r' ∧ source[i + 1]? = some '\n' ∧ j = i + 2) := by
  constructor
  · rintro ⟨n, hn, rfl, rfl⟩
    split
    · next hreturn =>
      cases n with
      | zero => cases hreturn
      | succ m => exact Or.inr ⟨hreturn, hn, rfl⟩
    · next hreturn => exact Or.inl ⟨hn, hreturn, rfl⟩
  · rintro (⟨hn, hreturn, rfl⟩ | ⟨hreturn, hn, rfl⟩)
    · exact ⟨i, hn, rfl, (if_neg hreturn).symm⟩
    · exact ⟨i + 1, hn, rfl, (if_pos hreturn).symm⟩

-- The spans that start at a position, by what stands there.
theorem Described.cases_start {span : Span} (h : Described source span) :
    (EndsLine source span.start ∧ IsBreak source span.start span.stop ∧
      span.kind = .lineBreak) ∨
    (SlashesAt source span.start ∧ IsComment source span.start span.stop ∧
      span.kind = .comment) ∨
    ∃ i j, IsRun source i j ∧ IsCode source i ∧ runSpan? source i j = some span := by
  cases h with
  | @lineBreak i j h =>
    obtain ⟨n, hn, rfl, rfl⟩ := id h
    refine Or.inl ⟨?_, h, rfl⟩
    simp only
    split
    · next hreturn =>
      cases n with
      | zero => cases hreturn
      | succ m => exact Or.inr (Or.inl ⟨hreturn, hn⟩)
    · exact Or.inl hn
  | @comment i j h =>
    obtain ⟨a, hline, ha, hj, hslashes, hfirst⟩ := id h
    exact Or.inr (Or.inl ⟨hslashes, h, rfl⟩)
  | @run i j _ hrun hcode hspan => exact Or.inr (Or.inr ⟨i, j, hrun, hcode, hspan⟩)

-- Inside a line a span is a run, or a sigil and the run behind it.
theorem Described.cases_inline {span : Span} (h : Described source span)
    (hinline : Inline source span.start) :
    (∃ j, IsRun source span.start j ∧ runSpan? source span.start j = some span) ∨
    ∃ j kind, IsRun source (span.start + 1) j ∧ sigilKind? source (span.start + 1) j = some kind ∧
      span = ⟨kind, span.start, j⟩ ∧ wordAt source span.start = false := by
  rcases h.cases_start with ⟨hend, -⟩ | ⟨hslashes, -⟩ | ⟨i, j, hrun, -, hspan⟩
  · exact absurd hend hinline.1
  · exact absurd hslashes hinline.2
  · rcases runSpan_start hspan with rfl | ⟨kind, c, hkind, rfl, hget, hsigil, heq⟩
    · exact Or.inl ⟨j, hrun, hspan⟩
    · exact Or.inr ⟨j, kind, hrun, hkind, heq,
        (wordAt_of_get hget).trans (not_isWordChar_of_isSigil hsigil)⟩

theorem runSpan_kind_ne_lineBreak {i j : Nat} {span : Span} (h : runSpan? source i j = some span) :
    span.kind ≠ .lineBreak := by
  intro hkind
  unfold runSpan? at h
  split at h
  · next kind hsigil =>
    cases h
    rcases sigilKind_cases hsigil with h | h | h <;> rw [h] at hkind <;> cases hkind
  · simp only [bareSpan?] at h
    repeat' split at h
    all_goals cases h
    all_goals cases hkind

theorem Described.isBreak {i j : Nat} (h : Described source ⟨.lineBreak, i, j⟩) :
    IsBreak source i j := by
  cases h with
  | lineBreak h => exact h
  | run _ _ hspan => exact absurd rfl (runSpan_kind_ne_lineBreak hspan)

-- A span that starts at the end of a line is a break.
theorem Described.isBreak_of_endsLine {kind : Kind} {start stop : Nat}
    (h : Described source ⟨kind, start, stop⟩) (hend : EndsLine source start) :
    IsBreak source start stop ∧ kind = .lineBreak := by
  have hnot : ∀ c, source[start]? = some c → c ≠ '/' ∧ isWordChar c = false ∧ ¬IsSigil c := by
    intro c hget
    rcases eq_of_endsLine hend hget with rfl | rfl
    · exact ⟨by decide, rfl, by unfold IsSigil; decide⟩
    · exact ⟨by decide, rfl, by unfold IsSigil; decide⟩
  rcases h.cases_start with ⟨-, hbreak⟩ | ⟨hslashes, -⟩ | ⟨i, j, hrun, -, hspan⟩
  · exact hbreak
  · exact absurd rfl (hnot _ hslashes.1).1
  · rcases runSpan_start hspan with rfl | ⟨kind, c, -, -, hget, hsigil, -⟩
    · obtain ⟨c, hget, hword⟩ := wordAt_iff.mp (hrun.inside _ (Nat.le_refl _) hrun.lt)
      rw [(hnot c hget).2.1] at hword
      cases hword
    · exact absurd hsigil (hnot c hget).2.2

theorem Described.start_lt {span : Span} (h : Described source span) :
    span.start < source.length := by
  rcases h.cases_start with ⟨-, h, -⟩ | ⟨h, -⟩ | ⟨i, j, hrun, -, hspan⟩
  · rcases isBreak_iff.mp h with ⟨h, -⟩ | ⟨h, -⟩
    · exact (List.getElem?_eq_some_iff.mp h).1
    · exact (List.getElem?_eq_some_iff.mp h).1
  · exact (List.getElem?_eq_some_iff.mp h.1).1
  · have hlt := hrun.lt
    have hle := hrun.stop_le
    rcases runSpan_start hspan with h | ⟨-, -, -, h, -⟩ <;> omega

end CodePanel.Source
