import CodePanel.Proofs.Lexical.Spans

namespace CodePanel.Source

variable {source : List Char}

-- A position in front of its line's comment, or at the end of its line.
def OnLine (source : List Char) (p : Nat) : Prop :=
  ∃ a e, IsLine source a e ∧ a ≤ p ∧ p ≤ e ∧ (p = e ∨ ∀ m, a ≤ m → m < p → ¬SlashesAt source m)

-- A position at which a piece can start. The run that starts there, if there is one, is whole and
-- belongs to no sigil.
structure Clean (source : List Char) (p : Nat) : Prop where
  line : OnLine source p
  whole : wordAt source p = true → (charBefore source p).any inWord = false
  bare : ∀ j, IsRun source p j → sigilKind? source p j = none

-- The piece from `p` to `q` says all about the spans that start in it, and a piece can start
-- behind it.
structure IsPiece (source : List Char) (kind : Kind) (p q : Nat) : Prop where
  le : q ≤ source.length
  clean : Clean source q
  exact : ∀ span : Span, p ≤ span.start → span.start < q →
    (Described source span ↔ kind ≠ .text ∧ span = ⟨kind, p, q⟩)

theorem OnLine.advance {p q : Nat} (h : OnLine source p) (hle : p ≤ q)
    (hinline : ∀ m, p ≤ m → m < q → Inline source m) : OnLine source q := by
  obtain ⟨a, e, hline, ha, he, hopen⟩ := h
  have hq : q ≤ e := by
    apply Nat.le_of_not_lt
    intro hlt
    exact (hinline e he hlt).1 hline.stop
  refine ⟨a, e, hline, by omega, hq, ?_⟩
  rcases hopen with rfl | hopen
  · exact Or.inl (by omega)
  · refine Or.inr fun m hm hlt => ?_
    by_cases hmp : m < p
    · exact hopen m hm hmp
    · exact (hinline m (by omega) hlt).2

theorem OnLine.isCode {p : Nat} (h : OnLine source p) (hinline : Inline source p) :
    IsCode source p := by
  obtain ⟨a, e, hline, ha, he, hopen⟩ := h
  have hne : p ≠ e := by
    rintro rfl
    exact hinline.1 hline.stop
  refine ⟨a, e, hline, ha, by omega, fun m hm hle => ?_⟩
  by_cases hmp : m = p
  · exact hmp ▸ hinline.2
  · exact (hopen.resolve_left hne) m hm (by omega)

-- Nothing is open at the start of the text.
theorem clean_zero (source : List Char) : Clean source 0 where
  line := ⟨0, lineEnd source 0, ⟨Or.inl rfl, Nat.zero_le _,
    fun k hk hlt => not_endsLine_of_lt hk hlt, endsLine_lineEnd (Nat.zero_le _)⟩,
    Nat.le_refl _, Nat.zero_le _, Or.inr fun m _ hlt => by omega⟩
  whole _ := rfl
  bare j _ := by simp [sigilKind?, charBefore]

-- A line starts behind every `\n`.
theorem clean_succ_of_newline {n : Nat} (h : source[n]? = some '\n') : Clean source (n + 1) := by
  have hlen : n + 1 ≤ source.length := (List.getElem?_eq_some_iff.mp h).1
  refine ⟨⟨n + 1, lineEnd source (n + 1), ?_, Nat.le_refl _, Nat.le_add_right _ _, ?_⟩, ?_, ?_⟩
  · exact ⟨Or.inr h, Nat.le_add_right _ _, fun k hk hlt => not_endsLine_of_lt hk hlt,
      endsLine_lineEnd hlen⟩
  · exact Or.inr fun m hm hlt => by omega
  · intro _
    simp only [charBefore, h]
    rfl
  · intro j _
    simp [sigilKind?, charBefore, h]

-- Where a run has just ended, nothing is open.
theorem clean_of_not_wordAt {p : Nat} (hline : OnLine source p) (h : wordAt source p = false) :
    Clean source p where
  line := hline
  whole hword := by rw [h] at hword; cases hword
  bare j hrun := by
    have := hrun.inside p (Nat.le_refl p) hrun.lt
    rw [h] at this
    cases this

-- A character that is no part of a word and claims no run is plain text.
theorem isPiece_plain {p : Nat} {c : Char} (hget : source[p]? = some c)
    (hword : isWordChar c = false) (hline : OnLine source p) (hinline : Inline source p)
    (hbare : ∀ j, IsRun source (p + 1) j → sigilKind? source (p + 1) j = none) :
    IsPiece source .text p (p + 1) where
  le := (List.getElem?_eq_some_iff.mp hget).1
  clean := {
    line := hline.advance (Nat.le_succ p) fun m hm hlt => by
      obtain rfl : m = p := by omega
      exact hinline
    whole := fun _ => by simpa [charBefore, hget, inWord_eq] using hword
    bare := hbare }
  exact span hle hlt := by
    obtain rfl : p = span.start := by omega
    refine ⟨fun h => ?_, fun h => absurd rfl h.1⟩
    rcases h.cases_inline hinline with ⟨j, hrun, -⟩ | ⟨j, kind, hrun, hkind, -⟩
    · have := hrun.inside _ (Nat.le_refl _) hrun.lt
      rw [wordAt_of_get hget, hword] at this
      cases this
    · rw [hbare j hrun] at hkind
      cases hkind

-- A sigil and the run that it claims are one piece.
theorem isPiece_sigil {p q : Nat} {c : Char} {kind : Kind} (hget : source[p]? = some c)
    (hword : isWordChar c = false) (hline : OnLine source p) (hinline : Inline source p)
    (hrun : IsRun source (p + 1) q) (hkind : sigilKind? source (p + 1) q = some kind) :
    IsPiece source kind p q := by
  have hnot : wordAt source p = false := (wordAt_of_get hget).trans hword
  have hspan : runSpan? source (p + 1) q = some ⟨kind, p, q⟩ := by simp [runSpan?, hkind]
  have hlt := hrun.lt
  have hall : ∀ m, p ≤ m → m < q → Inline source m := by
    intro m hm hmq
    by_cases heq : m = p
    · exact heq ▸ hinline
    · exact inline_of_wordAt (hrun.inside m (by omega) hmq)
  have hnext : OnLine source (p + 1) :=
    hline.advance (Nat.le_succ p) fun m hm hmq => hall m hm (by omega)
  refine ⟨hrun.stop_le, clean_of_not_wordAt (hline.advance (by omega) hall) hrun.behind, ?_⟩
  intro span hle hstart
  constructor
  · intro h
    have htext : kind ≠ .text := by
      rcases sigilKind_cases hkind with rfl | rfl | rfl <;> decide
    refine ⟨htext, ?_⟩
    rcases h.cases_inline (hall _ hle hstart) with
      ⟨j, hrun', hspan'⟩ | ⟨j, kind', hrun', hkind', heq, hnot'⟩
    · -- a run that starts in the piece is the one behind the sigil, which is not bare
      have hword' := hrun'.inside _ (Nat.le_refl _) hrun'.lt
      have hne : span.start ≠ p := by
        intro heq
        rw [heq, hnot] at hword'
        cases hword'
      obtain ⟨hfirst, rfl⟩ := hrun.eq_of_start_le (by omega) (by omega) hrun'
      rw [hfirst, hspan] at hspan'
      cases hspan'
      simp at hfirst
    · have heqp : span.start = p := by
        apply Nat.le_antisymm _ hle
        apply Nat.le_of_not_lt
        intro hgt
        rw [hrun.inside _ (by omega) hstart] at hnot'
        cases hnot'
      rw [heqp] at hrun' hkind' heq
      obtain ⟨-, rfl⟩ := hrun.eq_of_start_le (Nat.le_refl _) (Nat.le_of_lt hlt) hrun'
      rw [hkind] at hkind'
      cases hkind'
      exact heq
  · rintro ⟨-, rfl⟩
    exact .run hrun (hnext.isCode (hall _ (by omega) hrun.lt)) hspan

-- A run that belongs to no sigil is one piece, with its colon if it is a label.
theorem isPiece_word {p b q : Nat} {kind : Kind} (hclean : Clean source p)
    (hrun : IsRun source p b) (hq : q = b ∨ (q = b + 1 ∧ source[b]? = some ':'))
    (hspan : bareSpan? source p b = if kind = .text then none else some ⟨kind, p, q⟩) :
    IsPiece source kind p q := by
  have hspan' : runSpan? source p b = if kind = .text then none else some ⟨kind, p, q⟩ := by
    simp only [runSpan?, hclean.bare b hrun, hspan]
  have hlt := hrun.lt
  have hall : ∀ m, p ≤ m → m < q → Inline source m := by
    intro m hm hmq
    by_cases hmb : m < b
    · exact inline_of_wordAt (hrun.inside m hm hmb)
    · obtain rfl : m = b := by omega
      rcases hq with rfl | ⟨-, hcolon⟩
      · omega
      · exact inline_of_get hcolon (by decide) (by simp) (by simp)
  have hle : q ≤ source.length := by
    rcases hq with rfl | ⟨rfl, hcolon⟩
    · exact hrun.stop_le
    · exact (List.getElem?_eq_some_iff.mp hcolon).1
  have hline := hclean.line.advance (by omega : p ≤ q) hall
  have hclean' : Clean source q := by
    rcases hq with rfl | ⟨rfl, hcolon⟩
    · exact clean_of_not_wordAt hline hrun.behind
    · refine ⟨hline, fun _ => by simp [charBefore, hcolon]; rfl, fun j _ => ?_⟩
      simp [sigilKind?, charBefore, hcolon]
  refine ⟨hle, hclean', ?_⟩
  intro span hps hstart
  constructor
  · intro h
    rcases h.cases_inline (hall _ hps hstart) with
      ⟨j, hrun', hfound⟩ | ⟨j, kind', hrun', hkind', -, hnot⟩
    · obtain ⟨hfirst, rfl⟩ := hrun.eq_of_start_le hps (by omega) hrun'
      rw [hfirst, hspan'] at hfound
      split at hfound
      · cases hfound
      · next htext => exact ⟨htext, (Option.some.inj hfound).symm⟩
    · -- only the colon of a label can be taken for a sigil, and it is none
      have hb : span.start = b := by
        have : ¬span.start < b := by
          intro hlt'
          rw [hrun.inside _ hps hlt'] at hnot
          cases hnot
        omega
      obtain rfl : q = b + 1 := by omega
      rw [hb] at hrun' hkind'
      rw [hclean'.bare j hrun'] at hkind'
      cases hkind'
  · rintro ⟨htext, rfl⟩
    rw [if_neg htext] at hspan'
    exact .run hrun (hclean.line.isCode (hall p (Nat.le_refl p) (by omega))) hspan'

-- On a line no terminator has been passed.
theorem OnLine.charBefore_ne_return {p : Nat} (h : OnLine source p)
    (hget : source[p]? = some '\n') : charBefore source p ≠ some '\r' := by
  obtain ⟨a, e, hline, ha, he, -⟩ := h
  intro hreturn
  cases p with
  | zero => cases hreturn
  | succ m =>
    by_cases hm : a ≤ m
    · exact hline.inside m hm (by omega) (Or.inr (Or.inl ⟨hreturn, hget⟩))
    · obtain rfl : a = m + 1 := by omega
      rcases hline.start with h | h
      · omega
      · rw [hreturn] at h
        cases h

theorem isPiece_newline {p : Nat} (hline : OnLine source p) (hget : source[p]? = some '\n') :
    IsPiece source .lineBreak p (p + 1) := by
  have hreturn := hline.charBefore_ne_return hget
  refine ⟨(List.getElem?_eq_some_iff.mp hget).1, clean_succ_of_newline hget, ?_⟩
  rintro ⟨kind, start, stop⟩ hle hlt
  obtain rfl : p = start := by simp only at hle hlt; omega
  constructor
  · intro h
    obtain ⟨hbreak, rfl⟩ := h.isBreak_of_endsLine (Or.inl hget)
    rcases isBreak_iff.mp hbreak with ⟨-, -, rfl⟩ | ⟨hget', -⟩
    · exact ⟨by decide, rfl⟩
    · rw [hget] at hget'
      cases hget'
  · rintro ⟨-, heq⟩
    cases heq
    exact .lineBreak (isBreak_iff.mpr (Or.inl ⟨hget, hreturn, rfl⟩))

theorem isPiece_return {p : Nat} (hget : source[p]? = some '\r')
    (hnext : source[p + 1]? = some '\n') : IsPiece source .lineBreak p (p + 2) := by
  refine ⟨(List.getElem?_eq_some_iff.mp hnext).1, clean_succ_of_newline hnext, ?_⟩
  rintro ⟨kind, start, stop⟩ hle hlt
  simp only at hle hlt
  by_cases hstart : start = p
  · subst hstart
    constructor
    · intro h
      obtain ⟨hbreak, rfl⟩ := h.isBreak_of_endsLine (Or.inr (Or.inl ⟨hget, hnext⟩))
      rcases isBreak_iff.mp hbreak with ⟨hget', -⟩ | ⟨-, -, rfl⟩
      · rw [hget] at hget'
        cases hget'
      · exact ⟨by decide, rfl⟩
    · rintro ⟨-, heq⟩
      cases heq
      exact .lineBreak (isBreak_iff.mpr (Or.inr ⟨hget, hnext, rfl⟩))
  · -- the `\n` of a pair starts nothing
    obtain rfl : start = p + 1 := by omega
    constructor
    · intro h
      obtain ⟨hbreak, -⟩ := h.isBreak_of_endsLine (Or.inl hnext)
      rcases isBreak_iff.mp hbreak with ⟨-, hne, -⟩ | ⟨hget', -⟩
      · exact absurd hget hne
      · rw [hnext] at hget'
        cases hget'
    · rintro ⟨-, heq⟩
      cases heq

-- From the first `//` on nothing starts before the end of the line.
theorem isPiece_comment {p : Nat} (hline : OnLine source p) (hslashes : SlashesAt source p) :
    IsPiece source .comment p (lineEnd source p) := by
  have hnot : ¬EndsLine source p := fun h => by
    rcases eq_of_endsLine h hslashes.1 with h | h <;> cases h
  obtain ⟨a, e, hl, ha, he, hopen⟩ := id hline
  have hne : p ≠ e := by
    rintro rfl
    exact hnot hl.stop
  have hfirst := hopen.resolve_left hne
  obtain rfl := hl.eq_lineEnd ha he
  refine ⟨hl.stop_le, clean_of_not_wordAt ⟨a, _, hl, hl.le, Nat.le_refl _, Or.inl rfl⟩
    (not_wordAt_of_endsLine hl.stop), ?_⟩
  rintro ⟨kind, start, stop⟩ hle hlt
  simp only at hle hlt
  constructor
  · intro h
    rcases h.cases_start with
      ⟨hends, -⟩ | ⟨-, ⟨b, hl', hb, hstop, hsl, hfirst'⟩, rfl⟩ |
      ⟨i, j, hrun, ⟨b, f, hl', hb, hf, hcode⟩, hspan⟩
    · exact absurd hends (hl.inside start (by omega) hlt)
    · obtain ⟨rfl, hstop'⟩ :=
        hl.unique hl' (by omega : a ≤ start) (by omega) hb (Nat.le_of_lt hstop)
      have hstart : start = p := by
        apply Nat.le_antisymm _ hle
        apply Nat.le_of_not_lt
        intro hgt
        exact hfirst' p ha hgt hslashes
      exact ⟨by decide, by rw [hstart, hstop']⟩
    · -- code stands in front of the comment, and here the comment has begun
      have hi : i = start ∨ i = start + 1 := by
        rcases runSpan_start hspan with h | ⟨-, -, -, h, -⟩
        · exact Or.inl h.symm
        · exact Or.inr h
      obtain ⟨rfl, rfl⟩ := hl.unique hl' (by omega : a ≤ i) (by omega) hb (by omega)
      exact absurd hslashes (hcode p ha (by omega))
  · rintro ⟨-, heq⟩
    cases heq
    exact .comment ⟨a, hl, ha, hlt, hslashes, hfirst⟩

end CodePanel.Source
