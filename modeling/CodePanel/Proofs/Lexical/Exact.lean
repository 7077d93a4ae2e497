import CodePanel.Proofs.Lexical.Refinement
import CodePanel.Proofs.Lexical.Scan

namespace CodePanel.Source

variable {source : List Char}

-- Lexemes laid end to end from a position.
def spansFrom (p : Nat) : List Lexeme → List Span
  | [] => []
  | lexeme :: rest =>
    let q := p + lexeme.text.length
    ⟨lexeme.kind, p, q⟩ :: spansFrom q rest

theorem le_start_of_mem_spansFrom {p : Nat} {list : List Lexeme} {span : Span}
    (h : span ∈ spansFrom p list) : p ≤ span.start := by
  induction list generalizing p with
  | nil => cases h
  | cons lexeme rest ih =>
    rcases List.mem_cons.mp h with rfl | h
    · exact Nat.le_refl p
    · exact Nat.le_trans (Nat.le_add_right _ _) (ih h)

-- The scan finds every span from a position on, and finds no other.
theorem described_iff_mem_pieces {p : Nat} (hclean : Clean source p) :
    ∀ span : Span, p ≤ span.start → (Described source span ↔ span.kind ≠ .text ∧
      span ∈ spansFrom p (pieces (charBefore source p) (source.drop p))) := by
  refine pieces_induction (motive := fun p list => ∀ span : Span, p ≤ span.start →
    (Described source span ↔ span.kind ≠ .text ∧ span ∈ spansFrom p list)) ?_ ?_ hclean
  · intro span hp
    have hlate : ¬Described source span := by
      intro h
      have := h.start_lt
      omega
    simp [hlate, spansFrom]
  · intro kind p q list hpiece hlt ih span hp
    have hq : p + (between source p q).length = q := by
      rw [length_between hpiece.le]
      omega
    simp only [spansFrom, hq, List.mem_cons]
    by_cases hin : span.start < q
    · rw [hpiece.exact span hp hin]
      constructor
      · intro h
        obtain ⟨hkind, rfl⟩ := h
        exact ⟨hkind, Or.inl rfl⟩
      · intro h
        obtain ⟨hkind, rfl | h⟩ := h
        · exact ⟨hkind, rfl⟩
        · have := le_start_of_mem_spansFrom h
          omega
    · rw [ih span (by omega)]
      constructor
      · intro h
        exact ⟨h.1, Or.inr h.2⟩
      · intro h
        obtain ⟨hkind, rfl | h⟩ := h
        · exact absurd hlt hin
        · exact ⟨hkind, h⟩

theorem offset_add (source : List Char) (p n : Nat) :
    offset source (p + n) = offset source p + byteLength ((source.drop p).take n) := by
  rw [offset, offset, List.take_add, byteLength_append]

-- A span of characters as a token of bytes.
def Span.token (source : List Char) (span : Span) : Token :=
  ⟨span.kind, offset source span.start, offset source span.stop⟩

theorem place_eq_map_spansFrom {p : Nat} {list : List Lexeme} (h : textOf list = source.drop p) :
    place (offset source p) list = (spansFrom p list).map (Span.token source) := by
  induction list generalizing p with
  | nil => rfl
  | cons lexeme rest ih =>
    have htext : lexeme.text ++ textOf rest = source.drop p := h
    have hstop : offset source (p + lexeme.text.length) =
        offset source p + byteLength lexeme.text := by
      rw [offset_add, ← htext, List.take_left]
    have hrest : textOf rest = source.drop (p + lexeme.text.length) := by
      rw [← List.drop_drop, ← htext, List.drop_left]
    simp only [place, spansFrom, List.map_cons, Span.token, ← hstop, ih hrest]

-- The tokens that are not plain text are exactly the described spans, each of them once and in the
-- order of the text.
theorem tokenize_exact (source : List Char) :
    (∀ token : Token, (token ∈ tokenize source ∧ token.kind ≠ .text) ↔
      ∃ span, Described source span ∧ token = span.token source) ∧
    (tokenize source).Pairwise (·.start < ·.start) := by
  refine ⟨fun token => ?_, pairwise_tokenize source⟩
  have hplace : place 0 (pieces none source) =
      (spansFrom 0 (pieces none source)).map (Span.token source) :=
    @place_eq_map_spansFrom source 0 _ (textOf_pieces none source)
  have hspan : ∀ span, Described source span ↔
      span.kind ≠ .text ∧ span ∈ spansFrom 0 (pieces none source) :=
    fun span => described_iff_mem_pieces (clean_zero source) span (Nat.zero_le _)
  -- joining plain text does not touch the other tokens
  have hjoin : (token ∈ tokenize source ∧ token.kind ≠ .text) ↔
      (token ∈ place 0 (pieces none source) ∧ token.kind ≠ .text) := by
    have h := filter_place_joinText 0 (pieces none source)
    have hmem := congrArg (token ∈ ·) h
    simpa only [List.mem_filter, decide_eq_true_eq, eq_iff_iff, tokenize_eq, lexemes] using hmem
  rw [hjoin, hplace, List.mem_map]
  constructor
  · rintro ⟨⟨span, hmem, rfl⟩, hkind⟩
    exact ⟨span, (hspan span).mpr ⟨hkind, hmem⟩, rfl⟩
  · rintro ⟨span, hdescribed, rfl⟩
    obtain ⟨hkind, hmem⟩ := (hspan span).mp hdescribed
    exact ⟨⟨span, hmem, rfl⟩, hkind⟩

end CodePanel.Source
