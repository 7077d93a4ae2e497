import CodePanel.Proofs.Lexical.Bytes
import CodePanel.Proofs.Lexical.Pieces
import Mathlib.Data.List.Chain

namespace CodePanel.Source

-- Lexemes laid end to end from a given offset.
def place (start : Nat) : List Lexeme → List Token
  | [] => []
  | lexeme :: rest =>
    let stop := start + byteLength lexeme.text
    ⟨lexeme.kind, start, stop⟩ :: place stop rest

theorem place_append (start : Nat) (front back : List Lexeme) :
    place start (front ++ back) =
      place start front ++ place (start + byteLength (textOf front)) back := by
  induction front generalizing start with
  | nil => simp [place, textOf, byteLength]
  | cons lexeme front ih =>
    have htext : textOf (lexeme :: front) = lexeme.text ++ textOf front := rfl
    simp only [List.cons_append, place, ih, htext, byteLength_append, Nat.add_assoc]

theorem map_lexeme_place (front : List Char) (list : List Lexeme) :
    (place (byteLength front) list).map (Token.lexeme (front ++ textOf list)) = list := by
  induction list generalizing front with
  | nil => rfl
  | cons lexeme rest ih =>
    have htext : textOf (lexeme :: rest) = lexeme.text ++ textOf rest := rfl
    have hmore := ih (front ++ lexeme.text)
    rw [byteLength_append, List.append_assoc] at hmore
    simp only [place, List.map_cons, htext, hmore, Token.lexeme, Token.text, slice_append,
      Option.getD_some]

theorem text_ne_nil_of_mem_pieces {before : Option Char} {source : List Char} {lexeme : Lexeme}
    (h : lexeme ∈ pieces before source) : lexeme.text ≠ [] := by
  fun_induction pieces before source with
  | case1 => cases h
  | case2 before c rest claim more ih =>
    rcases List.mem_cons.mp h with rfl | h
    · exact List.cons_ne_nil _ _
    · exact ih h

-- What holds of all pieces and of two pieces of text that are joined holds after joining.
theorem forall_mem_joinText {P : Lexeme → Prop} {list : List Lexeme} (hlist : ∀ l ∈ list, P l)
    (hjoin : ∀ first second : Lexeme, first.kind = .text → second.kind = .text → P first →
      P second → P ⟨.text, first.text ++ second.text⟩) : ∀ l ∈ joinText list, P l := by
  induction list with
  | nil =>
    intro lexeme h
    cases h
  | cons first rest ih =>
    have hfirst := hlist first (by simp)
    have hrest := ih fun l hl => hlist l (by simp [hl])
    rw [joinText]
    split
    · simpa using hfirst
    · next second more heq =>
      rw [heq] at hrest
      intro lexeme h
      split at h
      · next htext =>
        rcases List.mem_cons.mp h with rfl | h
        · exact hjoin first second htext.1 htext.2 hfirst (hrest second (by simp))
        · exact hrest lexeme (by simp [h])
      · rcases List.mem_cons.mp h with rfl | h
        · exact hfirst
        · exact hrest lexeme h

-- Joining makes pieces longer at most.
theorem text_ne_nil_of_mem_joinText {list : List Lexeme} (hlist : ∀ l ∈ list, l.text ≠ [])
    {lexeme : Lexeme} (h : lexeme ∈ joinText list) : lexeme.text ≠ [] := by
  refine forall_mem_joinText (P := (·.text ≠ [])) hlist ?_ lexeme h
  intro first second _ _ hfirst _
  simp [hfirst]

theorem text_ne_nil_of_mem_lexemes {source : List Char} {lexeme : Lexeme}
    (h : lexeme ∈ lexemes source) : lexeme.text ≠ [] :=
  text_ne_nil_of_mem_joinText (fun _ => text_ne_nil_of_mem_pieces) h

-- Plain text never stands next to plain text.
def Apart (first second : Lexeme) : Prop :=
  ¬(first.kind = .text ∧ second.kind = .text)

theorem isChain_joinText (list : List Lexeme) : (joinText list).IsChain Apart := by
  induction list with
  | nil => exact List.IsChain.nil
  | cons first rest ih =>
    rw [joinText]
    split
    · exact List.IsChain.singleton first
    · next second more hjoin =>
      rw [hjoin] at ih
      split
      · next htext =>
        cases more with
        | nil => exact List.IsChain.singleton _
        | cons third more =>
          rw [List.isChain_cons_cons] at ih ⊢
          refine ⟨fun h => ih.1 ⟨htext.2, h.2⟩, ih.2⟩
      · next htext => exact List.isChain_cons_cons.mpr ⟨htext, ih⟩

-- Only plain text is joined.
theorem filter_place_joinText (start : Nat) (list : List Lexeme) :
    (place start (joinText list)).filter (·.kind ≠ .text) =
      (place start list).filter (·.kind ≠ .text) := by
  induction list generalizing start with
  | nil => rfl
  | cons first rest ih =>
    have hrest := ih (start + byteLength first.text)
    simp only [place, List.filter_cons, ← hrest]
    rw [joinText]
    split
    · next h => simp [h, place, List.filter_cons]
    · next second more h =>
      rw [h]
      split
      · next htext => simp [place, htext.1, htext.2, byteLength_append, Nat.add_assoc]
      · simp [place, List.filter_cons]

theorem le_start_of_mem_place {start : Nat} {list : List Lexeme} {token : Token}
    (h : token ∈ place start list) : start ≤ token.start := by
  induction list generalizing start with
  | nil => cases h
  | cons lexeme rest ih =>
    rcases List.mem_cons.mp h with rfl | h
    · exact Nat.le_refl _
    · exact Nat.le_trans (Nat.le_add_right _ _) (ih h)

theorem pairwise_place {start : Nat} {list : List Lexeme} (h : ∀ l ∈ list, l.text ≠ []) :
    (place start list).Pairwise (·.start < ·.start) := by
  induction list generalizing start with
  | nil => exact List.Pairwise.nil
  | cons lexeme rest ih =>
    refine List.pairwise_cons.mpr ⟨fun token htoken => ?_, ih fun l hl => h l (by simp [hl])⟩
    have hle := le_start_of_mem_place htoken
    have hpos := byteLength_pos (h lexeme (by simp))
    simp only
    omega

end CodePanel.Source
