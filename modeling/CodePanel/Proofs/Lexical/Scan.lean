import CodePanel.Proofs.Lexical.Piece

namespace CodePanel.Source

variable {source : List Char}

-- A `$` or `@` claims the identifier behind it.
theorem isPiece_sigilReach {p : Nat} {c : Char} {kind : Kind} (hclean : Clean source p)
    (hget : source[p]? = some c) (hword : isWordChar c = false) (hinline : Inline source p)
    (hkind : ∀ j, sigilKind? source (p + 1) j =
      if source[p + 1]?.any opensName then some kind else none) :
    IsPiece source (sigilReach kind (source.drop (p + 1))).1 p
      (p + 1 + (sigilReach kind (source.drop (p + 1))).2) := by
  simp only [sigilReach, List.head?_drop, ← opensName_eq]
  split
  · next hident =>
    have hnext : wordAt source (p + 1) = true := by
      rw [Option.any_eq_true] at hident
      obtain ⟨d, hd, hident⟩ := hident
      rw [opensName_eq] at hident
      exact wordAt_iff.mpr ⟨d, hd, isWordChar_of_isIdentStart hident⟩
    have hrun := isRun_wordEnd hnext (by simpa [charBefore, hget, inWord_eq] using hword)
    exact isPiece_sigil hget hword hclean.line hinline hrun (by rw [hkind, if_pos hident])
  · next hident =>
    exact isPiece_plain hget hword hclean.line hinline fun j _ => by rw [hkind, if_neg hident]

theorem isRegisterName_iff {before : Option Char} {name : List Char} :
    isRegisterName before name = true ↔
      (1 ≤ name.length ∧ name.length ≤ 3 ∧ name.all isSmall = true) ∧
        before.any inWord = false := by
  simp only [isRegisterName, isSmall_eq, inWord_eq, Bool.and_eq_true, Bool.not_eq_true',
    decide_eq_true_eq]
  constructor
  · rintro ⟨⟨⟨hbefore, hpos⟩, hle⟩, hlower⟩
    exact ⟨⟨hpos, hle, hlower⟩, hbefore⟩
  · rintro ⟨⟨hpos, hle, hlower⟩, hbefore⟩
    exact ⟨⟨⟨hbefore, hpos⟩, hle⟩, hlower⟩

-- A `%` claims a register name behind it.
theorem isPiece_percent {p : Nat} (hclean : Clean source p) (hget : source[p]? = some '%')
    (hinline : Inline source p) {found : Kind × Nat}
    (hfound : (if isRegisterName (charBefore source p) (wordAhead (source.drop (p + 1))) then
      (.register, (wordAhead (source.drop (p + 1))).length) else (.text, 0)) = found) :
    IsPiece source found.1 p (p + 1 + found.2) := by
  have hkind : sigilKind? source (p + 1) (wordEnd source (p + 1)) =
      if isRegisterName (charBefore source p) (wordAhead (source.drop (p + 1))) then
        some .register else none := by
    have hbefore : charBefore source (p + 1) = some '%' := hget
    simp [sigilKind?, hbefore, between_wordEnd, isRegisterName_iff]
  split at hfound
  · next hname =>
    subst hfound
    have hpos := (isRegisterName_iff.mp hname).1.1
    have hnext : wordAt source (p + 1) = true :=
      wordAt_of_lt_wordEnd (Nat.le_refl _) (by unfold wordEnd; omega)
    have hrun := isRun_wordEnd hnext (by simp only [charBefore, hget]; rfl)
    rw [if_pos hname] at hkind
    exact isPiece_sigil hget rfl hclean.line hinline hrun hkind
  · next hname =>
    subst hfound
    refine isPiece_plain hget rfl hclean.line hinline fun j hrun => ?_
    rw [hrun.eq_wordEnd, hkind, if_neg hname]

theorem wordKind_eq (word : List Char) :
    wordKind word =
      if spelledLike word "let" then .declaration
      else if isInstruction word then .instruction
      else .text := by
  have hlike : ∀ name : String, (name.toList == word.map Char.toLower) = spelledLike word name :=
    fun _ => Bool.beq_comm
  have hlet : keywords.any (spelledLike word) = spelledLike word "let" := Bool.or_false _
  have hrest : mnemonics.any (spelledLike word) = isInstruction word := rfl
  simp only [wordKind, hlike, hlet, hrest]

-- What the scan makes of a word is what is said of its run.
theorem bareSpan_wordReach {p : Nat} {c : Char} {found : Kind × Nat} (hget : source[p]? = some c)
    (hword : isWordChar c = true) (hfound : wordReach c (source.drop (p + 1)) = found) :
    (p + 1 + found.2 = wordEnd source p ∨
      (p + 1 + found.2 = wordEnd source p + 1 ∧ source[wordEnd source p]? = some ':')) ∧
    bareSpan? source p (wordEnd source p) =
      if found.1 = .text then none else some ⟨found.1, p, p + 1 + found.2⟩ := by
  have hahead : wordAhead (source.drop p) = c :: wordAhead (source.drop (p + 1)) := by
    rw [drop_eq_cons_iff.mpr ⟨hget, rfl⟩, wordAhead, List.takeWhile_cons, if_pos hword]
    rfl
  have hend : p + 1 + (wordAhead (source.drop (p + 1))).length = wordEnd source p := by
    rw [wordEnd, hahead, List.length_cons]
    omega
  have hcolon : ((source.drop (p + 1)).drop (wordAhead (source.drop (p + 1))).length).head? =
      source[wordEnd source p]? := by
    rw [List.drop_drop, List.head?_drop, hend]
  simp only [wordReach, hcolon] at hfound
  simp only [bareSpan?, between_wordEnd, hahead, hget, Option.any_some, isDecimal_eq]
  by_cases hdigit : c.isDigit = true
  · rw [if_pos hdigit] at hfound ⊢
    subst hfound
    simp only [hend, true_or, true_and, isConstantName, Bool.and_eq_true, decide_eq_true_eq]
    split <;> rfl
  · rw [if_neg hdigit] at hfound ⊢
    by_cases hlabel : source[wordEnd source p]? = some ':'
    · rw [if_pos hlabel] at hfound ⊢
      subst hfound
      simp only [← Nat.add_assoc, hend]
      exact ⟨Or.inr ⟨trivial, hlabel⟩, rfl⟩
    · rw [if_neg hlabel] at hfound ⊢
      subst hfound
      simp only [hend, true_or, true_and, wordKind_eq]
      split
      · rfl
      · split <;> rfl

theorem lineEnd_of_slashes {p : Nat} (h : SlashesAt source p) :
    lineEnd source p = p + 1 + (lineLength ((source.drop (p + 1)).drop 1) + 1) := by
  have hskip : ∀ rest, lineLength ('/' :: rest) = lineLength rest + 1 := by
    intro rest
    rw [lineLength] <;> simp
  rw [lineEnd, drop_eq_cons_iff.mpr ⟨h.1, rfl⟩, drop_eq_cons_iff.mpr ⟨h.2, rfl⟩, hskip, hskip,
    List.drop_one, List.tail_cons]
  omega

-- At a position where a piece can start, the scan takes the piece that is described.
theorem isPiece_reach {p : Nat} {c : Char} (hclean : Clean source p)
    (hget : source[p]? = some c) :
    IsPiece source (reach (charBefore source p) c (source.drop (p + 1))).1 p
      (p + 1 + (reach (charBefore source p) c (source.drop (p + 1))).2) := by
  have hbefore : charBefore source (p + 1) = some c := hget
  simp only [reach, List.head?_drop]
  split
  · next h => exact isPiece_newline hclean.line (h ▸ hget)
  next hbreak =>
  split
  · next h => exact isPiece_return (h.1 ▸ hget) h.2
  next hreturn =>
  split
  · next h =>
    have hslashes : SlashesAt source p := ⟨h.1 ▸ hget, h.2⟩
    simpa only [lineEnd_of_slashes hslashes] using isPiece_comment hclean.line hslashes
  next hslash =>
  have hinline := inline_of_get hget hbreak hreturn hslash
  split
  · next h => exact isPiece_percent hclean (h ▸ hget) hinline rfl
  next hpercent =>
  split
  · next h =>
    subst h
    exact isPiece_sigilReach hclean hget rfl hinline fun j => by simp [sigilKind?, hbefore]
  next hdollar =>
  split
  · next h =>
    subst h
    exact isPiece_sigilReach hclean hget rfl hinline fun j => by simp [sigilKind?, hbefore]
  next hat =>
  split
  · next hword =>
    have hat : wordAt source p = true := (wordAt_of_get hget).trans hword
    obtain ⟨hstop, hspan⟩ := bareSpan_wordReach hget hword rfl
    exact isPiece_word hclean (isRun_wordEnd hat (hclean.whole hat)) hstop hspan
  · next hword =>
    have hsigil : ¬IsSigil c := by
      rintro (h | h | h) <;> contradiction
    exact isPiece_plain hget (by simpa using hword) hclean.line hinline fun j _ =>
      sigilKind_eq_none hbefore hsigil

theorem getLastD_take (c : Char) (rest : List Char) {n : Nat} (hn : n ≤ rest.length) :
    some ((rest.take n).getLastD c) = (c :: rest)[n]? := by
  induction rest generalizing c n with
  | nil =>
    obtain rfl : n = 0 := by simpa using hn
    rfl
  | cons d rest ih =>
    cases n with
    | zero => rfl
    | succ n =>
      have h := ih d (by simpa using hn)
      simp only [List.take_succ_cons, List.getLastD_cons, List.getElem?_cons_succ]
      exact h

theorem Clean.le_length {p : Nat} (h : Clean source p) : p ≤ source.length := by
  obtain ⟨a, e, hline, -, he, -⟩ := h.line
  exact Nat.le_trans he hline.stop_le

-- What holds of all pieces from a position on is what each piece adds to the pieces behind it.
theorem pieces_induction {motive : Nat → List Lexeme → Prop} (stop : motive source.length [])
    (step : ∀ {kind : Kind} {p q : Nat} {list : List Lexeme}, IsPiece source kind p q → p < q →
      motive q list → motive p (⟨kind, between source p q⟩ :: list))
    {p : Nat} (hclean : Clean source p) :
    motive p (pieces (charBefore source p) (source.drop p)) := by
  generalize hbefore : charBefore source p = before
  generalize htext : source.drop p = text
  fun_induction pieces before text generalizing p
  case case1 before =>
    obtain rfl : p = source.length :=
      Nat.le_antisymm hclean.le_length (List.drop_eq_nil_iff.mp htext)
    exact stop
  case case2 before c rest claim more ih =>
    obtain ⟨hget, rfl⟩ := drop_eq_cons_iff.mp htext
    subst hbefore
    have hpiece : IsPiece source claim.1 p (p + 1 + claim.2) := isPiece_reach hclean hget
    have hle : claim.2 ≤ (source.drop (p + 1)).length := by
      have := hpiece.le
      simp only [List.length_drop]
      omega
    have hmore : c :: more = between source p (p + 1 + claim.2) := by
      rw [between, htext, show p + 1 + claim.2 - p = claim.2 + 1 by omega, List.take_succ_cons]
    have hlast : charBefore source (p + 1 + claim.2) = some (more.getLastD c) := by
      rw [getLastD_take c _ hle, ← htext, List.getElem?_drop, Nat.add_right_comm]
      rfl
    have hrest : source.drop (p + 1 + claim.2) = (source.drop (p + 1)).drop claim.2 := by
      rw [List.drop_drop]
    rw [hmore]
    exact step hpiece (by omega) (ih hpiece.clean hlast hrest)

end CodePanel.Source
