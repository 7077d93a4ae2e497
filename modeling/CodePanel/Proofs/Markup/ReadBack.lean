import CodePanel.Proofs.Lexical.Scan
import CodePanel.Proofs.Markup.Symbols

namespace CodePanel.Markup

open CodePanel.Source

theorem spanTag_inj {stem : List Char} {first second : String} :
    spanTag stem first = spanTag stem second ↔ first = second := by
  unfold spanTag
  rw [List.append_left_inj, List.append_right_inj, List.append_right_inj, String.toList_inj]

theorem spanKind_spanTag (stem : List Char) {kind : Kind} {styleClass : String}
    (h : kind.styleClass = some styleClass) :
    spanKind? stem (spanTag stem styleClass) = some kind := by
  have hbeq : ∀ name, (spanTag stem name == spanTag stem styleClass) = (name == styleClass) := by
    intro name
    rw [Bool.eq_iff_iff, beq_iff_eq, beq_iff_eq, spanTag_inj]
  simp only [spanKind?, hbeq]
  cases kind <;> simp [Kind.styleClass] at h <;> subst h <;> rfl

theorem spanTag_ne (stem : List Char) (styleClass : String) :
    spanTag stem styleClass ≠ "wbr".toList ∧ spanTag stem styleClass ≠ "br".toList := by
  unfold spanTag
  simp

-- Text is held until the next tag, and hints are dropped from it.
theorem assemble_textSymbols (stem : List Char) (span : Option Kind) (hint : Bool)
    (held text : List Char) (rest : List Symbol) :
    assemble? stem span held (textSymbols hint text ++ rest) =
      assemble? stem span (held ++ text) rest := by
  have hchar : ∀ held c rest, assemble? stem span held (.char c :: rest) =
      assemble? stem span (held ++ [c]) rest := by
    intro held c rest
    cases span <;> rw [assemble?]
  have hhint : ∀ held rest, assemble? stem span held (.tag "wbr".toList :: rest) =
      assemble? stem span held rest := by
    intro held rest
    cases span <;> rw [assemble?, if_pos rfl]
  induction text generalizing held with
  | nil => simp [textSymbols]
  | cons c text ih =>
    have hsymbols : textSymbols hint (c :: text) = charSymbols hint c ++ textSymbols hint text :=
      rfl
    have hheld : held ++ c :: text = held ++ [c] ++ text := by simp
    rw [hsymbols, hheld, ← ih]
    unfold charSymbols
    split
    · next h => simp only [List.cons_append, List.nil_append, hchar, hhint, h.2]
    · simp only [List.cons_append, List.nil_append, hchar]

theorem eq_text_of_styleClass {kind : Kind} (hclass : kind.styleClass = none)
    (hbreak : kind ≠ .lineBreak) : kind = .text := by
  cases kind <;> simp_all [Kind.styleClass]

-- What is styled is no line break, and stays as it is.
theorem marked_of_styleClass {lexeme : Lexeme} {styleClass : String}
    (h : lexeme.kind.styleClass = some styleClass) : marked lexeme = lexeme := by
  unfold marked
  split
  · next hkind =>
    rw [hkind] at h
    cases h
  · rfl

theorem bareText_of_ne_nil {text : List Char} (h : text ≠ []) : bareText text = [⟨.text, text⟩] :=
  if_neg h

-- The text that is held may not be followed by more bare text.
theorem assemble_lexemeSymbols (options : Options) (held : List Char) (list : List Lexeme)
    (hchain : list.IsChain Apart) (hne : ∀ lexeme ∈ list, lexeme.text ≠ [])
    (hheld : held = [] ∨ ∀ lexeme ∈ list.head?, lexeme.kind ≠ .text) :
    assemble? options.stem none held (list.flatMap (lexemeSymbols options)) =
      some (bareText held ++ list.map marked) := by
  induction list generalizing held with
  | nil => simp [assemble?]
  | cons lexeme list ih =>
    have htail : list.IsChain Apart := hchain.tail
    have hrest : ∀ lexeme ∈ list, lexeme.text ≠ [] := fun l hl => hne l (by simp [hl])
    have hnext := ih [] htail hrest (Or.inl rfl)
    rw [show bareText [] = [] from rfl, List.nil_append] at hnext
    simp only [List.flatMap_cons, List.map_cons]
    cases hclass : lexeme.kind.styleClass with
    | some styleClass =>
      obtain ⟨hwbr, hbr⟩ := spanTag_ne options.stem styleClass
      simp only [lexemeSymbols, hclass, List.cons_append, List.append_assoc, List.nil_append]
      rw [assemble?, if_neg hwbr, if_neg hbr, spanKind_spanTag _ hclass, Option.bind_some,
        assemble_textSymbols, List.nil_append, assemble?, if_neg (by simp), if_pos rfl, hnext,
        marked_of_styleClass hclass]
      rfl
    | none =>
      simp only [lexemeSymbols, hclass]
      split
      · next hkind =>
        rw [List.singleton_append, assemble?, if_neg (by simp), if_pos rfl, hnext]
        simp [marked, hkind]
      · next hkind =>
        have htext := eq_text_of_styleClass hclass hkind
        have hempty : held = [] := hheld.resolve_right fun h => h lexeme (by simp) htext
        have happart : ∀ next ∈ list.head?, next.kind ≠ .text := by
          intro next hnext hkind'
          cases list with
          | nil => cases hnext
          | cons second more =>
            cases hnext
            exact (List.isChain_cons_cons.mp hchain).1 ⟨htext, hkind'⟩
        rw [assemble_textSymbols, hempty, List.nil_append, ih _ htail hrest (Or.inr happart),
          bareText_of_ne_nil (hne lexeme (by simp))]
        obtain ⟨kind, text⟩ := lexeme
        simp only at htext
        subst htext
        rfl

-- A part of a text that holds no pair of `\r` and `\n` stays as it is.
theorem unifyBreaks_append {front back : List Char}
    (h : ∀ k < front.length,
      ¬((front ++ back)[k]? = some '\r' ∧ (front ++ back)[k + 1]? = some '\n')) :
    unifyBreaks (front ++ back) = front ++ unifyBreaks back := by
  induction front with
  | nil => rfl
  | cons c front ih =>
    have hfirst := h 0 (by simp)
    have hrest := ih fun k hk => by simpa using h (k + 1) (by simpa using hk)
    rw [List.cons_append, unifyBreaks, hrest]
    · rfl
    · intro rest hc heq
      apply hfirst
      simp [hc, heq]

-- Marking the line breaks of a text's pieces unifies the line breaks of the text.
theorem textOf_marked_pieces (source : List Char) :
    textOf ((pieces none source).map marked) = unifyBreaks source := by
  refine pieces_induction (motive := fun p list =>
    textOf (list.map marked) = unifyBreaks (source.drop p)) ?_ ?_ (clean_zero source)
  · simp [textOf, unifyBreaks]
  · intro kind p q list hpiece hlt ih
    have htext : ∀ lexeme : Lexeme, textOf ((lexeme :: list).map marked) =
        (marked lexeme).text ++ unifyBreaks (source.drop q) := by
      intro lexeme
      rw [← ih]
      rfl
    rw [htext]
    by_cases hkind : kind = .lineBreak
    · subst hkind
      have hbreak := (hpiece.exact ⟨.lineBreak, p, q⟩ (Nat.le_refl p) hlt).mpr ⟨by decide, rfl⟩
      rcases isBreak_iff.mp hbreak.isBreak with ⟨hget, -, rfl⟩ | ⟨hget, hnext, rfl⟩
      · rw [drop_eq_cons_iff.mpr ⟨hget, rfl⟩, unifyBreaks]
        · rfl
        · intro rest h
          cases h
      · rw [drop_eq_cons_iff.mpr ⟨hget, rfl⟩, drop_eq_cons_iff.mpr ⟨hnext, rfl⟩, unifyBreaks]
        rfl
    · have hmark : marked ⟨kind, between source p q⟩ = ⟨kind, between source p q⟩ := if_neg hkind
      have hsplit : source.drop p = between source p q ++ source.drop q :=
        drop_eq_between_append (Nat.le_of_lt hlt)
      rw [hmark, hsplit, unifyBreaks_append]
      -- a pair inside the piece would be a line break that starts in it
      intro k hk hpair
      rw [length_between hpiece.le] at hk
      rw [← hsplit, List.getElem?_drop, List.getElem?_drop] at hpair
      have hdescribed : Described source ⟨.lineBreak, p + k, p + k + 2⟩ :=
        .lineBreak (isBreak_iff.mpr (Or.inr ⟨hpair.1, hpair.2, rfl⟩))
      have heq := ((hpiece.exact _ (Nat.le_add_right p k) (by simp only; omega)).mp hdescribed).2
      exact hkind (congrArg Span.kind heq).symm

theorem textOf_marked_joinText (list : List Lexeme) :
    textOf ((joinText list).map marked) = textOf (list.map marked) := by
  induction list with
  | nil => rfl
  | cons first rest ih =>
    have hcons : ∀ (lexeme : Lexeme) (list : List Lexeme),
        textOf ((lexeme :: list).map marked) = (marked lexeme).text ++ textOf (list.map marked) :=
      fun _ _ => rfl
    rw [hcons, ← ih, joinText]
    split
    · next hjoin => rw [hcons, hjoin]
    · next second more hjoin =>
      rw [hjoin]
      split
      · next htext =>
        have hplain : ∀ lexeme : Lexeme, lexeme.kind = .text →
            (marked lexeme).text = lexeme.text := by
          intro lexeme h
          simp [marked, h]
        rw [hcons, hcons, hplain _ htext.1, hplain _ htext.2, ← List.append_assoc]
        rfl
      · rw [hcons]

theorem plain_tag_of_ne {name : List Char} (h : name ≠ "br".toList) :
    (Symbol.tag name).plain = [] := by
  rw [Symbol.plain, if_neg h]

-- Without markup a lexeme is its own text, and a line break is `\n`.
theorem plain_lexemeSymbols (options : Options) (lexeme : Lexeme) :
    (lexemeSymbols options lexeme).flatMap Symbol.plain = (marked lexeme).text := by
  have htext : ∀ text, (textSymbols options.spaceBreakHint text).flatMap Symbol.plain = text := by
    intro text
    induction text with
    | nil => rfl
    | cons c text ih =>
      have hchar : (charSymbols options.spaceBreakHint c).flatMap Symbol.plain = [c] := by
        unfold charSymbols
        split
        · next h => simp [Symbol.plain, h.2]
        · rfl
      simp only [textSymbols, List.flatMap_cons, List.flatMap_append, hchar] at ih ⊢
      rw [ih, List.singleton_append]
  cases hclass : lexeme.kind.styleClass with
  | some styleClass =>
    have hbr := (spanTag_ne options.stem styleClass).2
    have hmark : marked lexeme = lexeme := if_neg (by intro h; rw [h] at hclass; cases hclass)
    have hopen := plain_tag_of_ne hbr
    have hclose : (Symbol.tag "/span".toList).plain = [] := plain_tag_of_ne (by simp)
    simp only [lexemeSymbols, hclass, List.flatMap_cons, List.flatMap_append, List.flatMap_nil,
      hopen, hclose, htext, hmark, List.nil_append, List.append_nil]
  | none =>
    simp only [lexemeSymbols, hclass]
    split
    · next hkind => simp [Symbol.plain, marked, hkind, lineBreakMark]
    · next hkind => rw [htext, marked, if_neg hkind]

theorem plainText_render {options : Options} (h : options.IsSafe) (source : List Char) :
    plainText? (render options source) = some (unifyBreaks source) := by
  have htext : ∀ list : List Lexeme,
      (list.flatMap (lexemeSymbols options)).flatMap Symbol.plain = textOf (list.map marked) := by
    intro list
    simp only [List.flatMap_assoc, plain_lexemeSymbols, textOf, List.flatMap_map]
  rw [plainText?, render_eq, symbols_writeLexemes h, Option.map_some, htext, lexemes,
    textOf_marked_joinText, textOf_marked_pieces]

-- Markup shows the tokens of the source and nothing else. Without its tags it is the source, apart
-- from how line breaks were written, and so the markup tells any other two sources apart.
theorem read_render (options : Options) (h : options.IsSafe) (source : List Char) :
    read? options.stem (render options source) =
      some ((tokenize source).map fun token => marked (token.lexeme source)) ∧
    plainText? (render options source) = some (unifyBreaks source) ∧
    ∀ other, render options other = render options source →
      unifyBreaks other = unifyBreaks source := by
  refine ⟨?_, plainText_render h source, fun other heq => ?_⟩
  · have hassemble := assemble_lexemeSymbols options [] (lexemes source)
      (isChain_joinText (pieces none source)) (fun _ => text_ne_nil_of_mem_lexemes) (Or.inl rfl)
    have hmap : ((tokenize source).map fun token => marked (token.lexeme source)) =
        (lexemes source).map marked := by
      rw [← map_lexeme_tokenize, List.map_map]
      rfl
    rw [read?, render_eq, symbols_writeLexemes h, Option.bind_some, hassemble, hmap]
    rfl
  · have hother := plainText_render h other
    rw [heq, plainText_render h source] at hother
    exact (Option.some.inj hother).symm

-- A source that looks like markup itself, with a stem and the hint.
theorem read_render_markup_source :
    (⟨true, some "hl-"⟩ : Options).IsSafe ∧
    read? (⟨true, some "hl-"⟩ : Options).stem
        (render ⟨true, some "hl-"⟩ "</span> $a\r\n// <br>\n&lt;".toList) =
      some ((tokenize "</span> $a\r\n// <br>\n&lt;".toList).map fun token =>
        marked (token.lexeme "</span> $a\r\n// <br>\n&lt;".toList)) := by
  have hsafe : (⟨true, some "hl-"⟩ : Options).IsSafe := by
    intro stem hstem c hc
    cases hstem
    have hchars : c = 'h' ∨ c = 'l' ∨ c = '-' := by simpa using hc
    rcases hchars with rfl | rfl | rfl <;> rfl
  exact ⟨hsafe, (read_render _ hsafe _).1⟩

end CodePanel.Markup
