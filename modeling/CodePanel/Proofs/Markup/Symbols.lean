import CodePanel.Overlay.Settings
import CodePanel.Proofs.Lexical.Refinement
import CodePanel.Proofs.Markup.Reader

namespace CodePanel.Markup

open CodePanel.Source

-- The markup of a source is the markup of its lexemes.
theorem render_eq (options : Options) (source : List Char) :
    render options source = writeLexemes options (lexemes source) := by
  rw [render, renderTokens, map_lexeme_tokenize]

-- What is written for a character of text.
def textChar (spaceBreakHint : Bool) (c : Char) : List Char :=
  if spaceBreakHint ∧ c = ' ' then " <wbr>".toList else escapeChar c

theorem writeText_nil (options : Options) : writeText options [] = [] := by
  rw [writeText]
  split <;> rfl

-- Cutting a text at its spaces and writing the parts comes to writing it character by character.
theorem writeText_cons (options : Options) (c : Char) (text : List Char) :
    writeText options (c :: text) =
      textChar options.spaceBreakHint c ++ writeText options text := by
  by_cases hhint : options.spaceBreakHint = true
  · obtain ⟨first, parts, hparts⟩ := List.exists_cons_of_ne_nil (List.splitOn_ne_nil ' ' text)
    simp only [writeText, textChar, hhint, if_true, true_and,
      List.splitOn_cons_eq_if_modifyHead, hparts, beq_iff_eq]
    by_cases hspace : c = ' '
    · simp [hspace, escape]
    · simp [hspace, escape]
  · simp [writeText, textChar, hhint, escape]

-- The symbols that are written for a character of text.
def charSymbols (hint : Bool) (c : Char) : List Symbol :=
  if hint ∧ c = ' ' then [.char ' ', .tag "wbr".toList] else [.char c]

def textSymbols (hint : Bool) (text : List Char) : List Symbol :=
  text.flatMap (charSymbols hint)

-- A tag is read up to its bracket.
theorem symbols_tag (seen name rest : List Char) (h : ∀ c ∈ name, c ≠ '>') :
    symbols? (.tag seen) (name ++ '>' :: rest) =
      (symbols? .text rest).map (.tag (seen ++ name) :: ·) := by
  induction name generalizing seen with
  | nil => simp [symbols?]
  | cons c name ih =>
    have hc := h c (by simp)
    rw [List.cons_append, symbols?, if_neg hc, ih _ fun d hd => h d (by simp [hd]),
      List.append_assoc, List.singleton_append]

theorem symbols_open_tag (name rest : List Char) (h : ∀ c ∈ name, c ≠ '>') :
    symbols? .text ('<' :: name ++ '>' :: rest) = (symbols? .text rest).map (.tag name :: ·) := by
  rw [List.cons_append, symbols?, if_pos rfl, symbols_tag [] name rest h, List.nil_append]

-- An escaped character is read back as itself.
theorem symbols_escapeChar (c : Char) (rest : List Char) :
    symbols? .text (escapeChar c ++ rest) = (symbols? .text rest).map (.char c :: ·) := by
  unfold escapeChar
  split
  · next h => subst h; simp [symbols?, entityChar?]
  · split
    · next h => subst h; simp [symbols?, entityChar?]
    · split
      · next h => subst h; simp [symbols?, entityChar?]
      · next hamp hlt hgt => simp [symbols?, hamp, hlt, hgt]

theorem symbols_textChar (hint : Bool) (c : Char) (rest : List Char) :
    symbols? .text (textChar hint c ++ rest) =
      (symbols? .text rest).map (charSymbols hint c ++ ·) := by
  unfold textChar charSymbols
  split
  · have hspace :
        " <wbr>".toList ++ rest = escapeChar ' ' ++ ('<' :: "wbr".toList ++ '>' :: rest) := by
      simp [escapeChar]
    rw [hspace, symbols_escapeChar, symbols_open_tag _ _ (by simp), Option.map_map]
    rfl
  · rw [symbols_escapeChar]
    rfl

theorem symbols_writeText (options : Options) (text rest : List Char) :
    symbols? .text (writeText options text ++ rest) =
      (symbols? .text rest).map (textSymbols options.spaceBreakHint text ++ ·) := by
  induction text with
  | nil => simp [writeText_nil, textSymbols]
  | cons c text ih =>
    have hsymbols : textSymbols options.spaceBreakHint (c :: text) =
        charSymbols options.spaceBreakHint c ++ textSymbols options.spaceBreakHint text := rfl
    rw [writeText_cons, List.append_assoc, symbols_textChar, ih, Option.map_map, hsymbols]
    simp only [Function.comp_def, List.append_assoc]

-- The stem that style classes are written with.
def Options.stem (options : Options) : List Char :=
  (options.classStem.getD "").toList

-- The options whose stem passes the check of the settings.
def Options.IsSafe (options : Options) : Prop :=
  ∀ stem ∈ options.classStem, ∀ c ∈ stem.toList, Overlay.isClassChar c = true

theorem Options.IsSafe.ne_bracket {options : Options} (h : options.IsSafe) :
    ∀ c ∈ options.stem, c ≠ '>' := by
  intro c hc heq
  unfold Options.stem at hc
  cases hstem : options.classStem with
  | none =>
    rw [hstem] at hc
    simp at hc
  | some stem =>
    rw [hstem] at hc
    have hclass := h stem hstem c hc
    rw [heq] at hclass
    exact absurd hclass (by decide)

theorem styleClass_ne_bracket {kind : Kind} {styleClass : String}
    (h : kind.styleClass = some styleClass) : ∀ c ∈ styleClass.toList, c ≠ '>' := by
  have hall : ∀ kind : Kind, ∀ name ∈ kind.styleClass, ∀ c ∈ name.toList, c ≠ '>' := by
    intro kind
    cases kind <;> simp [Kind.styleClass]
  exact hall kind styleClass h

theorem spanTag_ne_bracket {stem : List Char} {styleClass : String}
    (hstem : ∀ c ∈ stem, c ≠ '>') (hname : ∀ c ∈ styleClass.toList, c ≠ '>') :
    ∀ c ∈ spanTag stem styleClass, c ≠ '>' := by
  have hopen : ∀ c ∈ "span class=\"".toList, c ≠ '>' := by simp
  have hclose : ∀ c ∈ "\"".toList, c ≠ '>' := by simp
  intro c hc
  unfold spanTag at hc
  simp only [List.mem_append] at hc
  rcases hc with (hc | hc | hc) | hc
  · exact hopen c hc
  · exact hstem c hc
  · exact hname c hc
  · exact hclose c hc

theorem openSpan_eq (options : Options) (styleClass : String) :
    openSpan options styleClass = '<' :: spanTag options.stem styleClass ++ ['>'] := by
  have hopen : "<span class=\"".toList = '<' :: "span class=\"".toList := by simp
  have hclose : "\">".toList = "\"".toList ++ ['>'] := by simp
  unfold openSpan spanTag Options.className Options.stem
  rw [hopen, hclose]
  simp only [List.cons_append, List.append_assoc]

-- What is written for a lexeme goes by whether its kind has a style class.
theorem writeLexeme_eq (options : Options) (lexeme : Lexeme) :
    writeLexeme options lexeme =
      match lexeme.kind.styleClass with
      | some styleClass =>
        openSpan options styleClass ++ writeText options lexeme.text ++ "</span>".toList
      | none =>
        if lexeme.kind = .lineBreak then "<br>".toList else writeText options lexeme.text := by
  obtain ⟨kind, text⟩ := lexeme
  cases kind <;> rfl

-- The symbols that are written for a lexeme.
def lexemeSymbols (options : Options) (lexeme : Lexeme) : List Symbol :=
  let text := textSymbols options.spaceBreakHint lexeme.text
  match lexeme.kind.styleClass with
  | some styleClass => .tag (spanTag options.stem styleClass) :: text ++ [.tag "/span".toList]
  | none => if lexeme.kind = .lineBreak then [.tag "br".toList] else text

theorem symbols_writeLexeme {options : Options} (h : options.IsSafe) (lexeme : Lexeme)
    (rest : List Char) :
    symbols? .text (writeLexeme options lexeme ++ rest) =
      (symbols? .text rest).map (lexemeSymbols options lexeme ++ ·) := by
  rw [writeLexeme_eq]
  cases hclass : lexeme.kind.styleClass with
  | some styleClass =>
    have hopen := spanTag_ne_bracket h.ne_bracket (styleClass_ne_bracket hclass)
    have hclose : "</span>".toList ++ rest = '<' :: "/span".toList ++ '>' :: rest := by simp
    have hspan : openSpan options styleClass ++ writeText options lexeme.text ++ "</span>".toList ++
        rest = '<' :: spanTag options.stem styleClass ++
          '>' :: (writeText options lexeme.text ++ ("</span>".toList ++ rest)) := by
      rw [openSpan_eq]
      simp only [List.append_assoc, List.cons_append, List.nil_append]
    simp only [lexemeSymbols, hclass]
    rw [hspan, symbols_open_tag _ _ hopen, symbols_writeText, hclose,
      symbols_open_tag _ _ (by simp)]
    simp only [Option.map_map, Function.comp_def, List.cons_append, List.append_assoc,
      List.nil_append]
  | none =>
    simp only [lexemeSymbols, hclass]
    split
    · exact symbols_open_tag "br".toList rest (by simp)
    · exact symbols_writeText options lexeme.text rest

theorem symbols_writeLexemes {options : Options} (h : options.IsSafe) (list : List Lexeme) :
    symbols? .text (writeLexemes options list) = some (list.flatMap (lexemeSymbols options)) := by
  induction list with
  | nil => rfl
  | cons lexeme list ih =>
    have hwrite : writeLexemes options (lexeme :: list) =
        writeLexeme options lexeme ++ writeLexemes options list := rfl
    rw [hwrite, symbols_writeLexeme h, ih]
    rfl

end CodePanel.Markup
