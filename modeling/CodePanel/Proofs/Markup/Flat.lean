import CodePanel.Proofs.Markup.ReadBack
import CodePanel.Proofs.Settings.Validity

namespace CodePanel.Markup

open CodePanel.Source

-- What follows an ampersand makes it one of the three entities.
def EntityAhead (rest : List Char) : Prop :=
  "amp;".toList <+: rest ∨ "lt;".toList <+: rest ∨ "gt;".toList <+: rest

-- Text that opens no tag, closes none, and holds ampersands in entities only.
structure IsEscaped (text : List Char) : Prop where
  no_open : '<' ∉ text
  no_close : '>' ∉ text
  entity : ∀ before after, text = before ++ '&' :: after → EntityAhead after

-- What a span may hold.
inductive FlatText : List Char → Prop where
  | nil : FlatText []
  | text {text rest : List Char} (htext : IsEscaped text) (hrest : FlatText rest) :
      FlatText (text ++ rest)
  | hint {rest : List Char} (hrest : FlatText rest) : FlatText (" <wbr>".toList ++ rest)

-- Markup with a number of spans. The class of a span is the stem and the class of a kind, and has
-- no character that could end the attribute.
inductive Flat (stem : List Char) : Nat → List Char → Prop where
  | nil : Flat stem 0 []
  | text {spans : Nat} {text rest : List Char} (htext : IsEscaped text)
      (hrest : Flat stem spans rest) : Flat stem spans (text ++ rest)
  | lineBreak {spans : Nat} {rest : List Char} (hrest : Flat stem spans rest) :
      Flat stem spans ("<br>".toList ++ rest)
  | hint {spans : Nat} {rest : List Char} (hrest : Flat stem spans rest) :
      Flat stem spans (" <wbr>".toList ++ rest)
  | span {spans : Nat} {body rest : List Char} (kind : Kind) (styleClass : String)
      (hclass : kind.styleClass = some styleClass)
      (hname : ∀ c ∈ stem ++ styleClass.toList, Overlay.isClassChar c = true)
      (hbody : FlatText body) (hrest : Flat stem spans rest) :
      Flat stem (spans + 1) ("<span class=\"".toList ++ (stem ++ styleClass.toList) ++
        "\">".toList ++ body ++ "</span>".toList ++ rest)

-- How often a pattern stands in a text.
def occurrences (pattern : List Char) : List Char → Nat
  | [] => 0
  | c :: rest => (if pattern.isPrefixOf (c :: rest) then 1 else 0) + occurrences pattern rest

theorem isEscaped_entity {rest : List Char} (hentity : EntityAhead rest)
    (hplain : ∀ c ∈ rest, c ≠ '<' ∧ c ≠ '>' ∧ c ≠ '&') : IsEscaped ('&' :: rest) where
  no_open h := by
    rcases List.mem_cons.mp h with h | h
    · cases h
    · exact (hplain _ h).1 rfl
  no_close h := by
    rcases List.mem_cons.mp h with h | h
    · cases h
    · exact (hplain _ h).2.1 rfl
  entity before after h := by
    cases before with
    | nil =>
      cases h
      exact hentity
    | cons c before =>
      have hmem : '&' ∈ rest := by simp [(List.cons.inj h).2]
      exact absurd rfl (hplain _ hmem).2.2

theorem isEscaped_escapeChar (c : Char) : IsEscaped (escapeChar c) := by
  have hamp : "&amp;".toList = '&' :: "amp;".toList := by simp
  have hlt : "&lt;".toList = '&' :: "lt;".toList := by simp
  have hgt : "&gt;".toList = '&' :: "gt;".toList := by simp
  unfold escapeChar
  split
  · rw [hamp]
    exact isEscaped_entity (.inl List.prefix_rfl) (by simp)
  · split
    · rw [hlt]
      exact isEscaped_entity (.inr (.inl List.prefix_rfl)) (by simp)
    · split
      · rw [hgt]
        exact isEscaped_entity (.inr (.inr List.prefix_rfl)) (by simp)
      · next hne_amp hne_lt hne_gt =>
        refine ⟨by simp [Ne.symm hne_lt], by simp [Ne.symm hne_gt], fun before after h => ?_⟩
        have hmem : '&' ∈ [c] := by simp [h]
        exact absurd (List.mem_singleton.mp hmem).symm hne_amp

-- Written text goes into a span as well as between spans.
theorem flatText_writeText (options : Options) (text : List Char) :
    FlatText (writeText options text) := by
  induction text with
  | nil =>
    rw [writeText_nil]
    exact .nil
  | cons c text ih =>
    rw [writeText_cons, textChar]
    split
    · exact .hint ih
    · exact .text (isEscaped_escapeChar c) ih

theorem Flat.flatText_append {stem body rest : List Char} {spans : Nat} (hbody : FlatText body)
    (hrest : Flat stem spans rest) : Flat stem spans (body ++ rest) := by
  induction hbody with
  | nil => exact hrest
  | text htext _ ih =>
    rw [List.append_assoc]
    exact .text htext ih
  | hint _ ih =>
    rw [List.append_assoc]
    exact .hint ih

theorem styleClass_isClassChar {kind : Kind} {styleClass : String}
    (h : kind.styleClass = some styleClass) :
    ∀ c ∈ styleClass.toList, Overlay.isClassChar c = true := by
  have hall : ∀ kind : Kind, ∀ name ∈ kind.styleClass,
      name.toList.all Overlay.isClassChar = true := by
    intro kind name hname
    cases kind <;> cases hname <;> decide
  exact List.all_eq_true.mp (hall kind styleClass h)

theorem Options.IsSafe.isClassChar {options : Options} (h : options.IsSafe) :
    ∀ c ∈ options.stem, Overlay.isClassChar c = true := by
  intro c hc
  unfold Options.stem at hc
  cases hstem : options.classStem with
  | none => simp [hstem] at hc
  | some stem =>
    rw [hstem] at hc
    exact h stem hstem c hc

-- Settings that pass their check have a stem that is safe to write.
theorem isSafe_of_validate {options : Options} {settings : Overlay.Settings}
    (hvalid : settings.validate = .ok ()) (hstem : settings.classStem = options.classStem) :
    options.IsSafe := by
  obtain ⟨-, -, -, hcheck, -⟩ := Overlay.Settings.validate_eq_ok_iff.mp hvalid
  intro stem hmem
  rw [hstem, hmem, Overlay.checkStem] at hcheck
  split at hcheck
  · next hall => exact List.all_eq_true.mp hall
  · cases hcheck

theorem flat_writeLexeme_append {options : Options} (h : options.IsSafe) (lexeme : Lexeme)
    {spans : Nat} {rest : List Char} (hrest : Flat options.stem spans rest) :
    Flat options.stem ((if lexeme.kind.isHighlighted then 1 else 0) + spans)
      (writeLexeme options lexeme ++ rest) := by
  rw [writeLexeme_eq]
  have hbody := flatText_writeText options lexeme.text
  cases hclass : lexeme.kind.styleClass with
  | some styleClass =>
    have hname : ∀ c ∈ options.stem ++ styleClass.toList, Overlay.isClassChar c = true := by
      intro c hc
      rcases List.mem_append.mp hc with hc | hc
      · exact h.isClassChar c hc
      · exact styleClass_isClassChar hclass c hc
    have hcount : (if lexeme.kind.isHighlighted then 1 else 0) + spans = spans + 1 := by
      simp [Kind.isHighlighted, hclass, Nat.add_comm]
    rw [hcount]
    exact .span lexeme.kind styleClass hclass hname hbody hrest
  | none =>
    have hcount : (if lexeme.kind.isHighlighted then 1 else 0) + spans = spans := by
      simp [Kind.isHighlighted, hclass]
    rw [hcount]
    simp only
    split
    · exact .lineBreak hrest
    · exact .flatText_append hbody hrest

theorem flat_writeLexemes {options : Options} (h : options.IsSafe) (list : List Lexeme) :
    Flat options.stem (list.countP (·.kind.isHighlighted)) (writeLexemes options list) := by
  induction list with
  | nil => exact .nil
  | cons lexeme list ih =>
    have hwrite : writeLexemes options (lexeme :: list) =
        writeLexeme options lexeme ++ writeLexemes options list := rfl
    rw [hwrite, List.countP_cons, Nat.add_comm]
    exact flat_writeLexeme_append h lexeme ih

-- A tag is not looked for where no bracket opens.
theorem occurrences_append_of_not_mem (name : List Char) {front : List Char} (h : '<' ∉ front)
    (rest : List Char) :
    occurrences ('<' :: name) (front ++ rest) = occurrences ('<' :: name) rest := by
  induction front with
  | nil => rfl
  | cons c front ih =>
    obtain ⟨hc, hfront⟩ := not_or.mp (fun hmem => h (List.mem_cons.mpr hmem))
    rw [List.cons_append, occurrences, ih hfront]
    simp [List.isPrefixOf, hc]

theorem occurrences_tag (name : List Char) {tag : List Char} (h : '<' ∉ tag) (rest : List Char) :
    occurrences ('<' :: name) ('<' :: tag ++ rest) =
      (if name.isPrefixOf (tag ++ rest) then 1 else 0) + occurrences ('<' :: name) rest := by
  rw [List.cons_append, occurrences, occurrences_append_of_not_mem name h]
  simp [List.isPrefixOf]

-- A name that tells the tag that opens a span, or the one that closes it, from all other tags.
structure SpanMark (opens : Bool) (name : List Char) : Prop where
  lineBreak : ∀ rest, name.isPrefixOf ("br>".toList ++ rest) = false
  hint : ∀ rest, name.isPrefixOf ("wbr>".toList ++ rest) = false
  opening : ∀ rest, name.isPrefixOf ("span class=\"".toList ++ rest) = opens
  closing : ∀ rest, name.isPrefixOf ("/span>".toList ++ rest) = !opens

theorem spanMark_opening : SpanMark true "span".toList := by
  constructor <;> intro rest <;> simp [List.isPrefixOf]

theorem spanMark_closing : SpanMark false "/span".toList := by
  constructor <;> intro rest <;> simp [List.isPrefixOf]

namespace SpanMark

variable {opens : Bool} {name : List Char} (mark : SpanMark opens name)
include mark

theorem occurrences_hint (rest : List Char) :
    occurrences ('<' :: name) (" <wbr>".toList ++ rest) = occurrences ('<' :: name) rest := by
  have hspace : " <wbr>".toList ++ rest = [' '] ++ ('<' :: "wbr>".toList ++ rest) := by simp
  rw [hspace, occurrences_append_of_not_mem name (by simp), occurrences_tag name (by simp),
    mark.hint]
  exact Nat.zero_add _

theorem occurrences_flatText {body : List Char} (hbody : FlatText body) (rest : List Char) :
    occurrences ('<' :: name) (body ++ rest) = occurrences ('<' :: name) rest := by
  induction hbody with
  | nil => rfl
  | text htext _ ih =>
    rw [List.append_assoc, occurrences_append_of_not_mem name htext.no_open, ih]
  | hint _ ih => rw [List.append_assoc, mark.occurrences_hint, ih]

-- The tag stands in flat markup once for every span.
theorem occurrences_flat {stem markup : List Char} {spans : Nat} (h : Flat stem spans markup) :
    occurrences ('<' :: name) markup = spans := by
  induction h with
  | nil => rfl
  | text htext _ ih => rw [occurrences_append_of_not_mem name htext.no_open, ih]
  | @lineBreak spans rest _ ih =>
    have htag : "<br>".toList ++ rest = '<' :: "br>".toList ++ rest := by simp
    rw [htag, occurrences_tag name (by simp), mark.lineBreak, ih]
    exact Nat.zero_add _
  | hint _ ih => rw [mark.occurrences_hint, ih]
  | @span spans body rest kind styleClass _ hname hbody _ ih =>
    have hattribute : '<' ∉ stem ++ styleClass.toList :=
      fun hmem => absurd (hname _ hmem) (by decide)
    have hspan : "<span class=\"".toList ++ (stem ++ styleClass.toList) ++ "\">".toList ++ body ++
        "</span>".toList ++ rest =
          '<' :: "span class=\"".toList ++ ((stem ++ styleClass.toList) ++ ("\">".toList ++
            (body ++ ('<' :: "/span>".toList ++ rest)))) := by
      simp
    rw [hspan, occurrences_tag name (by simp), mark.opening,
      occurrences_append_of_not_mem name hattribute, occurrences_append_of_not_mem name (by simp),
      mark.occurrences_flatText hbody, occurrences_tag name (by simp), mark.closing, ih]
    cases opens <;> simp [Nat.add_comm]

end SpanMark

theorem countP_lexeme (source : List Char) (tokens : List Token) :
    (tokens.map (Token.lexeme source)).countP (·.kind.isHighlighted) =
      tokens.countP (·.kind.isHighlighted) := by
  rw [List.countP_map]
  rfl

-- No list of tokens over any source can put a tag of its own into the markup: what is written is
-- flat, with one span for every token of a highlighted kind. Without the markup it is the text of
-- the tokens.
theorem renderTokens_flat (options : Options) (source : List Char) (tokens : List Token)
    (hstem : options.classStem = none ∨ ∃ settings : Overlay.Settings,
      settings.validate = .ok () ∧ settings.classStem = options.classStem) :
    Flat options.stem (tokens.countP (·.kind.isHighlighted)) (renderTokens options source tokens) ∧
    occurrences "<span".toList (renderTokens options source tokens) =
      tokens.countP (·.kind.isHighlighted) ∧
    occurrences "</span".toList (renderTokens options source tokens) =
      tokens.countP (·.kind.isHighlighted) ∧
    plainText? (renderTokens options source tokens) =
      some (tokens.flatMap fun token => (marked (token.lexeme source)).text) := by
  have hsafe : options.IsSafe := by
    rcases hstem with hnone | ⟨settings, hvalid, hstem⟩
    · intro stem hmem
      rw [hnone] at hmem
      cases hmem
    · exact isSafe_of_validate hvalid hstem
  have hflat := flat_writeLexemes hsafe (tokens.map (Token.lexeme source))
  rw [countP_lexeme] at hflat
  have hopening : "<span".toList = '<' :: "span".toList := by simp
  have hclosing : "</span".toList = '<' :: "/span".toList := by simp
  refine ⟨hflat, ?_, ?_, ?_⟩
  · rw [hopening]
    exact spanMark_opening.occurrences_flat hflat
  · rw [hclosing]
    exact spanMark_closing.occurrences_flat hflat
  · rw [plainText?, renderTokens, symbols_writeLexemes hsafe, Option.map_some, List.flatMap_assoc,
      List.flatMap_map]
    simp only [plain_lexemeSymbols]

-- A source that is markup itself, under tokens that overlap, repeat and go backwards.
theorem renderTokens_flat_hostile_tokens :
    Overlay.Settings.validate { classStem := some "hl-" } = .ok () ∧
    Flat "hl-".toList 3 (renderTokens ⟨true, some "hl-"⟩ "</span> &lt;é".toList
      [⟨.jump, 8, 14⟩, ⟨.comment, 0, 9⟩, ⟨.lineBreak, 2, 3⟩, ⟨.text, 1, 12⟩,
        ⟨.comment, 0, 9⟩]) := by
  have hvalid : Overlay.Settings.validate { classStem := some "hl-" } = .ok () := rfl
  exact ⟨hvalid, (renderTokens_flat ⟨true, some "hl-"⟩ "</span> &lt;é".toList
    [⟨.jump, 8, 14⟩, ⟨.comment, 0, 9⟩, ⟨.lineBreak, 2, 3⟩, ⟨.text, 1, 12⟩, ⟨.comment, 0, 9⟩]
    (.inr ⟨_, hvalid, rfl⟩)).1⟩

end CodePanel.Markup
