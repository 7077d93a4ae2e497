import CodePanel.Proofs.Lexical.Refinement

namespace CodePanel.Source

-- Ranges of bytes that follow each other from the start of a text to its end. None of them is
-- empty, and none starts or stops inside a character.
structure Covers (text : String) (tokens : List Token) : Prop where
  empty : tokens = [] → text = ""
  first : ∀ token ∈ tokens.head?, token.start = 0
  adjacent : tokens.IsChain fun left right => left.stop = right.start
  last : ∀ token ∈ tokens.getLast?, token.stop = text.utf8ByteSize
  nonempty : ∀ token ∈ tokens, token.start < token.stop
  boundary : ∀ token ∈ tokens, String.Pos.Raw.IsValid text ⟨token.start⟩ ∧
    String.Pos.Raw.IsValid text ⟨token.stop⟩

theorem isValid_byteLength {text : String} {front back : List Char}
    (h : text.toList = front ++ back) : String.Pos.Raw.IsValid text ⟨byteLength front⟩ := by
  refine String.Pos.Raw.isValid_iff_exists_append.mpr
    ⟨String.ofList front, String.ofList back, ?_, ?_⟩
  · rw [← String.ofList_append, ← h, String.ofList_toList]
  · have hsize : byteLength front = (String.ofList front).utf8ByteSize := by
      rw [← byteLength_toList, String.toList_ofList]
    rw [hsize]
    rfl

theorem textOf_append (front back : List Lexeme) :
    textOf (front ++ back) = textOf front ++ textOf back :=
  List.flatMap_append

-- A token stands behind the text of the lexemes in front of it.
theorem exists_of_mem_place {start : Nat} {list : List Lexeme} {token : Token}
    (h : token ∈ place start list) :
    ∃ front lexeme back, list = front ++ lexeme :: back ∧
      token = ⟨lexeme.kind, start + byteLength (textOf front),
        start + byteLength (textOf front ++ lexeme.text)⟩ := by
  induction list generalizing start with
  | nil => cases h
  | cons lexeme rest ih =>
    rcases List.mem_cons.mp h with rfl | h
    · exact ⟨[], lexeme, rest, rfl, rfl⟩
    · obtain ⟨front, found, back, rfl, rfl⟩ := ih h
      refine ⟨lexeme :: front, found, back, rfl, ?_⟩
      have htext : textOf (lexeme :: front) = lexeme.text ++ textOf front := rfl
      simp only [htext, byteLength_append, Nat.add_assoc]

theorem isChain_place (start : Nat) (list : List Lexeme) :
    (place start list).IsChain fun left right => left.stop = right.start := by
  induction list generalizing start with
  | nil => exact List.IsChain.nil
  | cons lexeme rest ih =>
    refine List.isChain_cons.mpr ⟨fun next hnext => ?_, ih _⟩
    cases rest with
    | nil => cases hnext
    | cons second rest =>
      cases hnext
      rfl

theorem stop_of_mem_getLast?_place {start : Nat} {list : List Lexeme} {token : Token}
    (h : token ∈ (place start list).getLast?) :
    token.stop = start + byteLength (textOf list) := by
  rcases List.eq_nil_or_concat list with rfl | ⟨front, lexeme, rfl⟩
  · cases h
  · have hlast : token = ⟨lexeme.kind, start + byteLength (textOf front),
        start + byteLength (textOf front) + byteLength lexeme.text⟩ := by
      rw [List.concat_eq_append, place_append] at h
      simpa [place] using h.symm
    have htext : textOf (front ++ [lexeme]) = textOf front ++ lexeme.text := by
      rw [textOf_append]
      simp [textOf]
    rw [hlast, List.concat_eq_append, htext, byteLength_append, Nat.add_assoc]

-- Lexemes that make up a text cover it when they are laid end to end.
theorem covers_place {text : String} {list : List Lexeme} (htext : textOf list = text.toList)
    (hlist : ∀ lexeme ∈ list, lexeme.text ≠ []) : Covers text (place 0 list) where
  empty h := by
    cases list with
    | nil => exact String.toList_eq_nil_iff.mp htext.symm
    | cons lexeme rest => cases h
  first token h := by
    cases list with
    | nil => cases h
    | cons lexeme rest =>
      cases h
      rfl
  adjacent := isChain_place 0 list
  last token h := by
    rw [stop_of_mem_getLast?_place h, htext, byteLength_toList, Nat.zero_add]
  nonempty token h := by
    obtain ⟨front, lexeme, back, rfl, rfl⟩ := exists_of_mem_place h
    have hpos := byteLength_pos (hlist lexeme (by simp))
    simp only [byteLength_append]
    omega
  boundary token h := by
    obtain ⟨front, lexeme, back, rfl, rfl⟩ := exists_of_mem_place h
    have hsplit : text.toList = textOf front ++ (lexeme.text ++ textOf back) := by
      rw [← htext, textOf_append]
      rfl
    simp only [Nat.zero_add]
    refine ⟨isValid_byteLength hsplit, ?_⟩
    rw [← List.append_assoc] at hsplit
    exact isValid_byteLength hsplit

theorem map_kind_place (start : Nat) (list : List Lexeme) :
    (place start list).map Token.kind = list.map Lexeme.kind := by
  induction list generalizing start with
  | nil => rfl
  | cons lexeme rest ih => simp only [place, List.map_cons, ih]

-- Joined text stays joined in the tokens.
theorem isChain_kind_tokenize (source : List Char) :
    (tokenize source).IsChain fun left right => ¬(left.kind = .text ∧ right.kind = .text) := by
  have hlexemes : (lexemes source).IsChain Apart := isChain_joinText (pieces none source)
  have hkinds : ((lexemes source).map Lexeme.kind).IsChain
      fun left right => ¬(left = .text ∧ right = .text) :=
    (List.isChain_map Lexeme.kind).mpr hlexemes
  rw [← map_kind_place 0, ← tokenize_eq] at hkinds
  exact (List.isChain_map Token.kind).mp hkinds

theorem length_pieces_le (before : Option Char) (source : List Char) :
    (pieces before source).length ≤ source.length := by
  fun_induction pieces before source with
  | case1 => exact Nat.le_refl _
  | case2 before c rest claim more ih =>
    simp only [List.length_cons, List.length_drop] at ih ⊢
    omega

-- An offset at which no character is cut has characters in front of it and behind it.
theorem exists_of_isValid {text : String} {start : Nat} (h : String.Pos.Raw.IsValid text ⟨start⟩) :
    ∃ front back, text.toList = front ++ back ∧ start = byteLength front := by
  obtain ⟨front, back, rfl, hstart⟩ := String.Pos.Raw.isValid_iff_exists_append.mp h
  refine ⟨front.toList, back.toList, String.toList_append, ?_⟩
  rw [byteLength_toList]
  exact congrArg String.Pos.Raw.byteIdx hstart

-- From any such offset that is not the end, one step of the scan goes on to another one.
theorem scanAt_isValid {text : String} {start : Nat} (hvalid : String.Pos.Raw.IsValid text ⟨start⟩)
    (hlt : start < text.utf8ByteSize) :
    ∃ kind stop, (Scanner.ofSource text.toList).scanAt? start = some (kind, stop) ∧
      start < stop ∧ stop ≤ text.utf8ByteSize ∧ String.Pos.Raw.IsValid text ⟨stop⟩ := by
  obtain ⟨front, back, htext, rfl⟩ := exists_of_isValid hvalid
  cases back with
  | nil =>
    rw [← byteLength_toList, htext, List.append_nil] at hlt
    exact absurd hlt (Nat.lt_irrefl _)
  | cons c rest =>
    have hsource : (Scanner.ofSource text.toList).source = front ++ c :: rest := htext
    have hstep := Scanner.scanAt_eq hsource
    let claim := reach front.getLast? c rest
    have hsplit : text.toList = (front ++ c :: rest.take claim.2) ++ rest.drop claim.2 := by
      rw [List.append_assoc, List.cons_append, List.take_append_drop, htext]
    have hle : byteLength (front ++ c :: rest.take claim.2) ≤ text.utf8ByteSize := by
      rw [← byteLength_toList, hsplit, byteLength_append _ (rest.drop claim.2)]
      exact Nat.le_add_right _ _
    exact ⟨_, _, hstep, Scanner.lt_of_scanAt hstep, hle, isValid_byteLength hsplit⟩

theorem length_place (start : Nat) (list : List Lexeme) :
    (place start list).length = list.length := by
  rw [← List.length_map Token.kind, map_kind_place, List.length_map]

-- The tokens of a text cut it into parts, and plain text is never cut. The scan itself covers the
-- text in the same way: no step gets stuck or stands still, or stops inside a character. So it is
-- over after at most as many steps as there are characters.
theorem tokenize_partition (text : String) :
    let scanner := Scanner.ofSource text.toList
    let tokens := tokenize text.toList
    (∀ start, String.Pos.Raw.IsValid text ⟨start⟩ → start < text.utf8ByteSize →
      ∃ kind stop, scanner.scanAt? start = some (kind, stop) ∧ start < stop ∧
        stop ≤ text.utf8ByteSize ∧ String.Pos.Raw.IsValid text ⟨stop⟩) ∧
    (∃ steps, scanner.scan? 0 = some steps ∧ Covers text steps ∧ steps.length ≤ text.length) ∧
    tokenize? text.toList = some tokens ∧
    Covers text tokens ∧
    (tokens.IsChain fun left right => ¬(left.kind = .text ∧ right.kind = .text)) ∧
    tokens.flatMap (Token.text text.toList) = text.toList := by
  intro scanner tokens
  have htokens : tokens = place 0 (lexemes text.toList) := tokenize_eq text.toList
  refine ⟨fun start => scanAt_isValid, ⟨_, scan_ofSource text.toList, ?_, ?_⟩, ?_, ?_,
    isChain_kind_tokenize _, ?_⟩
  · exact covers_place (textOf_pieces _ _) fun _ => text_ne_nil_of_mem_pieces
  · rw [length_place, ← String.length_toList]
    exact length_pieces_le none text.toList
  · rw [tokenize?_eq, htokens]
  · rw [htokens]
    exact covers_place (textOf_lexemes _) fun _ => text_ne_nil_of_mem_lexemes
  · calc tokens.flatMap (Token.text text.toList)
        = textOf (tokens.map (Token.lexeme text.toList)) := by
          rw [textOf, List.flatMap_map]
          rfl
      _ = text.toList := by rw [map_lexeme_tokenize, textOf_lexemes]

end CodePanel.Source
