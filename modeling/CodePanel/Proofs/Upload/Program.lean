import CodePanel.Upload.Envelope
import CodePanel.Proofs.Lexical.Lines
import CodePanel.Proofs.Upload.Lines
import CodePanel.Proofs.Upload.Wire

namespace CodePanel.Upload

open CodePanel.Source CodePanel.Text

-- Line breaks and blank text mean nothing to the assembler.
def isMeaningful (lexeme : Lexeme) : Bool :=
  lexeme.kind ≠ .lineBreak && !(lexeme.kind = .text && isBlank lexeme.text)

-- What a source says, piece by piece, with the kind and the text of each piece.
def program (source : List Char) : List Lexeme :=
  ((tokenize source).map (Token.lexeme source)).filter isMeaningful

theorem program_eq (source : List Char) :
    program source = (lexemes source).filter isMeaningful := by
  rw [program, map_lexeme_tokenize]

-- White space lies below or above the characters that words are made of.
theorem not_isWordChar_of_isSpace {c : Char} (h : isSpace c = true) : isWordChar c = false := by
  have hspace : c.toNat ≤ 32 ∨ 133 ≤ c.toNat := by
    simp only [isSpace, inRanges, spaceRanges, List.any_cons, List.any_nil, Bool.or_eq_true,
      Bool.and_eq_true, decide_eq_true_eq, Bool.false_eq_true, or_false] at h
    omega
  cases hword : isWordChar c with
  | false => rfl
  | true =>
    have hclasses : ((decide (65 ≤ c.val ∧ c.val ≤ 90) || 97 ≤ c.val && c.val ≤ 122) ||
        48 ≤ c.val && c.val ≤ 57 || c == '_') = true := hword
    have hrange : 48 ≤ c.toNat ∧ c.toNat ≤ 122 := by
      simp only [Bool.or_eq_true, Bool.and_eq_true, decide_eq_true_eq, beq_iff_eq,
        UInt32.le_iff_toNat_le] at hclasses
      rcases hclasses with hclasses | rfl
      · simp only [Char.toNat, UInt32.toNat_ofNat, Nat.reducePow, Nat.reduceMod] at hclasses ⊢
        omega
      · decide
    omega

-- White space starts a break, or is plain text by itself.
theorem reach_of_isSpace {c : Char} (h : isSpace c = true) (before : Option Char)
    (rest : List Char) :
    (reach before c rest).1 = .lineBreak ∨ reach before c rest = (.text, 0) := by
  have hne : ∀ d, isSpace d = false → c ≠ d := by
    rintro d hd rfl
    rw [h] at hd
    cases hd
  have hword := not_isWordChar_of_isSpace h
  have hslash := hne '/' (by decide)
  have hpercent := hne '%' (by decide)
  have hdollar := hne '$' (by decide)
  have hat := hne '@' (by decide)
  simp only [reach, hslash, hpercent, hdollar, hat, hword, false_and, if_false, Bool.false_eq_true]
  split
  · exact Or.inl rfl
  split
  · exact Or.inl rfl
  · exact Or.inr rfl

theorem not_isMeaningful_of_mem_pieces {before : Option Char} {text : List Char}
    (h : isBlank text = true) : ∀ lexeme ∈ pieces before text, isMeaningful lexeme = false := by
  fun_induction pieces before text with
  | case1 => simp
  | case2 before c rest claim more ih =>
    simp only [isBlank, List.all_cons, Bool.and_eq_true] at h ih
    have hrest : (rest.drop claim.2).all isSpace = true :=
      List.all_eq_true.mpr fun d hd => List.all_eq_true.mp h.2 d (List.mem_of_mem_drop hd)
    intro lexeme hmem
    rcases List.mem_cons.mp hmem with rfl | hmem
    · rcases reach_of_isSpace h.1 before rest with hkind | hclaim
      · have hbreak : claim.1 = .lineBreak := hkind
        simp [isMeaningful, hbreak]
      · have hone : claim = (.text, 0) := hclaim
        simp [isMeaningful, isBlank, more, hone, h.1]
    · exact ih hrest lexeme hmem

theorem isBlank_of_not_isMeaningful {lexeme : Lexeme} (hkind : lexeme.kind = .text)
    (h : isMeaningful lexeme = false) : isBlank lexeme.text = true := by
  simpa [isMeaningful, hkind] using h

-- Blank text joined with blank text is blank.
theorem not_isMeaningful_of_mem_lexemes {text : List Char} (h : isBlank text = true) :
    ∀ lexeme ∈ lexemes text, isMeaningful lexeme = false := by
  refine forall_mem_joinText (not_isMeaningful_of_mem_pieces h) ?_
  intro first second htext htext' hfirst hsecond
  have hblank := isBlank_of_not_isMeaningful htext hfirst
  have hblank' := isBlank_of_not_isMeaningful htext' hsecond
  rw [isBlank] at hblank hblank'
  simp [isMeaningful, isBlank, List.all_append, hblank, hblank']

theorem program_of_isBlank {text : List Char} (h : isBlank text = true) : program text = [] := by
  rw [program_eq, List.filter_eq_nil_iff]
  intro lexeme hmem
  simp [not_isMeaningful_of_mem_lexemes h lexeme hmem]

-- A line with its `\n` ends in a break that takes nothing from the text in front of it.
theorem exists_isEnding {line : List Char} (h : endsWith ['\n'] line = true) :
    ∃ text ending, line = text ++ ending ∧ IsEnding text ending := by
  obtain ⟨front, rfl⟩ := endsWith_iff.mp h
  by_cases hreturn : front.getLast? = some '\r'
  · obtain ⟨text, rfl⟩ := List.getLast?_eq_some_iff.mp hreturn
    exact ⟨text, ['\r', '\n'], by simp, Or.inl rfl⟩
  · exact ⟨front, ['\n'], rfl, Or.inr ⟨rfl, hreturn⟩⟩

-- A program is read line by line.
theorem program_append {line : List Char} (h : endsWith ['\n'] line = true) (behind : List Char) :
    program (line ++ behind) = program line ++ program behind := by
  obtain ⟨text, ending, rfl, hending⟩ := exists_isEnding h
  have halone := lexemes_append_ending hending []
  rw [List.append_nil] at halone
  rw [program_eq, program_eq, program_eq, halone, List.append_assoc, lexemes_append_ending hending]
  simp [isMeaningful, lexemes, pieces, joinText]

theorem program_flatten {list : List (List Char)}
    (h : list.IsChain fun line _ => endsWith ['\n'] line = true) :
    program list.flatten = list.flatMap program := by
  induction list with
  | nil => exact program_of_isBlank rfl
  | cons line rest ih =>
    obtain ⟨hhead, htail⟩ := List.isChain_cons.mp h
    cases rest with
    | nil => simp
    | cons second rest =>
      rw [List.flatten_cons, program_append (hhead second rfl), ih htail]
      rfl

-- A blank line says nothing and leaves what is said behind it alone.
theorem program_blankLine_append {line : List Char} (h : isBlankLine line = true)
    (behind : List Char) : program (line ++ behind) = program behind := by
  obtain ⟨hends, hblank⟩ := isBlankLine_iff.mp h
  rw [program_append hends, program_of_isBlank hblank, List.nil_append]

theorem program_squeezeRun_append {run : List (List Char)}
    (h : ∀ line ∈ run, isBlankLine line = true) (behind : List Char) :
    program ((squeezeRun run).flatten ++ behind) = program behind := by
  rcases squeezeRun_cases h with hrun | ⟨line, hline, hrun⟩
  · rw [hrun, List.flatten_nil, List.nil_append]
  · rw [hrun, List.flatten_singleton, program_blankLine_append hline]

-- The lines that are not blank stay, and the last one stays the last one.
theorem program_squeezeFrom {run list : List (List Char)}
    (hrun : ∀ line ∈ run, isBlankLine line = true)
    (hlist : list.IsChain fun line _ => endsWith ['\n'] line = true) :
    program (squeezeFrom run list).flatten = list.flatMap program := by
  induction list generalizing run with
  | nil =>
    have hnil := program_squeezeRun_append hrun []
    rw [List.append_nil] at hnil
    rw [squeezeFrom, hnil]
    exact program_of_isBlank rfl
  | cons line rest ih =>
    obtain ⟨hhead, htail⟩ := List.isChain_cons.mp hlist
    rw [squeezeFrom, List.flatMap_cons]
    split
    · next hblank =>
      have hmore : ∀ other ∈ run ++ [line], isBlankLine other = true := by
        intro other hother
        rcases List.mem_append.mp hother with hother | hother
        · exact hrun other hother
        · rw [List.mem_singleton.mp hother]
          exact hblank
      have hline : program line = [] := program_of_isBlank (isBlankLine_iff.mp hblank).2
      rw [ih hmore htail, hline, List.nil_append]
    · rw [List.flatten_append, program_squeezeRun_append hrun, List.flatten_cons]
      have hnext : program (squeezeFrom [] rest).flatten = rest.flatMap program :=
        ih (by simp) htail
      cases rest with
      | nil => simp [squeezeFrom, squeezeRun]
      | cons second rest => rw [program_append (hhead second rfl), hnext]

theorem program_collapseBlankLines (text : List Char) :
    program (collapseBlankLines text) = program text := by
  calc program (collapseBlankLines text)
      = (lines text).flatMap program := program_squeezeFrom (by simp) (cut_lines text).isChain
    _ = program (lines text).flatten := (program_flatten (cut_lines text).isChain).symm
    _ = program text := by rw [flatten_lines]

-- Uploading changes nothing of the program: the same pieces are there, of the same kinds, in the
-- same order and letter by letter, also when the envelope has been sent and read.
theorem upload_keeps_program (text : String) :
    program (collapseBlankLines text.toList) = program text.toList ∧
    program (Envelope.upload text).data.toList = program text.toList ∧
    (Envelope.read? (Envelope.upload text).write).map (program ·.data.toList) =
      some (program text.toList) := by
  have hkeep := program_collapseBlankLines text.toList
  have hdata : program (Envelope.upload text).data.toList = program text.toList := by
    rw [Envelope.upload, String.toList_ofList, hkeep]
  exact ⟨hkeep, hdata, by rw [read_write, Option.map_some, hdata]⟩

end CodePanel.Upload
