import CodePanel.Proofs.Lexical.Reach
import CodePanel.Proofs.Lexical.Tokens

namespace CodePanel.Source

theorem asciiOnly_inWord : AsciiOnly inWord := by
  intro c h
  have hle : ∀ {low high : Char}, (decide (low ≤ c) && decide (c ≤ high)) = true →
      c.toNat ≤ high.toNat := by
    intro low high h
    rw [Bool.and_eq_true, decide_eq_true_eq, decide_eq_true_eq] at h
    exact UInt32.le_iff_toNat_le.mp (Char.le_def.mp h.2)
  simp only [inWord, isSmall, isCapital, isDecimal, Bool.or_eq_true, beq_iff_eq] at h
  rcases h with ((h | h) | h) | rfl
  · exact Nat.lt_of_le_of_lt (hle h) (by decide)
  · exact Nat.lt_of_le_of_lt (hle h) (by decide)
  · exact Nat.lt_of_le_of_lt (hle h) (by decide)
  · decide

theorem asciiOnly_isWordChar : AsciiOnly isWordChar :=
  inWord_eq ▸ asciiOnly_inWord

theorem asciiOnly_isIdentStart : AsciiOnly isIdentStart :=
  fun c h => asciiOnly_isWordChar c (isWordChar_of_isIdentStart h)

namespace Scanner

variable {scanner : Scanner} {front back : List Char}

theorem size_bytes (scanner : Scanner) : scanner.bytes.size = byteLength scanner.source := by
  rw [← Array.length_toList, scanner.encoded, length_utf8]

-- Every byte of a character stands for it.
theorem byte_inside {c : Char} (h : scanner.source = front ++ c :: back) {k : Nat}
    (hk : k < c.utf8Size) :
    ∃ byte, scanner.byte? (byteLength front + k) = some byte ∧ StandsFor byte c := by
  have hbytes : scanner.bytes.toList = utf8 front ++ (String.utf8EncodeChar c ++ utf8 back) := by
    rw [scanner.encoded, h, utf8_append, utf8_cons]
  have hlt : k < (String.utf8EncodeChar c).length := by rwa [String.length_utf8EncodeChar]
  refine ⟨.ofUInt8 (String.utf8EncodeChar c)[k], ?_, standsFor_of_mem (List.getElem_mem hlt)⟩
  rw [byte?, ← Array.getElem?_toList, hbytes, ← length_utf8,
    List.getElem?_append_right (Nat.le_add_right _ _), Nat.add_sub_cancel_left,
    List.getElem?_append_left hlt, List.getElem?_eq_getElem hlt]
  rfl

theorem byte_first {c : Char} (h : scanner.source = front ++ c :: back) :
    ∃ byte, scanner.byte? (byteLength front) = some byte ∧ StandsFor byte c :=
  byte_inside h c.utf8Size_pos

theorem byte_end (h : scanner.source = front) : scanner.byte? (byteLength front) = none := by
  rw [byte?, ← h, ← size_bytes, Array.getElem?_size]
  rfl

theorem byteSlice_eq {middle : List Char} (h : scanner.source = front ++ (middle ++ back)) :
    scanner.byteSlice? (byteLength front) (byteLength front + byteLength middle) =
      some (utf8 middle) := by
  have hsize : byteLength front + byteLength middle ≤ scanner.bytes.size := by
    rw [size_bytes, h, byteLength_append, byteLength_append]
    omega
  rw [byteSlice?, if_pos ⟨Nat.le_add_right _ _, hsize⟩, scanner.encoded, h, utf8_append,
    utf8_append, Nat.add_sub_cancel_left, ← length_utf8 front, ← length_utf8 middle,
    List.drop_left, List.take_left]

-- What is asked of the byte at an offset is answered by the character there.
theorem any_byte {test : Char → Bool} (htest : AsciiOnly test)
    (h : scanner.source = front ++ back) :
    (scanner.byte? (byteLength front)).any test = back.head?.any test := by
  cases back with
  | nil => rw [byte_end (by rw [h, List.append_nil])]; rfl
  | cons c rest =>
    obtain ⟨byte, hbyte, hstands⟩ := byte_first h
    rw [hbyte]
    exact hstands.test_eq htest

theorem byte_eq_some_iff {d : Char} (hd : d.toNat < 128) (h : scanner.source = front ++ back) :
    scanner.byte? (byteLength front) = some d ↔ back.head? = some d := by
  cases back with
  | nil => simp [byte_end (h.trans (List.append_nil front))]
  | cons c rest =>
    obtain ⟨byte, hbyte, hstands⟩ := byte_first h
    simp only [hbyte, List.head?_cons, Option.some.injEq]
    exact hstands.eq_iff hd

-- So is what is asked of the byte in front of an offset.
theorem byte_before {c : Char} (h : scanner.source = front ++ c :: back) :
    ∃ byte, scanner.byte? (byteLength (front ++ [c]) - 1) = some byte ∧ StandsFor byte c := by
  have hpos := c.utf8Size_pos
  have hlast : byteLength (front ++ [c]) - 1 = byteLength front + (c.utf8Size - 1) := by
    simp only [byteLength_append, byteLength]
    omega
  rw [hlast]
  exact byte_inside h (by omega)

theorem isGlued_eq (h : scanner.source = front ++ back) :
    scanner.isGlued? (byteLength front) = some (front.getLast?.any isWordChar) := by
  rcases List.eq_nil_or_concat front with rfl | ⟨init, c, rfl⟩
  · rfl
  · rw [List.concat_eq_append] at h ⊢
    have hne : byteLength (init ++ [c]) ≠ 0 :=
      Nat.ne_of_gt (byteLength_pos (by simp))
    rw [List.append_assoc] at h
    obtain ⟨byte, hbyte, hstands⟩ := byte_before h
    rw [isGlued?, if_neg hne, hbyte, List.getLast?_concat]
    exact congrArg some (hstands.test_eq asciiOnly_isWordChar)

theorem wordEnd_eq (h : scanner.source = front ++ back) :
    scanner.wordEnd (byteLength front) = byteLength front + byteLength (wordAhead back) := by
  induction back generalizing front with
  | nil =>
    rw [List.append_nil] at h
    have hsize : ¬byteLength front < scanner.bytes.size := by
      rw [size_bytes, h]
      exact Nat.lt_irrefl _
    rw [wordEnd, dif_neg hsize]
    rfl
  | cons c rest ih =>
    obtain ⟨byte, hbyte, hstands⟩ := byte_first h
    have hlt := lt_size_of_byte hbyte
    have hget : Char.ofUInt8 scanner.bytes[byteLength front] = byte := by
      simpa [byte?, Array.getElem?_eq_getElem hlt] using hbyte
    have htest := hstands.test_eq asciiOnly_isWordChar
    rw [wordEnd, dif_pos hlt, hget, htest, wordAhead, List.takeWhile_cons]
    by_cases hword : isWordChar c = true
    · -- a word character is one byte long
      have hascii := asciiOnly_isWordChar c hword
      rw [if_pos hword, if_pos hword, ← byteLength_concat_of_lt hascii,
        ih (by rw [h, List.append_assoc]; rfl)]
      simp only [byteLength_append, byteLength, wordAhead, Nat.add_assoc, Nat.add_zero]
    · rw [if_neg hword, if_neg (by simpa using hword)]
      rfl

-- Words are ASCII texts, so they may be judged by their bytes.
theorem map_ofUInt8_wordAhead (text : List Char) :
    (utf8 (wordAhead text)).map .ofUInt8 = wordAhead text :=
  map_ofUInt8_utf8 fun c hc => asciiOnly_isWordChar c (List.all_eq_true.mp List.all_takeWhile c hc)

theorem length_utf8_wordAhead (text : List Char) :
    (utf8 (wordAhead text)).length = (wordAhead text).length := by
  rw [← List.length_map Char.ofUInt8, map_ofUInt8_wordAhead]

theorem all_utf8_wordAhead (test : Char → Bool) (text : List Char) :
    ((utf8 (wordAhead text)).all fun byte => test (.ofUInt8 byte)) = (wordAhead text).all test := by
  conv => rhs; rw [← map_ofUInt8_wordAhead text, List.all_map]
  rfl

-- The piece that a claim makes of the text from an offset on.
def claimed (front : List Char) (c : Char) (rest : List Char) (claim : Kind × Nat) : Kind × Nat :=
  (claim.1, byteLength (front ++ c :: rest.take claim.2))

theorem claimed_zero (front : List Char) (c : Char) (rest : List Char) (kind : Kind) :
    claimed front c rest (kind, 0) = (kind, byteLength front + c.utf8Size) := by
  simp [claimed, byteLength_append, byteLength]

theorem take_wordAhead (text : List Char) : text.take (wordAhead text).length = wordAhead text :=
  (List.prefix_iff_eq_take.mp (List.takeWhile_prefix isWordChar)).symm

theorem wordAhead_append_drop (text : List Char) :
    wordAhead text ++ text.drop (wordAhead text).length = text := by
  conv => lhs; lhs; rw [← take_wordAhead]
  exact List.take_append_drop _ _

theorem claimed_wordAhead (front : List Char) (c : Char) (rest : List Char) (kind : Kind) :
    claimed front c rest (kind, (wordAhead rest).length) =
      (kind, byteLength (front ++ [c]) + byteLength (wordAhead rest)) := by
  simp only [claimed, take_wordAhead, byteLength_append, byteLength, Nat.add_assoc, Nat.add_zero]

theorem scanSigil_eq {c : Char} {rest : List Char} (h : scanner.source = front ++ c :: rest)
    (hascii : c.toNat < 128) (kind : Kind) :
    scanner.scanSigil (byteLength front) kind = claimed front c rest (sigilReach kind rest) := by
  have hsource : scanner.source = (front ++ [c]) ++ rest := by simp [h]
  rw [scanSigil, ← byteLength_concat_of_lt hascii, any_byte asciiOnly_isIdentStart hsource,
    wordEnd_eq hsource, sigilReach]
  split
  · rw [claimed_wordAhead]
  · rw [claimed_zero, byteLength_concat_of_lt hascii, utf8Size_of_lt hascii]

theorem scanRegister_eq {rest : List Char} (h : scanner.source = front ++ '%' :: rest) :
    scanner.scanRegister? (byteLength front) = some (claimed front '%' rest
      (if isRegisterName front.getLast? (wordAhead rest) then (.register, (wordAhead rest).length)
        else (.text, 0))) := by
  have hnext : byteLength front + 1 = byteLength (front ++ ['%']) :=
    (byteLength_concat_of_lt (by decide) front).symm
  have hsource : scanner.source = (front ++ ['%']) ++ rest := by simp [h]
  have hname : scanner.byteSlice? (byteLength (front ++ ['%']))
      (byteLength (front ++ ['%']) + byteLength (wordAhead rest)) =
        some (utf8 (wordAhead rest)) :=
    byteSlice_eq (by rw [wordAhead_append_drop, hsource])
  have hplain : claimed front '%' rest (.text, 0) = (.text, byteLength front + 1) :=
    claimed_zero front '%' rest .text
  simp only [scanRegister?, isGlued_eq h, hnext, wordEnd_eq hsource, hname, Option.bind_eq_bind,
    Option.bind_some, length_utf8_wordAhead, all_utf8_wordAhead Char.isLower, isRegisterName]
  by_cases hglued : front.getLast?.any isWordChar = true
  · simp only [hglued, if_true, Bool.not_true, Bool.false_and, Bool.false_eq_true, if_false, hplain,
      hnext]
  · simp only [hglued, Bool.false_eq_true, if_false, Bool.not_false, Bool.true_and]
    split
    · rw [claimed_wordAhead]
    · rw [hplain, hnext]

theorem scanWord_eq {c : Char} {rest : List Char} (h : scanner.source = front ++ c :: rest)
    (hword : isWordChar c = true) :
    scanner.scanWord? (byteLength front) = some (claimed front c rest (wordReach c rest)) := by
  have hahead : c :: wordAhead rest = wordAhead (c :: rest) := by
    rw [wordAhead, wordAhead, List.takeWhile_cons, if_pos hword]
  have hsource : scanner.source = front ++ (wordAhead (c :: rest) ++
      rest.drop (wordAhead rest).length) := by
    rw [← hahead, List.cons_append, wordAhead_append_drop, h]
  have hslice := slice_append front (wordAhead (c :: rest)) (rest.drop (wordAhead rest).length)
  have hfirst : scanner.byte? (byteLength front) = some c :=
    (byte_eq_some_iff (asciiOnly_isWordChar c hword) h).mpr rfl
  -- the end of the word, and what stands there
  have hstop : byteLength front + byteLength (wordAhead (c :: rest)) =
      byteLength (front ++ wordAhead (c :: rest)) := (byteLength_append _ _).symm
  have hcolon : scanner.byte? (byteLength (front ++ wordAhead (c :: rest))) = some ':' ↔
      (rest.drop (wordAhead rest).length).head? = some ':' :=
    byte_eq_some_iff (by decide) (by rw [hsource, List.append_assoc])
  have hclaimed : ∀ kind, claimed front c rest (kind, (wordAhead rest).length) =
      (kind, byteLength (front ++ wordAhead (c :: rest))) := by
    intro kind
    rw [claimed, take_wordAhead, hahead]
  rw [← hsource, hstop] at hslice
  simp only [scanWord?, wordEnd_eq h, hstop, hslice, hfirst, Option.bind_eq_bind, Option.bind_some,
    length_utf8_wordAhead, all_utf8_wordAhead Char.isDigit, hcolon, wordReach, hahead]
  split
  · rw [hclaimed]
    rfl
  split
  · next hbehind =>
    obtain ⟨more, hmore⟩ := List.head?_eq_some_iff.mp hbehind
    have htake : rest.take ((wordAhead rest).length + 1) = wordAhead rest ++ [':'] := by
      rw [List.take_add, take_wordAhead, hmore]
      rfl
    have hlabel : claimed front c rest (.label, (wordAhead rest).length + 1) =
        (.label, byteLength (front ++ wordAhead (c :: rest)) + 1) := by
      rw [claimed, htake, ← List.cons_append, hahead, ← List.append_assoc,
        byteLength_concat_of_lt (by decide)]
    rw [hlabel]
  · rw [hclaimed]

end Scanner

-- The end of a line is where its line feed is, or one character earlier.
theorem lineLength_append {line : List Char} (hline : '\n' ∉ line) (more : List Char) :
    lineLength (line ++ '\n' :: more) =
      if line.getLast? = some '\r' then line.length - 1 else line.length := by
  induction line with
  | nil => rfl
  | cons c line ih =>
    have hc : c ≠ '\n' := fun h => hline (by simp [h])
    have hrest : '\n' ∉ line := fun h => hline (by simp [h])
    cases line with
    | nil =>
      by_cases hreturn : c = '\r'
      · subst hreturn
        rfl
      · rw [List.singleton_append, lineLength]
        · simp [hreturn, lineLength]
        · exact hc
        · exact fun _ h _ => hreturn h
    | cons d line =>
      have hd : d ≠ '\n' := fun h => hrest (by simp [h])
      rw [List.cons_append, lineLength]
      · rw [ih hrest, List.getLast?_cons_cons]
        split <;> simp
      · exact hc
      · intro more _ h
        exact hd (List.cons.inj h).1

theorem lineLength_of_not_mem {text : List Char} (h : '\n' ∉ text) :
    lineLength text = text.length := by
  fun_induction lineLength text with
  | case1 => rfl
  | case2 rest => simp at h
  | case3 rest => simp at h
  | case4 c rest hbreak hreturn ih =>
    rw [ih fun hmem => h (by simp [hmem]), List.length_cons]

namespace Scanner

variable {scanner : Scanner} {front rest : List Char}

theorem findIdx_lineFeed_eq_none {text : List Char} (h : '\n' ∉ text) :
    (utf8 text).findIdx? (Char.ofUInt8 · == '\n') = none := by
  rw [List.findIdx?_eq_none_iff]
  intro byte hbyte
  obtain ⟨c, hc, hstands⟩ := exists_of_mem_utf8 hbyte
  rw [beq_eq_false_iff_ne]
  intro hfeed
  exact h ((hstands.eq_iff (by decide)).mp hfeed ▸ hc)

theorem findIdx_lineFeed {line : List Char} (h : '\n' ∉ line) (more : List Char) :
    (utf8 (line ++ '\n' :: more)).findIdx? (Char.ofUInt8 · == '\n') = some (byteLength line) := by
  have hfeed : utf8 ('\n' :: more) = 10 :: utf8 more := rfl
  rw [utf8_append, List.findIdx?_append, findIdx_lineFeed_eq_none h, hfeed, List.findIdx?_cons,
    if_pos (by decide), length_utf8]
  simp

theorem byteSlice_comment {text : List Char} (h : scanner.source = front ++ text) :
    scanner.byteSlice? (byteLength front) scanner.bytes.size = some (utf8 text) := by
  rw [size_bytes, h, byteLength_append]
  exact byteSlice_eq (by rw [h, List.append_nil])

-- The comment of a line that has a line feed: a `\r` right in front of it is left out.
theorem commentEnd_of_lineFeed {line more : List Char} (hline : '\n' ∉ line)
    (h : scanner.source = front ++ '/' :: '/' :: (line ++ '\n' :: more)) :
    scanner.commentEnd? (byteLength front) = some (byteLength (front ++ '/' :: '/' ::
      if line.getLast? = some '\r' then line.dropLast else line)) := by
  have hslashes : '\n' ∉ '/' :: '/' :: line := by simp [hline]
  have hfind := findIdx_lineFeed hslashes more
  have hnewline : byteLength front + byteLength ('/' :: '/' :: line) =
      byteLength (front ++ '/' :: '/' :: line) := (byteLength_append _ _).symm
  simp only [List.cons_append] at hfind
  simp only [commentEnd?, byteSlice_comment h, hfind, hnewline, Option.bind_eq_bind,
    Option.bind_some]
  rcases List.eq_nil_or_concat line with rfl | ⟨init, c, rfl⟩
  · have hempty : ¬byteLength front + 2 < byteLength (front ++ ['/', '/']) := by
      rw [byteLength_append]
      exact Nat.lt_irrefl _
    simp [hempty]
  · rw [List.concat_eq_append] at h ⊢
    have hconcat : front ++ '/' :: '/' :: (init ++ [c]) = (front ++ '/' :: '/' :: init) ++ [c] := by
      simp
    have hsource : scanner.source = (front ++ '/' :: '/' :: init) ++ c :: '\n' :: more := by
      simp [h]
    obtain ⟨byte, hbyte, hstands⟩ := byte_before hsource
    have hreturn : byte = '\r' ↔ c = '\r' := hstands.eq_iff (by decide)
    have hlong : byteLength front + 2 < byteLength (front ++ '/' :: '/' :: (init ++ [c])) := by
      have hpos := c.utf8Size_pos
      have hslash : '/'.utf8Size = 1 := rfl
      simp only [byteLength_append, byteLength, hslash]
      omega
    rw [← hconcat] at hbyte
    simp only [hlong, hbyte, true_and, Option.some.injEq, hreturn, List.getLast?_concat,
      List.dropLast_concat]
    split
    · next hc =>
      rw [hconcat, hc, byteLength_append _ ['\r']]
      rfl
    · rfl

theorem commentEnd_eq (h : scanner.source = front ++ '/' :: '/' :: rest) :
    scanner.commentEnd? (byteLength front) =
      some (byteLength (front ++ '/' :: '/' :: rest.take (lineLength rest))) := by
  by_cases hfeed : '\n' ∈ rest
  · obtain ⟨line, more, rfl, hline⟩ := List.eq_append_cons_of_mem hfeed
    rw [commentEnd_of_lineFeed hline h, lineLength_append hline]
    split
    · rw [List.take_append_of_le_length (Nat.sub_le _ _), List.dropLast_eq_take]
    · rw [List.take_left]
  · have hslashes : '\n' ∉ '/' :: '/' :: rest := by simp [hfeed]
    simp only [commentEnd?, byteSlice_comment h, findIdx_lineFeed_eq_none hslashes,
      lineLength_of_not_mem hfeed, List.take_length, Option.bind_eq_bind, Option.bind_some]
    rw [size_bytes, h]

-- A character that starts no piece of its own is passed as a whole.
theorem nextBoundary_eq {c : Char} (h : scanner.source = front ++ c :: rest) :
    scanner.nextBoundary? (byteLength front) = some (byteLength front + c.utf8Size) := by
  rw [nextBoundary?, h, splitBytes_byteLength]
  rfl

theorem pair_iff {c first second byte : Char} (h : scanner.source = front ++ c :: rest)
    (hstands : StandsFor byte c) (hfirst : first.toNat < 128) (hsecond : second.toNat < 128) :
    (byte = first ∧ scanner.byte? (byteLength front + 1) = some second) ↔
      (c = first ∧ rest.head? = some second) := by
  rw [hstands.eq_iff hfirst]
  refine and_congr_right ?_
  rintro rfl
  rw [← byteLength_concat_of_lt hfirst]
  exact byte_eq_some_iff hsecond (by simp [h])

-- One step of the scan takes the piece that the characters make.
theorem scanAt_eq {c : Char} (h : scanner.source = front ++ c :: rest) :
    scanner.scanAt? (byteLength front) =
      some (claimed front c rest (reach front.getLast? c rest)) := by
  obtain ⟨byte, hbyte, hstands⟩ := byte_first h
  have hfeed : byte = '\n' ↔ c = '\n' := hstands.eq_iff (by decide)
  have hreturn := pair_iff h hstands (by decide : '\r'.toNat < 128) (by decide : '\n'.toNat < 128)
  have hslashes := pair_iff h hstands (by decide : '/'.toNat < 128) (by decide : '/'.toNat < 128)
  have hpercent : byte = '%' ↔ c = '%' := hstands.eq_iff (by decide)
  have hdollar : byte = '$' ↔ c = '$' := hstands.eq_iff (by decide)
  have hat : byte = '@' ↔ c = '@' := hstands.eq_iff (by decide)
  have hword : isWordChar byte = isWordChar c := hstands.test_eq asciiOnly_isWordChar
  simp only [scanAt?, hbyte, Option.bind_eq_bind, Option.bind_some, hfeed, hreturn, hslashes,
    hpercent, hdollar, hat, hword, reach]
  split
  · next heq =>
    subst heq
    rw [claimed_zero]
    rfl
  split
  · next hpair =>
    obtain ⟨rfl, hhead⟩ := hpair
    obtain ⟨more, rfl⟩ := List.head?_eq_some_iff.mp hhead
    simp only [claimed, byteLength_append]
    rfl
  split
  · next hpair =>
    obtain ⟨rfl, hhead⟩ := hpair
    obtain ⟨more, rfl⟩ := List.head?_eq_some_iff.mp hhead
    rw [commentEnd_eq h]
    rfl
  split
  · next heq =>
    subst heq
    exact scanRegister_eq h
  split
  · next heq =>
    subst heq
    rw [scanSigil_eq h (by decide)]
  split
  · next heq =>
    subst heq
    rw [scanSigil_eq h (by decide)]
  split
  · next hpass => exact scanWord_eq h hpass
  · rw [nextBoundary_eq h, claimed_zero]
    rfl

theorem getLast_claimed (front : List Char) (c : Char) (more : List Char) :
    (front ++ c :: more).getLast? = some (more.getLastD c) := by
  rw [List.getLast?_append, List.getLast?_cons, List.getLastD_eq_getLast?]
  rfl

-- From the end of any character on, the scan gets through the source and takes the pieces there.
theorem scan_eq {back : List Char} (h : scanner.source = front ++ back) :
    scanner.scan? (byteLength front) =
      some (place (byteLength front) (pieces front.getLast? back)) := by
  generalize hbefore : front.getLast? = before
  fun_induction pieces before back generalizing front
  case case1 before =>
    have hsize : ¬byteLength front < scanner.bytes.size := by
      rw [size_bytes, h, List.append_nil]
      exact Nat.lt_irrefl _
    rw [scan?, if_neg hsize]
    rfl
  case case2 before c rest claim more ih =>
    subst hbefore
    have hstep : scanner.scanAt? (byteLength front) =
        some (claim.1, byteLength (front ++ c :: more)) := scanAt_eq h
    have hlt : byteLength front < scanner.bytes.size := by
      obtain ⟨byte, hbyte, -⟩ := byte_first h
      exact lt_size_of_byte hbyte
    have hrest : scanner.source = (front ++ c :: more) ++ rest.drop claim.2 := by
      rw [List.append_assoc, List.cons_append, List.take_append_drop, h]
    have hscan := ih hrest (getLast_claimed front c more)
    rw [scan?, if_pos hlt]
    split
    · next hnone =>
      rw [hstep] at hnone
      cases hnone
    · next kind stop hsome =>
      rw [hstep] at hsome
      cases hsome
      rw [hscan, place, byteLength_append front]
      rfl

end Scanner

theorem joinText_cons_text {first second : Lexeme} (hfirst : first.kind = .text)
    (hsecond : second.kind = .text) (list : List Lexeme) :
    joinText (first :: second :: list) =
      joinText (⟨.text, first.text ++ second.text⟩ :: list) := by
  simp only [joinText]
  cases joinText list with
  | nil => simp [hfirst, hsecond]
  | cons third list =>
    by_cases hthird : third.kind = .text
    · simp [hfirst, hsecond, hthird]
    · simp [hfirst, hsecond, hthird]

theorem joinText_cons_of_not {first second : Lexeme}
    (h : ¬(first.kind = .text ∧ second.kind = .text)) (list : List Lexeme) :
    joinText (first :: second :: list) = first :: joinText (second :: list) := by
  simp only [joinText]
  cases joinText list with
  | nil => simp [h]
  | cons third list =>
    by_cases hjoin : second.kind = .text ∧ third.kind = .text
    · have hfirst : first.kind ≠ .text := fun htext => h ⟨htext, hjoin.1⟩
      simp [hjoin, hfirst]
    · simp [hjoin, h]

-- Merging tokens one by one is joining the pieces that they were laid out from.
theorem foldl_pushToken (start : Nat) (first : Lexeme) (list : List Lexeme) (front : List Token) :
    (place (start + byteLength first.text) list).foldl pushToken
        (⟨first.kind, start, start + byteLength first.text⟩ :: front) =
      (place start (joinText (first :: list))).reverse ++ front := by
  induction list generalizing start first front with
  | nil => simp [joinText, place]
  | cons second list ih =>
    simp only [place, List.foldl_cons, pushToken]
    by_cases htext : first.kind = .text ∧ second.kind = .text
    · have hmerged := ih start ⟨.text, first.text ++ second.text⟩ front
      rw [byteLength_append, ← Nat.add_assoc] at hmerged
      rw [if_pos ⟨htext.1, htext.2, trivial⟩, htext.1, hmerged,
        joinText_cons_text htext.1 htext.2]
    · have happart := ih (start + byteLength first.text) second
        (⟨first.kind, start, start + byteLength first.text⟩ :: front)
      rw [if_neg fun h => htext ⟨h.1, h.2.1⟩, happart, joinText_cons_of_not htext, place,
        List.reverse_cons, List.append_assoc]
      rfl

theorem scan_ofSource (source : List Char) :
    (Scanner.ofSource source).scan? 0 = some (place 0 (pieces none source)) := by
  have hsource : (Scanner.ofSource source).source = [] ++ source := rfl
  exact Scanner.scan_eq hsource

-- The scan gets through every source, and gives the lexemes of the source laid end to end.
theorem tokenize?_eq (source : List Char) :
    tokenize? source = some (place 0 (lexemes source)) := by
  rw [tokenize?, scan_ofSource, Option.map_some, lexemes]
  cases pieces none source with
  | nil => rfl
  | cons first list =>
    have hfold := foldl_pushToken 0 first list []
    rw [List.append_nil] at hfold
    rw [place, List.foldl_cons, pushToken, hfold, List.reverse_reverse]

theorem tokenize_eq (source : List Char) : tokenize source = place 0 (lexemes source) := by
  rw [tokenize, tokenize?_eq, Option.getD_some]

-- The tokens of a source hold the lexemes of the source.
theorem map_lexeme_tokenize (source : List Char) :
    (tokenize source).map (Token.lexeme source) = lexemes source := by
  have h := map_lexeme_place [] (lexemes source)
  rw [List.nil_append, textOf_lexemes] at h
  rwa [tokenize_eq]

-- Tokens come in the order of the text.
theorem pairwise_tokenize (source : List Char) :
    (tokenize source).Pairwise (·.start < ·.start) := by
  rw [tokenize_eq]
  exact pairwise_place fun _ => text_ne_nil_of_mem_lexemes

end CodePanel.Source
