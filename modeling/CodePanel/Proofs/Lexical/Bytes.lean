import CodePanel.Source.Scanner

namespace CodePanel.Source

-- The number of bytes that a text takes.
def byteLength : List Char → Nat
  | [] => 0
  | c :: rest => c.utf8Size + byteLength rest

theorem byteLength_append (left right : List Char) :
    byteLength (left ++ right) = byteLength left + byteLength right := by
  induction left with
  | nil => simp [byteLength]
  | cons c rest ih =>
    simp only [List.cons_append, byteLength, ih]
    omega

-- A string takes as many bytes as its characters do.
theorem byteLength_toList (text : String) : byteLength text.toList = text.utf8ByteSize := by
  have hlist : ∀ list : List Char, byteLength list = (String.ofList list).utf8ByteSize := by
    intro list
    induction list with
    | nil => rfl
    | cons c rest ih =>
      rw [byteLength, ih, ← List.singleton_append, String.ofList_append, String.utf8ByteSize_append,
        ← String.singleton_eq_ofList, String.utf8ByteSize_singleton]
  rw [hlist, String.ofList_toList]

theorem byteLength_pos {text : List Char} (h : text ≠ []) : 0 < byteLength text := by
  cases text with
  | nil => exact absurd rfl h
  | cons c rest =>
    have := c.utf8Size_pos
    simp only [byteLength]
    omega

theorem utf8_cons (c : Char) (rest : List Char) :
    utf8 (c :: rest) = String.utf8EncodeChar c ++ utf8 rest := rfl

theorem length_utf8 (text : List Char) : (utf8 text).length = byteLength text := by
  induction text with
  | nil => rfl
  | cons c rest ih =>
    rw [utf8_cons, List.length_append, ih, String.length_utf8EncodeChar, byteLength]

theorem utf8_append (left right : List Char) : utf8 (left ++ right) = utf8 left ++ utf8 right :=
  List.flatMap_append

-- An offset splits a text exactly at the ends of its characters.
theorem splitBytes_byteLength (front back : List Char) :
    splitBytes? (byteLength front) (front ++ back) = some (front, back) := by
  induction front with
  | nil => simp [byteLength, splitBytes?]
  | cons c rest ih =>
    obtain ⟨n, hn⟩ : ∃ n, byteLength (c :: rest) = n + 1 :=
      ⟨_, (Nat.succ_pred_eq_of_pos (byteLength_pos (by simp))).symm⟩
    have hrest : n + 1 - c.utf8Size = byteLength rest := by
      rw [← hn, byteLength]
      omega
    have hle : c.utf8Size ≤ n + 1 := by
      rw [← hn, byteLength]
      omega
    rw [hn, List.cons_append, splitBytes?, if_pos hle, hrest, ih]
    rfl

-- The part of a text that a piece of it takes up.
theorem slice_append (front middle back : List Char) :
    slice? (front ++ (middle ++ back)) (byteLength front) (byteLength front + byteLength middle) =
      some middle := by
  have hle : ¬byteLength front + byteLength middle < byteLength front := by omega
  rw [slice?, if_neg hle, splitBytes_byteLength, Nat.add_sub_cancel_left]
  simp only [Option.bind_eq_bind, Option.bind_some, splitBytes_byteLength]

theorem utf8Size_of_lt {c : Char} (h : c.toNat < 128) : c.utf8Size = 1 := by
  apply Char.utf8Size_eq_one_iff.mpr
  apply UInt32.le_iff_toNat_le.mpr
  exact Nat.le_of_lt_succ h

theorem byteLength_concat_of_lt {c : Char} (h : c.toNat < 128) (front : List Char) :
    byteLength (front ++ [c]) = byteLength front + 1 := by
  simp only [byteLength_append, byteLength, utf8Size_of_lt h]

theorem utf8EncodeChar_of_lt {c : Char} (h : c.toNat < 128) :
    String.utf8EncodeChar c = [c.toUInt8] :=
  String.utf8EncodeChar_eq_singleton (utf8Size_of_lt h)

theorem ofUInt8_toUInt8 {c : Char} (h : c.toNat < 128) : Char.ofUInt8 c.toUInt8 = c := by
  have hval : c.val.toNat < 128 := h
  apply Char.ext
  apply UInt32.toNat_inj.mp
  show c.val.toUInt8.toUInt32.toNat = c.val.toNat
  rw [UInt8.toNat_toUInt32, UInt32.toNat_toUInt8]
  omega

-- A character beyond ASCII has no byte that could be taken for an ASCII character.
theorem le_of_mem_utf8EncodeChar {c : Char} (h : 128 ≤ c.toNat) :
    ∀ byte ∈ String.utf8EncodeChar c, 128 ≤ byte.toNat := by
  -- each byte of a long encoding carries marks from 128 on
  have hor : ∀ x mark : UInt8, 128 ≤ mark.toNat → 128 ≤ (x ||| mark).toNat := by
    intro x mark hmark
    rw [UInt8.toNat_or]
    exact Nat.le_trans hmark Nat.right_le_or
  intro byte hbyte
  rcases Char.utf8Size_eq c with hsize | hsize | hsize | hsize
  · have hsmall := UInt32.le_iff_toNat_le.mp (Char.utf8Size_eq_one_iff.mp hsize)
    exact absurd hsmall (Nat.not_le_of_lt h)
  · rw [String.utf8EncodeChar_eq_cons_cons hsize] at hbyte
    simp only [List.mem_cons, List.not_mem_nil, or_false] at hbyte
    rcases hbyte with rfl | rfl <;> exact hor _ _ (by decide)
  · rw [String.utf8EncodeChar_eq_cons_cons_cons hsize] at hbyte
    simp only [List.mem_cons, List.not_mem_nil, or_false] at hbyte
    rcases hbyte with rfl | rfl | rfl <;> exact hor _ _ (by decide)
  · rw [String.utf8EncodeChar_eq_cons_cons_cons_cons hsize] at hbyte
    simp only [List.mem_cons, List.not_mem_nil, or_false] at hbyte
    rcases hbyte with rfl | rfl | rfl | rfl <;> exact hor _ _ (by decide)

-- A byte of a character stands for it if it is the character itself, or if both are beyond ASCII.
def StandsFor (byte c : Char) : Prop :=
  byte = c ∨ 128 ≤ byte.toNat ∧ 128 ≤ c.toNat

-- A test that no character beyond ASCII passes.
def AsciiOnly (test : Char → Bool) : Prop :=
  ∀ c, test c = true → c.toNat < 128

theorem StandsFor.test_eq {byte c : Char} {test : Char → Bool} (h : StandsFor byte c)
    (htest : AsciiOnly test) : test byte = test c := by
  rcases h with rfl | ⟨hbyte, hc⟩
  · rfl
  · have hfalse : ∀ d : Char, 128 ≤ d.toNat → test d = false := by
      intro d hd
      apply Bool.eq_false_iff.mpr
      intro hpass
      have := htest d hpass
      omega
    rw [hfalse byte hbyte, hfalse c hc]

theorem StandsFor.eq_iff {byte c d : Char} (h : StandsFor byte c) (hd : d.toNat < 128) :
    byte = d ↔ c = d := by
  have htest : AsciiOnly (· == d) := by
    intro e he
    rwa [eq_of_beq he]
  have := h.test_eq htest
  simpa using congrArg (· = true) this

theorem standsFor_of_mem {c : Char} {byte : UInt8} (h : byte ∈ String.utf8EncodeChar c) :
    StandsFor (.ofUInt8 byte) c := by
  by_cases hc : c.toNat < 128
  · rw [utf8EncodeChar_of_lt hc, List.mem_singleton] at h
    rw [h, ofUInt8_toUInt8 hc]
    exact Or.inl rfl
  · exact Or.inr ⟨le_of_mem_utf8EncodeChar (by omega) byte h, by omega⟩

-- Every byte of a text stands for one of its characters.
theorem exists_of_mem_utf8 {text : List Char} {byte : UInt8} (h : byte ∈ utf8 text) :
    ∃ c ∈ text, StandsFor (.ofUInt8 byte) c := by
  obtain ⟨c, hc, hencode⟩ := List.mem_flatMap.mp h
  exact ⟨c, hc, standsFor_of_mem hencode⟩

-- Texts of ASCII characters are their own bytes.
theorem map_ofUInt8_utf8 {text : List Char} (h : ∀ c ∈ text, c.toNat < 128) :
    (utf8 text).map .ofUInt8 = text := by
  induction text with
  | nil => rfl
  | cons c rest ih =>
    have hc := h c (by simp)
    rw [utf8_cons, utf8EncodeChar_of_lt hc, List.map_append, ih fun d hd => h d (by simp [hd])]
    simp [ofUInt8_toUInt8 hc]

end CodePanel.Source
