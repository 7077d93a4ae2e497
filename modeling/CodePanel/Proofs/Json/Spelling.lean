import CodePanel.Decimal.Format
import CodePanel.Json.Record
import CodePanel.Proofs.Json.ReadBack
import Mathlib.Data.List.Basic

namespace CodePanel.Decimal

theorem isDigits_toDigits (n : Nat) : IsDigits (Nat.toDigits 10 n) :=
  ⟨Nat.toDigits_ne_nil, fun _ => Nat.isDigit_of_mem_toDigits (by decide) (by decide)⟩

-- No number but zero is written with a zero in front.
theorem eq_zero_of_head_toDigits {n : Nat} (h : (Nat.toDigits 10 n).head? = some '0') : n = 0 := by
  induction n using Nat.strongRecOn with
  | ind n ih =>
    rw [Nat.toDigits_eq_if (by decide)] at h
    split at h
    · next hlt =>
      have hall : ∀ k < 10, Nat.digitChar k = '0' → k = 0 := by decide
      exact hall n hlt (Option.some.inj h)
    · next hge =>
      rw [List.head?_append_of_ne_nil _ Nat.toDigits_ne_nil] at h
      have hzero := ih (n / 10) (by omega) h
      omega

theorem eq_singleton_of_head_toDigits {n : Nat} (h : (Nat.toDigits 10 n).head? = some '0') :
    Nat.toDigits 10 n = ['0'] := by
  rw [eq_zero_of_head_toDigits h, Nat.toDigits_zero]

-- The digits on the two sides of a point. A zero may only stand in front of the others if it is
-- the last one before the point.
theorem placePoint_spec {digits : List Char} {position : Int} (hdigits : IsDigits digits)
    (hzero : digits.head? = some '0' → digits = ['0'] ∧ position ≤ 1) :
    IsDigits (placePoint digits position).1 ∧
      ((placePoint digits position).1.head? = some '0' → (placePoint digits position).1 = ['0']) ∧
      ∀ c ∈ (placePoint digits position).2, c.isDigit = true := by
  obtain ⟨hne, hall⟩ := hdigits
  have hzeros : ∀ count, ∀ c ∈ List.replicate count '0', c.isDigit = true := by
    intro count c hc
    rw [List.eq_of_mem_replicate hc]
    decide
  unfold placePoint
  split
  · exact ⟨⟨by simp, by simp⟩, fun _ => rfl, List.forall_mem_append.mpr ⟨hzeros _, hall⟩⟩
  · next hpos =>
    split
    · next hlong =>
      refine ⟨⟨by simp [hne], List.forall_mem_append.mpr ⟨hall, hzeros _⟩⟩, fun hhead => ?_,
        by simp⟩
      rw [List.head?_append_of_ne_nil _ hne] at hhead
      obtain ⟨rfl, hle⟩ := hzero hhead
      have hnone : (position - (['0'].length : Int)).toNat = 0 := by
        rw [List.length_singleton]
        omega
      rw [hnone]
      rfl
    · next hshort =>
      have hcount : position.toNat ≠ 0 := by omega
      refine ⟨⟨by simp [hne, hcount], fun c hc => hall c (List.mem_of_mem_take hc)⟩,
        fun hhead => ?_, fun c hc => hall c (List.mem_of_mem_drop hc)⟩
      rw [List.head?_take, if_neg hcount] at hhead
      obtain ⟨rfl, hle⟩ := hzero hhead
      rw [List.length_singleton] at hshort
      omega

theorem wellSpelled_layOut (format : Format) (negative : Bool) {number : Shortest}
    (h : number.coefficient = 0 → number.exponent = 0) :
    (format.layOut negative number).WellSpelled := by
  have hdigits := isDigits_toDigits number.coefficient
  -- zero has one digit, and its exponent is zero
  have hzero : (Nat.toDigits 10 number.coefficient).head? = some '0' →
      Nat.toDigits 10 number.coefficient = ['0'] ∧ number.exponent = 0 := fun hhead =>
    ⟨eq_singleton_of_head_toDigits hhead, h (eq_zero_of_head_toDigits hhead)⟩
  simp only [Format.layOut]
  split
  · have hplain : (Nat.toDigits 10 number.coefficient).head? = some '0' →
        Nat.toDigits 10 number.coefficient = ['0'] ∧
          (Nat.toDigits 10 number.coefficient).length - 1 + number.exponent + 1 ≤ 1 := by
      intro hhead
      obtain ⟨hsingle, hexponent⟩ := hzero hhead
      refine ⟨hsingle, ?_⟩
      rw [hsingle, hexponent, List.length_singleton]
      decide
    obtain ⟨hwhole, hleading, hfraction⟩ := placePoint_spec hdigits hplain
    refine ⟨hwhole, hleading, ?_, by simp⟩
    simp only
    split
    · simp
    · exact hfraction
  · obtain ⟨hwhole, hleading, hfraction⟩ := placePoint_spec hdigits fun hhead =>
      ⟨(hzero hhead).1, Int.le_refl 1⟩
    refine ⟨hwhole, hleading, hfraction, ?_⟩
    rintro exponent ⟨⟩
    exact isDigits_toDigits _

theorem coefficient_strip {coefficient : Nat} (h : coefficient ≠ 0) (exponent : Int) :
    (Shortest.strip coefficient exponent).coefficient ≠ 0 := by
  fun_induction Shortest.strip coefficient exponent with
  | case1 coefficient exponent hzeros ih => exact ih (by omega)
  | case2 coefficient exponent _ => exact h

theorem tenTo_pos (n : Nat) : 0 < tenTo n :=
  Nat.pow_pos (by decide)

-- Zero lies below the interval of a number that is not zero.
theorem nearest_ne_zero {half : Half} {interval : Interval} {exponent : Int} {coefficient : Nat}
    (hlow : 0 < interval.low) (h : interval.nearest? half exponent = some coefficient) :
    coefficient ≠ 0 := by
  have hdown : 0 < interval.low * tenTo (-exponent).toNat := Nat.mul_pos hlow (tenTo_pos _)
  have houtside : ∀ (unit : Nat) (upper upper' : Bool),
      ¬(if interval.closed = true then
          decide (interval.low * tenTo (-exponent).toNat ≤ 0 * unit) && upper
        else decide (interval.low * tenTo (-exponent).toNat < 0 * unit) && upper') = true := by
    intro unit upper upper' hinside
    rw [Nat.zero_mul] at hinside
    split at hinside
    · have hle := of_decide_eq_true (Bool.and_eq_true_iff.mp hinside).1
      omega
    · have hlt := of_decide_eq_true (Bool.and_eq_true_iff.mp hinside).1
      omega
  rintro rfl
  simp only [Interval.nearest?] at h
  generalize interval.value * tenTo (-exponent).toNat /
    (interval.denominator * tenTo exponent.toNat) = floor at h
  -- the answer is the multiple below, which lies inside then, or the one above, which is not zero
  split at h
  · cases h
  · next hinside _ =>
    cases h
    exact houtside _ _ _ hinside
  · cases h
  · next hinside _ =>
    have hfloor : floor = 0 := by
      split at h
      · exact Option.some.inj h
      · cases h
      · split at h
        · cases h
        · split at h
          · exact Option.some.inj h
          · cases h
    rw [hfloor] at hinside
    exact houtside _ _ _ hinside

theorem low_interval_pos {b : Binary} (h : b.mantissa ≠ 0) : 0 < b.interval.low := by
  have htwo : 0 < twoTo (b.exponent - 2).toNat := Nat.pow_pos (by decide)
  refine Nat.mul_pos ?_ htwo
  split <;> omega

-- Only zero is spelled with a coefficient of zero, and then without an exponent.
theorem shortest_cases (half : Half) (b : Binary) :
    b.shortest half = ⟨0, 0⟩ ∨ (b.shortest half).coefficient ≠ 0 := by
  unfold Binary.shortest
  split
  · exact .inl rfl
  · next hmantissa =>
    simp only
    generalize hattempts : List.findSome? _ _ = found
    cases found with
    | none => exact .inl rfl
    | some number =>
      obtain ⟨count, -, hattempt⟩ := List.exists_of_findSome?_eq_some hattempts
      obtain ⟨coefficient, hnearest, rfl⟩ := Option.map_eq_some_iff.mp hattempt
      have hcoefficient := nearest_ne_zero (low_interval_pos hmantissa) hnearest
      exact .inr (coefficient_strip hcoefficient _)

theorem wellSpelled_numeral {format : Format} {x : Float} {numeral : Numeral}
    (h : format.numeral? x = some numeral) : numeral.WellSpelled := by
  unfold Format.numeral? at h
  split at h
  · cases h
    refine wellSpelled_layOut format _ fun hzero => ?_
    rcases shortest_cases format.half _ with heq | hne
    · rw [heq]
    · exact absurd hzero hne
  · cases h

end CodePanel.Decimal

namespace CodePanel.Json

theorem wellSpelled_ofFloat (x : Float) : (Value.ofFloat x).WellSpelled := by
  unfold Value.ofFloat
  split
  · next numeral hnumeral => exact .number (Decimal.wellSpelled_numeral hnumeral)
  · exact .null

end CodePanel.Json
