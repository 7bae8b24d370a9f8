import TraceViewer.Proofs.Number.Rounding

/-!
# The shortest decimals

The shortest decimal of a number lies in the interval around it, so it is read back as this number.
With seventeen digits there always is one: the decimals of so many digits are closer to each other
than the ends of the interval.
-/

namespace TraceViewer.Number

/-- The decimal as a rational number. -/
def Decimal.value (d : Decimal) : ℚ := d.digits * 10 ^ d.exponent

/-! ## 1. The interval around a number -/

namespace Neighbourhood

variable {n : Neighbourhood} (hscale : 0 < n.scale) (bound : Nat) (d : Decimal)
include hscale

/-- Bounds and decimals are compared over a common denominator. -/
theorem scaled_eq :
    ((bound * powerOf 10 (-d.exponent) : Nat) : ℚ) / (n.scale * powerOf 10 (-d.exponent) : Nat) =
        bound / n.scale ∧
      ((d.digits * n.scale * powerOf 10 d.exponent : Nat) : ℚ) /
        (n.scale * powerOf 10 (-d.exponent) : Nat) = d.value := by
  have hpower : ((powerOf 10 (-d.exponent) : Nat) : ℚ) ≠ 0 :=
    mod_cast (powerOf_pos (by decide) _).ne'
  have hscale : ((n.scale : Nat) : ℚ) ≠ 0 := mod_cast hscale.ne'
  push_cast
  constructor
  · exact mul_div_mul_right _ _ hpower
  · have hquotient := powerOf_div 10 d.exponent
    rw [Nat.cast_ofNat] at hquotient
    rw [Decimal.value, ← hquotient]
    field_simp

theorem bound_le_iff :
    bound * powerOf 10 (-d.exponent) ≤ d.digits * n.scale * powerOf 10 d.exponent ↔
      (bound : ℚ) / n.scale ≤ d.value := by
  obtain ⟨hbound, hpoint⟩ := scaled_eq hscale bound d
  have hpos : (0 : ℚ) < (n.scale * powerOf 10 (-d.exponent) : Nat) :=
    mod_cast Nat.mul_pos hscale (powerOf_pos (by decide) _)
  rw [← hbound, ← hpoint, div_le_div_iff_of_pos_right hpos, Nat.cast_le]

theorem le_bound_iff :
    d.digits * n.scale * powerOf 10 d.exponent ≤ bound * powerOf 10 (-d.exponent) ↔
      d.value ≤ (bound : ℚ) / n.scale := by
  obtain ⟨hbound, hpoint⟩ := scaled_eq hscale bound d
  have hpos : (0 : ℚ) < (n.scale * powerOf 10 (-d.exponent) : Nat) :=
    mod_cast Nat.mul_pos hscale (powerOf_pos (by decide) _)
  rw [← hbound, ← hpoint, div_le_div_iff_of_pos_right hpos, Nat.cast_le]

end Neighbourhood

namespace Binary

variable {b : Binary}

theorem neighbourhood_scale_pos : 0 < b.neighbourhood.scale :=
  Nat.mul_pos (by decide) (powerOf_pos two_pos _)

/-- What counts quarters of a unit, over the scale. -/
theorem quarters_div (quarters : Nat) :
    ((quarters * powerOf 2 b.exponent : Nat) : ℚ) / b.neighbourhood.scale =
      quarters / 4 * 2 ^ b.exponent := by
  have hquotient := powerOf_div 2 b.exponent
  rw [Nat.cast_ofNat] at hquotient
  rw [← hquotient]
  unfold neighbourhood
  push_cast
  rw [mul_div_mul_comm]

theorem neighbourhood_value : (b.neighbourhood.value : ℚ) / b.neighbourhood.scale = b.value := by
  refine (quarters_div (4 * b.significand)).trans ?_
  rw [value]
  push_cast
  ring

theorem neighbourhood_high : (b.neighbourhood.high : ℚ) / b.neighbourhood.scale =
    (b.significand + 1 / 2) * 2 ^ b.exponent := by
  refine (quarters_div (4 * b.significand + 2)).trans ?_
  push_cast
  ring

variable (hm : b.significand ≠ 0)
include hm

theorem neighbourhood_low : (b.neighbourhood.low : ℚ) / b.neighbourhood.scale =
    (b.significand - b.below) * 2 ^ b.exponent := by
  refine (quarters_div _).trans ?_
  unfold below
  split
  · rw [Nat.cast_sub (by omega)]
    push_cast
    ring
  · rw [Nat.cast_sub (by omega)]
    push_cast
    ring

theorem admits_iff (d : Decimal) : b.neighbourhood.admits d = true ↔ b.Covers d.value := by
  have hclosed : b.neighbourhood.closed = (b.significand % 2 == 0) := rfl
  have hscale := b.neighbourhood_scale_pos
  unfold Neighbourhood.admits
  dsimp only
  rw [hclosed]
  split
  · next heven =>
    rw [covers_iff_of_even (eq_of_beq heven), Bool.and_eq_true, decide_eq_true_iff,
      decide_eq_true_iff, Neighbourhood.bound_le_iff hscale, Neighbourhood.le_bound_iff hscale,
      neighbourhood_low hm, neighbourhood_high]
  · next hodd =>
    rw [covers_iff_of_odd (fun heven => hodd (beq_iff_eq.mpr heven)), Bool.and_eq_true,
      decide_eq_true_iff, decide_eq_true_iff, ← not_le, Neighbourhood.le_bound_iff hscale, ← not_le,
      Neighbourhood.bound_le_iff hscale, neighbourhood_low hm, neighbourhood_high, not_le, not_le]

end Binary

/-! ## 2. The search for the grid -/

namespace Neighbourhood

variable {tie : Tie} {n : Neighbourhood}

/-- On a grid the lower neighbour of the value is found or the upper one, unless both lie
outside. -/
theorem nearest?_cases (n : Neighbourhood) (tie : Tie) (g : Int) :
    (∃ digits, n.nearest? tie g = some ⟨digits, g⟩ ∧ digits ≠ 0 ∧
        n.admits ⟨digits, g⟩ = true) ∨
      (n.nearest? tie g = none ∧
        ((n.onGrid g).1 ≠ 0 → n.admits ⟨(n.onGrid g).1, g⟩ = false) ∧
        n.admits ⟨(n.onGrid g).1 + 1, g⟩ = false) := by
  unfold nearest?
  obtain ⟨lower, remainder, divisor⟩ := n.onGrid g
  dsimp only
  by_cases hdown : lower ≠ 0 ∧ n.admits ⟨lower, g⟩ = true
  · have htest : (decide (lower ≠ 0) && n.admits ⟨lower, g⟩) = true := by
      rw [decide_eq_true hdown.1, hdown.2]
      rfl
    have hdown : ∃ digits, some (⟨lower, g⟩ : Decimal) = some ⟨digits, g⟩ ∧ digits ≠ 0 ∧
        n.admits ⟨digits, g⟩ = true := ⟨lower, rfl, hdown⟩
    left
    rw [htest]
    cases hup : n.admits ⟨lower + 1, g⟩ with
    | false => exact hdown
    | true =>
      have hup : ∃ digits, some (⟨lower + 1, g⟩ : Decimal) = some ⟨digits, g⟩ ∧ digits ≠ 0 ∧
          n.admits ⟨digits, g⟩ = true := ⟨lower + 1, rfl, Nat.succ_ne_zero _, hup⟩
      rw [Bool.and_self, if_pos rfl]
      split
      · exact hdown
      · split
        · exact hup
        · cases tie with
          | up => exact hup
          | toEven =>
            dsimp only
            split
            · exact hdown
            · exact hup
  · have htest : (decide (lower ≠ 0) && n.admits ⟨lower, g⟩) = false := by
      rw [Bool.and_eq_false_iff, decide_eq_false_iff_not, ← Bool.not_eq_true]
      exact not_and_or.mp hdown
    have hlower : lower ≠ 0 → n.admits ⟨lower, g⟩ = false := fun hne =>
      Bool.not_eq_true _ |>.mp fun h => hdown ⟨hne, h⟩
    rw [htest]
    cases hup : n.admits ⟨lower + 1, g⟩ with
    | false => exact .inr ⟨rfl, hlower, rfl⟩
    | true => exact .inl ⟨lower + 1, rfl, Nat.succ_ne_zero _, hup⟩

/-- A decimal is found on the first grid that has one. -/
theorem firstGrid_spec {point : Int} {last : Nat} (hlast : n.nearest? tie (point - last) ≠ none)
    (fuel count : Nat) (hcount : count ≤ last) (hfuel : last < count + fuel) :
    ∃ d, n.firstGrid tie point fuel count = some d ∧ d.digits ≠ 0 ∧ n.admits d = true ∧
      point - last ≤ d.exponent := by
  induction fuel generalizing count with
  | zero => omega
  | succ fuel ih =>
    unfold firstGrid
    rcases n.nearest?_cases tie (point - count) with ⟨digits, hsome, hdigits, hin⟩ | ⟨hnone, -⟩
    · rw [hsome]
      refine ⟨_, rfl, hdigits, hin, ?_⟩
      dsimp only
      omega
    · have hne : count ≠ last := by
        rintro rfl
        exact hlast hnone
      rw [hnone]
      exact ih (count + 1) (by omega) (by omega)

theorem pointFrom_spec (hscale : 0 < n.scale) (fuel : Nat) {k : Int}
    (hk : (10 : ℚ) ^ (k - 1) ≤ n.value / n.scale) :
    k ≤ n.pointFrom fuel k ∧ (10 : ℚ) ^ (n.pointFrom fuel k - 1) ≤ n.value / n.scale := by
  induction fuel generalizing k with
  | zero => exact ⟨le_rfl, hk⟩
  | succ fuel ih =>
    unfold pointFrom
    split
    · exact ⟨le_rfl, hk⟩
    · next hge =>
      have hpos : (0 : ℚ) < (n.scale * powerOf 10 k : Nat) :=
        mod_cast Nat.mul_pos hscale (powerOf_pos (by decide) _)
      have hnext : (10 : ℚ) ^ (k + 1 - 1) ≤ n.value / n.scale := by
        rw [not_lt, ← Nat.cast_le (α := ℚ), ← one_le_div₀ hpos, mul_powerOf_div, Nat.cast_ofNat,
          one_le_div₀ (by positivity)] at hge
        rwa [add_sub_cancel_right]
      obtain ⟨hle, hpower⟩ := ih hnext
      exact ⟨by omega, hpower⟩

end Neighbourhood

/-! ## 3. Powers of two and of ten -/

theorem ten_pow_le_two_pow {n l : Nat} (h : 10 * n ≤ 3 * l) : 10 ^ n ≤ 2 ^ l := by
  rw [← Nat.pow_le_pow_iff_left (n := 3) (by decide)]
  calc (10 ^ n) ^ 3 = (10 ^ 3) ^ n := Nat.pow_right_comm ..
    _ ≤ (2 ^ 10) ^ n := Nat.pow_le_pow_left (by decide) n
    _ = 2 ^ (10 * n) := (Nat.pow_mul ..).symm
    _ ≤ 2 ^ (3 * l) := Nat.pow_le_pow_right two_pos h
    _ = (2 ^ l) ^ 3 := by rw [Nat.mul_comm, Nat.pow_mul]

theorem two_pow_le_ten_pow {l n : Nat} (h : 28 * l ≤ 93 * n) : 2 ^ l ≤ 10 ^ n := by
  rw [← Nat.pow_le_pow_iff_left (n := 28) (by decide)]
  calc (2 ^ l) ^ 28 = 2 ^ (28 * l) := by rw [Nat.mul_comm, Nat.pow_mul]
    _ ≤ 2 ^ (93 * n) := Nat.pow_le_pow_right two_pos h
    _ = (2 ^ 93) ^ n := Nat.pow_mul ..
    _ ≤ (10 ^ 28) ^ n := Nat.pow_le_pow_left (by decide) n
    _ = (10 ^ n) ^ 28 := Nat.pow_right_comm ..

/-- The guess of a decimal exponent from the binary one is not too high. -/
theorem ten_zpow_le_two_zpow {j : Int} (hlow : -1900 < j) (hhigh : j < 1900) :
    (10 : ℚ) ^ (j * 30103 / 100000 - 2) ≤ 2 ^ j := by
  obtain ⟨l, rfl | rfl⟩ := j.eq_nat_or_neg
  · rcases le_or_gt 0 ((l : Int) * 30103 / 100000 - 2) with hle | hlt
    · obtain ⟨n, hn⟩ := Int.eq_ofNat_of_zero_le hle
      rw [hn, zpow_natCast, zpow_natCast]
      exact mod_cast ten_pow_le_two_pow (n := n) (l := l) (by omega)
    · calc (10 : ℚ) ^ ((l : Int) * 30103 / 100000 - 2) ≤ 10 ^ (0 : Int) := by
            gcongr
            norm_num
        _ = 1 := zpow_zero _
        _ ≤ 2 ^ (l : Int) := by
          rw [zpow_natCast]
          exact one_le_pow₀ (by norm_num)
  · obtain ⟨n, hn⟩ : ∃ n : Nat, -(l : Int) * 30103 / 100000 - 2 = -(n : Int) :=
      ⟨(2 - -(l : Int) * 30103 / 100000).toNat, by omega⟩
    rw [hn, zpow_neg, zpow_neg, zpow_natCast, zpow_natCast]
    gcongr
    exact mod_cast two_pow_le_ten_pow (l := l) (n := n) (by omega)

/-! ## 4. Seventeen digits -/

namespace Binary

variable {b : Binary} (hb : b.IsCanonical) (hm : b.significand ≠ 0)
include hb

/-- The value lies between its neighbours on a grid that is finer than the interval around the
number, so the interval reaches one of the two. -/
theorem covers_of_fine {s : ℚ} (hfine : s * 10 ^ 16 ≤ b.value) {lower : Nat}
    (hlow : lower * s ≤ b.value) (hhigh : b.value < (lower + 1) * s) :
    b.Covers (lower * s) ∨ b.Covers ((lower + 1) * s) := by
  have hpower : (0 : ℚ) < 2 ^ b.exponent := by positivity
  have hwidth : (b.significand : ℚ) < (b.below + 1 / 2) * 10 ^ 16 := by
    unfold below
    split
    · next hleading =>
      rw [hleading.1, leadingBit]
      norm_num
    · have hlt : (b.significand : ℚ) < (2 * leadingBit : Nat) := mod_cast hb.significand_lt
      refine hlt.trans ?_
      rw [leadingBit]
      norm_num
  have hgap : s < (b.below + 1 / 2) * 2 ^ b.exponent := by
    have hmul : b.value < (b.below + 1 / 2) * 10 ^ 16 * 2 ^ b.exponent := by
      unfold value
      gcongr
    linarith
  have hvalue : b.value = b.significand * 2 ^ b.exponent := rfl
  have hbelow := mul_pos b.below_pos hpower
  by_cases hdown : b.value - b.below * 2 ^ b.exponent < lower * s
  · left
    apply covers_of_lt <;> linarith
  · right
    apply covers_of_lt <;> linarith

include hm in
theorem nearest?_seventeen {point : Int} (hpoint : (10 : ℚ) ^ (point - 1) ≤ b.value) (tie : Tie) :
    b.neighbourhood.nearest? tie (point - (17 : Nat)) ≠ none := by
  let g := point - (17 : Nat)
  let lower := (b.neighbourhood.onGrid g).1
  have hstep : (0 : ℚ) < 10 ^ g := by positivity
  have hfine : (10 : ℚ) ^ g * 10 ^ 16 ≤ b.value := by
    have heq : (10 : ℚ) ^ (point - 1) = 10 ^ g * 10 ^ (16 : Int) := by
      rw [← zpow_add₀ (by norm_num)]
      congr 1
      show point - 1 = point - (17 : Nat) + 16
      omega
    rwa [heq] at hpoint
  have hquotient : ((b.neighbourhood.value * powerOf 10 (-g) : Nat) : ℚ) /
      (b.neighbourhood.scale * powerOf 10 g : Nat) = b.value / 10 ^ g := by
    rw [mul_powerOf_div, neighbourhood_value, Nat.cast_ofNat]
  have hlow : lower * (10 : ℚ) ^ g ≤ b.value := by
    rw [← le_div_iff₀ hstep, ← hquotient]
    exact Nat.cast_div_le
  have hhigh : b.value < (lower + 1) * (10 : ℚ) ^ g := by
    have hdivisor : 0 < b.neighbourhood.scale * powerOf 10 g :=
      Nat.mul_pos neighbourhood_scale_pos (powerOf_pos (by decide) g)
    rw [← div_lt_iff₀ hstep, ← hquotient, div_lt_iff₀ (mod_cast hdivisor),
      mul_comm (lower + 1 : ℚ)]
    exact mod_cast Nat.lt_mul_div_succ _ hdivisor
  have hlower : lower ≠ 0 := by
    intro hzero
    rw [hzero, Nat.cast_zero, zero_add, one_mul] at hhigh
    linarith
  intro hnone
  rcases b.neighbourhood.nearest?_cases tie g with ⟨digits, hsome, -⟩ | ⟨-, hdown, hup⟩
  · rw [hnone] at hsome
    cases hsome
  · rcases covers_of_fine hb hfine hlow hhigh with hcovers | hcovers
    · have hin := (admits_iff hm ⟨lower, g⟩).mpr hcovers
      rw [hdown hlower] at hin
      cases hin
    · have hin := (admits_iff hm ⟨lower + 1, g⟩).mpr (by
        unfold Decimal.value
        push_cast
        exact hcovers)
      rw [hup] at hin
      cases hin

end Binary

/-! ## 5. The shortest decimal -/

/-- Without its zeros at the end a decimal has the same value. -/
theorem Decimal.trimmed_spec (d : Decimal) (fuel : Nat) (hd : d.digits ≠ 0) :
    (d.trimmed fuel).value = d.value ∧ (d.trimmed fuel).digits ≠ 0 ∧
      d.exponent ≤ (d.trimmed fuel).exponent := by
  induction fuel generalizing d with
  | zero => exact ⟨rfl, hd, le_rfl⟩
  | succ fuel ih =>
    unfold trimmed
    split
    · next hzero =>
      have hdigits : d.digits / 10 * 10 = d.digits :=
        Nat.div_mul_cancel (Nat.dvd_of_mod_eq_zero hzero.2)
      obtain ⟨hvalue, hne, hle⟩ := ih ⟨d.digits / 10, d.exponent + 1⟩ (by dsimp only; omega)
      refine ⟨?_, hne, by dsimp only at hle; omega⟩
      calc _ = (d.digits / 10 : Nat) * (10 : ℚ) ^ (d.exponent + 1) := hvalue
        _ = (d.digits / 10 * 10 : Nat) * (10 : ℚ) ^ d.exponent := by
          rw [zpow_add_one₀ (by norm_num), Nat.cast_mul]
          push_cast
          ring
        _ = d.value := by
          rw [hdigits]
          rfl
    · exact ⟨rfl, hd, le_rfl⟩

namespace Binary

variable {b : Binary}

theorem value_lt (hb : b.IsCanonical) : b.value < 2 ^ (1024 : Int) := by
  refine (hb.covers_lt covers_value).trans_le ?_
  gcongr
  · norm_num
  · linarith [hb.exponent_le]

theorem le_value (hb : b.IsCanonical) (hm : b.significand ≠ 0) :
    (2 : ℚ) ^ (-1074 : Int) ≤ b.value := by
  have hone : (1 : ℚ) ≤ b.significand := mod_cast Nat.one_le_iff_ne_zero.mpr hm
  calc (2 : ℚ) ^ (-1074 : Int) ≤ 2 ^ b.exponent := by
        gcongr
        · norm_num
        · exact hb.exponent_ge
    _ ≤ b.value := le_mul_of_one_le_left (by positivity) hone

/-- The guess of the decimal exponent is not too high, and not far below. -/
theorem pointGuess_spec (hb : b.IsCanonical) (hm : b.significand ≠ 0) :
    (10 : ℚ) ^ (b.neighbourhood.pointGuess - 1) ≤ b.value ∧
      -330 ≤ b.neighbourhood.pointGuess := by
  have hvalue : b.neighbourhood.value ≠ 0 :=
    Nat.mul_ne_zero (Nat.mul_ne_zero (by decide) hm) (powerOf_pos two_pos _).ne'
  obtain ⟨hlow, hhigh⟩ := log2_bounds hvalue b.neighbourhood_scale_pos.ne'
  rw [neighbourhood_value] at hlow hhigh
  have hlow_lt := hlow.trans (value_lt hb)
  have hhigh_gt := (le_value hb hm).trans_lt hhigh
  rw [zpow_lt_zpow_iff_right₀ one_lt_two] at hlow_lt hhigh_gt
  unfold Neighbourhood.pointGuess
  refine ⟨le_trans ?_ hlow.le, by omega⟩
  rw [sub_sub]
  exact ten_zpow_le_two_zpow (by omega) (by omega)

end Binary

/-- The shortest decimal of a number that is not zero lies in the interval around it. -/
theorem shortest?_spec (tie : Tie) {x : Float} {b : Binary} (h : Binary.ofFloat? x = some b)
    (hm : b.significand ≠ 0) :
    ∃ d, shortest? tie x = some d ∧ d.digits ≠ 0 ∧ -400 ≤ d.exponent ∧ b.Covers d.value := by
  have hb := Binary.isCanonical_of_ofFloat? h
  obtain ⟨hguess, hleast⟩ := Binary.pointGuess_spec hb hm
  rw [← Binary.neighbourhood_value] at hguess
  obtain ⟨hge, hpoint⟩ := Neighbourhood.pointFrom_spec Binary.neighbourhood_scale_pos 8 hguess
  rw [Binary.neighbourhood_value] at hpoint
  obtain ⟨d, hfound, hdigits, hin, hexp⟩ := Neighbourhood.firstGrid_spec
    (Binary.nearest?_seventeen hb hm hpoint tie) 17 1 (by decide) (by decide)
  obtain ⟨hvalue, hdigits, hle⟩ := d.trimmed_spec 17 hdigits
  refine ⟨d.trimmed 17, ?_, hdigits, by omega, ?_⟩
  · unfold shortest?
    rw [h]
    dsimp only
    rw [if_neg hm, hfound]
    rfl
  · rw [hvalue]
    exact (Binary.admits_iff hm d).mp hin

/-! ## 6. Reading decimals back -/

/-- A decimal is rounded as the fraction that it is, unless it is too large. -/
theorem ofDecimal_eq {digits k : Nat} (hdigits : digits ≠ 0) (hk : k ≤ 400)
    (hle : digits ≤ 2 ^ 1024 * 10 ^ k) :
    ofDecimal digits (-(k : Int)) = ofFraction digits (10 ^ k) := by
  obtain ⟨l, hl, hl_le⟩ : ∃ l : Nat, 10 * k ≤ 3 * l ∧ 3 * l ≤ 10 * k + 2 :=
    ⟨(10 * k + 2) / 3, by omega, by omega⟩
  have hlog : digits.log2 < 1025 + l := by
    rw [Nat.log2_lt hdigits]
    calc digits ≤ 2 ^ 1024 * 10 ^ k := hle
      _ ≤ 2 ^ 1024 * 2 ^ l := Nat.mul_le_mul_left _ (ten_pow_le_two_pow hl)
      _ = 2 ^ (1024 + l) := by rw [Nat.pow_add]
      _ < 2 ^ (1025 + l) := Nat.pow_lt_pow_right (by decide) (Nat.add_lt_add_right (by decide) l)
  clear hle
  have hsmall : ¬320 < -(k : Int) + (digits.log2 : Int) * 30103 / 100000 := by
    omega
  have hlarge : ¬-(k : Int) + (digits.log2 : Int) * 30103 / 100000 < -400 := by
    omega
  unfold ofDecimal
  rw [if_neg hdigits]
  dsimp only
  rw [if_neg hsmall, if_neg hlarge, powerOf_neg, Int.neg_neg, powerOf_natCast, Nat.mul_one]

/-- Digits with a point before the last of them are read back as the number in whose interval their
value is. -/
theorem ofDecimal_of_covers {b : Binary} (hb : b.IsCanonical) {digits k : Nat}
    (hdigits : digits ≠ 0) (hk : k ≤ 400) (h : b.Covers (digits / (10 ^ k : Nat))) :
    ofDecimal digits (-(k : Int)) = Float.ofBits (UInt64.ofNat b.bits) := by
  have hpower : (0 : ℚ) < (10 ^ k : Nat) := mod_cast Nat.pow_pos (by decide)
  have hle : digits ≤ 2 ^ 1024 * 10 ^ k := by
    have hlt : (digits / (10 ^ k : Nat) : ℚ) < 2 ^ (1024 : Int) := by
      refine (hb.covers_lt h).trans_le ?_
      gcongr
      · norm_num
      · linarith [hb.exponent_le]
    rw [div_lt_iff₀ hpower] at hlt
    exact mod_cast hlt.le
  rw [ofDecimal_eq hdigits hk hle]
  exact ofFraction_eq hdigits (Nat.pow_pos (by decide)).ne' hb h

end TraceViewer.Number
