import Mathlib
import TraceViewer.Proofs.Number.Exact

/-!
# Numbers and their bits

Bits that differ in the sign alone are those of opposite numbers.  A whole number below `2 ^ 53` has
no other bits than its whole part and its sign say, and only of negative zero is the sign lost.
-/

namespace TraceViewer.Number

open Float.Model (UnpackedFloat Format)
open Float.Model.UnpackedFloat (unpackMantissa unpackExponent unpackSign)

/-! ## 1. Opposite numbers -/

/-- Bits that differ in their sign alone are those of opposite numbers. -/
theorem unpack_neg {v w : BitVec Format.binary64.numBits} (hv : v.toNat < signBit)
    (h : w.toNat = v.toNat + signBit) :
    (UnpackedFloat.unpack Format.binary64 v).neg = UnpackedFloat.unpack Format.binary64 w := by
  unfold signBit at hv h
  have hmant : unpackMantissa w = unpackMantissa v := by
    apply BitVec.eq_of_toNat_eq
    rw [toNat_unpackMantissa, toNat_unpackMantissa, h, leadingBit]
    omega
  have hexp : unpackExponent w = unpackExponent v := by
    apply BitVec.eq_of_toNat_eq
    rw [toNat_unpackExponent, toNat_unpackExponent, h, leadingBit]
    omega
  have hpos : unpackSign v = 0#1 := by
    apply BitVec.eq_of_toNat_eq
    rw [toNat_unpackSign, signBit]
    show _ = 0
    omega
  have hneg : unpackSign w = 1#1 := by
    apply BitVec.eq_of_toNat_eq
    rw [toNat_unpackSign, signBit]
    show _ = 1
    omega
  unfold UnpackedFloat.unpack
  simp only [hmant, hexp, hpos, hneg]
  split
  · split <;> rfl
  · split
    · split <;> rfl
    · rfl

theorem neg_eq {x y : Float} (hx : x.toBits.toNat < signBit)
    (h : y.toBits.toNat = x.toBits.toNat + signBit) : -x = y := by
  have hmodel : (-x).toModel = y.toModel := by
    show Float.Model.pack x.toModel.unpack.neg = y.toModel
    rw [← Float.ofBits_toBits y]
    exact congrArg Float.Model.pack (unpack_neg hx h)
  rw [← Float.toBits_inj]
  exact congrArg Float.Model.toBits hmodel

/-! ## 2. Whole numbers -/

/-- A significand with its leading bit tells how far the number is from having it. -/
theorem headroom_eq {n k : Nat} (hlow : leadingBit ≤ n * 2 ^ k)
    (hhigh : n * 2 ^ k < 2 * leadingBit) :
    headroom n = k := by
  have hleading : leadingBit = 2 ^ 52 := rfl
  have hpos : n ≠ 0 := by
    rintro rfl
    rw [Nat.zero_mul, hleading] at hlow
    omega
  have hk : k < 53 := by
    rw [← Nat.pow_lt_pow_iff_right (a := 2) (by omega)]
    calc 2 ^ k ≤ n * 2 ^ k := Nat.le_mul_of_pos_left _ (Nat.pos_of_ne_zero hpos)
      _ < 2 ^ 53 := hhigh
  have hsplit : 2 ^ 52 = 2 ^ (52 - k) * 2 ^ k := by
    rw [← Nat.pow_add]
    congr 1
    omega
  have hlog : n.log2 = 52 - k := by
    rw [Nat.log2_eq_iff hpos, Nat.pow_succ]
    rw [hleading, hsplit] at hlow hhigh
    constructor
    · exact Nat.le_of_mul_le_mul_right hlow (Nat.two_pow_pos k)
    · apply Nat.lt_of_mul_lt_mul_right (a := 2 ^ k)
      calc n * 2 ^ k < 2 * (2 ^ (52 - k) * 2 ^ k) := hhigh
        _ = 2 ^ (52 - k) * 2 * 2 ^ k := by ring
  unfold headroom
  omega

/-- The bits of a number without its sign: what the significand and the exponent of a finite number
are made of. -/
theorem ofFloat?_cases {x : Float} {p : Binary} (h : Binary.ofFloat? x = some p) :
    (p.significand = x.toBits.toNat % signBit ∧ p.significand < leadingBit ∧ p.exponent = -1074) ∨
      ∃ biased : Nat, p.exponent = biased - 1075 ∧ leadingBit ≤ p.significand ∧
        p.significand < 2 * leadingBit ∧
        x.toBits.toNat % signBit = biased * leadingBit + (p.significand - leadingBit) := by
  unfold Binary.ofFloat? at h
  dsimp only at h
  generalize x.toBits.toNat = bits at h ⊢
  unfold leadingBit signBit at *
  split at h
  · cases h
  · split at h
    · obtain rfl := Option.some.inj h
      left
      dsimp only
      omega
    · obtain rfl := Option.some.inj h
      right
      refine ⟨bits / 0x10000000000000 % 2048, rfl, ?_⟩
      dsimp only
      omega

/-- Below the least number with a leading bit only zero is whole. -/
theorem eq_zero_of_mul_lt {n k : Nat} (hk : 52 ≤ k) (hlt : n * 2 ^ k < leadingBit) : n = 0 := by
  by_contra hn
  have hle : 2 ^ 52 ≤ n * 2 ^ k :=
    (Nat.pow_le_pow_right (by omega) hk).trans (Nat.le_mul_of_pos_left _ (Nat.pos_of_ne_zero hn))
  exact absurd hlt hle.not_gt

/-- A whole number below `2 ^ 53` has the bits of its whole part, but for the sign. -/
theorem toBits_of_isWhole {x : Float} (hwhole : isWhole x = true)
    (hsmall : wholePart x < 2 * leadingBit) :
    x.toBits.toNat % signBit = if wholePart x = 0 then 0 else wholeBits (wholePart x) := by
  cases hp : Binary.ofFloat? x with
  | none =>
    unfold isWhole at hwhole
    rw [hp] at hwhole
    cases hwhole
  | some p =>
    have hproduct : p.significand * powerOf 2 p.exponent =
        wholePart x * powerOf 2 (-p.exponent) := by
      unfold isWhole at hwhole
      unfold wholePart
      rw [hp] at hwhole ⊢
      exact (Nat.div_mul_cancel (Nat.dvd_of_mod_eq_zero (eq_of_beq hwhole))).symm
    generalize wholePart x = n at hproduct hsmall ⊢
    rcases ofFloat?_cases hp with ⟨hbits, hlt, hexp⟩ | ⟨biased, hexp, hlow, hhigh, hbits⟩
    · obtain ⟨k, hk, hexp⟩ : ∃ k : Nat, 52 ≤ k ∧ p.exponent = -(k : Int) := ⟨1074, by omega, hexp⟩
      rw [hexp, Int.neg_neg, powerOf_neg, powerOf_natCast, Nat.mul_one] at hproduct
      have hzero : n = 0 := eq_zero_of_mul_lt hk (hproduct ▸ hlt)
      rw [if_pos hzero, ← hbits, hproduct, hzero, Nat.zero_mul]
    · rcases le_or_gt biased 1075 with hle | hgt
      · have hexp : p.exponent = -((1075 - biased : Nat) : Int) := by omega
        rw [hexp, Int.neg_neg, powerOf_neg, powerOf_natCast, Nat.mul_one] at hproduct
        rw [hproduct] at hlow hhigh hbits
        have hheadroom := headroom_eq hlow hhigh
        have hn : n ≠ 0 := by
          rintro rfl
          rw [Nat.zero_mul] at hlow
          exact absurd hlow (by decide)
        rw [if_neg hn, hbits, wholeBits, hheadroom]
        congr 2
        omega
      · -- a larger exponent makes the number too large
        have hexp : p.exponent = ((biased - 1075 : Nat) : Int) := by omega
        rw [hexp, powerOf_natCast, powerOf_neg, Nat.mul_one] at hproduct
        have htwo : 2 ^ 1 ≤ 2 ^ (biased - 1075) := Nat.pow_le_pow_right (by omega) (by omega)
        have hlarge : leadingBit * 2 ^ 1 ≤ n := hproduct ▸ Nat.mul_le_mul hlow htwo
        omega

/-- Of the two zeros the positive one is left. -/
theorem eq_zero_of_toBits {x : Float} (hbits : x.toBits.toNat % signBit = 0) (hzero : x ≠ -0) :
    x = 0 := by
  have hlt : x.toBits.toNat < 2 * signBit := x.toBits.toNat_lt
  apply Float.toBits_inj.mp
  apply UInt64.toNat_inj.mp
  show x.toBits.toNat = 0
  by_contra hbit
  apply hzero
  symm
  apply neg_eq
  · decide
  · show x.toBits.toNat = 0 + signBit
    unfold signBit at *
    omega

/-- A whole number below `2 ^ 53` is given back by its whole part and its sign, unless it is
negative zero. -/
theorem ofInt_toInt {x : Float} (hwhole : isWhole x = true) (hsmall : wholePart x < 2 * leadingBit)
    (hzero : x ≠ -0) : ofInt (toInt x) = x := by
  have hbits := toBits_of_isWhole hwhole hsmall
  have hlt : x.toBits.toNat < 2 * signBit := x.toBits.toNat_lt
  have hsign : isNegative x = (x.toBits.toNat / signBit == 1) := rfl
  by_cases hn : wholePart x = 0
  · rw [if_pos hn] at hbits
    rw [eq_zero_of_toBits hbits hzero]
    decide +kernel
  · rw [if_neg hn, ← toNat_toBits_ofNat hn hsmall] at hbits
    unfold toInt ofInt
    cases hneg : isNegative x with
    | false =>
      rw [hsign, beq_eq_false_iff_ne] at hneg
      have hx : ofNat (wholePart x) = x := by
        apply Float.toBits_inj.mp
        apply UInt64.toNat_inj.mp
        rw [← hbits]
        unfold signBit at *
        omega
      have hnotNegative : ¬(wholePart x : Int) < 0 := by omega
      rw [if_neg Bool.false_ne_true, Int.natAbs_natCast, decide_eq_false hnotNegative]
      exact hx
    | true =>
      rw [hsign, beq_iff_eq] at hneg
      have hx : -ofNat (wholePart x) = x := by
        apply neg_eq
        · rw [← hbits]
          exact Nat.mod_lt _ (by decide)
        · rw [← hbits]
          unfold signBit at *
          omega
      have hnegative : -(wholePart x : Int) < 0 := by omega
      rw [if_pos rfl, Int.natAbs_neg, Int.natAbs_natCast, decide_eq_true hnegative]
      exact hx

end TraceViewer.Number
