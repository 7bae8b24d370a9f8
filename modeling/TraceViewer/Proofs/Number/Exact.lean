import Mathlib
import TraceViewer.Number.Fixed
import TraceViewer.Number.Reading
import TraceViewer.Number.Whole

/-!
# Whole numbers

Below `2 ^ 53` every whole number is a floating-point number, and its decimal digits read back as
this number.
-/

namespace TraceViewer.Number

open Float.Model (UnpackedFloat Format)
open Float.Model.UnpackedFloat (unpackMantissa unpackExponent unpackSign)

/-! ## 1. Bits -/

section Bits

variable (v : BitVec Format.binary64.numBits)

theorem toNat_unpackMantissa : (unpackMantissa v).toNat = v.toNat % leadingBit := by
  unfold unpackMantissa
  rw [BitVec.toNat_cast, BitVec.extractLsb_toNat, Nat.shiftRight_zero]
  rfl

theorem toNat_unpackExponent : (unpackExponent v).toNat = v.toNat / leadingBit % 2048 := by
  unfold unpackExponent
  rw [BitVec.toNat_cast, BitVec.extractLsb_toNat, Nat.shiftRight_eq_div_pow]
  rfl

theorem toNat_unpackSign : (unpackSign v).toNat = v.toNat / signBit % 2 := by
  unfold unpackSign
  rw [BitVec.toNat_cast, BitVec.extractLsb_toNat, Nat.shiftRight_eq_div_pow]
  rfl

end Bits

/-- The bits of a finite number are kept. -/
theorem toBits_ofBits {b : UInt64} (h : b.toNat / leadingBit % 2048 ≠ 2047) :
    (Float.ofBits b).toBits = b := by
  have hbits : @UnpackedFloat.isNaNBits Format.binary64 b.toBitVec = false := by
    rw [UnpackedFloat.isNaNBits, decide_eq_false_iff_not]
    rintro ⟨hones, -⟩
    have hexp := toNat_unpackExponent b.toBitVec
    rw [hones] at hexp
    exact h hexp.symm
  show UInt64.ofBitVec (UnpackedFloat.pack Format.binary64
    (UnpackedFloat.unpack Format.binary64 b.toBitVec)) = b
  rw [UnpackedFloat.pack_unpack, hbits]
  rfl

/-! ## 2. Whole numbers as floating-point numbers -/

/-- How far a number is from having the leading bit. -/
def headroom (n : Nat) : Nat := 52 - n.log2

section Whole

variable {n : Nat} (hpos : n ≠ 0) (hn : n < 2 * leadingBit)
include hpos hn

theorem log2_add_headroom : n.log2 + headroom n = 52 := by
  have hlog : n.log2 < 53 := (Nat.log2_lt hpos).mpr hn
  unfold headroom
  omega

/-- The significand has its leading bit. -/
theorem le_mul_headroom : leadingBit ≤ n * 2 ^ headroom n := by
  calc leadingBit = 2 ^ n.log2 * 2 ^ headroom n := by
        rw [← Nat.pow_add, log2_add_headroom hpos hn]
        rfl
    _ ≤ n * 2 ^ headroom n := Nat.mul_le_mul_right _ (Nat.log2_self_le hpos)

theorem mul_headroom_lt : n * 2 ^ headroom n < 2 * leadingBit := by
  calc n * 2 ^ headroom n < 2 ^ (n.log2 + 1) * 2 ^ headroom n :=
        Nat.mul_lt_mul_of_pos_right Nat.lt_log2_self (Nat.two_pow_pos _)
    _ = 2 * leadingBit := by
        rw [← Nat.pow_add, Nat.add_right_comm, log2_add_headroom hpos hn]
        rfl

omit hpos hn in
theorem powerOf_neg (base k : Nat) : powerOf base (-(k : Int)) = 1 := by
  unfold powerOf
  rw [Int.toNat_neg_natCast]
  rfl

omit hpos hn in
theorem powerOf_natCast (base k : Nat) : powerOf base (k : Int) = base ^ k := rfl

theorem unitExponent_one : unitExponent n 1 = -(headroom n : Int) := by
  have hsum := log2_add_headroom hpos hn
  have hguess : (n.log2 : Int) - ((1 : Nat).log2 : Int) - 52 = -(headroom n : Int) := by
    have hone : (1 : Nat).log2 = 0 := rfl
    omega
  unfold unitExponent
  dsimp only
  rw [hguess, Int.neg_neg, powerOf_natCast, powerOf_neg, if_neg]
  · omega
  · have hle := le_mul_headroom hpos hn
    omega

omit hpos hn in
theorem divNearestEven_one (a : Nat) : divNearestEven a 1 = a := by
  unfold divNearestEven
  rw [Nat.mod_one, Nat.div_one]
  rfl

/-- The bits of a whole number. -/
def wholeBits (n : Nat) : Nat :=
  (1075 - headroom n) * leadingBit + (n * 2 ^ headroom n - leadingBit)

theorem wholeBits_bounds : leadingBit ≤ wholeBits n ∧ wholeBits n < 2047 * leadingBit := by
  have hsum := log2_add_headroom hpos hn
  have hlt := mul_headroom_lt hpos hn
  unfold wholeBits leadingBit at *
  omega

theorem ofNat_eq : ofNat n = Float.ofBits (UInt64.ofNat (wholeBits n)) := by
  have hsum := log2_add_headroom hpos hn
  have hle := le_mul_headroom hpos hn
  have hexp : (-(headroom n : Int) + 1075).toNat = 1075 - headroom n := by omega
  unfold ofNat ofFraction
  rw [if_neg hpos, unitExponent_one hpos hn]
  dsimp only
  rw [Int.neg_neg, powerOf_natCast, powerOf_neg, Nat.mul_one, divNearestEven_one,
    if_neg (Nat.not_lt.mpr hle), hexp]
  exact if_pos (wholeBits_bounds hpos hn).2

theorem toNat_toBits_ofNat : (ofNat n).toBits.toNat = wholeBits n := by
  have hhigh := (wholeBits_bounds hpos hn).2
  have hsmall : (UInt64.ofNat (wholeBits n)).toNat = wholeBits n := by
    rw [UInt64.toNat_ofNat']
    refine Nat.mod_eq_of_lt ?_
    unfold leadingBit at hhigh
    omega
  rw [ofNat_eq hpos hn, toBits_ofBits, hsmall]
  rw [hsmall]
  unfold leadingBit at *
  omega

theorem ofFloat?_ofNat :
    Binary.ofFloat? (ofNat n) = some ⟨false, n * 2 ^ headroom n, -(headroom n : Int)⟩ := by
  have hhigh := (wholeBits_bounds hpos hn).2
  have hsum := log2_add_headroom hpos hn
  have hle := le_mul_headroom hpos hn
  have hlt := mul_headroom_lt hpos hn
  unfold Binary.ofFloat?
  rw [toNat_toBits_ofNat hpos hn]
  dsimp only
  have hbiased : wholeBits n / leadingBit % 2048 = 1075 - headroom n := by
    unfold wholeBits leadingBit at *
    omega
  have hfraction : wholeBits n % leadingBit = n * 2 ^ headroom n - leadingBit := by
    unfold wholeBits leadingBit at *
    omega
  have hsign : wholeBits n / signBit = 0 := by
    unfold leadingBit signBit at *
    omega
  have hsignificand : n * 2 ^ headroom n - leadingBit + leadingBit = n * 2 ^ headroom n :=
    Nat.sub_add_cancel hle
  have hexponent : ((1075 - headroom n : Nat) : Int) - 1075 = -(headroom n : Int) := by omega
  rw [hbiased, hfraction, hsign, if_neg (by omega), if_neg (by omega), hsignificand, hexponent]
  rfl

end Whole

/-- Nothing of a whole number is lost. -/
theorem wholePart_ofNat {n : Nat} (hn : n < 2 * leadingBit) : wholePart (ofNat n) = n := by
  by_cases hpos : n = 0
  · rw [hpos]
    decide +kernel
  · unfold wholePart
    rw [ofFloat?_ofNat hpos hn]
    unfold Binary.fraction
    dsimp only
    rw [powerOf_neg, Int.neg_neg, powerOf_natCast, Nat.mul_one]
    exact Nat.mul_div_cancel n (Nat.two_pow_pos _)

/-! ## 3. Decimal digits -/

theorem isDigit_of_mem_toDigits {n : Nat} {c : Char} (h : c ∈ Nat.toDigits 10 n) :
    isDigit c = true := by
  have hdigit := Nat.isDigit_of_mem_toDigits (by decide) (by decide) h
  unfold Char.isDigit at hdigit
  unfold isDigit
  exact hdigit

theorem digitsValue_eq (acc : Nat) (cs : List Char) :
    digitsValue acc cs = Nat.ofDigitChars 10 cs acc := by
  unfold digitsValue Nat.ofDigitChars digitValue
  simp only [Nat.mul_comm]
  rfl

/-- A decimal without a power of ten is a whole number. -/
theorem ofDecimal_zero {n : Nat} (hn : n < 2 * leadingBit) : ofDecimal n 0 = ofNat n := by
  unfold ofDecimal
  by_cases hpos : n = 0
  · rw [if_pos hpos, hpos]
    rfl
  · have hlog : n.log2 < 53 := (Nat.log2_lt hpos).mpr hn
    rw [if_neg hpos, if_neg (by omega), if_neg (by omega)]
    show ofFraction (n * 1) 1 = _
    rw [Nat.mul_one]
    rfl

theorem unsignedDecimal?_digits {ds : List Char} (hdigits : ∀ c ∈ ds, isDigit c = true)
    (hne : ds ≠ []) : unsignedDecimal? ds = some (ofDecimal (digitsValue 0 ds) 0) := by
  unfold unsignedDecimal?
  rw [List.takeWhile_eq_self_iff.mpr hdigits, List.dropWhile_eq_nil_iff.mpr hdigits]
  cases ds with
  | nil => exact absurd rfl hne
  | cons c ds => rfl

/-- The digits of a whole number are read as this number. -/
theorem decimal?_toDigits {n : Nat} (hn : n < 2 * leadingBit) :
    decimal? (Nat.toDigits 10 n) = some (ofNat n) := by
  have hdigits : ∀ c ∈ Nat.toDigits 10 n, isDigit c = true := fun c => isDigit_of_mem_toDigits
  have hvalue : digitsValue 0 (Nat.toDigits 10 n) = n := by
    rw [digitsValue_eq, Nat.ofDigitChars_toDigits (by decide) (by decide)]
  have hunsigned := unsignedDecimal?_digits hdigits Nat.toDigits_ne_nil
  rw [hvalue, ofDecimal_zero hn] at hunsigned
  unfold decimal?
  split
  · next heq => cases hdigits '-' (by rw [heq]; exact List.mem_cons_self)
  · next heq => cases hdigits '+' (by rw [heq]; exact List.mem_cons_self)
  · exact hunsigned

end TraceViewer.Number
