import Mathlib.Data.Int.Order.Basic
import Mathlib.Data.Prod.Lex
import TraceViewer.Number.Binary

/-!
# The order of floating-point numbers

Numbers are in the order of their ranks, which are in a linear order; only what is not a number has
no rank.  Finite numbers have one, so they are in a linear order but for the two zeros.
-/

namespace TraceViewer.Number

open Float.Model (UnpackedFloat)

/-- Where numbers are put: their kinds from negative infinity to infinity, and among finite numbers
of one sign their exponents and then their significands. -/
abbrev Rank := Int ×ₗ Int ×ₗ Int

/-- The rank of a number that was taken apart. -/
def rankOf? : UnpackedFloat → Option Rank
  | .notANumber => none
  | .infinity .negative => some (toLex (-2, toLex (0, 0)))
  | .finite .negative m e _ => some (toLex (-1, toLex (-e, -m)))
  | .zero _ => some (toLex (0, toLex (0, 0)))
  | .finite .positive m e _ => some (toLex (1, toLex (e, m)))
  | .infinity .positive => some (toLex (2, toLex (0, 0)))

/-- The rank of a number. -/
def rank? (x : Float) : Option Rank := rankOf? x.toModel.unpack

/-- Of two numbers the one of lower rank is less. -/
theorem unpacked_lt_iff (a b : UnpackedFloat) :
    a.lt b = true ↔ ∃ x ∈ rankOf? a, ∃ y ∈ rankOf? b, x < y := by
  have hthen (o o' : Ordering) : o.then o' = .lt ↔ o = .lt ∨ o = .eq ∧ o' = .lt := by
    cases o <;> simp
  have hthenGt (o o' : Ordering) : o.then o' = .gt ↔ o = .gt ∨ o = .eq ∧ o' = .gt := by
    cases o <;> simp
  have hsign : compare UnpackedFloat.Sign.negative UnpackedFloat.Sign.positive = .lt := rfl
  have hsign' : compare UnpackedFloat.Sign.positive UnpackedFloat.Sign.negative = .gt := rfl
  rcases a with (_ | _) | _ | _ | ⟨_ | _, m, e, hm⟩ <;>
    rcases b with (_ | _) | _ | _ | ⟨_ | _, m', e', hm'⟩ <;>
    dsimp only [UnpackedFloat.lt, UnpackedFloat.compare, rankOf?] <;>
    simp [Prod.Lex.toLex_lt_toLex, hthen, hthenGt, hsign, hsign', Int.compare_eq_lt,
      Int.compare_eq_gt, Nat.compare_eq_lt, Nat.compare_eq_gt]

theorem lt_iff (x y : Float) : x < y ↔ ∃ a ∈ rank? x, ∃ b ∈ rank? y, a < b := by
  rw [rank?, rank?, ← unpacked_lt_iff]
  show decide (x.toModel < y.toModel) = true ↔ _
  rw [decide_eq_true_iff]
  exact Iff.rfl

theorem lt_asymm {x y : Float} (h : x < y) : ¬y < x := by
  rw [lt_iff] at h ⊢
  rintro ⟨b, hb, a, ha, hba⟩
  obtain ⟨a', ha', b', hb', hab⟩ := h
  cases ha.symm.trans ha'
  cases hb.symm.trans hb'
  exact (hab.trans hba).false

/-- Infinities and what is not a number have all bits of the exponent set. -/
theorem unpack_exponent {b : BitVec Float.Model.Format.binary64.numBits}
    (h : UnpackedFloat.unpackExponent b = -1#_) :
    b.toNat / leadingBit % 2048 = 2047 := by
  have h := congrArg BitVec.toNat h
  unfold UnpackedFloat.unpackExponent at h
  rw [BitVec.toNat_cast, BitVec.extractLsb_toNat, Nat.shiftRight_eq_div_pow] at h
  exact h

/-- The sign among the bits of a number. -/
def unpackedSign (x : Float) : UnpackedFloat.Sign :=
  .ofBitVec (@UnpackedFloat.unpackSign Float.Model.Format.binary64 x.toBits.toBitVec)

/-- A finite number unpacks to zero or a finite number of its sign. -/
theorem unpack_of_isFinite {x : Float} (h : isFinite x = true) :
    x.toModel.unpack = .zero (unpackedSign x) ∨
      ∃ m e, ∃ hm : 0 < m, x.toModel.unpack = .finite (unpackedSign x) m e hm := by
  have hexp : x.toBits.toNat / leadingBit % 2048 ≠ 2047 := by
    intro heq
    unfold isFinite Binary.ofFloat? at h
    dsimp only at h
    rw [if_pos heq] at h
    cases h
  let Unpacked (u : UnpackedFloat) : Prop :=
    u = .zero (unpackedSign x) ∨ ∃ m e, ∃ hm : 0 < m, u = .finite (unpackedSign x) m e hm
  have hfinite (m : Nat) (e : Int) (hm : 0 < m) : Unpacked (.finite (unpackedSign x) m e hm) :=
    .inr ⟨m, e, hm, rfl⟩
  -- with an exponent below the highest, a number unpacks to zero, a subnormal or a normal number
  have hdite {c : Prop} [Decidable c] {u : c → UnpackedFloat} {v : ¬c → UnpackedFloat}
      (hu : ∀ h, Unpacked (u h)) (hv : ∀ h, Unpacked (v h)) : Unpacked (dite c u v) := by
    by_cases h : c
    · rw [dif_pos h]
      exact hu h
    · rw [dif_neg h]
      exact hv h
  show Unpacked x.toModel.unpack
  unfold Float.Model.unpack UnpackedFloat.unpack
  dsimp only
  apply iteInduction (motive := Unpacked)
  · intro heq
    exact absurd (unpack_exponent heq) hexp
  · intro _
    apply iteInduction (motive := Unpacked)
    · exact fun _ => hdite (fun _ => .inl rfl) fun _ => hfinite ..
    · exact fun _ => hfinite ..

theorem rank?_of_isFinite {x : Float} (h : isFinite x = true) : ∃ a, rank? x = some a := by
  unfold rank?
  rcases unpack_of_isFinite h with hzero | ⟨m, e, hm, hfinite⟩
  · rw [hzero]
    exact ⟨_, rfl⟩
  · rw [hfinite]
    cases unpackedSign x <;> exact ⟨_, rfl⟩

/-- A finite number without a sign is not below zero. -/
theorem zero_le_of_isFinite {x : Float} (h : isFinite x = true) (hsign : isNegative x = false) :
    0 ≤ x := by
  have hpositive : unpackedSign x = .positive := by
    have hbit : @UnpackedFloat.unpackSign Float.Model.Format.binary64 x.toBits.toBitVec = 0#1 := by
      apply BitVec.eq_of_toNat_eq
      have hlt : x.toBits.toNat < 2 * signBit := x.toBits.toNat_lt
      unfold isNegative at hsign
      rw [beq_eq_false_iff_ne] at hsign
      unfold UnpackedFloat.unpackSign
      rw [BitVec.toNat_cast, BitVec.extractLsb_toNat, Nat.shiftRight_eq_div_pow]
      show x.toBits.toNat / signBit % 2 = 0
      unfold signBit at *
      omega
    unfold unpackedSign
    rw [hbit]
    rfl
  have hunpack := unpack_of_isFinite h
  rw [hpositive] at hunpack
  show decide ((0 : Float).toModel ≤ x.toModel) = true
  rw [decide_eq_true_iff]
  show (UnpackedFloat.zero .positive).le x.toModel.unpack = true
  rcases hunpack with hzero | ⟨m, e, hm, hfinite⟩
  · rw [hzero]
    rfl
  · rw [hfinite]
    rfl

/-- A finite number between two others is above the lower or below the higher. -/
theorem lt_or_lt_of_lt {x y z : Float} (hy : isFinite y = true) (h : x < z) : x < y ∨ y < z := by
  obtain ⟨b, hb⟩ := rank?_of_isFinite hy
  obtain ⟨a, ha, c, hc, hac⟩ := (lt_iff x z).mp h
  rcases lt_or_ge a b with hab | hba
  · exact .inl ((lt_iff x y).mpr ⟨a, ha, b, hb, hab⟩)
  · exact .inr ((lt_iff y z).mpr ⟨b, hb, c, hc, lt_of_le_of_lt hba hac⟩)

end TraceViewer.Number
