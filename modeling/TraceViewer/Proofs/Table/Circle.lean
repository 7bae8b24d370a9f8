import TraceViewer.Proofs.Number.Order
import TraceViewer.Proofs.Table.Sorting

/-!
# Cells in a circle

The order of cells goes by numbers where both cells are numbers and by texts otherwise.  Each of
the two is an order without circles; going from one to the other can lead around one.
-/

namespace TraceViewer

/-! ## 1. Both ways -/

namespace SortKey

theorem number?_ofText (text : String) : (ofText text).number? = cellNumber? text := by
  rw [ofText]

theorem compare_numbers {a b : SortKey} {x y : Float} (ha : a.number? = some x)
    (hb : b.number? = some y) :
    a.compare b = if x < y then .lt else if y < x then .gt else .eq := by
  unfold compare
  rw [ha, hb]

theorem compare_texts {a b : SortKey} (h : a.number? = none ∨ b.number? = none) :
    a.compare b = (Ord.compare a.folded b.folded).then (Ord.compare a.text b.text) := by
  unfold compare
  split
  · next ha hb =>
    rcases h with h | h
    · cases ha.symm.trans h
    · cases hb.symm.trans h
  · rfl

/-- The order of two keys is the opposite of their order the other way around. -/
theorem compare_swap (a b : SortKey) : (a.compare b).swap = b.compare a := by
  have htexts (h : a.number? = none ∨ b.number? = none) : (a.compare b).swap = b.compare a := by
    rw [compare_texts h, compare_texts h.symm, Ordering.swap_then, ← Std.OrientedOrd.eq_swap,
      ← Std.OrientedOrd.eq_swap]
  cases ha : a.number? with
  | none => exact htexts (.inl ha)
  | some x =>
    cases hb : b.number? with
    | none => exact htexts (.inr hb)
    | some y =>
      rw [compare_numbers ha hb, compare_numbers hb ha]
      by_cases hxy : x < y
      · rw [if_pos hxy, if_neg (Number.lt_asymm hxy), if_pos hxy]
        rfl
      · by_cases hyx : y < x
        · rw [if_neg hxy, if_pos hyx, if_pos hyx]
          rfl
        · rw [if_neg hxy, if_neg hyx, if_neg hyx, if_neg hxy]
          rfl

end SortKey

theorem compareCells_swap (a b : String) : (compareCells a b).swap = compareCells b a :=
  SortKey.compare_swap _ _

theorem compareCells_eq_gt {a b : String} : compareCells a b = .gt ↔ compareCells b a = .lt := by
  rw [← compareCells_swap a b, Ordering.swap_eq_lt]

theorem compareCells_self (a : String) : compareCells a a = .eq := by
  have h := compareCells_swap a a
  cases heq : compareCells a a with
  | eq => rfl
  | lt => rw [heq] at h; cases h
  | gt => rw [heq] at h; cases h

/-! ## 2. Circles -/

/-- Three cells of which each is no less than the one before, but the last is less than the
first. -/
def Circle (a b c : String) : Prop :=
  compareCells b a ≠ .lt ∧ compareCells c b ≠ .lt ∧ compareCells c a = .lt

instance (a b c : String) : Decidable (Circle a b c) :=
  inferInstanceAs (Decidable (_ ∧ _ ∧ _))

/-- Nine is less than ten, which as a text goes before "1a", which as a text goes before nine. -/
theorem circle_nine_ten : Circle "9" "10" "1a" := by
  decide +kernel

/-- Numbers alone are in no circle. -/
theorem not_circle_of_numbers {a b c : String} {x y z : Float} (ha : cellNumber? a = some x)
    (hb : cellNumber? b = some y) (hc : cellNumber? c = some z) : ¬Circle a b c := by
  have hless {s t : String} {u v : Float} (hs : cellNumber? s = some u)
      (ht : cellNumber? t = some v) : compareCells s t = .lt ↔ u < v := by
    unfold compareCells
    rw [← SortKey.number?_ofText] at hs ht
    rw [SortKey.compare_numbers hs ht]
    constructor
    · intro heq
      by_contra h
      rw [if_neg h] at heq
      split at heq <;> cases heq
    · intro h
      rw [if_pos h]
  rintro ⟨hba, hcb, hca⟩
  rw [Ne, hless hb ha] at hba
  rw [Ne, hless hc hb] at hcb
  rw [hless hc ha] at hca
  -- a number in the middle is finite, hence above or below the others
  have hfinite : Number.isFinite y = true := (Option.filter_eq_some_iff.mp hb).2
  exact (Number.lt_or_lt_of_lt hfinite hca).elim hcb hba

/-- Cells of which each two are compared as texts are in no circle: a circle takes two numbers and
one other text. -/
theorem not_circle_of_texts {a b c : String} (hba : cellNumber? b = none ∨ cellNumber? a = none)
    (hcb : cellNumber? c = none ∨ cellNumber? b = none)
    (hca : cellNumber? c = none ∨ cellNumber? a = none) : ¬Circle a b c := by
  have htexts {s t : String} (h : cellNumber? s = none ∨ cellNumber? t = none) :
      compareCells s t =
        compareLex (compareOn SortKey.folded) (compareOn SortKey.text) (.ofText s)
          (.ofText t) := by
    rw [← SortKey.number?_ofText, ← SortKey.number?_ofText] at h
    exact SortKey.compare_texts h
  unfold Circle
  rw [htexts hba, htexts hcb, htexts hca]
  rintro ⟨hba, hcb, hca⟩
  -- texts alone are compared by a transitive order, so the last comparison contradicts the first
  -- two
  have hge := Std.TransCmp.isGE_trans (Ordering.ne_lt_iff_isGE.mp hcb)
    (Ordering.ne_lt_iff_isGE.mp hba)
  exact Ordering.ne_lt_iff_isGE.mpr hge hca

/-! ## 3. Orders without circles -/

/-- Cells none of which are in a circle are in an order that sorting can rely on, in either
direction. -/
theorem unbroken_of_not_circle {p : String → Prop}
    (h : ∀ a b c, p a → p b → p c → ¬Circle a b c) (d : Direction) :
    Unbroken (fun a b => d.precedes (compareCells a b)) p := by
  have hbetween (a b c : String) (ha : p a) (hb : p b) (hc : p c) (hac : compareCells a c = .lt) :
      compareCells a b = .lt ∨ compareCells b c = .lt := by
    by_contra hnone
    rw [not_or] at hnone
    exact h c b a hc hb ha ⟨hnone.2, hnone.1, hac⟩
  cases d with
  | ascending =>
    constructor
    · intro a b _ _ hab
      have hab : compareCells a b = .lt := beq_iff_eq.mp hab
      have hba : compareCells b a = .gt := compareCells_eq_gt.mpr hab
      exact beq_eq_false_iff_ne.mpr (by rw [hba]; decide)
    · intro a b c ha hb hc hac
      exact (hbetween a b c ha hb hc (beq_iff_eq.mp hac)).imp beq_iff_eq.mpr beq_iff_eq.mpr
  | descending =>
    constructor
    · intro a b _ _ hab
      have hab : compareCells a b = .gt := beq_iff_eq.mp hab
      have hba : compareCells b a = .lt := compareCells_eq_gt.mp hab
      exact beq_eq_false_iff_ne.mpr (by rw [hba]; decide)
    · intro a b c ha hb hc hac
      have hca : compareCells c a = .lt := compareCells_eq_gt.mp (beq_iff_eq.mp hac)
      exact (hbetween c b a hc hb ha hca).symm.imp
        (fun h => beq_iff_eq.mpr (compareCells_eq_gt.mpr h))
        (fun h => beq_iff_eq.mpr (compareCells_eq_gt.mpr h))

end TraceViewer
