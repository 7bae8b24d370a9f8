import TraceViewer.Proofs.Number.Bits
import TraceViewer.Proofs.Number.Order
import TraceViewer.Snippet.Value

/-!
# Laws of comparison

Both equalities of values are symmetric and the strict one is the finer of the two.  The order of
two values is the opposite of their order the other way around, and with it the four comparing
operators agree with each other.
-/

namespace TraceViewer

/-! ## 1. Numbers -/

namespace Number

theorem lt_irrefl (x : Float) : ¬x < x := fun h => lt_asymm h h

/-- Equal numbers are in no order: only the two zeros are equal without being the same. -/
theorem not_lt_of_beq {x y : Float} (h : (x == y) = true) : ¬x < y := by
  obtain ⟨-, -, rfl | ⟨rfl, rfl⟩ | ⟨rfl, rfl⟩⟩ := Float.beq_iff_ne_nan_and_eq.mp h
  · exact lt_irrefl x
  · decide
  · decide

/-- The order of two numbers, if they have one. -/
def order? (x y : Float) : Option Ordering :=
  if x < y then some .lt else if x == y then some .eq else if x > y then some .gt else none

theorem order?_swap (x y : Float) : (order? x y).map Ordering.swap = order? y x := by
  unfold order?
  by_cases hxy : x < y
  · have hyx : ¬y < x := lt_asymm hxy
    have hne : (y == x) = false := by
      rw [BEq.comm, Bool.eq_false_iff]
      exact fun heq => not_lt_of_beq heq hxy
    rw [if_pos hxy, if_neg hyx, hne, if_neg Bool.false_ne_true, if_pos hxy]
    rfl
  · by_cases heq : (x == y) = true
    · have heq' : (y == x) = true := BEq.symm heq
      rw [if_neg hxy, if_pos heq, if_neg (not_lt_of_beq heq'), if_pos heq']
      rfl
    · have heq' : ¬(y == x) = true := by rwa [BEq.comm]
      by_cases hyx : y < x
      · rw [if_neg hxy, if_neg heq, if_pos hyx, if_pos hyx]
        rfl
      · rw [if_neg hxy, if_neg heq, if_neg hyx, if_neg hyx, if_neg heq', if_neg hxy]
        rfl

end Number

namespace Snippet.Value

/-! ## 2. The two equalities -/

theorem strictEq_comm (a b : Value) : a.strictEq b = b.strictEq a := by
  cases a <;> cases b
  case pattern.pattern s p t q =>
    show (s == t && p.number == q.number) = (t == s && q.number == p.number)
    rw [BEq.comm (a := s), BEq.comm (a := p.number)]
  case bool.bool | number.number | text.text | array.array | object.object | closure.closure |
      builtin.builtin =>
    exact BEq.comm
  all_goals rfl

theorem looseEqPlain_comm (a b : Value) : looseEqPlain a b = looseEqPlain b a := by
  cases a <;> cases b
  case number.text | text.number | number.array | array.number | number.object | object.number |
      number.pattern | pattern.number =>
    exact BEq.comm
  case undefined.undefined | null.null => rfl
  -- all other pairs are compared strictly, a compound value with a text after it became one
  all_goals
    simp only [looseEqPlain, isCompound, Bool.false_eq_true, if_true, if_false]
    exact strictEq_comm _ _

theorem looseEq_comm (a b : Value) : a.looseEq b = b.looseEq a := by
  unfold looseEq
  rw [Bool.or_comm, Bool.and_comm, looseEqPlain_comm]

/-- Truth values that are equal are equal as numbers. -/
theorem looseEq_bool (p : Bool) : looseEq (.bool p) (.bool p) = true := by
  cases p <;> decide

theorem looseEq_of_strictEq {a b : Value} (h : a.strictEq b = true) : a.looseEq b = true := by
  cases a <;> cases b
  case bool.bool p q =>
    obtain rfl : p = q := eq_of_beq h
    exact looseEq_bool p
  all_goals first | rfl | exact h | cases h

/-! ## 3. The order -/

/-- Values are in the order of their texts, where both have one, and else of their numbers. -/
theorem compare?_cases (a b : Value) :
    (∃ s t, a.toPrimitive = .text s ∧ b.toPrimitive = .text t ∧
        a.compare? b = some (Ord.compare s t)) ∨
      (¬∃ s t, a.toPrimitive = .text s ∧ b.toPrimitive = .text t) ∧
        a.compare? b = Number.order? a.toPrimitive.toNumber b.toPrimitive.toNumber := by
  unfold compare?
  split
  · next s t ha hb => exact .inl ⟨s, t, ha, hb, rfl⟩
  · next p q hne => exact .inr ⟨fun ⟨s, t, ha, hb⟩ => hne s t ha hb, rfl⟩

theorem compare?_swap (a b : Value) : (a.compare? b).map Ordering.swap = b.compare? a := by
  rcases compare?_cases a b with ⟨s, t, ha, hb, hab⟩ | ⟨hne, hab⟩
  · rcases compare?_cases b a with ⟨t', s', hb', ha', hba⟩ | ⟨hne, -⟩
    · cases ha.symm.trans ha'
      cases hb.symm.trans hb'
      rw [hab, hba, Option.map_some, ← Std.OrientedOrd.eq_swap]
    · exact absurd ⟨t, s, hb, ha⟩ hne
  · rcases compare?_cases b a with ⟨t, s, hb, ha, -⟩ | ⟨-, hba⟩
    · exact absurd ⟨s, t, ha, hb⟩ hne
    · rw [hab, hba, Number.order?_swap]

/-- One value is less than another exactly when the other is greater than it. -/
theorem compare?_eq_gt {a b : Value} : a.compare? b = some .gt ↔ b.compare? a = some .lt := by
  rw [← compare?_swap a b]
  cases a.compare? b with
  | none => exact iff_of_false (fun h => by cases h) (fun h => by cases h)
  | some o => cases o <;> decide

/-! ## 4. The laws -/

/-- How two values compare in both directions: by the two equalities, by their order, and by the
operators of the language. -/
structure ComparesLawfully (a b : Value) : Prop where
  looseEq_symm : a.looseEq b = b.looseEq a
  strictEq_symm : a.strictEq b = b.strictEq a
  strict_le_loose : a.strictEq b = true → a.looseEq b = true
  compare_reverse : a.compare? b = (b.compare? a).map Ordering.swap
  none_together : a.compare? b = none ↔ b.compare? a = none
  less_greater : applyBinary .less a b = applyBinary .greater b a
  lessEq_iff : applyBinary .lessEq a b = .bool true ↔
    applyBinary .less a b = .bool true ∨ a.compare? b = some .eq
  not_both_less : ¬(applyBinary .less a b = .bool true ∧ applyBinary .less b a = .bool true)

theorem applyBinary_less_eq_true {a b : Value} :
    applyBinary .less a b = .bool true ↔ a.compare? b = some .lt := by
  rw [applyBinary, Value.bool.injEq, beq_iff_eq]

theorem comparesLawfully (a b : Value) : a.ComparesLawfully b where
  looseEq_symm := looseEq_comm a b
  strictEq_symm := strictEq_comm a b
  strict_le_loose := looseEq_of_strictEq
  compare_reverse := (compare?_swap b a).symm
  none_together := by rw [← compare?_swap a b, Option.map_eq_none_iff]
  less_greater := by
    show Value.bool _ = Value.bool _
    rw [Value.bool.injEq, Bool.eq_iff_iff, beq_iff_eq, beq_iff_eq, compare?_eq_gt]
  lessEq_iff := by
    rw [applyBinary_less_eq_true, applyBinary, Value.bool.injEq, Bool.or_eq_true, beq_iff_eq,
      beq_iff_eq]
  not_both_less := by
    rintro ⟨hab, hba⟩
    rw [applyBinary_less_eq_true] at hab hba
    rw [← compare?_eq_gt, hab] at hba
    cases hba

end Snippet.Value

end TraceViewer
