import TraceViewer.Proofs.Snippet.NumberDisplay
import TraceViewer.Proofs.Snippet.Ordering

/-!
# The numbers of compound values

Arithmetic takes an array of one item for the number of this item, comparisons take it for the
number of its text.  The two are the same number unless arrays of one item lead to `undefined`,
which is no number but has an empty text there, or to a truth value, which counts as a number and
has a word for its text.
-/

namespace TraceViewer.Snippet

open TraceViewer.Text

/-! ## 1. The same number -/

namespace SameNumber

theorem refl (x : Float) : SameNumber x x := by
  cases hnan : Number.isNaN x with
  | true => exact .inr ⟨hnan, hnan⟩
  | false => exact .inl (Float.beq_self_iff.mpr (Number.isNaN_eq_false_iff.mp hnan))

theorem symm {x y : Float} : SameNumber x y → SameNumber y x
  | .inl h => .inl (BEq.symm h)
  | .inr h => .inr h.symm

theorem nan_of_isNaN {x : Float} (h : Number.isNaN x = true) : SameNumber Number.nan x :=
  .inr ⟨by decide, h⟩

variable {x y : Float} (h : SameNumber x y)
include h

/-- Only the two zeros are the same number without having the same bits. -/
theorem cases : x = y ∨ (x = 0 ∧ y = -0) ∨ (x = -0 ∧ y = 0) := by
  rcases h with h | ⟨hx, hy⟩
  · exact (Float.beq_iff_ne_nan_and_eq.mp h).2.2
  · left
    have hnan {z : Float} (hz : Number.isNaN z = true) : z = Float.nan := by
      by_contra hne
      rw [Number.isNaN_eq_false_iff.mpr hne] at hz
      cases hz
    rw [hnan hx, hnan hy]

theorem beq_eq (z : Float) : (x == z) = (y == z) := by
  have hzeros : ((0 : Float) == -0) = true := by decide
  rcases h.cases with rfl | ⟨rfl, rfl⟩ | ⟨rfl, rfl⟩
  · rfl
  · exact BEq.congr_left hzeros
  · exact BEq.congr_left (BEq.symm hzeros)

theorem rank?_eq : Number.rank? x = Number.rank? y := by
  rcases h.cases with rfl | ⟨rfl, rfl⟩ | ⟨rfl, rfl⟩ <;> rfl

theorem order?_eq (z : Float) : Number.order? x z = Number.order? y z := by
  have hlt : x < z ↔ y < z := by rw [Number.lt_iff, Number.lt_iff, h.rank?_eq]
  have hgt : x > z ↔ y > z := by
    show z < x ↔ z < y
    rw [Number.lt_iff, Number.lt_iff, h.rank?_eq]
  unfold Number.order?
  rw [h.beq_eq z]
  simp only [hlt, hgt]

end SameNumber

/-! ## 2. Texts that are no numbers -/

/-- Characters that stand in no number. -/
def isForeign (c : Char) : Bool := c == ',' || c == '/' || c == '(' || c == '['

section Foreign

variable {c : Char} (hc : isForeign c = true)
include hc

theorem eq_false_of_isForeign {f : Char → Bool} (hf : [',', '/', '(', '['].any f = false) :
    f c = false := by
  have hmem : c ∈ [',', '/', '(', '['] := by
    unfold isForeign at hc
    simp only [Bool.or_eq_true, beq_iff_eq, or_assoc] at hc
    simpa using hc
  exact Bool.not_eq_true _ |>.mp (List.any_eq_false.mp hf c hmem)

theorem notMem_of_isForeign {cs : List Char} (hcs : cs.all (fun d => !isForeign d) = true) :
    c ∉ cs := by
  intro hmem
  have hnot := List.all_eq_true.mp hcs c hmem
  rw [hc] at hnot
  cases hnot

theorem notMem_sign (sign : Sign) : c ∉ sign.chars := by
  cases sign <;> exact notMem_of_isForeign hc (by decide)

theorem isNaN_hexNumber_of_mem {cs : List Char} (hmem : c ∈ cs) :
    Number.isNaN (hexNumber cs) = true := by
  by_contra hnan
  rw [Bool.not_eq_true, isNaN_hexNumber_iff] at hnan
  obtain ⟨sign, digits, rfl, hdigits, -⟩ := hnan
  rcases List.mem_append.mp hmem with hmem | hmem
  · exact notMem_sign hc sign hmem
  · have hhex := hdigits.isHexDigit c hmem
    rw [eq_false_of_isForeign (f := isHexDigit) hc (by decide)] at hhex
    cases hhex

theorem not_isNumeralText_of_mem {cs : List Char} (hmem : c ∈ cs)
    (hmark : ∀ mark rest, mark = 'x' ∨ mark = 'X' → cs ≠ '0' :: mark :: rest) :
    ¬IsNumeralText cs := by
  intro h
  cases h with
  | infinity sign =>
    rcases List.mem_append.mp hmem with hmem | hmem
    · exact notMem_sign hc sign hmem
    · exact notMem_of_isForeign hc (by decide) hmem
  | hex isMark => exact hmark _ _ isMark rfl
  | decimal sign d =>
    rcases List.mem_append.mp hmem with hmem | hmem
    · exact notMem_sign hc sign hmem
    · have hnot := d.eq_false_of_mem (f := isForeign) (by decide) c hmem
      rw [hc] at hnot
      cases hnot

/-- What stands in no number makes a text none. -/
theorem isNaN_of_mem {s : String} (hmem : c ∈ s.toList) : Number.isNaN (textNumber s) = true := by
  have hin : c ∈ (trim s).toList := mem_trim hmem (eq_false_of_isForeign hc (by decide))
  rcases marked_or_unmarked (trim s).toList with ⟨mark, rest, hmark, hcs⟩ | hunmarked
  · rw [textNumber_marked hmark hcs]
    apply isNaN_hexNumber_of_mem hc
    rw [hcs] at hin
    rcases List.mem_cons.mp hin with rfl | hin
    · cases hc
    · rcases List.mem_cons.mp hin with rfl | hin
      · rcases hmark with rfl | rfl <;> cases hc
      · exact hin
  · by_contra hnan
    rw [Bool.not_eq_true, isNaN_unmarked_iff (List.ne_nil_of_mem hin) hunmarked] at hnan
    exact not_isNumeralText_of_mem hc hin hunmarked hnan

end Foreign

theorem comma_mem_join (s t : String) (rest : List String) :
    ',' ∈ (join "," (s :: t :: rest)).toList := by
  rw [join, String.intercalate_cons_cons, String.toList_append, String.toList_append]
  exact List.mem_append_left _ (List.mem_append_right _ (.head _))

namespace Value

/-- The texts of functions are no numbers. -/
theorem isNaN_functionText (f : Function) : Number.isNaN (textNumber (functionText f)) = true := by
  refine isNaN_of_mem (c := '(') (by decide) ?_
  unfold functionText
  cases f.name with
  | none =>
    simp only [String.toList_append]
    exact List.mem_append_left _ (List.mem_append_left _ (.head _))
  | some name =>
    simp only [String.toList_append]
    exact List.mem_append_left _ (List.mem_append_left _ (List.mem_append_right _ (.head _)))

theorem isNaN_patternText (p : PatternLiteral) :
    Number.isNaN (textNumber (patternText p)) = true := by
  refine isNaN_of_mem (c := '/') (by decide) ?_
  unfold patternText
  simp only [String.toList_append]
  exact List.mem_append_left _ (List.mem_append_left _ (List.mem_append_left _ (.head _)))

theorem isNaN_builtinText (b : Builtin) :
    Number.isNaN (textNumber (display (.builtin b))) = true := by
  refine isNaN_of_mem (c := '(') (by decide) ?_
  rw [display]
  simp only [String.toList_append]
  exact List.mem_append_right _ (.head _)

theorem isNaN_objectText (mark : Nat) (fields : List (String × Value)) :
    Number.isNaN (textNumber (display (.object mark fields))) = true := by
  refine isNaN_of_mem (c := '[') (by decide) ?_
  rw [display]
  exact .head _

/-! ## 3. Arrays -/

/-- Arrays that lead through arrays of one item to `undefined` or to a truth value. -/
inductive IsMiscounted : Value → Prop
  | undefined (mark : Nat) : IsMiscounted (.array mark [.undefined])
  | bool (mark : Nat) (b : Bool) : IsMiscounted (.array mark [.bool b])
  | nested (mark : Nat) {v : Value} : IsMiscounted v → IsMiscounted (.array mark [v])

/-- The number of any other array is that of its text. -/
theorem sameNumber_items (mark : Nat) (items : List Value) (h : ¬IsMiscounted (.array mark items)) :
    SameNumber (itemsNumber items) (textNumber (join "," (displayItems items))) := by
  cases items with
  | nil => exact .refl 0
  | cons v rest =>
    cases rest with
    | cons w rest =>
      exact .nan_of_isNaN (isNaN_of_mem (by decide) (comma_mem_join ..))
    | nil =>
      have hnumber : itemsNumber [v] = v.toNumber := rfl
      have htext : join "," (displayItems [v]) = if v.isNullish then "" else v.display := by
        simp only [displayItems]
        exact String.intercalate_singleton
      rw [hnumber, htext]
      cases v with
      | undefined => exact absurd (.undefined mark) h
      | null => exact .refl 0
      | bool b => exact absurd (.bool mark b) h
      | number x => exact (textNumber_numberText x).symm
      | text s => exact .refl _
      | array inner items => exact sameNumber_items inner items fun hin => h (.nested mark hin)
      | object m fields => exact .nan_of_isNaN (isNaN_objectText m fields)
      | pattern source p => exact .nan_of_isNaN (isNaN_patternText p)
      | closure m c => exact .nan_of_isNaN (isNaN_functionText c.function)
      | builtin b => exact .nan_of_isNaN (isNaN_builtinText b)
  termination_by sizeOf items

theorem toPrimitive_items (mark : Nat) (items : List Value) :
    (toPrimitive (.array mark items)).toNumber = textNumber (join "," (displayItems items)) := by
  rw [toPrimitive, display, toNumber]

/-- An array of one array counts as this array in both ways. -/
theorem sameNumber_nested (mark inner : Nat) (items : List Value) :
    SameNumber (toNumber (.array mark [.array inner items]))
        (toPrimitive (.array mark [.array inner items])).toNumber ↔
      SameNumber (toNumber (.array inner items)) (toPrimitive (.array inner items)).toNumber := by
  have htext : join "," (displayItems [.array inner items]) = join "," (displayItems items) := by
    simp only [displayItems, display]
    exact String.intercalate_singleton
  rw [toPrimitive_items, toPrimitive_items, htext]
  exact Iff.rfl

theorem not_sameNumber_of_isMiscounted {v : Value} (h : IsMiscounted v) :
    ¬SameNumber v.toNumber v.toPrimitive.toNumber := by
  induction h with
  | undefined mark =>
    rw [toPrimitive_items]
    show ¬SameNumber Number.nan _
    unfold SameNumber
    decide
  | bool mark b =>
    rw [toPrimitive_items]
    show ¬SameNumber (toNumber (.bool b)) _
    unfold SameNumber
    cases b <;> decide
  | nested mark hin ih =>
    cases hin with
    | undefined inner | bool inner | nested inner =>
      rw [sameNumber_nested]
      exact ih

theorem sameNumber_iff (v : Value) :
    SameNumber v.toNumber v.toPrimitive.toNumber ↔ ¬IsMiscounted v := by
  refine ⟨fun h hmis => not_sameNumber_of_isMiscounted hmis h, fun h => ?_⟩
  cases v with
  | array mark items =>
    rw [toPrimitive_items]
    exact sameNumber_items mark items h
  | object m fields => exact .nan_of_isNaN (isNaN_objectText m fields)
  | pattern source p => exact .nan_of_isNaN (isNaN_patternText p)
  | undefined | null | bool | number | text | closure | builtin => exact .refl _

/-! ## 4. Comparisons with numbers -/

/-- A value counts as the same number in arithmetic and, as its text, in comparisons.  A compound
value is so compared with any number as the number that arithmetic takes it for. -/
structure CoercesAlike (v : Value) : Prop where
  number : SameNumber v.toNumber v.toPrimitive.toNumber
  looseEq (y : Float) : v.isCompound = true → v.looseEq (.number y) = (v.toNumber == y) ∧
    looseEq (.number y) v = (y == v.toNumber)
  compare (y : Float) : v.isCompound = true →
    v.compare? (.number y) = Number.order? v.toNumber y ∧
      compare? (.number y) v = Number.order? y v.toNumber

/-- A compound value is compared with a number as the number of its text. -/
theorem looseEq_compound {v : Value} (h : v.isCompound = true) (y : Float) :
    v.looseEq (.number y) = (v.toPrimitive.toNumber == y) := by
  cases v with
  | array | object | pattern => rfl
  | undefined | null | bool | number | text | closure | builtin => cases h

theorem compare?_compound {v : Value} (h : v.isCompound = true) (y : Float) :
    v.compare? (.number y) = Number.order? v.toPrimitive.toNumber y := by
  cases v with
  | array | object | pattern => rfl
  | undefined | null | bool | number | text | closure | builtin => cases h

/-- The two numbers of a value are the same exactly when no `undefined` and no truth value is
counted through arrays of one item. -/
theorem coercesAlike_iff (v : Value) : v.CoercesAlike ↔ ¬IsMiscounted v := by
  rw [← sameNumber_iff]
  refine ⟨fun h => h.number, fun h => ⟨h, fun y hv => ?_, fun y hv => ?_⟩⟩
  · have heq : v.looseEq (.number y) = (v.toNumber == y) := by
      rw [looseEq_compound hv, h.beq_eq]
    refine ⟨heq, ?_⟩
    rw [looseEq_comm, heq, BEq.comm]
  · have heq : v.compare? (.number y) = Number.order? v.toNumber y := by
      rw [compare?_compound hv, h.order?_eq]
    refine ⟨heq, ?_⟩
    rw [← compare?_swap, heq, Number.order?_swap]

/-- `[true]` counts as one, but as its text it is no number, and `[undefined]` is none, but as its
text it counts as zero. -/
theorem not_coercesAlike_oneItem :
    ¬CoercesAlike (.array 0 [.bool true]) ∧ ¬CoercesAlike (.array 0 [.undefined]) :=
  ⟨fun h => not_sameNumber_of_isMiscounted (.bool 0 true) h.number,
    fun h => not_sameNumber_of_isMiscounted (.undefined 0) h.number⟩

end Value

end TraceViewer.Snippet
