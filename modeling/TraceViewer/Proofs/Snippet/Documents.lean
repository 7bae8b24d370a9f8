import TraceViewer.Proofs.Number.Bits
import TraceViewer.Proofs.Snippet.Alike

/-!
# Values as documents

A value that is written as a document and read again is written as the same document.  If it was
built from data alone it is also the same value, but for the marks of its arrays and objects.  A
number has two forms in a document, and of the finite numbers only negative zero is kept by neither.
-/

namespace TraceViewer.Snippet.Value

open Number (isWhole isFinite wholePart toInt ofInt)

/-! ## 1. Numbers -/

section Numbers

variable {x : Float} {n : JsonNumber}

theorem numberJson_of_isWhole (hwhole : isWhole x = true) (hsmall : wholePart x < wholeBelow) :
    numberJson x = .ofInt (toInt x) := by
  unfold numberJson
  rw [hwhole, decide_eq_true hsmall]
  exact if_pos rfl

/-- A number is written as a number, or as null where it is not finite. -/
theorem numberJson_cases (x : Float) :
    (∃ n, numberJson x = .number n) ∨ isFinite x = false ∧ numberJson x = .null := by
  unfold numberJson
  split
  · exact .inl ⟨_, rfl⟩
  · split
    · exact .inl ⟨_, rfl⟩
    · next h => exact .inr ⟨Bool.not_eq_true _ |>.mp h, rfl⟩

/-- A number that is written is read as it was, unless it is negative zero. -/
theorem toFloat_of_numberJson (h : numberJson x = .number n) (hzero : x ≠ -0) : n.toFloat = x := by
  have hbelow : wholeBelow < 2 * Number.leadingBit := by decide
  unfold numberJson at h
  split at h
  · next hwhole =>
    rw [Bool.and_eq_true, decide_eq_true_iff] at hwhole
    cases h
    exact Number.ofInt_toInt hwhole.1 (hwhole.2.trans hbelow) hzero
  · split at h
    · cases h
      rfl
    · cases h

/-- Negative zero is written as zero. -/
theorem numberJson_negativeZero : numberJson (-0) = .ofInt 0 := by
  have hwhole : isWhole (-0) = true := by decide +kernel
  have hpart : wholePart (-0) < wholeBelow := by decide +kernel
  have hint : toInt (-0) = 0 := by decide +kernel
  rw [numberJson_of_isWhole hwhole hpart, hint]

theorem numberJson_zero : numberJson (ofInt 0) = .ofInt 0 := by
  have hwhole : isWhole (ofInt 0) = true := by decide +kernel
  have hpart : wholePart (ofInt 0) < wholeBelow := by decide +kernel
  have hint : toInt (ofInt 0) = 0 := by decide +kernel
  rw [numberJson_of_isWhole hwhole hpart, hint]

theorem numberJson_toFloat (h : numberJson x = .number n) : numberJson n.toFloat = .number n := by
  by_cases hzero : x = -0
  · rw [hzero, numberJson_negativeZero] at h
    cases h
    exact numberJson_zero
  · rw [toFloat_of_numberJson h hzero, h]

end Numbers

/-! ## 2. Documents that are read again -/

theorem ofItems_cons (mark : Nat) (j : Json) (rest : List Json) :
    ofItems mark (j :: rest) =
      ((ofJson mark j).1 :: (ofItems (ofJson mark j).2 rest).1,
        (ofItems (ofJson mark j).2 rest).2) := rfl

theorem ofFields_cons (mark : Nat) (key : String) (j : Json) (rest : List (String × Json)) :
    ofFields mark ((key, j) :: rest) =
      ((key, (ofJson mark j).1) :: (ofFields (ofJson mark j).2 rest).1,
        (ofFields (ofJson mark j).2 rest).2) := rfl

mutual

/-- What is read of a written value is written as the same document. -/
theorem toJson_ofJson_toJson : ∀ (mark : Nat) (v : Value),
    (ofJson mark v.toJson).1.toJson = v.toJson
  | mark, .number x => by
    show (ofJson mark (numberJson x)).1.toJson = numberJson x
    rcases numberJson_cases x with ⟨n, h⟩ | ⟨_, h⟩
    · rw [h]
      exact numberJson_toFloat h
    · rw [h]
      rfl
  | mark, .array m items => by
    show Json.array (itemsJson (ofItems (mark + 1) (itemsJson items)).1) = .array (itemsJson items)
    rw [itemsJson_ofItems]
  | mark, .object m fields => by
    show Json.object (fieldsJson (ofFields (mark + 1) (fieldsJson fields)).1) =
      .object (fieldsJson fields)
    rw [fieldsJson_ofFields]
  | _, .undefined | _, .null | _, .bool _ | _, .text _ | _, .pattern _ _ | _, .closure _ _
  | _, .builtin _ => rfl

theorem itemsJson_ofItems : ∀ (mark : Nat) (items : List Value),
    itemsJson (ofItems mark (itemsJson items)).1 = itemsJson items
  | _, [] => rfl
  | mark, v :: rest => by
    rw [itemsJson, ofItems_cons, itemsJson, toJson_ofJson_toJson, itemsJson_ofItems]

theorem fieldsJson_ofFields : ∀ (mark : Nat) (fields : List (String × Value)),
    fieldsJson (ofFields mark (fieldsJson fields)).1 = fieldsJson fields
  | _, [] => rfl
  | mark, (key, v) :: rest => by
    rw [fieldsJson, ofFields_cons, fieldsJson, toJson_ofJson_toJson, fieldsJson_ofFields]

end

/-! ## 3. Data -/

/-- Values that are built from data alone. -/
inductive IsData : Value → Prop
  | null : IsData .null
  | bool (b : Bool) : IsData (.bool b)
  | number {x : Float} (hfinite : isFinite x = true) (hzero : x ≠ -0) : IsData (.number x)
  | text (s : String) : IsData (.text s)
  | array (mark : Nat) {items : List Value} (h : ∀ v ∈ items, IsData v) : IsData (.array mark items)
  | object (mark : Nat) {fields : List (String × Value)} (h : ∀ f ∈ fields, IsData f.2) :
      IsData (.object mark fields)

/-- Values that are built in the same way, whatever their marks. -/
abbrev SameForm : Value → Value → Prop := Alike ⟨fun _ _ => True, Eq, Eq⟩

theorem sameForm_items {items : List Value}
    (h : ∀ v ∈ items, ∀ mark, SameForm v (ofJson mark v.toJson).1) (mark : Nat) :
    List.Forall₂ SameForm items (ofItems mark (itemsJson items)).1 := by
  induction items generalizing mark with
  | nil => exact .nil
  | cons v rest ih =>
    apply List.Forall₂.cons
    · exact h v (List.mem_cons_self ..) mark
    · exact ih (fun w hw => h w (List.mem_cons_of_mem _ hw)) _

theorem sameForm_fields {fields : List (String × Value)}
    (h : ∀ f ∈ fields, ∀ mark, SameForm f.2 (ofJson mark f.2.toJson).1) (mark : Nat) :
    Fields.Rel SameForm fields (ofFields mark (fieldsJson fields)).1 := by
  induction fields generalizing mark with
  | nil => exact .nil
  | cons f rest ih =>
    apply Fields.Rel.cons
    · exact h f (List.mem_cons_self ..) mark
    · exact ih (fun g hg => h g (List.mem_cons_of_mem _ hg)) _

/-- Data that is written is read as the same data. -/
theorem sameForm_ofJson_toJson {v : Value} (h : IsData v) (mark : Nat) :
    SameForm v (ofJson mark v.toJson).1 := by
  induction h generalizing mark with
  | null => exact .plain rfl
  | bool b => exact .plain rfl
  | text s => exact .plain rfl
  | @number x hfinite hzero =>
    rcases numberJson_cases x with ⟨n, hn⟩ | ⟨hnot, _⟩
    · unfold toJson
      rw [hn]
      show SameForm _ (.number n.toFloat)
      rw [toFloat_of_numberJson hn hzero]
      exact .plain rfl
    · rw [hfinite] at hnot
      cases hnot
  | array m _ ih => exact .array trivial (sameForm_items ih _)
  | object m _ ih => exact .object trivial (sameForm_fields ih _)

/-- Writing a value, reading it and writing it again gives the same document, and data is read as it
was. -/
theorem survives_toJson (v : Value) (mark : Nat) :
    (ofJson mark v.toJson).1.toJson = v.toJson ∧
      (IsData v → SameForm v (ofJson mark v.toJson).1) :=
  ⟨toJson_ofJson_toJson mark v, fun h => sameForm_ofJson_toJson h mark⟩

/-- Numbers on either side of the bound, in an object in an array. -/
theorem survives_toJson_nestedNumbers :
    let v := array 7 [.object 3 [("a", .number 8999999999999999), ("b", .number 9e15)],
      .number (-0.5), .null]
    IsData v ∧ (ofJson 0 v.toJson).1.toJson = v.toJson ∧ SameForm v (ofJson 0 v.toJson).1 := by
  intro v
  have hdata : IsData v := by
    apply IsData.array
    rw [List.forall_mem_cons, List.forall_mem_cons, List.forall_mem_singleton]
    refine ⟨.object _ ?_, .number ?_ ?_, .null⟩
    · rw [List.forall_mem_cons, List.forall_mem_singleton]
      exact ⟨.number (by decide +kernel) (by decide +kernel),
        .number (by decide +kernel) (by decide +kernel)⟩
    · decide +kernel
    · decide +kernel
  have hsurvives := survives_toJson v 0
  exact ⟨hdata, hsurvives.1, hsurvives.2 hdata⟩

end TraceViewer.Snippet.Value
