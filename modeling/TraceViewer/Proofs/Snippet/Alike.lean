import Mathlib.Data.List.Forall2
import TraceViewer.Snippet.Method

/-!
# Values up to renaming

Two runs of the same code number their arrays, objects, functions and scopes differently when they
start from different heaps.  `Renaming` says which numbers of one run stand for which of the other,
and `Value.Alike` lifts that to values.  Everything the language can ask of a value, the order and
the equality of two values included, has the same answer for alike values.
-/

namespace TraceViewer

/-! ## 1. Fields with related values -/

/-- Fields of the same names in the same order, with related values. -/
inductive Fields.Rel {α β : Type} (R : α → β → Prop) : Fields α → Fields β → Prop
  | nil : Fields.Rel R [] []
  | cons (name : String) {a b rest rest'} (h : R a b) (t : Fields.Rel R rest rest') :
      Fields.Rel R ((name, a) :: rest) ((name, b) :: rest')

namespace Fields.Rel

variable {α β : Type} {R T : α → β → Prop} {fields : Fields α} {fields' : Fields β}

theorem imp (hRT : ∀ a b, R a b → T a b) (h : Fields.Rel R fields fields') :
    Fields.Rel T fields fields' := by
  induction h with
  | nil => exact .nil
  | cons name h _ ih => exact .cons name (hRT _ _ h) ih

theorem lookup (h : Fields.Rel R fields fields') (name : String) :
    Option.Rel R (fields.lookup name) (fields'.lookup name) := by
  induction h with
  | nil => exact .none
  | cons n h _ ih =>
    rw [List.lookup_cons, List.lookup_cons]
    cases name == n with
    | true => exact .some h
    | false => exact ih

theorem set {a : α} {b : β} (h : Fields.Rel R fields fields') (hab : R a b) (name : String) :
    Fields.Rel R (Fields.set name a fields) (Fields.set name b fields') := by
  induction h with
  | nil => exact .cons name hab .nil
  | cons n h t ih =>
    unfold Fields.set
    split
    · exact .cons name hab (.cons n h t)
    · split
      · exact .cons name hab t
      · exact .cons n h ih

theorem ofList (h : Fields.Rel R fields fields') :
    Fields.Rel R (Fields.ofList fields) (Fields.ofList fields') := by
  suffices hfold : ∀ {acc acc'}, Fields.Rel R acc acc' →
      Fields.Rel R (fields.foldl (fun acc f => Fields.set f.1 f.2 acc) acc)
        (fields'.foldl (fun acc f => Fields.set f.1 f.2 acc) acc') from hfold .nil
  induction h with
  | nil => exact id
  | cons n h _ ih => exact fun hacc => ih (hacc.set h n)

theorem self_of_mem {R : α → α → Prop} {fields : Fields α} (h : Fields.Rel R fields fields)
    {f : String × α} (hf : f ∈ fields) : R f.2 f.2 := by
  induction fields with
  | nil => cases hf
  | cons g rest ih =>
    cases h with
    | cons name h t =>
      rcases List.mem_cons.mp hf with rfl | hf
      · exact h
      · exact ih t hf

theorem refl_of_forall {R : α → α → Prop} {fields : Fields α} (h : ∀ f ∈ fields, R f.2 f.2) :
    Fields.Rel R fields fields := by
  induction fields with
  | nil => exact .nil
  | cons f rest ih =>
    exact .cons f.1 (h f (List.mem_cons_self ..))
      (ih fun g hg => h g (List.mem_cons_of_mem _ hg))

end Fields.Rel

theorem optionRel_imp {α β : Type} {R T : α → β → Prop} (hRT : ∀ a b, R a b → T a b)
    {a : Option α} {b : Option β} (h : Option.Rel R a b) : Option.Rel T a b := by
  cases h with
  | none => exact .none
  | some h => exact .some (hRT _ _ h)

theorem exists_of_mem_right {α β : Type} {R : α → β → Prop} {as : List α} {bs : List β}
    (h : List.Forall₂ R as bs) {b : β} (hb : b ∈ bs) : ∃ a ∈ as, R a b := by
  induction h with
  | nil => cases hb
  | cons hab _ ih =>
    rcases List.mem_cons.mp hb with rfl | hb
    · exact ⟨_, List.mem_cons_self .., hab⟩
    · obtain ⟨a, ha, hR⟩ := ih hb
      exact ⟨a, List.mem_cons_of_mem _ ha, hR⟩

namespace Snippet

/-! ## 2. Renamings and alike values -/

/-- Which marks, scopes and sources of one run stand for which of another. -/
@[ext] structure Renaming where
  mark : Nat → Nat → Prop
  scope : Nat → Nat → Prop
  source : Nat → Nat → Prop

namespace Renaming

/-- A renaming that says more than another one. -/
protected structure Le (ρ σ : Renaming) : Prop where
  mark : ∀ a b, ρ.mark a b → σ.mark a b
  scope : ∀ a b, ρ.scope a b → σ.scope a b
  source : ∀ a b, ρ.source a b → σ.source a b

theorem Le.refl (ρ : Renaming) : ρ.Le ρ := ⟨fun _ _ h => h, fun _ _ h => h, fun _ _ h => h⟩

theorem Le.trans {ρ σ τ : Renaming} (h : ρ.Le σ) (k : σ.Le τ) : ρ.Le τ :=
  ⟨fun a b r => k.mark a b (h.mark a b r), fun a b r => k.scope a b (h.scope a b r),
    fun a b r => k.source a b (h.source a b r)⟩

/-- Each number stands for one number, on either side. -/
def OneToOne (R : Nat → Nat → Prop) : Prop :=
  ∀ a a' b b', R a a' → R b b' → (a = b ↔ a' = b')

theorem OneToOne.eq_of_self {R : Nat → Nat → Prop} (hR : OneToOne R) {a b : Nat} (h : R a a)
    (k : R a b) : a = b := (hR a a a b h k).mp rfl

theorem oneToOne_eq : OneToOne Eq := by
  intro a a' b b' h k
  rw [h, k]

/-- A renaming that keeps apart what is told apart on either side. -/
structure Faithful (ρ : Renaming) : Prop where
  mark : OneToOne ρ.mark
  scope : OneToOne ρ.scope
  source : OneToOne ρ.source

theorem OneToOne.insert {R : Nat → Nat → Prop} (hR : OneToOne R) {m n : Nat}
    (hm : ∀ a b, R a b → a < m ∧ b < n) (k : Nat) :
    OneToOne fun a b => R a b ∨ ∃ i < k, a = m + i ∧ b = n + i := by
  intro a a' b b' ha hb
  rcases ha with ha | ⟨i, _, rfl, rfl⟩ <;> rcases hb with hb | ⟨j, _, rfl, rfl⟩
  · exact hR a a' b b' ha hb
  · have := hm a a' ha
    omega
  · have := hm b b' hb
    omega
  · omega

/-- The next numbers extend the numbers that stand for themselves. -/
theorem diagonal_insert (n k a b : Nat) :
    (a = b ∧ a < n ∨ ∃ i < k, a = n + i ∧ b = n + i) ↔ a = b ∧ a < n + k := by
  constructor
  · rintro (⟨rfl, hlt⟩ | ⟨i, hi, rfl, rfl⟩)
    · exact ⟨rfl, by omega⟩
    · exact ⟨rfl, by omega⟩
  · rintro ⟨rfl, hlt⟩
    by_cases ha : a < n
    · exact .inl ⟨rfl, ha⟩
    · exact .inr ⟨a - n, by omega, by omega, by omega⟩

theorem OneToOne.mono {R T : Nat → Nat → Prop} (hR : OneToOne R) (hT : ∀ a b, T a b → R a b) :
    OneToOne T := fun a a' b b' ha hb => hR a a' b b' (hT a a' ha) (hT b b' hb)

/-- A renaming in which the next marks stand for each other as well. -/
def withMarks (ρ : Renaming) (m n k : Nat) : Renaming :=
  { ρ with mark := fun a b => ρ.mark a b ∨ ∃ i < k, a = m + i ∧ b = n + i }

/-- A renaming in which the next scopes stand for each other as well. -/
def withScopes (ρ : Renaming) (m n k : Nat) : Renaming :=
  { ρ with scope := fun a b => ρ.scope a b ∨ ∃ i < k, a = m + i ∧ b = n + i }

/-- A renaming in which the next sources stand for each other as well. -/
def withSources (ρ : Renaming) (m n k : Nat) : Renaming :=
  { ρ with source := fun a b => ρ.source a b ∨ ∃ i < k, a = m + i ∧ b = n + i }

theorem le_withMarks (ρ : Renaming) (m n k : Nat) : ρ.Le (ρ.withMarks m n k) :=
  ⟨fun _ _ => .inl, fun _ _ h => h, fun _ _ h => h⟩

theorem le_withScopes (ρ : Renaming) (m n k : Nat) : ρ.Le (ρ.withScopes m n k) :=
  ⟨fun _ _ h => h, fun _ _ => .inl, fun _ _ h => h⟩

theorem le_withSources (ρ : Renaming) (m n k : Nat) : ρ.Le (ρ.withSources m n k) :=
  ⟨fun _ _ h => h, fun _ _ h => h, fun _ _ => .inl⟩

end Renaming

/-- Values without numbers in them. -/
def Value.isPlain : Value → Bool
  | .array _ _ | .object _ _ | .pattern _ _ | .closure _ _ => false
  | _ => true

/-- Values that differ in their numbers only, and there as a renaming says. -/
inductive Value.Alike (ρ : Renaming) : Value → Value → Prop
  | plain {v : Value} (h : v.isPlain) : Value.Alike ρ v v
  | array {m m' items items'} (hm : ρ.mark m m')
      (h : List.Forall₂ (Value.Alike ρ) items items') :
      Value.Alike ρ (.array m items) (.array m' items')
  | object {m m' fields fields'} (hm : ρ.mark m m')
      (h : Fields.Rel (Value.Alike ρ) fields fields') :
      Value.Alike ρ (.object m fields) (.object m' fields')
  | pattern {s s' p} (hs : ρ.source s s') : Value.Alike ρ (.pattern s p) (.pattern s' p)
  | closure {m m' f i i' s s'} (hm : ρ.mark m m') (hi : ρ.scope i i') (hs : ρ.source s s') :
      Value.Alike ρ (.closure m ⟨f, i, s⟩) (.closure m' ⟨f, i', s'⟩)

abbrev ItemsAlike (ρ : Renaming) : List Value → List Value → Prop :=
  List.Forall₂ (Value.Alike ρ)

abbrev FieldsAlike (ρ : Renaming) : Fields Value → Fields Value → Prop :=
  Fields.Rel (Value.Alike ρ)

/-- Both nothing, or alike values. -/
abbrev OptionAlike (ρ : Renaming) : Option Value → Option Value → Prop :=
  Option.Rel (Value.Alike ρ)

namespace Value

variable {ρ σ : Renaming}

mutual

theorem holdsClosure_eq {v w : Value} : Alike ρ v w → v.holdsClosure = w.holdsClosure
  | .plain _ => rfl
  | .array _ h => by simp only [holdsClosure, anyHoldsClosure_eq h]
  | .object _ h => by simp only [holdsClosure, anyFieldHoldsClosure_eq h]
  | .pattern _ => rfl
  | .closure _ _ _ => rfl

theorem anyHoldsClosure_eq {vs ws : List Value} :
    ItemsAlike ρ vs ws → anyHoldsClosure vs = anyHoldsClosure ws
  | .nil => rfl
  | .cons h t => by simp only [anyHoldsClosure, holdsClosure_eq h, anyHoldsClosure_eq t]

theorem anyFieldHoldsClosure_eq {fs gs : Fields Value} :
    FieldsAlike ρ fs gs → anyFieldHoldsClosure fs = anyFieldHoldsClosure gs
  | .nil => rfl
  | .cons _ h t => by simp only [anyFieldHoldsClosure, holdsClosure_eq h, anyFieldHoldsClosure_eq t]

end

/-! ## 3. The scopes that a value captures -/

mutual

/-- The scopes of the closures in a value. -/
def captured : Value → List Nat
  | .closure _ c => [c.scope]
  | .array _ items => capturedItems items
  | .object _ fields => capturedFields fields
  | _ => []

def capturedItems : List Value → List Nat
  | [] => []
  | v :: rest => v.captured ++ capturedItems rest

def capturedFields : List (String × Value) → List Nat
  | [] => []
  | (_, v) :: rest => v.captured ++ capturedFields rest

end

mutual

theorem captured_eq_nil : ∀ {v : Value}, v.holdsClosure = false → v.captured = []
  | .array _ _, h => capturedItems_eq_nil h
  | .object _ _, h => capturedFields_eq_nil h
  | .undefined, _ | .null, _ | .bool _, _ | .number _, _ | .text _, _ | .pattern _ _, _
  | .builtin _, _ => rfl

theorem capturedItems_eq_nil : ∀ {vs : List Value}, anyHoldsClosure vs = false →
    capturedItems vs = []
  | [], _ => rfl
  | v :: rest, h => by
    rw [anyHoldsClosure, Bool.or_eq_false_iff] at h
    rw [capturedItems, captured_eq_nil h.1, capturedItems_eq_nil h.2, List.nil_append]

theorem capturedFields_eq_nil : ∀ {fs : List (String × Value)}, anyFieldHoldsClosure fs = false →
    capturedFields fs = []
  | [], _ => rfl
  | (_, v) :: rest, h => by
    rw [anyFieldHoldsClosure, Bool.or_eq_false_iff] at h
    rw [capturedFields, captured_eq_nil h.1, capturedFields_eq_nil h.2, List.nil_append]

end

theorem mem_capturedItems {i : Nat} {vs : List Value} :
    i ∈ capturedItems vs ↔ ∃ v ∈ vs, i ∈ v.captured := by
  induction vs with
  | nil => simp [capturedItems]
  | cons v rest ih => simp [capturedItems, ih]

theorem mem_capturedFields {i : Nat} {fs : List (String × Value)} :
    i ∈ capturedFields fs ↔ ∃ f ∈ fs, i ∈ f.2.captured := by
  induction fs with
  | nil => simp [capturedFields]
  | cons f rest ih => simp [capturedFields, ih]

mutual

/-- Alike values capture scopes that stand for each other. -/
theorem captured_alike {v w : Value} :
    Alike ρ v w → List.Forall₂ ρ.scope v.captured w.captured
  | .plain h => by
    cases v <;> first | exact .nil | cases h
  | .array _ t => capturedItems_alike t
  | .object _ t => capturedFields_alike t
  | .pattern _ => .nil
  | .closure _ h _ => .cons h .nil

theorem capturedItems_alike {vs ws : List Value} :
    ItemsAlike ρ vs ws → List.Forall₂ ρ.scope (capturedItems vs) (capturedItems ws)
  | .nil => .nil
  | .cons h t => List.rel_append (captured_alike h) (capturedItems_alike t)

theorem capturedFields_alike {fs gs : Fields Value} :
    FieldsAlike ρ fs gs → List.Forall₂ ρ.scope (capturedFields fs) (capturedFields gs)
  | .nil => .nil
  | .cons _ h t => List.rel_append (captured_alike h) (capturedFields_alike t)

end

mutual

/-- Alike values stay alike under a renaming that says more of marks and sources, and as much of the
scopes that they capture. -/
theorem Alike.transfer {v w : Value} (hm : ∀ a b, ρ.mark a b → σ.mark a b)
    (hs : ∀ a b, ρ.source a b → σ.source a b)
    (hi : ∀ i, ∀ j ∈ w.captured, ρ.scope i j → σ.scope i j) : Alike ρ v w → Alike σ v w
  | .plain h => .plain h
  | .array h t => .array (hm _ _ h) (Alike.transferItems hm hs hi t)
  | .object h t => .object (hm _ _ h) (Alike.transferFields hm hs hi t)
  | .pattern h => .pattern (hs _ _ h)
  | .closure h i s => .closure (hm _ _ h) (hi _ _ (List.mem_singleton_self _) i) (hs _ _ s)

theorem Alike.transferItems {vs ws : List Value} (hm : ∀ a b, ρ.mark a b → σ.mark a b)
    (hs : ∀ a b, ρ.source a b → σ.source a b)
    (hi : ∀ i, ∀ j ∈ capturedItems ws, ρ.scope i j → σ.scope i j) :
    ItemsAlike ρ vs ws → ItemsAlike σ vs ws
  | .nil => .nil
  | .cons h t =>
    .cons (Alike.transfer hm hs (fun i j hj => hi i j (List.mem_append_left _ hj)) h)
      (Alike.transferItems hm hs (fun i j hj => hi i j (List.mem_append_right _ hj)) t)

theorem Alike.transferFields {fs gs : Fields Value} (hm : ∀ a b, ρ.mark a b → σ.mark a b)
    (hs : ∀ a b, ρ.source a b → σ.source a b)
    (hi : ∀ i, ∀ j ∈ capturedFields gs, ρ.scope i j → σ.scope i j) :
    FieldsAlike ρ fs gs → FieldsAlike σ fs gs
  | .nil => .nil
  | .cons n h t =>
    .cons n (Alike.transfer hm hs (fun i j hj => hi i j (List.mem_append_left _ hj)) h)
      (Alike.transferFields hm hs (fun i j hj => hi i j (List.mem_append_right _ hj)) t)

end

/-- Only values with closures in them depend on which scopes stand for each other. -/
theorem Alike.settle {v w : Value} (h : Alike ρ v w) (hm : ρ.mark = σ.mark)
    (hs : ρ.source = σ.source) (hc : v.holdsClosure = true → ρ = σ) : Alike σ v w := by
  cases hv : v.holdsClosure with
  | true => exact hc hv ▸ h
  | false =>
    have hnone : w.captured = [] := captured_eq_nil (holdsClosure_eq h ▸ hv)
    exact h.transfer (fun _ _ => hm ▸ id) (fun _ _ => hs ▸ id) fun i j hj => by
      rw [hnone] at hj
      cases hj

theorem Alike.mono {v w : Value} (hle : ρ.Le σ) (h : Alike ρ v w) : Alike σ v w :=
  h.transfer hle.mark hle.source fun i j _ => hle.scope i j

end Value

theorem ItemsAlike.mono {ρ σ : Renaming} {vs ws : List Value} (hle : ρ.Le σ)
    (h : ItemsAlike ρ vs ws) : ItemsAlike σ vs ws :=
  h.imp fun _ _ hvw => Value.Alike.mono hle hvw

theorem FieldsAlike.mono {ρ σ : Renaming} {fs gs : Fields Value} (hle : ρ.Le σ)
    (h : FieldsAlike ρ fs gs) : FieldsAlike σ fs gs :=
  h.imp fun _ _ hvw => Value.Alike.mono hle hvw

namespace Value

mutual

/-- A document becomes alike values, wherever its marks begin. -/
theorem ofJson_alike (m n : Nat) : ∀ j : Json, ∃ k, (ofJson m j).2 = m + k ∧
    (ofJson n j).2 = n + k ∧ ∀ ρ : Renaming, (∀ i < k, ρ.mark (m + i) (n + i)) →
      Alike ρ (ofJson m j).1 (ofJson n j).1
  | .null | .bool _ | .number _ | .string _ => ⟨0, rfl, rfl, fun _ _ => .plain rfl⟩
  | .array items => by
    obtain ⟨k, hm, hn, h⟩ := ofItems_alike (m + 1) (n + 1) items
    refine ⟨k + 1, by simp only [ofJson]; omega, by simp only [ofJson]; omega, fun ρ hρ => ?_⟩
    refine .array (hρ 0 (Nat.succ_pos k)) (h ρ fun i hi => ?_)
    rw [Nat.add_assoc, Nat.add_assoc, Nat.add_comm 1]
    exact hρ (i + 1) (Nat.succ_lt_succ hi)
  | .object fields => by
    obtain ⟨k, hm, hn, h⟩ := ofFields_alike (m + 1) (n + 1) fields
    refine ⟨k + 1, by simp only [ofJson]; omega, by simp only [ofJson]; omega, fun ρ hρ => ?_⟩
    refine .object (hρ 0 (Nat.succ_pos k)) (h ρ fun i hi => ?_)
    rw [Nat.add_assoc, Nat.add_assoc, Nat.add_comm 1]
    exact hρ (i + 1) (Nat.succ_lt_succ hi)

theorem ofItems_alike (m n : Nat) : ∀ js : List Json, ∃ k, (ofItems m js).2 = m + k ∧
    (ofItems n js).2 = n + k ∧ ∀ ρ : Renaming, (∀ i < k, ρ.mark (m + i) (n + i)) →
      ItemsAlike ρ (ofItems m js).1 (ofItems n js).1
  | [] => ⟨0, rfl, rfl, fun _ _ => .nil⟩
  | j :: rest => by
    obtain ⟨k, hm, hn, h⟩ := ofJson_alike m n j
    obtain ⟨l, hm', hn', h'⟩ := ofItems_alike (m + k) (n + k) rest
    refine ⟨k + l, ?_, ?_, fun ρ hρ => ?_⟩
    · simp only [ofItems, hm, hm']
      omega
    · simp only [ofItems, hn, hn']
      omega
    · simp only [ofItems, hm, hn]
      refine .cons (h ρ fun i hi => hρ i (by omega)) (h' ρ fun i hi => ?_)
      rw [Nat.add_assoc, Nat.add_assoc]
      exact hρ (k + i) (by omega)

theorem ofFields_alike (m n : Nat) : ∀ js : List (String × Json), ∃ k,
    (ofFields m js).2 = m + k ∧ (ofFields n js).2 = n + k ∧
    ∀ ρ : Renaming, (∀ i < k, ρ.mark (m + i) (n + i)) →
      FieldsAlike ρ (ofFields m js).1 (ofFields n js).1
  | [] => ⟨0, rfl, rfl, fun _ _ => .nil⟩
  | (key, j) :: rest => by
    obtain ⟨k, hm, hn, h⟩ := ofJson_alike m n j
    obtain ⟨l, hm', hn', h'⟩ := ofFields_alike (m + k) (n + k) rest
    refine ⟨k + l, ?_, ?_, fun ρ hρ => ?_⟩
    · simp only [ofFields, hm, hm']
      omega
    · simp only [ofFields, hn, hn']
      omega
    · simp only [ofFields, hm, hn]
      refine .cons key (h ρ fun i hi => hρ i (by omega)) (h' ρ fun i hi => ?_)
      rw [Nat.add_assoc, Nat.add_assoc]
      exact hρ (k + i) (by omega)

end

end Value

namespace Renaming

/-- A renaming that renames nothing. -/
structure Diagonal (ρ : Renaming) : Prop where
  mark : ∀ a b, ρ.mark a b → a = b
  scope : ∀ a b, ρ.scope a b → a = b
  source : ∀ a b, ρ.source a b → a = b

end Renaming

namespace Value

variable {ρ : Renaming}

mutual

/-- Where nothing is renamed, alike values are the same value. -/
theorem Alike.eq {v w : Value} (hρ : ρ.Diagonal) : Alike ρ v w → v = w
  | .plain _ => rfl
  | .array hm h => by rw [hρ.mark _ _ hm, Alike.eqItems hρ h]
  | .object hm h => by rw [hρ.mark _ _ hm, Alike.eqFields hρ h]
  | .pattern hs => by rw [hρ.source _ _ hs]
  | .closure hm hi hs => by rw [hρ.mark _ _ hm, hρ.scope _ _ hi, hρ.source _ _ hs]

theorem Alike.eqItems {vs ws : List Value} (hρ : ρ.Diagonal) : ItemsAlike ρ vs ws → vs = ws
  | .nil => rfl
  | .cons h t => by rw [Alike.eq hρ h, Alike.eqItems hρ t]

theorem Alike.eqFields {fs gs : Fields Value} (hρ : ρ.Diagonal) : FieldsAlike ρ fs gs → fs = gs
  | .nil => rfl
  | .cons _ h t => by rw [Alike.eq hρ h, Alike.eqFields hρ t]

end

mutual

/-- A value whose numbers stand for themselves is alike to no other value. -/
theorem Alike.eq_of_self {v w : Value} (hρ : ρ.Faithful) :
    Alike ρ v w → Alike ρ v v → v = w
  | .plain _, _ => rfl
  | .array hm h, .array km k => by rw [hρ.mark.eq_of_self km hm, Alike.eqItems_of_self hρ h k]
  | .object hm h, .object km k => by rw [hρ.mark.eq_of_self km hm, Alike.eqFields_of_self hρ h k]
  | .pattern hs, .pattern ks => by rw [hρ.source.eq_of_self ks hs]
  | .closure hm hi hs, .closure km ki ks => by
    rw [hρ.mark.eq_of_self km hm, hρ.scope.eq_of_self ki hi, hρ.source.eq_of_self ks hs]

theorem Alike.eqItems_of_self {vs ws : List Value} (hρ : ρ.Faithful) :
    ItemsAlike ρ vs ws → ItemsAlike ρ vs vs → vs = ws
  | .nil, _ => rfl
  | .cons h t, .cons k u => by rw [Alike.eq_of_self hρ h k, Alike.eqItems_of_self hρ t u]

theorem Alike.eqFields_of_self {fs gs : Fields Value} (hρ : ρ.Faithful) :
    FieldsAlike ρ fs gs → FieldsAlike ρ fs fs → fs = gs
  | .nil, _ => rfl
  | .cons _ h t, .cons _ k u => by
    rw [Alike.eq_of_self hρ h k, Alike.eqFields_of_self hρ t u]

end

end Value

namespace Value

variable {ρ : Renaming}

/-! ## 4. What a single value shows -/

theorem kind_eq {v w : Value} (h : Alike ρ v w) : v.kind = w.kind := by
  cases h <;> rfl

theorem kindOf_eq {v w : Value} (h : Alike ρ v w) : v.kindOf = w.kindOf := by
  cases h <;> rfl

theorem isNullish_eq {v w : Value} (h : Alike ρ v w) : v.isNullish = w.isNullish := by
  cases h <;> rfl

theorem isCallable_eq {v w : Value} (h : Alike ρ v w) : v.isCallable = w.isCallable := by
  cases h <;> rfl

theorem truthy_eq {v w : Value} (h : Alike ρ v w) : v.truthy = w.truthy := by
  cases h <;> rfl

theorem isTextual_eq {v w : Value} (h : Alike ρ v w) : v.isTextual = w.isTextual := by
  cases h <;> rfl

mutual

theorem toNumber_eq {v w : Value} : Alike ρ v w → v.toNumber = w.toNumber
  | .plain _ => rfl
  | .array _ h => by simp only [toNumber, itemsNumber_eq h]
  | .object _ _ => rfl
  | .pattern _ => rfl
  | .closure _ _ _ => rfl

theorem itemsNumber_eq {vs ws : List Value} : ItemsAlike ρ vs ws → itemsNumber vs = itemsNumber ws
  | .nil => rfl
  | .cons h .nil => by simp only [itemsNumber, toNumber_eq h]
  | .cons _ (.cons _ _) => by simp only [itemsNumber, List.isEmpty_cons, Bool.false_eq_true,
      if_false]

end

mutual

theorem display_eq {v w : Value} : Alike ρ v w → v.display = w.display
  | .plain _ => rfl
  | .array _ h => by simp only [display, displayItems_eq h]
  | .object _ _ => rfl
  | .pattern _ => rfl
  | .closure _ _ _ => rfl

theorem displayItems_eq {vs ws : List Value} :
    ItemsAlike ρ vs ws → displayItems vs = displayItems ws
  | .nil => rfl
  | .cons h t => by simp only [displayItems, isNullish_eq h, display_eq h, displayItems_eq t]

end

mutual

theorem toJson_eq {v w : Value} : Alike ρ v w → v.toJson = w.toJson
  | .plain _ => rfl
  | .array _ h => by simp only [toJson, itemsJson_eq h]
  | .object _ h => by simp only [toJson, fieldsJson_eq h]
  | .pattern _ => rfl
  | .closure _ _ _ => rfl

theorem itemsJson_eq {vs ws : List Value} : ItemsAlike ρ vs ws → itemsJson vs = itemsJson ws
  | .nil => rfl
  | .cons h t => by simp only [itemsJson, toJson_eq h, itemsJson_eq t]

theorem fieldsJson_eq {fs gs : Fields Value} : FieldsAlike ρ fs gs → fieldsJson fs = fieldsJson gs
  | .nil => rfl
  | .cons _ h t => by simp only [fieldsJson, toJson_eq h, fieldsJson_eq t]

end

/-! ## 5. Two values together -/

theorem Alike.of_eq_plain {v w : Value} (h : v = w) (hv : v.isPlain) : Alike ρ v w :=
  h ▸ .plain hv

theorem Alike.toPrimitive {v w : Value} (h : Alike ρ v w) :
    Alike ρ v.toPrimitive w.toPrimitive := by
  cases h with
  | plain hv =>
    cases v <;> first | exact .plain rfl | cases hv
  | array hm t =>
    exact .of_eq_plain (congrArg Value.text (display_eq (.array hm t))) rfl
  | object hm t =>
    exact .of_eq_plain (congrArg Value.text (display_eq (.object hm t))) rfl
  | pattern _ => exact .plain rfl
  | closure hm hi hs => exact .closure hm hi hs

theorem compare?_eq {a a' b b' : Value} (h : Alike ρ a a') (k : Alike ρ b b') :
    a.compare? b = a'.compare? b' := by
  have hp := h.toPrimitive
  have hq := k.toPrimitive
  have hx := toNumber_eq hp
  have hy := toNumber_eq hq
  unfold compare?
  generalize a.toPrimitive = p at *
  generalize a'.toPrimitive = p' at *
  generalize b.toPrimitive = q at *
  generalize b'.toPrimitive = q' at *
  rcases hp with hp | hp | hp | hp | hp <;> rcases hq with hq | hq | hq | hq | hq <;>
    first | rfl | simp only [hx, hy]

/-- Values are the same value on one side just when they are on the other. -/
theorem strictEq_eq (hρ : ρ.Faithful) {a a' b b' : Value} (h : Alike ρ a a') (k : Alike ρ b b') :
    a.strictEq b = a'.strictEq b' := by
  -- what has a mark or a source is compared by its number, which the renaming keeps apart
  have hsame {R : Nat → Nat → Prop} (hR : Renaming.OneToOne R) {m m' n n' : Nat} (hm : R m m')
      (hn : R n n') : (m == n) = (m' == n') := by
    rw [Bool.eq_iff_iff, beq_iff_eq, beq_iff_eq]
    exact hR _ _ _ _ hm hn
  cases h with
  | plain hv =>
    cases k with
    | plain _ => rfl
    | _ => cases a <;> first | rfl | cases hv
  | array hm _ =>
    cases k with
    | plain hv => cases b <;> first | rfl | cases hv
    | array hn _ => exact hsame hρ.mark hm hn
    | _ => rfl
  | object hm _ =>
    cases k with
    | plain hv => cases b <;> first | rfl | cases hv
    | object hn _ => exact hsame hρ.mark hm hn
    | _ => rfl
  | pattern hs =>
    cases k with
    | plain hv => cases b <;> first | rfl | cases hv
    | pattern ht => simp only [strictEq, hsame hρ.source hs ht]
    | _ => rfl
  | closure hm _ _ =>
    cases k with
    | plain hv => cases b <;> first | rfl | cases hv
    | closure hn _ _ => exact hsame hρ.mark hm hn
    | _ => rfl

theorem Alike.boolToNumber {v w : Value} (h : Alike ρ v w) :
    Alike ρ v.boolToNumber w.boolToNumber := by
  cases h with
  | plain hv => cases v <;> first | exact .plain rfl | cases hv
  | array hm t => exact .array hm t
  | object hm t => exact .object hm t
  | pattern hs => exact .pattern hs
  | closure hm hi hs => exact .closure hm hi hs

theorem looseEqPlain_eq (hρ : ρ.Faithful) {a a' b b' : Value} (h : Alike ρ a a')
    (k : Alike ρ b b') : a.looseEqPlain b = a'.looseEqPlain b' := by
  have hab := strictEq_eq hρ h k
  have ha := fun t : String => strictEq_eq hρ h.toPrimitive (.plain (v := .text t) rfl)
  have hb := fun t : String => strictEq_eq hρ (.plain (v := .text t) rfl) k.toPrimitive
  have hx := toNumber_eq h.toPrimitive
  have hy := toNumber_eq k.toPrimitive
  cases h with
  | plain hv =>
    cases k with
    | plain _ => rfl
    | _ =>
      cases a <;> simp only [looseEqPlain, isCompound, if_true, if_false, Bool.false_eq_true,
        hab, hb, hy]
  | _ =>
    cases k with
    | plain hv =>
      cases b <;> simp only [looseEqPlain, isCompound, if_true, if_false, Bool.false_eq_true,
        hab, ha, hx]
    | _ => simp only [looseEqPlain, hab]

theorem looseEq_eq (hρ : ρ.Faithful) {a a' b b' : Value} (h : Alike ρ a a') (k : Alike ρ b b') :
    a.looseEq b = a'.looseEq b' := by
  unfold looseEq
  rw [isNullish_eq h, isNullish_eq k, looseEqPlain_eq hρ h.boolToNumber k.boolToNumber]

/-- Operators give values without numbers in them, and the same on both sides. -/
theorem applyBinary_eq (hρ : ρ.Faithful) (op : BinaryOp) {a a' b b' : Value} (h : Alike ρ a a')
    (k : Alike ρ b b') : a.applyBinary op b = a'.applyBinary op b' := by
  unfold applyBinary
  rw [isTextual_eq h, isTextual_eq k, display_eq h, display_eq k, toNumber_eq h, toNumber_eq k,
    compare?_eq h k, looseEq_eq hρ h k, strictEq_eq hρ h k]

theorem isPlain_applyBinary (op : BinaryOp) (a b : Value) : (a.applyBinary op b).isPlain := by
  cases op with
  | add =>
    show (if a.isTextual || b.isTextual then Value.text _ else Value.number _).isPlain = true
    split <;> rfl
  | _ => rfl

theorem Alike.applyBinary (hρ : ρ.Faithful) (op : BinaryOp) {a a' b b' : Value} (h : Alike ρ a a')
    (k : Alike ρ b b') : Alike ρ (a.applyBinary op b) (a'.applyBinary op b') :=
  .of_eq_plain (applyBinary_eq hρ op h k) (isPlain_applyBinary op a b)

theorem Alike.applyUnary (op : UnaryOp) {v w : Value} (h : Alike ρ v w) :
    Alike ρ (v.applyUnary op) (w.applyUnary op) := by
  cases op with
  | not => exact .of_eq_plain (congrArg (fun b => Value.bool !b) (truthy_eq h)) rfl
  | negate => exact .of_eq_plain (congrArg (fun x => Value.number (-x)) (toNumber_eq h)) rfl
  | plus => exact .of_eq_plain (congrArg Value.number (toNumber_eq h)) rfl
  | kindOf => exact .of_eq_plain (congrArg Value.text (kindOf_eq h)) rfl

end Value

/-! ## 6. Lists of values -/

section Lists

variable {ρ : Renaming} {vs ws : List Value} {v w : Value}

theorem ItemsAlike.get? (h : ItemsAlike ρ vs ws) (n : Nat) : OptionAlike ρ vs[n]? ws[n]? := by
  induction h generalizing n with
  | nil => exact .none
  | cons h _ ih =>
    cases n with
    | zero => exact .some h
    | succ n => exact ih n

theorem OptionAlike.getD {v w : Option Value} (h : OptionAlike ρ v w) :
    Value.Alike ρ (v.getD .undefined) (w.getD .undefined) := by
  cases h with
  | none => exact .plain rfl
  | some h => exact h

theorem OptionAlike.isSome_eq {v w : Option Value} (h : OptionAlike ρ v w) :
    v.isSome = w.isSome := by
  cases h <;> rfl

theorem ItemsAlike.argument (h : ItemsAlike ρ vs ws) (n : Nat) :
    Value.Alike ρ (argument vs n) (argument ws n) := (h.get? n).getD

theorem ItemsAlike.isEmpty_eq (h : ItemsAlike ρ vs ws) : vs.isEmpty = ws.isEmpty := by
  cases h <;> rfl

theorem ItemsAlike.reverse (h : ItemsAlike ρ vs ws) : ItemsAlike ρ vs.reverse ws.reverse :=
  List.rel_reverse h

theorem ItemsAlike.any_eq (h : ItemsAlike ρ vs ws) {f g : Value → Bool}
    (hfg : ∀ v w, Value.Alike ρ v w → f v = g w) : vs.any f = ws.any g := by
  induction h with
  | nil => rfl
  | cons h _ ih => rw [List.any_cons, List.any_cons, hfg _ _ h, ih]

theorem ItemsAlike.map_eq (h : ItemsAlike ρ vs ws) {α : Type} {f g : Value → α}
    (hfg : ∀ v w, Value.Alike ρ v w → f v = g w) : vs.map f = ws.map g := by
  induction h with
  | nil => rfl
  | cons h _ ih => rw [List.map_cons, List.map_cons, hfg _ _ h, ih]

theorem ItemsAlike.findIdx?_eq (h : ItemsAlike ρ vs ws) {f g : Value → Bool}
    (hfg : ∀ v w, Value.Alike ρ v w → f v = g w) : vs.findIdx? f = ws.findIdx? g := by
  induction h with
  | nil => rfl
  | cons h _ ih => rw [List.findIdx?_cons, List.findIdx?_cons, hfg _ _ h, ih]

/-- Values without numbers in them are alike to themselves. -/
theorem ItemsAlike.plain (h : ∀ v ∈ vs, v.isPlain) : ItemsAlike ρ vs vs :=
  List.forall₂_same.mpr fun v hv => .plain (h v hv)

theorem baseArgument_eq (h : Value.Alike ρ v w) : baseArgument v = baseArgument w := by
  have hn := Value.toNumber_eq h
  unfold baseArgument
  cases h with
  | plain _ => rfl
  | _ => simp only [hn]

/-- The functions of the language cannot tell alike arguments apart. -/
theorem applyBuiltin_eq (b : Builtin) (h : ItemsAlike ρ vs ws) :
    applyBuiltin b vs = applyBuiltin b ws := by
  have hfirst := h.argument 0
  have hnumber := Value.toNumber_eq hfirst
  have hdisplay := Value.display_eq hfirst
  unfold applyBuiltin
  cases b with
  | parseInt => simp only [hdisplay, baseArgument_eq (h.argument 1)]
  | stringify =>
    have hjson := Value.toJson_eq hfirst
    generalize argument vs 0 = v at *
    generalize argument ws 0 = w at *
    cases hfirst with
    | closure _ _ _ => rfl
    | plain _ => rfl
    | _ => simp only [hjson]
  | isArray =>
    generalize argument vs 0 = v at *
    generalize argument ws 0 = w at *
    cases hfirst <;> rfl
  | boolean => simp only [Value.truthy_eq hfirst]
  | _ => simp only [hdisplay, hnumber, h.isEmpty_eq, h.map_eq fun _ _ => Value.toNumber_eq]

theorem isPlain_applyBuiltin (b : Builtin) (args : List Value) : (applyBuiltin b args).isPlain := by
  cases b with
  | stringify =>
    unfold applyBuiltin
    dsimp only
    split <;> rfl
  | isArray =>
    unfold applyBuiltin
    dsimp only
    split <;> rfl
  | _ => rfl

theorem ItemsAlike.applyBuiltin (b : Builtin) (h : ItemsAlike ρ vs ws) :
    Value.Alike ρ (applyBuiltin b vs) (applyBuiltin b ws) :=
  .of_eq_plain (applyBuiltin_eq b h) (isPlain_applyBuiltin b vs)

end Lists

end Snippet
end TraceViewer
