import TraceViewer.Proofs.Number.Order
import TraceViewer.Proofs.Number.Rounding
import TraceViewer.Proofs.Snippet.Running

/-!
# Units of texts

Indexing, `charAt`, `slice`, splitting and loops over a text count its characters, and `length`
counts the code units of UTF-16.  The two agree exactly for the texts without characters beyond
U+FFFF.
-/

namespace TraceViewer.Snippet

open TraceViewer.Text

/-! ## 1. Positions -/

/-- A number that is whole and not below zero. -/
structure IsPosition (x : Float) : Prop where
  isWhole : Number.isWhole x = true
  toInt_nonneg : 0 ≤ Number.toInt x

namespace IsPosition

variable {x : Float} (h : IsPosition x)
include h

theorem isFinite : Number.isFinite x = true := by
  have hwhole := h.isWhole
  unfold Number.isWhole at hwhole
  unfold Number.isFinite
  cases hparts : Number.Binary.ofFloat? x with
  | none =>
    rw [hparts] at hwhole
    cases hwhole
  | some b => rfl

theorem wholePart_eq_zero (hsign : Number.isNegative x = true) : Number.wholePart x = 0 := by
  have hnonneg := h.toInt_nonneg
  unfold Number.toInt at hnonneg
  rw [if_pos hsign] at hnonneg
  omega

/-- Only negative zero has a sign. -/
theorem eq_neg_zero (hsign : Number.isNegative x = true) : x = -0 := by
  have hzero := h.wholePart_eq_zero hsign
  have hbits := Number.toBits_of_isWhole h.isWhole (by rw [hzero]; decide)
  rw [if_pos hzero] at hbits
  by_contra hne
  rw [Number.eq_zero_of_toBits hbits hne] at hsign
  exact absurd hsign (by decide)

theorem isNaN_eq_false : Number.isNaN x = false := by
  obtain ⟨b, hb⟩ := Option.isSome_iff_exists.mp h.isFinite
  exact Number.isNaN_of_ofFloat? hb

theorem zero_le : 0 ≤ x := by
  cases hsign : Number.isNegative x with
  | true =>
    rw [h.eq_neg_zero hsign]
    decide
  | false => exact Number.zero_le_of_isFinite h.isFinite hsign

theorem toSize_eq : Number.toSize x = min (Number.wholePart x) Number.maxSize := by
  unfold Number.toSize Number.toNatWithin
  cases hsign : Number.isNegative x with
  | true =>
    rw [Bool.or_true, h.wholePart_eq_zero hsign, Nat.zero_min]
    rfl
  | false =>
    rw [h.isNaN_eq_false, h.isFinite]
    rfl

theorem position?_eq : position? x = some (min (Number.wholePart x) Number.maxSize) := by
  have hge : x >= 0 := h.zero_le
  unfold position?
  rw [h.isWhole, decide_eq_true hge, ← h.toSize_eq]
  rfl

theorem relativePosition_eq (length default : Nat) :
    relativePosition (.number x) length default = min (Number.wholePart x) length := by
  have hsign : (Number.isNegative x && Number.wholePart x != 0) = false := by
    cases hsign : Number.isNegative x with
    | true =>
      rw [h.wholePart_eq_zero hsign]
      rfl
    | false => rfl
  show (if Number.isNaN x = true then 0
    else if Number.isFinite x = true then
      if (Number.isNegative x && Number.wholePart x != 0) = true then length - Number.wholePart x
      else min (Number.wholePart x) length
    else if Number.isNegative x = true then 0 else length) = _
  rw [h.isNaN_eq_false, h.isFinite, hsign]
  rfl

end IsPosition

theorem isPosition_zero : IsPosition 0 ∧ Number.wholePart 0 = 0 := by
  have hparts : Number.Binary.ofFloat? 0 = some ⟨false, 0, -1074⟩ := by decide
  have hwhole := Number.Binary.whole_of_ofFloat? hparts rfl
  refine ⟨⟨hwhole.1, ?_⟩, hwhole.2⟩
  unfold Number.toInt
  rw [hwhole.2]
  split <;> decide

/-! ## 2. Code units -/

/-- A character beyond U+FFFF takes two code units, any other one. -/
theorem units16_eq (s : String) :
    units16 s = s.toList.length + s.toList.countP fun c => decide (0xffff < c.toNat) := by
  have hfold (cs : List Char) (n : Nat) :
      cs.foldl (fun n c => n + if 0xffff < c.toNat then 2 else 1) n =
        n + (cs.length + cs.countP fun c => decide (0xffff < c.toNat)) := by
    induction cs generalizing n with
    | nil => rfl
    | cons c cs ih =>
      rw [List.foldl_cons, ih, List.length_cons, List.countP_cons]
      by_cases hc : 0xffff < c.toNat
      · rw [if_pos hc, if_pos (decide_eq_true hc)]
        omega
      · rw [if_neg hc, if_neg (by simpa using hc)]
        omega
  exact (hfold s.toList 0).trans (Nat.zero_add _)

theorem units16_eq_length_iff {s : String} :
    units16 s = s.toList.length ↔ ∀ c ∈ s.toList, c.toNat ≤ 0xffff := by
  rw [units16_eq, Nat.add_eq_left, List.countP_eq_zero]
  refine forall₂_congr fun c _ => ?_
  rw [decide_eq_true_iff, not_lt]

theorem ofChar_ne_empty (c : Char) : ofChar c ≠ "" := by
  intro h
  have hchars := congrArg String.toList h
  rw [ofChar, String.toList_ofList, String.toList_empty] at hchars
  cases hchars

/-! ## 3. Rounds of a loop -/

section Rounds

variable (S : Setting) (inner : Evaluators) (env : Env) (name : String) (body : Stmt)

/-- One round of a loop for an item, in a scope of its own; the flow that leaves the loop, if one
does. -/
def round (item : Value) : Run (Option Flow) :=
  Eval.inScope S env env.scope [(name, item)] (fun flow => flow.bind Flow.returned)
    fun env => Eval.iterate inner env body

/-- A loop over items that counts its rounds: the flow that left it, none where it went through all
items, and how many rounds it took. -/
def countedRounds : List Value → Run (Option Flow × Nat)
  | [] => return (none, 0)
  | item :: rest => do
    match ← round S inner env name body item with
    | some flow => return (some flow, 1)
    | none => (fun out => (out.1, out.2 + 1)) <$> countedRounds rest

/-- A loop over the items of a value that counts its rounds. -/
def countedLoop (e : Expr) : Run (Option Flow × Nat) := do
  let items ← Eval.loopItems (← inner.eval env e)
  countedRounds S inner env name body items

theorem eachRound_eq (items : List Value) : Eval.eachRound S inner env name body items =
    (fun out => out.1.getD .normal) <$> countedRounds S inner env name body items := by
  induction items with
  | nil => rfl
  | cons item rest ih =>
    unfold Eval.eachRound countedRounds
    rw [map_bind]
    refine bind_congr fun step => ?_
    cases step with
    | some flow => rfl
    | none =>
      dsimp only
      rw [ih, Functor.map_map]

/-- The count changes nothing. -/
theorem execBody_eachLoop (e : Expr) : Eval.execBody S inner env (.eachLoop name e body) =
    (fun out => out.1.getD .normal) <$> countedLoop S inner env name body e := by
  unfold countedLoop
  rw [map_bind]
  refine bind_congr fun v => ?_
  rw [map_bind]
  exact bind_congr fun items => eachRound_eq S inner env name body items

variable {S inner env name body}

/-- A loop takes one round for each item, unless one leaves it. -/
theorem rounds_eq {items : List Value} {m m' : Machine} {flow? : Option Flow} {k : Nat}
    (h : countedRounds S inner env name body items m = .ok (flow?, k) m') :
    k ≤ items.length ∧ (flow? = none → k = items.length) := by
  induction items generalizing m k with
  | nil =>
    cases h
    exact ⟨le_rfl, fun _ => rfl⟩
  | cons item rest ih =>
    unfold countedRounds at h
    obtain ⟨step, m₁, -, h⟩ := Run.eq_ok_of_bind h
    cases step with
    | some flow =>
      cases h
      exact ⟨Nat.le_add_left .., fun h => by cases h⟩
    | none =>
      obtain ⟨out, hrest, heq⟩ := Run.eq_ok_of_map h
      cases heq
      obtain ⟨hle, hall⟩ := ih hrest
      exact ⟨Nat.succ_le_succ hle, fun h => congrArg (· + 1) (hall h)⟩

end Rounds

/-! ## 4. The operations -/

section Operations

variable {s : String} {x : Float} (library : Regex.Library) (limits : Limits) (call : Call)

/-- The character at a position; positions beyond all sizes are beyond the text. -/
theorem getElem?_position (hsize : s.toList.length ≤ Number.maxSize) :
    s.toList[min (Number.wholePart x) Number.maxSize]? = s.toList[Number.wholePart x]? := by
  rcases Nat.le_total (Number.wholePart x) Number.maxSize with hle | hle
  · rw [Nat.min_eq_left hle]
  · rw [Nat.min_eq_right hle, List.getElem?_eq_none hsize,
      List.getElem?_eq_none (hsize.trans hle)]

theorem keyed_position (hsize : s.toList.length ≤ Number.maxSize) (hx : IsPosition x) :
    keyed (.text s) (.number x) =
      pure ((s.toList[Number.wholePart x]?.map fun c => .text (ofChar c)).getD .undefined) := by
  unfold keyed
  dsimp only
  rw [hx.position?_eq, Option.bind_some, getElem?_position hsize]
  cases s.toList[Number.wholePart x]? <;> rfl

theorem method_charAt (hsize : s.toList.length ≤ Number.maxSize) (hx : IsPosition x) :
    method library limits call (.text s) "charAt" [.number x] =
      pure (.text ((s.toList[Number.wholePart x]?.map ofChar).getD "")) := by
  have hget : s.toList[Number.toSize (argument [.number x] 0).toNumber]? =
      s.toList[Number.wholePart x]? := by
    show s.toList[Number.toSize x]? = _
    rw [hx.toSize_eq, getElem?_position hsize]
  unfold method builtinMethod textMethod
  dsimp only
  rw [hget]
  cases s.toList[Number.wholePart x]? <;> rfl

theorem method_slice (hx : IsPosition x) :
    method library limits call (.text s) "slice" [.number 0, .number x] =
      pure (textOf (s.toList.take (Number.wholePart x))) := by
  have hslice : method library limits call (.text s) "slice" [.number 0, .number x] =
      pure (textOf (between s.toList (relativePosition (.number 0) s.toList.length 0)
        (relativePosition (.number x) s.toList.length s.toList.length))) := rfl
  have hzero : relativePosition (.number 0) s.toList.length 0 = 0 := by
    rw [isPosition_zero.1.relativePosition_eq, isPosition_zero.2, Nat.zero_min]
  rw [hslice, hzero, hx.relativePosition_eq, between, List.drop_zero, Nat.sub_zero,
    ← List.take_take, List.take_length]

theorem method_split (m : Machine) (hsize : s.toList.length ≤ Number.maxSize) :
    method library limits call (.text s) "split" [.text ""] m =
      Run.newArray (s.toList.map fun c => .text (ofChar c)) m := by
  have hsplit : method library limits call (.text s) "split" [.text ""] =
      Run.newArray ((s.toList.map fun c => .text (ofChar c)).take Number.maxSize) := rfl
  rw [hsplit, List.take_of_length_le]
  rwa [List.length_map]

end Operations

/-! ## 5. The two units -/

/-- The operations of a text count it in units of which a text `t` has `measure t`. -/
structure CountsBy (measure : String → Nat) (s : String) : Prop where
  index {x : Float} (hx : IsPosition x) :
    (Number.wholePart x < measure s →
        ∃ c, keyed (.text s) (.number x) = pure (.text (ofChar c))) ∧
      (measure s ≤ Number.wholePart x → keyed (.text s) (.number x) = pure .undefined)
  charAt (library : Regex.Library) (limits : Limits) (call : Call) {x : Float} (hx : IsPosition x) :
    ∃ t, method library limits call (.text s) "charAt" [.number x] = pure (.text t) ∧
      (t ≠ "" ↔ Number.wholePart x < measure s)
  split (library : Regex.Library) (limits : Limits) (call : Call) (m : Machine) :
    ∃ mark parts m', method library limits call (.text s) "split" [.text ""] m =
      .ok (.array mark parts) m' ∧ parts.length = measure s
  rounds {S : Setting} {inner : Evaluators} {env : Env} {name : String} {body : Stmt} {e : Expr}
    {m m₀ m' : Machine} {k : Nat} (he : inner.eval env e m = .ok (.text s) m₀)
    (hloop : countedLoop S inner env name body e m = .ok (none, k) m') :
    Eval.execBody S inner env (.eachLoop name e body) m = .ok .normal m' ∧ k = measure s
  slice (library : Regex.Library) (limits : Limits) (call : Call) {x : Float} (hx : IsPosition x)
    (hle : Number.wholePart x ≤ measure s) :
    ∃ t, method library limits call (.text s) "slice" [.number 0, .number x] = pure (.text t) ∧
      measure t = Number.wholePart x

variable {s : String}

/-- A measure that gives the number of characters for a text and its beginnings. -/
theorem countsBy_of_eq {measure : String → Nat} (hsize : s.toList.length ≤ Number.maxSize)
    (hs : measure s = s.toList.length)
    (htake : ∀ k ≤ s.toList.length, measure (.ofList (s.toList.take k)) = k) :
    CountsBy measure s where
  index {x} hx := by
    rw [hs, keyed_position hsize hx]
    constructor
    · intro hlt
      rw [List.getElem?_eq_getElem hlt]
      exact ⟨_, rfl⟩
    · intro hle
      rw [List.getElem?_eq_none hle]
      rfl
  charAt library limits call {x} hx := by
    refine ⟨_, method_charAt library limits call hsize hx, ?_⟩
    rw [hs]
    rcases Nat.lt_or_ge (Number.wholePart x) s.toList.length with hlt | hle
    · rw [List.getElem?_eq_getElem hlt]
      exact iff_of_true (ofChar_ne_empty _) hlt
    · rw [List.getElem?_eq_none hle]
      exact iff_of_false (fun hne => hne rfl) hle.not_gt
  split library limits call m := by
    rw [hs, method_split library limits call m hsize]
    exact ⟨_, _, _, rfl, List.length_map _⟩
  rounds {S inner env name body e m m₀ m' k} he hloop := by
    have hitems : Eval.loopItems (.text s) =
        pure (s.toList.map fun c => Value.text (ofChar c)) := rfl
    have hrun : Eval.execBody S inner env (.eachLoop name e body) m = .ok .normal m' := by
      rw [execBody_eachLoop, map_eq_pure_bind, Run.bind_ok hloop]
      rfl
    unfold countedLoop at hloop
    rw [Run.bind_ok he, hitems, pure_bind] at hloop
    refine ⟨hrun, ?_⟩
    rw [hs, (rounds_eq hloop).2 rfl, List.length_map]
  slice library limits call {x} hx hle := by
    rw [hs] at hle
    exact ⟨_, method_slice library limits call hx, htake _ hle⟩

/-- Splitting gives a part for each character, so the measure is their number. -/
theorem CountsBy.measure_eq {measure : String → Nat} (h : CountsBy measure s)
    (hsize : s.toList.length ≤ Number.maxSize) : measure s = s.toList.length := by
  obtain ⟨mark, parts, m', hrun, hparts⟩ :=
    h.split Regex.engine {} (fun _ _ => pure .undefined) ⟨{}, 0, {}, {}, 0⟩
  rw [method_split _ _ _ _ hsize] at hrun
  cases hrun
  rw [← hparts, List.length_map]

/-- `length` gives the code units of a text, and all other operations count its characters.  So they
count in the unit of `length` exactly when no character takes two code units. -/
theorem countsBy_units16_iff (hsize : s.toList.length ≤ Number.maxSize) :
    property (.text s) "length" = pure (.number (Number.ofNat (units16 s))) ∧
      CountsBy (·.toList.length) s ∧
      (CountsBy units16 s ↔ ∀ c ∈ s.toList, c.toNat ≤ 0xffff) := by
  have hlength {k : Nat} (hk : k ≤ s.toList.length) :
      (String.ofList (s.toList.take k)).toList.length = k := by
    rw [String.toList_ofList, List.length_take, Nat.min_eq_left hk]
  refine ⟨rfl, countsBy_of_eq hsize rfl fun k => hlength, ?_, ?_⟩
  · exact fun h => units16_eq_length_iff.mp (h.measure_eq hsize)
  · intro h
    refine countsBy_of_eq hsize (units16_eq_length_iff.mpr h) fun k hk => ?_
    rw [units16_eq_length_iff.mpr, hlength hk]
    intro c hc
    rw [String.toList_ofList] at hc
    exact h c (List.mem_of_mem_take hc)

theorem countsBy_units16_letters :
    "ab".toList.length ≤ Number.maxSize ∧ CountsBy units16 "ab" := by
  have hsize : "ab".toList.length ≤ Number.maxSize := by decide
  have hunits : "ab".toList.all (fun c => decide (c.toNat ≤ 0xffff)) = true := by decide
  refine ⟨hsize, (countsBy_units16_iff hsize).2.2.mpr fun c hc => ?_⟩
  exact of_decide_eq_true (List.all_eq_true.mp hunits c hc)

/-- Splitting the one character gives one part, but its `length` is two. -/
theorem not_countsBy_units16_smiley : ¬CountsBy units16 "😀" := by
  have hsize : "😀".toList.length ≤ Number.maxSize := by decide
  exact fun h => absurd (h.measure_eq hsize) (by decide)

end TraceViewer.Snippet
