import Mathlib.Order.Monotone.Basic
import TraceViewer.Snippet.Production

/-!
# How tall syntax trees get

The reader of a source text counts how deep it is nested, and gives a chain's levels back when the
chain ends.  The finished chain may then be the head of another, so the count bounds each chain but
not the tree: a text that is nowhere nested deeper than the limit may give a tree that is taller.
`readExpr_height_le` and `readProgram_height_le` are the bounds that do hold.
-/

namespace TraceViewer.Snippet

/-! ## 1. Heights -/

mutual

/-- The number of expressions and statements on the longest way from the root to a leaf. -/
def Expr.height : Expr → Nat
  | .number _ | .text _ | .bool _ | .null | .undefined | .pattern _ | .ident _ | .update .. => 1
  | .array items => exprsHeight items + 1
  | .object entries => entriesHeight entries + 1
  | .unary _ operand => operand.height + 1
  | .binary _ left right | .logical _ left right => max left.height right.height + 1
  | .cond test yes no => max test.height (max yes.height no.height) + 1
  | .assign _ _ value => value.height + 1
  | .member object _ _ => object.height + 1
  | .index object key _ => max object.height key.height + 1
  | .call callee args _ => max callee.height (exprsHeight args) + 1
  | .template _ holes => exprsHeight holes + 1
  | .function f => f.height + 1

def Function.height : Function → Nat
  | .mk _ _ body => body.height

def Body.height : Body → Nat
  | .expr e => e.height
  | .block statements => stmtsHeight statements

def Stmt.height : Stmt → Nat
  | .declare bindings => bindingsHeight bindings + 1
  | .function f => f.height + 1
  | .cond test yes no => max test.height (max yes.height (stmtOptionHeight no)) + 1
  | .loop test body => max test.height body.height + 1
  | .countLoop init test update body =>
    max (stmtOptionHeight init)
      (max (exprOptionHeight test) (max (exprOptionHeight update) body.height)) + 1
  | .eachLoop _ items body => max items.height body.height + 1
  | .leave | .continue | .empty => 1
  | .return value => exprOptionHeight value + 1
  | .block body => stmtsHeight body + 1
  | .expr e => e.height + 1

def exprsHeight : List Expr → Nat
  | [] => 0
  | e :: rest => max e.height (exprsHeight rest)

def entriesHeight : List (String × Expr) → Nat
  | [] => 0
  | (_, e) :: rest => max e.height (entriesHeight rest)

def bindingsHeight : List (String × Option Expr) → Nat
  | [] => 0
  | (_, value) :: rest => max (exprOptionHeight value) (bindingsHeight rest)

def stmtsHeight : List Stmt → Nat
  | [] => 0
  | s :: rest => max s.height (stmtsHeight rest)

def exprOptionHeight : Option Expr → Nat
  | none => 0
  | some e => e.height

def stmtOptionHeight : Option Stmt → Nat
  | none => 0
  | some s => s.height

end

theorem Expr.height_pos (e : Expr) : 0 < e.height := by
  cases e <;> simp [Expr.height]

theorem Stmt.height_pos (s : Stmt) : 0 < s.height := by
  cases s <;> simp [Stmt.height]

/-! ## 2. Productions that keep count -/

/-- From every cursor with `k` levels left the production leaves `k'` where it succeeds, and gives
something with the property. -/
def Gives {α : Type} (k k' : Nat) (p : Production α) (Q : α → Prop) : Prop :=
  ∀ c a c', c.depth + k = maxSourceNesting → p c = .ok a c' →
    c'.depth + k' = maxSourceNesting ∧ Q a

/-- Productions that leave as many levels as there were. -/
abbrev Keeps {α : Type} (p : Production α) : Prop := ∀ k, Gives k k p fun _ => True

section Combinators

variable {α β : Type} {k k' k'' : Nat} {p : Production α} {Q Q' : α → Prop} {R : β → Prop}

theorem Gives.imp (h : Gives k k' p Q) (hQ : ∀ a, Q a → Q' a) : Gives k k' p Q' :=
  fun c a c' hc ha => (h c a c' hc ha).imp_right (hQ a)

theorem Gives.pure {a : α} (ha : Q a) : Gives k k (pure a) Q := by
  intro c b c' hc hb
  cases hb
  exact ⟨hc, ha⟩

theorem Gives.throw {e : Error} : Gives k k' (throw e : Production α) Q :=
  fun _ _ _ _ h => nomatch h

theorem Gives.bind {f : α → Production β} (h : Gives k k' p Q)
    (hf : ∀ a, Q a → Gives k' k'' (f a) R) : Gives k k'' (p >>= f) R := by
  intro c b c' hc hb
  have hb : EStateM.bind p f c = .ok b c' := hb
  unfold EStateM.bind at hb
  split at hb
  · next a m ha =>
    obtain ⟨hm, hQ⟩ := h c a m hc ha
    exact hf a hQ m b c' hm hb
  · cases hb

theorem Gives.map {f : α → β} (h : Gives k k' p Q) (hf : ∀ a, Q a → R (f a)) :
    Gives k k' (f <$> p) R := by
  rw [← bind_pure_comp]
  exact h.bind fun a ha => .pure (hf a ha)

theorem Gives.ite {c : Prop} [Decidable c] {p' : Production α} (h : c → Gives k k' p Q)
    (h' : ¬c → Gives k k' p' Q) : Gives k k' (if c then p else p') Q := by
  split
  · next hc => exact h hc
  · next hc => exact h' hc

/-- Looking at the cursor tells how deep it is. -/
theorem Gives.get {f : Cursor → Production β}
    (hf : ∀ c, c.depth + k = maxSourceNesting → Gives k k' (f c) R) : Gives k k' (get >>= f) R :=
  fun c b c' hc hb => hf c hc c b c' hc hb

theorem Gives.set {c : Cursor} (hc : c.depth + k' = maxSourceNesting) :
    Gives k k' (set c : Production Unit) fun _ => True := by
  intro _ _ _ _ h
  cases h
  exact ⟨hc, trivial⟩

theorem Keeps.modify {f : Cursor → Cursor} (hf : ∀ c, (f c).depth = c.depth) :
    Keeps (modify f : Production Unit) := by
  intro k c _ _ hc h
  cases h
  exact ⟨(congrArg (· + k) (hf c)).trans hc, trivial⟩

theorem descend_apply (c : Cursor) :
    Production.descend c =
      if maxSourceNesting < c.depth + 1 then
        .error (.badSource c.offset .tooDeep) { c with depth := c.depth + 1 }
      else .ok () { c with depth := c.depth + 1 } := by
  show (if maxSourceNesting < c.depth + 1 then
      (throw (.badSource c.offset .tooDeep) : Production Unit)
    else (Pure.pure () : Production Unit)) { c with depth := c.depth + 1 } = _
  split <;> rfl

theorem descend_bind (p : Production α) (c : Cursor) : (do Production.descend; p) c =
    if maxSourceNesting < c.depth + 1 then
      .error (.badSource c.offset .tooDeep) { c with depth := c.depth + 1 }
    else p { c with depth := c.depth + 1 } := by
  show EStateM.bind Production.descend (fun _ => p) c = _
  unfold EStateM.bind
  rw [descend_apply]
  by_cases hdeep : maxSourceNesting < c.depth + 1
  · rw [if_pos hdeep, if_pos hdeep]
  · rw [if_neg hdeep, if_neg hdeep]

/-- Going deeper takes a level, where one is left. -/
theorem Gives.descend (hk : ∀ i, k = i + 1 → Gives i k' p Q) :
    Gives k k' (do Production.descend; p) Q := by
  intro c a c' hc h
  rw [descend_bind] at h
  by_cases hdeep : maxSourceNesting < c.depth + 1
  · rw [if_pos hdeep] at h
    cases h
  · rw [if_neg hdeep] at h
    exact hk (k - 1) (by omega) _ a c' (by dsimp only; omega) h

/-- No more levels are left than there are. -/
theorem Gives.of_le (h : k ≤ maxSourceNesting → Gives k k' p Q) : Gives k k' p Q :=
  fun c a c' hc ha => h (hc ▸ Nat.le_add_left k c.depth) c a c' hc ha

/-- Coming back up gives levels back, where so many were taken. -/
theorem gives_ascend {levels : Nat} (hk : k + levels ≤ maxSourceNesting) :
    Gives k (k + levels) (Production.ascend levels) fun _ => True := by
  intro c _ _ hc h
  cases h
  exact ⟨by dsimp only; omega, trivial⟩

theorem Gives.nested (hp : ∀ i, k = i + 1 → Gives i i p Q) : Gives k k (Production.nested p) Q := by
  refine .of_le fun hk => .descend fun i hi => ?_
  subst hi
  exact (hp i rfl).bind fun a ha => (gives_ascend hk).bind fun _ _ => .pure ha

theorem gives_fail {w : Wanted} : Gives k k' (Production.fail w : Production α) Q :=
  .get fun _ _ => .throw

theorem gives_stall : Gives k k' (Production.stall : Production α) Q := .get fun _ _ => .throw

end Combinators

/-! ## 3. Tokens -/

namespace Production

theorem keeps_advance : Keeps advance := by
  refine .modify fun c => ?_
  unfold Cursor.advance
  split <;> rfl

theorem keeps_eat (p : Punct) : Keeps (eat p) := by
  intro k
  refine .get fun c _ => ?_
  split
  · exact (keeps_advance k).bind fun _ _ => .pure trivial
  · exact .pure trivial

theorem keeps_eatWord (word : String) : Keeps (eatWord word) := by
  intro k
  refine .get fun c _ => ?_
  split
  · exact (keeps_advance k).bind fun _ _ => .pure trivial
  · exact .pure trivial

theorem keeps_expect (p : Punct) : Keeps (expect p) := by
  intro k
  refine (keeps_eat p k).bind fun found _ => ?_
  split
  · exact gives_fail
  · exact .pure trivial

theorem keeps_expectEnd : Keeps expectEnd := by
  intro k
  refine .get fun c _ => ?_
  split
  · exact gives_fail
  · exact .pure trivial

theorem keeps_skipSemicolon : Keeps skipSemicolon := fun k =>
  (keeps_eat .semicolon k).bind fun _ _ => .pure trivial

theorem keeps_bindingName : Keeps bindingName := by
  intro k
  refine .get fun c _ => ?_
  split
  · split
    · exact gives_fail
    · exact (keeps_advance k).bind fun _ _ => .pure trivial
  · exact gives_fail

theorem keeps_bound : Keeps bound := fun _ => .get fun _ _ => .pure trivial

theorem keeps_paramsFrom (acc : List String) (rounds : Nat) : Keeps (paramsFrom acc rounds) := by
  intro k
  induction rounds generalizing acc with
  | zero => exact gives_stall
  | succ rounds ih =>
    refine (keeps_bindingName k).bind fun name _ => (keeps_eat _ k).bind fun closed _ => ?_
    split
    · exact .pure trivial
    · exact (keeps_expect _ k).bind fun _ _ => ih (name :: acc)

theorem keeps_params : Keeps params := by
  intro k
  refine (keeps_eat _ k).bind fun closed _ => ?_
  split
  · exact .pure trivial
  · exact (keeps_bound k).bind fun rounds _ => keeps_paramsFrom [] rounds k

theorem keeps_arrowParams? : Keeps arrowParams? := by
  intro k
  refine .get fun c _ => ?_
  split
  · split
    · exact .pure trivial
    · exact (keeps_advance k).bind fun _ _ => (keeps_advance k).bind fun _ _ => .pure trivial
  · split
    · exact (keeps_advance k).bind fun _ _ => (keeps_params k).bind fun _ _ =>
        (keeps_expect _ k).bind fun _ _ => .pure trivial
    · exact .pure trivial
  · exact .pure trivial

theorem keeps_entryKey : Keeps entryKey := by
  intro k
  refine .get fun c _ => (keeps_advance k).bind fun _ _ => ?_
  split
  · exact .pure trivial
  · exact .pure trivial
  · exact .pure trivial
  · exact gives_fail

/-! ## 4. Bounds for each number of levels -/

end Production

mutual

/-- How tall an expression can be that is read with a number of levels left: a chain of each of the
six ranks of operators on top of a unary expression, as the condition of a conditional. -/
def tallest : Nat → Nat
  | 0 => 0
  | k + 1 => tallestUnary k + 6 * (k - 1) + 1

/-- How tall a unary expression can be: a chain of links on top of an array. -/
def tallestUnary : Nat → Nat
  | 0 => 0
  | k + 1 => max 2 (tallest k + k + 1)

end

/-- How tall a statement can be: a counting loop that starts with a declaration. -/
def tallestStmt : Nat → Nat
  | 0 => 0
  | 1 => 1
  | k + 2 => tallest (k + 1) + 2

theorem tallest_succ (k : Nat) : tallest (k + 1) = tallestUnary k + 6 * (k - 1) + 1 := by
  rw [tallest]

theorem tallestUnary_succ (k : Nat) : tallestUnary (k + 1) = max 2 (tallest k + k + 1) := by
  rw [tallestUnary]

theorem tallest_lt_succ (k : Nat) :
    tallest k < tallest (k + 1) ∧ tallestUnary k < tallestUnary (k + 1) := by
  induction k with
  | zero => decide
  | succ k ih =>
    have hpos : 0 < tallest (k + 1) := Nat.lt_of_le_of_lt (Nat.zero_le _) ih.1
    rw [tallest_succ (k + 1), tallestUnary_succ (k + 1)]
    constructor
    · rw [tallest_succ k]
      omega
    · rw [tallestUnary_succ k]
      omega

theorem tallest_mono : Monotone tallest :=
  monotone_nat_of_le_succ fun k => (tallest_lt_succ k).1.le

theorem tallestUnary_mono : Monotone tallestUnary :=
  monotone_nat_of_le_succ fun k => (tallest_lt_succ k).2.le

/-- No statement is taller than expressions may be. -/
theorem tallestStmt_le (k : Nat) : tallestStmt k ≤ tallest k := by
  match k with
  | 0 => exact Nat.le_refl 0
  | 1 => decide
  | k + 2 =>
    have hunary := (tallest_lt_succ k).2
    have hbase : 2 ≤ tallestUnary (k + 1) := by
      rw [tallestUnary_succ]
      exact Nat.le_max_left ..
    rw [tallestStmt, tallest_succ (k + 1), tallest_succ k]
    cases k with
    | zero =>
      have : tallestUnary 0 = 0 := by rw [tallestUnary]
      omega
    | succ k => omega

/-- A statement that has another in it takes a level more than that one. -/
theorem le_tallestStmt_succ {k n m : Nat} (hm : 0 < m) (hle : m ≤ tallestStmt k)
    (hn : n ≤ tallest k + 2) : n ≤ tallestStmt (k + 1) := by
  cases k with
  | zero =>
    rw [tallestStmt] at hle
    omega
  | succ k => rwa [tallestStmt]

theorem le_tallestStmt_of_le {k n : Nat} (hn : n ≤ tallest k + 1) : n ≤ tallestStmt (k + 1) := by
  cases k with
  | zero => exact hn
  | succ k =>
    rw [tallestStmt]
    omega

theorem exprsHeight_le {es : List Expr} {n : Nat} (h : ∀ e ∈ es, e.height ≤ n) :
    exprsHeight es ≤ n := by
  induction es with
  | nil => exact Nat.zero_le n
  | cons e rest ih =>
    rw [exprsHeight]
    exact Nat.max_le.mpr ⟨h e List.mem_cons_self, ih fun f hf => h f (List.mem_cons_of_mem _ hf)⟩

theorem entriesHeight_le {es : List (String × Expr)} {n : Nat} (h : ∀ e ∈ es, e.2.height ≤ n) :
    entriesHeight es ≤ n := by
  induction es with
  | nil => exact Nat.zero_le n
  | cons e rest ih =>
    rw [entriesHeight]
    exact Nat.max_le.mpr ⟨h e List.mem_cons_self, ih fun f hf => h f (List.mem_cons_of_mem _ hf)⟩

theorem stmtsHeight_le {ss : List Stmt} {n : Nat} (h : ∀ s ∈ ss, s.height ≤ n) :
    stmtsHeight ss ≤ n := by
  induction ss with
  | nil => exact Nat.zero_le n
  | cons s rest ih =>
    rw [stmtsHeight]
    exact Nat.max_le.mpr ⟨h s List.mem_cons_self, ih fun f hf => h f (List.mem_cons_of_mem _ hf)⟩

theorem bindingsHeight_le {bs : List (String × Option Expr)} {n : Nat}
    (h : ∀ b ∈ bs, exprOptionHeight b.2 ≤ n) : bindingsHeight bs ≤ n := by
  induction bs with
  | nil => exact Nat.zero_le n
  | cons b rest ih =>
    rw [bindingsHeight]
    exact Nat.max_le.mpr ⟨h b List.mem_cons_self, ih fun f hf => h f (List.mem_cons_of_mem _ hf)⟩

theorem forall_mem_reverse {α : Type} {P : α → Prop} {acc : List α} (hacc : ∀ b ∈ acc, P b) :
    ∀ b ∈ acc.reverse, P b := fun b hb => hacc b (List.mem_reverse.mp hb)

/-! ## 5. Productions of one level -/

/-- The productions give nothing that is too tall for the levels that are left. -/
structure Production.Level.Bounded (l : Production.Level) : Prop where
  statement : ∀ k, Gives k k l.statement fun s => s.height ≤ tallestStmt k
  assignment : ∀ k, Gives k k l.assignment fun e => e.height ≤ tallest k
  unary : ∀ k, Gives k k l.unary fun e => e.height ≤ tallestUnary k

namespace Production

section Level

variable {inner : Level} (h : inner.Bounded) (k : Nat)
include h

theorem gives_blockFrom {acc : List Stmt} (hacc : ∀ s ∈ acc, s.height ≤ tallestStmt k)
    (rounds : Nat) :
    Gives k k (blockFrom inner acc rounds) fun ss => ∀ s ∈ ss, s.height ≤ tallestStmt k := by
  induction rounds generalizing acc with
  | zero => exact gives_stall
  | succ rounds ih =>
    refine (keeps_eat _ k).bind fun closed _ => ?_
    split
    · exact .pure (forall_mem_reverse hacc)
    · refine .get fun c _ => ?_
      split
      · exact gives_fail
      · exact (h.statement k).bind fun s hs => ih (List.forall_mem_cons.mpr ⟨hs, hacc⟩)

theorem gives_block :
    Gives k k (block inner) fun ss => ∀ s ∈ ss, s.height ≤ tallestStmt k :=
  (keeps_expect _ k).bind fun _ _ => (keeps_bound k).bind fun rounds _ =>
    gives_blockFrom h k (List.forall_mem_nil _) rounds

theorem gives_functionRest (needsName : Bool) :
    Gives k k (functionRest inner needsName) fun f => f.height ≤ tallestStmt k := by
  let rest (name : Option String) : Production Function := do
    expect .parenOpen
    let params ← params
    return Function.mk name params (.block (← block inner))
  have hrest (name : Option String) : Gives k k (rest name) fun f => f.height ≤ tallestStmt k := by
    refine (keeps_expect _ k).bind fun _ _ => (keeps_params k).bind fun params _ =>
      (gives_block h k).bind fun ss hss => .pure ?_
    rw [Function.height, Body.height]
    exact stmtsHeight_le hss
  have hname (isNamed : Bool) :
      Gives k k (if isNamed = true then (some <$> bindingName) >>= rest else rest none)
        fun f => f.height ≤ tallestStmt k := by
    split
    · exact Gives.bind (Q := fun _ => True) ((keeps_bindingName k).map fun _ _ => trivial)
        fun name _ => hrest name
    · exact hrest none
  exact .get fun c _ => hname _

theorem gives_argumentsFrom {acc : List Expr} (hacc : ∀ e ∈ acc, e.height ≤ tallest k)
    (rounds : Nat) :
    Gives k k (argumentsFrom inner acc rounds) fun es => ∀ e ∈ es, e.height ≤ tallest k := by
  induction rounds generalizing acc with
  | zero => exact gives_stall
  | succ rounds ih =>
    refine (h.assignment k).bind fun e he => (keeps_eat _ k).bind fun closed _ => ?_
    have hacc : ∀ b ∈ e :: acc, b.height ≤ tallest k := List.forall_mem_cons.mpr ⟨he, hacc⟩
    split
    · exact .pure (forall_mem_reverse hacc)
    · exact (keeps_expect _ k).bind fun _ _ => ih hacc

theorem gives_arguments :
    Gives k k (arguments inner) fun es => ∀ e ∈ es, e.height ≤ tallest k := by
  refine (keeps_eat _ k).bind fun closed _ => ?_
  split
  · exact .pure (List.forall_mem_nil _)
  · exact (keeps_bound k).bind fun rounds _ =>
      gives_argumentsFrom h k (List.forall_mem_nil _) rounds

theorem gives_itemsFrom {acc : List Expr} (hacc : ∀ e ∈ acc, e.height ≤ tallest k)
    (rounds : Nat) :
    Gives k k (itemsFrom inner acc rounds) fun es => ∀ e ∈ es, e.height ≤ tallest k := by
  induction rounds generalizing acc with
  | zero => exact gives_stall
  | succ rounds ih =>
    refine (keeps_eat _ k).bind fun closed _ => ?_
    split
    · exact .pure (forall_mem_reverse hacc)
    · refine (h.assignment k).bind fun e he => .get fun c _ => ?_
      have hacc : ∀ b ∈ e :: acc, b.height ≤ tallest k := List.forall_mem_cons.mpr ⟨he, hacc⟩
      split
      · exact (keeps_expect _ k).bind fun _ _ => ih hacc
      · exact ih hacc

/-- A key without a value gives the variable of that name, whatever is left of levels. -/
theorem gives_entriesFrom {acc : List (String × Expr)}
    (hacc : ∀ e ∈ acc, e.2.height ≤ max 1 (tallest k)) (rounds : Nat) :
    Gives k k (entriesFrom inner acc rounds)
      fun es => ∀ e ∈ es, e.2.height ≤ max 1 (tallest k) := by
  induction rounds generalizing acc with
  | zero => exact gives_stall
  | succ rounds ih =>
    refine (keeps_eat _ k).bind fun closed _ => ?_
    split
    · exact .pure (forall_mem_reverse hacc)
    · refine (keeps_entryKey k).bind fun key _ => (keeps_eat _ k).bind fun colon _ => ?_
      have hrest (value : Expr) (hv : value.height ≤ max 1 (tallest k)) :
          Gives k k (do
            if !(← get).atPunct .braceClose then expect .comma
            entriesFrom inner ((key, value) :: acc) rounds)
            fun es => ∀ e ∈ es, e.2.height ≤ max 1 (tallest k) := by
        have hacc : ∀ b ∈ (key, value) :: acc, b.2.height ≤ max 1 (tallest k) :=
          List.forall_mem_cons.mpr ⟨hv, hacc⟩
        refine .get fun c _ => ?_
        split
        · exact (keeps_expect _ k).bind fun _ _ => ih hacc
        · exact ih hacc
      split
      · exact (h.assignment k).bind fun value hv =>
          hrest value (Nat.le_trans hv (Nat.le_max_right ..))
      · exact hrest (.ident key) (Nat.le_max_left ..)

theorem gives_hole (hole : Hole) :
    Gives k k (Production.hole inner hole) fun e => e.height ≤ tallest k := by
  unfold Production.hole
  split
  · exact .throw
  · refine .get fun outer houter => Gives.bind (.set ?_) fun _ _ =>
      (h.assignment k).bind fun e he => (keeps_expectEnd k).bind fun _ _ =>
        Gives.bind (Keeps.modify ?_ k) fun _ _ => .pure he
    · exact houter
    · exact fun _ => rfl

theorem gives_holes (hs : List Hole) :
    Gives k k (holes inner hs) fun es => ∀ e ∈ es, e.height ≤ tallest k := by
  induction hs with
  | nil => exact .pure (List.forall_mem_nil _)
  | cons hole rest ih =>
    exact (gives_hole h k hole).bind fun e he => ih.bind fun es hes =>
      .pure (List.forall_mem_cons.mpr ⟨he, hes⟩)

omit h in
theorem gives_pattern (offset : Nat) (body flags : String) :
    Gives k k (pattern offset body flags) fun e => e.height = 1 := by
  unfold pattern
  split
  · exact .throw
  · refine .get fun c _ => Gives.bind (Keeps.modify ?_ k) fun _ _ => .pure rfl
    exact fun _ => rfl

theorem gives_primary :
    Gives k k (primary inner) fun e => e.height ≤ max 2 (tallest k + 1) := by
  have hstmt := tallestStmt_le k
  refine .get fun start _ => (keeps_advance k).bind fun _ _ => ?_
  have hleaf {n : Nat} (hn : n = 1) : n ≤ max 2 (tallest k + 1) := by omega
  -- one case for each kind of token; words among them split once more
  split
  · exact .pure (hleaf rfl)
  · exact .pure (hleaf rfl)
  · exact (gives_pattern k _ _ _).imp fun e he => hleaf he
  · split
    · exact .pure (hleaf rfl)
    split
    · exact .pure (hleaf rfl)
    split
    · exact .pure (hleaf rfl)
    split
    · exact .pure (hleaf rfl)
    split
    · refine (gives_functionRest h k false).bind fun f hf => .pure ?_
      rw [Expr.height]
      omega
    split
    · exact .throw
    · exact .pure (hleaf rfl)
  · refine (gives_holes h k _).bind fun es hes => .pure ?_
    have := exprsHeight_le hes
    rw [Expr.height]
    omega
  · refine (h.assignment k).bind fun e he => (keeps_expect _ k).bind fun _ _ => .pure ?_
    omega
  · refine (keeps_bound k).bind fun rounds _ =>
      (gives_itemsFrom h k (List.forall_mem_nil _) rounds).bind fun es hes => .pure ?_
    have := exprsHeight_le hes
    rw [Expr.height]
    omega
  · refine (keeps_bound k).bind fun rounds _ =>
      (gives_entriesFrom h k (List.forall_mem_nil _) rounds).bind fun es hes => .pure ?_
    have := entriesHeight_le hes
    rw [Expr.height]
    omega
  · exact .throw

/-- The rest of a chain from where there is no index and no call: a member, or its end. -/
def memberLink (inner : Level) (links : Nat) (head : Expr) (guarded : Bool) (rounds : Nat)
    (isMember : Bool) : Production Expr := do
  if isMember then
    descend
    let lexeme := (← get).lexeme
    advance
    match lexeme with
    | .name property => linksFrom inner (links + 1) (.member head property guarded) rounds
    | _ => fail .propertyName
  else
    ascend links
    return head

/-- The links of a chain make it taller by one each, and there are no more of them than levels. -/
theorem gives_linksFrom {k room links n : Nat} {head : Expr} (hroom : k + links = room)
    (hmax : room ≤ maxSourceNesting) (hhead : head.height ≤ n) (hn : tallest k ≤ n)
    (rounds : Nat) :
    Gives k room (linksFrom inner links head rounds) fun e => e.height ≤ n + k := by
  induction rounds generalizing k links n head with
  | zero => exact gives_stall
  | succ rounds ih =>
    -- every link takes one level and makes the tree one taller, so the bound stays the same
    have hnext {i : Nat} (hi : k = i + 1) {e : Expr} (he : e.height ≤ n + 1) :
        Gives i room (linksFrom inner (links + 1) e rounds) fun e => e.height ≤ n + k := by
      have hle : tallest i ≤ tallest k := tallest_mono (by omega)
      exact (ih (by omega) he (by omega)).imp fun e he => by omega
    have hinner {i : Nat} (hi : k = i + 1) {m : Nat} (hm : m ≤ tallest i) : m ≤ n :=
      Nat.le_trans hm (Nat.le_trans (tallest_mono (by omega)) hn)
    refine (keeps_eat _ k).bind fun guarded _ => (keeps_eat _ k).bind fun isIndex _ => ?_
    split
    · refine .descend fun i hi => (h.assignment i).bind fun key hkey =>
        (keeps_expect _ i).bind fun _ _ => hnext hi ?_
      have := hinner hi hkey
      rw [Expr.height]
      omega
    refine (keeps_eat _ k).bind fun isCall _ => ?_
    split
    · refine .descend fun i hi => (gives_arguments h i).bind fun args hargs => hnext hi ?_
      have := hinner hi (exprsHeight_le hargs)
      rw [Expr.height]
      omega
    -- a member read after `?.` and one read after a dot go on alike
    have hmember (isMember : Bool) :
        Gives k room (memberLink inner links head guarded rounds isMember)
          fun e => e.height ≤ n + k := by
      unfold memberLink
      split
      · refine .descend fun i hi => .get fun c _ => (keeps_advance i).bind fun _ _ => ?_
        split
        · refine hnext hi ?_
          rw [Expr.height]
          omega
        · exact gives_fail
      · subst hroom
        exact (gives_ascend hmax).bind fun _ _ => .pure (Nat.le_add_right_of_le hhead)
    split
    · exact hmember true
    · exact (keeps_eat _ k).bind fun isMember _ => hmember isMember

theorem gives_postfixed : Gives k k (postfixed inner) fun e => e.height ≤ tallestUnary (k + 1) := by
  refine .of_le fun hmax => (gives_primary h k).bind fun head hhead =>
    (keeps_bound k).bind fun rounds _ => ?_
  have hn : tallest k ≤ max 2 (tallest k + 1) := by omega
  refine (gives_linksFrom h rfl hmax hhead hn rounds).bind fun e he => .get fun c _ => ?_
  split
  · split
    · refine (keeps_advance k).bind fun _ _ => .pure ?_
      rw [Expr.height, tallestUnary_succ]
      omega
    · exact gives_fail
  · refine .pure ?_
    -- a chain of links needs levels, and an array inside it then has one as well
    have hpos : k = 0 ∨ 0 < tallest k := by
      cases k with
      | zero => exact .inl rfl
      | succ k => exact .inr (Nat.lt_of_le_of_lt (Nat.zero_le _) (tallest_lt_succ k).1)
    rw [tallestUnary_succ]
    omega

theorem gives_unaryLevel :
    Gives k k (unaryLevel inner) fun e => e.height ≤ tallestUnary (k + 1) := by
  have hlt := (tallest_lt_succ k).2
  refine .get fun c _ => ?_
  split
  · refine (keeps_advance k).bind fun _ _ => (h.unary k).bind fun e he => ?_
    split
    · refine .pure ?_
      rw [Expr.height]
      omega
    · exact gives_fail
  · split
    · refine (keeps_advance k).bind fun _ _ => (h.unary k).bind fun e he => .pure ?_
      rw [Expr.height]
      omega
    · exact gives_postfixed h k

/-! ## 6. Chains of operators -/

omit h in
/-- The links of a chain of operators make it taller by one each.  The last operand needs a level of
its own. -/
theorem gives_operatorsFrom {α : Type} {op? : Punct → Option α} {join : α → Expr → Expr → Expr}
    (hjoin : ∀ op a b, (join op a b).height = max a.height b.height + 1)
    {operand : Production Expr} {bound : Nat → Nat} (hbound : Monotone bound) (hzero : bound 0 = 0)
    (hoperand : ∀ k, Gives k k operand fun e => e.height ≤ bound k)
    {k room links n : Nat} {left : Expr} (hroom : k + links = room)
    (hmax : room ≤ maxSourceNesting) (hleft : left.height ≤ n) (hn : bound k ≤ n) (rounds : Nat) :
    Gives k room (operatorsFrom op? join operand links left rounds)
      fun e => e.height ≤ n + (k - 1) := by
  induction rounds generalizing k links n left with
  | zero => exact gives_stall
  | succ rounds ih =>
    refine .get fun c _ => ?_
    dsimp only
    split
    · subst hroom
      exact (gives_ascend hmax).bind fun _ _ => .pure (Nat.le_add_right_of_le hleft)
    · next op _ =>
      refine (keeps_advance k).bind fun _ _ => .descend fun i hi =>
        (hoperand i).bind fun right hright => ?_
      -- an operand has a height, so it was not read without a level left
      have hpos : i ≠ 0 := by
        rintro rfl
        have := right.height_pos
        omega
      have hle : bound i ≤ bound k := hbound (by omega)
      have hnew : (join op left right).height ≤ n + 1 := by
        rw [hjoin]
        omega
      exact (ih (by omega) hnew (by omega)).imp fun e he => by omega

omit h in
theorem gives_operators {α : Type} {op? : Punct → Option α} {join : α → Expr → Expr → Expr}
    (hjoin : ∀ op a b, (join op a b).height = max a.height b.height + 1)
    {operand : Production Expr} {bound : Nat → Nat} (hbound : Monotone bound) (hzero : bound 0 = 0)
    (hoperand : ∀ k, Gives k k operand fun e => e.height ≤ bound k) :
    Gives k k (operators op? join operand) fun e => e.height ≤ bound k + (k - 1) :=
  .of_le fun hmax => (hoperand k).bind fun _ hleft => (keeps_bound k).bind fun rounds _ =>
    gives_operatorsFrom hjoin hbound hzero hoperand rfl hmax hleft (Nat.le_refl _) rounds

omit h in
/-- How tall an expression of some ranks of operators can be. -/
theorem gives_rank {α : Type} (op? : Punct → Option α) {join : α → Expr → Expr → Expr}
    (hjoin : ∀ op a b, (join op a b).height = max a.height b.height + 1)
    {operand : Production Expr} {rank : Nat}
    (hoperand : ∀ k, Gives k k operand fun e => e.height ≤ tallestUnary k + rank * (k - 1))
      (k : Nat) :
    Gives k k (operators op? join operand)
      fun e => e.height ≤ tallestUnary k + (rank + 1) * (k - 1) := by
  have hbound : Monotone fun k => tallestUnary k + rank * (k - 1) := by
    intro i j hij
    have := tallestUnary_mono hij
    have := Nat.mul_le_mul_left rank (Nat.sub_le_sub_right hij 1)
    dsimp only
    omega
  have hzero : tallestUnary 0 + rank * (0 - 1) = 0 := by
    rw [tallestUnary]
    rfl
  refine (gives_operators k hjoin hbound hzero hoperand).imp fun e he => ?_
  rw [Nat.add_mul, Nat.one_mul]
  omega

theorem gives_disjunction :
    Gives k k (disjunction inner) fun e => e.height ≤ tallestUnary k + 6 * (k - 1) := by
  have hbinary (op : BinaryOp) (a b : Expr) :
      (Expr.binary op a b).height = max a.height b.height + 1 := by rw [Expr.height]
  have hlogical (op : LogicalOp) (a b : Expr) :
      (Expr.logical op a b).height = max a.height b.height + 1 := by rw [Expr.height]
  have hunary (k : Nat) :
      Gives k k inner.unary fun e => e.height ≤ tallestUnary k + 0 * (k - 1) :=
    (h.unary k).imp fun e he => Nat.le_add_right_of_le he
  have hmultiplicative := gives_rank multiplicativeOp? hbinary hunary
  have hadditive := gives_rank additiveOp? hbinary hmultiplicative
  have hrelational := gives_rank relationalOp? hbinary hadditive
  have hequality := gives_rank equalityOp? hbinary hrelational
  have hconjunction := gives_rank andOp? hlogical hequality
  exact gives_rank orOp? hlogical hconjunction k

theorem gives_conditional :
    Gives k k (conditional inner) fun e => e.height ≤ tallest (k + 1) := by
  have hlt := (tallest_lt_succ k).1
  refine (gives_disjunction h k).bind fun test htest => (keeps_eat _ k).bind fun isCond _ => ?_
  have hsucc := tallest_succ k
  split
  · refine (h.assignment k).bind fun yes hyes => (keeps_expect _ k).bind fun _ _ =>
      (h.assignment k).bind fun no hno => .pure ?_
    rw [Expr.height]
    omega
  · exact .pure (by omega)

theorem gives_assignmentLevel :
    Gives k k (assignmentLevel inner) fun e => e.height ≤ tallest (k + 1) := by
  have hlt := (tallest_lt_succ k).1
  have hstmt := tallestStmt_le k
  refine (keeps_arrowParams? k).bind fun params _ => ?_
  split
  · next names =>
    -- the body of a function is read on the same level, whichever form it has
    have hfunction (b : Body) (hb : b.height ≤ tallest k) :
        (Expr.function (.mk none names b)).height ≤ tallest (k + 1) := by
      rw [Expr.height, Function.height]
      omega
    refine .get fun c _ => ?_
    split
    · refine Gives.bind ((gives_block h k).map fun ss hss => ?_) fun b hb =>
        .pure (hfunction b hb)
      rw [Body.height]
      exact Nat.le_trans (stmtsHeight_le hss) hstmt
    · refine Gives.bind ((h.assignment k).map fun e he => ?_) fun b hb => .pure (hfunction b hb)
      rwa [Body.height]
  · refine (gives_conditional h k).bind fun target htarget => .get fun c _ => ?_
    dsimp only
    split
    · exact .pure htarget
    · split
      · refine (keeps_advance k).bind fun _ _ => (h.assignment k).bind fun e he => .pure ?_
        rw [Expr.height]
        omega
      · exact gives_fail

/-! ## 7. Statements -/

theorem gives_bindingsFrom {acc : List (String × Option Expr)}
    (hacc : ∀ b ∈ acc, exprOptionHeight b.2 ≤ tallest k) (rounds : Nat) :
    Gives k k (bindingsFrom inner acc rounds)
      fun bs => ∀ b ∈ bs, exprOptionHeight b.2 ≤ tallest k := by
  induction rounds generalizing acc with
  | zero => exact gives_stall
  | succ rounds ih =>
    refine (keeps_bindingName k).bind fun name _ => (keeps_eat _ k).bind fun hasValue _ => ?_
    have hrest (value : Option Expr) (hv : exprOptionHeight value ≤ tallest k) :
        Gives k k (do
          let acc := (name, value) :: acc
          if ← eat .comma then bindingsFrom inner acc rounds else return acc.reverse)
          fun bs => ∀ b ∈ bs, exprOptionHeight b.2 ≤ tallest k := by
      have hacc : ∀ b ∈ (name, value) :: acc, exprOptionHeight b.2 ≤ tallest k :=
        List.forall_mem_cons.mpr ⟨hv, hacc⟩
      refine (keeps_eat _ k).bind fun more _ => ?_
      split
      · exact ih hacc
      · exact .pure (forall_mem_reverse hacc)
    split
    · refine Gives.bind ((h.assignment k).map fun e he => ?_) fun value hv => hrest value hv
      rwa [exprOptionHeight]
    · exact hrest none (Nat.zero_le _)

theorem gives_declaration :
    Gives k k (declaration inner) fun s => s.height ≤ tallest k + 1 := by
  refine (keeps_bound k).bind fun rounds _ =>
    (gives_bindingsFrom h k (List.forall_mem_nil _) rounds).bind fun bs hbs => .pure ?_
  rw [Stmt.height]
  exact Nat.succ_le_succ (bindingsHeight_le hbs)

theorem gives_unlessAt (p : Punct) :
    Gives k k (unlessAt inner p) fun e => exprOptionHeight e ≤ tallest k := by
  refine .get fun c _ => ?_
  split
  · exact .pure (Nat.zero_le _)
  · refine (h.assignment k).map fun e he => ?_
    rwa [exprOptionHeight]

theorem gives_loopInit :
    Gives k k (loopInit inner) fun s => stmtOptionHeight s ≤ tallest k + 1 := by
  refine .get fun c _ => ?_
  split
  · exact .pure (Nat.zero_le _)
  split
  · refine (keeps_advance k).bind fun _ _ => (gives_declaration h k).map fun s hs => ?_
    rwa [stmtOptionHeight]
  · refine (h.assignment k).bind fun e he => .pure ?_
    rw [stmtOptionHeight, Stmt.height]
    omega

theorem gives_forStatement :
    Gives k k (forStatement inner) fun s => s.height ≤ tallestStmt (k + 1) := by
  have hstmt := tallestStmt_le k
  refine (keeps_expect _ k).bind fun _ _ => .get fun c _ => ?_
  split
  · refine (keeps_advance k).bind fun _ _ => (keeps_bindingName k).bind fun name _ =>
      (keeps_advance k).bind fun _ _ => (h.assignment k).bind fun items hitems =>
        (keeps_expect _ k).bind fun _ _ => (h.statement k).bind fun body hbody =>
          .pure (le_tallestStmt_succ body.height_pos hbody ?_)
    rw [Stmt.height]
    omega
  · refine (gives_loopInit h k).bind fun init hinit => (keeps_expect _ k).bind fun _ _ =>
      (gives_unlessAt h k _).bind fun test htest => (keeps_expect _ k).bind fun _ _ =>
        (gives_unlessAt h k _).bind fun update hupdate => (keeps_expect _ k).bind fun _ _ =>
          (h.statement k).bind fun body hbody =>
            .pure (le_tallestStmt_succ body.height_pos hbody ?_)
    rw [Stmt.height]
    omega

theorem gives_condition : Gives k k (condition inner) fun e => e.height ≤ tallest k :=
  (keeps_expect _ k).bind fun _ _ => (h.assignment k).bind fun _ he =>
    (keeps_expect _ k).bind fun _ _ => .pure he

theorem gives_statementLevel :
    Gives k k (statementLevel inner) fun s => s.height ≤ tallestStmt (k + 1) := by
  have hstmt := tallestStmt_le k
  -- the statements are tried in the order of the reader: one step for each word that starts one
  have hleaf {s : Stmt} (hs : s.height = 1) : s.height ≤ tallestStmt (k + 1) :=
    le_tallestStmt_of_le (by omega)
  refine (keeps_eat _ k).bind fun isEmpty _ => .ite (fun _ => ?_) fun _ => ?_
  · exact .pure (hleaf rfl)
  refine .get fun c _ => .ite (fun _ => ?_) fun _ => ?_
  · refine (gives_block h k).bind fun ss hss => .pure (le_tallestStmt_of_le ?_)
    have := stmtsHeight_le hss
    rw [Stmt.height]
    omega
  refine (keeps_eatWord _ k).bind fun isFunction _ => .ite (fun _ => ?_) fun _ => ?_
  · refine (gives_functionRest h k true).bind fun f hf => .pure (le_tallestStmt_of_le ?_)
    rw [Stmt.height]
    omega
  refine .ite (fun _ => ?_) fun _ => ?_
  · exact (keeps_advance k).bind fun _ _ => (gives_declaration h k).bind fun s hs =>
      (keeps_skipSemicolon k).bind fun _ _ => .pure (le_tallestStmt_of_le hs)
  refine (keeps_eatWord _ k).bind fun isCond _ => .ite (fun _ => ?_) fun _ => ?_
  · refine (gives_condition h k).bind fun test htest => (h.statement k).bind fun yes hyes =>
      (keeps_eatWord _ k).bind fun hasElse _ => ?_
    have hcond (no : Option Stmt) (hno : stmtOptionHeight no ≤ tallestStmt k) :
        (Stmt.cond test yes no).height ≤ tallestStmt (k + 1) := by
      refine le_tallestStmt_of_le ?_
      rw [Stmt.height]
      omega
    split
    · refine Gives.bind ((h.statement k).map fun no hno => ?_) fun no hno => .pure (hcond no hno)
      rwa [stmtOptionHeight]
    · exact .pure (hcond none (Nat.zero_le _))
  refine (keeps_eatWord _ k).bind fun isLoop _ => .ite (fun _ => ?_) fun _ => ?_
  · refine (gives_condition h k).bind fun test htest => (h.statement k).bind fun body hbody =>
      .pure (le_tallestStmt_of_le ?_)
    rw [Stmt.height]
    omega
  refine (keeps_eatWord _ k).bind fun isFor _ => .ite (fun _ => ?_) fun _ => ?_
  · exact gives_forStatement h k
  refine (keeps_eatWord _ k).bind fun isBreak _ => .ite (fun _ => ?_) fun _ => ?_
  · exact (keeps_skipSemicolon k).bind fun _ _ => .pure (hleaf rfl)
  refine (keeps_eatWord _ k).bind fun isContinue _ => .ite (fun _ => ?_) fun _ => ?_
  · exact (keeps_skipSemicolon k).bind fun _ _ => .pure (hleaf rfl)
  refine (keeps_eatWord _ k).bind fun isReturn _ => .ite (fun _ => ?_) fun _ => ?_
  · refine .get fun c _ => ?_
    have hreturn (value : Option Expr) (hv : exprOptionHeight value ≤ tallest k) :
        Gives k k (do
          skipSemicolon
          return Stmt.return value) fun s => s.height ≤ tallestStmt (k + 1) := by
      refine (keeps_skipSemicolon k).bind fun _ _ => .pure (le_tallestStmt_of_le ?_)
      rw [Stmt.height]
      omega
    split
    · exact hreturn none (Nat.zero_le _)
    · refine Gives.bind ((h.assignment k).map fun e he => ?_) fun value hv => hreturn value hv
      rwa [exprOptionHeight]
  · refine (h.assignment k).bind fun e he => (keeps_skipSemicolon k).bind fun _ _ =>
      .pure (le_tallestStmt_of_le ?_)
    rw [Stmt.height]
    omega

end Level

/-! ## 8. Whole sources -/

theorem bounded_level (n : Nat) : (level n).Bounded := by
  induction n with
  | zero => exact ⟨fun _ => .get fun _ _ => .throw, fun _ => .get fun _ _ => .throw,
      fun _ => .get fun _ _ => .throw⟩
  | succ n ih =>
    refine ⟨fun k => .nested fun i hi => ?_, fun k => .nested fun i hi => ?_,
      fun k => .nested fun i hi => ?_⟩
    · rw [hi]
      exact gives_statementLevel ih i
    · rw [hi]
      exact gives_assignmentLevel ih i
    · rw [hi]
      exact gives_unaryLevel ih i

theorem gives_statementsFrom {acc : List Stmt} {k : Nat}
    (hacc : ∀ s ∈ acc, s.height ≤ tallestStmt k) (rounds : Nat) :
    Gives k k (statementsFrom acc rounds) fun ss => ∀ s ∈ ss, s.height ≤ tallestStmt k := by
  induction rounds generalizing acc with
  | zero => exact gives_stall
  | succ rounds ih =>
    refine .get fun c _ => ?_
    split
    · exact .pure (forall_mem_reverse hacc)
    · exact ((bounded_level _).statement k).bind fun s hs =>
        ih (List.forall_mem_cons.mpr ⟨hs, hacc⟩)

/-- What a production gives on a whole source text, where all levels are left. -/
theorem of_onSource {α : Type} {p : Production α} {Q : α → Prop}
    (hp : Gives maxSourceNesting maxSourceNesting p Q) {source : String} {a : α}
    (h : onSource p source = .ok a) : Q a := by
  unfold onSource at h
  split at h
  · cases h
  · next tokens _ =>
    split at h
    · next ha =>
      cases h
      exact (hp _ _ _ (Nat.zero_add _) ha).2
    · cases h

end Production

/-- Every expression that is read is at most this tall. -/
theorem readExpr_height_le {source : String} {e : Expr} (h : readExpr source = .ok e) :
    e.height ≤ 28353 := by
  have hbound : tallest maxSourceNesting = 28353 := by decide +kernel
  rw [← hbound]
  refine Production.of_onSource (Q := fun e => e.height ≤ tallest maxSourceNesting) ?_ h
  exact ((Production.bounded_level _).assignment _).bind fun e he =>
    (Production.keeps_skipSemicolon _).bind fun _ _ =>
      (Production.keeps_expectEnd _).bind fun _ _ => .pure he

/-- Every statement of a program that is read is at most this tall. -/
theorem readProgram_height_le {source : String} {program : List Stmt}
    (h : readProgram source = .ok program) : ∀ s ∈ program, s.height ≤ 27912 := by
  have hbound : tallestStmt maxSourceNesting = 27912 := by decide +kernel
  rw [← hbound]
  refine Production.of_onSource
    (Q := fun ss => ∀ s ∈ ss, s.height ≤ tallestStmt maxSourceNesting) ?_ h
  exact (Production.keeps_bound _).bind fun rounds _ =>
    Production.gives_statementsFrom (List.forall_mem_nil _) rounds

end TraceViewer.Snippet
