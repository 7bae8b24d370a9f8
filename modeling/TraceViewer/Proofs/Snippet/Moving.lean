import TraceViewer.Proofs.Snippet.Braces
import TraceViewer.Proofs.Snippet.Height

/-!
# Reading the same tokens elsewhere

Two runs of the reader on the same lexemes, the second with each token further back in the source
and with at most as many levels left.  The second run goes like the first until it misses a level
(`keepsPace_level`).  An error of it stands further back as the tokens do, unless it comes from a
substitution: the offset of a hole is a part of its lexeme and does not move.
-/

namespace TraceViewer.Snippet

/-! ## 1. Two runs -/

def Error.IsTooDeep (e : Error) : Prop := ∃ n, e = .badSource n .tooDeep

def Lexeme.holes : Lexeme → List Hole
  | .template _ holes => holes
  | _ => []

/-- Whatever makes the hole fail is one of the errors, or the limit of the nesting. -/
def Hole.FailsIn (errors : Error → Prop) (h : Hole) : Prop :=
  ∀ n c e c', Production.hole (Production.level n) h c = .error e c' → e.IsTooDeep ∨ errors e

/-- How far the tokens of the second run are moved, which tokens the runs meet, and which errors
may stay where they are. -/
structure Move where
  shift : Nat
  meets : Token → Prop
  stays : Error → Prop
  fails_of_meets : ∀ t, meets t → ∀ h ∈ t.lexeme.holes, h.FailsIn stays

/-- Any error may stay where it is. -/
def Move.free (shift : Nat) : Move :=
  ⟨shift, fun _ => True, fun _ => True, fun _ _ _ _ _ _ _ _ _ => .inr trivial⟩

/-- The cursors of two runs at the same place. -/
structure Move.Cursors (M : Move) (k : Nat) (c c' : Cursor) : Prop where
  tokens : c'.tokens = c.tokens.map (Token.shifted M.shift)
  -- a cursor without tokens has the offset 0, wherever it is
  some_left : c.tokens ≠ []
  meets : ∀ t ∈ c.tokens, M.meets t
  depth : c.depth + k = maxSourceNesting
  depth_le : c.depth ≤ c'.depth

/-- What the second run ends with, given how the first one ends. -/
inductive Move.Outcomes {α : Type} (M : Move) (k : Nat) (Q : α → α → Prop) :
    EStateM.Result Error Cursor α → EStateM.Result Error Cursor α → Prop
  -- the first run may have ended in any way
  | tooDeep {r c'} {e : Error} : e.IsTooDeep → Outcomes M k Q r (.error e c')
  | ok {a a' c c'} : Q a a' → M.Cursors k c c' → Outcomes M k Q (.ok a c) (.ok a' c')
  | moves {e c c'} : Outcomes M k Q (.error e c) (.error (Production.shiftError M.shift e) c')
  | stays {e c c'} : M.stays e → Outcomes M k Q (.error e c) (.error e c')

/-- From cursors at the same place with `k` levels left, both productions end alike, and leave `k'`
levels. -/
def Move.Follows {α : Type} (M : Move) (k k' : Nat) (Q : α → α → Prop) (p p' : Production α) :
    Prop :=
  ∀ c c', M.Cursors k c c' → M.Outcomes k' Q (p c) (p' c')

abbrev Anything {α : Type} (_ _ : α) : Prop := True

namespace Move

section Combinators

variable {M : Move} {α β : Type} {k k' k'' : Nat} {p p' : Production α} {Q : α → α → Prop}
  {R : β → β → Prop}

theorem Follows.pure {a a' : α} (ha : Q a a') :
    M.Follows k k Q (pure a : Production α) (pure a') := fun _ _ hc => .ok ha hc

theorem Follows.bind {f f' : α → Production β} (h : M.Follows k k' Q p p')
    (hf : ∀ a a', Q a a' → M.Follows k' k'' R (f a) (f' a')) :
    M.Follows k k'' R (p >>= f) (p' >>= f') := by
  intro c c' hc
  show M.Outcomes k'' R (EStateM.bind p f c) (EStateM.bind p' f' c')
  unfold EStateM.bind
  generalize hr : p c = r
  generalize hr' : p' c' = r'
  have hout : M.Outcomes k' Q r r' := hr ▸ hr' ▸ h c c' hc
  -- an error of the first part is the error of the whole, in both runs
  cases hout with
  | tooDeep he => exact .tooDeep he
  | ok ha hcs => exact hf _ _ ha _ _ hcs
  | moves => exact .moves
  | stays he => exact .stays he

theorem Follows.bindSame {f f' : α → Production β} (h : M.Follows k k' Eq p p')
    (hf : ∀ a, M.Follows k' k'' R (f a) (f' a)) : M.Follows k k'' R (p >>= f) (p' >>= f') := by
  refine h.bind fun a a' ha => ?_
  rw [← ha]
  exact hf a

theorem Follows.map {f f' : α → β} (h : M.Follows k k' Q p p')
    (hf : ∀ a a', Q a a' → R (f a) (f' a')) : M.Follows k k' R (f <$> p) (f' <$> p') := by
  rw [← bind_pure_comp, ← bind_pure_comp]
  exact h.bind fun a a' ha => .pure (hf a a' ha)

theorem Follows.mapAny {f : α → β} (h : M.Follows k k' Q p p') :
    M.Follows k k' Anything (f <$> p) (f <$> p') := h.map fun _ _ _ => trivial

theorem Follows.ite {b : Prop} [Decidable b] {q q' : Production α} (h : M.Follows k k' Q p p')
    (h' : M.Follows k k' Q q q') :
    M.Follows k k' Q (if b then p else q) (if b then p' else q') := by
  split
  · exact h
  · exact h'

theorem Follows.get {f f' : Cursor → Production β}
    (hf : ∀ c c', M.Cursors k c c' → M.Follows k k' R (f c) (f' c')) :
    M.Follows k k' R (get >>= f) (get >>= f') :=
  fun c c' hc => hf c c' hc c c' hc

theorem Follows.modify {f f' : Cursor → Cursor}
    (hf : ∀ c c', M.Cursors k c c' → M.Cursors k' (f c) (f' c')) :
    M.Follows k k' Eq (modify f : Production Unit) (modify f') :=
  fun c c' hc => .ok rfl (hf c c' hc)

/-- No more levels are left than there are. -/
theorem Follows.of_le (h : k ≤ maxSourceNesting → M.Follows k k' Q p p') :
    M.Follows k k' Q p p' :=
  fun c c' hc => h (hc.depth ▸ Nat.le_add_left k c.depth) c c' hc

theorem follows_throw {e : Error} :
    M.Follows k k' Q (throw e) (throw (Production.shiftError M.shift e)) :=
  fun _ _ _ => .moves

end Combinators

end Move

def Expr.name? : Expr → Option String
  | .ident name => some name
  | _ => none

/-- What the reader asks of an expression that it has read: whether it is a name. -/
def SameName (e e' : Expr) : Prop := e.name? = e'.name?

theorem SameName.cases {e e' : Expr} (h : SameName e e') :
    (∃ name, e = .ident name ∧ e' = .ident name) ∨
      (∀ name, e ≠ .ident name) ∧ ∀ name, e' ≠ .ident name := by
  unfold SameName Expr.name? at h
  grind

/-! ## 2. Cursors -/

section Cursors

variable {M : Move} {k : Nat} {c c' : Cursor}

theorem of_map_shifted_eq_cons {n offset : Nat} {l : Lexeme} {ts rest : List Token}
    (h : ts.map (Token.shifted n) = ⟨l, offset⟩ :: rest) :
    ∃ start ts', ts = ⟨l, start⟩ :: ts' ∧ ts'.map (Token.shifted n) = rest := by
  obtain ⟨⟨l', start⟩, ts', rfl, ht, hrest⟩ := List.map_eq_cons_iff.mp h
  cases ht
  exact ⟨start, ts', rfl, hrest⟩

theorem arrowFollows_map_shifted (n : Nat) (ts : List Token) :
    Production.arrowFollows (ts.map (Token.shifted n)) = Production.arrowFollows ts := by
  fun_induction Production.arrowFollows ts with
  | case1 _ _ _ rest ih => exact ih
  | case2 => rfl
  | case3 ts hcomma hclose =>
    unfold Production.arrowFollows
    split
    · next heq =>
      obtain ⟨_, _, rfl, hrest⟩ := of_map_shifted_eq_cons heq
      obtain ⟨_, _, rfl, -⟩ := of_map_shifted_eq_cons hrest
      exact (hcomma _ _ _ _ rfl).elim
    · next heq =>
      obtain ⟨_, _, rfl, hrest⟩ := of_map_shifted_eq_cons heq
      obtain ⟨_, _, rfl, hlast⟩ := of_map_shifted_eq_cons hrest
      obtain ⟨_, _, rfl, -⟩ := of_map_shifted_eq_cons hlast
      exact (hclose _ _ _ _ _ rfl).elim
    · rfl

theorem arrowStarts_map_shifted (n : Nat) (ts : List Token) :
    Production.arrowStarts (ts.map (Token.shifted n)) = Production.arrowStarts ts := by
  fun_cases Production.arrowStarts ts with
  | case1 => rfl
  | case2 t ts harrow =>
    unfold Production.arrowStarts
    split
    · next heq =>
      obtain ⟨_, _, rfl, hlast⟩ := of_map_shifted_eq_cons (List.cons.inj heq).2
      obtain ⟨_, _, rfl, -⟩ := of_map_shifted_eq_cons hlast
      exact (harrow _ _ _ rfl).elim
    · next heq =>
      obtain ⟨-, rfl⟩ := List.cons.inj heq
      exact arrowFollows_map_shifted n ts
    · next heq => cases heq
  | case3 => rfl
namespace Move.Cursors

theorem exists_cons (h : M.Cursors k c c') : ∃ t ts, M.meets t ∧ c.tokens = t :: ts ∧
    c'.tokens = t.shifted M.shift :: ts.map (Token.shifted M.shift) := by
  obtain ⟨t, ts, hts⟩ := List.exists_cons_of_ne_nil h.some_left
  refine ⟨t, ts, h.meets t ?_, hts, ?_⟩
  · rw [hts]
    exact List.mem_cons_self
  · rw [h.tokens, hts, List.map_cons]

theorem lexeme (h : M.Cursors k c c') : c'.lexeme = c.lexeme := by
  obtain ⟨t, ts, -, hts, hts'⟩ := h.exists_cons
  unfold Cursor.lexeme
  rw [hts, hts']
  rfl

theorem fails_of_holes (h : M.Cursors k c c') : ∀ hole ∈ c.lexeme.holes, hole.FailsIn M.stays := by
  obtain ⟨t, ts, ht, hts, -⟩ := h.exists_cons
  unfold Cursor.lexeme
  rw [hts]
  exact M.fails_of_meets t ht

theorem offset (h : M.Cursors k c c') : c'.offset = c.offset + M.shift := by
  obtain ⟨t, ts, -, hts, hts'⟩ := h.exists_cons
  unfold Cursor.offset
  rw [hts, hts']
  rfl

theorem ahead (h : M.Cursors k c c') (n : Nat) : c'.ahead n = c.ahead n := by
  unfold Cursor.ahead
  rw [h.tokens, List.getElem?_map]
  cases c.tokens[n]? <;> rfl

theorem atPunct (h : M.Cursors k c c') (p : Punct) : c'.atPunct p = c.atPunct p := by
  unfold Cursor.atPunct
  rw [h.lexeme]

theorem atWord (h : M.Cursors k c c') (word : String) : c'.atWord word = c.atWord word := by
  unfold Cursor.atWord
  rw [h.lexeme]

theorem atEnd (h : M.Cursors k c c') : c'.atEnd = c.atEnd := by
  unfold Cursor.atEnd
  rw [h.lexeme]

theorem unexpected (h : M.Cursors k c c') (wanted : Wanted) :
    c'.unexpected wanted = Production.shiftError M.shift (c.unexpected wanted) := by
  unfold Cursor.unexpected
  rw [h.lexeme, h.offset]
  rfl

theorem atDeclaration (h : M.Cursors k c c') :
    Production.atDeclaration c' = Production.atDeclaration c := by
  unfold Production.atDeclaration
  rw [h.atWord, h.atWord, h.atWord]

theorem arrowStarts (h : M.Cursors k c c') :
    Production.arrowStarts c'.tokens = Production.arrowStarts c.tokens := by
  rw [h.tokens, arrowStarts_map_shifted]

theorem atEachLoop (h : M.Cursors k c c') : Production.atEachLoop c' = Production.atEachLoop c := by
  unfold Production.atEachLoop
  rw [h.atDeclaration, h.ahead, h.ahead]

theorem advance (h : M.Cursors k c c') : M.Cursors k c.advance c'.advance := by
  obtain ⟨t, ts, ht, hts, hts'⟩ := h.exists_cons
  have hmeets := h.meets
  rw [hts] at hmeets
  unfold Cursor.advance
  rw [hts, hts']
  cases ts with
  | nil => exact h
  | cons next rest =>
    exact ⟨rfl, List.cons_ne_nil _ _, fun t ht => hmeets t (List.mem_cons_of_mem _ ht), h.depth,
      h.depth_le⟩

end Move.Cursors

end Cursors

/-! ## 3. Tokens -/

namespace Production

section Tokens

variable {M : Move} {α : Type} {k k' : Nat} {Q : α → α → Prop} {p p' : Production α}

theorem follows_fail {w : Wanted} : M.Follows k k' Q (fail w) (fail w) := by
  refine .get fun c c' hc => ?_
  rw [hc.unexpected]
  exact Move.follows_throw

theorem follows_stall : M.Follows k k' Q stall stall := by
  refine .get fun c c' hc => ?_
  rw [hc.offset]
  exact Move.follows_throw

/-- Where the first run has a level left, the second one goes on or has none. -/
theorem follows_descend (hp : ∀ i, k = i + 1 → M.Follows i k' Q p p') :
    M.Follows k k' Q (do descend; p) (do descend; p') := by
  intro c c' hc
  have hdepth := hc.depth
  have hle := hc.depth_le
  rw [descend_bind, descend_bind]
  by_cases hdeep : maxSourceNesting < c'.depth + 1
  · rw [if_pos hdeep]
    exact .tooDeep ⟨_, rfl⟩
  · rw [if_neg hdeep, if_neg (by omega)]
    refine hp (k - 1) (by omega) _ _ ⟨hc.tokens, hc.some_left, hc.meets, ?_, ?_⟩
    · dsimp only
      omega
    · exact Nat.succ_le_succ hle

theorem follows_ascend {levels : Nat} (hk : k + levels ≤ maxSourceNesting) :
    M.Follows k (k + levels) Eq (ascend levels) (ascend levels) := by
  refine .modify fun c c' hc => ⟨hc.tokens, hc.some_left, hc.meets, ?_, ?_⟩
  · have hdepth := hc.depth
    dsimp only
    omega
  · exact Nat.sub_le_sub_right hc.depth_le levels

theorem follows_nested (hp : ∀ i, k = i + 1 → M.Follows i i Q p p') :
    M.Follows k k Q (nested p) (nested p') := by
  refine .of_le fun hk => follows_descend fun i hi => ?_
  subst hi
  exact (hp i rfl).bind fun a a' ha => (follows_ascend hk).bindSame fun _ => .pure ha

theorem follows_advance : M.Follows k k Eq advance advance := .modify fun _ _ hc => hc.advance

theorem follows_eat (p : Punct) : M.Follows k k Eq (eat p) (eat p) := by
  refine .get fun c c' hc => ?_
  rw [hc.atPunct]
  split
  · exact follows_advance.bindSame fun _ => .pure rfl
  · exact .pure rfl

theorem follows_eatWord (word : String) : M.Follows k k Eq (eatWord word) (eatWord word) := by
  refine .get fun c c' hc => ?_
  rw [hc.atWord]
  split
  · exact follows_advance.bindSame fun _ => .pure rfl
  · exact .pure rfl

theorem follows_expect (p : Punct) : M.Follows k k Eq (expect p) (expect p) := by
  refine (follows_eat p).bindSame fun found => ?_
  split
  · exact follows_fail
  · exact .pure rfl

theorem follows_expectEnd : M.Follows k k Eq expectEnd expectEnd := by
  refine .get fun c c' hc => ?_
  rw [hc.atEnd]
  split
  · exact follows_fail
  · exact .pure rfl

theorem follows_skipSemicolon : M.Follows k k Eq skipSemicolon skipSemicolon :=
  (follows_eat .semicolon).bindSame fun _ => .pure rfl

theorem follows_bindingName : M.Follows k k Eq bindingName bindingName := by
  refine .get fun c c' hc => ?_
  rw [hc.lexeme]
  split
  · split
    · exact follows_fail
    · exact follows_advance.bindSame fun _ => .pure rfl
  · exact follows_fail

theorem follows_bound : M.Follows k k Eq bound bound := by
  refine .get fun c c' hc => .pure ?_
  rw [hc.tokens, List.length_map]

theorem follows_paramsFrom (acc : List String) (rounds : Nat) :
    M.Follows k k Eq (paramsFrom acc rounds) (paramsFrom acc rounds) := by
  induction rounds generalizing acc with
  | zero => exact follows_stall
  | succ rounds ih =>
    refine follows_bindingName.bindSame fun name => (follows_eat _).bindSame fun closed => ?_
    split
    · exact .pure rfl
    · exact (follows_expect _).bindSame fun _ => ih (name :: acc)

theorem follows_params : M.Follows k k Eq params params := by
  refine (follows_eat _).bindSame fun closed => ?_
  split
  · exact .pure rfl
  · exact follows_bound.bindSame fun rounds => follows_paramsFrom [] rounds

theorem follows_arrowParams? : M.Follows k k Eq arrowParams? arrowParams? := by
  refine .get fun c c' hc => ?_
  rw [hc.lexeme, hc.ahead]
  split
  · split
    · exact .pure rfl
    · exact follows_advance.bindSame fun _ => follows_advance.bindSame fun _ => .pure rfl
  · rw [hc.arrowStarts]
    split
    · exact follows_advance.bindSame fun _ => follows_params.bindSame fun _ =>
        (follows_expect _).bindSame fun _ => .pure rfl
    · exact .pure rfl
  · exact .pure rfl

theorem follows_entryKey : M.Follows k k Eq entryKey entryKey := by
  refine .get fun c c' hc => ?_
  rw [hc.lexeme]
  refine follows_advance.bindSame fun _ => ?_
  split
  · exact .pure rfl
  · exact .pure rfl
  · exact .pure rfl
  · exact follows_fail

theorem follows_pattern (offset : Nat) (body flags : String) : M.Follows k k SameName
    (pattern offset body flags) (pattern (offset + M.shift) body flags) := by
  unfold pattern
  split
  · exact Move.follows_throw
  · refine .get fun c c' hc => Move.Follows.bindSame (.modify fun _ _ hd => ?_) fun _ => .pure rfl
    exact ⟨hd.tokens, hd.some_left, hd.meets, hd.depth, hd.depth_le⟩

end Tokens

/-! ## 4. Holes -/

/-- Reads an expression and nothing behind it. -/
def alone (inner : Level) : Production Expr := do
  let e ← inner.assignment
  expectEnd
  return e

theorem hole_of_error (inner : Level) (hole : Hole) {e : Error}
    (htokens : tokenize hole.source = .error e) (c : Cursor) :
    Production.hole inner hole c = .error (shiftError hole.offset e) c := by
  unfold Production.hole
  rw [htokens]
  rfl

theorem hole_of_tokens (inner : Level) (hole : Hole) {tokens : List Token}
    (htokens : tokenize hole.source = .ok tokens) (c : Cursor) :
    Production.hole inner hole c =
      match alone inner { c with tokens := tokens.map (Token.shifted hole.offset) } with
      | .ok e c' => .ok e { c' with tokens := c.tokens }
      | .error e c' => .error e c' := by
  unfold Production.hole
  rw [htokens]
  show EStateM.bind inner.assignment (fun e => do
      expectEnd
      modify fun c' => { c' with tokens := c.tokens }
      return e) _ =
    match EStateM.bind inner.assignment (fun e => do
      expectEnd
      return e) _ with
    | .ok e c' => .ok e { c' with tokens := c.tokens }
    | .error e c' => .error e c'
  unfold EStateM.bind
  cases inner.assignment { c with tokens := tokens.map (Token.shifted hole.offset) } with
  | error => rfl
  | ok e c' =>
    show EStateM.bind expectEnd (fun _ => do
        modify fun c' => { c' with tokens := c.tokens }
        return e) c' =
      match EStateM.bind expectEnd (fun _ => pure e) c' with
      | .ok e c' => .ok e { c' with tokens := c.tokens }
      | .error e c' => .error e c'
    unfold EStateM.bind
    cases expectEnd c' <;> rfl

theorem tokenize_ne_nil {source : String} {tokens : List Token} (h : tokenize source = .ok tokens) :
    tokens ≠ [] := by
  obtain ⟨us, n, rfl, -⟩ := tokensFrom_eq_append h
  exact List.append_ne_nil_of_right_ne_nil _ (List.cons_ne_nil _ _)

theorem shiftError_zero (e : Error) : shiftError 0 e = e := by
  cases e <;> rfl

/-! ## 5. Productions of one level -/

/-- With up to `k` levels left, the productions of `level m` go like those of `level n`. -/
structure KeepsPace (k n m : Nat) : Prop where
  statement : ∀ M : Move, ∀ i ≤ k,
    M.Follows i i Anything (level n).statement (level m).statement
  assignment : ∀ M : Move, ∀ i ≤ k,
    M.Follows i i SameName (level n).assignment (level m).assignment
  unary : ∀ M : Move, ∀ i ≤ k, M.Follows i i SameName (level n).unary (level m).unary

theorem KeepsPace.mono {k i n m : Nat} (h : KeepsPace k n m) (hi : i ≤ k) : KeepsPace i n m where
  statement M j hj := h.statement M j (Nat.le_trans hj hi)
  assignment M j hj := h.assignment M j (Nat.le_trans hj hi)
  unary M j hj := h.unary M j (Nat.le_trans hj hi)

section Level

variable {M : Move} {k n m : Nat} (h : KeepsPace k n m)
include h

theorem follows_statement : M.Follows k k Anything (level n).statement (level m).statement :=
  h.statement M k (Nat.le_refl k)

theorem follows_assignment : M.Follows k k SameName (level n).assignment (level m).assignment :=
  h.assignment M k (Nat.le_refl k)

theorem follows_unary : M.Follows k k SameName (level n).unary (level m).unary :=
  h.unary M k (Nat.le_refl k)

theorem follows_blockFrom (acc acc' : List Stmt) (rounds : Nat) :
    M.Follows k k Anything (blockFrom (level n) acc rounds) (blockFrom (level m) acc' rounds) := by
  induction rounds generalizing acc acc' with
  | zero => exact follows_stall
  | succ rounds ih =>
    refine (follows_eat _).bindSame fun closed => ?_
    split
    · exact .pure trivial
    · refine .get fun c c' hc => ?_
      rw [hc.atEnd]
      split
      · exact follows_fail
      · exact (follows_statement h).bind fun s s' _ => ih (s :: acc) (s' :: acc')

theorem follows_block : M.Follows k k Anything (block (level n)) (block (level m)) :=
  (follows_expect _).bindSame fun _ => follows_bound.bindSame fun rounds =>
    follows_blockFrom h [] [] rounds

theorem follows_functionRest (needsName : Bool) :
    M.Follows k k Anything (functionRest (level n) needsName)
      (functionRest (level m) needsName) := by
  let rest (l : Level) (name : Option String) : Production Function := do
    expect .parenOpen
    let params ← params
    return Function.mk name params (.block (← block l))
  have hrest (name : Option String) :
      M.Follows k k Anything (rest (level n) name) (rest (level m) name) :=
    (follows_expect _).bindSame fun _ => follows_params.bindSame fun params =>
      (follows_block h).bind fun _ _ _ => .pure trivial
  have hname (isNamed : Bool) : M.Follows k k Anything
      (if isNamed = true then (some <$> bindingName) >>= rest (level n) else rest (level n) none)
      (if isNamed = true then (some <$> bindingName) >>= rest (level m)
        else rest (level m) none) := by
    split
    · refine Move.Follows.bindSame (follows_bindingName.map fun a a' ha => ?_) hrest
      rw [ha]
    · exact hrest none
  refine .get fun c c' hc => ?_
  rw [hc.lexeme]
  exact hname _

theorem follows_argumentsFrom (acc acc' : List Expr) (rounds : Nat) : M.Follows k k Anything
    (argumentsFrom (level n) acc rounds) (argumentsFrom (level m) acc' rounds) := by
  induction rounds generalizing acc acc' with
  | zero => exact follows_stall
  | succ rounds ih =>
    refine (follows_assignment h).bind fun e e' _ => (follows_eat _).bindSame fun closed => ?_
    split
    · exact .pure trivial
    · exact (follows_expect _).bindSame fun _ => ih (e :: acc) (e' :: acc')

theorem follows_arguments : M.Follows k k Anything (arguments (level n)) (arguments (level m)) := by
  refine (follows_eat _).bindSame fun closed => ?_
  split
  · exact .pure trivial
  · exact follows_bound.bindSame fun rounds => follows_argumentsFrom h [] [] rounds

theorem follows_itemsFrom (acc acc' : List Expr) (rounds : Nat) :
    M.Follows k k Anything (itemsFrom (level n) acc rounds) (itemsFrom (level m) acc' rounds) := by
  induction rounds generalizing acc acc' with
  | zero => exact follows_stall
  | succ rounds ih =>
    refine (follows_eat _).bindSame fun closed => ?_
    split
    · exact .pure trivial
    · refine (follows_assignment h).bind fun e e' _ => .get fun c c' hc => ?_
      rw [hc.atPunct]
      split
      · exact (follows_expect _).bindSame fun _ => ih (e :: acc) (e' :: acc')
      · exact ih (e :: acc) (e' :: acc')

theorem follows_entriesFrom (acc acc' : List (String × Expr)) (rounds : Nat) :
    M.Follows k k Anything (entriesFrom (level n) acc rounds)
      (entriesFrom (level m) acc' rounds) := by
  induction rounds generalizing acc acc' with
  | zero => exact follows_stall
  | succ rounds ih =>
    refine (follows_eat _).bindSame fun closed => ?_
    split
    · exact .pure trivial
    · refine follows_entryKey.bindSame fun key => (follows_eat _).bindSame fun colon => ?_
      let rest (l : Level) (acc : List (String × Expr)) (value : Expr) :
          Production (List (String × Expr)) := do
        if !(← get).atPunct .braceClose then expect .comma
        entriesFrom l ((key, value) :: acc) rounds
      have hrest (value value' : Expr) :
          M.Follows k k Anything (rest (level n) acc value) (rest (level m) acc' value') := by
        refine .get fun c c' hc => ?_
        rw [hc.atPunct]
        split
        · exact (follows_expect _).bindSame fun _ => ih _ _
        · exact ih _ _
      split
      · exact (follows_assignment h).bind fun value value' _ => hrest value value'
      · exact hrest (.ident key) (.ident key)

theorem follows_alone : M.Follows k k SameName (alone (level n)) (alone (level m)) :=
  (follows_assignment h).bind fun _ _ he => follows_expectEnd.bindSame fun _ => .pure he

/-- The source of a hole is the same in both runs, so it fails alike in both. -/
theorem follows_hole {hole : Hole} (hfails : hole.FailsIn M.stays) :
    M.Follows k k SameName (Production.hole (level n) hole) (Production.hole (level m) hole) := by
  intro c c' hc
  have herror {e : Error} {c₁ c₂ : Cursor}
      (hrun : Production.hole (level m) hole c' = .error e c₂) :
      M.Outcomes k SameName (.error e c₁) (.error e c₂) :=
    (hfails m c' e c₂ hrun).elim .tooDeep .stays
  cases htokens : tokenize hole.source with
  | error e =>
    have hrun := hole_of_error (level m) hole htokens c'
    rw [hole_of_error _ _ htokens, hrun]
    exact herror hrun
  | ok tokens =>
    -- both runs go on with the same tokens at the same offsets
    have hstill : (Move.free 0).Cursors k
        { c with tokens := tokens.map (Token.shifted hole.offset) }
        { c' with tokens := tokens.map (Token.shifted hole.offset) } := by
      refine ⟨?_, ?_, fun _ _ => trivial, hc.depth, hc.depth_le⟩
      · exact (List.map_id _).symm
      · exact mt List.map_eq_nil_iff.mp (tokenize_ne_nil htokens)
    have hrun := hole_of_tokens (level m) hole htokens c'
    have hout := follows_alone h _ _ hstill
    rw [hole_of_tokens _ _ htokens]
    generalize alone (level n) _ = r at hout ⊢
    generalize alone (level m) _ = r' at hout hrun
    cases hout with
    | tooDeep he =>
      rw [hrun]
      exact .tooDeep he
    | ok he hcs =>
      rw [hrun]
      exact .ok he ⟨hc.tokens, hc.some_left, hc.meets, hcs.depth, hcs.depth_le⟩
    | @moves e c₁ c₂ =>
      rw [show shiftError (Move.free 0).shift e = e from shiftError_zero e] at hrun
      rw [hrun]
      exact herror hrun
    | stays =>
      rw [hrun]
      exact herror hrun

theorem follows_holes {hs : List Hole} (hfails : ∀ hole ∈ hs, hole.FailsIn M.stays) :
    M.Follows k k Anything (holes (level n) hs) (holes (level m) hs) := by
  induction hs with
  | nil => exact .pure trivial
  | cons hole rest ih =>
    obtain ⟨hhole, hrest⟩ := List.forall_mem_cons.mp hfails
    exact (follows_hole h hhole).bind fun _ _ _ => (ih hrest).bind fun _ _ _ => .pure trivial

theorem follows_primary : M.Follows k k SameName (primary (level n)) (primary (level m)) := by
  refine .get fun c c' hc => follows_advance.bindSame fun _ => ?_
  have hholes := hc.fails_of_holes
  rw [hc.offset, hc.unexpected, hc.unexpected, hc.lexeme]
  -- one case for each kind of token; words among them split once more
  split
  · exact .pure rfl
  · exact .pure rfl
  · exact follows_pattern c.offset _ _
  · split
    · exact .pure rfl
    split
    · exact .pure rfl
    split
    · exact .pure rfl
    split
    · exact .pure rfl
    split
    · exact (follows_functionRest h false).bind fun _ _ _ => .pure rfl
    split
    · exact Move.follows_throw
    · exact .pure rfl
  · next hlexeme =>
    rw [hlexeme] at hholes
    exact (follows_holes h hholes).bind fun _ _ _ => .pure rfl
  · exact (follows_assignment h).bind fun _ _ he => (follows_expect _).bindSame fun _ => .pure he
  · exact follows_bound.bindSame fun rounds => (follows_itemsFrom h [] [] rounds).bind fun _ _ _ =>
      .pure rfl
  · exact follows_bound.bindSame fun rounds =>
      (follows_entriesFrom h [] [] rounds).bind fun _ _ _ => .pure rfl
  · exact Move.follows_throw

theorem follows_linksFrom {room links : Nat} {head head' : Expr} (hroom : k + links = room)
    (hmax : room ≤ maxSourceNesting) (hhead : SameName head head') (rounds : Nat) :
    M.Follows k room SameName (linksFrom (level n) links head rounds)
      (linksFrom (level m) links head' rounds) := by
  -- every link takes a level, so the rest of the chain is read with one less
  induction rounds generalizing k links head head' with
  | zero => exact follows_stall
  | succ rounds ih =>
    have hnext {i : Nat} (hi : k = i + 1) {e e' : Expr} (he : SameName e e') :
        M.Follows i room SameName (linksFrom (level n) (links + 1) e rounds)
          (linksFrom (level m) (links + 1) e' rounds) :=
      ih (h.mono (by omega)) (by omega) he
    refine (follows_eat _).bindSame fun guarded => (follows_eat _).bindSame fun isIndex => ?_
    split
    · exact follows_descend fun i hi => (follows_assignment (h.mono (by omega))).bind fun _ _ _ =>
        (follows_expect _).bindSame fun _ => hnext hi rfl
    refine (follows_eat _).bindSame fun isCall => ?_
    split
    · exact follows_descend fun i hi => (follows_arguments (h.mono (by omega))).bind fun _ _ _ =>
        hnext hi rfl
    -- a member read after `?.` and one read after a dot go on alike
    have hmember (isMember : Bool) : M.Follows k room SameName
        (memberLink (level n) links head guarded rounds isMember)
        (memberLink (level m) links head' guarded rounds isMember) := by
      unfold memberLink
      split
      · refine follows_descend fun i hi => .get fun c c' hc => follows_advance.bindSame fun _ => ?_
        rw [hc.lexeme]
        split
        · exact hnext hi rfl
        · exact follows_fail
      · subst hroom
        exact (follows_ascend hmax).bindSame fun _ => .pure hhead
    split
    · exact hmember true
    · exact (follows_eat _).bindSame fun isMember => hmember isMember

theorem follows_postfixed : M.Follows k k SameName (postfixed (level n)) (postfixed (level m)) := by
  refine .of_le fun hmax => (follows_primary h).bind fun head head' hhead =>
    follows_bound.bindSame fun rounds =>
      (follows_linksFrom h rfl hmax hhead rounds).bind fun e e' he => .get fun c c' hc => ?_
  rw [hc.atPunct, hc.atPunct]
  split
  · obtain ⟨name, rfl, rfl⟩ | ⟨hne, hne'⟩ := he.cases
    · exact follows_advance.bindSame fun _ => .pure rfl
    · split
      · next name => exact absurd rfl (hne name)
      · exact follows_fail
  · exact .pure he

theorem follows_unaryLevel :
    M.Follows k k SameName (unaryLevel (level n)) (unaryLevel (level m)) := by
  refine .get fun c c' hc => ?_
  rw [hc.atPunct, hc.atPunct, hc.lexeme]
  split
  · refine follows_advance.bindSame fun _ => (follows_unary h).bind fun e e' he => ?_
    obtain ⟨name, rfl, rfl⟩ | ⟨hne, hne'⟩ := he.cases
    · exact .pure rfl
    · split
      · next name => exact absurd rfl (hne name)
      · exact follows_fail
  · split
    · exact follows_advance.bindSame fun _ => (follows_unary h).bind fun _ _ _ => .pure rfl
    · exact follows_postfixed h

/-! ## 6. Chains of operators -/

omit h in
theorem follows_operatorsFrom {α : Type} {op? : Punct → Option α} {join : α → Expr → Expr → Expr}
    (hjoin : ∀ op a b, (join op a b).name? = none) {operand operand' : Production Expr}
    (hoperand : ∀ i ≤ k, M.Follows i i SameName operand operand') {room links : Nat}
    {left left' : Expr} (hroom : k + links = room) (hmax : room ≤ maxSourceNesting)
    (hleft : SameName left left') (rounds : Nat) : M.Follows k room SameName
      (operatorsFrom op? join operand links left rounds)
      (operatorsFrom op? join operand' links left' rounds) := by
  induction rounds generalizing k links left left' with
  | zero => exact follows_stall
  | succ rounds ih =>
    refine .get fun c c' hc => ?_
    rw [hc.lexeme]
    dsimp only
    split
    · subst hroom
      exact (follows_ascend hmax).bindSame fun _ => .pure hleft
    · next op _ =>
      refine follows_advance.bindSame fun _ => follows_descend fun i hi =>
        (hoperand i (by omega)).bind fun right right' _ => ?_
      -- what an operator joins is no name, whatever the operands are
      refine ih (fun j hj => hoperand j (by omega)) (by omega) ?_
      exact (hjoin op left right).trans (hjoin op left' right').symm

omit h in
theorem follows_operators {α : Type} (op? : Punct → Option α) {join : α → Expr → Expr → Expr}
    (hjoin : ∀ op a b, (join op a b).name? = none) {operand operand' : Production Expr}
    (hoperand : ∀ i ≤ k, M.Follows i i SameName operand operand') :
    ∀ i ≤ k, M.Follows i i SameName (operators op? join operand)
      (operators op? join operand') := fun i hi =>
  .of_le fun hmax => (hoperand i hi).bind fun _ _ hleft => follows_bound.bindSame fun rounds =>
    follows_operatorsFrom hjoin (fun j hj => hoperand j (Nat.le_trans hj hi)) (Nat.add_zero i) hmax
      hleft rounds

theorem follows_disjunction :
    M.Follows k k SameName (disjunction (level n)) (disjunction (level m)) := by
  have hbinary (op : BinaryOp) (a b : Expr) : (Expr.binary op a b).name? = none := rfl
  have hlogical (op : LogicalOp) (a b : Expr) : (Expr.logical op a b).name? = none := rfl
  have hmultiplicative := follows_operators multiplicativeOp? hbinary (h.unary M)
  have hadditive := follows_operators additiveOp? hbinary hmultiplicative
  have hrelational := follows_operators relationalOp? hbinary hadditive
  have hequality := follows_operators equalityOp? hbinary hrelational
  have hconjunction := follows_operators andOp? hlogical hequality
  exact follows_operators orOp? hlogical hconjunction k (Nat.le_refl k)

theorem follows_conditional :
    M.Follows k k SameName (conditional (level n)) (conditional (level m)) := by
  refine (follows_disjunction h).bind fun test test' htest =>
    (follows_eat _).bindSame fun isCond => ?_
  split
  · exact (follows_assignment h).bind fun _ _ _ => (follows_expect _).bindSame fun _ =>
      (follows_assignment h).bind fun _ _ _ => .pure rfl
  · exact .pure htest

theorem follows_assignmentLevel :
    M.Follows k k SameName (assignmentLevel (level n)) (assignmentLevel (level m)) := by
  refine follows_arrowParams?.bindSame fun params => ?_
  split
  · refine .get fun c c' hc => ?_
    rw [hc.atPunct]
    split
    · exact (follows_block h).mapAny.bind fun _ _ _ => .pure rfl
    · exact (follows_assignment h).mapAny.bind fun _ _ _ => .pure rfl
  · refine (follows_conditional h).bind fun target target' htarget => .get fun c c' hc => ?_
    rw [hc.lexeme]
    dsimp only
    split
    · exact .pure htarget
    · obtain ⟨name, rfl, rfl⟩ | ⟨hne, hne'⟩ := htarget.cases
      · exact follows_advance.bindSame fun _ => (follows_assignment h).bind fun _ _ _ => .pure rfl
      · split
        · next name => exact absurd rfl (hne name)
        · exact follows_fail

/-! ## 7. Statements -/

theorem follows_bindingsFrom (acc acc' : List (String × Option Expr)) (rounds : Nat) :
    M.Follows k k Anything (bindingsFrom (level n) acc rounds)
      (bindingsFrom (level m) acc' rounds) := by
  induction rounds generalizing acc acc' with
  | zero => exact follows_stall
  | succ rounds ih =>
    refine follows_bindingName.bindSame fun name => (follows_eat _).bindSame fun hasValue => ?_
    let rest (l : Level) (acc : List (String × Option Expr)) (value : Option Expr) :
        Production (List (String × Option Expr)) := do
      let acc := (name, value) :: acc
      if ← eat .comma then bindingsFrom l acc rounds else return acc.reverse
    have hrest (value value' : Option Expr) :
        M.Follows k k Anything (rest (level n) acc value) (rest (level m) acc' value') := by
      refine (follows_eat _).bindSame fun more => ?_
      split
      · exact ih _ _
      · exact .pure trivial
    split
    · exact (follows_assignment h).mapAny.bind fun value value' _ => hrest value value'
    · exact hrest none none

theorem follows_declaration :
    M.Follows k k Anything (declaration (level n)) (declaration (level m)) :=
  follows_bound.bindSame fun rounds => (follows_bindingsFrom h [] [] rounds).bind fun _ _ _ =>
    .pure trivial

theorem follows_unlessAt (p : Punct) :
    M.Follows k k Anything (unlessAt (level n) p) (unlessAt (level m) p) := by
  refine .get fun c c' hc => ?_
  rw [hc.atPunct]
  split
  · exact .pure trivial
  · exact (follows_assignment h).mapAny

theorem follows_loopInit : M.Follows k k Anything (loopInit (level n)) (loopInit (level m)) := by
  refine .get fun c c' hc => ?_
  rw [hc.atPunct, hc.atDeclaration]
  split
  · exact .pure trivial
  split
  · exact follows_advance.bindSame fun _ => (follows_declaration h).mapAny
  · exact (follows_assignment h).bind fun _ _ _ => .pure trivial

theorem follows_forStatement :
    M.Follows k k Anything (forStatement (level n)) (forStatement (level m)) := by
  refine (follows_expect _).bindSame fun _ => .get fun c c' hc => ?_
  rw [hc.atEachLoop]
  split
  · exact follows_advance.bindSame fun _ => follows_bindingName.bindSame fun name =>
      follows_advance.bindSame fun _ => (follows_assignment h).bind fun _ _ _ =>
        (follows_expect _).bindSame fun _ => (follows_statement h).bind fun _ _ _ => .pure trivial
  · exact (follows_loopInit h).bind fun _ _ _ => (follows_expect _).bindSame fun _ =>
      (follows_unlessAt h _).bind fun _ _ _ => (follows_expect _).bindSame fun _ =>
        (follows_unlessAt h _).bind fun _ _ _ => (follows_expect _).bindSame fun _ =>
          (follows_statement h).bind fun _ _ _ => .pure trivial

theorem follows_condition :
    M.Follows k k Anything (condition (level n)) (condition (level m)) :=
  (follows_expect _).bindSame fun _ => (follows_assignment h).bind fun _ _ _ =>
    (follows_expect _).bindSame fun _ => .pure trivial

theorem follows_statementLevel :
    M.Follows k k Anything (statementLevel (level n)) (statementLevel (level m)) := by
  -- the statements are tried in the order of the reader: one step for each word that starts one
  refine (follows_eat _).bindSame fun isEmpty => .ite (.pure trivial) ?_
  refine .get fun c c' hc => ?_
  rw [hc.atPunct, hc.atDeclaration]
  refine .ite ((follows_block h).bind fun _ _ _ => .pure trivial) ?_
  refine (follows_eatWord _).bindSame fun isFunction => .ite ?_ (.ite ?_ ?_)
  · exact (follows_functionRest h true).bind fun _ _ _ => .pure trivial
  · exact follows_advance.bindSame fun _ => (follows_declaration h).bind fun _ _ _ =>
      follows_skipSemicolon.bindSame fun _ => .pure trivial
  refine (follows_eatWord _).bindSame fun isCond => .ite ?_ ?_
  · refine (follows_condition h).bind fun _ _ _ => (follows_statement h).bind fun _ _ _ =>
      (follows_eatWord _).bindSame fun hasElse => .ite ?_ (.pure trivial)
    exact (follows_statement h).mapAny.bind fun _ _ _ => .pure trivial
  refine (follows_eatWord _).bindSame fun isLoop => .ite ?_ ?_
  · exact (follows_condition h).bind fun _ _ _ => (follows_statement h).bind fun _ _ _ =>
      .pure trivial
  refine (follows_eatWord _).bindSame fun isFor => .ite (follows_forStatement h) ?_
  refine (follows_eatWord _).bindSame fun isBreak => .ite ?_ ?_
  · exact follows_skipSemicolon.bindSame fun _ => .pure trivial
  refine (follows_eatWord _).bindSame fun isContinue => .ite ?_ ?_
  · exact follows_skipSemicolon.bindSame fun _ => .pure trivial
  refine (follows_eatWord _).bindSame fun isReturn => .ite ?_ ?_
  · refine .get fun c c' hc => ?_
    rw [hc.atPunct, hc.atPunct, hc.atEnd]
    have hreturn (value value' : Option Expr) : M.Follows k k Anything
        (do
          skipSemicolon
          return Stmt.return value)
        (do
          skipSemicolon
          return Stmt.return value') :=
      follows_skipSemicolon.bindSame fun _ => .pure trivial
    refine .ite (hreturn none none) ?_
    exact (follows_assignment h).mapAny.bind fun value value' _ => hreturn value value'
  · exact (follows_assignment h).bind fun _ _ _ => follows_skipSemicolon.bindSame fun _ =>
      .pure trivial

end Level

/-! ## 8. All levels -/

/-- A run with `k` levels left never comes further in than that, and where the other run has no
production left it fails for the limit of the nesting. -/
theorem keepsPace_level {n k : Nat} (hk : k < n) (m : Nat) : KeepsPace k n m := by
  -- by induction on the levels of the first run; those of the second may end before
  induction n generalizing k m with
  | zero => omega
  | succ n ih =>
    cases m with
    | zero => exact ⟨fun _ _ _ _ _ _ => .tooDeep ⟨_, rfl⟩, fun _ _ _ _ _ _ => .tooDeep ⟨_, rfl⟩,
        fun _ _ _ _ _ _ => .tooDeep ⟨_, rfl⟩⟩
    | succ m =>
      have hinner {i j : Nat} (hi : i ≤ k) (hj : i = j + 1) : KeepsPace j n m := ih (by omega) m
      exact ⟨fun M i hi => follows_nested fun j hj => follows_statementLevel (hinner hi hj),
        fun M i hi => follows_nested fun j hj => follows_assignmentLevel (hinner hi hj),
        fun M i hi => follows_nested fun j hj => follows_unaryLevel (hinner hi hj)⟩

end Production

end TraceViewer.Snippet
