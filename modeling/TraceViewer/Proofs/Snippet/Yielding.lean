import TraceViewer.Proofs.Snippet.Phrases
import TraceViewer.Proofs.Snippet.Tallest

/-!
# Productions that give back what was printed

`Yields` says what a production makes of given tokens, whatever tokens follow them.  It is refused
only for want of levels, and only where more of them are needed than there are.
-/

namespace TraceViewer.Snippet

/-! ## 1. Rules -/

/-- The cursor stands so deep before these lexemes, up to the end of the input.  Where the holes of
templates are does not matter. -/
structure Cursor.IsAt (c : Cursor) (k : Nat) (ls : List Lexeme) : Prop where
  tokens : c.tokens.map (fun t => t.lexeme.unplaced) = ls ++ [.finish]
  depth : c.depth = k

/-- Before the lexemes `ls` at depth `k` the production gives `a`, and leaves the lexemes `ls'` at
depth `k'`.  It may be refused if `m` levels are more than there are. -/
def Yields {α : Type} (m k : Nat) (ls : List Lexeme) (p : Production α) (k' : Nat)
    (ls' : List Lexeme) (a : α) : Prop :=
  ∀ c, Cursor.IsAt c k ls → (∃ c', p c = .ok a c' ∧ Cursor.IsAt c' k' ls') ∨
    (maxSourceNesting < m ∧ ∃ offset c', p c = .error (.badSource offset .tooDeep) c')

theorem eq_of_unplaced {l l' : Lexeme} (h : l.unplaced = l')
    (hl' : ∀ parts holes, l' ≠ .template parts holes) : l = l' := by
  cases l with
  | template parts holes => exact absurd h.symm (hl' parts _)
  | _ => exact h

theorem eq_punct_of_unplaced {l : Lexeme} {p : Punct} (h : l.unplaced = .punct p) : l = .punct p :=
  eq_of_unplaced h fun _ _ h => by cases h

theorem isPunct_unplaced (l : Lexeme) (p : Punct) : l.unplaced.isPunct p = l.isPunct p := by
  cases l <;> rfl

theorem opAt?_unplaced {α : Type} (op? : Punct → Option α) (l : Lexeme) :
    opAt? op? l.unplaced = opAt? op? l := by
  cases l <;> rfl

section Rules

variable {α β : Type} {m k k' k'' : Nat} {ls ls' ls'' : List Lexeme} {c : Cursor}
  {p : Production α} {a : α} {b : β}

theorem Cursor.IsAt.unplaced (h : Cursor.IsAt c k ls) : c.lexeme.unplaced = firstOf ls := by
  have htokens := h.tokens
  unfold Cursor.lexeme
  cases hts : c.tokens with
  | nil =>
    rw [hts] at htokens
    cases ls <;> cases htokens
  | cons t ts =>
    rw [hts] at htokens
    cases ls with
    | nil => exact (List.cons.inj htokens).1
    | cons l ls => exact (List.cons.inj htokens).1

theorem Cursor.IsAt.lexeme (h : Cursor.IsAt c k ls)
    (hfirst : ∀ parts holes, firstOf ls ≠ .template parts holes) : c.lexeme = firstOf ls :=
  eq_of_unplaced h.unplaced hfirst

theorem Cursor.IsAt.advance {l : Lexeme} (h : Cursor.IsAt c k (l :: ls)) :
    Cursor.IsAt c.advance k ls := by
  obtain ⟨tokens, depth, patterns⟩ := c
  obtain ⟨htokens, hdepth⟩ := h
  match tokens with
  | [] => cases htokens
  | [_] => cases ls <;> cases (List.cons.inj htokens).2
  | _ :: next :: rest => exact ⟨(List.cons.inj htokens).2, hdepth⟩

theorem Cursor.IsAt.atPunct (h : Cursor.IsAt c k ls) (p : Punct) :
    c.atPunct p = (firstOf ls).isPunct p := by
  rw [← h.unplaced, isPunct_unplaced]
  rfl

theorem Yields.pure : Yields m k ls (pure a) k ls a := fun c hc => .inl ⟨c, rfl, hc⟩

theorem Yields.bind {f : α → Production β} (h : Yields m k ls p k' ls' a)
    (hf : Yields m k' ls' (f a) k'' ls'' b) : Yields m k ls (p >>= f) k'' ls'' b := by
  intro c hc
  show (∃ c', EStateM.bind p f c = _ ∧ _) ∨ (_ ∧ ∃ offset c', EStateM.bind p f c = _)
  unfold EStateM.bind
  rcases h c hc with ⟨c', ha, hc'⟩ | ⟨hm, offset, c', he⟩
  · rw [ha]
    exact hf c' hc'
  · rw [he]
    exact .inr ⟨hm, offset, c', rfl⟩

theorem Yields.map {f : α → β} (h : Yields m k ls p k' ls' a) :
    Yields m k ls (f <$> p) k' ls' (f a) := by
  rw [← bind_pure_comp]
  exact h.bind .pure

/-- Looking at the cursor tells what follows. -/
theorem Yields.get {f : Cursor → Production β}
    (hf : ∀ c, Cursor.IsAt c k ls → Yields m k ls (f c) k' ls' b) :
    Yields m k ls (get >>= f) k' ls' b :=
  fun c hc => hf c hc c hc

namespace Production

theorem yields_advance {l : Lexeme} : Yields m k (l :: ls) advance k ls () := fun c hc =>
  .inl ⟨c.advance, rfl, hc.advance⟩

theorem yields_eat {q : Punct} {f : Bool → Production β}
    (hf : Yields m k ls (f true) k' ls' b) :
    Yields m k (.punct q :: ls) (eat q >>= f) k' ls' b := by
  refine Yields.bind (.get fun c hc => ?_) hf
  rw [hc.atPunct, firstOf, Lexeme.isPunct, beq_self_eq_true, if_pos rfl]
  exact yields_advance.bind .pure

theorem yields_eat_other {q : Punct} {f : Bool → Production β}
    (hq : (firstOf ls).isPunct q = false) (hf : Yields m k ls (f false) k' ls' b) :
    Yields m k ls (eat q >>= f) k' ls' b := by
  refine Yields.bind (.get fun c hc => ?_) hf
  rw [hc.atPunct, hq, if_neg Bool.false_ne_true]
  exact .pure

theorem yields_expect {q : Punct} : Yields m k (.punct q :: ls) (expect q) k ls () :=
  yields_eat .pure

theorem yields_bound {f : Nat → Production β}
    (hf : ∀ rounds, ls.length < rounds → Yields m k ls (f rounds) k' ls' b) :
    Yields m k ls (bound >>= f) k' ls' b := by
  intro c hc
  refine hf c.tokens.length ?_ c hc
  have hlength := congrArg List.length hc.tokens
  rw [List.length_map, List.length_append] at hlength
  rw [hlength]
  exact Nat.lt_succ_self _

theorem yields_descend (hk : k < m) : Yields m k ls descend (k + 1) ls () := by
  intro c hc
  rw [descend_apply, hc.depth]
  split
  · next hdeep => exact .inr ⟨Nat.lt_of_lt_of_le hdeep hk, _, _, rfl⟩
  · exact .inl ⟨_, rfl, hc.tokens, rfl⟩

theorem yields_ascend {levels : Nat} : Yields m (k + levels) ls (ascend levels) k ls () := by
  intro c hc
  refine .inl ⟨{ c with depth := c.depth - levels }, rfl, hc.tokens, ?_⟩
  show c.depth - levels = k
  rw [hc.depth, Nat.add_sub_cancel]

end Production

theorem Yields.nested (hk : k < m) (h : Yields m (k + 1) ls p (k + 1) ls' a) :
    Yields m k ls (Production.nested p) k ls' a :=
  (Production.yields_descend hk).bind (h.bind (Production.yields_ascend.bind .pure))

end Rules

/-! ## 2. Operators -/

/-- The production reads these lexemes as the expression, whatever follows that makes it stop. -/
def YieldsUntil (m : Nat) (p : Production Expr) (stop : Lexeme → Bool) (k : Nat)
    (ts : List Lexeme) (e : Expr) : Prop :=
  ∀ ls, stop (firstOf ls) = true → Yields m k (ts ++ ls) p k ls e

namespace Production

section Rank

variable {α : Type} {op? : Punct → Option α} {join : α → Expr → Expr → Expr} {op : α} {q : Punct}
  {operand : Production Expr} {stop : Lexeme → Bool} {m k : Nat} {ts us : List Lexeme}
  {e d : Expr}

/-- A chain ends where no operator of the rank follows. -/
theorem yields_operatorsFrom_none {links rounds k' : Nat} {ls : List Lexeme}
    (hls : opAt? op? (firstOf ls) = none) (hrounds : 0 < rounds) (hk : k' = k + links) :
    Yields m k' ls (operatorsFrom op? join operand links e rounds) k ls e := by
  subst hk
  obtain ⟨rounds, rfl⟩ := Nat.exists_eq_succ_of_ne_zero (Nat.ne_of_gt hrounds)
  refine .get fun c hc => ?_
  have hlexeme : opAt? op? c.lexeme = none := by rw [← opAt?_unplaced, hc.unplaced, hls]
  dsimp only
  split
  · exact yields_ascend.bind .pure
  · next heq => cases hlexeme.symm.trans heq

/-- A rank of operators reads these lexemes as the start of a chain: behind them it has gone down so
many levels and holds the expression, and what it gives is decided by what it does from there. -/
def Chains (m : Nat) (op? : Punct → Option α) (join : α → Expr → Expr → Expr)
    (operand : Production Expr) (stop : Lexeme → Bool) (k : Nat) (ts : List Lexeme) (links : Nat)
    (e : Expr) : Prop :=
  ∀ ls k' ls' d, stop (firstOf ls) = true →
    (∀ rounds, ls.length < rounds →
      Yields m (k + links) ls (operatorsFrom op? join operand links e rounds) k' ls' d) →
    Yields m k (ts ++ ls) (operators op? join operand) k' ls' d

/-- A single operand starts a chain. -/
theorem chains_operand (h : YieldsUntil m operand stop k ts e) :
    Chains m op? join operand stop k ts 0 e :=
  fun ls _ _ _ hstop hrest => (h ls hstop).bind (yields_bound hrest)

/-- An operator of the rank with an operand behind it makes a chain longer. -/
theorem Chains.link {links : Nat} (h : Chains m op? join operand stop k ts links e)
    (g : YieldsUntil m operand stop (k + links + 1) us d) (hop : op? q = some op)
    (hq : stop (.punct q) = true) (hk : k + links < m) :
    Chains m op? join operand stop k (ts ++ .punct q :: us) (links + 1) (join op e d) := by
  intro ls k' ls' b hstop hrest
  rw [List.append_assoc]
  refine h (.punct q :: (us ++ ls)) k' ls' b hq fun rounds hrounds => ?_
  rw [List.length_cons, List.length_append] at hrounds
  obtain ⟨rounds, rfl⟩ := Nat.exists_eq_succ_of_ne_zero (Nat.ne_of_gt (Nat.zero_lt_of_lt hrounds))
  refine .get fun c hc => ?_
  have hlexeme : opAt? op? c.lexeme = some op := by
    rw [← opAt?_unplaced, hc.unplaced]
    exact hop
  dsimp only
  split
  · next heq => cases hlexeme.symm.trans heq
  next heq =>
  cases hlexeme.symm.trans heq
  exact yields_advance.bind ((yields_descend hk).bind ((g ls hstop).bind
    (hrest rounds (by omega))))

/-- Where no operator of the rank follows, the chain is what the rank reads. -/
theorem Chains.ends {links : Nat} (h : Chains m op? join operand stop k ts links e) :
    YieldsUntil m (operators op? join operand) (endsRank op? stop) k ts e := by
  intro ls hls
  obtain ⟨hstop, hnone⟩ := Bool.and_eq_true_iff.mp hls
  exact h ls k ls e hstop fun rounds hrounds =>
    yields_operatorsFrom_none (Option.isNone_iff_eq_none.mp hnone) (Nat.zero_lt_of_lt hrounds) rfl

/-- A rank of operators reads single operands as the rank below does. -/
theorem yields_rank (h : YieldsUntil m operand stop k ts e) :
    YieldsUntil m (operators op? join operand) (endsRank op? stop) k ts e :=
  (chains_operand h).ends

/-- Two operands are joined by an operator of the rank. -/
theorem yields_joined (h : YieldsUntil m operand stop k ts e)
    (g : YieldsUntil m operand stop (k + 1) us d) (hop : op? q = some op)
    (hq : stop (.punct q) = true) (hk : k < m) :
    YieldsUntil m (operators op? join operand) (endsRank op? stop) k (ts ++ .punct q :: us)
      (join op e d) :=
  ((chains_operand h).link g hop hq hk).ends

end Rank

section Ranks

variable {inner : Level} {m k : Nat} {ts us : List Lexeme} {e d : Expr}

/-- What a rank reads all looser ranks read. -/
theorem yields_of_conjunction (h : YieldsUntil m (conjunction inner) (endsRank andOp?
    (endsRank equalityOp? (endsRank relationalOp? (endsRank additiveOp?
      (endsRank multiplicativeOp? endsUnary))))) k ts e) :
    YieldsUntil m (disjunction inner) endsDisjunction k ts e :=
  yields_rank h

theorem yields_of_equality (h : YieldsUntil m (equality inner) (endsRank equalityOp?
    (endsRank relationalOp? (endsRank additiveOp?
      (endsRank multiplicativeOp? endsUnary)))) k ts e) :
    YieldsUntil m (disjunction inner) endsDisjunction k ts e :=
  yields_of_conjunction (yields_rank h)

theorem yields_of_relational (h : YieldsUntil m (relational inner) (endsRank relationalOp?
    (endsRank additiveOp? (endsRank multiplicativeOp? endsUnary))) k ts e) :
    YieldsUntil m (disjunction inner) endsDisjunction k ts e :=
  yields_of_equality (yields_rank h)

theorem yields_of_additive (h : YieldsUntil m (additive inner) (endsRank additiveOp?
    (endsRank multiplicativeOp? endsUnary)) k ts e) :
    YieldsUntil m (disjunction inner) endsDisjunction k ts e :=
  yields_of_relational (yields_rank h)

theorem yields_of_multiplicative (h : YieldsUntil m (multiplicative inner)
    (endsRank multiplicativeOp? endsUnary) k ts e) :
    YieldsUntil m (disjunction inner) endsDisjunction k ts e :=
  yields_of_additive (yields_rank h)

theorem yields_of_unary (h : YieldsUntil m inner.unary endsUnary k ts e) :
    YieldsUntil m (disjunction inner) endsDisjunction k ts e :=
  yields_of_multiplicative (yields_rank h)

variable (h : YieldsUntil m inner.unary endsUnary k ts e)
  (g : YieldsUntil m inner.unary endsUnary (k + 1) us d) (hk : k < m)

include h g hk

theorem yields_binary (op : BinaryOp) :
    YieldsUntil m (disjunction inner) endsDisjunction k (ts ++ .punct op.punct :: us)
      (.binary op e d) := by
  -- tighter ranks read the operands, looser ones the whole
  cases op
  case mul | div | rem => exact yields_of_multiplicative (yields_joined h g rfl rfl hk)
  case add | sub =>
    exact yields_of_additive (yields_joined (yields_rank h) (yields_rank g) rfl rfl hk)
  case less | lessEq | greater | greaterEq =>
    exact yields_of_relational (yields_joined (yields_rank (yields_rank h))
      (yields_rank (yields_rank g)) rfl rfl hk)
  case looseEq | looseNe | strictEq | strictNe =>
    exact yields_of_equality (yields_joined (yields_rank (yields_rank (yields_rank h)))
      (yields_rank (yields_rank (yields_rank g))) rfl rfl hk)

theorem yields_logical (op : LogicalOp) :
    YieldsUntil m (disjunction inner) endsDisjunction k (ts ++ .punct op.punct :: us)
      (.logical op e d) := by
  have hequality {k : Nat} {ts : List Lexeme} {e : Expr}
      (h : YieldsUntil m inner.unary endsUnary k ts e) :
      YieldsUntil m (equality inner) (endsRank equalityOp? (endsRank relationalOp?
        (endsRank additiveOp? (endsRank multiplicativeOp? endsUnary)))) k ts e :=
    yields_rank (yields_rank (yields_rank (yields_rank h)))
  cases op
  case and => exact yields_of_conjunction (yields_joined (hequality h) (hequality g) rfl rfl hk)
  case or | nullish =>
    exact yields_joined (yields_rank (hequality h)) (yields_rank (hequality g)) rfl rfl hk

end Ranks

/-! ## 3. Starts of functions -/

/-- Whether names, a closing parenthesis and an arrow stand at the start. -/
def namesArrow : List Lexeme → Bool
  | .name _ :: .punct .comma :: rest => namesArrow rest
  | .name _ :: .punct .parenClose :: .punct .arrow :: _ => true
  | _ => false

/-- Whether an expression that starts so is a function. -/
def isArrow : List Lexeme → Bool
  | .name _ :: .punct .arrow :: _ => true
  | .punct .parenOpen :: .punct .parenClose :: .punct .arrow :: _ => true
  | .punct .parenOpen :: rest => namesArrow rest
  | _ => false

theorem arrowFollows_eq (ts : List Token) :
    arrowFollows ts = namesArrow (ts.map fun t => t.lexeme.unplaced) := by
  match ts with
  | [] => rfl
  | [⟨l, _⟩] => cases l <;> rfl
  | ⟨l, _⟩ :: ⟨l', _⟩ :: rest =>
    cases l with
    | name =>
      cases l' with
      | punct p =>
        cases p with
        | comma => exact arrowFollows_eq rest
        | parenClose =>
          match rest with
          | [] => rfl
          | ⟨l'', _⟩ :: _ =>
            cases l'' with
            | punct p => cases p <;> rfl
            | _ => rfl
        | _ => rfl
      | _ => rfl
    | _ => rfl

theorem arrowStarts_eq {t : Token} {ts : List Token} (ht : t.lexeme = .punct .parenOpen) :
    arrowStarts (t :: ts) = isArrow ((t :: ts).map fun t => t.lexeme.unplaced) := by
  have hnames := arrowFollows_eq ts
  match ts with
  | [] =>
    rw [List.map_cons, ht]
    rfl
  | [⟨l, _⟩] =>
    rw [List.map_cons, ht]
    cases l with
    | punct p => cases p <;> exact hnames
    | _ => exact hnames
  | ⟨l, _⟩ :: ⟨l', _⟩ :: rest =>
    rw [List.map_cons, ht]
    cases l with
    | punct p =>
      cases p with
      | parenClose =>
        cases l' with
        | punct p => cases p <;> rfl
        | _ => exact hnames
      | _ => exact hnames
    | _ => exact hnames

section Starts

variable {m k : Nat} {ls ls' : List Lexeme}

/-- The end of the input starts no function. -/
theorem yields_arrowParams_none (h : isArrow (ls ++ [.finish]) = false) :
    Yields m k ls arrowParams? k ls none := by
  refine .get fun c hc => ?_
  rw [← hc.tokens] at h
  unfold Cursor.lexeme Cursor.ahead
  cases hts : c.tokens with
  | nil => exact .pure
  | cons t ts =>
    rw [hts] at h
    dsimp only
    split
    · next name hname harrow =>
      -- a name before an arrow would be the only parameter
      rw [List.map_cons, hname] at h
      cases ts with
      | nil => cases harrow
      | cons t' ts =>
        have harrow : t'.lexeme = .punct .arrow := harrow
        rw [List.map_cons, harrow] at h
        cases h
    · next hopen =>
      rw [arrowStarts_eq hopen, h]
      exact .pure
    · exact .pure

theorem isArrow_of_isNoParam {ls : List Lexeme} (h : isNoParam ls = true) (ls' : List Lexeme) :
    isArrow (ls ++ ls') = false ∧ isArrow (.punct .parenOpen :: (ls ++ ls')) = false := by
  match ls with
  | [] => cases h
  | .name _ :: l :: ls =>
    cases l with
    | punct p => cases p <;> first | exact ⟨rfl, rfl⟩ | cases h
    | _ => exact ⟨rfl, rfl⟩
  | .punct p :: ls => cases p <;> first | exact ⟨rfl, rfl⟩ | cases h
  | .number _ :: _ | .text _ :: _ | .pattern .. :: _ | .template .. :: _ | .finish :: _ =>
    exact ⟨rfl, rfl⟩

/-- An expression in parentheses is no list of parameters. -/
theorem isArrow_parens {e : Expr} (h : e.IsPrintable) (hatom : e.isAtom = false)
    (ls : List Lexeme) : isArrow (.punct .parenOpen :: (e.lexemes ++ ls)) = false := by
  cases hfunction : e.isFunction with
  | true =>
    cases e with
    | function f =>
      cases f
      rw [Expr.lexemes, Function.lexemes]
      rfl
    | _ => cases hfunction
  | false =>
    rcases lexemes_start h hatom hfunction with ⟨d, p, ls', hd, hp, he⟩ | hstart
    · rw [he]
      -- the operand is a name with an operator behind it, or has parentheses of its own
      cases hd' : d.isAtom with
      | true =>
        obtain ⟨l, hl, hl'⟩ := lexemes_of_isAtom hd hd'
        rw [operand_of_isAtom hd', hl]
        cases l with
        | name => cases p <;> first | rfl | cases hp
        | punct => cases hl'
        | _ => rfl
      | false =>
        rw [operand_of_not hd']
        rfl
    · exact (isArrow_of_isNoParam hstart ls).2

theorem isArrow_name {ls : List Lexeme} (hls : (firstOf ls).isPunct .arrow = false)
    (word : String) : isArrow (.name word :: ls) = false := by
  match ls with
  | [] => rfl
  | l :: _ =>
    cases l with
    | punct p => cases p <;> first | rfl | cases hls
    | _ => rfl

theorem isArrow_operand {e : Expr} (h : e.IsPrintable) {ls : List Lexeme}
    (hls : (firstOf ls).isPunct .arrow = false) : isArrow (e.operand ++ ls) = false := by
  cases hatom : e.isAtom with
  | true =>
    obtain ⟨l, hl, hsimple⟩ := lexemes_of_isAtom h hatom
    rw [operand_of_isAtom hatom, hl]
    cases l with
    | name => exact isArrow_name hls _
    | punct => cases hsimple
    | _ => rfl
  | false =>
    rw [operand_of_not hatom, List.cons_append, List.append_assoc]
    exact isArrow_parens h hatom _

theorem isArrow_lexemes {e : Expr} (h : e.IsPrintable) (hatom : e.isAtom = false)
    (hfunction : e.isFunction = false) (ls : List Lexeme) : isArrow (e.lexemes ++ ls) = false := by
  rcases lexemes_start h hatom hfunction with ⟨d, p, ls', hd, hp, he⟩ | hstart
  · rw [he, List.append_assoc]
    refine isArrow_operand hd ?_
    cases p <;> first | rfl | cases hp
  · exact (isArrow_of_isNoParam hstart ls).1

end Starts

/-! ## 4. Lists -/

/-- Every piece is followed by a comma but the last. -/
theorem commas_map_cons {α : Type} (f : α → List Lexeme) (x y : α) (xs : List α) :
    commas ((x :: y :: xs).map f) = f x ++ .punct .comma :: commas ((y :: xs).map f) :=
  rfl

theorem length_le_commas {pieces : List (List Lexeme)} (h : ∀ ls ∈ pieces, ls ≠ []) :
    pieces.length ≤ (commas pieces).length := by
  fun_induction commas pieces with
  | case1 => exact Nat.le_refl 0
  | case2 ls => exact List.length_pos_iff.mpr (h ls List.mem_cons_self)
  | case3 ls rest _ ih =>
    obtain ⟨-, hrest⟩ := List.forall_mem_cons.mp h
    have hlength := ih hrest
    rw [List.length_append, List.length_cons, List.length_cons]
    omega

section Params

variable {m k : Nat} {ls : List Lexeme}

theorem namesArrow_params (name : String) (names : List String) :
    namesArrow (commas (paramLexemes (name :: names)) ++
      .punct .parenClose :: .punct .arrow :: ls) = true := by
  induction names generalizing name with
  | nil => rfl
  | cons next names ih => exact ih next

theorem isArrow_params (names : List String) :
    isArrow (.punct .parenOpen :: (commas (paramLexemes names) ++
      .punct .parenClose :: .punct .arrow :: ls)) = true := by
  match names with
  | [] => rfl
  | [_] => rfl
  | name :: next :: names => exact namesArrow_params name (next :: names)

theorem yields_bindingName {name : String} (h : isReserved name = false) :
    Yields m k (.name name :: ls) bindingName k ls name := by
  refine .get fun c hc => ?_
  have hlexeme : c.lexeme = .name name := hc.lexeme nofun
  rw [hlexeme]
  dsimp only
  rw [if_neg (by rw [h]; exact Bool.false_ne_true)]
  exact yields_advance.bind .pure

theorem yields_paramsFrom {name : String} {names : List String} (acc : List String) {rounds : Nat}
    (h : ∀ name' ∈ name :: names, isReserved name' = false) (hrounds : names.length < rounds) :
    Yields m k (commas (paramLexemes (name :: names)) ++ .punct .parenClose :: ls)
      (paramsFrom acc rounds) k ls (acc.reverse ++ name :: names) := by
  induction names generalizing name acc rounds with
  | nil =>
    obtain ⟨rounds, rfl⟩ := Nat.exists_eq_succ_of_ne_zero (Nat.ne_of_gt hrounds)
    refine (yields_bindingName (h name List.mem_cons_self)).bind (yields_eat ?_)
    rw [← List.reverse_cons]
    exact .pure
  | cons next names ih =>
    obtain ⟨rounds, rfl⟩ := Nat.exists_eq_succ_of_ne_zero (Nat.ne_of_gt (Nat.zero_lt_of_lt hrounds))
    obtain ⟨hname, hnames⟩ := List.forall_mem_cons.mp h
    have hrest := ih (name :: acc) hnames (Nat.lt_of_succ_lt_succ hrounds)
    rw [List.reverse_cons, List.append_assoc] at hrest
    exact (yields_bindingName hname).bind (yields_eat_other rfl (yields_expect.bind hrest))

theorem yields_params {names : List String} (h : ∀ name ∈ names, isReserved name = false) :
    Yields m k (commas (paramLexemes names) ++ .punct .parenClose :: ls) params k ls names := by
  cases names with
  | nil => exact yields_eat .pure
  | cons name names =>
    have hother : (firstOf (commas (paramLexemes (name :: names)) ++
        .punct .parenClose :: ls)).isPunct .parenClose = false := by
      cases names <;> rfl
    refine yields_eat_other hother (yields_bound fun rounds hrounds => ?_)
    have hlength : (paramLexemes (name :: names)).length ≤ _ :=
      length_le_commas (List.forall_mem_map.mpr fun _ _ => List.cons_ne_nil _ _)
    rw [paramLexemes, List.length_map, List.length_cons] at hlength
    rw [List.length_append, paramLexemes] at hrounds
    exact yields_paramsFrom [] h (by omega)

/-- The parameters of a function are read with its arrow. -/
theorem yields_arrowParams {names : List String} (h : ∀ name ∈ names, isReserved name = false) :
    Yields m k (.punct .parenOpen :: (commas (paramLexemes names) ++
      .punct .parenClose :: .punct .arrow :: ls)) arrowParams? k ls (some names) := by
  refine .get fun c hc => ?_
  have hlexeme : c.lexeme = .punct .parenOpen := hc.lexeme nofun
  have hstarts : arrowStarts c.tokens = true := by
    have htokens := hc.tokens
    unfold Cursor.lexeme at hlexeme
    cases hts : c.tokens with
    | nil =>
      rw [hts] at hlexeme
      cases hlexeme
    | cons t ts =>
      rw [hts] at hlexeme htokens
      rw [arrowStarts_eq hlexeme, htokens, List.cons_append, List.append_assoc]
      exact isArrow_params names
  rw [hlexeme]
  dsimp only
  rw [hstarts]
  exact yields_advance.bind ((yields_params h).bind (yields_expect.bind .pure))

end Params

/-- What ends an expression that stands in another. -/
def closes : Lexeme → Bool
  | .finish | .punct .parenClose | .punct .bracketClose | .punct .braceClose | .punct .comma
  | .punct .colon => true
  | _ => false

theorem isPunct_operand {e : Expr} (h : e.IsPrintable) (ls : List Lexeme) {p : Punct}
    (hp : p ≠ .parenOpen) : (firstOf (e.operand ++ ls)).isPunct p = false := by
  obtain ⟨l, ls', hl, hatom | rfl⟩ := operand_start h
  · rw [hl]
    cases l with
    | punct => cases hatom
    | _ => rfl
  · rw [hl]
    exact beq_false_of_ne hp.symm

section Lists

variable {inner : Level} {m k : Nat} {ls : List Lexeme}

theorem yields_argumentsFrom {e : Expr} {es : List Expr} (acc : List Expr) {rounds : Nat}
    (h : ∀ d ∈ e :: es, YieldsUntil m inner.assignment closes k d.operand d)
    (hrounds : es.length < rounds) :
    Yields m k (commas ((e :: es).map Expr.operand) ++ .punct .parenClose :: ls)
      (argumentsFrom inner acc rounds) k ls (acc.reverse ++ e :: es) := by
  obtain ⟨rounds, rfl⟩ := Nat.exists_eq_succ_of_ne_zero (Nat.ne_of_gt (Nat.zero_lt_of_lt hrounds))
  obtain ⟨he, hes⟩ := List.forall_mem_cons.mp h
  induction es generalizing e acc rounds with
  | nil =>
    refine (he _ rfl).bind (yields_eat ?_)
    rw [← List.reverse_cons]
    exact .pure
  | cons next es ih =>
    have hrounds : es.length < rounds := Nat.lt_of_succ_lt_succ hrounds
    obtain ⟨rounds, rfl⟩ := Nat.exists_eq_succ_of_ne_zero (Nat.ne_of_gt (Nat.zero_lt_of_lt hrounds))
    obtain ⟨hnext, hrest⟩ := List.forall_mem_cons.mp hes
    have hlater := ih (e :: acc) hes rounds hrounds hnext hrest
    rw [List.reverse_cons, List.append_assoc] at hlater
    rw [commas_map_cons, List.append_assoc]
    exact (he _ rfl).bind (yields_eat_other rfl (yields_expect.bind hlater))

theorem yields_itemsFrom {es : List Expr} (acc : List Expr) {rounds : Nat}
    (hprintable : ∀ d ∈ es, d.IsPrintable)
    (h : ∀ d ∈ es, YieldsUntil m inner.assignment closes k d.operand d)
    (hrounds : es.length < rounds) :
    Yields m k (commas (es.map Expr.operand) ++ .punct .bracketClose :: ls)
      (itemsFrom inner acc rounds) k ls (acc.reverse ++ es) := by
  obtain ⟨rounds, rfl⟩ := Nat.exists_eq_succ_of_ne_zero (Nat.ne_of_gt (Nat.zero_lt_of_lt hrounds))
  induction es generalizing acc rounds with
  | nil =>
    rw [List.append_nil]
    exact yields_eat .pure
  | cons e es ih =>
    have hrounds : es.length < rounds := Nat.lt_of_succ_lt_succ hrounds
    obtain ⟨rounds, rfl⟩ := Nat.exists_eq_succ_of_ne_zero (Nat.ne_of_gt (Nat.zero_lt_of_lt hrounds))
    obtain ⟨heprintable, hprintable⟩ := List.forall_mem_cons.mp hprintable
    obtain ⟨he, hes⟩ := List.forall_mem_cons.mp h
    have hlater := ih (e :: acc) hprintable hes rounds hrounds
    rw [List.reverse_cons, List.append_assoc] at hlater
    cases es with
    | nil =>
      refine yields_eat_other (isPunct_operand heprintable _ nofun) ((he _ rfl).bind ?_)
      refine .get fun c hc => ?_
      have hclose : c.atPunct .bracketClose = true := hc.atPunct _
      dsimp only
      rw [hclose]
      exact hlater
    | cons next es =>
      rw [commas_map_cons, List.append_assoc]
      refine yields_eat_other (isPunct_operand heprintable _ nofun) ((he _ rfl).bind ?_)
      refine .get fun c hc => ?_
      have hclose : c.atPunct .bracketClose = false := hc.atPunct _
      dsimp only
      rw [hclose]
      exact yields_expect.bind hlater

theorem yields_entryKey {key : String} : Yields m k (.text key :: ls) entryKey k ls key := by
  refine .get fun c hc => yields_advance.bind ?_
  have hlexeme : c.lexeme = .text key := hc.lexeme nofun
  rw [hlexeme]
  exact .pure

theorem yields_entriesFrom {entries : List (String × Expr)} (acc : List (String × Expr))
    {rounds : Nat}
    (h : ∀ x ∈ entries, YieldsUntil m inner.assignment closes k x.2.operand x.2)
    (hrounds : entries.length < rounds) :
    Yields m k (commas (entries.map entry) ++ .punct .braceClose :: ls)
      (entriesFrom inner acc rounds) k ls (acc.reverse ++ entries) := by
  obtain ⟨rounds, rfl⟩ := Nat.exists_eq_succ_of_ne_zero (Nat.ne_of_gt (Nat.zero_lt_of_lt hrounds))
  induction entries generalizing acc rounds with
  | nil =>
    rw [List.append_nil]
    exact yields_eat .pure
  | cons x entries ih =>
    have hrounds : entries.length < rounds := Nat.lt_of_succ_lt_succ hrounds
    obtain ⟨rounds, rfl⟩ := Nat.exists_eq_succ_of_ne_zero (Nat.ne_of_gt (Nat.zero_lt_of_lt hrounds))
    obtain ⟨hx, hentries⟩ := List.forall_mem_cons.mp h
    have hlater := ih (x :: acc) hentries rounds hrounds
    rw [List.reverse_cons, List.append_assoc] at hlater
    cases entries with
    | nil =>
      refine yields_eat_other rfl (yields_entryKey.bind (yields_eat ((hx _ rfl).bind ?_)))
      refine .get fun c hc => ?_
      have hclose : c.atPunct .braceClose = true := hc.atPunct _
      dsimp only
      rw [hclose]
      exact hlater
    | cons next entries =>
      rw [commas_map_cons, List.append_assoc]
      refine yields_eat_other rfl (yields_entryKey.bind (yields_eat ((hx _ rfl).bind ?_)))
      refine .get fun c hc => ?_
      have hclose : c.atPunct .braceClose = false := hc.atPunct _
      dsimp only
      rw [hclose]
      exact yields_expect.bind hlater

end Lists

end Production

end TraceViewer.Snippet
