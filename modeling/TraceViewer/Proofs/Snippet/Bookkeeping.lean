import TraceViewer.Proofs.Snippet.Moving
import TraceViewer.Proofs.Snippet.Walking

/-!
# The reader keeps count of its tokens and levels

A production never takes the end of the text and never counts more than one level over the limit,
whatever tokens it meets.  Where it succeeds, the levels are counted as before and tokens were taken
from the front, at least one of them by everything that reads a statement or an expression
(`production_bookkeeping`).  That is why the loops of the reader have as many rounds as they need.
-/

namespace TraceViewer.Snippet.Production

/-! ## 1. Productions of one level -/

/-- The productions of a level take a token at least, and keep the levels. -/
structure Level.Counts (l : Level) : Prop where
  statement : Eats 1 l.statement
  assignment : Eats 1 l.assignment
  unary : Eats 1 l.unary

section Level

variable {inner : Level} (h : inner.Counts)
include h

theorem consumes_blockFrom (acc : List Stmt) (rounds : Nat) :
    Consumes rounds 0 1 (blockFrom inner acc rounds) := by
  induction rounds generalizing acc with
  | zero => exact consumes_zero
  | succ rounds ih =>
    refine consumes_eat .pure (.get fun c => ?_)
    split
    · exact consumes_fail c
    · refine (h.statement _ c).bind fun s => (ih (s :: acc)).mono ?_ ?_
      all_goals omega

theorem eats_block : Eats 1 (block inner) := fun _ =>
  (eats_expect _ _).bind fun _ => consumes_bound fun rounds =>
    (consumes_blockFrom h [] rounds).uncounted

theorem eats_functionRest (needsName : Bool) : Eats 1 (functionRest inner needsName) := by
  intro m
  let rest (name : Option String) : Production Function := do
    expect .parenOpen
    let params ← params
    return Function.mk name params (.block (← block inner))
  have hrest (name : Option String) : Eats 1 (rest name) := fun _ =>
    (eats_expect _ _).bind fun _ => (eats_params _).bind fun _ =>
      (eats_block h _).bind fun _ => .pure
  have hname (isNamed : Bool) :
      Consumes m 0 1 (if isNamed = true then (some <$> bindingName) >>= rest else rest none) := by
    split
    · exact (eats_bindingName m).map.bind fun name => (hrest name _).uncounted
    · exact hrest none m
  exact .get fun c => hname _ c

theorem consumes_argumentsFrom (acc : List Expr) (rounds : Nat) :
    Consumes rounds 0 1 (argumentsFrom inner acc rounds) := by
  induction rounds generalizing acc with
  | zero => exact consumes_zero
  | succ rounds ih =>
    refine (h.assignment _).bind fun e => consumes_eat .pure ?_
    refine (eats_expect _ _).bind fun _ => (ih (e :: acc)).mono ?_ ?_
    all_goals omega

theorem eats_arguments : Eats 1 (arguments inner) := fun _ =>
  consumes_eat .pure (consumes_bound (consumes_argumentsFrom h []))

theorem consumes_itemsFrom (acc : List Expr) (rounds : Nat) :
    Consumes rounds 0 1 (itemsFrom inner acc rounds) := by
  induction rounds generalizing acc with
  | zero => exact consumes_zero
  | succ rounds ih =>
    refine consumes_eat .pure ((h.assignment _).bind fun e => .get fun c => ?_)
    split
    · refine ((eats_expect _ _).bind fun _ => (ih (e :: acc)).mono ?_ ?_) c
      all_goals omega
    · exact (ih (e :: acc)).uncounted c

theorem consumes_entriesFrom (acc : List (String × Expr)) (rounds : Nat) :
    Consumes rounds 0 1 (entriesFrom inner acc rounds) := by
  induction rounds generalizing acc with
  | zero => exact consumes_zero
  | succ rounds ih =>
    have hrest (key : String) (value : Expr) {m k : Nat} (hm : m ≤ rounds) (hk : k ≤ 1) :
        Consumes m 0 k (do
          if !(← get).atPunct .braceClose then expect .comma
          entriesFrom inner ((key, value) :: acc) rounds) := by
      refine .get fun c => ?_
      split
      · refine ((eats_expect _ _).bind fun _ => (ih ((key, value) :: acc)).mono ?_ ?_) c
        all_goals omega
      · exact (ih ((key, value) :: acc)).mono hm hk c
    refine consumes_eat .pure ((eats_entryKey _).bind fun key => consumes_eat ?_ ?_)
    · refine (h.assignment _).bind fun value => hrest key value ?_ ?_
      all_goals omega
    · exact hrest key (.ident key) (Nat.le_refl _) (Nat.zero_le _)

theorem eats_alone : Eats 1 (alone inner) := fun _ =>
  (h.assignment _).bind fun _ => (eats_expectEnd _).bind fun _ => .pure

omit h in
theorem hole_eq_onTokens {hole : Hole} {tokens : List Token}
    (htokens : tokenize hole.source = .ok tokens) : Production.hole inner hole =
      onTokens (tokens.map (Token.shifted hole.offset)) (alone inner) := by
  funext c
  rw [hole_of_tokens inner hole htokens, onTokens_apply]
  cases alone inner { c with tokens := tokens.map (Token.shifted hole.offset) } <;> rfl

theorem eats_hole (hole : Hole) : Eats 0 (Production.hole inner hole) := by
  intro m
  cases htokens : tokenize hole.source with
  | error e =>
    obtain ⟨n, fault, rfl, hfault, -⟩ := tokenize_error htokens
    have hhole : Production.hole inner hole = throw (.badSource (n + hole.offset) fault) := by
      funext c
      exact hole_of_error inner hole htokens c
    rw [hhole]
    exact consumes_throw (Error.not_isStall (SourceFault.ne_stalled_of_isLexical hfault))
  | ok tokens =>
    rw [hole_eq_onTokens htokens]
    refine fun c hc => walks_onTokens (eats_alone h) hc ?_
    obtain ⟨us, n, rfl, -⟩ := tokensFrom_eq_append htokens
    rw [List.map_append]
    exact ⟨_, _, rfl⟩

theorem eats_holes (hs : List Hole) : Eats 0 (holes inner hs) := by
  intro m
  induction hs with
  | nil => exact .pure
  | cons hole rest ih => exact (eats_hole h hole _).bind fun _ => ih.bind fun _ => .pure

theorem eats_primary : Eats 1 (primary inner) := by
  intro m
  refine .get fun start => ?_
  have htoken {l : Lexeme} (heq : start.lexeme = l) (hl : l ≠ .finish) :
      ConsumesAt start m 0 1 advance := consumesAt_advance (by rwa [heq])
  have hthrow (w : Wanted) {α : Type} {m k : Nat} :
      Consumes m 0 k (throw (start.unexpected w) : Production α) :=
    consumes_throw (Error.not_isStall (by simp))
  split
  · next heq => exact (htoken heq (by simp)).bind fun _ => .pure
  · next heq => exact (htoken heq (by simp)).bind fun _ => .pure
  · next heq => exact (htoken heq (by simp)).bind fun _ => eats_pattern _ _ _ _
  · next heq =>
    refine (htoken heq (by simp)).bind fun _ => ?_
    split
    · exact .pure
    split
    · exact .pure
    split
    · exact .pure
    split
    · exact .pure
    split
    · exact (eats_functionRest h false _).bind fun _ => .pure
    split
    · exact hthrow _
    · exact .pure
  · next heq => exact (htoken heq (by simp)).bind fun _ => (eats_holes h _ _).bind fun _ => .pure
  · next heq =>
    exact (htoken heq (by simp)).bind fun _ => (h.assignment _).bind fun _ =>
      (eats_expect _ _).bind fun _ => .pure
  · next heq =>
    exact (htoken heq (by simp)).bind fun _ => consumes_bound fun rounds =>
      (consumes_itemsFrom h [] rounds).bind fun _ => .pure
  · next heq =>
    exact (htoken heq (by simp)).bind fun _ => consumes_bound fun rounds =>
      (consumes_entriesFrom h [] rounds).bind fun _ => .pure
  · exact ((eats_advance _).bind fun _ => hthrow _) start

theorem consumes_linksFrom (links : Nat) (head : Expr) (rounds : Nat) :
    Consumes rounds links 0 (linksFrom inner links head rounds) := by
  induction rounds generalizing links head with
  | zero => exact consumes_zero
  | succ rounds ih =>
    -- whatever makes the link, a token of it was taken before the next round
    have hnext (head : Expr) {m : Nat} (hm : m ≤ rounds) :
        Consumes m (links + 1) 0 (linksFrom inner (links + 1) head rounds) :=
      (ih (links + 1) head).mono hm (Nat.le_refl 0)
    have hmember (guarded isMember : Bool) : Consumes (rounds + 1) links 0
        (memberLink inner links head guarded rounds isMember) := by
      unfold memberLink
      split
      · refine consumes_descend (.get fun c => ?_)
        dsimp only
        split
        · next heq =>
          exact (consumesAt_advance (by simp [heq])).bind fun _ =>
            hnext _ (Nat.le_refl rounds)
        · exact ((eats_advance _).bind fun _ => consumes_fail) c
      · exact consumes_ascend
    refine (eats_eat _ _).bind fun guarded => consumes_eat ?_ (consumes_eat ?_ ?_)
    · refine consumes_descend ((h.assignment _).bind fun key => (eats_expect _ _).bind fun _ => ?_)
      exact hnext _ (by omega)
    · refine consumes_descend ((eats_arguments h _).bind fun args => ?_)
      exact hnext _ (by omega)
    · cases guarded with
      | true => exact hmember true true
      | false => exact (eats_eat _ _).bind fun isMember => hmember false isMember

omit h in
theorem lexeme_ne_finish_of_sign {c : Cursor}
    (hc : (c.atPunct .plusPlus || c.atPunct .minusMinus) = true) : c.lexeme ≠ .finish := by
  rcases Bool.or_eq_true .. |>.mp hc with hc | hc
  · rw [lexeme_of_atPunct hc]
    simp
  · rw [lexeme_of_atPunct hc]
    simp

theorem eats_postfixed : Eats 1 (postfixed inner) := by
  intro m
  refine (eats_primary h m).bind fun head => consumes_bound fun rounds => ?_
  refine (consumes_linksFrom h 0 head rounds).bind fun e => .get fun c => ?_
  split
  · split
    · exact ((eats_advance _).bind fun _ => .pure) c
    · exact consumes_fail c
  · exact Consumes.pure c

theorem eats_unaryLevel : Eats 1 (unaryLevel inner) := by
  refine fun m => .get fun c => ?_
  split
  · next hc =>
    refine (consumesAt_advance (lexeme_ne_finish_of_sign hc)).bind fun _ => ?_
    refine (h.unary _).uncounted.bind fun e => ?_
    split
    · exact .pure
    · exact consumes_fail
  · split
    · exact ((eats_advance _).bind fun _ => (h.unary _).bind fun _ => .pure) c
    · exact eats_postfixed h m c

omit h in
theorem consumes_operatorsFrom {α : Type} {op? : Punct → Option α} {join : α → Expr → Expr → Expr}
    {operand : Production Expr} (hoperand : Eats 1 operand) (links : Nat) (left : Expr)
    (rounds : Nat) :
    Consumes rounds links 0 (operatorsFrom op? join operand links left rounds) := by
  induction rounds generalizing links left with
  | zero => exact consumes_zero
  | succ rounds ih =>
    refine .get fun c => ?_
    dsimp only
    split
    · exact consumes_ascend c
    · refine ((eats_advance _).bind fun _ => consumes_descend ?_) c
      refine (hoperand _).bind fun right => (ih _ _).mono ?_ (Nat.zero_le _)
      omega

omit h in
theorem eats_operators {α : Type} (op? : Punct → Option α) (join : α → Expr → Expr → Expr)
    {operand : Production Expr} (hoperand : Eats 1 operand) :
    Eats 1 (operators op? join operand) := fun _ =>
  (hoperand _).bind fun left => consumes_bound (consumes_operatorsFrom hoperand 0 left)

theorem eats_multiplicative : Eats 1 (multiplicative inner) := eats_operators _ _ h.unary

theorem eats_additive : Eats 1 (additive inner) := eats_operators _ _ (eats_multiplicative h)

theorem eats_relational : Eats 1 (relational inner) := eats_operators _ _ (eats_additive h)

theorem eats_equality : Eats 1 (equality inner) := eats_operators _ _ (eats_relational h)

theorem eats_conjunction : Eats 1 (conjunction inner) := eats_operators _ _ (eats_equality h)

theorem eats_disjunction : Eats 1 (disjunction inner) := eats_operators _ _ (eats_conjunction h)

theorem eats_conditional : Eats 1 (conditional inner) := by
  refine fun m => (eats_disjunction h m).bind fun test => consumes_eat ?_ .pure
  exact (h.assignment _).bind fun _ => (eats_expect _ _).bind fun _ =>
    (h.assignment _).bind fun _ => .pure

theorem eats_assignmentLevel : Eats 1 (assignmentLevel inner) := by
  refine fun m => (eats_arrowParams? m).bind fun params => ?_
  split
  · refine .get fun c => .ite (fun _ => ?_) fun _ => ?_
    · exact ((eats_block h _).map.bind fun _ => .pure) c
    · exact ((h.assignment _).map.bind fun _ => .pure) c
  · refine (eats_conditional h _).bind fun target => .get fun c => ?_
    dsimp only
    split
    · exact Consumes.pure c
    · split
      · exact ((eats_advance _).bind fun _ => (h.assignment _).bind fun _ => .pure) c
      · exact consumes_fail c

/-! ## 2. Statements -/

theorem consumes_bindingsFrom (acc : List (String × Option Expr)) (rounds : Nat) :
    Consumes rounds 0 1 (bindingsFrom inner acc rounds) := by
  induction rounds generalizing acc with
  | zero => exact consumes_zero
  | succ rounds ih =>
    have hrest (name : String) (value : Option Expr) {m : Nat} (hm : m ≤ rounds) :
        Consumes m 0 0 (do
          let acc := (name, value) :: acc
          if ← eat .comma then bindingsFrom inner acc rounds else return acc.reverse) := by
      refine consumes_eat ((ih ((name, value) :: acc)).mono ?_ (Nat.zero_le _)) .pure
      omega
    refine (eats_bindingName _).bind fun name => consumes_eat ?_ (hrest name none (Nat.le_refl _))
    refine (h.assignment _).map.bind fun value => hrest name value ?_
    omega

theorem eats_declaration : Eats 1 (declaration inner) := fun _ =>
  consumes_bound fun rounds => (consumes_bindingsFrom h [] rounds).bind fun _ => .pure

theorem eats_unlessAt (w : Punct) : Eats 0 (unlessAt inner w) := by
  refine fun m => .get fun c => .ite (fun _ => ?_) fun _ => ?_
  · exact Consumes.pure c
  · exact (h.assignment m).map.uncounted c

theorem eats_loopInit : Eats 0 (loopInit inner) := by
  refine fun m => .get fun c => .ite (fun _ => ?_) fun _ => .ite (fun _ => ?_) fun _ => ?_
  · exact Consumes.pure c
  · exact ((eats_advance _).bind fun _ => (eats_declaration h _).map.uncounted) c
  · exact ((h.assignment _).bind fun _ => .pure) c

theorem eats_forStatement : Eats 1 (forStatement inner) := by
  refine fun m => (eats_expect _ _).bind fun _ => .get fun c => .ite (fun _ => ?_) fun _ => ?_
  · exact ((eats_advance _).bind fun _ => (eats_bindingName _).bind fun _ =>
      (eats_advance _).bind fun _ => (h.assignment _).bind fun _ => (eats_expect _ _).bind fun _ =>
        (h.statement _).bind fun _ => .pure) c
  · exact ((eats_loopInit h _).bind fun _ => (eats_expect _ _).bind fun _ =>
      (eats_unlessAt h _ _).bind fun _ => (eats_expect _ _).bind fun _ =>
        (eats_unlessAt h _ _).bind fun _ => (eats_expect _ _).bind fun _ =>
          (h.statement _).bind fun _ => .pure) c

theorem eats_condition : Eats 1 (condition inner) := fun _ =>
  (eats_expect _ _).bind fun _ => (h.assignment _).bind fun _ => (eats_expect _ _).bind fun _ =>
    .pure

theorem eats_statementLevel : Eats 1 (statementLevel inner) := by
  intro m
  refine consumes_eat .pure (.get fun c => .ite (fun _ => ?_) fun _ => ?_)
  · exact ((eats_block h _).bind fun _ => .pure) c
  -- the cursor stays where it is as long as no word is taken
  refine consumesAt_eatWord ((eats_functionRest h true _).bind fun _ => .pure) ?_
  refine .ite (fun _ => ?_) fun _ => ?_
  · exact ((eats_advance _).bind fun _ => (eats_declaration h _).bind fun _ =>
      (eats_skipSemicolon _).bind fun _ => .pure) c
  refine consumesAt_eatWord ?_ ?_
  · refine (eats_condition h _).bind fun _ => (h.statement _).bind fun _ c => ?_
    exact consumesAt_eatWord ((h.statement _).map.bind fun _ => .pure) (Consumes.pure c)
  refine consumesAt_eatWord ?_ ?_
  · exact (eats_condition h _).bind fun _ => (h.statement _).bind fun _ => .pure
  refine consumesAt_eatWord (eats_forStatement h _).uncounted ?_
  refine consumesAt_eatWord ((eats_skipSemicolon _).bind fun _ => .pure) ?_
  refine consumesAt_eatWord ((eats_skipSemicolon _).bind fun _ => .pure) ?_
  refine consumesAt_eatWord ?_ ?_
  · refine .get fun c => .ite (fun _ => ?_) fun _ => ?_
    · exact ((eats_skipSemicolon _).bind fun _ => .pure) c
    · exact ((h.assignment _).map.bind fun _ => (eats_skipSemicolon _).bind fun _ => .pure) c
  · exact ((h.assignment _).bind fun _ => (eats_skipSemicolon _).bind fun _ => .pure) c

end Level

/-! ## 3. All productions -/

theorem counts_level (n : Nat) : (level n).Counts := by
  induction n with
  | zero =>
    have hrefuse {α : Type} :
        Eats 1 (do throw (.badSource (← get).offset .tooDeep) : Production α) := by
      refine fun m => .get fun c => consumes_throw ?_ c
      exact Error.not_isStall (by simp)
    exact ⟨hrefuse, hrefuse, hrefuse⟩
  | succ n ih =>
    exact ⟨eats_nested (eats_statementLevel ih), eats_nested (eats_assignmentLevel ih),
      eats_nested (eats_unaryLevel ih)⟩

theorem consumes_statementsFrom (acc : List Stmt) (rounds : Nat) :
    Consumes rounds 0 0 (statementsFrom acc rounds) := by
  induction rounds generalizing acc with
  | zero => exact consumes_zero
  | succ rounds ih =>
    refine .get fun c => .ite (fun _ => Consumes.pure c) fun _ => ?_
    exact ((counts_level _).statement _ c).bind fun s => ih (s :: acc)

/-- The productions over those that are one level further in, each with the number of tokens that it
takes at least. -/
inductive Part (inner : Level) : {α : Type} → Nat → Production α → Prop
  | statement : Part inner 1 inner.statement
  | assignment : Part inner 1 inner.assignment
  | unary : Part inner 1 inner.unary
  | program : Part inner 0 (do statementsFrom [] (← bound))
  | statementLevel : Part inner 1 (statementLevel inner)
  | block : Part inner 1 (block inner)
  | declaration : Part inner 1 (declaration inner)
  | condition : Part inner 1 (condition inner)
  | forStatement : Part inner 1 (forStatement inner)
  | loopInit : Part inner 0 (loopInit inner)
  | unlessAt (p : Punct) : Part inner 0 (unlessAt inner p)
  | functionRest (needsName : Bool) : Part inner 1 (functionRest inner needsName)
  | params : Part inner 1 params
  | arguments : Part inner 1 (arguments inner)
  | assignmentLevel : Part inner 1 (assignmentLevel inner)
  | arrowParams : Part inner 0 arrowParams?
  | conditional : Part inner 1 (conditional inner)
  | disjunction : Part inner 1 (disjunction inner)
  | conjunction : Part inner 1 (conjunction inner)
  | equality : Part inner 1 (equality inner)
  | relational : Part inner 1 (relational inner)
  | additive : Part inner 1 (additive inner)
  | multiplicative : Part inner 1 (multiplicative inner)
  | unaryLevel : Part inner 1 (unaryLevel inner)
  | postfixed : Part inner 1 (postfixed inner)
  | primary : Part inner 1 (primary inner)
  -- the brackets of an array and the braces of an object are open already
  | items : Part inner 1 (do itemsFrom inner [] (← bound))
  | entries : Part inner 1 (do entriesFrom inner [] (← bound))
  | holes (hs : List Hole) : Part inner 0 (holes inner hs)
  | pattern (offset : Nat) (body flags : String) : Part inner 0 (pattern offset body flags)

theorem Part.eats {α : Type} {n least : Nat} {p : Production α} (h : Part (level n) least p) :
    Eats least p := by
  have hlevel := counts_level n
  cases h with
  | statement => exact hlevel.statement
  | assignment => exact hlevel.assignment
  | unary => exact hlevel.unary
  | program => exact fun _ => consumes_bound (consumes_statementsFrom [])
  | statementLevel => exact eats_statementLevel hlevel
  | block => exact eats_block hlevel
  | declaration => exact eats_declaration hlevel
  | condition => exact eats_condition hlevel
  | forStatement => exact eats_forStatement hlevel
  | loopInit => exact eats_loopInit hlevel
  | unlessAt p => exact eats_unlessAt hlevel p
  | functionRest needsName => exact eats_functionRest hlevel needsName
  | params => exact eats_params
  | arguments => exact eats_arguments hlevel
  | assignmentLevel => exact eats_assignmentLevel hlevel
  | arrowParams => exact eats_arrowParams?
  | conditional => exact eats_conditional hlevel
  | disjunction => exact eats_disjunction hlevel
  | conjunction => exact eats_conjunction hlevel
  | equality => exact eats_equality hlevel
  | relational => exact eats_relational hlevel
  | additive => exact eats_additive hlevel
  | multiplicative => exact eats_multiplicative hlevel
  | unaryLevel => exact eats_unaryLevel hlevel
  | postfixed => exact eats_postfixed hlevel
  | primary => exact eats_primary hlevel
  | items => exact fun _ => consumes_bound (consumes_itemsFrom hlevel [])
  | entries => exact fun _ => consumes_bound (consumes_entriesFrom hlevel [])
  | holes hs => exact eats_holes hlevel hs
  | pattern offset body flags => exact eats_pattern offset body flags

/-- Every production, started on tokens that end with the end of the text and not deeper than the
limit, never takes that end and never counts more than one level over the limit.  Where it succeeds,
its tokens were taken from the front, those of a statement or an expression are at least one, and
the level is the one that it started on.  No loop runs out of rounds, on whatever tokens. -/
theorem production_bookkeeping {α : Type} {n least : Nat} {p : Production α}
    (hp : Part (level n) least p) {c : Cursor} (hended : c.Ended)
    (hdepth : c.depth ≤ maxSourceNesting) :
    StaysInBounds p c ∧ (cursorOf (p c)).InBounds ∧
      match p c with
      | .ok _ c' => c'.tokens <:+ c.tokens ∧ c'.tokens.length + least ≤ c.tokens.length ∧
          c'.depth = c.depth
      | .error e _ => ¬e.IsStall := by
  have hwalk := hp.eats c.tokens.length c ⟨hended, Nat.le_refl _, Nat.zero_le _, hdepth⟩
  refine ⟨hwalk.inBounds, hwalk.inBounds.left, ?_⟩
  cases hr : p c with
  | ok a c' =>
    have honward := hwalk.ends a c' hr
    exact ⟨honward.tokens, honward.taken, honward.depth⟩
  | error e c' => exact hwalk.never_stalls e c' hr

/-- A call of a function with one argument, at a depth. -/
def callAt (depth : Nat) : Cursor where
  tokens := [⟨.name "f", 0⟩, ⟨.punct .parenOpen, 1⟩, ⟨.name "a", 2⟩, ⟨.punct .parenClose, 3⟩,
    ⟨.finish, 4⟩]
  depth := depth

/-- The argument takes the last of the levels; one level further in it is one too many. -/
theorem production_bookkeeping_callAt :
    ((callAt 123).Ended ∧ (callAt 123).depth ≤ maxSourceNesting) ∧
      (StaysInBounds top.assignment (callAt 123) ∧
        (cursorOf (top.assignment (callAt 123))).InBounds ∧
        match top.assignment (callAt 123) with
        | .ok _ c' => c'.tokens <:+ (callAt 123).tokens ∧
            c'.tokens.length + 1 ≤ (callAt 123).tokens.length ∧ c'.depth = (callAt 123).depth
        | .error e _ => ¬e.IsStall) ∧
      (cursorOf (top.assignment (callAt 123))).depth = 123 ∧
      (cursorOf (top.assignment (callAt 124))).depth = maxSourceNesting + 1 := by
  have hended : (callAt 123).Ended := ⟨(callAt 123).tokens.dropLast, 4, rfl⟩
  have hdepth : (callAt 123).depth ≤ maxSourceNesting := by decide
  exact ⟨⟨hended, hdepth⟩, production_bookkeeping .assignment hended hdepth, by decide +kernel⟩

/-! ## 4. Whole sources -/

theorem onSource_never_stalls {α : Type} {k : Nat} {p : Production α} (hp : Eats k p)
    {source : String} {e : Error} (h : onSource p source = .error e) : ¬e.IsStall := by
  unfold onSource at h
  split at h
  · next htokens =>
    cases h
    obtain ⟨n, fault, rfl, hfault, -⟩ := tokenize_error htokens
    exact Error.not_isStall (SourceFault.ne_stalled_of_isLexical hfault)
  · next htokens =>
    obtain ⟨us, n, rfl, -⟩ := tokensFrom_eq_append htokens
    split at h
    · cases h
    · next hrun =>
      cases h
      have hready : Ready _ 0 ⟨_, 0, 0⟩ :=
        ⟨⟨us, n, rfl⟩, Nat.le_refl _, Nat.zero_le _, Nat.zero_le _⟩
      exact (hp _ _ hready).never_stalls _ _ hrun

/-- The statements of a program are read in as many rounds as there are tokens. -/
theorem readProgram_never_stalls {source : String} {e : Error} (h : readProgram source = .error e) :
    ¬e.IsStall :=
  onSource_never_stalls (fun _ => consumes_bound (consumes_statementsFrom [])) h

theorem readExpr_never_stalls {source : String} {e : Error} (h : readExpr source = .error e) :
    ¬e.IsStall := by
  have hexpr : Eats 1 (do
      let e ← top.assignment
      skipSemicolon
      expectEnd
      return e) := fun _ =>
    ((counts_level _).assignment _).bind fun _ => (eats_skipSemicolon _).bind fun _ =>
      (eats_expectEnd _).bind fun _ => .pure
  exact onSource_never_stalls hexpr h

end TraceViewer.Snippet.Production
