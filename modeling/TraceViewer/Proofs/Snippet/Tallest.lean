import TraceViewer.Proofs.Snippet.Height
import TraceViewer.Proofs.Snippet.Spelling

/-!
# The tallest syntax trees

Chains of operators of every rank, one the head of the next, on top of an array in which there is
the same again: this is how a source text uses up its levels.  It is as tall as expressions can be,
so the bounds on heights are the least ones.
-/

namespace TraceViewer.Snippet

/-! ## 1. Productions that succeed -/

/-- The lexemes that follow, up to the end of the input, and the levels that are left. -/
structure Cursor.Stands (c : Cursor) (k : Nat) (ls : List Lexeme) : Prop where
  tokens : c.tokens.map Token.lexeme = ls ++ [.finish]
  depth : c.depth + k = maxSourceNesting

/-- The first of the lexemes that follow. -/
def firstOf : List Lexeme → Lexeme
  | [] => .finish
  | l :: _ => l

def Lexeme.isPunct (p : Punct) : Lexeme → Bool
  | .punct q => q == p
  | _ => false

def Lexeme.isName (word : String) : Lexeme → Bool
  | .name w => w == word
  | _ => false

/-- With `k` levels left and before the lexemes `ls` the production succeeds.  It leaves `k'` levels
and the lexemes `ls'`, and gives something with the property. -/
def Reads {α : Type} (k : Nat) (ls : List Lexeme) (p : Production α) (k' : Nat)
    (ls' : List Lexeme) (Q : α → Prop) : Prop :=
  ∀ c, Cursor.Stands c k ls → ∃ a c', p c = .ok a c' ∧ Cursor.Stands c' k' ls' ∧ Q a

section Rules

variable {α β : Type} {k k' k'' : Nat} {ls ls' ls'' : List Lexeme} {c : Cursor}
  {p : Production α} {Q Q' : α → Prop} {R : β → Prop}

theorem Cursor.Stands.lexeme (h : Cursor.Stands c k ls) : c.lexeme = firstOf ls := by
  have htokens := h.tokens
  unfold Cursor.lexeme
  cases hts : c.tokens with
  | nil =>
    rw [hts] at htokens
    cases ls <;> cases htokens
  | cons t ts =>
    rw [hts] at htokens
    cases ls with
    | nil => exact (List.cons.inj htokens).1
    | cons l ls => exact (List.cons.inj htokens).1

theorem Cursor.Stands.advance {l : Lexeme} (h : Cursor.Stands c k (l :: ls)) :
    Cursor.Stands c.advance k ls := by
  obtain ⟨tokens, depth, patterns⟩ := c
  obtain ⟨htokens, hdepth⟩ := h
  match tokens with
  | [] => cases htokens
  | [_] => cases ls <;> cases (List.cons.inj htokens).2
  | _ :: next :: rest => exact ⟨(List.cons.inj htokens).2, hdepth⟩

theorem Cursor.Stands.ahead (h : Cursor.Stands c k ls) {n : Nat} {l : Lexeme}
    (hl : ls[n]? = some l) : c.ahead n = l := by
  have hlt := (List.getElem?_eq_some_iff.mp hl).1
  have htoken : c.tokens[n]?.map Token.lexeme = some l := by
    rw [← List.getElem?_map, h.tokens, List.getElem?_append_left hlt, hl]
  obtain ⟨t, ht, rfl⟩ := Option.map_eq_some_iff.mp htoken
  unfold Cursor.ahead
  rw [ht]

theorem Reads.imp (h : Reads k ls p k' ls' Q) (hQ : ∀ a, Q a → Q' a) : Reads k ls p k' ls' Q' := by
  intro c hc
  obtain ⟨a, c', ha, hc', hq⟩ := h c hc
  exact ⟨a, c', ha, hc', hQ a hq⟩

theorem Reads.pure {a : α} (ha : Q a) : Reads k ls (pure a) k ls Q := fun c hc =>
  ⟨a, c, rfl, hc, ha⟩

theorem Reads.bind {f : α → Production β} (h : Reads k ls p k' ls' Q)
    (hf : ∀ a, Q a → Reads k' ls' (f a) k'' ls'' R) : Reads k ls (p >>= f) k'' ls'' R := by
  intro c hc
  obtain ⟨a, m, ha, hm, hq⟩ := h c hc
  obtain ⟨b, c', hb, hc', hr⟩ := hf a hq m hm
  refine ⟨b, c', ?_, hc', hr⟩
  show EStateM.bind p f c = _
  unfold EStateM.bind
  rw [ha]
  exact hb

theorem Reads.map {f : α → β} (h : Reads k ls p k' ls' Q) (hf : ∀ a, Q a → R (f a)) :
    Reads k ls (f <$> p) k' ls' R := by
  rw [← bind_pure_comp]
  exact h.bind fun a ha => .pure (hf a ha)

/-- Looking at the cursor tells what follows. -/
theorem Reads.get {f : Cursor → Production β}
    (hf : ∀ c, Cursor.Stands c k ls → Reads k ls (f c) k' ls' R) :
    Reads k ls (get >>= f) k' ls' R :=
  fun c hc => hf c hc c hc

namespace Production

theorem reads_advance {l : Lexeme} : Reads k (l :: ls) advance k ls fun _ => True := fun c hc =>
  ⟨(), c.advance, rfl, hc.advance, trivial⟩

theorem atPunct_of_stands (h : Cursor.Stands c k ls) (p : Punct) :
    c.atPunct p = (firstOf ls).isPunct p := by
  rw [← h.lexeme]
  rfl

theorem reads_eat {p : Punct} {f : Bool → Production β}
    (hf : Reads k ls (f true) k' ls' R) : Reads k (.punct p :: ls) (eat p >>= f) k' ls' R := by
  have heat : Reads k (.punct p :: ls) (eat p) k ls fun found => found = true := by
    refine .get fun c hc => ?_
    rw [atPunct_of_stands hc, firstOf, Lexeme.isPunct, beq_self_eq_true, if_pos rfl]
    exact reads_advance.bind fun _ _ => .pure rfl
  refine heat.bind fun found hfound => ?_
  rwa [hfound]

theorem reads_eat_other {p : Punct} {f : Bool → Production β}
    (hp : (firstOf ls).isPunct p = false) (hf : Reads k ls (f false) k' ls' R) :
    Reads k ls (eat p >>= f) k' ls' R := by
  have heat : Reads k ls (eat p) k ls fun found => found = false := by
    refine .get fun c hc => ?_
    rw [atPunct_of_stands hc, hp, if_neg Bool.false_ne_true]
    exact .pure rfl
  refine heat.bind fun found hfound => ?_
  rwa [hfound]

theorem reads_expect {p : Punct} : Reads k (.punct p :: ls) (expect p) k ls fun _ => True :=
  reads_eat (.pure trivial)

theorem reads_bound : Reads k ls bound k ls fun rounds => ls.length < rounds := by
  refine .get fun c hc => .pure ?_
  have hlength := congrArg List.length hc.tokens
  rw [List.length_map, List.length_append] at hlength
  rw [hlength]
  exact Nat.lt_succ_self _

theorem reads_descend : Reads (k + 1) ls descend k ls fun _ => True := by
  intro c hc
  have hdepth := hc.depth
  refine ⟨(), { c with depth := c.depth + 1 }, ?_, ⟨hc.tokens, ?_⟩, trivial⟩
  · rw [descend_apply, if_neg (by omega)]
  · show c.depth + 1 + k = maxSourceNesting
    omega

theorem reads_ascend {levels : Nat} (hk : k + levels ≤ maxSourceNesting) :
    Reads k ls (ascend levels) (k + levels) ls fun _ => True := by
  intro c hc
  have hdepth := hc.depth
  refine ⟨(), { c with depth := c.depth - levels }, rfl, ⟨hc.tokens, ?_⟩, trivial⟩
  show c.depth - levels + (k + levels) = maxSourceNesting
  omega

end Production

/-- No more levels are left than there are. -/
theorem Reads.of_le (h : k ≤ maxSourceNesting → Reads k ls p k' ls' Q) : Reads k ls p k' ls' Q :=
  fun c hc => h (hc.depth ▸ Nat.le_add_left k c.depth) c hc

theorem Reads.nested (h : Reads k ls p k ls' Q) :
    Reads (k + 1) ls (Production.nested p) (k + 1) ls' Q :=
  .of_le fun hk => Production.reads_descend.bind fun _ _ => h.bind fun _ ha =>
    (Production.reads_ascend hk).bind fun _ _ => .pure ha

end Rules

/-! ## 2. Chains of operators -/

/-- With `k` levels left, the production reads these lexemes as an expression of this height,
whatever follows that makes it stop. -/
def ReadsTall (p : Production Expr) (stop : Lexeme → Bool) (k : Nat) (ts : List Lexeme)
    (n : Nat) : Prop :=
  ∀ ls, stop (firstOf ls) = true → Reads k (ts ++ ls) p k ls fun e => e.height = n

/-- The one variable of the texts here. -/
abbrev atom : Lexeme := .name "a"

/-- Some more operands, each behind an operator. -/
def chain (q : Punct) : Nat → List Lexeme
  | 0 => []
  | m + 1 => .punct q :: atom :: chain q m

theorem length_chain (q : Punct) (m : Nat) : (chain q m).length = 2 * m := by
  induction m with
  | zero => rfl
  | succ m ih =>
    rw [chain, List.length_cons, List.length_cons, ih]
    rfl

/-- The operator of a lexeme among those of a rank. -/
def opAt? {α : Type} (op? : Punct → Option α) : Lexeme → Option α
  | .punct p => op? p
  | _ => none

/-- What stops an operand and is no operator of the rank stops a chain. -/
def endsRank {α : Type} (op? : Punct → Option α) (stop : Lexeme → Bool) (l : Lexeme) : Bool :=
  stop l && (opAt? op? l).isNone

namespace Production

variable {α : Type} {op? : Punct → Option α} {join : α → Expr → Expr → Expr} {op : α} {q : Punct}
  {operand : Production Expr} {stop : Lexeme → Bool}

/-- Each link of a chain takes a level and makes the expression taller by one. -/
theorem reads_operatorsFrom
    (hjoin : ∀ op a b, (join op a b).height = max a.height b.height + 1) (hop : op? q = some op)
    (hq : stop (.punct q) = true) (hatom : ∀ k, ReadsTall operand stop (k + 1) [atom] 1)
    {k room m links rounds : Nat} {left : Expr} {ls : List Lexeme} (hm : m ≤ k)
    (hrounds : m < rounds) (hroom : k + 1 + links = room) (hmax : room ≤ maxSourceNesting)
    (hls : endsRank op? stop (firstOf ls) = true) :
    Reads (k + 1) (chain q m ++ ls) (operatorsFrom op? join operand links left rounds) room ls
      fun e => e.height = left.height + m := by
  obtain ⟨hstop, hnone⟩ := Bool.and_eq_true_iff.mp hls
  induction m generalizing k links left rounds with
  | zero =>
    obtain ⟨rounds, rfl⟩ := Nat.exists_eq_succ_of_ne_zero (Nat.ne_of_gt hrounds)
    refine .get fun c hc => ?_
    have hlexeme : opAt? op? c.lexeme = none := by
      rw [hc.lexeme]
      exact Option.isNone_iff_eq_none.mp hnone
    dsimp only
    split
    · subst hroom
      exact (reads_ascend hmax).bind fun _ _ => .pure rfl
    · next heq => cases hlexeme.symm.trans heq
  | succ m ih =>
    obtain ⟨rounds, rfl⟩ := Nat.exists_eq_succ_of_ne_zero (Nat.ne_of_gt (Nat.zero_lt_of_lt hrounds))
    obtain ⟨k, rfl⟩ := Nat.exists_eq_succ_of_ne_zero (Nat.ne_of_gt (Nat.zero_lt_of_lt hm))
    refine .get fun c hc => ?_
    have hlexeme : opAt? op? c.lexeme = some op := by
      rw [hc.lexeme]
      exact hop
    dsimp only
    split
    · next heq => cases hlexeme.symm.trans heq
    next heq =>
    cases hlexeme.symm.trans heq
    -- an operand is followed by one more link or by what ends the chain, and both stop it
    have hnext : stop (firstOf (chain q m ++ ls)) = true := by
      cases m with
      | zero => exact hstop
      | succ m => exact hq
    refine reads_advance.bind fun _ _ => reads_descend.bind fun _ _ =>
      (hatom k _ hnext).bind fun right hright => ?_
    have hpos := left.height_pos
    refine (ih (Nat.le_of_succ_le_succ hm) (Nat.lt_of_succ_lt_succ hrounds) (by omega)).imp
      fun e he => ?_
    rw [he, hjoin, hright]
    omega

theorem reads_operators
    (hjoin : ∀ op a b, (join op a b).height = max a.height b.height + 1) (hop : op? q = some op)
    (hq : stop (.punct q) = true) (hatom : ∀ k, ReadsTall operand stop (k + 1) [atom] 1)
    {k m n : Nat} {ts : List Lexeme} (hm : m ≤ k) (h : ReadsTall operand stop (k + 1) ts n) :
    ReadsTall (operators op? join operand) (endsRank op? stop) (k + 1) (ts ++ chain q m)
      (n + m) := by
  intro ls hls
  rw [List.append_assoc]
  have hnext : stop (firstOf (chain q m ++ ls)) = true := by
    cases m with
    | zero => exact (Bool.and_eq_true_iff.mp hls).1
    | succ m => exact hq
  refine .of_le fun hmax => (h _ hnext).bind fun left hleft =>
    reads_bound.bind fun rounds hrounds =>
    ?_
  have hlength : m ≤ (chain q m ++ ls).length := by
    rw [List.length_append, length_chain]
    omega
  refine (reads_operatorsFrom hjoin hop hq hatom hm (Nat.lt_of_le_of_lt hlength hrounds) rfl hmax
    hls).imp fun e he => ?_
  rw [he, hleft]

/-- A rank of operators reads single operands as the rank below does, and puts a chain on top of
what that one reads. -/
theorem reads_rank (op? : Punct → Option α) (q : Punct) (hop : op? q = some op)
    (hjoin : ∀ op a b, (join op a b).height = max a.height b.height + 1)
    (hq : stop (.punct q) = true) (hatom : ∀ k, ReadsTall operand stop (k + 1) [atom] 1) :
    (∀ k, ReadsTall (operators op? join operand) (endsRank op? stop) (k + 1) [atom] 1) ∧
      ∀ {k m n : Nat} {ts : List Lexeme}, m ≤ k → ReadsTall operand stop (k + 1) ts n →
        ReadsTall (operators op? join operand) (endsRank op? stop) (k + 1) (ts ++ chain q m)
          (n + m) :=
  ⟨fun k => reads_operators hjoin hop hq hatom (Nat.zero_le k) (hatom k),
    fun hm h => reads_operators hjoin hop hq hatom hm h⟩

/-- Chains of all ranks behind an expression, with so many operators of each. -/
def climb (count : Punct → Nat) (ts : List Lexeme) : List Lexeme :=
  ts ++ chain .times (count .times) ++ chain .plus (count .plus) ++ chain .less (count .less) ++
    chain .looseEq (count .looseEq) ++ chain .andAnd (count .andAnd) ++ chain .orOr (count .orOr)

/-- How much taller the chains make the expression. -/
def climbHeight (count : Punct → Nat) : Nat :=
  count .times + count .plus + count .less + count .looseEq + count .andAnd + count .orOr

/-- What ends an operand: neither a link of a chain follows nor an increment. -/
def endsUnary (l : Lexeme) : Bool :=
  [.optionalDot, .bracketOpen, .parenOpen, .dot, .plusPlus, .minusMinus].all fun p => !l.isPunct p

/-- What ends the chains of all ranks: no operator of any of them follows. -/
def endsDisjunction : Lexeme → Bool :=
  endsRank orOp? (endsRank andOp? (endsRank equalityOp? (endsRank relationalOp?
    (endsRank additiveOp? (endsRank multiplicativeOp? endsUnary)))))

/-- What ends an assignment: the operator of one does not. -/
def endsAssignment (l : Lexeme) : Bool := (opAt? assignmentOp? l).isNone

section Level

variable {inner : Level} (hatom : ∀ k, ReadsTall inner.unary endsUnary (k + 1) [atom] 1)
include hatom

/-- The chains of the six ranks, each the head of the next. -/
theorem reads_disjunction {count : Punct → Nat} {k n : Nat} {ts : List Lexeme}
    (hcount : ∀ q, count q ≤ k) (h : ReadsTall inner.unary endsUnary (k + 1) ts n) :
    ReadsTall (disjunction inner) endsDisjunction (k + 1) (climb count ts)
      (n + climbHeight count) := by
  have hbinary (op : BinaryOp) (a b : Expr) :
      (Expr.binary op a b).height = max a.height b.height + 1 := by rw [Expr.height]
  have hlogical (op : LogicalOp) (a b : Expr) :
      (Expr.logical op a b).height = max a.height b.height + 1 := by rw [Expr.height]
  obtain ⟨hatom, hmultiplicative⟩ := reads_rank multiplicativeOp? .times rfl hbinary rfl hatom
  obtain ⟨hatom, hadditive⟩ := reads_rank additiveOp? .plus rfl hbinary rfl hatom
  obtain ⟨hatom, hrelational⟩ := reads_rank relationalOp? .less rfl hbinary rfl hatom
  obtain ⟨hatom, hequality⟩ := reads_rank equalityOp? .looseEq rfl hbinary rfl hatom
  obtain ⟨hatom, hconjunction⟩ := reads_rank andOp? .andAnd rfl hlogical rfl hatom
  obtain ⟨-, hdisjunction⟩ := reads_rank orOp? .orOr rfl hlogical rfl hatom
  have h := hmultiplicative (hcount .times) h
  have h := hadditive (hcount .plus) h
  have h := hrelational (hcount .less) h
  have h := hequality (hcount .looseEq) h
  have h := hconjunction (hcount .andAnd) h
  have h := hdisjunction (hcount .orOr) h
  intro ls hls
  refine (h ls hls).imp fun e he => ?_
  rw [he, climbHeight]
  omega

end Level

/-! ## 3. Operands -/

variable {inner : Level} {k n : Nat}

/-- Some links to members. -/
def members : Nat → List Lexeme
  | 0 => []
  | m + 1 => .punct .dot :: atom :: members m

theorem length_members (m : Nat) : (members m).length = 2 * m := by
  induction m with
  | zero => rfl
  | succ m ih =>
    rw [members, List.length_cons, List.length_cons, ih]
    rfl

/-- Each link of a chain takes a level and makes the expression taller by one. -/
theorem reads_linksFrom {m links room rounds : Nat} {head : Expr} {ls : List Lexeme} (hm : m ≤ k)
    (hrounds : m < rounds) (hroom : k + links = room) (hmax : room ≤ maxSourceNesting)
    (hls : endsUnary (firstOf ls) = true) :
    Reads k (members m ++ ls) (linksFrom inner links head rounds) room ls
      fun e => e.height = head.height + m := by
  induction m generalizing k links head rounds with
  | zero =>
    obtain ⟨rounds, rfl⟩ := Nat.exists_eq_succ_of_ne_zero (Nat.ne_of_gt hrounds)
    have hother (p : Punct)
        (hp : p ∈ [.optionalDot, .bracketOpen, .parenOpen, .dot, .plusPlus, .minusMinus]) :
        (firstOf ls).isPunct p = false :=
      Bool.not_eq_true' _ |>.mp (List.all_eq_true.mp hls p hp)
    refine reads_eat_other (hother _ (by decide)) (reads_eat_other (hother _ (by decide))
      (reads_eat_other (hother _ (by decide)) (reads_eat_other (hother _ (by decide)) ?_)))
    subst hroom
    exact (reads_ascend hmax).bind fun _ _ => .pure rfl
  | succ m ih =>
    obtain ⟨rounds, rfl⟩ := Nat.exists_eq_succ_of_ne_zero (Nat.ne_of_gt (Nat.zero_lt_of_lt hrounds))
    obtain ⟨k, rfl⟩ := Nat.exists_eq_succ_of_ne_zero (Nat.ne_of_gt (Nat.zero_lt_of_lt hm))
    -- of the four ways on only the dot is there
    refine reads_eat_other rfl (reads_eat_other rfl (reads_eat_other rfl (reads_eat ?_)))
    refine reads_descend.bind fun _ _ => .get fun c hc => reads_advance.bind fun _ _ => ?_
    have hlexeme : c.lexeme = atom := hc.lexeme
    rw [hlexeme]
    refine (ih (Nat.le_of_succ_le_succ hm) (Nat.lt_of_succ_lt_succ hrounds) (by omega)).imp
      fun e he => ?_
    rw [he, Expr.height]
    omega

theorem reads_primary_atom {ls : List Lexeme} :
    Reads k (atom :: ls) (primary inner) k ls fun e => e.height = 1 := by
  refine .get fun c hc => reads_advance.bind fun _ _ => ?_
  have hlexeme : c.lexeme = atom := hc.lexeme
  rw [hlexeme]
  exact .pure rfl

theorem reads_entryKey {ls : List Lexeme} :
    Reads k (atom :: ls) entryKey k ls fun key => key = "a" := by
  refine .get fun c hc => reads_advance.bind fun _ _ => ?_
  have hlexeme : c.lexeme = atom := hc.lexeme
  rw [hlexeme]
  exact .pure rfl

/-- An object with one entry, for the variable of its key. -/
theorem reads_primary_object {ls : List Lexeme} :
    Reads k (.punct .braceOpen :: atom :: .punct .braceClose :: ls) (primary inner) k ls
      fun e => e.height = 2 := by
  refine .get fun c hc => reads_advance.bind fun _ _ => ?_
  have hlexeme : c.lexeme = .punct .braceOpen := hc.lexeme
  rw [hlexeme]
  refine reads_bound.bind fun rounds hrounds => ?_
  obtain ⟨rounds, rfl⟩ : ∃ n, rounds = n + 2 := ⟨rounds - 2, by
    rw [List.length_cons, List.length_cons] at hrounds
    omega⟩
  have hentries : Reads k (atom :: .punct .braceClose :: ls)
      (entriesFrom inner [] (rounds + 2)) k ls fun es => es = [("a", .ident "a")] := by
    refine reads_eat_other rfl (reads_entryKey.bind fun key hkey => reads_eat_other rfl ?_)
    rw [hkey]
    refine Reads.bind (.pure (Q := (· = .ident "a")) rfl) fun value hvalue => .get fun c hc => ?_
    have hclose : c.atPunct .braceClose = true := atPunct_of_stands hc _
    rw [hclose, hvalue]
    exact reads_eat (.pure rfl)
  refine hentries.bind fun es hes => .pure ?_
  rw [hes]
  rfl

/-- An array with one item, for which no level is taken. -/
theorem reads_primary_array {ts ls : List Lexeme}
    (h : ReadsTall inner.assignment endsAssignment k ts n)
    (hts : ∀ ls, (firstOf (ts ++ ls)).isPunct .bracketClose = false) :
    Reads k (.punct .bracketOpen :: (ts ++ .punct .bracketClose :: ls)) (primary inner) k ls
      fun e => e.height = n + 1 := by
  refine .get fun c hc => reads_advance.bind fun _ _ => ?_
  have hlexeme : c.lexeme = .punct .bracketOpen := hc.lexeme
  rw [hlexeme]
  refine reads_bound.bind fun rounds hrounds => ?_
  -- there are as many rounds as lexemes left: one reads the item, the next the end
  obtain ⟨rounds, rfl⟩ : ∃ n, rounds = n + 2 := ⟨rounds - 2, by
    have hpos : ts ≠ [] := fun hnil => by
      have := hts [.punct .bracketClose]
      rw [hnil] at this
      cases this
    have := List.length_pos_iff.mpr hpos
    rw [List.length_append, List.length_cons] at hrounds
    omega⟩
  have hitems : Reads k (ts ++ .punct .bracketClose :: ls) (itemsFrom inner [] (rounds + 2)) k ls
      fun es => ∃ e, es = [e] ∧ e.height = n := by
    refine reads_eat_other (hts _) ((h _ rfl).bind fun e he => .get fun c hc => ?_)
    have hclose : c.atPunct .bracketClose = true := atPunct_of_stands hc _
    dsimp only
    rw [hclose]
    exact reads_eat (.pure ⟨e, rfl, he⟩)
  refine hitems.bind fun es hes => .pure ?_
  obtain ⟨e, rfl, he⟩ := hes
  rw [Expr.height, exprsHeight, exprsHeight, he]
  omega

/-- Some links behind an expression without links. -/
theorem reads_unaryLevel (head : List Lexeme) {ls : List Lexeme} {m : Nat} (hm : m ≤ k)
    (h : ∀ ls, Reads k (head ++ ls) (primary inner) k ls fun e => e.height = n)
    (hplain : ∀ ls, (firstOf (head ++ ls)).isPunct .plusPlus = false ∧
      (firstOf (head ++ ls)).isPunct .minusMinus = false ∧ unaryOp? (firstOf (head ++ ls)) = none)
    (hls : endsUnary (firstOf ls) = true) :
    Reads k (head ++ members m ++ ls) (unaryLevel inner) k ls fun e => e.height = n + m := by
  have hother (p : Punct)
      (hp : p ∈ [.optionalDot, .bracketOpen, .parenOpen, .dot, .plusPlus, .minusMinus]) :
      (firstOf ls).isPunct p = false :=
    Bool.not_eq_true' _ |>.mp (List.all_eq_true.mp hls p hp)
  rw [List.append_assoc]
  obtain ⟨hplus, hminus, hop⟩ := hplain (members m ++ ls)
  refine .get fun c hc => ?_
  rw [atPunct_of_stands hc, atPunct_of_stands hc, hplus, hminus, hc.lexeme, hop]
  refine (h _).bind fun e he => reads_bound.bind fun rounds hrounds => .of_le fun hmax => ?_
  have hrounds : m < rounds := by
    rw [List.length_append, length_members] at hrounds
    omega
  refine (reads_linksFrom hm hrounds rfl hmax hls).bind fun e he => .get fun c hc => ?_
  rw [atPunct_of_stands hc, atPunct_of_stands hc, hother .plusPlus (by decide),
    hother .minusMinus (by decide)]
  refine .pure ?_
  omega

/-! ## 4. Assignments -/

/-- A function without statements. -/
def arrow : List Lexeme := [atom, .punct .arrow, .punct .braceOpen, .punct .braceClose]

theorem reads_block {ls : List Lexeme} :
    Reads k (.punct .braceOpen :: .punct .braceClose :: ls) (block inner) k ls
      fun ss => ss = [] := by
  refine reads_expect.bind fun _ _ => reads_bound.bind fun rounds hrounds => ?_
  obtain ⟨rounds, rfl⟩ := Nat.exists_eq_succ_of_ne_zero (Nat.ne_of_gt (Nat.zero_lt_of_lt hrounds))
  exact reads_eat (.pure rfl)

/-- A function takes a level only for what is in it. -/
theorem reads_arrow (inner : Level) (k : Nat) (ls : List Lexeme) :
    Reads k (arrow ++ ls) (assignmentLevel inner) k ls fun e => e.height = 1 := by
  have hparams : Reads k (arrow ++ ls) arrowParams? k
      (.punct .braceOpen :: .punct .braceClose :: ls) fun params => params = some ["a"] := by
    refine .get fun c hc => ?_
    have hlexeme : c.lexeme = atom := hc.lexeme
    have hahead : c.ahead 1 = .punct .arrow := hc.ahead rfl
    rw [hlexeme, hahead]
    exact reads_advance.bind fun _ _ => reads_advance.bind fun _ _ => .pure rfl
  refine hparams.bind fun params hparams => ?_
  rw [hparams]
  refine .get fun c hc => ?_
  have hopen : c.atPunct .braceOpen = true := atPunct_of_stands hc _
  rw [hopen]
  refine Reads.bind (reads_block.map (R := (· = .block [])) fun ss hss => congrArg Body.block hss)
    fun body hbody => .pure ?_
  rw [hbody]
  rfl

/-- Neither a name nor a parenthesis starts the text: it is no function. -/
theorem reads_arrowParams_none {ls : List Lexeme} {q : Punct} (hq : firstOf ls = .punct q)
    (hparen : q ≠ .parenOpen) : Reads k ls arrowParams? k ls fun params => params = none := by
  refine .get fun c hc => ?_
  rw [hc.lexeme, hq]
  generalize c.ahead 1 = next
  cases q
  case parenOpen => exact absurd rfl hparen
  all_goals exact .pure rfl

/-- A name starts the text, but no arrow follows: it is no function. -/
theorem reads_arrowParams_atom {ls : List Lexeme} {q : Punct} (hq : q ≠ .arrow) :
    Reads k (atom :: .punct q :: ls) arrowParams? k (atom :: .punct q :: ls)
      fun params => params = none := by
  refine .get fun c hc => ?_
  have hlexeme : c.lexeme = atom := hc.lexeme
  have hahead : c.ahead 1 = .punct q := hc.ahead rfl
  rw [hlexeme, hahead]
  cases q
  case arrow => exact absurd rfl hq
  all_goals exact .pure rfl

/-- What is no function is read as a conditional, with no assignment behind it. -/
theorem reads_assignmentLevel {ls ls' : List Lexeme}
    (hparams : Reads k ls arrowParams? k ls fun params => params = none)
    (h : Reads k ls (conditional inner) k ls' fun e => e.height = n)
    (hls : endsAssignment (firstOf ls') = true) :
    Reads k ls (assignmentLevel inner) k ls' fun e => e.height = n := by
  refine hparams.bind fun params hparams => ?_
  rw [hparams]
  refine h.bind fun target htarget => .get fun c hc => ?_
  have hlexeme : opAt? assignmentOp? c.lexeme = none := by
    rw [hc.lexeme]
    exact Option.isNone_iff_eq_none.mp hls
  dsimp only
  split
  · exact .pure htarget
  · next heq => cases hlexeme.symm.trans heq

/-- The chains of all ranks as the condition of a conditional. -/
def mount (m : Nat) (ts : List Lexeme) : List Lexeme :=
  climb (fun _ => m) ts ++ .punct .question :: arrow ++ .punct .colon :: arrow

theorem reads_mount (hatom : ∀ k, ReadsTall inner.unary endsUnary (k + 1) [atom] 1)
    (harrow : ∀ k ls, Reads (k + 1) (arrow ++ ls) inner.assignment (k + 1) ls
      fun e => e.height = 1) (q : Punct) {ts : List Lexeme} (hq : q ≠ .parenOpen) (hn : 0 < n)
    (h : ReadsTall inner.unary endsUnary (k + 1) (.punct q :: ts) n) :
    ReadsTall (assignmentLevel inner) endsAssignment (k + 1) (mount k (.punct q :: ts))
      (n + 6 * k + 1) := by
  intro ls hls
  refine reads_assignmentLevel (reads_arrowParams_none rfl hq) ?_ hls
  rw [mount, List.append_assoc, List.append_assoc]
  refine (reads_disjunction hatom (fun _ => Nat.le_refl k) h _ rfl).bind fun test htest =>
    reads_eat ?_
  refine (harrow k _).bind fun yes hyes => reads_expect.bind fun _ _ =>
    (harrow k _).bind fun no hno => .pure ?_
  rw [Expr.height, htest, hyes, hno, climbHeight]
  omega

/-! ## 5. Towers -/

theorem reads_level_arrow (n k : Nat) (ls : List Lexeme) :
    Reads (k + 1) (arrow ++ ls) (level (n + 1)).assignment (k + 1) ls fun e => e.height = 1 :=
  (reads_arrow (level n) k ls).nested

theorem reads_level_atom (n k : Nat) : ReadsTall (level (n + 1)).unary endsUnary (k + 1) [atom] 1 :=
  fun _ hls => (reads_unaryLevel [atom] (Nat.zero_le k) (fun _ => reads_primary_atom)
    (fun _ => ⟨rfl, rfl, rfl⟩) hls).nested

/-- An object at the bottom of a tower. -/
theorem reads_level_object (n k : Nat) :
    ReadsTall (level (n + 1)).unary endsUnary (k + 1)
      [.punct .braceOpen, atom, .punct .braceClose] 2 :=
  fun _ hls => (reads_unaryLevel [.punct .braceOpen, atom, .punct .braceClose] (Nat.zero_le k)
    (fun _ => reads_primary_object) (fun _ => ⟨rfl, rfl, rfl⟩) hls).nested

/-- An array with a tower in it, and links behind it. -/
def upon (m : Nat) (ts : List Lexeme) : List Lexeme :=
  .punct .bracketOpen :: (ts ++ .punct .bracketClose :: members m)

theorem reads_level_upon {m k n : Nat} {ts : List Lexeme}
    (h : ReadsTall (level m).assignment endsAssignment k ts n)
    (hts : ∀ ls, (firstOf (ts ++ ls)).isPunct .bracketClose = false) :
    ReadsTall (level (m + 1)).unary endsUnary (k + 1) (upon k ts) (n + 1 + k) := by
  intro ls hls
  have harray (ls : List Lexeme) :
      Reads k (.punct .bracketOpen :: (ts ++ [.punct .bracketClose]) ++ ls) (primary (level m)) k ls
        fun e => e.height = n + 1 := by
    rw [List.cons_append, List.append_assoc]
    exact reads_primary_array h hts
  have hunary := reads_unaryLevel _ (Nat.le_refl k) harray (fun _ => ⟨rfl, rfl, rfl⟩) hls
  rw [List.cons_append, List.append_assoc _ _ (members k)] at hunary
  exact hunary.nested

/-- The text that uses up some levels. -/
def tower : Nat → List Lexeme
  | 0 => []
  | 1 => arrow
  | 2 => mount 0 [.punct .braceOpen, atom, .punct .braceClose]
  | k + 3 => mount (k + 1) (upon (k + 1) (tower (k + 1)))

theorem firstOf_tower (k : Nat) (ls : List Lexeme) :
    (firstOf (tower (k + 1) ++ ls)).isPunct .bracketClose = false := by
  match k with
  | 0 => rfl
  | 1 => rfl
  | k + 2 =>
    rw [tower]
    rfl

/-- With some levels left, a tower is read as an expression that is as tall as can be. -/
theorem reads_tower (k n : Nat) (hn : k < n) :
    ReadsTall (level n).assignment endsAssignment (k + 1) (tower (k + 1)) (tallest (k + 1)) := by
  obtain ⟨n, rfl⟩ := Nat.exists_eq_succ_of_ne_zero (Nat.ne_of_gt (Nat.zero_lt_of_lt hn))
  match k with
  | 0 => exact fun ls _ => reads_level_arrow n 0 ls
  | 1 =>
    obtain ⟨n, rfl⟩ := Nat.exists_eq_succ_of_ne_zero (Nat.ne_of_gt (Nat.lt_of_succ_lt_succ hn))
    exact fun ls hls => (reads_mount (reads_level_atom n) (reads_level_arrow n) .braceOpen nofun
      Nat.two_pos (reads_level_object n 0) ls hls).nested
  | k + 2 =>
    have hpos : 0 < n := Nat.zero_lt_of_lt (Nat.lt_of_succ_lt_succ hn)
    obtain ⟨n, rfl⟩ := Nat.exists_eq_succ_of_ne_zero (Nat.ne_of_gt hpos)
    have hbelow := reads_tower k n (Nat.lt_of_succ_lt_succ (Nat.lt_of_succ_lt_succ hn))
    have hunary := reads_level_upon hbelow (firstOf_tower k)
    have htall : tallest (k + 3) = tallest (k + 1) + 1 + (k + 1) + 6 * (k + 1) + 1 := by
      rw [tallest_succ (k + 2), tallestUnary_succ (k + 1)]
      omega
    intro ls hls
    rw [htall, tower]
    exact (reads_mount (reads_level_atom n) (reads_level_arrow n) .bracketOpen nofun
      (Nat.succ_pos _) hunary ls hls).nested

/-! ## 6. A loop on top of a tower -/

theorem atWord_of_stands {c : Cursor} {ls : List Lexeme} (h : Cursor.Stands c k ls)
    (word : String) :
    c.atWord word = (firstOf ls).isName word := by
  rw [← h.lexeme]
  rfl

theorem reads_eatWord {β : Type} {word : String} {k' : Nat} {ls ls' : List Lexeme}
    {f : Bool → Production β} {R : β → Prop} (hf : Reads k ls (f true) k' ls' R) :
    Reads k (.name word :: ls) (eatWord word >>= f) k' ls' R := by
  have heat : Reads k (.name word :: ls) (eatWord word) k ls fun found => found = true := by
    refine .get fun c hc => ?_
    rw [atWord_of_stands hc, firstOf, Lexeme.isName, beq_self_eq_true, if_pos rfl]
    exact reads_advance.bind fun _ _ => .pure rfl
  refine heat.bind fun found hfound => ?_
  rwa [hfound]

theorem reads_eatWord_other {β : Type} {word : String} {k' : Nat} {ls ls' : List Lexeme}
    {f : Bool → Production β} {R : β → Prop} (hw : (firstOf ls).isName word = false)
    (hf : Reads k ls (f false) k' ls' R) : Reads k ls (eatWord word >>= f) k' ls' R := by
  have heat : Reads k ls (eatWord word) k ls fun found => found = false := by
    refine .get fun c hc => ?_
    rw [atWord_of_stands hc, hw, if_neg Bool.false_ne_true]
    exact .pure rfl
  refine heat.bind fun found hfound => ?_
  rwa [hfound]

theorem reads_bindingName {ls : List Lexeme} :
    Reads k (atom :: ls) bindingName k ls fun name => name = "a" := by
  refine .get fun c hc => ?_
  have hlexeme : c.lexeme = atom := hc.lexeme
  rw [hlexeme]
  exact reads_advance.bind fun _ _ => .pure rfl

theorem reads_declaration {ts ls : List Lexeme}
    (h : ReadsTall inner.assignment endsAssignment k ts n) :
    Reads k (atom :: .punct .assign :: (ts ++ .punct .semicolon :: ls)) (declaration inner) k
      (.punct .semicolon :: ls) fun s => s.height = n + 1 := by
  have hbindings {rounds : Nat} :
      Reads k (atom :: .punct .assign :: (ts ++ .punct .semicolon :: ls))
        (bindingsFrom inner [] (rounds + 1)) k (.punct .semicolon :: ls)
        fun bs => ∃ name e, bs = [(name, some e)] ∧ e.height = n := by
    refine reads_bindingName.bind fun name _ => reads_eat ?_
    refine Reads.bind ((h _ rfl).map (R := fun v => ∃ e, v = some e ∧ e.height = n)
      fun e he => ⟨e, rfl, he⟩) fun value hvalue => ?_
    obtain ⟨e, rfl, he⟩ := hvalue
    exact reads_eat_other rfl (.pure ⟨name, e, rfl, he⟩)
  refine reads_bound.bind fun rounds hrounds => ?_
  obtain ⟨rounds, rfl⟩ := Nat.exists_eq_succ_of_ne_zero (Nat.ne_of_gt (Nat.zero_lt_of_lt hrounds))
  refine hbindings.bind fun bs hbs => .pure ?_
  obtain ⟨name, e, rfl, he⟩ := hbs
  rw [Stmt.height, bindingsHeight, bindingsHeight, exprOptionHeight, he]
  omega

/-- A counting loop that starts with the declaration of a tower. -/
def loopUpon (ts : List Lexeme) : List Lexeme :=
  [.name "for", .punct .parenOpen, .name "let", atom, .punct .assign] ++ ts ++
    [.punct .semicolon, .punct .semicolon, .punct .parenClose, .punct .semicolon]

theorem reads_forStatement {ts ls : List Lexeme}
    (h : ReadsTall inner.assignment endsAssignment k ts n)
    (hempty : ∀ ls, Reads k (.punct .semicolon :: ls) inner.statement k ls fun s => s.height = 1) :
    Reads k (.punct .parenOpen :: .name "let" :: atom :: .punct .assign :: (ts ++
        .punct .semicolon :: .punct .semicolon :: .punct .parenClose :: .punct .semicolon :: ls))
      (forStatement inner) k ls fun s => s.height = n + 2 := by
  refine reads_expect.bind fun _ _ => .get fun c hc => ?_
  have heach : atEachLoop c = false := by
    unfold atEachLoop
    rw [hc.ahead (n := 1) rfl, hc.ahead (n := 2) rfl]
    exact Bool.and_false _
  rw [heach]
  have hinit : Reads k (.name "let" :: atom :: .punct .assign :: (ts ++
      .punct .semicolon :: .punct .semicolon :: .punct .parenClose :: .punct .semicolon :: ls))
      (loopInit inner) k
      (.punct .semicolon :: .punct .semicolon :: .punct .parenClose :: .punct .semicolon :: ls)
      fun init => stmtOptionHeight init = n + 1 := by
    refine .get fun c hc => ?_
    have hpunct : c.atPunct .semicolon = false := atPunct_of_stands hc _
    have hdeclares : atDeclaration c = true := by
      unfold atDeclaration
      rw [atWord_of_stands hc, atWord_of_stands hc, atWord_of_stands hc]
      rfl
    rw [hpunct, hdeclares]
    refine reads_advance.bind fun _ _ => (reads_declaration h).map fun s hs => ?_
    rwa [stmtOptionHeight]
  have hnone {p : Punct} {ls : List Lexeme} :
      Reads k (.punct p :: ls) (unlessAt inner p) k (.punct p :: ls) fun e => e = none := by
    refine .get fun c hc => ?_
    rw [atPunct_of_stands hc, firstOf, Lexeme.isPunct, beq_self_eq_true, if_pos rfl]
    exact .pure rfl
  refine hinit.bind fun init hinit => reads_expect.bind fun _ _ => hnone.bind fun test htest =>
    reads_expect.bind fun _ _ => hnone.bind fun update hupdate => reads_expect.bind fun _ _ =>
      (hempty ls).bind fun body hbody => .pure ?_
  rw [Stmt.height, hinit, htest, hupdate, hbody, exprOptionHeight]
  omega

theorem reads_statementLevel {ts ls : List Lexeme}
    (h : ReadsTall inner.assignment endsAssignment k ts n)
    (hempty : ∀ ls, Reads k (.punct .semicolon :: ls) inner.statement k ls fun s => s.height = 1) :
    Reads k (loopUpon ts ++ ls) (statementLevel inner) k ls fun s => s.height = n + 2 := by
  rw [loopUpon, List.append_assoc, List.append_assoc]
  refine reads_eat_other rfl (.get fun c hc => ?_)
  have hblock : c.atPunct .braceOpen = false := atPunct_of_stands hc _
  have hdeclares : atDeclaration c = false := by
    unfold atDeclaration
    rw [atWord_of_stands hc, atWord_of_stands hc, atWord_of_stands hc]
    rfl
  rw [hblock, hdeclares]
  exact reads_eatWord_other rfl (reads_eatWord_other rfl (reads_eatWord_other rfl
    (reads_eatWord (reads_forStatement h hempty))))

theorem reads_level_loop (k n : Nat) (hn : k + 1 < n) (ls : List Lexeme) :
    Reads (k + 2) (loopUpon (tower (k + 1)) ++ ls) (level n).statement (k + 2) ls
      fun s => s.height = tallestStmt (k + 2) := by
  obtain ⟨n, rfl⟩ := Nat.exists_eq_succ_of_ne_zero (Nat.ne_of_gt (Nat.zero_lt_of_lt hn))
  obtain ⟨n, rfl⟩ := Nat.exists_eq_succ_of_ne_zero
    (Nat.ne_of_gt (Nat.zero_lt_of_lt (Nat.lt_of_succ_lt_succ hn)))
  have hempty (ls : List Lexeme) : Reads (k + 1) (.punct .semicolon :: ls) (level (n + 1)).statement
      (k + 1) ls fun s => s.height = 1 :=
    Reads.nested (reads_eat (.pure rfl))
  exact (reads_statementLevel (reads_tower k _ (Nat.lt_of_succ_lt_succ hn)) hempty).nested

/-! ## 7. Whole sources -/

/-- Whether a lexeme is one of those that occur here. -/
def isUsed : Lexeme → Bool
  | .punct p => !(p = .divide ∨ p = .divideAssign)
  | .name word => word = "a" ∨ word = "for" ∨ word = "let"
  | _ => false

theorem isPlain_of_isUsed {l : Lexeme} (h : isUsed l = true) : l.IsPlain := by
  unfold isUsed at h
  split at h
  · next p =>
    rw [Bool.not_eq_true', decide_eq_false_iff_not, not_or] at h
    exact isPlain_punct h.1 h.2
  · next word =>
    rcases of_decide_eq_true h with rfl | rfl | rfl
    all_goals exact ⟨_, _, rfl, by decide +kernel, by decide, fun _ _ _ => rfl⟩
  · cases h

theorem all_chain {q : Punct} (hq : isUsed (.punct q) = true) (m : Nat) :
    (chain q m).all isUsed = true := by
  induction m with
  | zero => rfl
  | succ m ih =>
    rw [chain, List.all_cons, List.all_cons, hq, ih]
    rfl

theorem all_members (m : Nat) : (members m).all isUsed = true := by
  induction m with
  | zero => rfl
  | succ m ih =>
    rw [members, List.all_cons, List.all_cons, ih]
    rfl

theorem all_climb {ts : List Lexeme} (h : ts.all isUsed = true) (count : Punct → Nat) :
    (climb count ts).all isUsed = true := by
  unfold climb
  simp only [List.all_append, h, all_chain (q := .times) rfl, all_chain (q := .plus) rfl,
    all_chain (q := .less) rfl, all_chain (q := .looseEq) rfl, all_chain (q := .andAnd) rfl,
    all_chain (q := .orOr) rfl]
  rfl

theorem all_mount {ts : List Lexeme} (h : ts.all isUsed = true) (m : Nat) :
    (mount m ts).all isUsed = true := by
  rw [mount, List.all_append, List.all_append, all_climb h]
  rfl

theorem all_upon {ts : List Lexeme} (h : ts.all isUsed = true) (m : Nat) :
    (upon m ts).all isUsed = true := by
  rw [upon, List.all_cons, List.all_append, h, List.all_cons, all_members]
  rfl

theorem all_tower (k : Nat) : (tower k).all isUsed = true := by
  match k with
  | 0 => rfl
  | 1 => rfl
  | 2 => exact all_mount rfl 0
  | k + 3 =>
    rw [tower]
    exact all_mount (all_upon (all_tower (k + 1)) (k + 1)) (k + 1)

theorem all_loopUpon {ts : List Lexeme} (h : ts.all isUsed = true) :
    (loopUpon ts).all isUsed = true := by
  rw [loopUpon, List.all_append, List.all_append, h]
  rfl

theorem reads_atEnd {β : Type} {k' : Nat} {ls' : List Lexeme} {f : Cursor → Production β}
    {R : β → Prop} (hf : ∀ c, c.atEnd = true → Reads k [] (f c) k' ls' R) :
    Reads k [] (get >>= f) k' ls' R := by
  refine .get fun c hc => hf c ?_
  unfold Cursor.atEnd
  rw [hc.lexeme]
  rfl

theorem onSource_spell {α : Type} {p : Production α} {ls : List Lexeme} {Q : α → Prop}
    (hls : ls.all isUsed = true) (h : Reads maxSourceNesting ls p maxSourceNesting [] Q) :
    ∃ a, onSource p (.ofList (spell ls)) = .ok a ∧ Q a := by
  obtain ⟨ts, htokenize, hts⟩ :=
    tokenize_spell fun l hl => isPlain_of_isUsed (List.all_eq_true.mp hls l hl)
  obtain ⟨a, c, ha, -, hq⟩ := h { tokens := ts } ⟨hts, Nat.zero_add _⟩
  refine ⟨a, ?_, hq⟩
  unfold onSource
  rw [htokenize]
  dsimp only
  have hrun : p.run { tokens := ts } = .ok a c := ha
  rw [hrun]

theorem readExpr_spell {ls : List Lexeme} {n : Nat} (hls : ls.all isUsed = true)
    (h : Reads maxSourceNesting ls top.assignment maxSourceNesting [] fun e => e.height = n) :
    ∃ e, readExpr (.ofList (spell ls)) = .ok e ∧ e.height = n := by
  refine onSource_spell hls ?_
  have hskip : Reads maxSourceNesting [] skipSemicolon maxSourceNesting [] fun _ => True :=
    reads_eat_other rfl (.pure trivial)
  have hend : Reads maxSourceNesting [] expectEnd maxSourceNesting [] fun _ => True := by
    refine reads_atEnd fun c hc => ?_
    rw [hc]
    exact .pure trivial
  exact h.bind fun e he => hskip.bind fun _ _ => hend.bind fun _ _ => .pure he

/-- A product of sixty-five factors is the first of the sixty-five terms of a sum. -/
def longSum : List Lexeme := climb (fun q => if q = .times ∨ q = .plus then 64 else 0) [atom]

theorem reads_longSum :
    Reads maxSourceNesting longSum top.assignment maxSourceNesting [] fun e => e.height = 129 := by
  have hcount (q : Punct) : (if q = .times ∨ q = .plus then 64 else 0) ≤ 126 := by
    split <;> decide
  have hparams : Reads 127 longSum arrowParams? 127 longSum fun params => params = none :=
    reads_arrowParams_atom (q := .times) nofun
  have hdisjunction := reads_disjunction (reads_level_atom 127) hcount (reads_level_atom 127 126) []
    rfl
  rw [List.append_nil] at hdisjunction
  exact (reads_assignmentLevel hparams
    (hdisjunction.bind fun e he => reads_eat_other rfl (.pure he))
    rfl).nested

end Production

open Production

/-- An expression that is taller than texts may be nested, though it is read. -/
theorem readExpr_longSum : ∃ e, readExpr (.ofList (spell longSum)) = .ok e ∧
    maxSourceNesting < e.height := by
  obtain ⟨e, he, hheight⟩ := readExpr_spell (all_climb rfl _) reads_longSum
  exact ⟨e, he, hheight ▸ by decide⟩

/-- Some expression is as tall as can be. -/
theorem exists_readExpr_height :
    ∃ source e, readExpr source = .ok e ∧ e.height = tallest maxSourceNesting := by
  have htower := reads_tower 127 129 (by decide) [] rfl
  rw [List.append_nil] at htower
  exact ⟨_, readExpr_spell (all_tower maxSourceNesting) htower⟩

/-- Some statement of a program is as tall as can be. -/
theorem exists_readProgram_height : ∃ source program, readProgram source = .ok program ∧
    ∃ s ∈ program, s.height = tallestStmt maxSourceNesting := by
  refine ⟨_, onSource_spell (all_loopUpon (all_tower (maxSourceNesting - 1))) ?_⟩
  have hloop := reads_level_loop 126 129 (by decide) []
  rw [List.append_nil] at hloop
  refine reads_bound.bind fun rounds hrounds => ?_
  obtain ⟨rounds, rfl⟩ : ∃ n, rounds = n + 2 := ⟨rounds - 2, by
    rw [loopUpon, List.length_append, List.length_append, List.length_cons] at hrounds
    omega⟩
  refine .get fun c hc => ?_
  have hfor : c.atEnd = false := by
    unfold Cursor.atEnd
    rw [hc.lexeme]
    rfl
  rw [hfor]
  refine hloop.bind fun s hs => reads_atEnd fun c hc => ?_
  rw [hc]
  exact .pure ⟨s, List.mem_singleton_self s, hs⟩

/-- The heights that bound all expressions that are read, and those that bound all statements. -/
theorem height_le_iff (n : Nat) :
    ((∀ source e, readExpr source = .ok e → e.height ≤ n) ↔ 28353 ≤ n) ∧
      ((∀ source program, readProgram source = .ok program → ∀ s ∈ program, s.height ≤ n) ↔
        27912 ≤ n) := by
  have htallest : tallest maxSourceNesting = 28353 := by decide +kernel
  have htallestStmt : tallestStmt maxSourceNesting = 27912 := by decide +kernel
  refine ⟨⟨fun h => ?_, fun hn source e he => ?_⟩,
    ⟨fun h => ?_, fun hn source program hp s hs => ?_⟩⟩
  · obtain ⟨source, e, he, hheight⟩ := exists_readExpr_height
    rw [← htallest, ← hheight]
    exact h source e he
  · exact Nat.le_trans (readExpr_height_le he) hn
  · obtain ⟨source, program, hp, s, hs, hheight⟩ := exists_readProgram_height
    rw [← htallestStmt, ← hheight]
    exact h source program hp s hs
  · exact Nat.le_trans (readProgram_height_le hp s hs) hn

end TraceViewer.Snippet
