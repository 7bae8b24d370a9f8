import TraceViewer.Proofs.Snippet.RoundTrip

/-!
# Precedence of operators

Operands with binary operators between them have one tree in a grammar with six ranks of operators,
each of which groups to the left.  The parser reads this tree.
-/

namespace TraceViewer.Snippet

/-! ## 1. Rows of operands -/

inductive Operator where
  | binary (op : BinaryOp)
  | logical (op : LogicalOp)

namespace Operator

def punct : Operator → Punct
  | .binary op => op.punct
  | .logical op => op.punct

def join : Operator → Expr → Expr → Expr
  | .binary op => .binary op
  | .logical op => .logical op

/-- The ranks are counted from the tightest. -/
def rank : Operator → Nat
  | .binary .mul | .binary .div | .binary .rem => 1
  | .binary .add | .binary .sub => 2
  | .binary .less | .binary .lessEq | .binary .greater | .binary .greaterEq => 3
  | .binary .looseEq | .binary .looseNe | .binary .strictEq | .binary .strictNe => 4
  | .logical .and => 5
  | .logical .or | .logical .nullish => 6

theorem rank_pos (op : Operator) : 0 < op.rank := by
  rcases op with op | op <;> cases op <;> decide

theorem rank_le (op : Operator) : op.rank ≤ 6 := by
  rcases op with op | op <;> cases op <;> decide

end Operator

/-- A variable or the literal of a number. -/
inductive Operand where
  | ident (name : String) (h : IsVariable name)
  | number (n : Numeral)

namespace Operand

def text : Operand → String
  | .ident name _ => name
  | .number n => .ofList n.chars

def lexeme : Operand → Lexeme
  | .ident name _ => .name name
  | .number n => .number n.value

def expr : Operand → Expr
  | .ident name _ => .ident name
  | .number n => .number n.value

end Operand

/-- An operand with operators behind it, each of which has an operand of its own. -/
structure Row where
  first : Operand
  rest : List (Operator × Operand)

namespace Row

/-- The operands and the operators with a blank between each two. -/
def text (row : Row) : String :=
  " ".intercalate (row.first.text :: row.rest.flatMap fun x => [x.1.punct.spelling, x.2.text])

/-- Two rows with an operator between them. -/
def joined (left : Row) (op : Operator) (right : Row) : Row :=
  ⟨left.first, left.rest ++ (op, right.first) :: right.rest⟩

end Row

/-- The grammar: a rank has what the rank below has, and its own operators between a row of the same
rank and one of the rank below. -/
inductive Groups : Nat → Row → Expr → Prop
  | operand (a : Operand) : Groups 0 ⟨a, []⟩ a.expr
  | tighter {r : Nat} {row : Row} {e : Expr} (h : Groups r row e) : Groups (r + 1) row e
  | joined {r : Nat} {left right : Row} {d e : Expr} {op : Operator} (hop : op.rank = r + 1)
    (hleft : Groups (r + 1) left d) (hright : Groups r right e) :
    Groups (r + 1) (left.joined op right) (op.join d e)

/-! ## 2. Every row has a tree -/

theorem groups_operand (r : Nat) (a : Operand) : Groups r ⟨a, []⟩ a.expr := by
  induction r with
  | zero => exact .operand a
  | succ r ih => exact ih.tighter

/-- One more operator finds its place: in the last part of each looser rank, and behind all of a
tighter or equal one. -/
theorem Groups.snoc {r : Nat} {row : Row} {e : Expr} (h : Groups r row e) (op : Operator)
    (a : Operand) (hop : op.rank ≤ r) : ∃ d, Groups r (row.joined op ⟨a, []⟩) d := by
  induction h with
  | operand => exact absurd op.rank_pos (Nat.not_lt_of_le hop)
  | @tighter r row e h ih =>
    rcases Nat.lt_or_eq_of_le hop with hlt | heq
    · obtain ⟨d, hd⟩ := ih (Nat.le_of_lt_succ hlt)
      exact ⟨d, hd.tighter⟩
    · exact ⟨_, .joined heq h.tighter (groups_operand r a)⟩
  | @joined r left right d e last hlast hleft hright _ ih =>
    rcases Nat.lt_or_eq_of_le hop with hlt | heq
    · obtain ⟨d', hd⟩ := ih (Nat.le_of_lt_succ hlt)
      have hjoined := Groups.joined hlast hleft hd
      have hrow : left.joined last (right.joined op ⟨a, []⟩) =
          (left.joined last right).joined op ⟨a, []⟩ := by
        simp only [Row.joined, List.append_assoc, List.cons_append]
      exact ⟨_, hrow ▸ hjoined⟩
    · exact ⟨_, .joined heq (.joined hlast hleft hright) (groups_operand r a)⟩

theorem exists_groups (row : Row) : ∃ e, Groups 6 row e := by
  have hextend (xs : List (Operator × Operand)) {row : Row} {e : Expr} (h : Groups 6 row e) :
      ∃ d, Groups 6 ⟨row.first, row.rest ++ xs⟩ d := by
    induction xs generalizing row e with
    | nil =>
      rw [List.append_nil]
      exact ⟨e, h⟩
    | cons x xs ih =>
      obtain ⟨d, hd⟩ := h.snoc x.1 x.2 x.1.rank_le
      have hrest := ih hd
      rwa [Row.joined, List.append_assoc] at hrest
  exact hextend row.rest (groups_operand 6 row.first)

/-! ## 3. The tokens of a row -/

namespace Operand

theorem allowsPattern (a : Operand) : a.lexeme.allowsPattern = false := by
  cases a with
  | ident name h => exact allowsPattern_variable h
  | number => rfl

theorem isSlash (a : Operand) : a.lexeme.isSlash = false := by
  cases a <;> rfl

theorem isReadFrom (a : Operand) : a.lexeme.IsReadFrom a.text.toList := by
  cases a with
  | ident name h => exact (isRead_name h.1).tokens
  | number n =>
    rw [text, String.toList_ofList]
    exact isReadFrom_numeral n

theorem text_ne (a : Operand) : a.text.toList ≠ [] := by
  cases a with
  | ident name h => exact (isRead_name h.1).written_ne
  | number n =>
    obtain ⟨c, cs, hchars, -⟩ := n.start
    rw [text, String.toList_ofList, hchars]
    exact List.cons_ne_nil c cs

end Operand

namespace Row

/-- The tokens of a row with their characters. -/
def spelled (row : Row) : List Spelled :=
  (row.first.lexeme, row.first.text.toList) :: row.rest.flatMap fun x =>
    [(.punct x.1.punct, x.1.punct.spelling.toList), (x.2.lexeme, x.2.text.toList)]

def lexemes (row : Row) : List Lexeme :=
  row.first.lexeme :: row.rest.flatMap fun x => [.punct x.1.punct, x.2.lexeme]

theorem lexemes_joined (left right : Row) (op : Operator) :
    (left.joined op right).lexemes = left.lexemes ++ .punct op.punct :: right.lexemes := by
  rw [joined, lexemes, List.flatMap_append]
  rfl

end Row

theorem intercalate_blank (ps : List Spelled) :
    [' '].intercalate (ps.map Prod.snd) = inARow ps := by
  cases ps with
  | nil => rfl
  | cons p ps =>
    induction ps generalizing p with
    | nil => rfl
    | cons q ps ih =>
      show p.2 ++ ([' '] ++ [' '].intercalate ((q :: ps).map Prod.snd)) = _
      rw [ih]
      rfl

theorem toList_text (row : Row) : row.text.toList = inARow row.spelled := by
  rw [← intercalate_blank, Row.text, String.toList_intercalate]
  simp only [Row.spelled, List.map_cons, List.map_flatMap, List.map_nil]
  rfl

theorem readInOrder_spelled (row : Row) : ReadInOrder false row.spelled := by
  have hoperand {a : Bool} {ps : List Spelled} (x : Operand) (h : ReadInOrder true ps) :
      ReadInOrder a ((x.lexeme, x.text.toList) :: ps) :=
    .cons x.isReadFrom x.text_ne (fun hx => by rw [x.isSlash] at hx; cases hx)
      (by rw [x.allowsPattern]; exact h)
  apply hoperand
  induction row.rest with
  | nil => exact .nil true
  | cons x xs ih =>
    -- a slash behind an operand divides
    exact .cons (isRead_punct _).tokens (isRead_punct _).written_ne (fun _ => rfl) (hoperand x.2 ih)

theorem tokenize_row (row : Row) : ∃ ts, tokenize row.text = .ok ts ∧
    ts.map (fun t => t.lexeme.unplaced) = row.lexemes ++ [.finish] := by
  have hlexemes : row.spelled.map Prod.fst = row.lexemes := by
    simp only [Row.spelled, Row.lexemes, List.map_cons, List.map_flatMap, List.map_nil]
  obtain ⟨ts, htokenize, hts⟩ := tokenize_inARow (readInOrder_spelled row)
  rw [← toList_text, String.ofList_toList] at htokenize
  rw [hlexemes] at hts
  exact ⟨ts, htokenize, hts⟩

/-! ## 4. Reading a row -/

namespace Production

/-- What a rank of operators has of its own. -/
structure Rank where
  Op : Type
  op? : Punct → Option Op
  join : Op → Expr → Expr → Expr

def rankOf : Nat → Rank
  | 0 => ⟨BinaryOp, multiplicativeOp?, .binary⟩
  | 1 => ⟨BinaryOp, additiveOp?, .binary⟩
  | 2 => ⟨BinaryOp, relationalOp?, .binary⟩
  | 3 => ⟨BinaryOp, equalityOp?, .binary⟩
  | 4 => ⟨LogicalOp, andOp?, .logical⟩
  | _ => ⟨LogicalOp, orOp?, .logical⟩

/-- The productions from unary expressions on up to a rank. -/
def ranked (inner : Level) : Nat → Production Expr
  | 0 => inner.unary
  | r + 1 => operators (rankOf r).op? (rankOf r).join (ranked inner r)

def endsRanked : Nat → Lexeme → Bool
  | 0 => endsUnary
  | r + 1 => endsRank (rankOf r).op? (endsRanked r)

/-- All ranks together are what a conditional begins with. -/
theorem ranked_six (inner : Level) : ranked inner 6 = disjunction inner := rfl

theorem op?_punct {op : Operator} {r : Nat} (hop : op.rank = r + 1) :
    ∃ x, (rankOf r).op? op.punct = some x ∧ (rankOf r).join x = op.join ∧
      endsRanked r (.punct op.punct) = true := by
  obtain rfl : r = op.rank - 1 := by rw [hop, Nat.add_sub_cancel]
  rcases op with op | op <;> cases op <;> exact ⟨_, rfl, rfl, rfl⟩

/-- A rank reads these lexemes as the expression, which has so many links of the rank. -/
def RankReads (m : Nat) (inner : Level) : Nat → Nat → List Lexeme → Nat → Expr → Prop
  | 0, k, ts, _, e => YieldsUntil m inner.unary endsUnary k ts e
  | r + 1, k, ts, links, e =>
    Chains m (rankOf r).op? (rankOf r).join (ranked inner r) (endsRanked r) k ts links e

variable {m k : Nat} {inner : Level}

theorem RankReads.yields {r links : Nat} {ts : List Lexeme} {e : Expr}
    (h : RankReads m inner r k ts links e) :
    YieldsUntil m (ranked inner r) (endsRanked r) k ts e := by
  cases r with
  | zero => exact h
  | succ r => exact Chains.ends h

/-- Each operator takes a level until its chain ends, so a row takes no more than its operators. -/
theorem rankReads_of_groups
    (hinner : ∀ (a : Operand) k, k < m → YieldsUntil m inner.unary endsUnary k [a.lexeme] a.expr)
    {r : Nat} {row : Row} {e : Expr} (h : Groups r row e) (hk : k + row.rest.length < m) :
    ∃ links, links ≤ row.rest.length ∧ RankReads m inner r k row.lexemes links e := by
  induction h generalizing k with
  | operand a => exact ⟨0, Nat.zero_le _, hinner a k hk⟩
  | tighter _ ih =>
    obtain ⟨links, -, hreads⟩ := ih hk
    exact ⟨0, Nat.zero_le _, chains_operand hreads.yields⟩
  | @joined r left right d e op hop _ _ ihleft ihright =>
    have hlength : (left.joined op right).rest.length =
        left.rest.length + (right.rest.length + 1) := List.length_append
    obtain ⟨x, hx, hjoin, hstop⟩ := op?_punct hop
    obtain ⟨links, hlinks, hleft⟩ := ihleft (k := k) (by omega)
    obtain ⟨_, -, hright⟩ := ihright (k := k + links + 1) (by omega)
    refine ⟨links + 1, by omega, ?_⟩
    rw [Row.lexemes_joined, ← hjoin]
    exact Chains.link hleft hright.yields hx hstop (by omega)

theorem yields_operand_unary {n : Nat} (a : Operand) (hk : k < m) :
    YieldsUntil m (level (n + 1)).unary endsUnary k [a.lexeme] a.expr := by
  intro ls hls
  refine Yields.nested hk (yields_chain_none (fun ls => ?_) (fun ls => ?_) ls hls)
  · cases a with
    | ident name h => exact yields_primary_atom (e := .ident name) h rfl
    | number n => exact yields_primary_number n.value
  · cases a with
    | ident name h => exact isPrefix_operand (e := .ident name) h ls
    | number => rfl

/-- An operand with an operator or nothing behind it starts no function. -/
theorem isArrow_row (row : Row) : isArrow (row.lexemes ++ [.finish]) = false := by
  obtain ⟨first, rest⟩ := row
  cases first with
  | number => rfl
  | ident name h =>
    refine isArrow_name ?_ name
    cases rest with
    | nil => rfl
    | cons x rest =>
      obtain ⟨op | op, a⟩ := x <;> cases op <;> rfl

theorem yields_row {row : Row} {e : Expr} (h : Groups 6 row e) (hm : row.rest.length + 2 ≤ m) :
    Yields m 0 row.lexemes top.assignment 0 [] e := by
  have hunary : ∀ (a : Operand) k, k < m →
      YieldsUntil m (level maxSourceNesting).unary endsUnary k [a.lexeme] a.expr :=
    fun a k hk => yields_operand_unary a hk
  obtain ⟨links, -, hreads⟩ := rankReads_of_groups hunary h (k := 1) (by omega)
  have hdisjunction := hreads.yields [] rfl
  rw [List.append_nil, ranked_six] at hdisjunction
  exact Yields.nested (by omega)
    (yields_assignmentLevel (isArrow_row row) (yields_conditional hdisjunction rfl) rfl)

end Production

/-- A row of up to one hundred and twenty-six operators is read as the one tree that it has in the
grammar. -/
theorem readExpr_row (row : Row) (h : row.rest.length + 2 ≤ maxSourceNesting) :
    ∃ e, readExpr row.text = .ok e ∧ ∀ d, Groups 6 row d ↔ d = e := by
  have hread {d : Expr} (hd : Groups 6 row d) : readExpr row.text = .ok d := by
    obtain ⟨ts, htokenize, hts⟩ := tokenize_row row
    rcases readExpr_of_yields htokenize hts (Production.yields_row hd h) with hok | ⟨hlt, -⟩
    · exact hok
    · exact absurd hlt (Nat.lt_irrefl _)
  obtain ⟨e, he⟩ := exists_groups row
  refine ⟨e, hread he, fun d => ⟨fun hd => ?_, fun hd => hd ▸ he⟩⟩
  -- two trees of one row would both be what is read
  exact Except.ok.inj ((hread hd).symm.trans (hread he))

namespace Operand

def a : Operand := .ident "a" (by decide +kernel)

def b : Operand := .ident "b" (by decide +kernel)

/-- A literal with a point and no digits behind it. -/
def one : Operand := .number (.decimal
  ⟨['1'], some [], none, List.all_eq_true.mp rfl, nofun, .inl (List.cons_ne_nil _ _)⟩)

/-- The exponent in the literal `five`. -/
def plusOne : Exponent :=
  ⟨'e', .plus, ['1'], .inl rfl, List.all_eq_true.mp rfl, List.cons_ne_nil _ _⟩

/-- A literal with an exponent and no digits before its point. -/
def five : Operand := .number (.decimal
  ⟨[], some ['5'], some plusOne, nofun, List.all_eq_true.mp rfl, .inr (List.cons_ne_nil _ _)⟩)

def thirtyOne : Operand := .number (.hex
  ⟨'x', ['1', 'F'], .inl rfl, List.all_eq_true.mp rfl, List.cons_ne_nil _ _, by decide⟩)

end Operand

/-- A row with an operator of each rank, and two of one rank. -/
def everyRank : Row := ⟨.a, [(.logical .nullish, .b), (.logical .and, .one),
  (.binary .strictNe, .thirtyOne), (.binary .less, .a), (.binary .sub, .five), (.binary .div, .b),
  (.binary .sub, .a)]⟩

def everyRankTree : Expr :=
  .logical .nullish Operand.a.expr (.logical .and Operand.b.expr
    (.binary .strictNe Operand.one.expr (.binary .less Operand.thirtyOne.expr
      (.binary .sub (.binary .sub Operand.a.expr
        (.binary .div Operand.five.expr Operand.b.expr)) Operand.a.expr))))

theorem groups_everyRank : Groups 6 everyRank everyRankTree := by
  have hdiv : Groups 1 ⟨.five, [(.binary .div, .b)]⟩ _ :=
    .joined rfl (groups_operand 1 .five) (groups_operand 0 .b)
  have hsub : Groups 2 ⟨.a, [(.binary .sub, .five), (.binary .div, .b)]⟩ _ :=
    .joined rfl (groups_operand 2 .a) hdiv
  have hsubs : Groups 2 ⟨.a, [(.binary .sub, .five), (.binary .div, .b), (.binary .sub, .a)]⟩ _ :=
    .joined rfl hsub (groups_operand 1 .a)
  have hless : Groups 3 ⟨.thirtyOne, (.binary .less, .a) :: _⟩ _ :=
    .joined rfl (groups_operand 3 .thirtyOne) hsubs
  have hne : Groups 4 ⟨.one, (.binary .strictNe, .thirtyOne) :: _⟩ _ :=
    .joined rfl (groups_operand 4 .one) hless
  have hand : Groups 5 ⟨.b, (.logical .and, .one) :: _⟩ _ :=
    .joined rfl (groups_operand 5 .b) hne
  exact .joined rfl (groups_operand 6 .a) hand

theorem readExpr_everyRank : everyRank.rest.length + 2 ≤ maxSourceNesting ∧
    readExpr "a ?? b && 1. !== 0x1F < a - .5e+1 / b - a" = .ok everyRankTree := by
  have hlength : everyRank.rest.length + 2 ≤ maxSourceNesting := by decide
  have htext : everyRank.text = "a ?? b && 1. !== 0x1F < a - .5e+1 / b - a" := by decide +kernel
  obtain ⟨e, hread, hiff⟩ := readExpr_row everyRank hlength
  obtain rfl : everyRankTree = e := (hiff _).mp groups_everyRank
  exact ⟨hlength, htext ▸ hread⟩

end TraceViewer.Snippet
