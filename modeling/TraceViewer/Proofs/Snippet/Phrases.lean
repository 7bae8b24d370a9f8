import TraceViewer.Proofs.Snippet.Printing
import TraceViewer.Proofs.Snippet.Spelling

/-!
# The tokens of printed expressions

What the lexer makes of a token depends on what stands before it: a slash divides only behind the
end of a value.  The tokens of a printed expression come in an order in which all of them are read
as they were written.
-/

namespace TraceViewer.Snippet

open TraceViewer.Text

/-! ## 1. Tokens in a row -/

/-- A token and the characters that it is read from. -/
abbrev Spelled := Lexeme × List Char

/-- Tokens with a blank before each. -/
def blanked (ps : List Spelled) : List Char := ps.flatMap fun p => ' ' :: p.2

/-- Tokens with a blank between each two. -/
def inARow : List Spelled → List Char
  | [] => []
  | p :: ps => p.2 ++ blanked ps

/-- Each of the tokens is read behind those before it.  The flag tells whether the end of a value
stands before the tokens. -/
inductive ReadInOrder : Bool → List Spelled → Prop
  | nil (a : Bool) : ReadInOrder a []
  | cons {a : Bool} {l : Lexeme} {cs : List Char} {ps : List Spelled} (hl : l.IsReadFrom cs)
    (hne : cs ≠ []) (hslash : l.isSlash = true → a = true)
    (h : ReadInOrder (!l.allowsPattern) ps) : ReadInOrder a ((l, cs) :: ps)

theorem separated_blanked (ps : List Spelled) : Separated (blanked ps) := by
  cases ps with
  | nil => exact separated_nil
  | cons p ps =>
    rintro _ ⟨⟩
    rfl

/-- A blank before the first token is skipped. -/
theorem tokensFrom_blanked {bound : Nat} (hbound : 0 < bound) (acc : List Token) (offset : Nat)
    (ps : List Spelled) : ∃ offset', tokensFrom bound acc ⟨offset, blanked ps⟩ =
      tokensFrom bound acc ⟨offset', inARow ps⟩ := by
  obtain ⟨bound, rfl⟩ := Nat.exists_eq_succ_of_ne_zero (Nat.ne_of_gt hbound)
  cases ps with
  | nil => exact ⟨offset, rfl⟩
  | cons p ps =>
    refine ⟨offset + 1, ?_⟩
    show tokensFrom (bound + 1) acc ⟨offset, ' ' :: inARow (p :: ps)⟩ = _
    rw [tokensFrom, skipTrivia_blank]
    rfl

theorem allowsPattern_unplaced (l : Lexeme) : l.unplaced.allowsPattern = l.allowsPattern := by
  cases l <;> rfl

/-- Reading goes through the tokens one by one. -/
theorem tokensFrom_inARow {a : Bool} {ps : List Spelled} (h : ReadInOrder a ps)
    {bound : Nat} (hbound : ps.length < bound) (acc : List Token)
    (hacc : a = true → (acc.head?.map Token.lexeme).all Lexeme.allowsPattern = false)
    (offset : Nat) :
    ∃ ts n, tokensFrom bound acc ⟨offset, inARow ps⟩ =
        .ok (acc.reverse ++ ts ++ [⟨.finish, n⟩]) ∧
      ts.map (fun t => t.lexeme.unplaced) = ps.map Prod.fst := by
  induction h generalizing bound acc offset with
  | nil a =>
    obtain ⟨bound, rfl⟩ := Nat.exists_eq_succ_of_ne_zero (Nat.ne_of_gt hbound)
    refine ⟨[], offset, ?_, rfl⟩
    show tokensFrom (bound + 1) acc ⟨offset, []⟩ = _
    rw [tokensFrom, skipTrivia_nil, List.append_nil, ← List.reverse_cons]
  | @cons a l cs ps hl hne hslash _ ih =>
    obtain ⟨bound, rfl⟩ := Nat.exists_eq_succ_of_ne_zero (Nat.ne_of_gt (Nat.zero_lt_of_lt hbound))
    have hlt : ps.length < bound := Nat.lt_of_succ_lt_succ hbound
    obtain ⟨l', rfl, hread⟩ := hl bound acc offset (blanked ps) (separated_blanked ps)
      fun h => hacc (hslash h)
    have hacc : (!l'.unplaced.allowsPattern) = true → l'.allowsPattern = false := fun h => by
      rw [← allowsPattern_unplaced, Bool.not_eq_true' _ |>.mp h]
    -- the tokens that follow are read from behind the blank
    obtain ⟨offset', hoffset⟩ := tokensFrom_blanked (Nat.zero_lt_of_lt hlt)
      (⟨l', offset⟩ :: acc) (offset + byteLength cs) ps
    obtain ⟨ts, n, htokens, hts⟩ := ih hlt (⟨l', offset⟩ :: acc) hacc offset'
    refine ⟨⟨l', offset⟩ :: ts, n, ?_, by rw [List.map_cons, hts, List.map_cons]⟩
    show tokensFrom (bound + 1) acc ⟨offset, cs ++ blanked ps⟩ = _
    rw [hread, hoffset, htokens, List.reverse_cons, List.append_assoc _ _ ts]
    rfl

theorem length_le_inARow {a : Bool} {ps : List Spelled} (h : ReadInOrder a ps) :
    ps.length ≤ (inARow ps).length := by
  have hblanked : ps.length + ps.length ≤ (blanked ps).length := by
    induction h with
    | nil => exact Nat.le_refl 0
    | @cons a l cs ps _ hne _ _ ih =>
      have hpos := List.length_pos_iff.mpr hne
      show ps.length + 1 + (ps.length + 1) ≤ (' ' :: (cs ++ blanked ps)).length
      rw [List.length_cons, List.length_append]
      omega
  cases ps with
  | nil => exact Nat.le_refl 0
  | cons p ps =>
    have hlength : (blanked (p :: ps)).length = (inARow (p :: ps)).length + 1 := rfl
    rw [List.length_cons] at hblanked ⊢
    omega

/-- A text that is written token by token is read as these tokens. -/
theorem tokenize_inARow {ps : List Spelled} (h : ReadInOrder false ps) :
    ∃ ts, tokenize (.ofList (inARow ps)) = .ok ts ∧
      ts.map (fun t => t.lexeme.unplaced) = ps.map Prod.fst ++ [.finish] := by
  have hbound := Nat.lt_succ_of_le (length_le_inARow h)
  obtain ⟨ts, n, htokens, hts⟩ := tokensFrom_inARow h hbound [] nofun 0
  refine ⟨ts ++ [⟨.finish, n⟩], ?_, ?_⟩
  · unfold tokenize Place.ofText
    rw [String.toList_ofList]
    exact htokens
  · rw [List.map_append, hts]
    rfl

/-! ## 2. Printed tokens -/

/-- Each of the tokens is read back after those before it.  The flags tell whether the end of a
value stands before the tokens and whether it ends them, the numbers how many braces are open. -/
inductive Written : Bool → Nat → List Lexeme → Bool → Nat → Prop
  | nil (a : Bool) (i : Nat) : Written a i [] a i
  | cons {a b : Bool} {i j k : Nat} {l : Lexeme} {ls : List Lexeme} (hl : l.IsRead)
    (hslash : l.isSlash = true → a = true) (hbraces : l.bracesAfter i = some k)
    (h : Written (!l.allowsPattern) k ls b j) : Written a i (l :: ls) b j

theorem Written.append {a b c : Bool} {i j k : Nat} {ls ls' : List Lexeme}
    (h : Written a i ls b j) (g : Written b j ls' c k) : Written a i (ls ++ ls') c k := by
  induction h with
  | nil => exact g
  | cons hl hslash hbraces _ ih => exact .cons hl hslash hbraces (ih g)

theorem Written.readInOrder {a b : Bool} {i j : Nat} {ls : List Lexeme} (h : Written a i ls b j) :
    ReadInOrder a (ls.map fun l => (l, l.written)) := by
  induction h with
  | nil => exact .nil _
  | cons hl hslash _ _ ih => exact .cons hl.tokens hl.written_ne hslash ih

theorem inARow_written (ls : List Lexeme) :
    inARow (ls.map fun l => (l, l.written)) = joined ls := by
  cases ls with
  | nil => rfl
  | cons l ls =>
    show l.written ++ blanked _ = l.written ++ spaced ls
    rw [blanked, List.flatMap_map]
    rfl

/-- A text that is printed token by token is read as these tokens. -/
theorem tokenize_joined {b : Bool} {i j : Nat} {ls : List Lexeme} (h : Written false i ls b j) :
    ∃ ts, tokenize (.ofList (joined ls)) = .ok ts ∧
      ts.map (fun t => t.lexeme.unplaced) = ls ++ [.finish] := by
  have hfst : (ls.map fun l => (l, l.written)).map Prod.fst = ls := by
    rw [List.map_map]
    exact List.map_id ls
  obtain ⟨ts, htokens, hts⟩ := tokenize_inARow h.readInOrder
  rw [inARow_written] at htokens
  rw [hfst] at hts
  exact ⟨ts, htokens, hts⟩

/-- The scanner of substitutions passes over tokens. -/
theorem scans_spaced {a b : Bool} {i j : Nat} {ls : List Lexeme} (h : Written a i ls b j)
    (outer : List Surround) :
    Scans (.code (i + 1) :: outer) (.code (j + 1) :: outer) (spaced ls) := by
  have hblank (n : Nat) : Scans (.code (n + 1) :: outer) (.code (n + 1) :: outer) [' '] :=
    scans_of_any rfl
  induction h with
  | nil => exact .nil _
  | cons hl _ hbraces _ ih => exact .cons (hblank _) ((hl.scans _ _ outer hbraces).append ih)

theorem scans_joined {a b : Bool} {i j : Nat} {ls : List Lexeme} (h : Written a i ls b j)
    (outer : List Surround) :
    Scans (.code (i + 1) :: outer) (.code (j + 1) :: outer) (joined ls) := by
  cases h with
  | nil => exact .nil _
  | cons hl _ hbraces h => exact (hl.scans _ _ outer hbraces).append (scans_spaced h outer)

/-! ## 3. Phrases -/

/-- Wherever they stand, the tokens are read back and leave the number of open braces. -/
def IsPhrase (ls : List Lexeme) : Prop := ∀ a i, ∃ b, Written a i ls b i

/-- A phrase that ends as values do. -/
def IsOperand (ls : List Lexeme) : Prop := ∀ a i, Written a i ls true i

theorem IsOperand.isPhrase {ls : List Lexeme} (h : IsOperand ls) : IsPhrase ls :=
  fun a i => ⟨true, h a i⟩

theorem isPhrase_nil : IsPhrase [] := fun a i => ⟨a, .nil a i⟩

theorem IsPhrase.cons {l : Lexeme} {ls : List Lexeme} (hl : l.IsRead) (hslash : l.isSlash = false)
    (hbrace : l.isBrace = false) (h : IsPhrase ls) : IsPhrase (l :: ls) := fun a i =>
  (h (!l.allowsPattern) i).imp fun _ h =>
    .cons hl (fun hl => by rw [hslash] at hl; cases hl) (bracesAfter_of_not hbrace i) h

/-- Behind an operand a slash divides. -/
theorem IsOperand.append_punct {ls ls' : List Lexeme} (h : IsOperand ls) {p : Punct}
    (hbrace : (Lexeme.punct p).isBrace = false) (g : IsPhrase ls') :
    IsPhrase (ls ++ .punct p :: ls') := fun a i =>
  (g (!(Lexeme.punct p).allowsPattern) i).imp fun _ g =>
    (h a i).append (.cons (isRead_punct p) (fun _ => rfl) (bracesAfter_of_not hbrace i) g)

theorem IsPhrase.append {ls ls' : List Lexeme} (h : IsPhrase ls) (g : IsPhrase ls') :
    IsPhrase (ls ++ ls') := fun a i =>
  let ⟨b, h⟩ := h a i
  (g b i).imp fun _ g => h.append g

theorem isOperand_single {l : Lexeme} (hl : l.IsRead) (hslash : l.isSlash = false)
    (hbrace : l.isBrace = false) (hpattern : l.allowsPattern = false) : IsOperand [l] := by
  intro a i
  have hend : (!l.allowsPattern) = true := by rw [hpattern]; rfl
  exact .cons hl (fun hl => by rw [hslash] at hl; cases hl) (bracesAfter_of_not hbrace i)
    (hend ▸ .nil _ i)

theorem isOperand_name {word : String} (h : IsWord word)
    (hword : (Lexeme.name word).allowsPattern = false) : IsOperand [.name word] :=
  isOperand_single (isRead_name h) rfl rfl hword

/-- Nothing of what stands between brackets matters outside of them. -/
theorem IsPhrase.enclosed {ls : List Lexeme} (h : IsPhrase ls) {p q : Punct} (a : Bool) {i j : Nat}
    (hp : (Lexeme.punct p).isSlash = false) (hq : (Lexeme.punct q).isSlash = false)
    (hopen : (Lexeme.punct p).bracesAfter i = some j)
    (hclose : (Lexeme.punct q).bracesAfter j = some i) :
    Written a i (.punct p :: (ls ++ [.punct q])) (!(Lexeme.punct q).allowsPattern) i := by
  obtain ⟨b, h⟩ := h (!(Lexeme.punct p).allowsPattern) j
  exact .cons (isRead_punct p) (fun hl => by rw [hp] at hl; cases hl) hopen
    (h.append (.cons (isRead_punct q) (fun hl => by rw [hq] at hl; cases hl) hclose (.nil _ i)))

theorem IsPhrase.parens {ls : List Lexeme} (h : IsPhrase ls) :
    IsOperand (.punct .parenOpen :: (ls ++ [.punct .parenClose])) :=
  fun a _ => h.enclosed a rfl rfl rfl rfl

theorem IsPhrase.brackets {ls : List Lexeme} (h : IsPhrase ls) :
    IsOperand (.punct .bracketOpen :: (ls ++ [.punct .bracketClose])) :=
  fun a _ => h.enclosed a rfl rfl rfl rfl

theorem IsPhrase.braces {ls : List Lexeme} (h : IsPhrase ls) :
    IsPhrase (.punct .braceOpen :: (ls ++ [.punct .braceClose])) :=
  fun a _ => ⟨_, h.enclosed a rfl rfl rfl rfl⟩

theorem isPhrase_commas {pieces : List (List Lexeme)} (h : ∀ ls ∈ pieces, IsPhrase ls) :
    IsPhrase (commas pieces) := by
  fun_induction commas pieces with
  | case1 => exact isPhrase_nil
  | case2 ls => exact h ls List.mem_cons_self
  | case3 ls rest _ ih =>
    obtain ⟨hls, hrest⟩ := List.forall_mem_cons.mp h
    exact hls.append (.cons (isRead_punct .comma) rfl rfl (ih hrest))

theorem IsOperand.passes {ls : List Lexeme} (h : IsOperand ls) : Passes (joined ls) :=
  fun n outer => scans_joined (h false n) outer

/-! ## 4. Printed expressions -/

/-- A slash behind a variable divides. -/
theorem allowsPattern_variable {word : String} (h : IsVariable word) :
    (Lexeme.name word).allowsPattern = false := by
  refine Bool.or_eq_false_iff.mpr ⟨?_, ?_⟩
  all_goals
    refine beq_eq_false_iff_ne.mpr fun hword => ?_
    have hreserved := h.2
    rw [hword] at hreserved
    revert hreserved
    decide

theorem isOperand_variable {word : String} (h : IsVariable word) : IsOperand [.name word] :=
  isOperand_name h.1 (allowsPattern_variable h)

theorem isOperand_atom {e : Expr} (h : e.IsPrintable) (hatom : e.isAtom = true) :
    IsOperand e.lexemes := by
  cases e with
  | number x =>
    obtain ⟨n, hn, rfl⟩ := h
    exact isOperand_single (isRead_number hn) rfl rfl rfl
  | text s => exact isOperand_single (isRead_text s) rfl rfl rfl
  | bool b =>
    cases b with
    | false => exact isOperand_name (by decide +kernel) rfl
    | true => exact isOperand_name (by decide +kernel) rfl
  | null => exact isOperand_name (by decide +kernel) rfl
  | undefined => exact isOperand_name (by decide +kernel) rfl
  | ident name => exact isOperand_variable h
  | _ => cases hatom

theorem isOperand_grouped {e : Expr} (h : e.IsPrintable) (hphrase : IsPhrase e.lexemes) :
    IsOperand e.operand := by
  unfold Expr.operand grouped
  cases hatom : e.isAtom with
  | true => exact isOperand_atom h hatom
  | false => exact hphrase.parens

theorem isPhrase_items {es : List Expr} (h : ∀ e ∈ es, IsOperand e.operand) :
    IsPhrase (commas (itemLexemes es)) := by
  rw [itemLexemes_eq]
  exact isPhrase_commas (List.forall_mem_map.mpr fun e he => (h e he).isPhrase)

theorem isPhrase_entries {entries : List (String × Expr)}
    (h : ∀ e ∈ entries.map Prod.snd, IsOperand e.operand) :
    IsPhrase (commas (entryLexemes entries)) := by
  rw [entryLexemes_eq]
  refine isPhrase_commas (List.forall_mem_map.mpr fun x hx => ?_)
  exact .cons (isRead_text _) rfl rfl (.cons (isRead_punct .colon) rfl rfl
    (h _ (List.mem_map_of_mem hx)).isPhrase)

/-- A guard in front of a link. -/
theorem isPhrase_guard (guarded : Bool) :
    IsPhrase (if guarded then [.punct .optionalDot] else []) := by
  split
  · exact .cons (isRead_punct .optionalDot) rfl rfl isPhrase_nil
  · exact isPhrase_nil

theorem isRead_unary (op : UnaryOp) : op.lexeme.IsRead := by
  cases op with
  | kindOf => exact isRead_name (by decide +kernel)
  | _ => exact isRead_punct _

theorem isRead_holes {parts : List String} {es : List Expr} (hlength : parts.length = es.length + 1)
    (h : ∀ e ∈ es, IsOperand e.operand) : (Lexeme.template parts (holesOf es)).IsRead := by
  rw [holesOf_eq]
  refine isRead_template (by rwa [List.length_map]) (List.forall_mem_map.mpr fun e he => ⟨rfl, ?_⟩)
  rw [String.toList_ofList]
  exact (h e he).passes

/-- The tokens of an expression are a phrase. -/
theorem isPhrase_lexemes {e : Expr} (h : e.IsPrintable) : IsPhrase e.lexemes := by
  refine Expr.IsPrintable.induction (P := fun e => IsPhrase e.lexemes)
    (fun e he hchildren => ?_) h
  have hoperand : ∀ d ∈ e.children, IsOperand d.operand := fun d hd =>
    isOperand_grouped (he.children d hd) (hchildren d hd)
  cases e with
  | array items =>
    rw [Expr.lexemes]
    exact (isPhrase_items hoperand).brackets.isPhrase
  | object entries =>
    rw [Expr.lexemes]
    exact (isPhrase_entries hoperand).braces
  | unary op operand =>
    rw [Expr.lexemes]
    exact .cons (isRead_unary op) (by cases op <;> rfl) (by cases op <;> rfl)
      (hoperand operand (.head _)).isPhrase
  | binary op left right =>
    rw [Expr.lexemes]
    exact (hoperand left (.head _)).append_punct (by cases op <;> rfl)
      (hoperand right (.tail _ (.head _))).isPhrase
  | logical op left right =>
    rw [Expr.lexemes]
    exact (hoperand left (.head _)).append_punct (by cases op <;> rfl)
      (hoperand right (.tail _ (.head _))).isPhrase
  | cond test yes no =>
    rw [Expr.lexemes]
    exact (hoperand test (.head _)).append_punct rfl
      ((hoperand yes (.tail _ (.head _))).append_punct rfl
        (hoperand no (.tail _ (.tail _ (.head _)))).isPhrase)
  | assign name op value =>
    rw [Expr.lexemes]
    have hbrace : (Lexeme.punct (assignmentPunct op)).isBrace = false := by
      unfold assignmentPunct
      split <;> rfl
    exact (isOperand_variable he.1).append_punct hbrace (hoperand value (.head _)).isPhrase
  | update name increment before =>
    rw [Expr.lexemes]
    have hname : IsPhrase [.name name] := (isOperand_variable he).isPhrase
    have hsign : (Lexeme.punct (if increment then .plusPlus else .minusMinus)).IsRead :=
      isRead_punct _
    cases increment <;> cases before
    · exact hname.append (.cons hsign rfl rfl isPhrase_nil)
    · exact .cons hsign rfl rfl hname
    · exact hname.append (.cons hsign rfl rfl isPhrase_nil)
    · exact .cons hsign rfl rfl hname
  | member target property guarded =>
    rw [Expr.lexemes]
    exact (hoperand target (.head _)).append_punct (by cases guarded <;> rfl)
      (.cons (isRead_name he.2) rfl rfl isPhrase_nil)
  | index target key guarded =>
    rw [Expr.lexemes]
    exact ((hoperand target (.head _)).isPhrase.append (isPhrase_guard guarded)).append
      (hoperand key (.tail _ (.head _))).isPhrase.brackets.isPhrase
  | call callee args guarded =>
    rw [Expr.lexemes]
    exact ((hoperand callee (.head _)).isPhrase.append (isPhrase_guard guarded)).append
      (isPhrase_items fun d hd => hoperand d (.tail _ hd)).parens.isPhrase
  | template parts holes =>
    rw [Expr.lexemes]
    have hlength : parts.length = holes.length + 1 := he.1
    exact .cons (isRead_holes hlength hoperand) rfl rfl isPhrase_nil
  | function f =>
    obtain ⟨name, params, body⟩ := f
    cases body with
    | expr e =>
      rw [Expr.lexemes, Function.lexemes, Body.lexemes]
      have hparams : IsPhrase (commas (paramLexemes params)) :=
        isPhrase_commas (List.forall_mem_map.mpr fun name hname =>
          (isOperand_variable (he.2.1 name hname)).isPhrase)
      have hbody := IsPhrase.cons (isRead_punct .arrow) rfl rfl (hoperand e (.head _)).isPhrase
      have hphrase := hparams.parens.isPhrase.append hbody
      -- the parentheses and the arrow belong to one list in the end
      rwa [List.cons_append, List.append_assoc] at hphrase
    | block => exact he.2.2.elim
  | pattern => exact he.elim
  | _ => exact (isOperand_atom he rfl).isPhrase

theorem isOperand_operand {e : Expr} (h : e.IsPrintable) : IsOperand e.operand :=
  isOperand_grouped h (isPhrase_lexemes h)

/-- The text of an expression is read as its tokens. -/
theorem tokenize_print {e : Expr} (h : e.IsPrintable) : ∃ ts, tokenize (print e) = .ok ts ∧
    ts.map (fun t => t.lexeme.unplaced) = e.lexemes ++ [.finish] :=
  let ⟨_, h⟩ := isPhrase_lexemes h false 0
  tokenize_joined h

theorem tokenize_hole {e : Expr} (h : e.IsPrintable) :
    ∃ ts, tokenize (.ofList (joined e.operand)) = .ok ts ∧
      ts.map (fun t => t.lexeme.unplaced) = e.operand ++ [.finish] :=
  tokenize_joined (isOperand_operand h false 0)

/-! ## 5. How expressions start -/

theorem operand_of_isAtom {e : Expr} (h : e.isAtom = true) : e.operand = e.lexemes := if_pos h

theorem operand_of_not {e : Expr} (h : e.isAtom = false) :
    e.operand = .punct .parenOpen :: (e.lexemes ++ [.punct .parenClose]) :=
  if_neg (by rw [h]; exact Bool.false_ne_true)

/-- Tokens that are operands by themselves. -/
def Lexeme.isAtom : Lexeme → Bool
  | .number _ | .text _ => true
  | .name word => word != "typeof"
  | _ => false

theorem lexemes_of_isAtom {e : Expr} (h : e.IsPrintable) (hatom : e.isAtom = true) :
    ∃ l, e.lexemes = [l] ∧ l.isAtom = true := by
  cases e with
  | number x => exact ⟨_, rfl, rfl⟩
  | text s => exact ⟨_, rfl, rfl⟩
  | bool b => exact ⟨_, rfl, by cases b <;> rfl⟩
  | null => exact ⟨_, rfl, rfl⟩
  | undefined => exact ⟨_, rfl, rfl⟩
  | ident name =>
    refine ⟨_, rfl, bne_iff_ne.mpr fun hname => ?_⟩
    have hreserved := h.2
    rw [hname] at hreserved
    cases hreserved
  | _ => cases hatom

/-- An operand starts with a token that is one, or with a parenthesis. -/
theorem operand_start {e : Expr} (h : e.IsPrintable) :
    ∃ l ls, e.operand = l :: ls ∧ (l.isAtom = true ∨ l = .punct .parenOpen) := by
  cases hatom : e.isAtom with
  | true =>
    obtain ⟨l, hl, hsimple⟩ := lexemes_of_isAtom h hatom
    exact ⟨l, [], by rw [operand_of_isAtom hatom, hl], .inl hsimple⟩
  | false => exact ⟨_, _, operand_of_not hatom, .inr rfl⟩

def Expr.isFunction : Expr → Bool
  | .function _ => true
  | _ => false

/-- Punctuation that may stand behind a parameter of a function. -/
def Punct.endsParam : Punct → Bool
  | .comma | .parenClose | .arrow => true
  | _ => false

/-- What starts so holds no parameter. -/
def isNoParam : List Lexeme → Bool
  | .name _ :: .punct p :: _ => !p.endsParam
  | .name _ :: _ :: _ => true
  | .punct p :: _ => p != .parenOpen && p != .parenClose
  | .name _ :: [] | [] => false
  | _ => true

theorem guard_start (guarded : Bool) {q : Punct} (hq : q.endsParam = false) (ls : List Lexeme) :
    ∃ p ls', Punct.endsParam p = false ∧
      (if guarded then [.punct .optionalDot] else []) ++ .punct q :: ls = .punct p :: ls' := by
  cases guarded with
  | true => exact ⟨.optionalDot, .punct q :: ls, rfl, rfl⟩
  | false => exact ⟨q, ls, hq, rfl⟩

/-- An expression that is neither one token nor a function starts with an operand, or with what is
no parameter. -/
theorem lexemes_start {e : Expr} (h : e.IsPrintable) (hatom : e.isAtom = false)
    (hfunction : e.isFunction = false) :
    (∃ (d : Expr) (p : Punct) (ls : List Lexeme), d.IsPrintable ∧ p.endsParam = false ∧
      e.lexemes = d.operand ++ .punct p :: ls) ∨
      isNoParam e.lexemes = true := by
  cases e with
  | unary op operand =>
    refine .inr ?_
    rw [Expr.lexemes]
    cases op with
    -- the operator is a word, and an operand stands behind it
    | kindOf =>
      have hoperand : operand.IsPrintable := h
      obtain ⟨l, ls, hl, hfirst⟩ := operand_start hoperand
      show isNoParam (.name "typeof" :: operand.operand) = true
      rw [hl]
      rcases hfirst with hatom | rfl
      · cases l with
        | punct => cases hatom
        | _ => rfl
      · rfl
    | _ => rfl
  | binary op left right =>
    refine .inl ⟨left, op.punct, right.operand, h.1, by cases op <;> rfl, ?_⟩
    rw [Expr.lexemes]
    rfl
  | logical op left right =>
    refine .inl ⟨left, op.punct, right.operand, h.1, by cases op <;> rfl, ?_⟩
    rw [Expr.lexemes]
    rfl
  | cond test yes no =>
    refine .inl ⟨test, .question, yes.operand ++ .punct .colon :: no.operand, h.1, rfl, ?_⟩
    rw [Expr.lexemes]
    rfl
  | assign name op value =>
    refine .inl ⟨.ident name, assignmentPunct op, value.operand, h.1, ?_, ?_⟩
    · unfold assignmentPunct
      split <;> rfl
    · rw [Expr.lexemes]
      rfl
  | update name increment before =>
    cases before with
    | true => cases increment <;> exact .inr rfl
    | false => exact .inl ⟨.ident name, _, [], h, by cases increment <;> rfl, rfl⟩
  | member target property guarded =>
    refine .inl ⟨target, _, [.name property], h.1, ?_, by rw [Expr.lexemes]; rfl⟩
    cases guarded <;> rfl
  | index target key guarded =>
    obtain ⟨p, ls, hp, hls⟩ := guard_start guarded (q := .bracketOpen) rfl
      (key.operand ++ [.punct .bracketClose])
    refine .inl ⟨target, p, ls, h.1, hp, ?_⟩
    rw [Expr.lexemes, List.append_assoc, ← hls]
    rfl
  | call callee args guarded =>
    obtain ⟨p, ls, hp, hls⟩ := guard_start guarded (q := .parenOpen) rfl
      (commas (itemLexemes args) ++ [.punct .parenClose])
    refine .inl ⟨callee, p, ls, h.1, hp, ?_⟩
    rw [Expr.lexemes, List.append_assoc, ← hls]
    rfl
  | function => cases hfunction
  | pattern => exact h.elim
  | array | object | template => exact .inr rfl
  | _ => cases hatom

end TraceViewer.Snippet
