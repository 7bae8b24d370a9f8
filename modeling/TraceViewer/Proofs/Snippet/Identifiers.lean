import TraceViewer.Proofs.Snippet.Moving
import TraceViewer.Proofs.Snippet.Printing

/-!
# The names in a syntax tree are identifiers

A name gets into a tree from a token that the reader has looked at: it is a word and not reserved.
The one exception is an entry of an object that has a key and no value.  It stands for the variable
of that name, and the key may be a reserved word, a text or a number as well
(`Tree.IsReadFrom.identifiers`).
-/

namespace TraceViewer.Snippet

/-! ## 1. The names of a tree -/

/-- A name where a tree has it: written as such, or as the key of an entry whose value is the
variable of that name.  Such an entry may or may not have been written with a value. -/
inductive NameUse where
  | written (name : String)
  | entry (key : String)
  deriving Repr, DecidableEq

def NameUse.name : NameUse → String
  | .written name => name
  | .entry key => key

mutual

/-- The variables that an expression reads, assigns and updates, with the parameters, the function
names and the declared variables in it. -/
def Expr.uses : Expr → List NameUse
  | .number _ | .text _ | .bool _ | .null | .undefined | .pattern _ => []
  | .ident name => [.written name]
  | .array items => exprsUses items
  | .object entries => entriesUses entries
  | .unary _ operand => operand.uses
  | .binary _ left right | .logical _ left right => left.uses ++ right.uses
  | .cond test yes no => test.uses ++ (yes.uses ++ no.uses)
  | .assign name _ value => [.written name] ++ value.uses
  | .update name _ _ => [.written name]
  | .member object _ _ => object.uses
  | .index object key _ => object.uses ++ key.uses
  | .call callee args _ => callee.uses ++ exprsUses args
  | .template _ holes => exprsUses holes
  | .function f => f.uses

def Function.uses : Function → List NameUse
  | .mk name params body => (name.toList ++ params).map .written ++ body.uses

def Body.uses : Body → List NameUse
  | .expr e => e.uses
  | .block statements => stmtsUses statements

def Stmt.uses : Stmt → List NameUse
  | .declare bindings => bindingsUses bindings
  | .function f => f.uses
  | .cond test yes no => test.uses ++ (yes.uses ++ stmtOptionUses no)
  | .loop test body => test.uses ++ body.uses
  | .countLoop init test update body =>
    stmtOptionUses init ++ (exprOptionUses test ++ (exprOptionUses update ++ body.uses))
  | .eachLoop name items body => [.written name] ++ (items.uses ++ body.uses)
  | .leave | .continue | .empty => []
  | .return value => exprOptionUses value
  | .block body => stmtsUses body
  | .expr e => e.uses

def exprsUses : List Expr → List NameUse
  | [] => []
  | e :: rest => e.uses ++ exprsUses rest

def entriesUses : List (String × Expr) → List NameUse
  | [] => []
  | (key, e) :: rest => (if e.name? = some key then [.entry key] else e.uses) ++ entriesUses rest

def bindingsUses : List (String × Option Expr) → List NameUse
  | [] => []
  | (name, value) :: rest => [.written name] ++ (exprOptionUses value ++ bindingsUses rest)

def stmtsUses : List Stmt → List NameUse
  | [] => []
  | s :: rest => s.uses ++ stmtsUses rest

def exprOptionUses : Option Expr → List NameUse
  | none => []
  | some e => e.uses

def stmtOptionUses : Option Stmt → List NameUse
  | none => []
  | some s => s.uses

end

/-- What a source text is read as. -/
inductive Tree where
  | expr (e : Expr)
  | program (statements : List Stmt)

def Tree.uses : Tree → List NameUse
  | .expr e => e.uses
  | .program statements => stmtsUses statements

def Tree.IsReadFrom (source : String) : Tree → Prop
  | .expr e => readExpr source = .ok e
  | .program statements => readProgram source = .ok statements

/-! ## 2. The tokens of a source -/

/-- The token stands in the source text, or in a substitution of a template there. -/
inductive Lexeme.OccursIn : Lexeme → String → Prop
  | token {source : String} {ts : List Token} {t : Token} (htokens : tokenize source = .ok ts)
      (ht : t ∈ ts) : t.lexeme.OccursIn source
  | hole {source : String} {parts : List String} {holes : List Hole} {h : Hole} {l : Lexeme}
      (htemplate : (Lexeme.template parts holes).OccursIn source) (hh : h ∈ holes)
      (hl : l.OccursIn h.source) : l.OccursIn source

/-- An identifier of the source text that is no reserved word. -/
def IsIdentifierIn (source name : String) : Prop :=
  (Lexeme.name name).OccursIn source ∧ IsVariable name

/-- The key of an entry that a token can be. -/
def Lexeme.key? : Lexeme → Option String
  | .name spelling => some spelling
  | .text value => some value
  | .number value => some (numberText value)
  | _ => none

def IsKeyIn (source key : String) : Prop := ∃ l : Lexeme, l.OccursIn source ∧ l.key? = some key

section Words

variable {p q : Place} {word : String}

theorem isWord_of_readName {c : Char} {rest : List Char} (hp : p.rest = c :: rest)
    (hc : isIdentStart c = true) (h : readName p = (.name word, q)) : IsWord word := by
  have hchar : isIdentChar c = true := isIdentChar_of_isIdentStart hc
  unfold readName at h
  rw [hp, List.takeWhile_cons_of_pos hchar] at h
  obtain ⟨hword, -⟩ := Prod.mk.inj h
  obtain rfl := Lexeme.name.inj hword
  refine ⟨c, rest.takeWhile isIdentChar, String.toList_ofList, hc, fun d hd => ?_⟩
  exact List.mem_takeWhile_imp hd

theorem isWord_of_readLexeme {previous : Option Lexeme} {c : Char} {rest : List Char}
    (hp : p.rest = c :: rest) (h : readLexeme previous p c rest.head? = .ok (.name word, q)) :
    IsWord word := by
  unfold readLexeme at h
  split at h
  · obtain ⟨x, hname⟩ := readNumber_ok h
    cases hname
  split at h
  · split at h <;> grind
  split at h
  · obtain ⟨ps, hs, hname⟩ := readTemplate_ok h
    cases hname
  split at h
  · next hc => exact isWord_of_readName hp hc (Except.ok.inj h)
  split at h
  · unfold readPattern at h
    grind
  · unfold readPunct at h
    grind

theorem isWord_of_tokenize {source : String} {ts : List Token} {t : Token}
    (h : tokenize source = .ok ts) (ht : t ∈ ts) (hname : t.lexeme = .name word) :
    IsWord word := by
  obtain ⟨us, n, rfl, hus⟩ := tokensFrom_startsText h
  obtain ht | ht := List.mem_append.mp ht
  · obtain ⟨_, _, _, _, _, hp, hread⟩ := hus t ht
    rw [hname] at hread
    exact isWord_of_readLexeme hp hread
  · rw [List.mem_singleton.mp ht] at hname
    cases hname

/-- Identifiers are words, wherever they stand. -/
theorem Lexeme.OccursIn.isWord {source : String} (h : (Lexeme.name word).OccursIn source) :
    IsWord word := by
  generalize hl : Lexeme.name word = l at h
  induction h with
  | token htokens ht => exact isWord_of_tokenize htokens ht hl.symm
  | hole _ _ _ _ ih => exact ih hl

end Words

/-! ## 3. Productions that draw names from the source -/

/-- The name comes from the source text as the reader means it to. -/
def NameUse.IsFrom (source : String) : NameUse → Prop
  | .written name => IsIdentifierIn source name
  | .entry key => IsKeyIn source key

def AreFrom (source : String) (us : List NameUse) : Prop := ∀ u ∈ us, u.IsFrom source

/-- All tokens at the cursor stand in the source text. -/
def Cursor.IsIn (source : String) (c : Cursor) : Prop := ∀ t ∈ c.tokens, t.lexeme.OccursIn source

/-- Where the production succeeds on tokens of the source text, it leaves such tokens and gives
something with the property. -/
def Draws {α : Type} (source : String) (p : Production α) (Q : α → Prop) : Prop :=
  ∀ c, c.IsIn source → EndsAt c p fun a c' => c'.IsIn source ∧ Q a

/-- Productions that stay in the source text. -/
abbrev Stays {α : Type} (source : String) (p : Production α) : Prop :=
  Draws source p fun _ => True

variable {source : String}

section Combinators

variable {α β : Type} {p : Production α} {Q : α → Prop} {R : β → Prop}

theorem Draws.pure {a : α} (ha : Q a) : Draws source (pure a) Q := fun _ hc => .pure ⟨hc, ha⟩

theorem Draws.bind {f : α → Production β} (h : Draws source p Q)
    (hf : ∀ a, Q a → Draws source (f a) R) : Draws source (p >>= f) R :=
  fun c hc => (h c hc).bind fun a c' ha => hf a ha.2 c' ha.1

theorem Draws.map {f : α → β} (h : Draws source p Q) (hf : ∀ a, Q a → R (f a)) :
    Draws source (f <$> p) R := by
  rw [← bind_pure_comp]
  exact h.bind fun a ha => .pure (hf a ha)

theorem Draws.ite {b : Prop} [Decidable b] {p' : Production α} (h : b → Draws source p Q)
    (h' : ¬b → Draws source p' Q) : Draws source (if b then p else p') Q := by
  split
  · next hb => exact h hb
  · next hb => exact h' hb

/-- What is seen at the cursor stands in the source text. -/
theorem Draws.get {f : Cursor → Production β}
    (hf : ∀ c, c.IsIn source → Draws source (f c) R) : Draws source (get >>= f) R :=
  fun c hc => .get (hf c hc c hc)

theorem Draws.set {c : Cursor} (hc : c.IsIn source) : Stays source (set c : Production Unit) := by
  rintro _ _ _ _ ⟨⟩
  exact ⟨hc, trivial⟩

theorem Draws.modify {f : Cursor → Cursor} (hf : ∀ c, c.IsIn source → (f c).IsIn source) :
    Stays source (modify f : Production Unit) := by
  rintro c hc _ _ ⟨⟩
  exact ⟨hf c hc, trivial⟩

theorem Fails.draws (h : Fails p) : Draws source p Q := fun _ _ => h.endsAt

end Combinators

theorem AreFrom.append {us vs : List NameUse} (h : AreFrom source us) (g : AreFrom source vs) :
    AreFrom source (us ++ vs) := List.forall_mem_append.mpr ⟨h, g⟩

theorem AreFrom.written {name : String} (h : IsIdentifierIn source name) :
    AreFrom source [.written name] := List.forall_mem_singleton.mpr h

/-- A token at the cursor stands in the source text, if it is not the end that follows when there
are no tokens. -/
theorem Cursor.IsIn.occurs {c : Cursor} (h : c.IsIn source) {l : Lexeme} (hl : c.lexeme = l)
    (hne : l ≠ .finish) : l.OccursIn source := by
  unfold Cursor.lexeme at hl
  split at hl
  · next t rest htokens =>
    rw [← hl]
    exact h t (by rw [htokens]; exact List.mem_cons_self)
  · exact absurd hl.symm hne

theorem Cursor.IsIn.advance {c : Cursor} (h : c.IsIn source) : c.advance.IsIn source := by
  unfold Cursor.advance
  split
  · next t next rest htokens =>
    intro t' ht'
    refine h t' ?_
    rw [htokens]
    exact List.mem_cons_of_mem t ht'
  · exact h

/-- What the reader asks of a word before it takes it as a name. -/
theorem Cursor.IsIn.isIdentifier {c : Cursor} (h : c.IsIn source) {name : String}
    (hname : c.lexeme = .name name) (hreserved : ¬isReserved name = true) :
    IsIdentifierIn source name := by
  have hoccurs := h.occurs hname fun heq => by cases heq
  exact ⟨hoccurs, hoccurs.isWord, Bool.not_eq_true _ |>.mp hreserved⟩

namespace Production

/-! ## 4. Tokens -/

theorem stays_advance : Stays source advance := .modify fun _ hc => hc.advance

theorem stays_eat (p : Punct) : Stays source (eat p) := by
  refine .get fun c _ => .ite (fun _ => ?_) fun _ => .pure trivial
  exact stays_advance.bind fun _ _ => .pure trivial

theorem stays_eatWord (word : String) : Stays source (eatWord word) := by
  refine .get fun c _ => .ite (fun _ => ?_) fun _ => .pure trivial
  exact stays_advance.bind fun _ _ => .pure trivial

theorem stays_expect (p : Punct) : Stays source (expect p) :=
  (stays_eat p).bind fun _ _ => .ite (fun _ => fails_fail.draws) fun _ => .pure trivial

theorem stays_expectEnd : Stays source expectEnd :=
  .get fun _ _ => .ite (fun _ => fails_fail.draws) fun _ => .pure trivial

theorem stays_skipSemicolon : Stays source skipSemicolon :=
  (stays_eat _).bind fun _ _ => .pure trivial

theorem stays_bound : Stays source bound := .get fun _ _ => .pure trivial

theorem stays_descend : Stays source descend :=
  Draws.bind (.modify fun _ hc => hc) fun _ _ =>
    .get fun _ _ => .ite (fun _ => fails_throw.draws) fun _ => .pure trivial

theorem stays_ascend (levels : Nat) : Stays source (ascend levels) := .modify fun _ hc => hc

theorem Draws.nested {α : Type} {p : Production α} {Q : α → Prop} (h : Draws source p Q) :
    Draws source (nested p) Q :=
  stays_descend.bind fun _ _ => h.bind fun _ ha => (stays_ascend 1).bind fun _ _ => .pure ha

theorem draws_bindingName : Draws source bindingName (IsIdentifierIn source) := by
  refine .get fun c hc => ?_
  split
  · next name hname =>
    refine .ite (fun _ => fails_fail.draws) fun hreserved => ?_
    exact stays_advance.bind fun _ _ => .pure (hc.isIdentifier hname hreserved)
  · exact fails_fail.draws

theorem draws_paramsFrom {acc : List String} (hacc : ∀ name ∈ acc, IsIdentifierIn source name)
    (rounds : Nat) :
    Draws source (paramsFrom acc rounds)
      fun names => ∀ name ∈ names, IsIdentifierIn source name := by
  induction rounds generalizing acc with
  | zero => exact fails_stall.draws
  | succ rounds ih =>
    refine draws_bindingName.bind fun name hname => (stays_eat _).bind fun closed _ => ?_
    have hacc : ∀ n ∈ name :: acc, IsIdentifierIn source n := List.forall_mem_cons.mpr ⟨hname, hacc⟩
    split
    · exact .pure (forall_mem_reverse hacc)
    · exact (stays_expect _).bind fun _ _ => ih hacc

theorem draws_params :
    Draws source params fun names => ∀ name ∈ names, IsIdentifierIn source name :=
  (stays_eat _).bind fun _ _ => .ite (fun _ => .pure (List.forall_mem_nil _)) fun _ =>
    stays_bound.bind fun rounds _ => draws_paramsFrom (List.forall_mem_nil _) rounds

theorem draws_arrowParams? : Draws source arrowParams? fun params =>
    ∀ names, params = some names → ∀ name ∈ names, IsIdentifierIn source name := by
  have hnone : Draws source (return none) fun params : Option (List String) =>
      ∀ names, params = some names → ∀ name ∈ names, IsIdentifierIn source name :=
    .pure fun _ h => by cases h
  refine .get fun c hc => ?_
  split
  · next name hname _ =>
    refine .ite (fun _ => hnone) fun hreserved => ?_
    refine stays_advance.bind fun _ _ => stays_advance.bind fun _ _ => .pure ?_
    rintro _ ⟨⟩
    exact List.forall_mem_singleton.mpr (hc.isIdentifier hname hreserved)
  · refine .ite (fun _ => ?_) fun _ => hnone
    refine stays_advance.bind fun _ _ => draws_params.bind fun names hnames =>
      (stays_expect _).bind fun _ _ => .pure ?_
    rintro _ ⟨⟩
    exact hnames
  · exact hnone

theorem draws_entryKey : Draws source entryKey (IsKeyIn source) := by
  refine .get fun c hc => stays_advance.bind fun _ _ => ?_
  -- each kind of key is a token that stands in the source text
  split
  · next heq => exact .pure ⟨_, hc.occurs heq (fun h => by cases h), rfl⟩
  · next heq => exact .pure ⟨_, hc.occurs heq (fun h => by cases h), rfl⟩
  · next heq => exact .pure ⟨_, hc.occurs heq (fun h => by cases h), rfl⟩
  · exact fails_fail.draws

end Production

theorem exprsUses_areFrom {es : List Expr} (h : ∀ e ∈ es, AreFrom source e.uses) :
    AreFrom source (exprsUses es) := by
  induction es with
  | nil => exact List.forall_mem_nil _
  | cons e rest ih =>
    obtain ⟨he, hrest⟩ := List.forall_mem_cons.mp h
    exact he.append (ih hrest)

/-- The key of an entry, whose value is the variable of that name or has names of its own. -/
def EntryIsFrom (source : String) (e : String × Expr) : Prop :=
  IsKeyIn source e.1 ∧ (e.2.name? = some e.1 ∨ AreFrom source e.2.uses)

theorem entriesUses_areFrom {es : List (String × Expr)} (h : ∀ e ∈ es, EntryIsFrom source e) :
    AreFrom source (entriesUses es) := by
  induction es with
  | nil => exact List.forall_mem_nil _
  | cons e rest ih =>
    obtain ⟨⟨hkey, hvalue⟩, hrest⟩ := List.forall_mem_cons.mp h
    refine AreFrom.append ?_ (ih hrest)
    split
    · exact List.forall_mem_singleton.mpr hkey
    · next hne => exact hvalue.resolve_left hne

theorem stmtsUses_areFrom {ss : List Stmt} (h : ∀ s ∈ ss, AreFrom source s.uses) :
    AreFrom source (stmtsUses ss) := by
  induction ss with
  | nil => exact List.forall_mem_nil _
  | cons s rest ih =>
    obtain ⟨hs, hrest⟩ := List.forall_mem_cons.mp h
    exact hs.append (ih hrest)

theorem bindingsUses_areFrom {bs : List (String × Option Expr)}
    (h : ∀ b ∈ bs, IsIdentifierIn source b.1 ∧ AreFrom source (exprOptionUses b.2)) :
    AreFrom source (bindingsUses bs) := by
  induction bs with
  | nil => exact List.forall_mem_nil _
  | cons b rest ih =>
    obtain ⟨⟨hname, hvalue⟩, hrest⟩ := List.forall_mem_cons.mp h
    exact (AreFrom.written hname).append (hvalue.append (ih hrest))

theorem Function.uses_areFrom {name : Option String} {params : List String} {body : Body}
    (hname : ∀ n, name = some n → IsIdentifierIn source n)
    (hparams : ∀ n ∈ params, IsIdentifierIn source n) (hbody : AreFrom source body.uses) :
    AreFrom source (Function.mk name params body).uses := by
  refine AreFrom.append (fun u hu => ?_) hbody
  obtain ⟨n, hn, rfl⟩ := List.mem_map.mp hu
  obtain hn | hn := List.mem_append.mp hn
  · exact hname n (Option.mem_toList.mp hn)
  · exact hparams n hn

/-! ## 5. Productions of one level -/

/-- The productions give trees with names of the source text. -/
structure Production.Level.IsFrom (source : String) (l : Production.Level) : Prop where
  statement : Draws source l.statement fun s => AreFrom source s.uses
  assignment : Draws source l.assignment fun e => AreFrom source e.uses
  unary : Draws source l.unary fun e => AreFrom source e.uses

namespace Production

section Level

variable {inner : Level} (h : inner.IsFrom source)
include h

theorem draws_blockFrom {acc : List Stmt} (hacc : ∀ s ∈ acc, AreFrom source s.uses)
    (rounds : Nat) :
    Draws source (blockFrom inner acc rounds) fun ss => AreFrom source (stmtsUses ss) := by
  induction rounds generalizing acc with
  | zero => exact fails_stall.draws
  | succ rounds ih =>
    refine (stays_eat _).bind fun closed _ => .ite (fun _ => ?_) fun _ => ?_
    · exact .pure (stmtsUses_areFrom (forall_mem_reverse hacc))
    · refine .get fun c _ => .ite (fun _ => fails_fail.draws) fun _ => ?_
      exact h.statement.bind fun s hs => ih (List.forall_mem_cons.mpr ⟨hs, hacc⟩)

theorem draws_block : Draws source (block inner) fun ss => AreFrom source (stmtsUses ss) :=
  (stays_expect _).bind fun _ _ => stays_bound.bind fun rounds _ =>
    draws_blockFrom h (List.forall_mem_nil _) rounds

theorem draws_functionRest (needsName : Bool) :
    Draws source (functionRest inner needsName) fun f => AreFrom source f.uses := by
  let rest (name : Option String) : Production Function := do
    expect .parenOpen
    let params ← params
    return Function.mk name params (.block (← block inner))
  have hrest (name : Option String) (hname : ∀ n, name = some n → IsIdentifierIn source n) :
      Draws source (rest name) fun f => AreFrom source f.uses :=
    (stays_expect _).bind fun _ _ => draws_params.bind fun params hparams =>
      (draws_block h).bind fun ss hss => .pure (Function.uses_areFrom hname hparams hss)
  have hname (isNamed : Bool) :
      Draws source (if isNamed = true then (some <$> bindingName) >>= rest else rest none)
        fun f => AreFrom source f.uses := by
    split
    · refine Draws.bind (draws_bindingName.map fun name hname => ?_) hrest
      rintro _ ⟨⟩
      exact hname
    · exact hrest none fun _ h => by cases h
  exact .get fun c _ => hname _

theorem draws_argumentsFrom {acc : List Expr} (hacc : ∀ e ∈ acc, AreFrom source e.uses)
    (rounds : Nat) :
    Draws source (argumentsFrom inner acc rounds) fun es => AreFrom source (exprsUses es) := by
  induction rounds generalizing acc with
  | zero => exact fails_stall.draws
  | succ rounds ih =>
    refine h.assignment.bind fun e he => (stays_eat _).bind fun closed _ => ?_
    have hacc : ∀ b ∈ e :: acc, AreFrom source b.uses := List.forall_mem_cons.mpr ⟨he, hacc⟩
    split
    · exact .pure (exprsUses_areFrom (forall_mem_reverse hacc))
    · exact (stays_expect _).bind fun _ _ => ih hacc

theorem draws_arguments :
    Draws source (arguments inner) fun es => AreFrom source (exprsUses es) :=
  (stays_eat _).bind fun _ _ => .ite (fun _ => .pure (List.forall_mem_nil _)) fun _ =>
    stays_bound.bind fun rounds _ => draws_argumentsFrom h (List.forall_mem_nil _) rounds

theorem draws_itemsFrom {acc : List Expr} (hacc : ∀ e ∈ acc, AreFrom source e.uses)
    (rounds : Nat) :
    Draws source (itemsFrom inner acc rounds) fun es => AreFrom source (exprsUses es) := by
  induction rounds generalizing acc with
  | zero => exact fails_stall.draws
  | succ rounds ih =>
    refine (stays_eat _).bind fun closed _ => ?_
    split
    · exact .pure (exprsUses_areFrom (forall_mem_reverse hacc))
    · refine h.assignment.bind fun e he => .get fun c _ => ?_
      have hacc : ∀ b ∈ e :: acc, AreFrom source b.uses := List.forall_mem_cons.mpr ⟨he, hacc⟩
      split
      · exact (stays_expect _).bind fun _ _ => ih hacc
      · exact ih hacc

/-- A key without a value is not looked at before it gives the variable of that name. -/
theorem draws_entriesFrom {acc : List (String × Expr)} (hacc : ∀ e ∈ acc, EntryIsFrom source e)
    (rounds : Nat) :
    Draws source (entriesFrom inner acc rounds) fun es => AreFrom source (entriesUses es) := by
  induction rounds generalizing acc with
  | zero => exact fails_stall.draws
  | succ rounds ih =>
    refine (stays_eat _).bind fun closed _ => ?_
    split
    · exact .pure (entriesUses_areFrom (forall_mem_reverse hacc))
    · refine draws_entryKey.bind fun key hkey => (stays_eat _).bind fun colon _ => ?_
      have hrest (value : Expr) (hv : value.name? = some key ∨ AreFrom source value.uses) :
          Draws source (do
            if !(← get).atPunct .braceClose then expect .comma
            entriesFrom inner ((key, value) :: acc) rounds)
            fun es => AreFrom source (entriesUses es) := by
        have hacc : ∀ e ∈ (key, value) :: acc, EntryIsFrom source e :=
          List.forall_mem_cons.mpr ⟨⟨hkey, hv⟩, hacc⟩
        refine .get fun c _ => ?_
        split
        · exact (stays_expect _).bind fun _ _ => ih hacc
        · exact ih hacc
      split
      · exact h.assignment.bind fun value hv => hrest value (.inr hv)
      · exact hrest (.ident key) (.inl rfl)

/-- The tokens of a hole stand in the source text of the template. -/
theorem draws_hole {hole : Hole}
    (hhole : ∀ l : Lexeme, l.OccursIn hole.source → l.OccursIn source) :
    Draws source (Production.hole inner hole) fun e => AreFrom source e.uses := by
  unfold Production.hole
  split
  · exact fails_throw.draws
  next tokens htokens =>
  have hinside (t : Token) (ht : t ∈ tokens.map (Token.shifted hole.offset)) :
      t.lexeme.OccursIn source := by
    obtain ⟨t', ht', rfl⟩ := List.mem_map.mp ht
    exact hhole t'.lexeme (.token htokens ht')
  exact .get fun outer houter => Draws.bind (.set hinside) fun _ _ =>
    h.assignment.bind fun e he => stays_expectEnd.bind fun _ _ =>
      Draws.bind (.modify fun _ _ => houter) fun _ _ => .pure he

theorem draws_holes {hs : List Hole}
    (hholes : ∀ hole ∈ hs, ∀ l : Lexeme, l.OccursIn hole.source → l.OccursIn source) :
    Draws source (holes inner hs) fun es => AreFrom source (exprsUses es) := by
  induction hs with
  | nil => exact .pure (List.forall_mem_nil _)
  | cons hole rest ih =>
    obtain ⟨hhole, hrest⟩ := List.forall_mem_cons.mp hholes
    refine (draws_hole h hhole).bind fun e he => (ih hrest).bind fun es hes => .pure ?_
    exact he.append hes

omit h in
theorem draws_pattern (offset : Nat) (body flags : String) :
    Draws source (pattern offset body flags) fun e => AreFrom source e.uses := by
  unfold pattern
  split
  · exact fails_throw.draws
  · exact .get fun c _ => Draws.bind (.modify fun _ hc => hc) fun _ _ =>
      .pure (List.forall_mem_nil _)

theorem draws_primary : Draws source (primary inner) fun e => AreFrom source e.uses := by
  refine .get fun start hstart => stays_advance.bind fun _ _ => ?_
  have hleaf {e : Expr} (he : e.uses = []) :
      Draws source (return e) fun e => AreFrom source e.uses := .pure (he ▸ List.forall_mem_nil _)
  -- one case for each kind of token; words among them split once more
  split
  · exact hleaf rfl
  · exact hleaf rfl
  · exact draws_pattern _ _ _
  · next word hword =>
    refine .ite (fun _ => hleaf rfl) fun _ => .ite (fun _ => hleaf rfl) fun _ =>
      .ite (fun _ => hleaf rfl) fun _ => .ite (fun _ => hleaf rfl) fun _ => ?_
    refine .ite (fun _ => ?_) fun _ => .ite (fun _ => fails_throw.draws) fun hreserved => ?_
    · exact (draws_functionRest h false).bind fun f hf => .pure hf
    · exact .pure (.written (hstart.isIdentifier hword hreserved))
  · next parts hs htemplate =>
    have hoccurs := hstart.occurs htemplate fun h => by cases h
    exact (draws_holes h fun hole hhole l hl => .hole hoccurs hhole hl).bind fun es hes => .pure hes
  · exact h.assignment.bind fun e he => (stays_expect _).bind fun _ _ => .pure he
  · exact stays_bound.bind fun rounds _ =>
      (draws_itemsFrom h (List.forall_mem_nil _) rounds).bind fun es hes => .pure hes
  · exact stays_bound.bind fun rounds _ =>
      (draws_entriesFrom h (List.forall_mem_nil _) rounds).bind fun es hes => .pure hes
  · exact fails_throw.draws

theorem draws_linksFrom {links : Nat} {head : Expr} (hhead : AreFrom source head.uses)
    (rounds : Nat) :
    Draws source (linksFrom inner links head rounds) fun e => AreFrom source e.uses := by
  induction rounds generalizing links head with
  | zero => exact fails_stall.draws
  | succ rounds ih =>
    refine (stays_eat _).bind fun guarded _ => (stays_eat _).bind fun isIndex _ => ?_
    split
    · refine stays_descend.bind fun _ _ => h.assignment.bind fun key hkey =>
        (stays_expect _).bind fun _ _ => ih ?_
      exact hhead.append hkey
    refine (stays_eat _).bind fun isCall _ => ?_
    split
    · refine stays_descend.bind fun _ _ => (draws_arguments h).bind fun args hargs => ih ?_
      exact hhead.append hargs
    -- the property of a member is no name of a variable
    have hmember (isMember : Bool) :
        Draws source (memberLink inner links head guarded rounds isMember)
          fun e => AreFrom source e.uses := by
      unfold memberLink
      split
      · refine stays_descend.bind fun _ _ => .get fun c _ => stays_advance.bind fun _ _ => ?_
        split
        · exact ih hhead
        · exact fails_fail.draws
      · exact (stays_ascend links).bind fun _ _ => .pure hhead
    split
    · exact hmember true
    · exact (stays_eat _).bind fun isMember _ => hmember isMember

omit h in
/-- A variable that was read is an identifier, and it stays one where it is assigned or updated. -/
theorem isIdentifier_of_ident {name : String} (h : AreFrom source (Expr.ident name).uses) :
    IsIdentifierIn source name := h (.written name) List.mem_cons_self

omit h in
theorem areFrom_update {name : String} (h : AreFrom source (Expr.ident name).uses)
    (increment before : Bool) : AreFrom source (Expr.update name increment before).uses :=
  .written (isIdentifier_of_ident h)

theorem draws_postfixed : Draws source (postfixed inner) fun e => AreFrom source e.uses := by
  refine (draws_primary h).bind fun head hhead => stays_bound.bind fun rounds _ =>
    (draws_linksFrom h hhead rounds).bind fun e he => .get fun c _ => ?_
  split
  · split
    · exact stays_advance.bind fun _ _ => .pure (areFrom_update he _ _)
    · exact fails_fail.draws
  · exact .pure he

theorem draws_unaryLevel : Draws source (unaryLevel inner) fun e => AreFrom source e.uses := by
  refine .get fun c _ => ?_
  split
  · refine stays_advance.bind fun _ _ => h.unary.bind fun e he => ?_
    split
    · exact .pure (areFrom_update he _ _)
    · exact fails_fail.draws
  · split
    · exact stays_advance.bind fun _ _ => h.unary.bind fun e he => .pure he
    · exact draws_postfixed h

omit h in
theorem draws_operatorsFrom {α : Type} {op? : Punct → Option α} {join : α → Expr → Expr → Expr}
    (hjoin : ∀ op a b, (join op a b).uses = a.uses ++ b.uses) {operand : Production Expr}
    (hoperand : Draws source operand fun e => AreFrom source e.uses) {links : Nat} {left : Expr}
    (hleft : AreFrom source left.uses) (rounds : Nat) :
    Draws source (operatorsFrom op? join operand links left rounds)
      fun e => AreFrom source e.uses := by
  induction rounds generalizing links left with
  | zero => exact fails_stall.draws
  | succ rounds ih =>
    refine .get fun c _ => ?_
    dsimp only
    split
    · exact (stays_ascend links).bind fun _ _ => .pure hleft
    · refine stays_advance.bind fun _ _ => stays_descend.bind fun _ _ =>
        hoperand.bind fun right hright => ih ?_
      rw [hjoin]
      exact hleft.append hright

omit h in
theorem draws_operators {α : Type} (op? : Punct → Option α) {join : α → Expr → Expr → Expr}
    (hjoin : ∀ op a b, (join op a b).uses = a.uses ++ b.uses) {operand : Production Expr}
    (hoperand : Draws source operand fun e => AreFrom source e.uses) :
    Draws source (operators op? join operand) fun e => AreFrom source e.uses :=
  hoperand.bind fun _ hleft => stays_bound.bind fun rounds _ =>
    draws_operatorsFrom hjoin hoperand hleft rounds

theorem draws_disjunction : Draws source (disjunction inner) fun e => AreFrom source e.uses := by
  have hbinary (op : BinaryOp) (a b : Expr) : (Expr.binary op a b).uses = a.uses ++ b.uses :=
    rfl
  have hlogical (op : LogicalOp) (a b : Expr) : (Expr.logical op a b).uses = a.uses ++ b.uses :=
    rfl
  have hmultiplicative := draws_operators multiplicativeOp? hbinary h.unary
  have hadditive := draws_operators additiveOp? hbinary hmultiplicative
  have hrelational := draws_operators relationalOp? hbinary hadditive
  have hequality := draws_operators equalityOp? hbinary hrelational
  have hconjunction := draws_operators andOp? hlogical hequality
  exact draws_operators orOp? hlogical hconjunction

theorem draws_conditional : Draws source (conditional inner) fun e => AreFrom source e.uses := by
  refine (draws_disjunction h).bind fun test htest => (stays_eat _).bind fun isCond _ => ?_
  split
  · refine h.assignment.bind fun yes hyes => (stays_expect _).bind fun _ _ =>
      h.assignment.bind fun no hno => .pure ?_
    exact htest.append (hyes.append hno)
  · exact .pure htest

theorem draws_assignmentLevel :
    Draws source (assignmentLevel inner) fun e => AreFrom source e.uses := by
  refine draws_arrowParams?.bind fun params hparams => ?_
  split
  · next names =>
    have hfunction (body : Body) (hbody : AreFrom source body.uses) :
        AreFrom source (Expr.function (.mk none names body)).uses :=
      Function.uses_areFrom (fun _ h => by cases h) (hparams names rfl) hbody
    refine .get fun c _ => ?_
    split
    · exact Draws.bind ((draws_block h).map fun _ hss => hss) fun body hbody =>
        .pure (hfunction body hbody)
    · exact Draws.bind (h.assignment.map fun _ he => he) fun body hbody =>
        .pure (hfunction body hbody)
  · refine (draws_conditional h).bind fun target htarget => .get fun c _ => ?_
    dsimp only
    split
    · exact .pure htarget
    · split
      · refine stays_advance.bind fun _ _ => h.assignment.bind fun e he => .pure ?_
        exact (AreFrom.written (isIdentifier_of_ident htarget)).append he
      · exact fails_fail.draws

/-! ## 6. Statements -/

theorem draws_bindingsFrom {acc : List (String × Option Expr)}
    (hacc : ∀ b ∈ acc, IsIdentifierIn source b.1 ∧ AreFrom source (exprOptionUses b.2))
    (rounds : Nat) :
    Draws source (bindingsFrom inner acc rounds) fun bs => AreFrom source (bindingsUses bs) := by
  induction rounds generalizing acc with
  | zero => exact fails_stall.draws
  | succ rounds ih =>
    refine draws_bindingName.bind fun name hname => (stays_eat _).bind fun hasValue _ => ?_
    have hrest (value : Option Expr) (hv : AreFrom source (exprOptionUses value)) :
        Draws source (do
          let acc := (name, value) :: acc
          if ← eat .comma then bindingsFrom inner acc rounds else return acc.reverse)
          fun bs => AreFrom source (bindingsUses bs) := by
      have hacc : ∀ b ∈ (name, value) :: acc,
          IsIdentifierIn source b.1 ∧ AreFrom source (exprOptionUses b.2) :=
        List.forall_mem_cons.mpr ⟨⟨hname, hv⟩, hacc⟩
      refine (stays_eat _).bind fun more _ => ?_
      split
      · exact ih hacc
      · exact .pure (bindingsUses_areFrom (forall_mem_reverse hacc))
    split
    · exact Draws.bind (h.assignment.map fun _ he => he) hrest
    · exact hrest none (List.forall_mem_nil _)

theorem draws_declaration : Draws source (declaration inner) fun s => AreFrom source s.uses :=
  stays_bound.bind fun rounds _ =>
    (draws_bindingsFrom h (List.forall_mem_nil _) rounds).bind fun _ hbs => .pure hbs

theorem draws_unlessAt (p : Punct) :
    Draws source (unlessAt inner p) fun e => AreFrom source (exprOptionUses e) :=
  .get fun _ _ => .ite (fun _ => .pure (List.forall_mem_nil _)) fun _ =>
    h.assignment.map fun _ he => he

theorem draws_loopInit :
    Draws source (loopInit inner) fun s => AreFrom source (stmtOptionUses s) := by
  refine .get fun c _ => .ite (fun _ => .pure (List.forall_mem_nil _)) fun _ =>
    .ite (fun _ => ?_) fun _ => ?_
  · exact stays_advance.bind fun _ _ => (draws_declaration h).map fun _ hs => hs
  · exact h.assignment.bind fun e he => .pure he

theorem draws_forStatement : Draws source (forStatement inner) fun s => AreFrom source s.uses := by
  refine (stays_expect _).bind fun _ _ => .get fun c _ => .ite (fun _ => ?_) fun _ => ?_
  · refine stays_advance.bind fun _ _ => draws_bindingName.bind fun name hname =>
      stays_advance.bind fun _ _ => h.assignment.bind fun items hitems =>
        (stays_expect _).bind fun _ _ => h.statement.bind fun body hbody => .pure ?_
    exact (AreFrom.written hname).append (hitems.append hbody)
  · refine (draws_loopInit h).bind fun init hinit => (stays_expect _).bind fun _ _ =>
      (draws_unlessAt h _).bind fun test htest => (stays_expect _).bind fun _ _ =>
        (draws_unlessAt h _).bind fun update hupdate => (stays_expect _).bind fun _ _ =>
          h.statement.bind fun body hbody => .pure ?_
    exact hinit.append (htest.append (hupdate.append hbody))

theorem draws_condition : Draws source (condition inner) fun e => AreFrom source e.uses :=
  (stays_expect _).bind fun _ _ => h.assignment.bind fun _ he =>
    (stays_expect _).bind fun _ _ => .pure he

theorem draws_statementLevel :
    Draws source (statementLevel inner) fun s => AreFrom source s.uses := by
  have hleaf {s : Stmt} (hs : s.uses = []) : AreFrom source s.uses := hs ▸ List.forall_mem_nil _
  -- the statements are tried in the order of the reader: one step for each word that starts one
  refine (stays_eat _).bind fun isEmpty _ => .ite (fun _ => .pure (hleaf rfl)) fun _ => ?_
  refine .get fun c _ => .ite (fun _ => ?_) fun _ => ?_
  · exact (draws_block h).bind fun ss hss => .pure hss
  refine (stays_eatWord _).bind fun isFunction _ => .ite (fun _ => ?_) fun _ => ?_
  · exact (draws_functionRest h true).bind fun f hf => .pure hf
  refine .ite (fun _ => ?_) fun _ => ?_
  · exact stays_advance.bind fun _ _ => (draws_declaration h).bind fun s hs =>
      stays_skipSemicolon.bind fun _ _ => .pure hs
  refine (stays_eatWord _).bind fun isCond _ => .ite (fun _ => ?_) fun _ => ?_
  · refine (draws_condition h).bind fun test htest => h.statement.bind fun yes hyes =>
      (stays_eatWord _).bind fun hasElse _ => ?_
    have hcond (no : Option Stmt) (hno : AreFrom source (stmtOptionUses no)) :
        AreFrom source (Stmt.cond test yes no).uses := htest.append (hyes.append hno)
    split
    · exact Draws.bind (h.statement.map fun _ hno => hno) fun no hno => .pure (hcond no hno)
    · exact .pure (hcond none (List.forall_mem_nil _))
  refine (stays_eatWord _).bind fun isLoop _ => .ite (fun _ => ?_) fun _ => ?_
  · refine (draws_condition h).bind fun test htest => h.statement.bind fun body hbody => .pure ?_
    exact htest.append hbody
  refine (stays_eatWord _).bind fun isFor _ => .ite (fun _ => draws_forStatement h) fun _ => ?_
  refine (stays_eatWord _).bind fun isBreak _ => .ite (fun _ => ?_) fun _ => ?_
  · exact stays_skipSemicolon.bind fun _ _ => .pure (hleaf rfl)
  refine (stays_eatWord _).bind fun isContinue _ => .ite (fun _ => ?_) fun _ => ?_
  · exact stays_skipSemicolon.bind fun _ _ => .pure (hleaf rfl)
  refine (stays_eatWord _).bind fun isReturn _ => .ite (fun _ => ?_) fun _ => ?_
  · refine .get fun c _ => ?_
    have hreturn (value : Option Expr) (hv : AreFrom source (exprOptionUses value)) :
        Draws source (do
          skipSemicolon
          return Stmt.return value) fun s => AreFrom source s.uses :=
      stays_skipSemicolon.bind fun _ _ => .pure hv
    split
    · exact hreturn none (List.forall_mem_nil _)
    · exact Draws.bind (h.assignment.map fun _ he => he) hreturn
  · exact h.assignment.bind fun e he => stays_skipSemicolon.bind fun _ _ => .pure he

end Level

/-! ## 7. Whole sources -/

theorem isFrom_level (n : Nat) : (level n).IsFrom source := by
  induction n with
  | zero => exact ⟨.get fun _ _ => fails_throw.draws, .get fun _ _ => fails_throw.draws,
      .get fun _ _ => fails_throw.draws⟩
  | succ n ih => exact ⟨Draws.nested (draws_statementLevel ih),
      Draws.nested (draws_assignmentLevel ih), Draws.nested (draws_unaryLevel ih)⟩

theorem draws_statementsFrom {acc : List Stmt} (hacc : ∀ s ∈ acc, AreFrom source s.uses)
    (rounds : Nat) :
    Draws source (statementsFrom acc rounds) fun ss => AreFrom source (stmtsUses ss) := by
  induction rounds generalizing acc with
  | zero => exact fails_stall.draws
  | succ rounds ih =>
    refine .get fun c _ => .ite (fun _ => ?_) fun _ => ?_
    · exact .pure (stmtsUses_areFrom (forall_mem_reverse hacc))
    · exact (isFrom_level _).statement.bind fun s hs => ih (List.forall_mem_cons.mpr ⟨hs, hacc⟩)

theorem drawn_of_onSource {α : Type} {p : Production α} {Q : α → Prop} (hp : Draws source p Q)
    {a : α} (h : onSource p source = .ok a) : Q a := by
  unfold onSource at h
  split at h
  · cases h
  next tokens htokens =>
  split at h
  · next c ha =>
    cases h
    exact (hp _ (fun t ht => .token htokens ht) _ _ ha).2
  · cases h

end Production

theorem Tree.IsReadFrom.areFrom {tree : Tree} (h : tree.IsReadFrom source) :
    AreFrom source tree.uses := by
  cases tree with
  | expr e =>
    refine Production.drawn_of_onSource (Q := fun e => AreFrom source e.uses) ?_ h
    exact (Production.isFrom_level _).assignment.bind fun e he =>
      Production.stays_skipSemicolon.bind fun _ _ => Production.stays_expectEnd.bind fun _ _ =>
        .pure he
  | program statements =>
    refine Production.drawn_of_onSource (Q := fun ss => AreFrom source (stmtsUses ss)) ?_ h
    exact Production.stays_bound.bind fun rounds _ =>
      Production.draws_statementsFrom (List.forall_mem_nil _) rounds

/-- Every name that is written as such is an identifier of the source text and not reserved.  An
entry that may lack a value has a key of the source text, and all names are identifiers exactly if
the keys of these entries are. -/
theorem Tree.IsReadFrom.identifiers {tree : Tree} (h : tree.IsReadFrom source) :
    (∀ name, .written name ∈ tree.uses → IsIdentifierIn source name) ∧
      (∀ key, .entry key ∈ tree.uses → IsKeyIn source key) ∧
      ((∀ u ∈ tree.uses, IsIdentifierIn source u.name) ↔
        ∀ key, .entry key ∈ tree.uses → IsIdentifierIn source key) := by
  have hfrom := h.areFrom
  refine ⟨fun name hname => hfrom _ hname, fun key hkey => hfrom _ hkey, ?_, ?_⟩
  · exact fun hall key hkey => hall _ hkey
  · intro hentries u hu
    cases u with
    | written name => exact hfrom _ hu
    | entry key => exact hentries key hu

/-- A function with a parameter and a variable, both of them put into an object by their names. -/
def pairSource : String := "function pair(a) \x7b let b = a; return \x7ba, b\x7d \x7d"

def pairUses : List NameUse :=
  [.written "pair", .written "a", .written "b", .written "a", .entry "a", .entry "b"]

theorem Tree.identifiers_pairSource : ∃ tree : Tree, tree.IsReadFrom pairSource ∧
    tree.uses = pairUses ∧ ∀ u ∈ tree.uses, IsIdentifierIn pairSource u.name := by
  have huses : (readProgram pairSource).toOption.map stmtsUses = some pairUses := by
    decide +kernel
  cases hread : readProgram pairSource with
  | error e =>
    rw [hread] at huses
    cases huses
  | ok program =>
    rw [hread] at huses
    have huses : (Tree.program program).uses = pairUses := Option.some.inj huses
    -- the keys are names that the function declares
    have hkeys : ∀ u ∈ pairUses, .written u.name ∈ pairUses := by decide
    have hread : (Tree.program program).IsReadFrom pairSource := hread
    obtain ⟨hwritten, -, hall⟩ := Tree.IsReadFrom.identifiers hread
    refine ⟨.program program, hread, huses, hall.mpr fun key hkey => hwritten key ?_⟩
    rw [huses] at hkey ⊢
    exact hkeys (.entry key) hkey

/-- The reserved word stands for a variable of that name. -/
theorem Tree.not_identifiers_keyword : ¬∀ (source : String) (tree : Tree),
    tree.IsReadFrom source → ∀ u ∈ tree.uses, IsIdentifierIn source u.name := by
  intro hall
  have huses : (readExpr "\x7bif\x7d").toOption.map Expr.uses = some [.entry "if"] := by
    decide +kernel
  cases hread : readExpr "\x7bif\x7d" with
  | error e =>
    rw [hread] at huses
    cases huses
  | ok e =>
    rw [hread] at huses
    have huses : (Tree.expr e).uses = [.entry "if"] := Option.some.inj huses
    obtain ⟨-, -, hreserved⟩ := hall _ (.expr e) hread (.entry "if") (huses ▸ List.mem_cons_self)
    cases hreserved

end TraceViewer.Snippet
