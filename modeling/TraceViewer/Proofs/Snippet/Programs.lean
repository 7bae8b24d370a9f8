import TraceViewer.Proofs.Snippet.Offsets
import TraceViewer.Proofs.Snippet.Opening

/-!
# Expressions read as programs

A text that is an expression is read as a program one level deeper, by the same productions.  What
comes of it depends on the first token alone: the word "function" starts a declaration, which needs
a name, and any other name starts the expression again, as the one statement of the program.
-/

namespace TraceViewer.Snippet

/-! ## 1. Reading one expression -/

/-- The cursor behind a semicolon, if one comes next. -/
def Cursor.pastSemicolon (c : Cursor) : Cursor :=
  if c.atPunct .semicolon = true then c.advance else c

/-- Nothing comes next, or a semicolon and then nothing. -/
def Cursor.AtClose (c : Cursor) : Prop := c.pastSemicolon.lexeme = .finish

theorem Move.Cursors.atClose {M : Move} {k : Nat} {c c' : Cursor} (h : M.Cursors k c c') :
    c'.AtClose ↔ c.AtClose := by
  unfold Cursor.AtClose Cursor.pastSemicolon
  rw [h.atPunct]
  split
  · rw [h.advance.lexeme]
  · rw [h.lexeme]

theorem Cursor.atClose_of_tokens {c c' : Cursor} (h : c'.tokens = c.tokens) :
    c'.AtClose ↔ c.AtClose := by
  have hlexeme := Cursor.lexeme_of_tokens h
  have hadvance := Cursor.lexeme_of_tokens (Cursor.tokens_advance h)
  have hsemicolon : c'.atPunct .semicolon = c.atPunct .semicolon := by
    unfold Cursor.atPunct
    rw [hlexeme]
  unfold Cursor.AtClose Cursor.pastSemicolon
  rw [hsemicolon]
  split
  · rw [hadvance]
  · rw [hlexeme]

namespace Production

variable {source : String} {ts : List Token} {inner : Level} {c c' : Cursor} {e : Expr}

theorem skipSemicolon_apply (c : Cursor) : skipSemicolon c = .ok () c.pastSemicolon := by
  unfold Cursor.pastSemicolon
  split
  · next h =>
    show EStateM.bind (eat .semicolon) (fun _ => pure ()) c = _
    have heat : eat .semicolon c = .ok true c.advance := by
      show (if c.atPunct .semicolon = true then (do
          advance
          return true) else (return false : Production Bool)) c = _
      rw [if_pos h]
      rfl
    unfold EStateM.bind
    rw [heat]
    rfl
  · next h => exact skipSemicolon_of_not (Bool.not_eq_true _ |>.mp h)

theorem endsAt_skipSemicolon (c : Cursor) :
    EndsAt c skipSemicolon fun _ c' => c' = c.pastSemicolon := by
  intro a c' h
  rw [skipSemicolon_apply] at h
  cases h
  rfl

theorem exists_of_readExpr (h : readExpr source = .ok e) : ∃ ts c, tokenize source = .ok ts ∧
    top.assignment ⟨ts, 0, 0⟩ = .ok e c ∧ c.AtClose := by
  unfold readExpr onSource at h
  split at h
  · cases h
  next ts htokens =>
  split at h
  · next a c hrun =>
    cases h
    have hself : EndsAt ⟨ts, 0, 0⟩ top.assignment fun e c => top.assignment ⟨ts, 0, 0⟩ = .ok e c :=
      fun _ _ h => h
    have hends : EndsAt ⟨ts, 0, 0⟩ (do
        let e ← top.assignment
        skipSemicolon
        expectEnd
        return e) fun e _ => ∃ c, top.assignment ⟨ts, 0, 0⟩ = .ok e c ∧ c.AtClose := by
      refine hself.bind fun e c he => (endsAt_skipSemicolon c).bind fun _ c₁ hskip => ?_
      subst hskip
      exact (endsAt_expectEnd _).bind fun _ _ hend => .pure ⟨c, he, hend.1⟩
    obtain ⟨c₁, he, hclose⟩ := hends _ c hrun
    exact ⟨ts, c₁, htokens, he, hclose⟩
  · cases h

theorem readProgram_eq_ok (htokens : tokenize source = .ok ts) {program : List Stmt} :
    readProgram source = .ok program ↔
      ∃ c, statementsFrom [] ts.length ⟨ts, 0, 0⟩ = .ok program c := by
  unfold readProgram onSource
  rw [htokens]
  dsimp only
  have hrun : (do statementsFrom [] (← bound) : Production (List Stmt)).run ⟨ts, 0, 0⟩ =
      statementsFrom [] ts.length ⟨ts, 0, 0⟩ := rfl
  rw [hrun]
  cases statementsFrom [] ts.length ⟨ts, 0, 0⟩ with
  | ok a c => simp
  | error e c => simp

/-! ## 2. The first statement of a program -/

section First

variable {Q : Expr → Cursor → Prop}

/-- The words that statements start with. -/
def statementWords : List String :=
  ["function", "const", "let", "var", "if", "while", "for", "break", "continue", "return"]

/-- Whether a statement that is not an expression may start here. -/
def startsStatement (c : Cursor) : Bool :=
  c.atPunct .semicolon || c.atPunct .braceOpen || statementWords.any c.atWord

theorem atWord_of_not_startsStatement (hc : startsStatement c = false) {w : String}
    (hw : w ∈ statementWords) : c.atWord w = false :=
  Bool.not_eq_true _ |>.mp (List.any_eq_false.mp (Bool.or_eq_false_iff.mp hc).2 w hw)

theorem startsStatement_of_name {word : String} (hc : c.lexeme = .name word)
    (hword : isReserved word = false) : startsStatement c = false := by
  have hreserved : ∀ w ∈ statementWords, isReserved w = true := by decide
  have hpunct (p : Punct) : c.atPunct p = false := by
    unfold Cursor.atPunct
    rw [hc]
  unfold startsStatement
  rw [hpunct, hpunct, Bool.false_or, Bool.false_or, List.any_eq_false]
  intro w hw hat
  unfold Cursor.atWord at hat
  rw [hc] at hat
  obtain rfl : word = w := eq_of_beq hat
  rw [hreserved word hw] at hword
  cases hword

theorem endsAt_unlessWord {α : Type} {w : String} {p q : Production α} {R : α → Cursor → Prop}
    (hc : c.atWord w = false) (h : EndsAt c q R) :
    EndsAt c (eatWord w >>= fun found => if found = true then p else q) R := by
  refine (endsAt_eatWord c w).bind fun found c₁ hfound => ?_
  split at hfound
  · have hat : c.atWord w = true := by
      unfold Cursor.atWord
      rw [hfound.1]
      exact beq_self_eq_true w
    rw [hc] at hat
    cases hat
  · next hnot =>
    rw [if_neg hnot, hfound]
    exact h

/-- Where no other statement starts, an expression does. -/
theorem endsAt_statementLevel (hc : startsStatement c = false)
    (h : EndsAt c inner.assignment Q) : EndsAt c (statementLevel inner) fun s c' =>
      ∃ e c₁, Q e c₁ ∧ s = .expr e ∧ c' = c₁.pastSemicolon := by
  have hother {w : String} (hw : w ∈ statementWords) : c.atWord w = false :=
    atWord_of_not_startsStatement hc hw
  obtain ⟨hsemicolon, hbrace⟩ := Bool.or_eq_false_iff.mp (Bool.or_eq_false_iff.mp hc).1
  have hdeclaration : atDeclaration c = false := by
    unfold atDeclaration
    rw [hother (by decide), hother (by decide), hother (by decide)]
    rfl
  have hexpr : EndsAt c (do
      let e ← inner.assignment
      skipSemicolon
      return Stmt.expr e) fun s c' => ∃ e c₁, Q e c₁ ∧ s = .expr e ∧ c' = c₁.pastSemicolon := by
    refine h.bind fun e c₁ he => (endsAt_skipSemicolon c₁).bind fun _ c₂ hskip => .pure ?_
    exact ⟨e, c₁, he, rfl, hskip⟩
  refine (endsAt_eat c .semicolon).bind fun found c₁ hfound => ?_
  split at hfound
  · have hat : c.atPunct .semicolon = true := by
      unfold Cursor.atPunct
      rw [hfound.1]
      rfl
    rw [hsemicolon] at hat
    cases hat
  next hnot =>
  subst hfound
  rw [if_neg hnot]
  refine .get ?_
  rw [hbrace, if_neg Bool.false_ne_true]
  refine endsAt_unlessWord (hother (by decide)) ?_
  rw [hdeclaration, if_neg Bool.false_ne_true]
  -- none of the words that start the other statements
  refine endsAt_unlessWord (hother (by decide)) ?_
  refine endsAt_unlessWord (hother (by decide)) ?_
  refine endsAt_unlessWord (hother (by decide)) ?_
  refine endsAt_unlessWord (hother (by decide)) ?_
  refine endsAt_unlessWord (hother (by decide)) ?_
  exact endsAt_unlessWord (hother (by decide)) hexpr

end First

/-! ## 3. An expression that starts with a name -/

/-- A text with all its tokens left is at the same place for a run some levels deeper. -/
theorem cursors_deeper {depth deeper k : Nat} (hts : ts ≠ [])
    (hdepth : depth + k = maxSourceNesting) (hle : depth ≤ deeper) :
    (Move.free 0).Cursors k ⟨ts, depth, 0⟩ ⟨ts, deeper, 0⟩ :=
  ⟨(List.map_id ts).symm, hts, fun _ _ => trivial, hdepth, hle⟩

/-- Where the deeper run succeeds the other one does, and they end at the same place. -/
theorem exists_ok_of_follows {α : Type} {M : Move} {k k' : Nat} {Q : α → α → Prop}
    {p p' : Production α} (h : M.Follows k k' Q p p') (hc : M.Cursors k c c') {c₁' : Cursor}
    {a' : α} (ha' : p' c' = .ok a' c₁') : ∃ a c₁, p c = .ok a c₁ ∧ M.Cursors k' c₁ c₁' := by
  have hout := h c c' hc
  rw [ha'] at hout
  generalize p c = r at hout
  cases hout with
  | ok _ hcursors => exact ⟨_, _, rfl, hcursors⟩

theorem endsAt_statementsFrom_end {acc : List Stmt} {rounds : Nat} (hc : c.lexeme = .finish) :
    EndsAt c (statementsFrom acc rounds) fun program _ => program = acc.reverse := by
  cases rounds with
  | zero => exact fails_stall.endsAt
  | succ rounds =>
    refine .get ?_
    have hend : c.atEnd = true := by
      unfold Cursor.atEnd
      rw [hc]
    rw [hend, if_pos rfl]
    exact .pure rfl

/-- An expression where no other statement may start is a program of one statement. -/
theorem eq_expr_of_readProgram {t : Token} {program : List Stmt}
    (htokens : tokenize source = .ok (t :: ts)) (ht : t.lexeme ≠ .finish)
    (hstart : startsStatement ⟨t :: ts, 0, 0⟩ = false) (hexpr : readExpr source = .ok e)
    (hprogram : readProgram source = .ok program) : ∃ e', program = [.expr e'] := by
  obtain ⟨_, c, htokens', hrun, hclose⟩ := exists_of_readExpr hexpr
  obtain rfl := Except.ok.inj (htokens.symm.trans htokens')
  obtain ⟨c', hstatements⟩ := (readProgram_eq_ok htokens).mp hprogram
  let start : Cursor := ⟨t :: ts, 0, 0⟩
  -- the program is read one level deeper than the expression
  have hlevels := (keepsPace_level (n := 129) (k := 128) (by decide) 128).assignment (.free 0) 128
    (Nat.le_refl _)
  have hinner : EndsAt { start with depth := 1 } (level 128).assignment fun _ c₁ => c₁.AtClose := by
    intro e' c₁ he'
    have hdeeper := cursors_deeper (List.cons_ne_nil t ts) (Nat.zero_add 128) (Nat.zero_le 1)
    obtain ⟨_, _, he, hcursors⟩ := exists_ok_of_follows hlevels hdeeper he'
    cases hrun.symm.trans he
    exact hcursors.atClose.mpr hclose
  have hstatement : EndsAt start top.statement fun s c₁ =>
      (∃ e', s = .expr e') ∧ c₁.lexeme = .finish := by
    intro s c₁ hs
    obtain ⟨c₂, ⟨e', c₃, hatClose, rfl, rfl⟩, hsame⟩ :=
      endsAt_nested (c := start) (endsAt_statementLevel hstart hinner) s c₁ hs
    exact ⟨⟨e', rfl⟩, (Cursor.lexeme_of_tokens hsame).trans hatClose⟩
  have hmore : start.atEnd = false := by
    unfold Cursor.atEnd
    split
    · next h => exact absurd h ht
    · rfl
  have hends : EndsAt start (statementsFrom [] (ts.length + 1)) fun program _ =>
      ∃ e', program = [.expr e'] := by
    refine .get ?_
    rw [hmore, if_neg Bool.false_ne_true]
    refine hstatement.bind fun s c₁ hs => ?_
    obtain ⟨⟨e', rfl⟩, hfinish⟩ := hs
    exact fun program c₂ h => ⟨e', endsAt_statementsFrom_end hfinish program c₂ h⟩
  exact hends program c' hstatements

/-! ## 4. A function with its keyword -/

section Keyword

variable {α β : Type} {p : Production α} {f : Function}

theorem bind_of_ok {a : α} {k : α → Production β} (h : p c = .ok a c') : (p >>= k) c = k a c' := by
  show EStateM.bind p k c = _
  unfold EStateM.bind
  rw [h]

theorem eat_of_atPunct {q : Punct} (h : c.atPunct q = true) : eat q c = .ok true c.advance := by
  unfold eat
  rw [get_bind, if_pos h]
  rfl

theorem eat_of_not {q : Punct} (h : c.atPunct q = false) : eat q c = .ok false c := by
  unfold eat
  rw [get_bind, h]
  rfl

theorem eatWord_of_atWord {w : String} (h : c.atWord w = true) :
    eatWord w c = .ok true c.advance := by
  unfold eatWord
  rw [get_bind, if_pos h]
  rfl

theorem nested_of_ok {a : α} (hdepth : c.depth < maxSourceNesting)
    (h : p { c with depth := c.depth + 1 } = .ok a c') :
    nested p c = .ok a { c' with depth := c'.depth - 1 } := by
  unfold nested
  rw [descend_bind, if_neg (by omega), bind_of_ok h]
  rfl

/-- The keyword at the start of a statement is followed by a function with a name. -/
theorem statementLevel_function (hc : c.lexeme = .name "function") :
    statementLevel inner c = (Stmt.function <$> functionRest inner true) c.advance := by
  have hpunct (q : Punct) : c.atPunct q = false := by
    unfold Cursor.atPunct
    rw [hc]
  have hkeyword : c.atWord "function" = true := by
    unfold Cursor.atWord
    rw [hc]
    rfl
  unfold statementLevel
  rw [bind_of_ok (eat_of_not (hpunct _)), if_neg Bool.false_ne_true, get_bind, hpunct,
    if_neg Bool.false_ne_true, bind_of_ok (eatWord_of_atWord hkeyword), if_pos rfl]
  rfl

/-- A function has the name that comes first. -/
theorem endsAt_functionRest (needsName : Bool) (c : Cursor) :
    EndsAt c (functionRest inner needsName) fun f _ =>
      (needsName = false ∧ f.name = none) ∨ ∃ name, c.lexeme = .name name ∧ f.name = some name := by
  let rest (name : Option String) : Production Function := do
    expect .parenOpen
    let params ← params
    return Function.mk name params (.block (← block inner))
  have hrest (name : Option String) (c : Cursor) : EndsAt c (rest name) fun f _ => f.name = name :=
    .second fun _ _ => .second fun params _ => .second fun body _ => .pure rfl
  have hnamed : EndsAt c ((some <$> bindingName) >>= rest) fun f _ =>
      ∃ name, c.lexeme = .name name ∧ f.name = some name := by
    rw [map_eq_pure_bind, bind_assoc]
    refine (endsAt_bindingName c).bind fun name c₁ hname => ?_
    rw [pure_bind]
    exact fun f c' hf => ⟨name, hname.1, hrest _ _ f c' hf⟩
  have hboth (isNamed : Bool) (hneeds : isNamed = false → needsName = false) :
      EndsAt c (if isNamed = true then (some <$> bindingName) >>= rest else rest none) fun f _ =>
        (needsName = false ∧ f.name = none) ∨
          ∃ name, c.lexeme = .name name ∧ f.name = some name := by
    split
    · exact fun f c' hf => .inr (hnamed f c' hf)
    · next hnot =>
      exact fun f c' hf => .inl ⟨hneeds (Bool.not_eq_true _ |>.mp hnot), hrest _ _ f c' hf⟩
  refine .get (hboth _ fun h => ?_)
  split at h
  · cases h
  · exact h

theorem functionRest_of_name {name : String} (hc : c.lexeme = .name name) :
    functionRest inner false c = functionRest inner true c := by
  unfold functionRest
  rw [get_bind, get_bind, hc]

theorem statementLevel_semicolon (hc : c.atPunct .semicolon = true) :
    statementLevel inner c = .ok .empty c.advance := by
  unfold statementLevel
  rw [bind_of_ok (eat_of_atPunct hc), if_pos rfl]
  rfl

theorem endsAt_statementLevel_function (hc : c.lexeme = .name "function") :
    EndsAt c (statementLevel inner) fun _ _ => ∃ name, c.advance.lexeme = .name name := by
  intro s c' hs
  rw [statementLevel_function hc, map_eq_pure_bind] at hs
  have hends : EndsAt c.advance (functionRest inner true >>= fun f => pure (Stmt.function f))
      fun _ _ => ∃ name, c.advance.lexeme = .name name := by
    refine (endsAt_functionRest true _).bind fun f c₂ hf => .pure ?_
    rcases hf with ⟨hfalse, -⟩ | ⟨name, hname, -⟩
    · cases hfalse
    · exact ⟨name, hname⟩
  exact hends s c' hs

/-- The end of a text is behind its other tokens. -/
theorem exists_of_tokenize_cons {t : Token} (h : tokenize source = .ok (t :: ts))
    (ht : t.lexeme ≠ .finish) : ∃ us n, ts = us ++ [⟨.finish, n⟩] := by
  obtain ⟨us, n, hus, -⟩ := tokensFrom_eq_append h
  cases us with
  | nil =>
    obtain ⟨rfl, -⟩ := List.cons.inj hus
    exact absurd rfl ht
  | cons u us => exact ⟨us, n, (List.cons.inj hus).2⟩

/-- In a program a name follows the keyword that it starts with. -/
theorem named_of_readProgram {offset : Nat} {program : List Stmt}
    (htokens : tokenize source = .ok (⟨.name "function", offset⟩ :: ts))
    (hprogram : readProgram source = .ok program) :
    ∃ name n ts', ts = ⟨.name name, n⟩ :: ts' := by
  obtain ⟨c', hstatements⟩ := (readProgram_eq_ok htokens).mp hprogram
  obtain ⟨us, k, hus⟩ := exists_of_tokenize_cons htokens nofun
  let start : Cursor := ⟨⟨.name "function", offset⟩ :: ts, 0, 0⟩
  have hends : EndsAt start (statementsFrom [] (ts.length + 1)) fun _ _ =>
      ∃ name, { start with depth := 1 }.advance.lexeme = .name name := by
    refine .get <| (endsAt_nested (endsAt_statementLevel_function rfl)).bind
      fun _ _ hname _ _ _ => ?_
    obtain ⟨_, hname, -⟩ := hname
    exact hname
  obtain ⟨name, hname⟩ := hends program c' hstatements
  cases ts with
  | nil => simp at hus
  | cons t ts =>
    obtain ⟨l, n⟩ := t
    obtain rfl : l = .name name := hname
    exact ⟨name, n, ts, rfl⟩

theorem statementsFrom_of_finish (hc : c.lexeme = .finish) (acc : List Stmt) (rounds : Nat) :
    statementsFrom acc (rounds + 1) c = .ok acc.reverse c := by
  have hend : c.atEnd = true := by
    unfold Cursor.atEnd
    rw [hc]
  unfold statementsFrom
  rw [get_bind, hend, if_pos rfl]
  rfl

theorem statementsFrom_of_ok {s : Stmt} (hc : c.lexeme ≠ .finish) (hs : top.statement c = .ok s c')
    (acc : List Stmt) (rounds : Nat) :
    statementsFrom acc (rounds + 1) c = statementsFrom (s :: acc) rounds c' := by
  have hend : c.atEnd = false := by
    unfold Cursor.atEnd
    split
    · next h => exact absurd h hc
    · rfl
  rw [statementsFrom, get_bind, hend, if_neg Bool.false_ne_true, bind_of_ok hs]

/-- Behind the last statement there may be a semicolon, which is a statement by itself. -/
theorem statementsFrom_of_atClose (hc : c.AtClose) (hdepth : c.depth < maxSourceNesting)
    (acc : List Stmt) (rounds : Nat) : ∃ c', ∃ n ≤ 1,
      statementsFrom acc (rounds + 2) c = .ok (acc.reverse ++ List.replicate n .empty) c' := by
  unfold Cursor.AtClose Cursor.pastSemicolon at hc
  by_cases hsemicolon : c.atPunct .semicolon = true
  · rw [if_pos hsemicolon] at hc
    have hne : c.lexeme ≠ .finish := by
      rw [lexeme_of_atPunct hsemicolon]
      exact nofun
    obtain ⟨c', hstatement, hfinish⟩ : ∃ c', top.statement c = .ok .empty c' ∧
        c'.lexeme = .finish := by
      refine ⟨_, nested_of_ok hdepth (statementLevel_semicolon hsemicolon), ?_⟩
      rw [Cursor.advance_at]
      exact hc
    refine ⟨c', 1, Nat.le_refl 1, ?_⟩
    rw [statementsFrom_of_ok hne hstatement, statementsFrom_of_finish hfinish, List.reverse_cons]
    rfl
  · rw [if_neg hsemicolon] at hc
    refine ⟨c, 0, Nat.zero_le 1, ?_⟩
    rw [statementsFrom_of_finish hc, List.replicate_zero, List.append_nil]

/-- What stands behind the keyword of a function with a name is read in the same way by a
declaration, which is one level less deep than an expression. -/
theorem functionRest_of_named {f : Function} (hts : ts ≠ []) (hf : f.name ≠ none)
    (hrest : functionRest (level 127) false ⟨ts, 2, 0⟩ = .ok f c) :
    ∃ f' c', functionRest (level 128) true ⟨ts, 1, 0⟩ = .ok f' c' ∧ f'.name ≠ none ∧
      c'.depth = 1 ∧ (c'.AtClose ↔ c.AtClose) := by
  obtain ⟨-, hnone⟩ | ⟨name, hname, -⟩ := endsAt_functionRest false _ f c hrest
  · exact absurd hnone hf
  rw [functionRest_of_name hname] at hrest
  have hlevels := keepsPace_level (n := 128) (k := 127) (by decide) 127
  have hstart := cursors_deeper hts (Nat.add_comm 1 127) (Nat.le_succ 1)
  obtain ⟨f', c', hrest', hcursors⟩ :=
    exists_ok_of_follows (follows_functionRest hlevels true) hstart hrest
  obtain ⟨hfalse, -⟩ | ⟨name', -, hname'⟩ := endsAt_functionRest true _ f' c' hrest'
  · cases hfalse
  have hdepth : c'.depth = 1 := by
    have hsum := hcursors.depth
    have hmax : maxSourceNesting = 128 := rfl
    omega
  refine ⟨f', c', hrest', ?_, hdepth, hcursors.atClose.symm⟩
  rw [hname']
  exact nofun

/-- A function with a name is a program that declares it. -/
theorem readProgram_of_function {offset : Nat} {f : Function}
    (htokens : tokenize source = .ok (⟨.name "function", offset⟩ :: ts))
    (hexpr : readExpr source = .ok (.function f)) (hf : f.name ≠ none) :
    ∃ f', f'.name ≠ none ∧ ∃ n ≤ 1,
      readProgram source = .ok (.function f' :: List.replicate n .empty) := by
  obtain ⟨_, c, htokens', hrun, hclose⟩ := exists_of_readExpr hexpr
  obtain rfl := Except.ok.inj (htokens.symm.trans htokens')
  obtain ⟨us, k, rfl⟩ := exists_of_tokenize_cons htokens nofun
  have hadvance (depth : Nat) :
      Cursor.advance ⟨⟨.name "function", offset⟩ :: (us ++ [⟨.finish, k⟩]), depth, 0⟩ =
        ⟨us ++ [⟨.finish, k⟩], depth, 0⟩ := by
    cases us <;> rfl
  -- the expression is read as the declaration is
  obtain ⟨c₁, hrest, hsame⟩ := functionRest_of_assignment rfl hrun
  rw [show Cursor.advance _ = _ from hadvance 2] at hrest
  have hne : us ++ [⟨.finish, k⟩] ≠ [] := by simp
  obtain ⟨f', c₂, hrest', hname, hdepth, hsameClose⟩ := functionRest_of_named hne hf hrest
  let start : Cursor := ⟨⟨.name "function", offset⟩ :: (us ++ [⟨.finish, k⟩]), 0, 0⟩
  have hlevel : statementLevel (level 128) { start with depth := 1 } = .ok (.function f') c₂ := by
    rw [statementLevel_function rfl, map_eq_pure_bind]
    exact bind_of_ok ((congrArg _ (hadvance 1)).trans hrest')
  have hroom : 0 < maxSourceNesting := by decide
  have hstatement : top.statement start = .ok (.function f') { c₂ with depth := 0 } := by
    have hnested := nested_of_ok (c := start) hroom hlevel
    rwa [hdepth] at hnested
  -- and it ends where the text may end
  have htokens₂ : Cursor.tokens { c₂ with depth := 0 } = c₂.tokens := rfl
  have hclosed : Cursor.AtClose { c₂ with depth := 0 } :=
    (Cursor.atClose_of_tokens htokens₂).mpr
      (hsameClose.mpr ((Cursor.atClose_of_tokens hsame.symm).mpr hclose))
  obtain ⟨hfalse, -⟩ | ⟨_, hfound, -⟩ := endsAt_functionRest true _ f' c₂ hrest'
  · cases hfalse
  cases us with
  | nil => cases hfound
  | cons t us =>
    obtain ⟨c', n, hn, hend⟩ := statementsFrom_of_atClose hclosed hroom [.function f'] us.length
    refine ⟨f', hname, n, hn, (readProgram_eq_ok htokens).mpr ⟨c', ?_⟩⟩
    have hne : start.lexeme ≠ .finish := fun h => by cases h
    have hlength : (Token.mk (.name "function") offset :: (t :: us ++ [⟨.finish, k⟩])).length =
        us.length + 2 + 1 := by
      simp
    rw [hlength, statementsFrom_of_ok hne hstatement, hend]
    rfl

end Keyword

end Production

end TraceViewer.Snippet
