import TraceViewer.Proofs.Snippet.Height

/-!
# Braces of a source text come in pairs

The tokens of an expression that can be read hold a closing brace for each opening one, and none
before it.  Every production takes its tokens from the front, so what it does to the number of open
braces is found by adding up what its parts do.
-/

namespace TraceViewer.Snippet

/-! ## 1. Counting braces -/

/-- The number of open braces after a lexeme, where no brace is closed that was not opened. -/
def Lexeme.bracesAfter (n : Nat) : Lexeme → Option Nat
  | .punct .braceOpen => some (n + 1)
  | .punct .braceClose => if n = 0 then none else some (n - 1)
  | _ => some n

def bracesAfter (n : Nat) (ls : List Lexeme) : Option Nat := ls.foldlM Lexeme.bracesAfter n

/-- The lexemes turn `i` open braces into `j` of them, whatever braces are open around these. -/
def Turns (i j : Nat) (ls : List Lexeme) : Prop := ∀ n, bracesAfter (n + i) ls = some (n + j)

theorem Turns.nil (i : Nat) : Turns i i [] := fun _ => rfl

theorem Turns.append {i j k : Nat} {ls ms : List Lexeme} (h : Turns i j ls) (g : Turns j k ms) :
    Turns i k (ls ++ ms) := by
  intro n
  have hn := h n
  unfold bracesAfter at hn ⊢
  rw [List.foldlM_append, hn]
  exact g n

def Lexeme.isBrace : Lexeme → Bool
  | .punct .braceOpen | .punct .braceClose => true
  | _ => false

theorem turns_open (i : Nat) : Turns i (i + 1) [.punct .braceOpen] := fun _ => rfl

theorem turns_close (i : Nat) : Turns (i + 1) i [.punct .braceClose] := fun _ => rfl

theorem bracesAfter_of_not {l : Lexeme} (h : l.isBrace = false) (n : Nat) :
    l.bracesAfter n = some n := by
  unfold Lexeme.bracesAfter
  split
  · cases h
  · cases h
  · rfl

theorem turns_of_not {l : Lexeme} (h : l.isBrace = false) (i : Nat) : Turns i i [l] := by
  intro n
  show (l.bracesAfter (n + i) >>= fun m => some m) = some (n + i)
  rw [bracesAfter_of_not h]
  rfl

/-! ## 2. What a production takes -/

/-- The last token is the end of the text. -/
def Cursor.Ended (c : Cursor) : Prop := ∃ ts n, c.tokens = ts ++ [⟨.finish, n⟩]

/-- From the cursor on tokens are taken that turn `i` open braces into `j`. -/
structure Taken (i j : Nat) (c c' : Cursor) : Prop where
  ended : c'.Ended
  tokens : ∃ ts, c.tokens = ts ++ c'.tokens ∧ Turns i j (ts.map Token.lexeme)

/-- What comes of the production at the cursor where it succeeds. -/
def EndsAt {α : Type} (c : Cursor) (p : Production α) (Q : α → Cursor → Prop) : Prop :=
  ∀ a c', p c = .ok a c' → Q a c'

/-- The production takes such tokens at the cursor where it succeeds. -/
def TakesAt {α : Type} (c : Cursor) (i j : Nat) (p : Production α) : Prop :=
  c.Ended → EndsAt c p fun _ c' => Taken i j c c'

def Takes {α : Type} (i j : Nat) (p : Production α) : Prop := ∀ c, TakesAt c i j p

/-- Productions that leave as many braces open as there were. -/
abbrev Balances {α : Type} (p : Production α) : Prop := ∀ i, Takes i i p

theorem Taken.of_tokens {c c' : Cursor} (i : Nat) (hc : c.Ended) (h : c'.tokens = c.tokens) :
    Taken i i c c' := by
  refine ⟨?_, [], h.symm, .nil i⟩
  unfold Cursor.Ended
  rwa [h]

theorem Taken.trans {i j k : Nat} {c c' c'' : Cursor} (h : Taken i j c c') (g : Taken j k c' c'') :
    Taken i k c c'' := by
  obtain ⟨ts, hts, hturns⟩ := h.tokens
  obtain ⟨us, hus, husturns⟩ := g.tokens
  refine ⟨g.ended, ts ++ us, ?_, ?_⟩
  · rw [hts, hus, List.append_assoc]
  · rw [List.map_append]
    exact hturns.append husturns

section Combinators

variable {α β : Type} {c : Cursor} {i j k : Nat} {p : Production α} {f : α → Production β}

theorem EndsAt.bind {Q : α → Cursor → Prop} {R : β → Cursor → Prop} (h : EndsAt c p Q)
    (hf : ∀ a c', Q a c' → EndsAt c' (f a) R) : EndsAt c (p >>= f) R := by
  intro b c'' hb
  have hb : EStateM.bind p f c = .ok b c'' := hb
  unfold EStateM.bind at hb
  split at hb
  · next a c' ha => exact hf a c' (h a c' ha) b c'' hb
  · cases hb

/-- What holds after the second of two productions, wherever it starts. -/
theorem EndsAt.second {R : β → Cursor → Prop} (hf : ∀ a c', EndsAt c' (f a) R) :
    EndsAt c (p >>= f) R :=
  EndsAt.bind (Q := fun _ _ => True) (fun _ _ _ => trivial) fun a c' _ => hf a c'

/-- Looking at the cursor tells what comes next. -/
theorem EndsAt.get {f : Cursor → Production β} {R : β → Cursor → Prop} (hf : EndsAt c (f c) R) :
    EndsAt c (get >>= f) R := hf

theorem EndsAt.pure {Q : α → Cursor → Prop} {a : α} (h : Q a c) : EndsAt c (pure a) Q := by
  rintro _ _ ⟨⟩
  exact h

/-- The production succeeds nowhere. -/
def Fails {α : Type} (p : Production α) : Prop := ∀ c, EndsAt c p fun _ _ => False

theorem fails_throw {e : Error} : Fails (throw e : Production α) := fun _ _ _ h => nomatch h

theorem fails_fail {w : Wanted} : Fails (Production.fail w : Production α) :=
  fun _ _ _ h => nomatch h

theorem Fails.bind (hf : ∀ a, Fails (f a)) : Fails (p >>= f) := fun _ => .second hf

theorem Fails.endsAt {Q : α → Cursor → Prop} (h : Fails p) : EndsAt c p Q :=
  fun a c' ha => (h c a c' ha).elim

theorem Fails.takesAt (h : Fails p) : TakesAt c i j p := fun _ => h.endsAt

theorem Fails.takes (h : Fails p) : Takes i j p := fun _ => h.takesAt

theorem TakesAt.bind (h : TakesAt c i j p) (hf : ∀ a, Takes j k (f a)) :
    TakesAt c i k (p >>= f) := fun hc =>
  (h hc).bind fun a c' htaken b c'' hb => htaken.trans (hf a c' htaken.ended b c'' hb)

theorem Takes.bind (h : Takes i j p) (hf : ∀ a, Takes j k (f a)) : Takes i k (p >>= f) :=
  fun c => (h c).bind hf

theorem Takes.pure {a : α} : Takes i i (pure a) := fun _ hc => .pure (.of_tokens i hc rfl)

theorem TakesAt.ite {b : Prop} [Decidable b] {p q : Production α} (hp : b → TakesAt c i j p)
    (hq : ¬b → TakesAt c i j q) : TakesAt c i j (if b then p else q) := by
  split
  · next h => exact hp h
  · next h => exact hq h

theorem Takes.ite {b : Prop} [Decidable b] {p q : Production α} (hp : Takes i j p)
    (hq : Takes i j q) : Takes i j (if b then p else q) :=
  fun c => .ite (fun _ => hp c) fun _ => hq c

theorem Takes.map {f : α → β} (h : Takes i j p) : Takes i j (f <$> p) := by
  rw [← bind_pure_comp]
  exact h.bind fun _ => .pure

theorem Takes.get {f : Cursor → Production β} (hf : ∀ c, TakesAt c i j (f c)) :
    Takes i j (get >>= f) := fun c hc => .get (hf c hc)

theorem Takes.modify {f : Cursor → Cursor} (hf : ∀ c, (f c).tokens = c.tokens) :
    Takes i i (modify f : Production Unit) := by
  rintro c hc _ _ ⟨⟩
  exact .of_tokens i hc (hf c)

end Combinators

/-! ## 3. Tokens -/

namespace Production

section Tokens

variable {α : Type} {c : Cursor} {i j k : Nat}

theorem advance_cases (hc : c.Ended) :
    (∃ t rest, c.tokens = t :: rest ∧ c.lexeme = t.lexeme ∧ c.advance = { c with tokens := rest } ∧
      c.advance.Ended) ∨ c.lexeme = .finish ∧ c.advance = c := by
  obtain ⟨ts, n, hts⟩ := hc
  unfold Cursor.lexeme Cursor.advance Cursor.Ended
  match ts, hts with
  | [], hts => exact .inr (by rw [hts]; exact ⟨rfl, rfl⟩)
  | [t], hts =>
    rw [hts]
    exact .inl ⟨t, _, rfl, rfl, rfl, [], n, rfl⟩
  | t :: u :: ts, hts =>
    rw [hts]
    exact .inl ⟨t, _, rfl, rfl, rfl, u :: ts, n, rfl⟩

theorem taken_advance (h : Turns i j [c.lexeme]) (hc : c.Ended) : Taken i j c c.advance := by
  obtain ⟨t, rest, htokens, hlexeme, hadvance, hended⟩ | ⟨hfinish, hadvance⟩ := advance_cases hc
  · refine ⟨hended, [t], ?_, ?_⟩
    · rw [hadvance, htokens]
      rfl
    · rw [hlexeme] at h
      exact h
  · -- the end is never taken, but it is no brace either
    rw [hfinish] at h
    have hij : i = j := by
      have := h 0
      rw [Nat.zero_add, Nat.zero_add] at this
      exact Option.some.inj this
    rw [hadvance, hij]
    exact .of_tokens j hc rfl

theorem takesAt_advance (h : Turns i j [c.lexeme]) : TakesAt c i j advance := by
  intro hc _ _ ha
  cases ha
  exact taken_advance h hc

theorem turns_lexeme {l : Lexeme} (h : c.lexeme = l) (hl : l.isBrace = false) (i : Nat) :
    Turns i i [c.lexeme] := by
  rw [h]
  exact turns_of_not hl i

theorem lexeme_of_atPunct {p : Punct} (h : c.atPunct p = true) : c.lexeme = .punct p := by
  unfold Cursor.atPunct at h
  split at h
  · next heq =>
    rw [heq, beq_iff_eq.mp h]
  · cases h

theorem lexeme_of_atWord {word : String} (h : c.atWord word = true) : c.lexeme = .name word := by
  unfold Cursor.atWord at h
  split at h
  · next heq =>
    rw [heq, beq_iff_eq.mp h]
  · cases h


theorem endsAt_eat (c : Cursor) (p : Punct) : EndsAt c (Production.eat p) fun found c' =>
    if found = true then c.lexeme = .punct p ∧ c' = c.advance else c' = c := by
  refine .get ?_
  split
  · next h =>
    rintro _ _ ⟨⟩
    exact ⟨lexeme_of_atPunct h, rfl⟩
  · exact .pure rfl

theorem endsAt_eatWord (c : Cursor) (word : String) :
    EndsAt c (Production.eatWord word) fun found c' =>
      if found = true then c.lexeme = .name word ∧ c' = c.advance else c' = c := by
  refine .get ?_
  split
  · next h =>
    rintro _ _ ⟨⟩
    exact ⟨lexeme_of_atWord h, rfl⟩
  · exact .pure rfl

theorem endsAt_bindingName (c : Cursor) : EndsAt c bindingName fun name c' =>
    c.lexeme = .name name ∧ c' = c.advance := by
  refine .get ?_
  split
  · next name heq =>
    split
    · exact fails_fail.endsAt
    · rintro _ _ ⟨⟩
      exact ⟨heq, rfl⟩
  · exact fails_fail.endsAt

theorem takesAt_eat {p : Punct} {f : Bool → Production α} (hp : Turns i j [.punct p])
    (htrue : Takes j k (f true)) (hfalse : TakesAt c i k (f false)) :
    TakesAt c i k (Production.eat p >>= f) := by
  refine fun hc => (endsAt_eat c p).bind fun found c' hfound => ?_
  split at hfound
  · next h =>
    obtain ⟨hlexeme, rfl⟩ := hfound
    have htaken := taken_advance (by rwa [hlexeme]) hc
    rw [h]
    exact fun a c'' ha => htaken.trans (htrue c.advance htaken.ended a c'' ha)
  · next h =>
    rw [hfound, Bool.not_eq_true _ |>.mp h]
    exact hfalse hc

theorem takesAt_eatWord {word : String} {p q : Production α} (hp : Takes i k p)
    (hq : TakesAt c i k q) :
    TakesAt c i k (Production.eatWord word >>= fun found => if found = true then p else q) := by
  refine fun hc => (endsAt_eatWord c word).bind fun found c' hfound => ?_
  split at hfound
  · next h =>
    obtain ⟨hlexeme, rfl⟩ := hfound
    have htaken := taken_advance (turns_lexeme hlexeme rfl i) hc
    rw [if_pos h]
    exact fun a c'' ha => htaken.trans (hp c.advance htaken.ended a c'' ha)
  · next h =>
    rw [if_neg h, hfound]
    exact hq hc

theorem balances_eat (p : Punct) (hp : (Lexeme.punct p).isBrace = false) : Balances (eat p) := by
  intro i c
  rw [← bind_pure (eat p)]
  exact takesAt_eat (turns_of_not hp i) .pure (Takes.pure c)

theorem takes_expect {p : Punct} (hp : Turns i j [.punct p]) : Takes i j (expect p) :=
  fun _ => takesAt_eat hp .pure (fails_fail.takes _)

theorem balances_expect (p : Punct) (hp : (Lexeme.punct p).isBrace = false) :
    Balances (expect p) := fun i => takes_expect (turns_of_not hp i)

theorem balances_skipSemicolon : Balances skipSemicolon := fun i =>
  (balances_eat _ rfl i).bind fun _ => .pure

theorem balances_bindingName : Balances bindingName := by
  intro i
  refine .get fun c => ?_
  split
  · next name heq =>
    split
    · exact fails_fail.takes c
    · exact (takesAt_advance (turns_lexeme heq rfl i)).bind fun _ => .pure
  · exact fails_fail.takes c

theorem balances_bound : Balances bound := fun _ => .get fun c => Takes.pure c

theorem fails_stall : Fails (stall : Production α) := fun _ _ _ h => nomatch h

theorem balances_descend : Balances descend := by
  intro i
  refine Takes.bind (.modify fun _ => rfl) fun _ => .get fun c => ?_
  split
  · exact fails_throw.takes c
  · exact Takes.pure c

theorem balances_ascend (levels : Nat) : Balances (ascend levels) := fun _ => .modify fun _ => rfl

theorem balances_nested {p : Production α} (h : Balances p) : Balances (nested p) := fun i =>
  (balances_descend i).bind fun _ => (h i).bind fun _ => (balances_ascend 1 i).bind fun _ => .pure

theorem balances_paramsFrom (acc : List String) (rounds : Nat) :
    Balances (paramsFrom acc rounds) := by
  intro i
  induction rounds generalizing acc with
  | zero => exact fails_stall.takes
  | succ rounds ih =>
    refine (balances_bindingName i).bind fun name =>
      (balances_eat _ rfl i).bind fun closed => ?_
    split
    · exact .pure
    · exact (balances_expect _ rfl i).bind fun _ => ih (name :: acc)

theorem balances_params : Balances params := by
  intro i
  refine (balances_eat _ rfl i).bind fun closed => ?_
  split
  · exact .pure
  · exact (balances_bound i).bind fun rounds => balances_paramsFrom [] rounds i

/-- The tokens after one that is taken are those that were seen ahead. -/
theorem ahead_advance (hc : c.Ended) (hlexeme : c.lexeme ≠ .finish) (n : Nat) :
    c.advance.ahead n = c.ahead (n + 1) := by
  obtain ⟨t, rest, htokens, -, hadvance, -⟩ | ⟨hfinish, -⟩ := advance_cases hc
  · rw [hadvance]
    unfold Cursor.ahead
    rw [htokens]
    rfl
  · exact absurd hfinish hlexeme

theorem lexeme_eq_ahead (c : Cursor) : c.lexeme = c.ahead 0 := by
  unfold Cursor.lexeme Cursor.ahead
  cases c.tokens <;> rfl

theorem takesAt_advance_then {f : Production α} (h : Turns i j [c.lexeme])
    (hlexeme : c.lexeme ≠ .finish) (hf : (∀ n, c.advance.ahead n = c.ahead (n + 1)) →
      TakesAt c.advance j k f) : TakesAt c i k (advance >>= fun _ => f) := by
  intro hc b c'' hb
  have htaken := taken_advance h hc
  exact htaken.trans (hf (ahead_advance hc hlexeme) htaken.ended b c'' hb)

theorem takesAt_bindingName_then {f : String → Production α}
    (hf : ∀ name, (∀ n, c.advance.ahead n = c.ahead (n + 1)) → TakesAt c.advance i k (f name)) :
    TakesAt c i k (bindingName >>= f) := by
  refine fun hc => (endsAt_bindingName c).bind fun name c' hname => ?_
  obtain ⟨hname, rfl⟩ := hname
  have htaken := taken_advance (turns_lexeme hname rfl i) hc
  have hahead := ahead_advance hc (by rw [hname]; exact nofun)
  exact fun b c'' hb => htaken.trans (hf name hahead htaken.ended b c'' hb)

theorem balances_arrowParams? : Balances arrowParams? := by
  intro i
  refine .get fun c => ?_
  split
  · next name hname harrow =>
    split
    · exact Takes.pure c
    · refine takesAt_advance_then (turns_lexeme hname rfl i) (by rw [hname]; exact nofun)
        fun hahead => ?_
      have harrow := (lexeme_eq_ahead _).trans ((hahead 0).trans harrow)
      exact (takesAt_advance (turns_lexeme harrow rfl i)).bind fun _ => .pure
  · next hopen =>
    split
    · exact (takesAt_advance (turns_lexeme hopen rfl i)).bind fun _ =>
        (balances_params i).bind fun _ => (balances_expect _ rfl i).bind fun _ => .pure
    · exact Takes.pure c
  · exact Takes.pure c

theorem balances_entryKey : Balances entryKey := by
  intro i
  refine .get fun c => ?_
  dsimp only
  split
  · next heq => exact (takesAt_advance (turns_lexeme heq rfl i)).bind fun _ => .pure
  · next heq => exact (takesAt_advance (turns_lexeme heq rfl i)).bind fun _ => .pure
  · next heq => exact (takesAt_advance (turns_lexeme heq rfl i)).bind fun _ => .pure
  · exact Fails.takesAt (Fails.bind fun _ => fails_fail)

end Tokens

/-! ## 4. Productions of one level -/

structure Level.Balanced (l : Level) : Prop where
  statement : Balances l.statement
  assignment : Balances l.assignment
  unary : Balances l.unary

section Level

variable {inner : Level} (h : inner.Balanced)
include h

/-- A block closes the brace that is open before it. -/
theorem takes_blockFrom (acc : List Stmt) (rounds i : Nat) :
    Takes (i + 1) i (blockFrom inner acc rounds) := by
  induction rounds generalizing acc with
  | zero => exact fails_stall.takes
  | succ rounds ih =>
    intro c
    refine takesAt_eat (turns_close i) .pure ?_
    refine Takes.get (fun c => ?_) c
    split
    · exact Fails.takesAt fails_fail
    · exact (h.statement (i + 1) c).bind fun s => ih (s :: acc)

theorem balances_block : Balances (block inner) := fun i =>
  (takes_expect (turns_open i)).bind fun _ => (balances_bound (i + 1)).bind fun rounds =>
    takes_blockFrom h [] rounds i

theorem balances_functionRest (needsName : Bool) : Balances (functionRest inner needsName) := by
  intro i
  let rest (name : Option String) : Production Function := do
    expect .parenOpen
    let params ← params
    return Function.mk name params (.block (← block inner))
  have hrest (name : Option String) : Takes i i (rest name) :=
    (balances_expect _ rfl i).bind fun _ => (balances_params i).bind fun _ =>
      (balances_block h i).bind fun _ => .pure
  have hname (isNamed : Bool) :
      Takes i i (if isNamed = true then (some <$> bindingName) >>= rest else rest none) := by
    split
    · exact (balances_bindingName i).map.bind hrest
    · exact hrest none
  exact .get fun c => hname _ c

theorem balances_argumentsFrom (acc : List Expr) (rounds : Nat) :
    Balances (argumentsFrom inner acc rounds) := by
  intro i
  induction rounds generalizing acc with
  | zero => exact fails_stall.takes
  | succ rounds ih =>
    refine (h.assignment i).bind fun e => (balances_eat _ rfl i).bind fun closed => ?_
    split
    · exact .pure
    · exact (balances_expect _ rfl i).bind fun _ => ih (e :: acc)

theorem balances_arguments : Balances (arguments inner) := by
  intro i
  refine (balances_eat _ rfl i).bind fun closed => ?_
  split
  · exact .pure
  · exact (balances_bound i).bind fun rounds => balances_argumentsFrom h [] rounds i

theorem balances_itemsFrom (acc : List Expr) (rounds : Nat) :
    Balances (itemsFrom inner acc rounds) := by
  intro i
  induction rounds generalizing acc with
  | zero => exact fails_stall.takes
  | succ rounds ih =>
    refine (balances_eat _ rfl i).bind fun closed => ?_
    split
    · exact .pure
    · refine (h.assignment i).bind fun e => .get fun c => ?_
      split
      · exact ((balances_expect _ rfl i).bind fun _ => ih (e :: acc)) c
      · exact ih (e :: acc) c

/-- The entries of an object close the brace that is open before them. -/
theorem takes_entriesFrom (acc : List (String × Expr)) (rounds i : Nat) :
    Takes (i + 1) i (entriesFrom inner acc rounds) := by
  induction rounds generalizing acc with
  | zero => exact fails_stall.takes
  | succ rounds ih =>
    intro c
    refine takesAt_eat (turns_close i) .pure ?_
    refine ((balances_entryKey (i + 1)).bind fun key =>
      (balances_eat _ rfl (i + 1)).bind fun colon => ?_) c
    have hrest (value : Expr) : Takes (i + 1) i (do
        if !(← get).atPunct .braceClose then expect .comma
        entriesFrom inner ((key, value) :: acc) rounds) := by
      refine .get fun c => ?_
      split
      · exact ((balances_expect _ rfl (i + 1)).bind fun _ => ih _) c
      · exact ih _ c
    split
    · exact (h.assignment (i + 1)).bind hrest
    · exact hrest (.ident key)

omit h in
/-- A hole has tokens of its own, and leaves those of the template. -/
theorem balances_hole (hole : Hole) : Balances (Production.hole inner hole) := by
  intro i
  unfold Production.hole
  split
  · exact fails_throw.takes
  · refine .get fun outer hc => .second fun _ _ => .second fun e _ => .second fun _ _ => ?_
    rintro _ _ ⟨⟩
    exact .of_tokens i hc rfl

omit h in
theorem balances_holes (hs : List Hole) : Balances (holes inner hs) := by
  intro i
  induction hs with
  | nil => exact .pure
  | cons hole rest ih => exact (balances_hole hole i).bind fun _ => ih.bind fun _ => .pure

omit h in
theorem balances_pattern (offset : Nat) (body flags : String) :
    Balances (pattern offset body flags) := by
  intro i
  unfold pattern
  split
  · exact fails_throw.takes
  · refine .get fun c => (Takes.bind (.modify ?_) fun _ => .pure) c
    exact fun _ => rfl

theorem balances_primary : Balances (primary inner) := by
  intro i
  refine .get fun start => ?_
  have htoken {l : Lexeme} (heq : start.lexeme = l) (hl : l.isBrace = false) :
      TakesAt start i i advance := takesAt_advance (turns_lexeme heq hl i)
  split
  · next heq => exact (htoken heq rfl).bind fun _ => .pure
  · next heq => exact (htoken heq rfl).bind fun _ => .pure
  · next heq => exact (htoken heq rfl).bind fun _ => balances_pattern _ _ _ i
  · next heq =>
    refine (htoken heq rfl).bind fun _ => ?_
    split
    · exact .pure
    split
    · exact .pure
    split
    · exact .pure
    split
    · exact .pure
    split
    · exact (balances_functionRest h false i).bind fun _ => .pure
    split
    · exact fails_throw.takes
    · exact .pure
  · next heq => exact (htoken heq rfl).bind fun _ => (balances_holes _ i).bind fun _ => .pure
  · next heq =>
    exact (htoken heq rfl).bind fun _ => (h.assignment i).bind fun _ =>
      (balances_expect _ rfl i).bind fun _ => .pure
  · next heq =>
    exact (htoken heq rfl).bind fun _ => (balances_bound i).bind fun rounds =>
      (balances_itemsFrom h [] rounds i).bind fun _ => .pure
  · next heq =>
    -- the brace that is taken here is closed by the last of the entries
    have hopen : TakesAt start i (i + 1) advance :=
      takesAt_advance (by rw [heq]; exact turns_open i)
    exact hopen.bind fun _ => (balances_bound (i + 1)).bind fun rounds =>
      (takes_entriesFrom h [] rounds i).bind fun _ => .pure
  · exact Fails.takesAt (Fails.bind fun _ => fails_throw)

theorem balances_linksFrom (links : Nat) (head : Expr) (rounds : Nat) :
    Balances (linksFrom inner links head rounds) := by
  intro i
  induction rounds generalizing links head with
  | zero => exact fails_stall.takes
  | succ rounds ih =>
    refine (balances_eat _ rfl i).bind fun guarded => (balances_eat _ rfl i).bind fun isIndex => ?_
    split
    · exact (balances_descend i).bind fun _ => (h.assignment i).bind fun _ =>
        (balances_expect _ rfl i).bind fun _ => ih _ _
    refine (balances_eat _ rfl i).bind fun isCall => ?_
    split
    · exact (balances_descend i).bind fun _ => (balances_arguments h i).bind fun _ => ih _ _
    have hmember (isMember : Bool) :
        Takes i i (memberLink inner links head guarded rounds isMember) := by
      unfold memberLink
      split
      · refine (balances_descend i).bind fun _ => .get fun c => ?_
        dsimp only
        split
        · next heq => exact (takesAt_advance (turns_lexeme heq rfl i)).bind fun _ => ih _ _
        · exact Fails.takesAt (Fails.bind fun _ => fails_fail)
      · exact (balances_ascend links i).bind fun _ => .pure
    split
    · exact hmember true
    · exact (balances_eat _ rfl i).bind fun isMember => hmember isMember

omit h in
theorem takesAt_advance_sign {c : Cursor} {i : Nat}
    (hc : (c.atPunct .plusPlus || c.atPunct .minusMinus) = true) : TakesAt c i i advance := by
  rcases Bool.or_eq_true .. |>.mp hc with hc | hc
  · exact takesAt_advance (turns_lexeme (lexeme_of_atPunct hc) rfl i)
  · exact takesAt_advance (turns_lexeme (lexeme_of_atPunct hc) rfl i)

theorem balances_postfixed : Balances (postfixed inner) := by
  intro i
  refine (balances_primary h i).bind fun head => (balances_bound i).bind fun rounds =>
    (balances_linksFrom h 0 head rounds i).bind fun e => .get fun c => ?_
  split
  · next hc =>
    split
    · exact (takesAt_advance_sign hc).bind fun _ => .pure
    · exact Fails.takesAt fails_fail
  · exact Takes.pure c

theorem balances_unaryLevel : Balances (unaryLevel inner) := by
  intro i
  refine .get fun c => ?_
  split
  · next hc =>
    refine (takesAt_advance_sign hc).bind fun _ => (h.unary i).bind fun e => ?_
    split
    · exact .pure
    · exact fails_fail.takes
  · split
    · next op hop =>
      have hbrace : c.lexeme.isBrace = false := by
        unfold unaryOp? at hop
        split at hop
        all_goals first | (next heq => rw [heq]; rfl) | cases hop
      exact (takesAt_advance (turns_of_not hbrace i)).bind fun _ =>
        (h.unary i).bind fun _ => .pure
    · exact balances_postfixed h i c

omit h in
theorem balances_operatorsFrom {α : Type} {op? : Punct → Option α} {join : α → Expr → Expr → Expr}
    (hopen : op? .braceOpen = none) (hclose : op? .braceClose = none) {operand : Production Expr}
    (hoperand : Balances operand) (links : Nat) (left : Expr) (rounds : Nat) :
    Balances (operatorsFrom op? join operand links left rounds) := by
  intro i
  induction rounds generalizing links left with
  | zero => exact fails_stall.takes
  | succ rounds ih =>
    refine .get fun c => ?_
    dsimp only
    split
    · exact ((balances_ascend links i).bind fun _ => .pure) c
    · next op hop =>
      have hbrace : c.lexeme.isBrace = false := by
        split at hop
        · next p heq =>
          rw [heq]
          unfold Lexeme.isBrace
          split
          · next heq' =>
            cases heq'
            rw [hopen] at hop
            cases hop
          · next heq' =>
            cases heq'
            rw [hclose] at hop
            cases hop
          · rfl
        · cases hop
      exact (takesAt_advance (turns_of_not hbrace i)).bind fun _ =>
        (balances_descend i).bind fun _ =>
        (hoperand i).bind fun _ => ih _ _

omit h in
theorem balances_operators {α : Type} (op? : Punct → Option α) (join : α → Expr → Expr → Expr)
    (hopen : op? .braceOpen = none) (hclose : op? .braceClose = none) {operand : Production Expr}
    (hoperand : Balances operand) : Balances (operators op? join operand) := fun i =>
  (hoperand i).bind fun _ => (balances_bound i).bind fun rounds =>
    balances_operatorsFrom hopen hclose hoperand 0 _ rounds i

theorem balances_disjunction : Balances (disjunction inner) := by
  have hmultiplicative := balances_operators multiplicativeOp? .binary rfl rfl h.unary
  have hadditive := balances_operators additiveOp? .binary rfl rfl hmultiplicative
  have hrelational := balances_operators relationalOp? .binary rfl rfl hadditive
  have hequality := balances_operators equalityOp? .binary rfl rfl hrelational
  have hconjunction := balances_operators andOp? .logical rfl rfl hequality
  exact balances_operators orOp? .logical rfl rfl hconjunction

theorem balances_conditional : Balances (conditional inner) := by
  intro i
  refine (balances_disjunction h i).bind fun test => (balances_eat _ rfl i).bind fun isCond => ?_
  split
  · exact (h.assignment i).bind fun _ => (balances_expect _ rfl i).bind fun _ =>
      (h.assignment i).bind fun _ => .pure
  · exact .pure

theorem balances_assignmentLevel : Balances (assignmentLevel inner) := by
  intro i
  refine (balances_arrowParams? i).bind fun params => ?_
  split
  · refine .get fun c => ?_
    split
    · exact (((balances_block h i).map).bind fun _ => .pure) c
    · exact (((h.assignment i).map).bind fun _ => .pure) c
  · refine (balances_conditional h i).bind fun target => .get fun c => ?_
    dsimp only
    split
    · exact Takes.pure c
    · next op hop =>
      have hbrace : c.lexeme.isBrace = false := by
        split at hop
        · next p heq =>
          rw [heq]
          cases p <;> first | rfl | cases hop
        · cases hop
      split
      · exact (takesAt_advance (turns_of_not hbrace i)).bind fun _ =>
          (h.assignment i).bind fun _ => .pure
      · exact Fails.takesAt fails_fail

/-! ## 5. Statements -/

theorem balances_bindingsFrom (acc : List (String × Option Expr)) (rounds : Nat) :
    Balances (bindingsFrom inner acc rounds) := by
  intro i
  induction rounds generalizing acc with
  | zero => exact fails_stall.takes
  | succ rounds ih =>
    refine (balances_bindingName i).bind fun name => (balances_eat _ rfl i).bind fun hasValue => ?_
    have hrest (value : Option Expr) : Takes i i (do
        let acc := (name, value) :: acc
        if ← eat .comma then bindingsFrom inner acc rounds else return acc.reverse) := by
      refine (balances_eat _ rfl i).bind fun more => ?_
      split
      · exact ih _
      · exact .pure
    split
    · exact ((h.assignment i).map).bind hrest
    · exact hrest none

theorem balances_declaration : Balances (declaration inner) := fun i =>
  (balances_bound i).bind fun rounds => (balances_bindingsFrom h [] rounds i).bind fun _ => .pure

theorem balances_unlessAt (p : Punct) : Balances (unlessAt inner p) := by
  intro i
  refine .get fun c => ?_
  split
  · exact Takes.pure c
  · exact (h.assignment i).map c

omit h in
theorem name_of_atDeclaration {c : Cursor} (hc : atDeclaration c = true) :
    ∃ word, c.lexeme = .name word := by
  unfold atDeclaration at hc
  rw [Bool.or_eq_true, Bool.or_eq_true] at hc
  rcases hc with (hc | hc) | hc <;> exact ⟨_, lexeme_of_atWord hc⟩

theorem balances_loopInit : Balances (loopInit inner) := by
  intro i
  refine .get fun c => ?_
  split
  · exact Takes.pure c
  split
  · next hc =>
    obtain ⟨word, hword⟩ := name_of_atDeclaration hc
    exact (takesAt_advance (turns_lexeme hword rfl i)).bind fun _ => (balances_declaration h i).map
  · exact ((h.assignment i).bind fun _ => .pure) c

theorem balances_forStatement : Balances (forStatement inner) := by
  intro i
  refine (balances_expect _ rfl i).bind fun _ => .get fun c => ?_
  split
  · next hc =>
    obtain ⟨hword, hnames⟩ := Bool.and_eq_true .. |>.mp hc
    obtain ⟨word, hword⟩ := name_of_atDeclaration hword
    split at hnames
    · next of _ hof =>
      refine takesAt_advance_then (turns_lexeme hword rfl i) (by rw [hword]; exact nofun)
        fun hahead => takesAt_bindingName_then fun name hnext => ?_
      have hof := (lexeme_eq_ahead _).trans ((hnext 0).trans ((hahead 1).trans hof))
      exact (takesAt_advance (turns_lexeme hof rfl i)).bind fun _ => (h.assignment i).bind fun _ =>
        (balances_expect _ rfl i).bind fun _ => (h.statement i).bind fun _ => .pure
    · cases hnames
  · exact ((balances_loopInit h i).bind fun _ => (balances_expect _ rfl i).bind fun _ =>
      (balances_unlessAt h _ i).bind fun _ => (balances_expect _ rfl i).bind fun _ =>
        (balances_unlessAt h _ i).bind fun _ => (balances_expect _ rfl i).bind fun _ =>
          (h.statement i).bind fun _ => .pure) c

theorem balances_condition : Balances (condition inner) := fun i =>
  (balances_expect _ rfl i).bind fun _ => (h.assignment i).bind fun _ =>
    (balances_expect _ rfl i).bind fun _ => .pure

theorem balances_statementLevel : Balances (statementLevel inner) := by
  intro i
  have hblock (c : Cursor) : TakesAt c i i (do return .block (← block inner) : Production Stmt) :=
    ((balances_block h i).bind fun _ => .pure) c
  refine (balances_eat _ rfl i).bind fun isEmpty => .ite .pure ?_
  -- the cursor stays where it is as long as no word is taken
  refine .get fun c => .ite (fun _ => hblock c) fun _ => ?_
  refine takesAt_eatWord ((balances_functionRest h true i).bind fun _ => .pure) ?_
  refine .ite (fun hc => ?_) fun _ => ?_
  · obtain ⟨word, hword⟩ := name_of_atDeclaration hc
    exact (takesAt_advance (turns_lexeme hword rfl i)).bind fun _ =>
      (balances_declaration h i).bind fun _ => (balances_skipSemicolon i).bind fun _ => .pure
  refine takesAt_eatWord ?_ ?_
  · refine (balances_condition h i).bind fun _ => (h.statement i).bind fun _ c => ?_
    exact takesAt_eatWord ((h.statement i).map.bind fun _ => .pure) (Takes.pure c)
  refine takesAt_eatWord ?_ ?_
  · exact (balances_condition h i).bind fun _ => (h.statement i).bind fun _ => .pure
  refine takesAt_eatWord (balances_forStatement h i) ?_
  refine takesAt_eatWord ((balances_skipSemicolon i).bind fun _ => .pure) ?_
  refine takesAt_eatWord ((balances_skipSemicolon i).bind fun _ => .pure) ?_
  refine takesAt_eatWord ?_ ?_
  · refine .get fun c => .ite (fun _ => ?_) fun _ => ?_
    · exact ((balances_skipSemicolon i).bind fun _ => .pure) c
    · exact ((h.assignment i).map.bind fun _ => (balances_skipSemicolon i).bind fun _ => .pure) c
  · exact ((h.assignment i).bind fun _ => (balances_skipSemicolon i).bind fun _ => .pure) c

end Level

/-! ## 6. Whole expressions -/

theorem balanced_level (n : Nat) : (level n).Balanced := by
  induction n with
  | zero =>
    have hrefuse {α : Type} :
      Balances (do throw (.badSource (← get).offset .tooDeep) : Production α) :=
      fun _ => .get fun _ => fails_throw.takesAt
    exact ⟨hrefuse, hrefuse, hrefuse⟩
  | succ n ih =>
    exact ⟨balances_nested (balances_statementLevel ih),
      balances_nested (balances_assignmentLevel ih),
      balances_nested (balances_unaryLevel ih)⟩

theorem endsAt_expectEnd (c : Cursor) :
    EndsAt c expectEnd fun _ c' => c.lexeme = .finish ∧ c' = c := by
  refine .get ?_
  split
  · exact fails_fail.endsAt
  · next h =>
    refine .pure ⟨?_, rfl⟩
    unfold Cursor.atEnd at h
    split at h
    · assumption
    · exact absurd rfl h

end Production

section Ends

variable {start offset : Nat} {p q : Place} {l : Lexeme}

theorem readNumber_ok (h : readNumber p = .ok (l, q)) : ∃ x, l = .number x := by
  unfold readNumber at h
  grind

theorem readTemplate_ok {parts : List String} {holes : List Hole} {acc : List Char}
    (h : readTemplate start parts holes acc p = .ok (l, q)) : ∃ ps hs, l = .template ps hs := by
  fun_induction readTemplate start parts holes acc p <;> grind

/-- Only where the text ends is its end read. -/
theorem readLexeme_ne_finish {previous : Option Lexeme} {c : Char} {next : Option Char}
    (h : readLexeme previous p c next = .ok (l, q)) : l ≠ .finish := by
  unfold readLexeme at h
  split at h
  · obtain ⟨x, rfl⟩ := readNumber_ok h
    exact fun heq => by cases heq
  split at h
  · split at h <;> grind
  split at h
  · obtain ⟨ps, hs, rfl⟩ := readTemplate_ok h
    exact fun heq => by cases heq
  split at h
  · unfold readName at h
    grind
  split at h
  · unfold readPattern at h
    grind
  · unfold readPunct at h
    grind

/-- Some text starts with the token. -/
def Lexeme.StartsText (l : Lexeme) : Prop :=
  ∃ previous p c rest q, Place.rest p = c :: rest ∧
    readLexeme previous p c rest.head? = .ok (l, q)

theorem tokensFrom_startsText {bound : Nat} {acc ts : List Token}
    (h : tokensFrom bound acc p = .ok ts) :
    ∃ us n, ts = acc.reverse ++ us ++ [⟨.finish, n⟩] ∧ ∀ t ∈ us, t.lexeme.StartsText := by
  have hdone (acc : List Token) (n : Nat) : ∃ us m, (⟨.finish, n⟩ :: acc).reverse =
      acc.reverse ++ us ++ [⟨.finish, m⟩] ∧ ∀ t ∈ us, t.lexeme.StartsText :=
    ⟨[], n, by rw [List.reverse_cons, List.append_nil], List.forall_mem_nil _⟩
  induction bound generalizing acc p with
  | zero =>
    cases h
    exact hdone acc p.offset
  | succ bound ih =>
    unfold tokensFrom at h
    split at h
    · cases h
    · next p' _ =>
      split at h
      · cases h
        exact hdone acc p'.offset
      · next hrest =>
        split at h
        · cases h
        · next l q hread =>
          obtain ⟨us, n, rfl, hus⟩ := ih h
          refine ⟨⟨l, p'.offset⟩ :: us, n, ?_, List.forall_mem_cons.mpr ⟨?_, hus⟩⟩
          · rw [List.reverse_cons, List.append_assoc acc.reverse]
            rfl
          · exact ⟨_, p', _, _, q, hrest, hread⟩

theorem tokensFrom_eq_append {bound : Nat} {acc ts : List Token}
    (h : tokensFrom bound acc p = .ok ts) :
    ∃ us n, ts = acc.reverse ++ us ++ [⟨.finish, n⟩] ∧ ∀ t ∈ us, t.lexeme ≠ .finish := by
  obtain ⟨us, n, rfl, hus⟩ := tokensFrom_startsText h
  refine ⟨us, n, rfl, fun t ht => ?_⟩
  obtain ⟨_, _, _, _, _, -, hread⟩ := hus t ht
  exact readLexeme_ne_finish hread

end Ends

/-- Once the end comes next, all tokens before it were taken. -/
theorem Taken.all {c c' : Cursor} (h : Taken 0 0 c c') {ts : List Token} {n : Nat}
    (hc : c.tokens = ts ++ [⟨.finish, n⟩]) (hts : ∀ t ∈ ts, t.lexeme ≠ .finish)
    (hfinish : c'.lexeme = .finish) : bracesAfter 0 (ts.map Token.lexeme) = some 0 := by
  obtain ⟨us, hus, hturns⟩ := h.tokens
  obtain ⟨vs, m, hvs⟩ := h.ended
  have happend : ts ++ [Token.mk .finish n] = (us ++ vs) ++ [Token.mk .finish m] := by
    rw [← hc, hus, hvs, List.append_assoc]
  obtain ⟨rfl, -⟩ := List.append_inj' happend rfl
  cases vs with
  | nil =>
    rw [List.append_nil]
    exact hturns 0
  | cons v vs =>
    unfold Cursor.lexeme at hfinish
    rw [hvs] at hfinish
    exact absurd hfinish (hts v (List.mem_append_right us List.mem_cons_self))

/-- In an expression that can be read, braces come in pairs. -/
theorem readExpr_braces {source : String} {e : Expr} (h : readExpr source = .ok e) :
    ∃ ts n, tokenize source = .ok (ts ++ [⟨.finish, n⟩]) ∧
      bracesAfter 0 (ts.map Token.lexeme) = some 0 := by
  unfold readExpr Production.onSource at h
  split at h
  · cases h
  next tokens htokens =>
  split at h
  · next a c hrun =>
    obtain ⟨us, n, htokens', hus⟩ := tokensFrom_eq_append htokens
    have hended : Cursor.Ended ⟨tokens, 0, 0⟩ := ⟨us, n, htokens'⟩
    have hends : EndsAt ⟨tokens, 0, 0⟩ (do
        let e ← Production.top.assignment
        Production.skipSemicolon
        Production.expectEnd
        return e) fun _ c => Taken 0 0 ⟨tokens, 0, 0⟩ c ∧ c.lexeme = .finish := by
      refine ((Production.balanced_level _).assignment 0 _ hended).bind fun _ c hc => ?_
      refine (Production.balances_skipSemicolon 0 c hc.ended).bind fun _ c' hc' => ?_
      refine (Production.endsAt_expectEnd c').bind fun _ c'' hend => ?_
      obtain ⟨hfinish, rfl⟩ := hend
      exact .pure ⟨hc.trans hc', hfinish⟩
    obtain ⟨htaken, hfinish⟩ := hends a c hrun
    exact ⟨us, n, htokens.trans (congrArg _ htokens'), htaken.all htokens' hus hfinish⟩
  · cases h

end TraceViewer.Snippet
