import TraceViewer.Proofs.Snippet.Braces
import TraceViewer.Proofs.Snippet.Tiling

/-!
# Walks of the cursor

A production goes from cursor to cursor by single moves.  How many tokens it takes and how many
levels it gives back is found by adding up what its parts do, and so is that it never goes out of
bounds (`StaysInBounds`).  A loop runs out of rounds only where no token is left, which no cursor is
at (`consumes_zero`).
-/

namespace TraceViewer.Snippet

/-! ## 1. The cursor in bounds -/

/-- The end of the text lies ahead, and at most one level more is counted than may be nested. -/
structure Cursor.InBounds (c : Cursor) : Prop where
  ended : c.Ended
  depth_le : c.depth ≤ maxSourceNesting + 1

/-- What a production does to the cursor at once. -/
inductive Cursor.Moves (c : Cursor) : Cursor → Prop
  | advance : Moves c c.advance
  | descend : Moves c { c with depth := c.depth + 1 }
  -- levels are given back only after they were counted
  | ascend {levels : Nat} (h : levels ≤ c.depth) : Moves c { c with depth := c.depth - levels }
  | number (n : Nat) : Moves c { c with patterns := n }

/-- The error of a loop that ran out of rounds. -/
def Error.IsStall (e : Error) : Prop := ∃ n, e = .badSource n .stalled

theorem Error.not_isStall {n : Nat} {fault : SourceFault} (h : fault ≠ .stalled) :
    ¬(Error.badSource n fault).IsStall := by
  rintro ⟨m, hm⟩
  cases hm
  exact h rfl

theorem SourceFault.ne_stalled_of_isLexical {fault : SourceFault} (h : fault.isLexical = true) :
    fault ≠ .stalled := by
  rintro rfl
  cases h

namespace Production

/-- Runs a production on tokens of its own, and comes back to the others. -/
def onTokens {α : Type} (tokens : List Token) (p : Production α) : Production α := do
  let outer ← get
  set { outer with tokens := tokens }
  let a ← p
  modify fun c => { c with tokens := outer.tokens }
  return a

theorem onTokens_apply {α : Type} (tokens : List Token) (p : Production α) (c : Cursor) :
    onTokens tokens p c =
      match p { c with tokens := tokens } with
      | .ok a c' => .ok a { c' with tokens := c.tokens }
      | .error e c' => .error e c' := by
  show EStateM.bind p (fun a => do
      modify fun c' => { c' with tokens := c.tokens }
      return a) { c with tokens := tokens } = _
  unfold EStateM.bind
  cases p { c with tokens := tokens } <;> rfl

/-- The production can be gone through by single moves from cursor to cursor, all of them in bounds.
As productions are functions, any walk by moves with the same outcome will do here: that no cursor
on the way is out of bounds comes from the cursors of errors, which are in bounds over all lists of
tokens. -/
inductive StaysInBounds : {α : Type} → Production α → Cursor → Prop
  | pure {α : Type} {a : α} {c : Cursor} (hc : c.InBounds) : StaysInBounds (pure a) c
  | throw {α : Type} {e : Error} {c : Cursor} (hc : c.InBounds) :
      StaysInBounds (throw e : Production α) c
  | get {c : Cursor} (hc : c.InBounds) : StaysInBounds get c
  | move {f : Cursor → Cursor} {c : Cursor} (hc : c.InBounds) (hmoves : c.Moves (f c))
      (hf : (f c).InBounds) : StaysInBounds (modify f) c
  | bind {α β : Type} {p : Production α} {f : α → Production β} {c : Cursor}
      (hp : StaysInBounds p c) (hf : ∀ a c', p c = .ok a c' → StaysInBounds (f a) c') :
      StaysInBounds (p >>= f) c
  -- what a hole reads has an end of its own
  | onTokens {α : Type} {p : Production α} {tokens : List Token} {c : Cursor} (hc : c.InBounds)
      (hp : StaysInBounds p { c with tokens := tokens }) : StaysInBounds (onTokens tokens p) c

/-- Where a production leaves the cursor, whether it succeeds or not. -/
def cursorOf {α : Type} : EStateM.Result Error Cursor α → Cursor
  | .ok _ c => c
  | .error _ c => c

theorem StaysInBounds.start {α : Type} {p : Production α} {c : Cursor} (h : StaysInBounds p c) :
    c.InBounds := by
  induction h with
  | bind _ _ ih _ => exact ih
  | pure hc | throw hc | get hc | move hc | onTokens hc => exact hc

theorem StaysInBounds.left {α : Type} {p : Production α} {c : Cursor} (h : StaysInBounds p c) :
    (cursorOf (p c)).InBounds := by
  induction h with
  | pure hc => exact hc
  | throw hc => exact hc
  | get hc => exact hc
  | move _ _ hf => exact hf
  | @bind _ _ p f c _ _ ihp ihf =>
    show (cursorOf (EStateM.bind p f c)).InBounds
    unfold EStateM.bind
    cases hr : p c with
    | ok a c' => exact ihf a c' hr
    | error e c' =>
      rw [hr] at ihp
      exact ihp
  | @onTokens _ p tokens c hc _ ih =>
    rw [onTokens_apply]
    cases hr : p { c with tokens := tokens } with
    | ok a c' =>
      rw [hr] at ih
      exact ⟨hc.ended, ih.depth_le⟩
    | error e c' =>
      rw [hr] at ih
      exact ih

/-! ## 2. Walks -/

/-- From the cursor on the production stays in bounds, never stalls, and ends as told. -/
structure Walks {α : Type} (c : Cursor) (p : Production α) (Q : α → Cursor → Prop) : Prop where
  inBounds : StaysInBounds p c
  ends : EndsAt c p Q
  never_stalls : ∀ e c', p c = .error e c' → ¬e.IsStall

section Walks

variable {α β : Type} {c : Cursor} {p : Production α} {f : α → Production β}
  {Q R : α → Cursor → Prop} {S : β → Cursor → Prop}

theorem Walks.pure {a : α} (hc : c.InBounds) (ha : Q a c) : Walks c (pure a) Q where
  inBounds := .pure hc
  ends := .pure ha
  never_stalls := fun _ _ h => by cases h

theorem Walks.throw {e : Error} (hc : c.InBounds) (he : ¬e.IsStall) :
    Walks c (throw e : Production α) Q where
  inBounds := .throw hc
  ends := fails_throw.endsAt
  never_stalls := fun _ _ h => by
    cases h
    exact he

theorem Walks.mono (h : Walks c p Q) (hQ : ∀ a c', Q a c' → R a c') : Walks c p R where
  inBounds := h.inBounds
  ends := fun a c' ha => hQ a c' (h.ends a c' ha)
  never_stalls := h.never_stalls

theorem Walks.bind (h : Walks c p Q) (hf : ∀ a c', Q a c' → Walks c' (f a) S) :
    Walks c (p >>= f) S where
  inBounds := .bind h.inBounds fun a c' ha => (hf a c' (h.ends a c' ha)).inBounds
  ends := EndsAt.bind h.ends fun a c' ha => (hf a c' ha).ends
  never_stalls := by
    intro e c'' he
    have he : EStateM.bind p f c = .error e c'' := he
    unfold EStateM.bind at he
    split at he
    · next a c' ha => exact (hf a c' (h.ends a c' ha)).never_stalls e c'' he
    · next e' c' he' =>
      cases he
      exact h.never_stalls e c'' he'

theorem Walks.get {f : Cursor → Production β} (h : Walks c (f c) S) : Walks c (get >>= f) S where
  inBounds := by
    refine .bind (.get h.inBounds.start) fun a c' ha => ?_
    cases ha
    exact h.inBounds
  ends := .get h.ends
  never_stalls := h.never_stalls

end Walks

/-! ## 3. Tokens taken and levels given back -/

/-- From one cursor to the other at least `k` tokens were taken and some levels given back. -/
structure Onward (levels k : Nat) (c c' : Cursor) : Prop where
  ended : c'.Ended
  tokens : c'.tokens <:+ c.tokens
  taken : c'.tokens.length + k ≤ c.tokens.length
  depth : c'.depth + levels = c.depth

/-- Up to `m` tokens are left, and the levels that are given back later were counted. -/
structure Ready (m levels : Nat) (c : Cursor) : Prop where
  ended : c.Ended
  length_le : c.tokens.length ≤ m
  levels_le : levels ≤ c.depth
  depth_le : c.depth ≤ maxSourceNesting

def ConsumesAt {α : Type} (c : Cursor) (m levels k : Nat) (p : Production α) : Prop :=
  Ready m levels c → Walks c p fun _ c' => Onward levels k c c'

/-- With up to `m` tokens left, the production takes `k` of them or more and gives levels back. -/
def Consumes {α : Type} (m levels k : Nat) (p : Production α) : Prop :=
  ∀ c, ConsumesAt c m levels k p

/-- Productions that take `k` tokens or more, however many are left, and keep the levels. -/
abbrev Eats {α : Type} (k : Nat) (p : Production α) : Prop := ∀ m, Consumes m 0 k p

theorem Ready.inBounds {m levels : Nat} {c : Cursor} (h : Ready m levels c) : c.InBounds :=
  ⟨h.ended, Nat.le_succ_of_le h.depth_le⟩

theorem Ready.flat {m levels : Nat} {c : Cursor} (h : Ready m levels c) : Ready m 0 c :=
  ⟨h.ended, h.length_le, Nat.zero_le _, h.depth_le⟩

theorem Onward.refl {c : Cursor} (hc : c.Ended) : Onward 0 0 c c :=
  ⟨hc, List.suffix_rfl, Nat.le_refl _, rfl⟩

section Rules

variable {α β : Type} {c c' c'' : Cursor} {m m' levels j k k' : Nat} {p q : Production α}
  {f : α → Production β}

theorem Onward.trans (h : Onward 0 j c c') (g : Onward levels (k - j) c' c'') :
    Onward levels k c c'' := by
  have htaken := h.taken
  have htaken' := g.taken
  have hdepth := h.depth
  have hdepth' := g.depth
  exact ⟨g.ended, g.tokens.trans h.tokens, by omega, by omega⟩

theorem Ready.next (hc : Ready m levels c) (h : Onward 0 j c c') : Ready (m - j) levels c' := by
  have htaken := h.taken
  have hdepth := h.depth
  have hlength := hc.length_le
  have hlevels := hc.levels_le
  have hmax := hc.depth_le
  exact ⟨h.ended, by omega, by omega, by omega⟩

theorem ConsumesAt.bind (hp : ConsumesAt c m 0 j p)
    (hf : ∀ a, Consumes (m - j) levels (k - j) (f a)) : ConsumesAt c m levels k (p >>= f) := by
  intro hc
  refine (hp hc.flat).bind fun a c' hc' => ?_
  exact (hf a c' (hc.next hc')).mono fun _ _ => hc'.trans

theorem Consumes.bind (hp : Consumes m 0 j p) (hf : ∀ a, Consumes (m - j) levels (k - j) (f a)) :
    Consumes m levels k (p >>= f) := fun c => (hp c).bind hf

theorem ConsumesAt.mono (h : ConsumesAt c m levels k p) (hm : m' ≤ m) (hk : k' ≤ k) :
    ConsumesAt c m' levels k' p := by
  intro hc
  refine (h ⟨hc.ended, Nat.le_trans hc.length_le hm, hc.levels_le, hc.depth_le⟩).mono ?_
  intro _ c' hc'
  have htaken := hc'.taken
  exact ⟨hc'.ended, hc'.tokens, by omega, hc'.depth⟩

theorem Consumes.mono (h : Consumes m levels k p) (hm : m' ≤ m) (hk : k' ≤ k) :
    Consumes m' levels k' p := fun c => (h c).mono hm hk

/-- Without counting the tokens that are taken. -/
theorem Consumes.uncounted (h : Consumes m levels k p) : Consumes m levels 0 p :=
  h.mono (Nat.le_refl _) (Nat.zero_le _)

theorem Consumes.pure {a : α} : Consumes m 0 0 (pure a) := fun _ hc =>
  .pure hc.inBounds (.refl hc.ended)

theorem Consumes.map {f : α → β} (h : Consumes m 0 k p) : Consumes m 0 k (f <$> p) := by
  rw [← bind_pure_comp]
  refine h.bind fun _ => ?_
  rw [Nat.sub_self]
  exact .pure

theorem Consumes.get {f : Cursor → Production β} (hf : ∀ c, ConsumesAt c m levels k (f c)) :
    Consumes m levels k (get >>= f) := fun c hc => .get (hf c hc)

theorem ConsumesAt.ite {b : Prop} [Decidable b] (hp : b → ConsumesAt c m levels k p)
    (hq : ¬b → ConsumesAt c m levels k q) : ConsumesAt c m levels k (if b then p else q) := by
  split
  · next h => exact hp h
  · next h => exact hq h

/-- The end of the text is left at every cursor. -/
theorem consumes_zero : Consumes 0 levels k p := by
  intro c hc
  obtain ⟨ts, n, hts⟩ := hc.ended
  have hlength := hc.length_le
  rw [hts, List.length_append, List.length_singleton] at hlength
  omega

theorem consumes_throw {e : Error} (he : ¬e.IsStall) :
    Consumes m levels k (throw e : Production α) := fun _ hc => .throw hc.inBounds he

theorem consumes_fail {w : Wanted} : Consumes m levels k (fail w : Production α) := by
  refine .get fun c => consumes_throw ?_ c
  exact Error.not_isStall (by simp)

theorem walks_onTokens {tokens : List Token} (hp : Eats k p) (hc : Ready m 0 c)
    (htokens : ∃ ts n, tokens = ts ++ [⟨.finish, n⟩]) :
    Walks c (onTokens tokens p) fun _ c' => Onward 0 0 c c' := by
  let inside : Cursor := { c with tokens := tokens }
  have hinside : Ready tokens.length 0 inside :=
    ⟨htokens, Nat.le_refl _, Nat.zero_le _, hc.depth_le⟩
  have hwalk := hp tokens.length inside hinside
  refine ⟨.onTokens hc.inBounds hwalk.inBounds, fun a c' ha => ?_, fun e c' he => ?_⟩
  · rw [onTokens_apply] at ha
    split at ha
    · next ha' =>
      cases ha
      exact ⟨hc.ended, List.suffix_rfl, Nat.le_refl _, (hwalk.ends _ _ ha').depth⟩
    · cases ha
  · rw [onTokens_apply] at he
    split at he
    · cases he
    · next he' =>
      cases he
      exact hwalk.never_stalls _ _ he'

/-! ## 4. Moves and tokens -/

theorem walks_modify {g : Cursor → Cursor} (hc : c.InBounds) (hmoves : c.Moves (g c))
    (hg : (g c).InBounds) : Walks c (modify g : Production Unit) fun _ c' => c' = g c where
  inBounds := .move hc hmoves hg
  ends := by
    rintro _ _ ⟨⟩
    rfl
  never_stalls := fun _ _ h => by cases h

theorem onward_advance (hc : c.Ended) : Onward 0 0 c c.advance := by
  obtain ⟨t, rest, htokens, -, hadvance, hended⟩ | ⟨-, hadvance⟩ := advance_cases hc
  · refine ⟨hended, ?_, ?_, ?_⟩
    · rw [hadvance, htokens]
      exact List.suffix_cons t rest
    · rw [hadvance, htokens]
      exact Nat.le_succ _
    · rw [hadvance]
      rfl
  · rw [hadvance]
    exact .refl hc

theorem onward_advance_one (hc : c.Ended) (hlexeme : c.lexeme ≠ .finish) :
    Onward 0 1 c c.advance := by
  have h := onward_advance hc
  refine ⟨h.ended, h.tokens, ?_, h.depth⟩
  obtain ⟨t, rest, htokens, -, hadvance, -⟩ | ⟨hfinish, -⟩ := advance_cases hc
  · rw [hadvance, htokens]
    exact Nat.le_refl _
  · exact absurd hfinish hlexeme

theorem consumesAt_advance_of (h : c.Ended → Onward 0 k c c.advance) :
    ConsumesAt c m 0 k advance := by
  intro hc
  have hnext := h hc.ended
  refine (walks_modify hc.inBounds .advance (hc.next hnext).inBounds).mono ?_
  rintro _ _ rfl
  exact hnext

theorem eats_advance : Eats 0 advance := fun _ _ => consumesAt_advance_of onward_advance

theorem consumesAt_advance (hlexeme : c.lexeme ≠ .finish) : ConsumesAt c m 0 1 advance :=
  consumesAt_advance_of fun hc => onward_advance_one hc hlexeme

/-- Whether a token was taken shows in the result. -/
abbrev Tells (c : Cursor) (p : Production Bool) : Prop :=
  Walks c p fun found c' => if found = true then Onward 0 1 c c' else c' = c

theorem tells_of_test {b : Bool} (hc : Ready m levels c) (hb : b = true → c.lexeme ≠ .finish) :
    Tells c (if b = true then (do advance; return true) else return false) := by
  cases b with
  | true =>
    refine (consumesAt_advance (hb rfl) hc.flat).bind fun _ c' hc' => ?_
    exact .pure (hc.next hc').inBounds hc'
  | false => exact .pure hc.inBounds rfl

theorem tells_eat (w : Punct) (hc : Ready m levels c) : Tells c (eat w) := by
  refine .get (tells_of_test hc fun h => ?_)
  rw [lexeme_of_atPunct h]
  simp

theorem tells_eatWord (word : String) (hc : Ready m levels c) : Tells c (eatWord word) := by
  refine .get (tells_of_test hc fun h => ?_)
  rw [lexeme_of_atWord h]
  simp

theorem consumesAt_test {p : Production Bool} {f : Bool → Production α}
    (hp : Ready m levels c → Tells c p) (htrue : Consumes (m - 1) levels (k - 1) (f true))
    (hfalse : ConsumesAt c m levels k (f false)) : ConsumesAt c m levels k (p >>= f) := by
  refine fun hc => (hp hc).bind fun found c' hfound => ?_
  cases found with
  | true => exact (htrue c' (hc.next hfound)).mono fun _ _ => Onward.trans hfound
  | false =>
    have hfound : c' = c := hfound
    rw [hfound]
    exact hfalse hc

theorem consumes_eat {w : Punct} {f : Bool → Production α}
    (htrue : Consumes (m - 1) levels (k - 1) (f true)) (hfalse : Consumes m levels k (f false)) :
    Consumes m levels k (Production.eat w >>= f) :=
  fun c => consumesAt_test (tells_eat w) htrue (hfalse c)

theorem consumesAt_eatWord {word : String} (hp : Consumes (m - 1) levels (k - 1) p)
    (hq : ConsumesAt c m levels k q) : ConsumesAt c m levels k
      (Production.eatWord word >>= fun found => if found = true then p else q) :=
  consumesAt_test (tells_eatWord word) hp hq

theorem eats_eat (w : Punct) : Eats 0 (eat w) := by
  intro m
  rw [← bind_pure (eat w)]
  exact consumes_eat .pure .pure

theorem eats_expect (w : Punct) : Eats 1 (expect w) := fun _ => consumes_eat .pure consumes_fail

theorem eats_skipSemicolon : Eats 0 skipSemicolon := fun m => (eats_eat _ m).bind fun _ => .pure

theorem eats_expectEnd : Eats 0 expectEnd := by
  refine fun m => .get fun c => ?_
  split
  · exact consumes_fail c
  · exact Consumes.pure c

theorem eats_bindingName : Eats 1 bindingName := by
  refine fun m => .get fun c => ?_
  split
  · next name heq =>
    split
    · exact consumes_fail c
    · exact (consumesAt_advance (by simp [heq])).bind fun _ => .pure
  · exact consumes_fail c

/-- As many rounds as tokens are left. -/
theorem consumes_bound {f : Nat → Production α}
    (hf : ∀ rounds, Consumes rounds levels k (f rounds)) : Consumes m levels k (bound >>= f) :=
  .get fun c hc => hf c.tokens.length c ⟨hc.ended, Nat.le_refl _, hc.levels_le, hc.depth_le⟩

theorem walks_descend (hc : Ready m levels c) :
    Walks c descend fun _ c' => Ready m (levels + 1) c' ∧ c' = { c with depth := c.depth + 1 } := by
  let deeper (c : Cursor) : Cursor := { c with depth := c.depth + 1 }
  have hbounds : (deeper c).InBounds := ⟨hc.ended, Nat.succ_le_succ hc.depth_le⟩
  refine (walks_modify (g := deeper) hc.inBounds .descend hbounds).bind ?_
  rintro _ _ rfl
  refine .get ?_
  split
  · exact .throw hbounds (Error.not_isStall (by simp))
  · next h =>
    have hdepth : (deeper c).depth ≤ maxSourceNesting := Nat.le_of_not_lt h
    exact .pure hbounds ⟨⟨hc.ended, hc.length_le, Nat.succ_le_succ hc.levels_le, hdepth⟩, rfl⟩

theorem consumes_descend {p : Production α} (hp : Consumes m (levels + 1) k p) :
    Consumes m levels k (descend >>= fun _ => p) := by
  intro c hc
  refine (walks_descend hc).bind fun _ c' hc' => ?_
  obtain ⟨hready, rfl⟩ := hc'
  refine (hp _ hready).mono fun _ c'' hc'' => ?_
  have hdepth := hc''.depth
  exact ⟨hc''.ended, hc''.tokens, hc''.taken, Nat.succ.inj hdepth⟩

theorem consumes_ascend {a : α} : Consumes m levels 0 (ascend levels >>= fun _ => pure a) := by
  intro c hc
  let higher (c : Cursor) : Cursor := { c with depth := c.depth - levels }
  have hbounds : (higher c).InBounds :=
    ⟨hc.ended, Nat.le_trans (Nat.sub_le ..) hc.inBounds.depth_le⟩
  refine (walks_modify (g := higher) hc.inBounds (.ascend hc.levels_le) hbounds).bind ?_
  rintro _ _ rfl
  exact .pure hbounds
    ⟨hc.ended, List.suffix_rfl, Nat.le_refl _, Nat.sub_add_cancel hc.levels_le⟩

theorem eats_nested (hp : Eats k p) : Eats k (nested p) := by
  refine fun m => consumes_descend ((hp m).bind fun _ => ?_)
  rw [Nat.sub_self]
  exact consumes_ascend

theorem consumes_paramsFrom (acc : List String) (rounds : Nat) :
    Consumes rounds 0 1 (paramsFrom acc rounds) := by
  induction rounds generalizing acc with
  | zero => exact consumes_zero
  | succ rounds ih =>
    refine (eats_bindingName _).bind fun name => consumes_eat .pure ?_
    refine (eats_expect _ _).bind fun _ => (ih (name :: acc)).mono ?_ ?_
    all_goals omega

theorem eats_params : Eats 1 params := fun _ =>
  consumes_eat .pure (consumes_bound (consumes_paramsFrom []))

theorem eats_arrowParams? : Eats 0 arrowParams? := by
  refine fun m => .get fun c => ?_
  split
  · split
    · exact Consumes.pure c
    · exact ((eats_advance _).bind fun _ => (eats_advance _).bind fun _ => .pure) c
  · split
    · exact ((eats_advance _).bind fun _ => (eats_params _).bind fun _ =>
        (eats_expect _ _).bind fun _ => .pure) c
    · exact Consumes.pure c
  · exact Consumes.pure c

theorem eats_entryKey : Eats 1 entryKey := by
  refine fun m => .get fun c => ?_
  have htoken {l : Lexeme} (heq : c.lexeme = l) (hl : l ≠ .finish) : ConsumesAt c m 0 1 advance :=
    consumesAt_advance (by rwa [heq])
  dsimp only
  split
  · next heq => exact (htoken heq (by simp)).bind fun _ => .pure
  · next heq => exact (htoken heq (by simp)).bind fun _ => .pure
  · next heq => exact (htoken heq (by simp)).bind fun _ => .pure
  · exact ((eats_advance _).bind fun _ => consumes_fail) c

theorem patternFlags_error {letters : List Char} {fault : SourceFault}
    (herror : patternFlags letters = .error fault) : ∃ c, fault = .unsupportedFlag c := by
  induction letters with
  | nil => cases herror
  | cons c rest ih =>
    unfold patternFlags at herror
    split at herror
    · cases hrest : patternFlags rest with
      | ok flags =>
        rw [hrest] at herror
        cases herror
      | error f =>
        rw [hrest] at herror
        cases herror
        exact ih hrest
    split at herror
    · exact ih herror
    · cases herror
      exact ⟨c, rfl⟩

theorem searcherOf_error {library : Regex.Library} {body flags : String} {fault : SourceFault}
    (herror : searcherOf library body flags = .error fault) : fault ≠ .stalled := by
  unfold searcherOf at herror
  split at herror
  · next hflags =>
    cases herror
    obtain ⟨c, rfl⟩ := patternFlags_error hflags
    simp
  · dsimp only at herror
    split at herror
    · cases herror
    · cases herror
      simp

theorem eats_pattern (offset : Nat) (body flags : String) : Eats 0 (pattern offset body flags) := by
  intro m
  unfold pattern
  split
  · next hfault => exact consumes_throw (Error.not_isStall (searcherOf_error hfault))
  · refine .get fun c hc => ?_
    let counted (c' : Cursor) : Cursor := { c' with patterns := c.patterns + 1 }
    have hbounds : (counted c).InBounds := ⟨hc.ended, hc.inBounds.depth_le⟩
    refine (walks_modify (g := counted) hc.inBounds (.number _) hbounds).bind ?_
    rintro _ _ rfl
    exact .pure hbounds ⟨hc.ended, List.suffix_rfl, Nat.le_refl _, rfl⟩

end Rules

end Production

end TraceViewer.Snippet
