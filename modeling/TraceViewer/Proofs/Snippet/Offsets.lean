import TraceViewer.Proofs.Snippet.Holes
import TraceViewer.Proofs.Snippet.Moving

/-!
# Where errors in templates point

An expression that is put into a template fails as it does on its own, three bytes further back,
unless it now misses a level (`readExpr_holeText_offset`).  This leaves out the errors of the holes
that it has itself: the offset of a hole counts from the start of the source that has it, and such
an error keeps the offset that it has in the expression (`readExpr_holeText_error`).
-/

namespace TraceViewer.Snippet

open TraceViewer.Text

/-! ## 1. Parts of a source text -/

/-- The offset and the message of a syntax error. -/
def syntaxError? {α : Type} : Except Error α → Option (Nat × String)
  | .error (.badSource offset fault) => some (offset, fault.message)
  | _ => none

/-- The tokens of a source text, if it has any. -/
def tokensOf (source : String) : List Token :=
  match tokenize source with
  | .ok tokens => tokens
  | .error _ => []

def holesIn (source : String) : List Hole := (tokensOf source).flatMap fun t => t.lexeme.holes

def hasSemicolon (source : String) : Bool :=
  (tokensOf source).any fun t => t.lexeme matches .punct .semicolon

/-- Reads the source of a hole as if it did not stand in a template. -/
def readHole (source : String) : Except Error Expr :=
  Production.onSource (Production.alone Production.top) source

/-! ## 2. Holes on their own -/

namespace Production

theorem onSource_of_error {α : Type} {p : Production α} {source : String} {e : Error}
    (h : tokenize source = .error e) : onSource p source = .error e := by
  unfold onSource
  rw [h]

theorem onSource_eq_error {α : Type} {p : Production α} {source : String} {tokens : List Token}
    {e : Error} (h : tokenize source = .ok tokens) :
    onSource p source = .error e ↔ ∃ c, p ⟨tokens, 0, 0⟩ = .error e c := by
  unfold onSource EStateM.run
  rw [h]
  dsimp only
  cases p ⟨tokens, 0, 0⟩ with
  | ok => simp
  | error e' c => simp

/-- What makes a hole fail makes its source fail, unless it is the limit of the nesting. -/
theorem readHole_of_hole_error {n : Nat} {h : Hole} {c c' : Cursor} {e : Error}
    (herror : hole (level n) h c = .error e c') : e.IsTooDeep ∨
      ∃ e₀, readHole h.source = .error e₀ ∧ (e = shiftError h.offset e₀ ∨ e = e₀) := by
  cases htokens : tokenize h.source with
  | error e₀ =>
    rw [hole_of_error _ _ htokens] at herror
    cases herror
    exact .inr ⟨e₀, onSource_of_error htokens, .inl rfl⟩
  | ok tokens =>
    rw [hole_of_tokens _ _ htokens] at herror
    have hcursors : (Move.free h.offset).Cursors maxSourceNesting ⟨tokens, 0, 0⟩
        { c with tokens := tokens.map (Token.shifted h.offset) } :=
      ⟨rfl, tokenize_ne_nil htokens, fun _ _ => trivial, Nat.zero_add _, Nat.zero_le _⟩
    -- the source on its own is the first run, for it has all levels left
    have hout := follows_alone (keepsPace_level (Nat.lt_succ_self maxSourceNesting) n) _ _ hcursors
    generalize hleft : alone (level (maxSourceNesting + 1)) _ = r at hout
    generalize alone (level n) _ = r' at hout herror
    cases hout with
    | tooDeep he =>
      cases herror
      exact .inl he
    | ok => cases herror
    | moves =>
      cases herror
      exact .inr ⟨_, (onSource_eq_error htokens).mpr ⟨_, hleft⟩, .inl rfl⟩
    | stays =>
      cases herror
      exact .inr ⟨_, (onSource_eq_error htokens).mpr ⟨_, hleft⟩, .inr rfl⟩

/-! ## 3. A template around a hole -/

/-- From the cursor the production fails with the error. -/
def FailsAt {α : Type} (c : Cursor) (e : Error) (p : Production α) : Prop := ∃ c', p c = .error e c'

section FailsAt

variable {α β : Type} {c : Cursor} {e : Error} {p : Production α} {f : α → Production β}

theorem FailsAt.bind (h : FailsAt c e p) : FailsAt c e (p >>= f) := by
  obtain ⟨c', h⟩ := h
  refine ⟨c', ?_⟩
  show EStateM.bind p f c = _
  unfold EStateM.bind
  rw [h]

theorem FailsAt.andThen {a : α} {c₁ : Cursor} (h : p c = .ok a c₁) (hf : FailsAt c₁ e (f a)) :
    FailsAt c e (p >>= f) := by
  obtain ⟨c', hf⟩ := hf
  refine ⟨c', ?_⟩
  show EStateM.bind p f c = _
  unfold EStateM.bind
  rw [h]
  exact hf

theorem FailsAt.get {f : Cursor → Production β} (hf : FailsAt c e (f c)) :
    FailsAt c e (get >>= f) := .andThen rfl hf

theorem FailsAt.nested (hdepth : c.depth < maxSourceNesting)
    (h : FailsAt { c with depth := c.depth + 1 } e p) : FailsAt c e (nested p) := by
  obtain ⟨c', h⟩ := h.bind
  refine ⟨c', ?_⟩
  unfold Production.nested
  rw [descend_bind, if_neg (by omega)]
  exact h

end FailsAt

section Template

variable {c : Cursor} {parts : List String} {hs : List Hole} {n : Nat} {e : Error}

theorem get_bind {α : Type} (f : Cursor → Production α) (c : Cursor) : (get >>= f) c = f c c := rfl

theorem arrowParams?_of_template (hc : c.lexeme = .template parts hs) :
    arrowParams? c = .ok none c := by
  unfold arrowParams?
  rw [get_bind, hc]
  rfl

theorem failsAt_primary (hc : c.lexeme = .template parts hs)
    (h : FailsAt c.advance e (holes (level n) hs)) : FailsAt c e (primary (level n)) := by
  refine .get (.andThen rfl ?_)
  rw [hc]
  exact h.bind

theorem failsAt_unaryLevel (hc : c.lexeme = .template parts hs)
    (h : FailsAt c.advance e (holes (level n) hs)) : FailsAt c e (unaryLevel (level n)) := by
  have hpunct (p : Punct) : c.atPunct p = false := by
    unfold Cursor.atPunct
    rw [hc]
  refine .get ?_
  rw [hpunct, hpunct, hc]
  exact (failsAt_primary hc h).bind

theorem failsAt_assignmentLevel {operand : Level} (hc : c.lexeme = .template parts hs)
    (h : FailsAt c e operand.unary) : FailsAt c e (assignmentLevel operand) := by
  refine .andThen (arrowParams?_of_template hc) (FailsAt.bind ?_)
  -- the six ranks of operators, each of which starts with an operand of the next
  exact h.bind.bind.bind.bind.bind.bind.bind

/-- A template that an expression starts with fails with its first hole. -/
theorem failsAt_assignment (hc : c.lexeme = .template parts hs)
    (hdepth : c.depth + 1 < maxSourceNesting)
    (h : FailsAt { c with depth := c.depth + 2 }.advance e (holes (level n) hs)) :
    FailsAt c e (level (n + 2)).assignment :=
  .nested (by omega) (failsAt_assignmentLevel hc (.nested hdepth (failsAt_unaryLevel hc h)))

end Template

end Production

/-! ## 4. Expressions in templates -/

variable {source : String}

/-- How the hole around an expression fails decides how the template fails. -/
theorem readExpr_holeText_of_hole (hfills : FillsHole source) {e : Error}
    (h : Production.FailsAt ⟨[⟨.finish, byteLength source.toList + 5⟩], 2, 0⟩ e
      (Production.hole (Production.level 127) ⟨3, source⟩)) :
    readExpr (holeText source) = .error e := by
  refine (Production.onSource_eq_error hfills).mpr (Production.FailsAt.bind ?_)
  exact Production.failsAt_assignment rfl (show 0 + 1 < maxSourceNesting by decide) h.bind

/-- The errors with which the holes of a source text fail, where they end up in a run on it. -/
def FromHole (source : String) (e : Error) : Prop :=
  ∃ h ∈ holesIn source, ∃ e₀, readHole h.source = .error e₀ ∧
    (e = Production.shiftError h.offset e₀ ∨ e = e₀)

theorem tokensOf_eq {tokens : List Token} (h : tokenize source = .ok tokens) :
    tokensOf source = tokens := by
  unfold tokensOf
  rw [h]

/-- Two runs on the tokens of a source text, the second one `shift` bytes further back. -/
def Move.inside (source : String) (shift : Nat) : Move where
  shift := shift
  meets t := t ∈ tokensOf source
  stays := FromHole source
  fails_of_meets := by
    intro t ht h hh n c e c' herror
    obtain hdeep | ⟨e₀, he₀, he⟩ := Production.readHole_of_hole_error herror
    · exact .inl hdeep
    · exact .inr ⟨h, List.mem_flatMap_of_mem ht hh, e₀, he₀, he⟩

theorem Production.skipSemicolon_of_not {c : Cursor} (h : c.atPunct .semicolon = false) :
    skipSemicolon c = .ok () c := by
  have heat : eat .semicolon c = .ok false c := by
    show (if c.atPunct .semicolon = true then (do
        advance
        return true) else (return false : Production Bool)) c = _
    rw [h]
    rfl
  show EStateM.bind (eat .semicolon) (fun _ => pure ()) c = _
  unfold EStateM.bind
  rw [heat]
  rfl

theorem Move.Cursors.atSemicolon {shift k : Nat} {c c' : Cursor}
    (h : (Move.inside source shift).Cursors k c c') (hsemicolon : hasSemicolon source = false) :
    c.atPunct .semicolon = false := by
  obtain ⟨t, ts, ht, hts, -⟩ := h.exists_cons
  have hnot := List.any_eq_false.mp hsemicolon t ht
  unfold Cursor.atPunct Cursor.lexeme
  rw [hts]
  grind

/-- A text without a semicolon is read in a hole as it is read on its own. -/
theorem follows_readExpr (hsemicolon : hasSemicolon source = false) (shift m : Nat) :
    (Move.inside source shift).Follows maxSourceNesting maxSourceNesting SameName
      (do
        let e ← Production.top.assignment
        Production.skipSemicolon
        Production.expectEnd
        return e)
      (Production.alone (Production.level m)) := by
  have hlevels := Production.keepsPace_level (Nat.lt_succ_self maxSourceNesting) m
  refine (Production.follows_assignment hlevels).bind fun e e' he => ?_
  intro c c' hc
  have hskip := Production.skipSemicolon_of_not (hc.atSemicolon hsemicolon)
  show Move.Outcomes _ _ _ (EStateM.bind Production.skipSemicolon (fun _ => do
    Production.expectEnd
    return e) c) _
  unfold EStateM.bind
  rw [hskip]
  exact (Production.follows_expectEnd.bindSame fun _ => .pure he) c c' hc

/-- An expression fails in a template as on its own, further back by the template's head, where it
does not miss a level or fails in a hole of its own. -/
theorem readExpr_holeText_error (hfills : FillsHole source)
    (hsemicolon : hasSemicolon source = false) {e : Error} (h : readExpr source = .error e) :
    ∃ e', readExpr (holeText source) = .error e' ∧
      (e'.IsTooDeep ∨ e' = Production.shiftError 3 e ∨ e' = e ∧ FromHole source e) := by
  cases htokens : tokenize source with
  | error e₀ =>
    -- errors of the scanner are moved after the fact
    obtain rfl : e₀ = e := Except.error.inj ((Production.onSource_of_error htokens).symm.trans h)
    have hhole := Production.hole_of_error (Production.level 127) ⟨3, source⟩ htokens
      ⟨[⟨.finish, byteLength source.toList + 5⟩], 2, 0⟩
    exact ⟨_, readExpr_holeText_of_hole hfills ⟨_, hhole⟩, .inr (.inl rfl)⟩
  | ok tokens =>
    obtain ⟨c, hrun⟩ := (Production.onSource_eq_error htokens).mp h
    have hcursors : (Move.inside source 3).Cursors maxSourceNesting ⟨tokens, 0, 0⟩
        ⟨tokens.map (Token.shifted 3), 2, 0⟩ := by
      refine ⟨rfl, Production.tokenize_ne_nil htokens, fun t ht => ?_, Nat.zero_add _,
        Nat.zero_le _⟩
      show t ∈ tokensOf source
      rwa [tokensOf_eq htokens]
    -- the template and its operand take a level each, so two are missing in the hole
    have hout := follows_readExpr hsemicolon 3 127 _ _ hcursors
    have hhole := Production.hole_of_tokens (Production.level 127) ⟨3, source⟩ htokens
      ⟨[⟨.finish, byteLength source.toList + 5⟩], 2, 0⟩
    rw [hrun] at hout
    generalize Production.alone (Production.level 127) _ = r' at hout hhole
    cases hout with
    | tooDeep he => exact ⟨_, readExpr_holeText_of_hole hfills ⟨_, hhole⟩, .inl he⟩
    | moves => exact ⟨_, readExpr_holeText_of_hole hfills ⟨_, hhole⟩, .inr (.inl rfl)⟩
    | stays hs => exact ⟨_, readExpr_holeText_of_hole hfills ⟨_, hhole⟩, .inr (.inr ⟨rfl, hs⟩)⟩

theorem syntaxError?_eq_some {α : Type} {r : Except Error α} {p : Nat} {m : String} :
    syntaxError? r = some (p, m) ↔ ∃ f, r = .error (.badSource p f) ∧ f.message = m := by
  unfold syntaxError?
  constructor
  · intro h
    split at h
    · cases h
      exact ⟨_, rfl, rfl⟩
    · cases h
  · rintro ⟨f, rfl, rfl⟩
    rfl

theorem syntaxError?_of_fromHole {p : Nat} {f : SourceFault}
    (h : FromHole source (.badSource p f)) :
    ∃ hole ∈ holesIn source, ∃ n, syntaxError? (readHole hole.source) = some (n, f.message) := by
  obtain ⟨hole, hmem, e₀, hread, he⟩ := h
  refine ⟨hole, hmem, ?_⟩
  rw [hread]
  cases e₀ with
  | badSource n g =>
    refine ⟨n, ?_⟩
    obtain he | he := he
    · cases he
      rfl
    · cases he
      rfl
  | _ => simp [Production.shiftError] at he

/-- The message is the same, at the offset in the whole text. -/
theorem readExpr_holeText_offset (hfills : FillsHole source)
    (hsemicolon : hasSemicolon source = false) {p : Nat} {m : String}
    (hread : syntaxError? (readExpr source) = some (p, m))
    (hholes : ∀ h ∈ holesIn source, ∀ n, syntaxError? (readHole h.source) ≠ some (n, m)) :
    syntaxError? (readExpr (holeText source)) = some (p + 3, m) ∨
      ∃ n, syntaxError? (readExpr (holeText source)) =
        some (n, SourceFault.tooDeep.message) := by
  obtain ⟨f, hf, rfl⟩ := syntaxError?_eq_some.mp hread
  obtain ⟨e, he, ⟨n, rfl⟩ | rfl | ⟨rfl, hhole⟩⟩ := readExpr_holeText_error hfills hsemicolon hf
  · right
    exact ⟨n, syntaxError?_eq_some.mpr ⟨_, he, rfl⟩⟩
  · left
    exact syntaxError?_eq_some.mpr ⟨f, he, rfl⟩
  · -- an error that stays is the error of a hole
    obtain ⟨hole, hmem, n, hn⟩ := syntaxError?_of_fromHole hhole
    exact absurd hn (hholes hole hmem n)

/-- A sum that lacks an operand behind a template. -/
def unfinishedSum : String := "\x60$\x7bx\x7d\x60 +"

theorem readExpr_holeText_unfinishedSum :
    syntaxError? (readExpr unfinishedSum) =
        some (8, "expected an expression, found end of input") ∧
      (syntaxError? (readExpr (holeText unfinishedSum)) =
          some (11, "expected an expression, found end of input") ∨
        ∃ n, syntaxError? (readExpr (holeText unfinishedSum)) =
          some (n, SourceFault.tooDeep.message)) := by
  have hread : syntaxError? (readExpr unfinishedSum) =
      some (8, "expected an expression, found end of input") := by decide +kernel
  have hholes : holesIn unfinishedSum = [⟨3, "x"⟩] := by decide +kernel
  refine ⟨hread, readExpr_holeText_offset (by decide +kernel) (by decide +kernel) hread ?_⟩
  intro h hh n
  rw [hholes, List.mem_singleton] at hh
  have hname : syntaxError? (readHole "x") = none := by decide +kernel
  rw [hh, hname]
  exact (Option.some_ne_none _).symm

def unfinishedHole : String := "\x60$\x7bx +\x7d\x60"

/-- The offset of a hole in a hole stays as it was. -/
theorem not_readExpr_holeText_offset : ¬∀ (source : String) (p : Nat) (m : String),
    FillsHole source → hasSemicolon source = false →
      syntaxError? (readExpr source) = some (p, m) →
        syntaxError? (readExpr (holeText source)) = some (p + 3, m) ∨
          ∃ n, syntaxError? (readExpr (holeText source)) =
            some (n, SourceFault.tooDeep.message) := by
  intro h
  have hwrapped : syntaxError? (readExpr (holeText unfinishedHole)) =
      some (6, "expected an expression, found end of input") := by decide +kernel
  obtain hmoved | ⟨n, hdeep⟩ := h unfinishedHole 6 "expected an expression, found end of input"
    (by decide +kernel) (by decide +kernel) (by decide +kernel)
  · rw [hwrapped] at hmoved
    exact absurd hmoved (by decide)
  · rw [hwrapped] at hdeep
    exact absurd (Prod.mk.inj (Option.some.inj hdeep)).2 (by decide +kernel)

end TraceViewer.Snippet
