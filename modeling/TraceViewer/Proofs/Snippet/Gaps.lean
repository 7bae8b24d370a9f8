import TraceViewer.Proofs.Snippet.TokenTexts

/-!
# Between tokens

What stands between two tokens is made of blanks and comments, and it is all of this that stands
there (`skipTrivia_eq_ok_iff`).  The tokens of a source are then a matter of texts alone: a gap, the
text of a token, a gap and so on (`tokenize_eq_ok_iff`).
-/

namespace TraceViewer.Snippet

open TraceViewer.Text

variable {last : Bool} {gap inside rest cs ds : List Char} {p q r : Place}

/-! ## 1. Comments -/

theorem not_infix_of_cutAt? {needle before after : List Char} (hne : needle ≠ [])
    (h : cutAt? needle cs = some (before, after)) : ¬needle <:+: before := by
  induction cs generalizing before with
  | nil =>
    unfold cutAt? at h
    rw [if_neg (by rwa [List.isEmpty_iff])] at h
    cases h
  | cons c cs ih =>
    unfold cutAt? at h
    split at h
    · cases h
      rwa [List.infix_nil]
    · next hstrip =>
      obtain ⟨⟨before', after'⟩, hcut, heq⟩ := Option.map_eq_some_iff.mp h
      cases heq
      rw [List.infix_cons_iff, not_or]
      refine ⟨?_, ih hcut⟩
      rintro ⟨tail, htail⟩
      have hcs := eq_of_cutAt? hcut
      have hstart : c :: cs = needle ++ (tail ++ (needle ++ after')) := by
        rw [← List.append_assoc, htail, hcs, List.append_assoc]
        rfl
      rw [stripStart?_eq_some_iff.mpr hstart] at hstrip
      cases hstrip

/-- A comment ends where its end mark stands first. -/
theorem cutAt?_comment (h : ¬['*', '/'] <:+: inside) (rest : List Char) :
    cutAt? ['*', '/'] (inside ++ '*' :: '/' :: rest) = some (inside, rest) := by
  induction inside with
  | nil => rfl
  | cons c inside ih =>
    rw [List.infix_cons_iff, not_or] at h
    have hstrip : stripStart? ['*', '/'] (c :: (inside ++ '*' :: '/' :: rest)) = none := by
      rw [Option.eq_none_iff_forall_ne_some]
      intro after hafter
      obtain ⟨rfl, htail⟩ := List.cons.inj (stripStart?_eq_some_iff.mp hafter)
      cases inside with
      | nil => cases htail
      | cons d inside =>
        have hd : d = '/' := (List.cons.inj htail).1
        exact h.1 ⟨inside, by rw [hd]; rfl⟩
    rw [List.cons_append, cutAt?, hstrip]
    dsimp only
    rw [ih h.2]
    rfl

theorem skipLine_append (h : '\n' ∉ inside) (offset : Nat) (rest : List Char) :
    skipLine offset (inside ++ rest) = skipLine (offset + byteLength inside) rest := by
  induction inside generalizing offset with
  | nil => rfl
  | cons c inside ih =>
    rw [List.mem_cons, not_or] at h
    rw [List.cons_append, skipLine, if_neg (by simpa using Ne.symm h.1), ih h.2, byteLength,
      Nat.add_assoc]

theorem skipLine_newline (h : '\n' ∉ inside) (offset : Nat) (rest : List Char) :
    skipLine offset (inside ++ '\n' :: rest) = ⟨offset + byteLength inside, '\n' :: rest⟩ :=
  (skipLine_append h offset _).trans (if_pos rfl)

theorem skipLine_last (h : '\n' ∉ inside) (offset : Nat) :
    skipLine offset inside = ⟨offset + byteLength inside, []⟩ := by
  have hskip := skipLine_append h offset []
  rwa [List.append_nil] at hskip

/-! ## 2. Gaps -/

/-- Blanks and comments.  Only what comes last in a source may end within the line of a comment. -/
inductive IsGap (last : Bool) : List Char → Prop
  | nil : IsGap last []
  | blank {c : Char} {cs : List Char} (h : isBlank c = true) (later : IsGap last cs) :
    IsGap last (c :: cs)
  | line {inside cs : List Char} (h : '\n' ∉ inside) (later : IsGap last ('\n' :: cs)) :
    IsGap last ('/' :: '/' :: (inside ++ '\n' :: cs))
  | lastLine {inside : List Char} (hlast : last = true) (h : '\n' ∉ inside) :
    IsGap last ('/' :: '/' :: inside)
  | block {inside cs : List Char} (h : ¬['*', '/'] <:+: inside) (later : IsGap last cs) :
    IsGap last ('/' :: '*' :: (inside ++ '*' :: '/' :: cs))

/-- Neither a blank nor a comment begins here. -/
structure Stops (cs : List Char) : Prop where
  blank : ∀ c ∈ cs.head?, isBlank c = false
  line : ¬['/', '/'] <+: cs
  block : ¬['/', '*'] <+: cs

theorem stops_nil : Stops [] := ⟨nofun, by simp, by simp⟩

theorem skipTrivia_of_stops (h : Stops p.rest) : skipTrivia p = .ok p := by
  unfold skipTrivia
  split
  · next rest hrest => exact absurd ⟨rest, hrest.symm⟩ h.line
  · next rest hrest => exact absurd ⟨rest, hrest.symm⟩ h.block
  · next c rest _ _ hrest =>
    have hblank := h.blank c (by rw [hrest]; rfl)
    rw [if_neg (by rw [hblank]; exact Bool.false_ne_true)]
  · rfl

/-- A gap leads from one place to another, and ends there. -/
structure Skips (p q : Place) (gap : List Char) : Prop where
  spans : p.Spans q gap
  isGap : IsGap q.rest.isEmpty gap
  stops : Stops q.rest

theorem stops_of_not_comment {c : Char} {cs : List Char} (hblank : isBlank c = false)
    (hline : ∀ rest, c = '/' → cs ≠ '/' :: rest) (hblock : ∀ rest, c = '/' → cs ≠ '*' :: rest) :
    Stops (c :: cs) where
  blank := by
    rintro _ ⟨⟩
    exact hblank
  line := fun ⟨rest, hrest⟩ =>
    hline rest (List.cons.inj hrest).1.symm (List.cons.inj hrest).2.symm
  block := fun ⟨rest, hrest⟩ =>
    hblock rest (List.cons.inj hrest).1.symm (List.cons.inj hrest).2.symm

/-- A comment to the end of its line before what is skipped behind it. -/
theorem Skips.behind_line (hrest : p.rest = '/' :: '/' :: rest)
    (h : Skips (skipLine (p.offset + 2) rest) q gap) : ∃ gap, Skips p q gap := by
  obtain ⟨hspans, hgap, hstops⟩ := h
  by_cases hline : '\n' ∈ rest
  · obtain ⟨inside, after, rfl, hinside⟩ := List.eq_append_cons_of_mem hline
    rw [skipLine_newline hinside] at hspans
    have hcomment : Place.Spans ⟨p.offset + 2, inside ++ '\n' :: after⟩
        ⟨p.offset + 2 + byteLength inside, '\n' :: after⟩ inside := ⟨rfl, rfl⟩
    cases gap with
    | nil =>
      -- the line has not ended here
      have hblank := hstops.blank '\n' (by rw [← List.nil_append q.rest, ← hspans.rest]; rfl)
      cases hblank
    | cons c gap =>
      obtain ⟨rfl, -⟩ := List.cons.inj hspans.rest
      exact ⟨_, .cons hrest (.cons rfl (hcomment.append hspans)), .line hinside hgap, hstops⟩
  · rw [skipLine_last hline] at hspans
    obtain ⟨hgap', hend⟩ := List.append_eq_nil_iff.mp hspans.rest.symm
    subst hgap'
    have hcomment : Place.Spans ⟨p.offset + 2, rest⟩ ⟨p.offset + 2 + byteLength rest, []⟩ rest :=
      ⟨(List.append_nil rest).symm, rfl⟩
    refine ⟨_, .cons hrest (.cons rfl (hcomment.append hspans)), ?_, hstops⟩
    rw [hend, List.append_nil]
    exact .lastLine rfl hline

/-- What is skipped is a gap, and all of it. -/
theorem skips_of_skipTrivia (h : skipTrivia p = .ok q) : ∃ gap, Skips p q gap := by
  fun_induction skipTrivia p with
  | case1 p rest hrest _ ih =>
    obtain ⟨gap, hskips⟩ := ih h
    exact hskips.behind_line hrest
  | case2 p rest hrest inside after hcut _ ih =>
    obtain ⟨gap, hspans, hgap, hstops⟩ := ih h
    refine ⟨_, .cons hrest (.cons rfl ((spans_comment hcut).append hspans)), ?_, hstops⟩
    rw [List.append_assoc]
    exact .block (not_infix_of_cutAt? (List.cons_ne_nil _ _) hcut) hgap
  | case3 => cases h
  | case4 p c rest _ _ hrest hblank _ ih =>
    obtain ⟨gap, hspans, hgap, hstops⟩ := ih h
    exact ⟨c :: gap, .cons hrest hspans, .blank hblank hgap, hstops⟩
  | case5 p c rest hline hblock hrest hblank =>
    cases h
    refine ⟨[], .nil _, .nil, ?_⟩
    rw [hrest]
    exact stops_of_not_comment (Bool.not_eq_true _ |>.mp hblank) hline hblock
  | case6 p hrest =>
    cases h
    refine ⟨[], .nil _, .nil, ?_⟩
    rw [hrest]
    exact stops_nil

theorem skipTrivia_line (offset : Nat) (rest : List Char) :
    skipTrivia ⟨offset, '/' :: '/' :: rest⟩ = skipTrivia (skipLine (offset + 2) rest) := by
  rw [skipTrivia]
  rfl

theorem skipTrivia_block (h : ¬['*', '/'] <:+: inside) (offset : Nat) (rest : List Char) :
    skipTrivia ⟨offset, '/' :: '*' :: (inside ++ '*' :: '/' :: rest)⟩ =
      skipTrivia ⟨offset + byteLength inside + 4, rest⟩ := by
  rw [skipTrivia]
  split
  · next heq => cases heq
  · next heq =>
    obtain ⟨-, rfl⟩ := List.cons.inj (List.cons.inj heq).2
    split
    · next hcut =>
      cases (cutAt?_comment h rest).symm.trans hcut
      rfl
    · next hcut => cases (cutAt?_comment h rest).symm.trans hcut
  · next hblock heq =>
    obtain ⟨rfl, rfl⟩ := List.cons.inj heq
    exact absurd rfl (hblock _ rfl)
  · next heq => cases heq

/-- A gap is skipped.  What may end within the line of a comment is skipped only at the end. -/
theorem skipTrivia_append (h : IsGap last gap) (hlast : last = true → rest = []) (offset : Nat) :
    skipTrivia ⟨offset, gap ++ rest⟩ = skipTrivia ⟨offset + byteLength gap, rest⟩ := by
  have hmark (c : Char) (hc : c.utf8Size = 1) (cs : List Char) :
      byteLength ('/' :: c :: cs) = 2 + byteLength cs := by
    rw [byteLength, byteLength, hc, ← Nat.add_assoc]
    rfl
  induction h generalizing offset with
  | nil => rfl
  | blank hblank later ih =>
    rw [List.cons_append, skipTrivia_isBlank hblank, ih, byteLength, Nat.add_assoc]
  | @line inside cs hline later ih =>
    have hskip := ih (offset + 2 + byteLength inside)
    rw [List.cons_append] at hskip
    rw [List.cons_append, List.cons_append, List.append_assoc, List.cons_append, skipTrivia_line,
      skipLine_newline hline, hskip, hmark '/' rfl, byteLength_append, ← Nat.add_assoc,
      ← Nat.add_assoc]
  | @lastLine inside hend hline =>
    rw [hlast hend, List.append_nil, skipTrivia_line, skipLine_last hline, hmark '/' rfl,
      Nat.add_assoc]
  | @block inside cs hinside later ih =>
    have hend : byteLength ('*' :: '/' :: cs) = 2 + byteLength cs := by
      rw [byteLength, byteLength, ← Nat.add_assoc]
      rfl
    have hplace : offset + byteLength inside + 4 + byteLength cs =
        offset + (2 + (byteLength inside + (2 + byteLength cs))) := by omega
    rw [List.cons_append, List.cons_append, List.append_assoc, List.cons_append, List.cons_append,
      skipTrivia_block hinside, ih, hmark '*' rfl, byteLength_append, hend, hplace]

theorem skipTrivia_of_skips (h : Skips p q gap) : skipTrivia p = .ok q := by
  have hp : p = ⟨p.offset, gap ++ q.rest⟩ := by rw [← h.spans.rest]
  have hlast : q.rest.isEmpty = true → q.rest = [] := List.isEmpty_iff.mp
  rw [hp, skipTrivia_append h.isGap hlast, ← h.spans.offset]
  exact skipTrivia_of_stops h.stops

theorem skipTrivia_eq_ok_iff : skipTrivia p = .ok q ↔ ∃ gap, Skips p q gap :=
  ⟨skips_of_skipTrivia, fun ⟨_, h⟩ => skipTrivia_of_skips h⟩

/-! ## 3. The tokens of a source -/

/-- The tokens that are read from a place on, `previous` being the one before it. -/
inductive Lexes : Option Lexeme → Place → List Token → Prop
  | finish {previous : Option Lexeme} {p q : Place} {gap : List Char} (hgap : Skips p q gap)
    (hend : q.rest = []) : Lexes previous p [⟨.finish, q.offset⟩]
  | token {previous : Option Lexeme} {p q r : Place} {gap rest : List Char} {c : Char}
    {l : Lexeme} {ts : List Token} (hgap : Skips p q gap) (hstart : q.rest = c :: rest)
    (hread : lexemeAt previous c q = .ok (l, r)) (later : Lexes (some l) r ts) :
    Lexes previous p (⟨l, q.offset⟩ :: ts)

variable {bound : Nat} {acc us ts : List Token} {previous : Option Lexeme}

theorem lexemeAt_eq {c : Char} (h : p.rest = c :: rest) :
    lexemeAt previous c p = readLexeme previous p c rest.head? := by
  unfold lexemeAt
  rw [h, List.drop_one, List.tail_cons]

theorem takes_of_lexemeAt {c : Char} {l : Lexeme} (hp : p.rest = c :: rest)
    (h : lexemeAt previous c p = .ok (l, q)) :
    ∃ cs, TakesText (lexemeAt previous c) p q l (c :: cs) := by
  rw [lexemeAt_eq hp] at h
  exact readLexeme_takes hp h

/-- A token takes a character at least. -/
theorem length_lt_of_read {c : Char} {l : Lexeme} (hgap : Skips p q gap)
    (hstart : q.rest = c :: rest) (hread : lexemeAt previous c q = .ok (l, r)) :
    r.rest.length < p.rest.length := by
  obtain ⟨cs, htext⟩ := takes_of_lexemeAt hstart hread
  have hp := congrArg List.length hgap.spans.rest
  have hq := congrArg List.length htext.spans.rest
  rw [List.length_append] at hp hq
  rw [List.length_cons] at hq
  omega

theorem lexes_of_tokensFrom (hbound : p.rest.length < bound)
    (h : tokensFrom bound acc p = .ok ts) :
    ∃ us, ts = acc.reverse ++ us ∧ Lexes (acc.head?.map Token.lexeme) p us := by
  induction bound generalizing acc p with
  | zero => cases hbound
  | succ bound ih =>
    unfold tokensFrom at h
    split at h
    · cases h
    next q hskip =>
    obtain ⟨gap, hgap⟩ := skips_of_skipTrivia hskip
    split at h
    · next hend =>
      cases h
      exact ⟨_, List.reverse_cons .., .finish hgap hend⟩
    · next c rest hstart =>
      split at h
      · cases h
      · next l r hread =>
        rw [← lexemeAt_eq hstart] at hread
        have hlength := length_lt_of_read hgap hstart hread
        obtain ⟨us, rfl, hus⟩ := ih (by omega) h
        refine ⟨_, ?_, .token hgap hstart hread hus⟩
        rw [List.reverse_cons, List.append_assoc]
        rfl

theorem tokensFrom_of_lexes (hbound : p.rest.length < bound) (h : Lexes previous p us)
    (hprevious : acc.head?.map Token.lexeme = previous) :
    tokensFrom bound acc p = .ok (acc.reverse ++ us) := by
  induction h generalizing bound acc with
  | finish hgap hend =>
    obtain ⟨bound, rfl⟩ := Nat.exists_eq_add_one.mpr (Nat.zero_lt_of_lt hbound)
    rw [tokensFrom, skipTrivia_of_skips hgap]
    dsimp only
    rw [hend, List.reverse_cons]
  | @token previous p q r gap rest c l ts hgap hstart hread later ih =>
    obtain ⟨bound, rfl⟩ := Nat.exists_eq_add_one.mpr (Nat.zero_lt_of_lt hbound)
    have hlength := length_lt_of_read hgap hstart hread
    rw [lexemeAt_eq hstart] at hread
    rw [tokensFrom, skipTrivia_of_skips hgap]
    dsimp only
    rw [hstart]
    dsimp only
    rw [hprevious, hread]
    dsimp only
    rw [ih (by omega) rfl, List.reverse_cons, List.append_assoc]
    rfl

theorem tokenize_eq_ok_iff {source : String} :
    tokenize source = .ok ts ↔ Lexes none (Place.ofText source) ts := by
  have hbound := Nat.lt_succ_self (Place.ofText source).rest.length
  constructor
  · intro h
    obtain ⟨us, rfl, hus⟩ := lexes_of_tokensFrom hbound h
    exact hus
  · intro h
    exact tokensFrom_of_lexes hbound h rfl

end TraceViewer.Snippet
