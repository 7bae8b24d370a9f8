import TraceViewer.Proofs.Snippet.Gaps

/-!
# White space between tokens

A space before a token changes nothing but the places of this token and of those behind it
(`tokenize_spaced`).  Tokens behind the space are read as before, farther on; tokens before it are
read from the same texts, before a wider rest.
-/

namespace TraceViewer.Snippet

open TraceViewer.Text

variable {previous previous' : Option Lexeme} {p q r : Place} {l : Lexeme} {c : Char}
  {cs ds gap rest : List Char} {before after ts : List Token} {t : Token} {n : Nat}

/-! ## 1. Tokens farther on -/

/-- The same token farther on in a text, with the substitutions in it. -/
def Token.moved (n : Nat) (t : Token) : Token := ⟨t.lexeme.moved n, t.offset + n⟩

def Place.moved (n : Nat) (p : Place) : Place := ⟨p.offset + n, p.rest⟩

theorem Hole.moved_zero (h : Hole) : h.moved 0 = h := rfl

theorem Lexeme.moved_zero (l : Lexeme) : l.moved 0 = l := by
  cases l with
  | template parts holes => exact congrArg (Lexeme.template parts) (List.map_id holes)
  | _ => rfl

theorem Lexeme.allowsPattern_moved (n : Nat) (l : Lexeme) :
    (l.moved n).allowsPattern = l.allowsPattern := by
  cases l <;> rfl

/-- Of the token before only this counts: whether a regular expression may follow it. -/
theorem lexemeAt_congr (h : previous.all Lexeme.allowsPattern = previous'.all Lexeme.allowsPattern)
    (c : Char) (p : Place) : lexemeAt previous c p = lexemeAt previous' c p := by
  unfold lexemeAt readLexeme
  rw [h]

theorem Lexes.congr (h : Lexes previous p ts)
    (hsame : previous.all Lexeme.allowsPattern = previous'.all Lexeme.allowsPattern) :
    Lexes previous' p ts := by
  cases h with
  | finish hgap hend => exact .finish hgap hend
  | token hgap hstart hread later =>
    exact .token hgap hstart ((lexemeAt_congr hsame _ _).symm.trans hread) later

theorem Lexes.unmoved (n : Nat) (h : Lexes (some l) p ts) : Lexes (some (l.moved n)) p ts :=
  h.congr (l.allowsPattern_moved n).symm

theorem Skips.moved (n : Nat) (h : Skips p q gap) : Skips (p.moved n) (q.moved n) gap where
  spans := by
    refine ⟨h.spans.rest, ?_⟩
    show q.offset + n = p.offset + n + byteLength gap
    rw [h.spans.offset, Nat.add_right_comm]
  isGap := h.isGap
  stops := h.stops

theorem lexemeAt_moved (n : Nat) (hp : p.rest = c :: rest)
    (h : lexemeAt previous c p = .ok (l, q)) :
    lexemeAt previous c (p.moved n) = .ok (l.moved n, q.moved n) := by
  obtain ⟨cs, htext⟩ := takes_of_lexemeAt hp h
  have hsame : ¬SplitsNumber q.rest q.rest := by
    rintro ⟨d, rest, rest', hrest, hdigit, hspace⟩
    obtain ⟨rfl, -⟩ := List.cons.inj (List.cons.inj (hrest.symm.trans hspace)).2
    cases hdigit
  have hagain := htext.again n q.rest (.same _) hsame
  rwa [← htext.spans.rest] at hagain

/-- What is read from a place on is read farther on as well, moved as far. -/
theorem Lexes.moved (n : Nat) (h : Lexes previous p ts) :
    Lexes previous (p.moved n) (ts.map (Token.moved n)) := by
  induction h with
  | finish hgap hend => exact .finish (hgap.moved n) hend
  | token hgap hstart hread later ih =>
    exact .token (hgap.moved n) hstart (lexemeAt_moved n hstart hread) (ih.unmoved n)

/-! ## 2. A space before a token -/

theorem IsGap.append_space {last : Bool} (h : IsGap last gap) : IsGap last (gap ++ [' ']) := by
  induction h with
  | nil => exact .blank rfl .nil
  | blank hblank later ih => exact .blank hblank ih
  | @line inside cs hline later ih =>
    rw [List.cons_append, List.cons_append, List.append_assoc]
    exact .line hline ih
  | @lastLine inside hlast hline =>
    refine .lastLine hlast fun hmem => ?_
    rcases List.mem_append.mp hmem with hmem | hmem
    · exact hline hmem
    · cases List.mem_singleton.mp hmem
  | @block inside cs hinside later ih =>
    rw [List.cons_append, List.cons_append, List.append_assoc]
    exact .block hinside ih

/-- A gap may have a space more. -/
theorem Skips.spaced (h : Skips p q gap) :
    Skips ⟨p.offset, gap ++ ' ' :: q.rest⟩ (q.moved 1) (gap ++ [' ']) where
  spans := by
    refine ⟨?_, ?_⟩
    · rw [List.append_assoc]
      rfl
    · have hspace : byteLength [' '] = 1 := rfl
      rw [byteLength_append, hspace, ← Nat.add_assoc, ← h.spans.offset]
      rfl
  isGap := h.isGap.append_space
  stops := h.stops

theorem Stops.widened (h : Stops (c :: cs)) (hds : Widened cs ds) : Stops (c :: ds) where
  blank := h.blank
  line := by
    rintro ⟨rest, hrest⟩
    have hwide := hds.cons c
    rw [← hrest] at hwide
    obtain ⟨rest', hrest', -⟩ := hwide.of_append (by decide)
    exact h.line ⟨rest', hrest'.symm⟩
  block := by
    rintro ⟨rest, hrest⟩
    have hwide := hds.cons c
    rw [← hrest] at hwide
    obtain ⟨rest', hrest', -⟩ := hwide.of_append (by decide)
    exact h.block ⟨rest', hrest'.symm⟩

/-- Before a wider rest as much is skipped. -/
theorem Skips.widened (h : Skips p q gap) (hq : q.rest = c :: cs) (hds : Widened cs ds) :
    Skips ⟨p.offset, gap ++ c :: ds⟩ ⟨q.offset, c :: ds⟩ gap := by
  have hgap := h.isGap
  have hstops := h.stops
  rw [hq] at hgap hstops
  exact ⟨⟨rfl, h.spans.offset⟩, hgap, hstops.widened hds⟩

/-- A point before a digit is not read alone. -/
theorem ne_point_of_digit (hp : p.rest = '.' :: rest)
    (hdigit : rest.head?.any Number.isDigit = true)
    (h : TakesText (lexemeAt previous '.') p q l ['.'])
    (hread : lexemeAt previous '.' p = .ok (l, q)) : False := by
  rw [lexemeAt_eq hp] at hread
  unfold readLexeme at hread
  rw [if_pos (by rw [hdigit]; rfl)] at hread
  obtain ⟨n, rfl, -⟩ := readNumber_takes hp (.inr rfl) hread
  obtain ⟨m, hchars, -⟩ := h.spelled
  obtain ⟨d, ds, hstart, hfirst⟩ := m.start
  obtain ⟨rfl, rfl⟩ := List.cons.inj (hchars.trans hstart)
  rcases hfirst with hd | ⟨-, hnext⟩
  · cases hd
  · cases hnext

/-- A point that stands alone before a token is not followed by a digit. -/
def KeepsPoint (cs ds : List Char) : Prop := cs = ['.'] → ds.head?.any Number.isDigit = false

theorem KeepsPoint.behind (h : KeepsPoint (c :: cs) ds) (gap : List Char) :
    KeepsPoint (gap ++ c :: cs) ds := by
  intro halone
  cases gap with
  | nil => exact h halone
  | cons g gap =>
    have hnil := (List.append_eq_nil_iff.mp (List.cons.inj halone).2).2
    cases hnil

theorem not_splitsNumber (h : KeepsPoint cs ds) : ¬SplitsNumber (cs ++ ds) (cs ++ ' ' :: ds) := by
  rintro ⟨d, rest, rest', hrest, hdigit, hspace⟩
  have hd : d ≠ ' ' := by
    rintro rfl
    cases hdigit
  match cs with
  | [] => cases hspace
  | [c] =>
    obtain ⟨rfl, rfl⟩ := List.cons.inj hrest
    have hfalse := h rfl
    rw [List.head?_cons, Option.any_some, hdigit] at hfalse
    cases hfalse
  | c :: e :: cs =>
    have he : e = d := (List.cons.inj (List.cons.inj hrest).2).1
    have hspace : e = ' ' := (List.cons.inj (List.cons.inj hspace).2).1
    exact hd (he.symm.trans hspace)

/-- A token is read before a space somewhere behind it. -/
theorem lexemeAt_spaced (hp : p.rest = c :: rest) (h : lexemeAt previous c p = .ok (l, q))
    (hq : q.rest = cs ++ ds) (hpoint : KeepsPoint cs ds) :
    ∃ text, p.Spans q (c :: text) ∧ KeepsPoint (c :: text ++ cs) ds ∧
      lexemeAt previous c ⟨p.offset, c :: text ++ (cs ++ ' ' :: ds)⟩ =
        .ok (l, ⟨q.offset, cs ++ ' ' :: ds⟩) := by
  obtain ⟨text, htext⟩ := takes_of_lexemeAt hp h
  refine ⟨text, htext.spans, fun halone => ?_, ?_⟩
  · obtain ⟨rfl, hrest⟩ := List.cons.inj halone
    obtain ⟨rfl, rfl⟩ := List.append_eq_nil_iff.mp hrest
    rw [Bool.eq_false_iff]
    intro hdigit
    have hp : p.rest = '.' :: ds := by rw [htext.spans.rest, hq]; rfl
    exact ne_point_of_digit hp hdigit htext h
  · have hwide : Widened q.rest (cs ++ ' ' :: ds) := by
      rw [hq]
      exact (Widened.space ds).append cs
    have hagain := htext.again 0 _ hwide (by rw [hq]; exact not_splitsNumber hpoint)
    rwa [Lexeme.moved_zero] at hagain

theorem lexes_spaced (h : Lexes previous p (before ++ t :: after)) :
    ∃ cs ds, p.Spans ⟨t.offset, ds⟩ cs ∧ KeepsPoint cs ds ∧
      Lexes previous ⟨p.offset, cs ++ ' ' :: ds⟩ (before ++ (t :: after).map (Token.moved 1)) := by
  induction before generalizing previous p with
  | nil =>
    -- the space comes at the end of the gap before the first token
    have hgap_point {gap : List Char} {last : Bool} (hgap : IsGap last gap) : gap ≠ ['.'] := by
      rintro rfl
      cases hgap with
      | blank hblank => cases hblank
    cases h with
    | @finish _ _ q gap hgap hend =>
      refine ⟨gap, q.rest, hgap.spans, fun hcs => absurd hcs (hgap_point hgap.isGap), ?_⟩
      exact .finish hgap.spaced hend
    | @token _ _ q r gap rest c l ts hgap hstart hread later =>
      refine ⟨gap, q.rest, hgap.spans, fun hcs => absurd hcs (hgap_point hgap.isGap), ?_⟩
      exact .token hgap.spaced hstart (lexemeAt_moved 1 hstart hread) ((later.moved 1).unmoved 1)
  | cons b before ih =>
    generalize hts : b :: before ++ t :: after = ts at h
    cases h with
    | finish hgap hend =>
      have hnil := (List.cons.inj hts).2
      exact absurd hnil (List.append_ne_nil_of_right_ne_nil _ (List.cons_ne_nil _ _))
    | @token _ _ q r gap rest c l ts hgap hstart hread later =>
      obtain ⟨rfl, rfl⟩ := List.cons.inj hts
      obtain ⟨cs, ds, hspans, hpoint, hlater⟩ := ih later
      obtain ⟨text, htext, hkeeps, hread⟩ := lexemeAt_spaced hstart hread hspans.rest hpoint
      have hwide : Widened (text ++ (cs ++ ds)) (text ++ (cs ++ ' ' :: ds)) :=
        ((Widened.space ds).append cs).append text
      have hgap' := hgap.widened (by rw [htext.rest, hspans.rest]; rfl) hwide
      refine ⟨gap ++ (c :: text ++ cs), ds, (hgap.spans.append (htext.append hspans)),
        hkeeps.behind gap, ?_⟩
      rw [List.append_assoc, List.append_assoc]
      exact .token (q := ⟨q.offset, c :: text ++ (cs ++ ' ' :: ds)⟩) hgap' rfl hread hlater

/-- A space put in where a token stands leaves all tokens as they are, but for the places of this
one and of those behind it, the end of the source among them, and of the substitutions in them. -/
theorem tokenize_spaced {source : String} (h : tokenize source = .ok (before ++ t :: after)) :
    ∃ cs ds, source.toList = cs ++ ds ∧ byteLength cs = t.offset ∧
      tokenize (.ofList (cs ++ ' ' :: ds)) =
        .ok (before ++ (t :: after).map (Token.moved 1)) := by
  obtain ⟨cs, ds, hspans, -, hlexes⟩ := lexes_spaced (tokenize_eq_ok_iff.mp h)
  refine ⟨cs, ds, hspans.rest, ?_, tokenize_eq_ok_iff.mpr ?_⟩
  · have hoffset : t.offset = 0 + byteLength cs := hspans.offset
    rw [hoffset, Nat.zero_add]
  · unfold Place.ofText
    rw [String.toList_ofList]
    exact hlexes

/-- A question mark before a number, and a template. -/
def conditionalSource : String := "a?.5:`${b}`"

theorem tokenize_spaced_conditionalSource : ∃ before t after,
    tokenize conditionalSource = .ok (before ++ t :: after) ∧ t.offset = 2 ∧
    ∃ cs ds, conditionalSource.toList = cs ++ ds ∧ byteLength cs = 2 ∧
      tokenize (.ofList (cs ++ ' ' :: ds)) =
        .ok (before ++ (t :: after).map (Token.moved 1)) := by
  have hoffsets : (tokenize conditionalSource).toOption.map (List.map Token.offset) =
      some [0, 1, 2, 4, 5, 11] := by decide +kernel
  obtain ⟨ts, hts, hmap⟩ := Option.map_eq_some_iff.mp hoffsets
  have htokens : tokenize conditionalSource = .ok ts := by
    cases h : tokenize conditionalSource with
    | error e => rw [h] at hts; cases hts
    | ok us => rw [h] at hts; cases hts; rfl
  have happend : ts.map Token.offset = [0, 1] ++ [2, 4, 5, 11] := hmap
  obtain ⟨before, rest, rfl, -, hrest⟩ := List.map_eq_append_iff.mp happend
  obtain ⟨t, after, rfl, ht, -⟩ := List.map_eq_cons_iff.mp hrest
  refine ⟨before, t, after, htokens, ht, ?_⟩
  rw [← ht]
  exact tokenize_spaced htokens

end TraceViewer.Snippet
