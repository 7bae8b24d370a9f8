import TraceViewer.Proofs.Snippet.Gaps

/-!
# Tokens tile their source

Gaps and the texts of tokens, in turn, make up a source, and what a token says of its place is so.
A source without tokens has an error within it (`tokenize_tiles`).
-/

namespace TraceViewer.Snippet

open TraceViewer.Text

/-! ## 1. Errors -/

/-- Where a text ends. -/
def Place.stop (p : Place) : Nat := p.offset + byteLength p.rest

theorem Place.Spans.stop_eq {p q : Place} {cs : List Char} (h : p.Spans q cs) :
    q.stop = p.stop := by
  unfold Place.stop
  rw [h.offset, h.rest, byteLength_append, Nat.add_assoc]

/-- What the lexer alone finds wrong. -/
def SourceFault.isLexical : SourceFault → Bool
  | .unterminatedComment | .unterminatedString | .unterminatedTemplate | .unterminatedPattern
  | .badHexLiteral | .badNumberLiteral | .badUnicodeEscape | .unexpectedChar _ => true
  | _ => false

/-- An error of the lexer at an offset up to a limit. -/
def Error.IsLexical (limit : Nat) (e : Error) : Prop :=
  ∃ n fault, e = .badSource n fault ∧ fault.isLexical = true ∧ n ≤ limit

variable {start limit : Nat} {fault : SourceFault} {p q : Place} {e : Error}

theorem Place.offset_le_stop (p : Place) : p.offset ≤ p.stop := Nat.le_add_right _ _

theorem Place.stop_cons {c : Char} {rest : List Char} (h : p.rest = c :: rest) :
    Place.stop ⟨p.offset + c.utf8Size, rest⟩ = p.stop :=
  (Place.Spans.cons h (.nil _)).stop_eq

theorem skipTrivia_error (h : skipTrivia p = .error e) : e.IsLexical p.stop := by
  fun_induction skipTrivia p with
  | case1 p rest hrest _ ih =>
    obtain ⟨cs, hcs⟩ := skipLine_spans (p.offset + 2) rest
    have hspans : p.Spans _ ('/' :: '/' :: cs) := .cons hrest (.cons rfl hcs)
    rw [← hspans.stop_eq]
    exact ih h
  | case2 p rest hrest inside after hcut _ ih =>
    have hspans : p.Spans _ ('/' :: '*' :: _) := .cons hrest (.cons rfl (spans_comment hcut))
    rw [← hspans.stop_eq]
    exact ih h
  | case3 p =>
    cases h
    exact ⟨_, _, rfl, rfl, p.offset_le_stop⟩
  | case4 p c rest _ _ hrest _ _ ih =>
    rw [← Place.stop_cons hrest]
    exact ih h
  | case5 => cases h
  | case6 => cases h

theorem readNumber_error (h : readNumber p = .error e) : e.IsLexical p.stop := by
  have hplace := p.offset_le_stop
  unfold readNumber at h
  dsimp only at h
  split at h
  · split at h
    · split at h <;> cases h
      exact ⟨_, _, rfl, rfl, hplace⟩
    · split at h <;> cases h
      exact ⟨_, _, rfl, rfl, hplace⟩
  · split at h <;> cases h
    exact ⟨_, _, rfl, rfl, hplace⟩

theorem readEscape_error (hstart : start ≤ p.stop) (hfault : fault.isLexical = true)
    (h : readEscape start fault p = .error e) : e.IsLexical p.stop := by
  have hplace {c : Char} {rest : List Char} (hrest : p.rest = c :: rest) :
    p.offset + 1 ≤ p.stop := by
    have hsize := c.utf8Size_pos
    unfold Place.stop
    rw [hrest, byteLength]
    omega
  unfold readEscape at h
  split at h
  case h_1 =>
    cases h
    exact ⟨_, _, rfl, hfault, hstart⟩
  case h_6 hrest =>
    split at h
    · split at h <;> cases h
      exact ⟨_, _, rfl, rfl, hplace hrest⟩
    · cases h
      exact ⟨_, _, rfl, rfl, hplace hrest⟩
  all_goals cases h

theorem readString_error {quote : Char} {acc : List Char} (hstart : start ≤ p.stop)
    (h : readString start quote acc p = .error e) : e.IsLexical p.stop := by
  fun_induction readString start quote acc p with
  | case1 =>
    cases h
    exact ⟨_, _, rfl, rfl, hstart⟩
  | case2 => cases h
  | case3 =>
    cases h
    exact ⟨_, _, rfl, rfl, hstart⟩
  | case4 acc p c rest hrest after hquote hline hslash decoded r hesc _ ih =>
    obtain ⟨cs, -, hcs, -⟩ := readEscape_spans hesc
    have hspans : p.Spans r (c :: cs) := .cons hrest hcs
    rw [← hspans.stop_eq] at hstart ⊢
    exact ih hstart h
  | case5 acc p c rest hrest after hquote hline hslash e hesc =>
    cases h
    rw [← Place.stop_cons hrest] at hstart ⊢
    exact readEscape_error hstart rfl hesc
  | case6 acc p c rest hrest after hquote hline hslash _ ih =>
    rw [← Place.stop_cons hrest] at hstart ⊢
    exact ih hstart h

theorem Place.stop_dropNext (p : Place) : p.dropNext.stop = p.stop := by
  unfold dropNext
  split
  · rfl
  · next hrest => exact Place.stop_cons hrest

theorem skipHole_error {stack : List Surround} (hstart : start ≤ p.stop)
    (h : skipHole start stack p = .error e) : e.IsLexical p.stop := by
  fun_induction skipHole start stack p with
  | case1 =>
    cases h
    exact ⟨_, _, rfl, rfl, hstart⟩
  | case2 => cases h
  | case3 p c rest hrest after _ _ braces outer hquote _ r hstr _ =>
    rename_i ih
    obtain ⟨cs, _, -, hcs, -⟩ := readString_spans hstr
    have hspans : p.Spans r (c :: cs) := .cons hrest hcs
    rw [← hspans.stop_eq] at hstart ⊢
    exact ih hstart h
  | case4 p c rest hrest after _ _ braces outer hquote e hstr =>
    cases h
    have hplace : p.offset ≤ after.stop := by
      rw [Place.stop_cons hrest]
      exact p.offset_le_stop
    rw [← Place.stop_cons hrest]
    exact readString_error hplace hstr
  | case8 => cases h
  | case11 p c rest hrest after _ _ outer hslash =>
    rename_i ih
    rw [← Place.stop_cons hrest, ← Place.stop_dropNext] at hstart ⊢
    exact ih hstart h
  | case13 p c rest hrest after _ _ outer hslash htick hdollar =>
    rename_i ih
    rw [← Place.stop_cons hrest, ← Place.stop_dropNext] at hstart ⊢
    exact ih hstart h
  | _ p c rest hrest =>
    rename_i ih
    rw [← Place.stop_cons hrest] at hstart ⊢
    exact ih hstart h

theorem readTemplate_error {parts : List String} {holes : List Hole} {acc : List Char}
    (hstart : start ≤ p.stop) (h : readTemplate start parts holes acc p = .error e) :
    e.IsLexical p.stop := by
  fun_induction readTemplate start parts holes acc p with
  | case1 =>
    cases h
    exact ⟨_, _, rfl, rfl, hstart⟩
  | case2 => cases h
  | case3 parts holes acc p c rest hrest after _ htick hdollar body close r hhole _ source ih =>
    obtain ⟨cs, hcs⟩ := skipHole_closes_one hhole
    have hstop : r.stop = p.stop := by
      rw [(hcs.spans.append hcs.brace).stop_eq, Place.stop_dropNext, Place.stop_cons hrest]
    rw [← hstop] at hstart ⊢
    exact ih hstart h
  | case4 parts holes acc p c rest hrest after _ htick hdollar body e hhole =>
    cases h
    have hstop : body.stop = p.stop := (Place.stop_dropNext after).trans (Place.stop_cons hrest)
    rw [← hstop] at hstart ⊢
    exact skipHole_error hstart hhole
  | case5 parts holes acc p c rest hrest after _ htick hdollar hslash decoded r hesc _ ih =>
    obtain ⟨cs, -, hcs, -⟩ := readEscape_spans hesc
    have hspans : p.Spans r (c :: cs) := .cons hrest hcs
    rw [← hspans.stop_eq] at hstart ⊢
    exact ih hstart h
  | case6 parts holes acc p c rest hrest after _ htick hdollar hslash e hesc =>
    cases h
    rw [← Place.stop_cons hrest] at hstart ⊢
    exact readEscape_error hstart rfl hesc
  | case7 parts holes acc p c rest hrest after _ htick hdollar hslash ih =>
    rw [← Place.stop_cons hrest] at hstart ⊢
    exact ih hstart h

theorem readPatternBody_error {inClass : Bool} {acc cs : List Char} {offset : Nat}
    (hstart : start ≤ limit) (h : readPatternBody start inClass acc offset cs = .error e) :
    e.IsLexical limit := by
  fun_induction readPatternBody start inClass acc offset cs with
  | case1 =>
    cases h
    exact ⟨_, _, rfl, rfl, hstart⟩
  | case2 =>
    cases h
    exact ⟨_, _, rfl, rfl, hstart⟩
  | case3 inClass acc offset c rest ih => exact ih h
  | case4 =>
    cases h
    exact ⟨_, _, rfl, rfl, hstart⟩
  | case5 => cases h
  | case6 inClass acc offset c rest _ _ _ _ ih => exact ih h

theorem readLexeme_error {previous : Option Lexeme} {c : Char} {rest : List Char}
    (hp : p.rest = c :: rest) (h : readLexeme previous p c rest.head? = .error e) :
    e.IsLexical p.stop := by
  have hplace := p.offset_le_stop
  -- the characters at which strings and templates start have one byte
  have hnext (hc : c.utf8Size = 1) :
      Place.stop ⟨p.offset + 1, p.rest.drop 1⟩ = p.stop := by
    rw [second_place hp hc, Place.stop_cons hp]
  unfold readLexeme at h
  split at h
  · exact readNumber_error h
  split at h
  · next hquote =>
    have hc : c.utf8Size = 1 := by
      rcases Bool.or_eq_true .. |>.mp hquote with hc | hc <;> rw [eq_of_beq hc] <;> rfl
    split at h
    · cases h
    · next hread =>
      cases h
      rw [← hnext hc] at hplace ⊢
      exact readString_error hplace hread
  split at h
  · next htick =>
    have hc : c.utf8Size = 1 := by rw [eq_of_beq htick]; rfl
    rw [← hnext hc] at hplace ⊢
    exact readTemplate_error hplace h
  split at h
  · cases h
  split at h
  · unfold readPattern at h
    split at h
    · next hbody =>
      cases h
      exact readPatternBody_error hplace hbody
    · cases h
  · unfold readPunct at h
    split at h
    · cases h
    · cases h
      exact ⟨_, _, rfl, rfl, hplace⟩

theorem tokensFrom_error {bound : Nat} {acc : List Token} (h : tokensFrom bound acc p = .error e) :
    e.IsLexical p.stop := by
  induction bound generalizing acc p with
  | zero => cases h
  | succ bound ih =>
    unfold tokensFrom at h
    split at h
    · next hskip =>
      cases h
      exact skipTrivia_error hskip
    next q hskip =>
    obtain ⟨gap, hgap⟩ := skips_of_skipTrivia hskip
    rw [← hgap.spans.stop_eq]
    split at h
    · cases h
    · next c rest hrest =>
      split at h
      · next hread =>
        cases h
        exact readLexeme_error hrest hread
      · next l r hread =>
        obtain ⟨cs, htext⟩ := readLexeme_takes hrest hread
        rw [← htext.spans.stop_eq]
        exact ih h

theorem tokenize_error {source : String} (h : tokenize source = .error e) :
    e.IsLexical (byteLength source.toList) := by
  have herror := tokensFrom_error h
  unfold Place.stop Place.ofText at herror
  rwa [Nat.zero_add] at herror

/-! ## 2. Places in a text -/

/-- The characters stand in the text at an offset in bytes. -/
def StandsAt (text : List Char) (offset : Nat) (cs : List Char) : Prop :=
  ∃ before after, text = before ++ (cs ++ after) ∧ byteLength before = offset

/-- A character of the text begins at the offset, or the text ends there. -/
def IsBoundary (text : List Char) (offset : Nat) : Prop :=
  ∃ before after, text = before ++ after ∧ byteLength before = offset

variable {text inside before after cs gap : List Char} {offset : Nat}

theorem StandsAt.isBoundary (h : StandsAt text offset cs) : IsBoundary text offset := by
  obtain ⟨before, after, htext, hbefore⟩ := h
  exact ⟨before, cs ++ after, htext, hbefore⟩

theorem StandsAt.inner (h : StandsAt text offset cs) (hcs : cs = before ++ (inside ++ after)) :
    StandsAt text (offset + byteLength before) inside := by
  obtain ⟨start, rest, htext, hstart⟩ := h
  refine ⟨start ++ before, after ++ rest, ?_, ?_⟩
  · rw [htext, hcs, List.append_assoc, List.append_assoc, List.append_assoc]
  · rw [byteLength_append, hstart]

/-- Where the source of a substitution ends. -/
def Hole.stop (h : Hole) : Nat := h.offset + byteLength h.source.toList

/-- Substitutions stand in the text of their template one after the other. -/
structure HolesStand (offset : Nat) (cs : List Char) (holes : List Hole) : Prop where
  stands : ∀ h ∈ holes, ∃ before after, cs = before ++ (h.source.toList ++ after) ∧
    h.offset = offset + byteLength before ∧ before ≠ [] ∧ after ≠ []
  ordered : holes.Pairwise fun h k => h.stop < k.offset

theorem HolesStand.append (xs : List Char) {holes : List Hole}
    (h : HolesStand (offset + byteLength xs) cs holes) : HolesStand offset (xs ++ cs) holes where
  stands k hk := by
    obtain ⟨before, after, rfl, hoffset, hbefore, hafter⟩ := h.stands k hk
    refine ⟨xs ++ before, after, (List.append_assoc ..).symm, ?_, ?_, hafter⟩
    · rw [hoffset, byteLength_append, Nat.add_assoc]
    · exact List.append_ne_nil_of_right_ne_nil xs hbefore
  ordered := h.ordered

theorem IsTemplateText.holesStand {holes : List Hole} (h : IsTemplateText offset cs holes) :
    HolesStand offset cs holes := by
  induction h with
  | close => exact ⟨List.forall_mem_nil _, .nil⟩
  | @char offset c cs holes _ _ _ later ih => exact ih.append [c]
  | @escape offset escape cs holes hform later ih =>
    have happend := HolesStand.append ('\\' :: escape) (by
      rw [byteLength, ← Nat.add_assoc]
      exact ih)
    exact happend
  | @hole offset body cs holes hbody later ih =>
    have hlater : HolesStand offset (('$' :: '\x7b' :: (body ++ ['\x7d'])) ++ cs) holes := by
      refine HolesStand.append _ ?_
      have hlength :
        byteLength ('$' :: '\x7b' :: (body ++ ['\x7d'])) = 2 + byteLength body + 1 := by
        have hbrace : byteLength ['\x7d'] = 1 := rfl
        rw [byteLength, byteLength, byteLength_append, hbrace, ← Nat.add_assoc, ← Nat.add_assoc]
        rfl
      rw [hlength, ← Nat.add_assoc, ← Nat.add_assoc]
      exact ih
    rw [List.cons_append, List.cons_append, List.append_assoc] at hlater
    refine ⟨List.forall_mem_cons.mpr ⟨?_, hlater.stands⟩, ?_⟩
    · refine ⟨['$', '\x7b'], '\x7d' :: cs, ?_, rfl, List.cons_ne_nil _ _, List.cons_ne_nil _ _⟩
      rw [String.toList_ofList]
      rfl
    · refine List.pairwise_cons.mpr ⟨fun k hk => ?_, hlater.ordered⟩
      obtain ⟨before, after, -, hoffset, -⟩ := ih.stands k hk
      unfold Hole.stop
      rw [String.toList_ofList, hoffset]
      dsimp only
      omega

/-! ## 3. Tilings -/

/-- A token with the text that it was read from. -/
structure Tile where
  token : Token
  text : List Char

/-- Where the text of the token ends. -/
def Tile.stop (x : Tile) : Nat := x.token.offset + byteLength x.text

/-- From an offset on a source is made up of the texts of the tiles, with blanks and comments before
each of them and behind the last. -/
inductive Tiles : Nat → List Char → List Tile → Prop
  | last {offset : Nat} {gap : List Char} (hgap : IsGap true gap) : Tiles offset gap []
  | tile {offset : Nat} {gap rest : List Char} {x : Tile} {xs : List Tile}
    (hgap : IsGap false gap) (hoffset : x.token.offset = offset + byteLength gap)
    (later : Tiles x.stop rest xs) : Tiles offset (gap ++ (x.text ++ rest)) (x :: xs)

/-- What the token of a tile tells of the source is so: its text stands there and is how the token
is written, and so do the sources of its substitutions, inside it and one after the other. -/
structure Tile.StandsIn (source : List Char) (x : Tile) : Prop where
  text : StandsAt source x.token.offset x.text
  spelled : x.token.lexeme.SpelledAt x.token.offset x.text
  holes : ∀ h ∈ x.token.lexeme.holes, StandsAt source h.offset h.source.toList ∧
    x.token.offset < h.offset ∧ h.stop < x.stop
  ordered : x.token.lexeme.holes.Pairwise fun h k => h.stop < k.offset

theorem byteLength_pos (h : cs ≠ []) : 0 < byteLength cs := by
  obtain ⟨c, rest, rfl⟩ := List.exists_cons_of_ne_nil h
  have hsize := c.utf8Size_pos
  rw [byteLength]
  omega

theorem Lexeme.SpelledAt.holesStand {l : Lexeme} (h : l.SpelledAt offset cs) :
    HolesStand offset cs l.holes := by
  cases l with
  | template parts holes =>
    obtain ⟨-, rest, rfl, htext⟩ := h
    exact htext.holesStand.append ['\x60']
  | _ => exact ⟨List.forall_mem_nil _, .nil⟩

theorem Tile.standsIn_of_spelled {source : List Char} {x : Tile}
    (htext : StandsAt source x.token.offset x.text)
    (hspelled : x.token.lexeme.SpelledAt x.token.offset x.text) : x.StandsIn source := by
  refine ⟨htext, hspelled, fun h hh => ?_, hspelled.holesStand.ordered⟩
  obtain ⟨before, after, hcs, hoffset, hbefore, hafter⟩ := hspelled.holesStand.stands h hh
  have hlength := congrArg byteLength hcs
  rw [byteLength_append, byteLength_append] at hlength
  have hbefore := byteLength_pos hbefore
  have hafter := byteLength_pos hafter
  refine ⟨?_, by omega, ?_⟩
  · rw [hoffset]
    exact htext.inner hcs
  · unfold Hole.stop Tile.stop
    omega

theorem lexes_tiles {previous : Option Lexeme} {ts : List Token} (h : Lexes previous p ts) :
    ∃ xs : List Tile, ts = xs.map Tile.token ++ [⟨.finish, p.stop⟩] ∧ Tiles p.offset p.rest xs ∧
      ∀ x ∈ xs, x.text ≠ [] ∧ x.token.lexeme.SpelledAt x.token.offset x.text := by
  induction h with
  | @finish previous p q gap hgap hend =>
    refine ⟨[], ?_, ?_, List.forall_mem_nil _⟩
    · rw [← hgap.spans.stop_eq]
      unfold Place.stop
      rw [hend]
      rfl
    · have hlast := hgap.isGap
      rw [hgap.spans.rest, hend, List.append_nil]
      rw [hend] at hlast
      exact .last hlast
  | @token previous p q r gap rest c l ts hgap hstart hread later ih =>
    obtain ⟨xs, rfl, htiles, hxs⟩ := ih
    obtain ⟨cs, htext⟩ := takes_of_lexemeAt hstart hread
    refine ⟨⟨⟨l, q.offset⟩, c :: cs⟩ :: xs, ?_, ?_, List.forall_mem_cons.mpr ⟨⟨?_, ?_⟩, hxs⟩⟩
    · rw [← hgap.spans.stop_eq, ← htext.spans.stop_eq]
      rfl
    · have hbetween := hgap.isGap
      rw [hstart] at hbetween
      rw [htext.spans.offset] at htiles
      rw [hgap.spans.rest, htext.spans.rest]
      exact Tiles.tile (x := ⟨⟨l, q.offset⟩, c :: cs⟩) hbetween hgap.spans.offset htiles
    · exact List.cons_ne_nil _ _
    · exact htext.spelled

theorem Tiles.standsAt {rest : List Char} {xs : List Tile} (h : Tiles offset rest xs) :
    ∀ x ∈ xs, ∃ before after, rest = before ++ (x.text ++ after) ∧
      x.token.offset = offset + byteLength before := by
  induction h with
  | last => exact List.forall_mem_nil _
  | @tile offset gap rest x xs hgap hoffset later ih =>
    refine List.forall_mem_cons.mpr ⟨⟨gap, rest, rfl, hoffset⟩, fun y hy => ?_⟩
    obtain ⟨before, after, rfl, hy⟩ := ih y hy
    refine ⟨gap ++ (x.text ++ before), after, ?_, ?_⟩
    · rw [List.append_assoc, List.append_assoc]
    · rw [hy, byteLength_append, byteLength_append]
      unfold Tile.stop
      omega

/-- Later tiles start behind earlier ones. -/
theorem Tiles.ordered {rest : List Char} {xs : List Tile} (h : Tiles offset rest xs)
    (hxs : ∀ x ∈ xs, x.text ≠ []) :
    (xs.map fun x => x.token.offset).Pairwise (· < ·) ∧
      ∀ x ∈ xs, offset ≤ x.token.offset ∧ x.token.offset < offset + byteLength rest := by
  induction h with
  | last => exact ⟨.nil, List.forall_mem_nil _⟩
  | @tile offset gap rest x xs hgap hoffset later ih =>
    obtain ⟨hx, hxs⟩ := List.forall_mem_cons.mp hxs
    obtain ⟨hordered, hbounds⟩ := ih hxs
    have hpos := byteLength_pos hx
    have hlength : byteLength (gap ++ (x.text ++ rest)) =
        byteLength gap + (byteLength x.text + byteLength rest) := by
      rw [byteLength_append, byteLength_append]
    have hstop : x.stop = x.token.offset + byteLength x.text := rfl
    refine ⟨List.pairwise_cons.mpr ⟨fun n hn => ?_, hordered⟩, fun y hy => ?_⟩
    · obtain ⟨y, hy, rfl⟩ := List.mem_map.mp hn
      have hy := hbounds y hy
      show x.token.offset < y.token.offset
      omega
    · rcases List.mem_cons.mp hy with rfl | hy
      · omega
      · have hy := hbounds y hy
        omega

theorem Tiles.standsIn {source : List Char} {xs : List Tile} (h : Tiles 0 source xs)
    (hxs : ∀ x ∈ xs, x.token.lexeme.SpelledAt x.token.offset x.text) :
    ∀ x ∈ xs, x.StandsIn source := by
  intro x hx
  obtain ⟨before, after, htext, hoffset⟩ := h.standsAt x hx
  rw [Nat.zero_add] at hoffset
  exact Tile.standsIn_of_spelled ⟨before, after, htext, hoffset.symm⟩ (hxs x hx)

/-- The end comes behind all tiles. -/
theorem Tiles.offsets_pairwise {rest : List Char} {xs : List Tile} (h : Tiles offset rest xs)
    (hxs : ∀ x ∈ xs, x.text ≠ []) :
    ((xs.map Tile.token ++ [Token.mk .finish (offset + byteLength rest)]).map
      Token.offset).Pairwise (· < ·) := by
  have hordered := h.ordered hxs
  rw [List.map_append, List.map_map, List.pairwise_append]
  refine ⟨hordered.1, List.pairwise_singleton _ _, fun n hn m hm => ?_⟩
  obtain ⟨x, hx, rfl⟩ := List.mem_map.mp hn
  obtain rfl := List.mem_singleton.mp hm
  exact (hordered.2 x hx).2

theorem Lexeme.SpelledAt.ne_finish {l : Lexeme} (h : l.SpelledAt offset cs) : l ≠ .finish := by
  rintro rfl
  exact h

/-- The tokens of a source tile it: their offsets increase and are boundaries of characters, the end
comes last and only there, at the length of the source, each token stands where it says that it
stands, with its substitutions inside it in order, and between two tokens there are only blanks and
comments.  What cannot be read has an error of the lexer within the source. -/
theorem tokenize_tiles (source : String) :
    match tokenize source with
    | .ok ts => ∃ xs : List Tile,
        ts = xs.map Tile.token ++ [⟨.finish, byteLength source.toList⟩] ∧
        Tiles 0 source.toList xs ∧ (∀ x ∈ xs, x.StandsIn source.toList) ∧
        (∀ x ∈ xs, x.token.lexeme ≠ .finish) ∧
        (ts.map Token.offset).Pairwise (· < ·) ∧ ∀ t ∈ ts, IsBoundary source.toList t.offset
    | .error e => ∃ n fault, e = .badSource n fault ∧ fault.isLexical = true ∧
        n ≤ byteLength source.toList := by
  split
  · next ts h =>
    obtain ⟨xs, rfl, htiles, hxs⟩ := lexes_tiles (tokenize_eq_ok_iff.mp h)
    have hstop : (Place.ofText source).stop = 0 + byteLength source.toList := rfl
    have hzero : (Place.ofText source).offset = 0 := rfl
    have hrest : (Place.ofText source).rest = source.toList := rfl
    rw [hzero, hrest] at htiles
    have hpairwise := htiles.offsets_pairwise fun x hx => (hxs x hx).1
    have hstands := htiles.standsIn fun x hx => (hxs x hx).2
    rw [Nat.zero_add] at hstop hpairwise
    rw [hstop]
    refine ⟨xs, rfl, htiles, hstands, fun x hx => (hxs x hx).2.ne_finish, hpairwise, ?_⟩
    intro t ht
    rcases List.mem_append.mp ht with ht | ht
    · obtain ⟨x, hx, rfl⟩ := List.mem_map.mp ht
      exact (hstands x hx).text.isBoundary
    · rw [List.mem_singleton.mp ht]
      exact ⟨source.toList, [], (List.append_nil _).symm, rfl⟩
  · next e h => exact tokenize_error h

end TraceViewer.Snippet
