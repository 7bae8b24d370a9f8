import TraceViewer.Proofs.Snippet.Braces
import TraceViewer.Proofs.Snippet.Scanning
import TraceViewer.Proofs.Snippet.Spelling

/-!
# Expressions inside of templates

The scanner that looks for the end of a substitution knows strings and templates, but no comments
and no regular expressions.  `fillsHole_of_readExpr` says that these are all that it lacks: an
expression can stand in a template if each of its comments and regular expressions could.
-/

namespace TraceViewer.Snippet

open TraceViewer.Text

/-! ## 1. Filling a substitution -/

/-- The template that consists of one substitution with the given source. -/
def holeText (source : String) : String := "`$\x7b" ++ source ++ "\x7d`"

/-- In a template the text is taken for the source of one substitution. -/
def FillsHole (source : String) : Prop :=
  tokenize (holeText source) = .ok
    [⟨.template ["", ""] [⟨3, source⟩], 0⟩, ⟨.finish, byteLength source.toList + 5⟩]

/-! ## 2. Tokens under the scanner -/

theorem spans_takeWhile (p : Place) (f : Char → Bool) :
    p.Spans (p.past (p.rest.takeWhile f) (p.rest.dropWhile f)) (p.rest.takeWhile f) :=
  ⟨List.takeWhile_append_dropWhile.symm, rfl⟩

/-- A test that none of the marks passes holds for no mark. -/
theorem isMark_eq_false {f : Char → Bool}
    (hf : (['"', '\'', '\x60', '\x7b', '\x7d'].any f) = false) {c : Char} (h : f c = true) :
    isMark c = false := by
  cases hmark : isMark c with
  | false => rfl
  | true =>
    simp only [List.any_cons, List.any_nil, Bool.or_eq_false_iff] at hf
    unfold isMark at hmark
    simp only [Bool.or_eq_true, beq_iff_eq] at hmark
    rcases hmark with (((rfl | rfl) | rfl) | rfl) | rfl <;> simp_all

theorem isMark_of_mem_takeWhile {f : Char → Bool}
    (hf : (['"', '\'', '\x60', '\x7b', '\x7d'].any f) = false) {cs : List Char} :
    ∀ c ∈ cs.takeWhile f, isMark c = false :=
  fun _ hc => isMark_eq_false hf (List.all_eq_true.mp List.all_takeWhile _ hc)

/-- A part of a number: it is cut off the text and holds no mark. -/
def IsCut (cs : List Char) (cut : List Char × List Char) : Prop :=
  cut.1 ++ cut.2 = cs ∧ ∀ c ∈ cut.1, isMark c = false

theorem isCut_digits (cs : List Char) :
    IsCut cs (cs.takeWhile Number.isDigit, cs.dropWhile Number.isDigit) :=
  ⟨List.takeWhile_append_dropWhile, isMark_of_mem_takeWhile (by decide)⟩

theorem IsCut.append {cs : List Char} {cut : List Char × List Char} (h : IsCut cs cut)
    {cut' : List Char × List Char} (h' : IsCut cut.2 cut') :
    IsCut cs (cut.1 ++ cut'.1, cut'.2) := by
  refine ⟨?_, fun c hc => ?_⟩
  · rw [List.append_assoc, h'.1, h.1]
  · rcases List.mem_append.mp hc with hc | hc
    · exact h.2 c hc
    · exact h'.2 c hc

theorem isCut_nil (cs : List Char) : IsCut cs ([], cs) := ⟨rfl, nofun⟩

theorem IsCut.cons {c : Char} (hc : isMark c = false) {cs : List Char}
    {cut : List Char × List Char} (h : IsCut cs cut) : IsCut (c :: cs) (c :: cut.1, cut.2) :=
  ⟨congrArg (c :: ·) h.1, List.forall_mem_cons.mpr ⟨hc, h.2⟩⟩

theorem isCut_exponentOf (cs : List Char) : IsCut cs (exponentOf cs) := by
  unfold exponentOf
  split
  · next e rest =>
    have hsigned (sign : List Char × List Char) (hsign : IsCut rest sign) : IsCut (e :: rest)
        (if (e == 'e' || e == 'E') && !(sign.2.takeWhile Number.isDigit).isEmpty then
          (e :: sign.1 ++ sign.2.takeWhile Number.isDigit, sign.2.dropWhile Number.isDigit)
        else ([], e :: rest)) := by
      split
      · next h =>
        refine .cons ?_ (hsign.append (isCut_digits _))
        rcases Bool.or_eq_true .. |>.mp (Bool.and_eq_true .. |>.mp h).1 with he | he
        · rw [eq_of_beq he]
          rfl
        · rw [eq_of_beq he]
          rfl
      · exact isCut_nil _
    split
    next sign digits heq =>
    refine hsigned (sign, digits) ?_
    rw [← heq]
    split
    · exact .cons rfl (isCut_nil _)
    · exact .cons rfl (isCut_nil _)
    · exact isCut_nil _
  · exact isCut_nil _

theorem isCut_decimalOf (cs : List Char) : IsCut cs (decimalOf cs) := by
  unfold decimalOf
  have hplaces (cut : List Char × List Char) (h : IsCut (cs.dropWhile Number.isDigit) cut) :
      IsCut cs
        (cs.takeWhile Number.isDigit ++ cut.1 ++ (exponentOf cut.2).1, (exponentOf cut.2).2) :=
    ((isCut_digits cs).append h).append (isCut_exponentOf _)
  split
  next places rest heq =>
  refine hplaces (places, rest) ?_
  rw [← heq]
  split
  · next digits hdot =>
    rw [hdot]
    exact .cons rfl (isCut_digits digits)
  · exact isCut_nil _

def Lexeme.isPattern : Lexeme → Bool
  | .pattern .. => true
  | _ => false

theorem spans_decimalOf {p q : Place} {l : Lexeme} {x : Float}
    (hx : Number.decimal? (decimalOf p.rest).1 = some x)
    (h : (.ok (.number x, p.past (decimalOf p.rest).1 (decimalOf p.rest).2) : Lexing Lexeme) =
      .ok (l, q)) :
    ∃ cs, cs ≠ [] ∧ p.Spans q cs ∧ (∀ c ∈ cs, isMark c = false) ∧ l.isBrace = false := by
  cases h
  refine ⟨_, ?_, ⟨(isCut_decimalOf p.rest).1.symm, rfl⟩, (isCut_decimalOf p.rest).2, rfl⟩
  intro hnil
  rw [hnil] at hx
  cases hx

/-- The text of a number. -/
theorem readNumber_spans {p q : Place} {l : Lexeme} (h : readNumber p = .ok (l, q)) :
    ∃ cs, cs ≠ [] ∧ p.Spans q cs ∧ (∀ c ∈ cs, isMark c = false) ∧ l.isBrace = false := by
  unfold readNumber at h
  dsimp only at h
  split at h
  · next x rest hrest =>
    split at h
    · next hx =>
      split at h
      · cases h
      · cases h
        refine ⟨_, List.cons_ne_nil _ _, ⟨?_, rfl⟩, ?_, rfl⟩
        · rw [hrest, Place.past, List.cons_append, List.cons_append,
            List.takeWhile_append_dropWhile]
        · refine List.forall_mem_cons.mpr ⟨rfl, List.forall_mem_cons.mpr ⟨?_, ?_⟩⟩
          · rcases Bool.or_eq_true .. |>.mp hx with hx | hx
            · rw [eq_of_beq hx]
              rfl
            · rw [eq_of_beq hx]
              rfl
          · exact isMark_of_mem_takeWhile (by decide)
    · split at h
      · next hx => exact spans_decimalOf hx h
      · cases h
  · split at h
    · next hx => exact spans_decimalOf hx h
    · cases h

/-- The text of a template ends with its mark. -/
theorem readTemplate_spans {start : Nat} {parts : List String} {holes : List Hole}
    {acc : List Char} {p q : Place} {l : Lexeme}
    (h : readTemplate start parts holes acc p = .ok (l, q)) :
    l.isBrace = false ∧
      ∃ cs, cs ≠ [] ∧ p.Spans q cs ∧ ∀ outer, Scans (.text :: outer) outer cs := by
  fun_induction readTemplate start parts holes acc p with
  | case1 => cases h
  | case2 parts holes acc p c rest hrest after _ htick =>
    obtain ⟨rfl, rfl⟩ := Prod.mk.inj (Except.ok.inj h)
    obtain rfl := eq_of_beq htick
    exact ⟨rfl, _, List.cons_ne_nil _ _, .cons hrest (.nil _), fun outer => scans_untick⟩
  | case3 parts holes acc p c rest hrest after _ htick hdollar body close r hhole _ source ih =>
    obtain ⟨hc, hhead⟩ := Bool.and_eq_true .. |>.mp hdollar
    obtain rfl := eq_of_beq hc
    obtain ⟨rest, rfl⟩ := List.head?_eq_some_iff.mp (eq_of_beq hhead)
    obtain ⟨hbrace, ds, -, hds, hscans⟩ := ih h
    obtain ⟨cs, hcs⟩ := skipHole_closes_one hhole
    have hspans := (hcs.spans.append hcs.brace).append hds
    refine ⟨hbrace, _, List.cons_ne_nil _ _, .cons hrest (.cons rfl hspans), fun outer => ?_⟩
    have hhole : Scans (.code 1 :: .text :: outer) (.text :: outer) (cs ++ ['\x7d']) :=
      (hcs.scans 0 _).append (scans_leave (by omega) (List.cons_ne_nil _ _))
    exact scans_enter.append (hhole.append (hscans outer))
  | case4 => cases h
  | case5 parts holes acc p c rest hrest after _ htick hdollar hslash decoded r hesc _ ih =>
    obtain rfl := eq_of_beq hslash
    obtain ⟨hbrace, ds, -, hds, hscans⟩ := ih h
    obtain ⟨cs, -, hcs, hskips, -⟩ := readEscape_spans hesc
    exact ⟨hbrace, _, List.cons_ne_nil _ _, .cons hrest (hcs.append hds),
      fun outer => (hskips outer).append (hscans outer)⟩
  | case6 => cases h
  | case7 parts holes acc p c rest hrest after _ htick hdollar hslash ih =>
    obtain ⟨hbrace, ds, hne, hds, hscans⟩ := ih h
    refine ⟨hbrace, _, List.cons_ne_nil _ _, .cons hrest hds, fun outer => ?_⟩
    by_cases hc : c = '$'
    · subst hc
      obtain ⟨d, ds, rfl⟩ := List.exists_cons_of_ne_nil hne
      refine Scans.dollar ?_ (hscans outer)
      rintro rfl
      have hhead : after.rest.head? = some '\x7b' := by rw [hds.rest]; rfl
      rw [hhead] at hdollar
      exact hdollar rfl
    · exact Scans.cons (scans_textChar (by simpa using hslash) (by simpa using htick) hc)
        (hscans outer)

theorem isIdentChar_of_isIdentStart {c : Char} (h : isIdentStart c = true) :
    isIdentChar c = true := by
  unfold isIdentStart at h
  unfold isIdentChar isAlphanumeric
  grind

theorem second_place {p : Place} {c : Char} {rest : List Char} (hp : p.rest = c :: rest)
    (hc : c.utf8Size = 1) :
    (⟨p.offset + 1, p.rest.drop 1⟩ : Place) = ⟨p.offset + c.utf8Size, rest⟩ := by
  rw [hp, hc]
  rfl

theorem readPatternBody_spans {start offset : Nat} {inClass : Bool} {acc cs body : List Char}
    {q : Place} (h : readPatternBody start inClass acc offset cs = .ok (body, q)) :
    ∃ ds, Place.Spans ⟨offset, cs⟩ q ds := by
  fun_induction readPatternBody start inClass acc offset cs with
  | case1 => cases h
  | case2 => cases h
  | case3 inClass acc offset c rest ih =>
    obtain ⟨ds, hds⟩ := ih h
    exact ⟨_, .cons rfl (.cons rfl hds)⟩
  | case4 => cases h
  | case5 inClass acc offset c rest _ _ _ hslash =>
    obtain ⟨-, rfl⟩ := Prod.mk.inj (Except.ok.inj h)
    obtain rfl := eq_of_beq (Bool.and_eq_true .. |>.mp hslash).1
    exact ⟨['/'], .cons rfl (.nil _)⟩
  | case6 inClass acc offset c rest _ _ _ _ ih =>
    obtain ⟨ds, hds⟩ := ih h
    exact ⟨_, .cons rfl hds⟩

theorem readPattern_spans {p q : Place} {l : Lexeme} {c : Char} {rest : List Char}
    (hp : p.rest = c :: rest) (hc : c.utf8Size = 1) (h : readPattern p = .ok (l, q)) :
    ∃ cs, p.Spans q (c :: cs) ∧ l.isPattern = true := by
  unfold readPattern at h
  split at h
  · cases h
  · next body r hbody =>
    cases h
    obtain ⟨cs, hcs⟩ := readPatternBody_spans hbody
    rw [second_place hp hc] at hcs
    exact ⟨_, .cons hp (hcs.append (spans_takeWhile r Char.isAlpha)), rfl⟩

theorem punctAt?_eq {cs rest : List Char} {punct : Punct} (h : punctAt? cs = some (punct, rest)) :
    cs = punct.spelling.toList ++ rest := by
  unfold punctAt? at h
  obtain ⟨p, -, hp⟩ := List.exists_of_findSome?_eq_some h
  obtain ⟨rest, hrest, heq⟩ := Option.map_eq_some_iff.mp hp
  cases heq
  unfold Punct.startsAt? at hrest
  split at hrest
  · cases hrest
  · next heq =>
    split at hrest
    · cases hrest
    · cases hrest
      exact stripStart?_eq_some_iff.mp heq

theorem readPunct_spans {p q : Place} {l : Lexeme} (h : readPunct p = .ok (l, q)) :
    ∃ punct, l = .punct punct ∧ p.Spans q punct.spelling.toList := by
  unfold readPunct at h
  split at h
  · next punct rest hpunct =>
    cases h
    exact ⟨punct, rfl, punctAt?_eq hpunct, rfl⟩
  · cases h

theorem scans_punct (punct : Punct) (n m : Nat) (outer : List Surround)
    (h : (Lexeme.punct punct).bracesAfter n = some m) :
    Scans (.code (n + 1) :: outer) (.code (m + 1) :: outer) punct.spelling.toList := by
  cases punct
  case braceOpen =>
    cases h
    exact scans_open
  case braceClose =>
    match n, h with
    | n + 1, h =>
      cases h
      exact scans_close
  all_goals
    cases h
    exact scans_of_any (by decide)

/-- Any other token than a regular expression changes the open braces for the scanner as it does
for the parser. -/
theorem readLexeme_spans {previous : Option Lexeme} {p q : Place} {c : Char} {rest : List Char}
    {l : Lexeme} (hp : p.rest = c :: rest)
    (h : readLexeme previous p c rest.head? = .ok (l, q)) :
    ∃ cs, cs ≠ [] ∧ p.Spans q cs ∧ (l.isPattern = false → ∀ n m outer,
      l.bracesAfter n = some m → Scans (.code (n + 1) :: outer) (.code (m + 1) :: outer) cs) := by
  have hsame {cs : List Char} (hbrace : l.isBrace = false)
      (hscans : ∀ n outer, Scans (.code n :: outer) (.code n :: outer) cs) (n m : Nat)
      (outer : List Surround) (hm : l.bracesAfter n = some m) :
      Scans (.code (n + 1) :: outer) (.code (m + 1) :: outer) cs := by
    rw [bracesAfter_of_not hbrace] at hm
    cases hm
    exact hscans _ _
  unfold readLexeme at h
  split at h
  · obtain ⟨cs, hne, hcs, hmarks, hbrace⟩ := readNumber_spans h
    exact ⟨cs, hne, hcs, fun _ => hsame hbrace fun _ _ => scans_of_not_isMark hmarks⟩
  split at h
  · next hquote =>
    split at h
    · next hstring =>
      cases h
      obtain ⟨cs, hcs, hscans⟩ := scans_string hquote hstring
      refine ⟨c :: cs, List.cons_ne_nil _ _, .cons hp ?_, fun _ => hsame rfl hscans⟩
      have hsize : c.utf8Size = 1 := by
        rcases Bool.or_eq_true .. |>.mp hquote with hc | hc
        · rw [eq_of_beq hc]
          rfl
        · rw [eq_of_beq hc]
          rfl
      rwa [second_place hp hsize] at hcs
    · cases h
  split at h
  · next htick =>
    obtain rfl := eq_of_beq htick
    obtain ⟨hbrace, cs, -, hcs, hscans⟩ := readTemplate_spans h
    refine ⟨'\x60' :: cs, List.cons_ne_nil _ _, .cons hp ?_,
      fun _ => hsame hbrace fun n outer => scans_tick.cons (hscans _)⟩
    rwa [second_place hp rfl] at hcs
  split at h
  · next hstart =>
    cases h
    refine ⟨_, ?_, spans_takeWhile p isIdentChar,
      fun _ => hsame rfl fun _ _ => scans_of_not_isMark (isMark_of_mem_takeWhile (by decide))⟩
    rw [hp, List.takeWhile_cons_of_pos (isIdentChar_of_isIdentStart hstart)]
    exact List.cons_ne_nil _ _
  split at h
  · next hslash =>
    obtain rfl := eq_of_beq (Bool.and_eq_true .. |>.mp hslash).1
    obtain ⟨cs, hcs, hpattern⟩ := readPattern_spans hp rfl h
    refine ⟨_, List.cons_ne_nil _ _, hcs, fun hother => ?_⟩
    rw [hpattern] at hother
    cases hother
  · obtain ⟨punct, hl, hcs⟩ := readPunct_spans h
    subst hl
    refine ⟨_, ?_, hcs, fun _ n m outer => scans_punct punct n m outer⟩
    cases punct <;> exact List.cons_ne_nil _ _

/-! ## 3. Comments and regular expressions -/

theorem skipLine_spans (offset : Nat) (cs : List Char) :
    ∃ ds, Place.Spans ⟨offset, cs⟩ (skipLine offset cs) ds := by
  induction cs generalizing offset with
  | nil => exact ⟨[], .nil _⟩
  | cons c cs ih =>
    unfold skipLine
    split
    · exact ⟨[], .nil _⟩
    · obtain ⟨ds, hds⟩ := ih (offset + c.utf8Size)
      exact ⟨_, .cons rfl hds⟩

/-- A comment behind its opening mark, and the mark that closes it. -/
theorem spans_comment {offset : Nat} {rest inside after : List Char}
    (h : cutAt? ['*', '/'] rest = some (inside, after)) :
    Place.Spans ⟨offset + 2, rest⟩ ⟨offset + byteLength inside + 4, after⟩
      (inside ++ ['*', '/']) := by
  have htwo : byteLength ['*', '/'] = 2 := rfl
  refine ⟨eq_of_cutAt? h, ?_⟩
  rw [byteLength_append, htwo]
  dsimp only
  omega

theorem skipTrivia_spans {p q : Place} (h : skipTrivia p = .ok q) : ∃ cs, p.Spans q cs := by
  fun_induction skipTrivia p with
  | case1 p rest hrest _ ih =>
    obtain ⟨ds, hds⟩ := ih h
    obtain ⟨cs, hcs⟩ := skipLine_spans (p.offset + 2) rest
    exact ⟨_, .cons hrest (.cons rfl (hcs.append hds))⟩
  | case2 p rest hrest inside after hcut _ ih =>
    obtain ⟨ds, hds⟩ := ih h
    exact ⟨_, .cons hrest (.cons rfl ((spans_comment hcut).append hds))⟩
  | case3 => cases h
  | case4 p c rest _ _ hrest _ _ ih =>
    obtain ⟨ds, hds⟩ := ih h
    exact ⟨_, .cons hrest hds⟩
  | case5 =>
    cases h
    exact ⟨[], .nil _⟩
  | case6 =>
    cases h
    exact ⟨[], .nil _⟩

/-- The characters from one place up to a later one. -/
def Place.upTo (p q : Place) : List Char := p.rest.take (p.rest.length - q.rest.length)

theorem Place.Spans.upTo_eq {p q : Place} {cs : List Char} (h : p.Spans q cs) : p.upTo q = cs := by
  unfold Place.upTo
  rw [h.rest, List.length_append, Nat.add_sub_cancel, List.take_left]

/-- The parts of a text that the scanner does not know: regular expressions, and what stands
between two tokens where it is not blank. -/
def hiddenFrom : Nat → Option Lexeme → Place → List (List Char)
  | 0, _, _ => []
  | bound + 1, previous, p =>
    match skipTrivia p with
    | .error _ => []
    | .ok p' =>
      let between := if (p.upTo p').all isBlank then [] else [p.upTo p']
      match p'.rest with
      | [] => between
      | c :: rest =>
        match readLexeme previous p' c rest.head? with
        | .error _ => between
        | .ok (l, q) =>
          let pattern := if l.isPattern then [p'.upTo q] else []
          between ++ pattern ++ hiddenFrom bound (some l) q

/-- The comments of a source text, each with the blanks around it, and its regular expressions. -/
def hidden (source : String) : List String :=
  let p := Place.ofText source
  (hiddenFrom (p.rest.length + 1) none p).map String.ofList

/-- Open braces are left as they are. -/
def Passes (cs : List Char) : Prop :=
  ∀ n outer, Scans (.code (n + 1) :: outer) (.code (n + 1) :: outer) cs

theorem passes_between {p q : Place} {cs : List Char} (h : p.Spans q cs)
    (hhidden : ∀ cs ∈ (if (p.upTo q).all isBlank then [] else [p.upTo q]), Passes cs) :
    Passes cs := by
  rw [h.upTo_eq] at hhidden
  split at hhidden
  · next hblank =>
    exact fun n outer => scans_of_not_isMark fun c hc =>
      isMark_eq_false (by decide) (List.all_eq_true.mp hblank c hc)
  · exact hhidden cs (List.mem_singleton_self cs)

theorem bracesAfter_cons {n m : Nat} {l : Lexeme} {ls : List Lexeme}
    (h : bracesAfter n (l :: ls) = some m) :
    ∃ k, l.bracesAfter n = some k ∧ bracesAfter k ls = some m :=
  Option.bind_eq_some_iff.mp h

/-- The scanner goes over the text of an expression if it goes over what is hidden in it. -/
theorem scans_of_tokensFrom {bound : Nat} {acc us : List Token} {p : Place} {i j n : Nat}
    (hbound : p.rest.length < bound)
    (htokens : tokensFrom bound acc p = .ok (acc.reverse ++ us ++ [⟨.finish, n⟩]))
    (hbraces : bracesAfter i (us.map Token.lexeme) = some j)
    (hhidden : ∀ cs ∈ hiddenFrom bound (acc.head?.map Token.lexeme) p, Passes cs)
    (outer : List Surround) :
    Scans (.code (i + 1) :: outer) (.code (j + 1) :: outer) p.rest := by
  induction bound generalizing acc us p i with
  | zero => cases hbound
  | succ bound ih =>
    unfold tokensFrom at htokens
    unfold hiddenFrom at hhidden
    split at htokens
    · cases htokens
    next p' htrivia =>
    obtain ⟨ds, hds⟩ := skipTrivia_spans htrivia
    rw [htrivia] at hhidden
    rw [hds.rest]
    dsimp only at hhidden
    split at htokens
    · next hend =>
      rw [hend] at hhidden ⊢
      have hpass := passes_between hds hhidden
      have hus : us = [] := by
        have hlength := congrArg List.length (Except.ok.inj htokens)
        simp only [List.length_reverse, List.length_append, List.length_cons, List.length_nil]
          at hlength
        exact List.eq_nil_of_length_eq_zero (by omega)
      subst hus
      cases hbraces
      rw [List.append_nil]
      exact hpass _ outer
    · next c rest hrest =>
      rw [hrest] at hhidden
      dsimp only at hhidden
      split at htokens
      · cases htokens
      next l q hread =>
      rw [hread] at hhidden
      dsimp only at hhidden
      obtain ⟨cs, hne, hcs, hscans⟩ := readLexeme_spans hrest hread
      simp only [List.append_assoc, List.forall_mem_append] at hhidden
      obtain ⟨hbetween, hpattern, hlater⟩ := hhidden
      -- the tokens after this one
      obtain ⟨vs, m, hvs, -⟩ := tokensFrom_eq_append htokens
      have hcons : us ++ [⟨.finish, n⟩] = (⟨l, p'.offset⟩ :: vs) ++ [⟨.finish, m⟩] := by
        rw [List.reverse_cons, List.append_assoc, List.append_assoc, List.append_assoc] at hvs
        exact List.append_cancel_left hvs
      obtain ⟨rfl, hend⟩ := List.append_inj' hcons rfl
      cases hend
      obtain ⟨k, hk, hvs⟩ := bracesAfter_cons hbraces
      have hlength : q.rest.length < bound := by
        have hcs := congrArg List.length hcs.rest
        have hds := congrArg List.length hds.rest
        have hpos := List.length_pos_iff.mpr hne
        rw [List.length_append] at hcs hds
        omega
      have htokens : tokensFrom bound (⟨l, p'.offset⟩ :: acc) q =
          .ok ((⟨l, p'.offset⟩ :: acc).reverse ++ vs ++ [⟨.finish, n⟩]) := by
        rw [htokens, List.reverse_cons]
        simp only [List.append_assoc, List.cons_append, List.nil_append]
      refine (passes_between hds hbetween i outer).append ?_
      rw [hcs.rest]
      refine Scans.append ?_ (ih hlength htokens hvs hlater)
      cases hl : l.isPattern with
      | false => exact hscans hl i k outer hk
      | true =>
        rw [hl, hcs.upTo_eq] at hpattern
        rw [bracesAfter_of_not] at hk
        · cases hk
          exact hpattern cs (List.mem_singleton_self cs) _ outer
        · cases l <;> first | rfl | cases hl

/-! ## 4. Expressions in templates -/

theorem readTemplate_holes {start : Nat} {parts : List String} {hs : List Hole} {acc : List Char}
    {p q : Place} {l : Lexeme} (h : readTemplate start parts hs acc p = .ok (l, q)) :
    ∃ parts' hs', l = .template parts' (hs.reverse ++ hs') := by
  fun_induction readTemplate start parts hs acc p with
  | case1 => cases h
  | case2 parts hs acc p c rest hrest after _ htick =>
    obtain ⟨rfl, -⟩ := Prod.mk.inj (Except.ok.inj h)
    exact ⟨_, [], by rw [List.append_nil]⟩
  | case3 parts hs acc p c rest hrest after _ htick hdollar body close r hhole _ source ih =>
    obtain ⟨parts', hs', rfl⟩ := ih h
    refine ⟨parts', ⟨body.offset, .ofList source⟩ :: hs', ?_⟩
    rw [List.reverse_cons, List.append_assoc]
    rfl
  | case4 => cases h
  | case5 => next ih => exact ih h
  | case6 => cases h
  | case7 => next ih => exact ih h

theorem readTemplate_tick (start : Nat) (parts : List String) (hs : List Hole) (acc : List Char)
    (offset : Nat) (rest : List Char) :
    readTemplate start parts hs acc ⟨offset, '\x60' :: rest⟩ =
      .ok (.template (.ofList acc.reverse :: parts).reverse hs.reverse, ⟨offset + 1, rest⟩) := by
  rw [readTemplate]
  rfl

theorem readTemplate_hole (start : Nat) (parts : List String) (hs : List Hole) (acc : List Char)
    (offset : Nat) (rest : List Char) :
    readTemplate start parts hs acc ⟨offset, '$' :: '\x7b' :: rest⟩ =
      match skipHole start [.code 1] ⟨offset + 2, rest⟩ with
      | .ok (close, q) =>
        let source := rest.take (rest.length - close.rest.length)
        readTemplate start (.ofList acc.reverse :: parts)
          (⟨offset + 2, .ofList source⟩ :: hs) [] q
      | .error e => .error e := by
  rw [readTemplate]
  dsimp only
  rw [if_neg (by decide), if_pos (by rfl)]
  split
  · next heq =>
    have heq : skipHole start [.code 1] ⟨offset + 2, rest⟩ = _ := heq
    rw [heq]
    rfl
  · next heq =>
    have heq : skipHole start [.code 1] ⟨offset + 2, rest⟩ = _ := heq
    rw [heq]

/-- What the scanner goes through when it looks for the end of the substitution. -/
def holeBody (source : String) : List Char := source.toList ++ ['\x7d', '\x60']

theorem tokenize_holeText (source : String) : tokenize (holeText source) =
    match skipHole 0 [.code 1] ⟨3, holeBody source⟩ with
    | .error e => .error e
    | .ok (close, q) =>
      let inside := (holeBody source).take ((holeBody source).length - close.rest.length)
      match readTemplate 0 [""] [⟨3, .ofList inside⟩] [] q with
      | .error e => .error e
      | .ok (l, r) => tokensFrom ((holeBody source).length + 2 + 1) [⟨l, 0⟩] r := by
  have htext : (holeText source).toList = '\x60' :: '$' :: '\x7b' :: holeBody source := by
    unfold holeText holeBody
    simp
  unfold tokenize Place.ofText
  rw [htext]
  show tokensFrom _ [] ⟨0, _⟩ = _
  rw [tokensFrom, skipTrivia_stop (by decide) (by decide)]
  show (match readTemplate 0 [] [] [] ⟨1, '$' :: '\x7b' :: holeBody source⟩ with
    | .error e => Except.error e
    | .ok (l, q) => tokensFrom ((holeBody source).length + 2 + 1) [⟨l, 0⟩] q) = _
  rw [readTemplate_hole]
  cases skipHole 0 [.code 1] ⟨3, holeBody source⟩ <;> rfl

/-- What the scanner finds decides whether a text fills a substitution. -/
def closesBehind (source : String) : Bool :=
  match skipHole 0 [.code 1] ⟨3, holeBody source⟩ with
  | .ok (close, _) => close.rest = ['\x7d', '\x60']
  | .error _ => false

theorem closesBehind_of_fillsHole {source : String} (h : FillsHole source) :
    closesBehind source = true := by
  unfold FillsHole at h
  rw [tokenize_holeText] at h
  unfold closesBehind
  split at h
  · cases h
  next close q hskip =>
  rw [hskip]
  refine decide_eq_true ?_
  dsimp only at h
  split at h
  · cases h
  next l r hread =>
  obtain ⟨cs, hcs⟩ := skipHole_closes_one hskip
  obtain ⟨parts, hs, rfl⟩ := readTemplate_holes hread
  obtain ⟨us, n, htokens, -⟩ := tokensFrom_eq_append h
  have hhole : (⟨3, source⟩ : Hole) = ⟨3, .ofList cs⟩ := by
    have hinside := hcs.spans.upTo_eq
    unfold Place.upTo at hinside
    rw [hinside] at htokens
    rw [List.reverse_singleton, List.singleton_append, List.cons_append] at htokens
    have hlexeme := congrArg Token.lexeme (List.cons.inj htokens).1
    exact (List.cons.inj (Lexeme.template.inj hlexeme).2).1
  have hbody := hcs.spans.rest
  have hsource : cs = source.toList := by
    cases hhole
    rw [String.toList_ofList]
  rw [hsource] at hbody
  exact (List.append_cancel_left hbody).symm

theorem exists_closes {source : String} (h : closesBehind source = true) :
    ∃ close q, skipHole 0 [.code 1] ⟨3, holeBody source⟩ = .ok (close, q) ∧
      close.rest = ['\x7d', '\x60'] ∧ Closes [] 0 ⟨3, holeBody source⟩ close q source.toList := by
  unfold closesBehind at h
  split at h
  · next close q hskip =>
    have hrest := of_decide_eq_true h
    obtain ⟨cs, hcs⟩ := skipHole_closes_one hskip
    have hbody := hcs.spans.rest
    rw [hrest] at hbody
    obtain rfl := List.append_cancel_right hbody
    exact ⟨close, q, hskip, hrest, hcs⟩
  · cases h

theorem fillsHole_of_closesBehind {source : String} (h : closesBehind source = true) :
    FillsHole source := by
  obtain ⟨close, q, hskip, hrest, hcs⟩ := exists_closes h
  unfold FillsHole
  rw [tokenize_holeText, hskip]
  dsimp only
  have hinside := hcs.spans.upTo_eq
  unfold Place.upTo at hinside
  rw [hinside]
  have hq : q = ⟨byteLength source.toList + 4, ['\x60']⟩ := by
    have hbrace := hcs.brace.rest
    rw [hrest] at hbrace
    have hmark : q.rest = ['\x60'] := (List.cons.inj hbrace).2.symm
    rw [hcs.brace.eq, hcs.spans.offset, hmark]
    show (⟨3 + byteLength source.toList + 1, _⟩ : Place) = _
    congr 1
    omega
  rw [hq, readTemplate_tick]
  dsimp only
  rw [tokensFrom, skipTrivia_nil, String.ofList_toList]
  rfl

theorem fillsHole_iff (source : String) : FillsHole source ↔ closesBehind source = true :=
  ⟨closesBehind_of_fillsHole, fillsHole_of_closesBehind⟩

instance (source : String) : Decidable (FillsHole source) :=
  decidable_of_iff _ (fillsHole_iff source).symm

theorem passes_of_fillsHole {source : String} (h : FillsHole source) : Passes source.toList := by
  obtain ⟨close, q, -, -, hcs⟩ := exists_closes (closesBehind_of_fillsHole h)
  intro n outer
  have hscans := hcs.scans n outer
  rwa [Nat.zero_add, Nat.add_comm 1 n] at hscans

/-- An expression can stand in a template if what is hidden in it from the scanner could. -/
theorem fillsHole_of_readExpr {source : String} {e : Expr} (h : readExpr source = .ok e)
    (hhidden : ∀ s ∈ hidden source, FillsHole s) : FillsHole source := by
  obtain ⟨ts, n, htokens, hbraces⟩ := readExpr_braces h
  have hpass : ∀ cs ∈ hiddenFrom (source.toList.length + 1) none (Place.ofText source),
      Passes cs := by
    intro cs hcs
    have hs := passes_of_fillsHole (hhidden _ (List.mem_map_of_mem hcs))
    rwa [String.toList_ofList] at hs
  have htokens : tokensFrom (source.toList.length + 1) [] (Place.ofText source) =
      .ok (List.reverse [] ++ ts ++ [⟨.finish, n⟩]) := htokens
  have hscans : Scans [.code 1] [.code 1] source.toList :=
    scans_of_tokensFrom (Nat.lt_succ_self _) htokens hbraces hpass []
  refine fillsHole_of_closesBehind ?_
  unfold closesBehind holeBody
  rw [hscans 0 3, skipHole_code]
  rfl

/-- A regular expression, a comment, a string with a brace and a template inside. -/
def crowdedSource : String := "/[0-9]\x7b2\x7d/.test(x) /* two */ ? '\x7d' : `$\x7by\x7d`"

theorem fillsHole_crowdedSource :
    hidden crowdedSource = ["/[0-9]\x7b2\x7d/", " /* two */ "] ∧ FillsHole crowdedSource := by
  have hhidden : hidden crowdedSource = ["/[0-9]\x7b2\x7d/", " /* two */ "] := by decide +kernel
  have hread : ∃ e, readExpr crowdedSource = .ok e := by
    have hok : (readExpr crowdedSource).toBool = true := by decide +kernel
    cases h : readExpr crowdedSource with
    | ok e => exact ⟨e, rfl⟩
    | error => rw [h] at hok; cases hok
  obtain ⟨e, he⟩ := hread
  refine ⟨hhidden, fillsHole_of_readExpr he ?_⟩
  rw [hhidden]
  decide +kernel

/-- The brace in a regular expression is taken for the end. -/
theorem not_fillsHole_bracePattern :
    (readExpr "/\x7d/").toBool = true ∧ ¬FillsHole "/\x7d/" := by decide +kernel

end TraceViewer.Snippet
