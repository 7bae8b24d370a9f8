import TraceViewer.Snippet.Lexer

/-!
# Writing out tokens

A source text that is written token by token, with a blank before each, is read as these tokens.
-/

namespace TraceViewer.Snippet

open TraceViewer.Text

/-! ## 1. Single tokens -/

/-- How punctuation and names are written. -/
def Lexeme.spelling : Lexeme → List Char
  | .punct p => p.spelling.toList
  | .name word => word.toList
  | _ => []

/-- A lexeme that is read back where a blank follows it. -/
def Lexeme.IsPlain (l : Lexeme) : Prop :=
  ∃ c cs, l.spelling = c :: cs ∧ isBlank c = false ∧ c ≠ '/' ∧
    ∀ previous offset rest,
      readLexeme previous ⟨offset, c :: cs ++ ' ' :: rest⟩ c (cs ++ ' ' :: rest).head? =
        .ok (l, ⟨offset + byteLength (c :: cs), ' ' :: rest⟩)

/-- Only a slash can be read as something else. -/
theorem isPlain_punct {p : Punct} (h : p ≠ .divide) (h' : p ≠ .divideAssign) :
    (Lexeme.punct p).IsPlain := by
  cases p
  case divide => exact absurd rfl h
  case divideAssign => exact absurd rfl h'
  all_goals exact ⟨_, _, rfl, by decide, by decide, fun _ _ _ => rfl⟩

/-! ## 2. Whole texts -/

/-- The characters of lexemes with a blank before each, and one behind them. -/
def spell : List Lexeme → List Char
  | [] => [' ']
  | l :: ls => ' ' :: l.spelling ++ spell ls

theorem spell_eq_cons (ls : List Lexeme) : ∃ cs, spell ls = ' ' :: cs := by
  cases ls with
  | nil => exact ⟨[], rfl⟩
  | cons l ls => exact ⟨l.spelling ++ spell ls, rfl⟩

theorem length_lt_spell {ls : List Lexeme} (h : ∀ l ∈ ls, l.IsPlain) :
    ls.length < (spell ls).length := by
  induction ls with
  | nil => exact Nat.one_pos
  | cons l ls ih =>
    have hlt := ih fun m hm => h m (List.mem_cons_of_mem l hm)
    rw [spell, List.length_append, List.length_cons, List.length_cons]
    omega

theorem skipTrivia_isBlank {c : Char} (hblank : isBlank c = true) (offset : Nat)
    (cs : List Char) : skipTrivia ⟨offset, c :: cs⟩ = skipTrivia ⟨offset + c.utf8Size, cs⟩ := by
  rw [skipTrivia]
  split
  · next heq =>
    obtain ⟨rfl, -⟩ := List.cons.inj heq
    cases hblank
  · next heq =>
    obtain ⟨rfl, -⟩ := List.cons.inj heq
    cases hblank
  · next heq =>
    obtain ⟨rfl, rfl⟩ := List.cons.inj heq
    exact if_pos hblank
  · next heq => cases heq

theorem skipTrivia_blank (offset : Nat) (cs : List Char) :
    skipTrivia ⟨offset, ' ' :: cs⟩ = skipTrivia ⟨offset + 1, cs⟩ :=
  skipTrivia_isBlank rfl offset cs

theorem skipTrivia_nil (offset : Nat) : skipTrivia ⟨offset, []⟩ = .ok ⟨offset, []⟩ := by
  rw [skipTrivia]

theorem skipTrivia_stop {c : Char} (hblank : isBlank c = false) (hslash : c ≠ '/') (offset : Nat)
    (cs : List Char) : skipTrivia ⟨offset, c :: cs⟩ = .ok ⟨offset, c :: cs⟩ := by
  unfold skipTrivia
  split
  · next heq => exact absurd (List.cons.inj heq).1 hslash
  · next heq => exact absurd (List.cons.inj heq).1 hslash
  · next heq =>
    obtain ⟨rfl, rfl⟩ := List.cons.inj heq
    rw [if_neg (by rw [hblank]; exact Bool.false_ne_true)]
  · rfl

/-- Reading goes through the lexemes one by one. -/
theorem tokensFrom_spell {ls : List Lexeme} (h : ∀ l ∈ ls, l.IsPlain) {bound : Nat}
    (hbound : ls.length < bound) (acc : List Token) (offset : Nat) :
    ∃ ts, tokensFrom bound acc ⟨offset, spell ls⟩ = .ok ts ∧
      ts.map Token.lexeme = acc.reverse.map Token.lexeme ++ ls ++ [.finish] := by
  induction ls generalizing bound acc offset with
  | nil =>
    obtain ⟨bound, rfl⟩ := Nat.exists_eq_succ_of_ne_zero (Nat.ne_of_gt hbound)
    refine ⟨(⟨.finish, offset + 1⟩ :: acc).reverse, ?_, ?_⟩
    · rw [spell, tokensFrom, skipTrivia_blank, skipTrivia_nil]
    · rw [List.reverse_cons, List.map_append, List.append_nil]
      rfl
  | cons l ls ih =>
    obtain ⟨bound, rfl⟩ := Nat.exists_eq_succ_of_ne_zero (Nat.ne_of_gt (Nat.zero_lt_of_lt hbound))
    obtain ⟨hl, hls⟩ := List.forall_mem_cons.mp h
    obtain ⟨c, cs, hspelling, hblank, hslash, hread⟩ := hl
    obtain ⟨rest, hrest⟩ := spell_eq_cons ls
    obtain ⟨ts, hts, hlexemes⟩ := ih hls (Nat.lt_of_succ_lt_succ hbound) (⟨l, offset + 1⟩ :: acc)
      (offset + 1 + byteLength (c :: cs))
    refine ⟨ts, ?_, ?_⟩
    · rw [spell, hspelling, hrest, List.cons_append, tokensFrom, skipTrivia_blank,
        List.cons_append, skipTrivia_stop hblank hslash]
      dsimp only
      rw [← List.cons_append, hread]
      dsimp only
      rw [← hrest]
      exact hts
    · rw [hlexemes, List.reverse_cons, List.map_append, List.append_assoc _ _ ls]
      rfl

/-- A text that is written out token by token is read as these tokens. -/
theorem tokenize_spell {ls : List Lexeme} (h : ∀ l ∈ ls, l.IsPlain) :
    ∃ ts, tokenize (.ofList (spell ls)) = .ok ts ∧ ts.map Token.lexeme = ls ++ [.finish] := by
  unfold tokenize Place.ofText
  rw [String.toList_ofList]
  exact tokensFrom_spell h (Nat.lt_succ_of_lt (length_lt_spell h)) [] 0

end TraceViewer.Snippet
