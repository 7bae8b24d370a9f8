import TraceViewer.Proofs.Regex.Matching

/-!
# Texts as patterns

An escaped text is read as the pattern that matches the text literally, unless it is too large.  As
matches follow one another too, the library keeps its promises.
-/

namespace TraceViewer.Regex

open TraceViewer.Text

/-! ## 1. Reading an escaped text -/

/-- Each character that has a meaning of its own can be escaped. -/
theorem readEscape_of_isMeta {c : Char} (hc : isMeta c = true) (rest : List Char) :
    readEscape {} (c :: rest) = .ok (.char c, rest) := by
  unfold isMeta at hc
  simp only [List.contains_eq_mem, decide_eq_true_eq, List.mem_cons, List.not_mem_nil,
    or_false] at hc
  rcases hc with rfl | rfl | rfl | rfl | rfl | rfl | rfl | rfl | rfl | rfl | rfl | rfl | rfl |
    rfl | rfl | rfl | rfl | rfl <;> rfl

section Steps

variable {p : Progress} (hflags : p.flags = {}) (c : Char) (rest : List Char)
include hflags

theorem step_of_isMeta (hc : isMeta c = true) :
    p.step '\\' (c :: rest) = .ok (p.add (.oneOf (.ofChar c)), rest) := by
  unfold Progress.step
  dsimp only
  rw [hflags, readEscape_of_isMeta hc]
  rfl

theorem step_of_not_isMeta (hc : isMeta c = false) :
    p.step c rest = .ok (p.add (.oneOf (.ofChar c)), rest) := by
  unfold Progress.step
  dsimp only
  split
  case h_13 => rw [hflags]; rfl
  -- the other cases are characters that have a meaning of their own
  all_goals cases hc

theorem run_cons {p' : Progress} {rest' : List Char} (hstep : p.step c rest = .ok (p', rest'))
    (bound : Nat) : p.run (bound + 1) (c :: rest) = p'.run bound rest' := by
  have hskip : p.flags.skip (c :: rest) = c :: rest := by
    rw [hflags]
    rfl
  rw [Progress.run, hskip]
  dsimp only
  rw [hstep]

/-- An escaped character takes one step, in which it is added as itself. -/
theorem run_escapeChar (bound : Nat) :
    p.run (bound + 1) (escapeChar c ++ rest) = (p.add (.oneOf (.ofChar c))).run bound rest := by
  unfold escapeChar
  cases hc : isMeta c with
  | true => exact run_cons hflags _ _ (step_of_isMeta hflags c rest hc) bound
  | false => exact run_cons hflags _ _ (step_of_not_isMeta hflags c rest hc) bound

end Steps

/-- What a pattern stands for when its text is read to the end. -/
def Progress.result (p : Progress) : Except PatternFault Regex :=
  if maxWeight < p.content.weight then .error .tooLarge else .ok ⟨p.content, p.names⟩

/-- The characters of a text as items, the last one first. -/
def literalItems (cs : List Char) : List Item :=
  cs.reverse.map fun c => .pattern (.oneOf (.ofChar c))

theorem run_escaped (cs : List Char) : ∀ (bound : Nat) (p : Progress), p.flags = {} →
    p.around = [] → cs.length < bound →
    p.run bound (cs.flatMap escapeChar) =
      Progress.result { p with items := literalItems cs ++ p.items } := by
  induction cs with
  | nil =>
    intro bound p hflags haround hbound
    obtain ⟨bound, rfl⟩ := Nat.exists_eq_add_one_of_ne_zero (Nat.ne_of_gt hbound)
    unfold Progress.run
    rw [hflags, haround]
    rfl
  | cons c cs ih =>
    intro bound p hflags haround hbound
    obtain ⟨bound, rfl⟩ :=
      Nat.exists_eq_add_one_of_ne_zero (Nat.ne_of_gt (Nat.zero_lt_of_lt hbound))
    have hitems : literalItems (c :: cs) ++ p.items =
        literalItems cs ++ (p.add (.oneOf (.ofChar c))).items := by
      simp [literalItems, Progress.add]
    have hrest := ih bound (p.add (.oneOf (.ofChar c))) hflags haround
      (Nat.lt_of_succ_lt_succ hbound)
    rw [List.flatMap_cons, run_escapeChar hflags, hrest, hitems]
    rfl

theorem content_literalItems (cs : List Char) :
    Progress.content { items := literalItems cs } = .literal cs := by
  show branchOf (literalItems cs) = _
  unfold branchOf literalItems Pattern.literal
  rw [← List.map_reverse, List.reverse_reverse, List.filterMap_map]
  congr 1
  exact congrFun (List.filterMap_eq_map (f := fun c => Pattern.oneOf (.ofChar c))) cs

/-- An escaped text is read as the text itself, unless that is too large. -/
theorem read_escape (s : String) :
    read (escape s) =
      if maxWeight < (Pattern.literal s.toList).weight then .error .tooLarge
      else .ok (.ofText s) := by
  have hlength (cs : List Char) : cs.length ≤ (cs.flatMap escapeChar).length := by
    induction cs with
    | nil => exact Nat.le_refl 0
    | cons c cs ih =>
      have hpos : 0 < (escapeChar c).length := by
        unfold escapeChar
        split <;> exact Nat.succ_pos _
      rw [List.flatMap_cons, List.length_append, List.length_cons]
      omega
  unfold read escape
  rw [String.toList_ofList, String.length_ofList,
    run_escaped s.toList _ {} rfl rfl (Nat.lt_succ_of_le (hlength _)), List.append_nil]
  unfold Progress.result
  rw [content_literalItems]
  rfl

/-! ## 2. The size of a text -/

theorem weightOf_literal (cs : List Char) (sum : Nat) :
    Pattern.weightOf sum (cs.map fun c => .oneOf (.ofChar c)) = sum + byteLength cs := by
  induction cs generalizing sum with
  | nil => rfl
  | cons c cs ih =>
    rw [List.map_cons, Pattern.weightOf, ih, byteLength, Nat.add_assoc]
    rfl

/-- The pattern of a text weighs as much as the text has bytes. -/
theorem weight_literal {cs : List Char} (hcs : cs ≠ []) :
    (Pattern.literal cs).weight = byteLength cs := by
  match cs, hcs with
  | [c], _ => rfl
  | c :: c' :: cs, _ =>
    have hsequence : (Pattern.literal (c :: c' :: cs)).weight =
        Pattern.weightOf 0 ((c :: c' :: cs).map fun c => .oneOf (.ofChar c)) := rfl
    rw [hsequence, weightOf_literal, Nat.zero_add]

/-- A text of more bytes than a program has room for is no pattern. -/
theorem compile_escape_tooLarge {s : String} (h : maxWeight < byteLength s.toList) :
    engine.compile (engine.escape s) = .error .tooLarge := by
  have hcs : s.toList ≠ [] := by
    intro hnil
    rw [hnil] at h
    exact absurd h (Nat.not_lt_zero _)
  unfold engine
  dsimp only
  rw [read_escape, weight_literal hcs, if_pos h]

/-! ## 3. The library -/

/-- What is compiled searches as the engine does for some pattern. -/
theorem ofRegex_of_compile {pattern : String} {searcher : Searcher}
    (h : engine.compile pattern = .ok searcher) :
    ∃ r, searcher = (Prepared.ofRegex r).searcher := by
  unfold engine at h
  dsimp only at h
  split at h
  · next regex _ =>
    cases h
    exact ⟨regex, rfl⟩
  · cases h
  · cases h

theorem lawful_engine : engine.Lawful where
  escaped s := by
    unfold engine
    dsimp only
    rw [read_escape]
    by_cases hlarge : maxWeight < (Pattern.literal s.toList).weight
    · rw [if_pos hlarge]
      simp
    · rw [if_neg hlarge]
      simp
  inOrder h text := by
    obtain ⟨regex, rfl⟩ := ofRegex_of_compile h
    exact Prepared.inOrder_searchAll regex text

end TraceViewer.Regex
