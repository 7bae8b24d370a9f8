import Mathlib.Data.List.Infix
import Mathlib.Data.List.TakeWhile
import TraceViewer.Filter

/-!
# Texts that are found in every cell that holds them

A plain search compares lower cases.  Only the lower case of a capital sigma depends on what stands
around it: it is a final sigma where a word ends.  So a text that holds one at an end that is still
open may have another lower case by itself than in a cell, and `keep_iff_isSettled` says that this
is all that keeps a text from being found where it stands.
-/

namespace TraceViewer

namespace Text

/-! ## 1. Lower case between other texts -/

/-- The first character that a search for the end of a word does not pass over. -/
def nearest? (cs : List Char) : Option Char := (cs.dropWhile isCaseIgnorable).head?

theorem leadsToCased_eq (cs : List Char) : leadsToCased cs = (nearest? cs).any isCased := by
  unfold leadsToCased nearest?
  cases cs.dropWhile isCaseIgnorable <;> rfl

/-- What is behind the nearest character does not matter. -/
theorem nearest?_append_of_some {cs : List Char} {c : Char} (h : nearest? cs = some c)
    (ds : List Char) : nearest? (cs ++ ds) = some c := by
  unfold nearest? at h ⊢
  rw [List.dropWhile_append]
  cases hdrop : cs.dropWhile isCaseIgnorable with
  | nil =>
    rw [hdrop] at h
    cases h
  | cons d rest =>
    rw [hdrop] at h
    exact h

theorem nearest?_append_of_none {cs : List Char} (h : nearest? cs = none) (ds : List Char) :
    nearest? (cs ++ ds) = nearest? ds := by
  unfold nearest? at h ⊢
  rw [List.dropWhile_append, List.head?_eq_none_iff.mp h]
  rfl

def sigma : Char := '\u03a3'

theorem isCaseIgnorable_sigma : isCaseIgnorable sigma = false := by
  have hwide : ¬sigma.toNat < 0x80 := by decide
  have htable : caseIgnorableTable.contains sigma = false := by
    unfold caseIgnorableTable CharSet.ofLines
    simp only [List.flatMap_cons, List.flatMap_nil]
    repeat rw [String.toList_ofList]
    decide +kernel
  rw [isCaseIgnorable, if_neg hwide, htable]

theorem nearest?_sigma (cs : List Char) : nearest? (sigma :: cs) = some sigma := by
  unfold nearest?
  rw [List.dropWhile_cons_of_neg (by simp [isCaseIgnorable_sigma])]
  rfl

/-- The lower case of a character that stands between `before`, the nearest first, and `after`. -/
def lowerAt (before : List Char) (c : Char) (after : List Char) : List Char :=
  if c == sigma then
    if leadsToCased before && !leadsToCased after then ['\u03c2'] else ['\u03c3']
  else lowerChar c

/-- The lower case of a text that stands between `before`, the nearest first, and `after`. -/
def lowerBetween (before : List Char) : List Char → List Char → List Char
  | [], _ => []
  | c :: cs, after => lowerAt before c (cs ++ after) ++ lowerBetween (c :: before) cs after

theorem lowerFrom_eq (before cs : List Char) : lowerFrom before cs = lowerBetween before cs [] := by
  induction cs generalizing before with
  | nil => rfl
  | cons c cs ih =>
    unfold lowerFrom lowerBetween
    rw [ih, List.append_nil]
    rfl

theorem lowerBetween_append (before cs ds after : List Char) :
    lowerBetween before (cs ++ ds) after =
      lowerBetween before cs (ds ++ after) ++ lowerBetween (cs.reverse ++ before) ds after := by
  induction cs generalizing before with
  | nil => rfl
  | cons c cs ih =>
    simp only [List.cons_append, lowerBetween, ih, List.append_assoc, List.reverse_cons,
      List.nil_append]

theorem lowerAt_sigma (before after : List Char) :
    lowerAt before sigma after =
      if (nearest? before).any isCased && !(nearest? after).any isCased then ['\u03c2']
      else ['\u03c3'] := by
  unfold lowerAt
  rw [if_pos (beq_self_eq_true sigma), leadsToCased_eq, leadsToCased_eq]

theorem lowerAt_of_ne_sigma {c : Char} (h : c ≠ sigma) (before after : List Char) :
    lowerAt before c after = lowerChar c := by
  unfold lowerAt
  exact if_neg (by simpa using h)

/-- A character looks no further than to the nearest ones. -/
theorem lowerAt_congr {before before' after after' : List Char} (c : Char)
    (hbefore : nearest? before = nearest? before') (hafter : nearest? after = nearest? after') :
    lowerAt before c after = lowerAt before' c after' := by
  unfold lowerAt
  simp only [leadsToCased_eq, hbefore, hafter]

/-- What follows a text does not matter behind a character that is not passed over. -/
theorem lowerBetween_far_after {after : List Char} {a : Char} (h : nearest? after = some a)
    (before cs ds : List Char) :
    lowerBetween before cs (after ++ ds) = lowerBetween before cs after := by
  induction cs generalizing before with
  | nil => rfl
  | cons c cs ih =>
    unfold lowerBetween
    rw [ih, ← List.append_assoc]
    congr 1
    refine lowerAt_congr c rfl ?_
    cases hnear : nearest? cs with
    | some d => rw [List.append_assoc, nearest?_append_of_some hnear, nearest?_append_of_some hnear]
    | none =>
      rw [List.append_assoc, nearest?_append_of_none hnear, nearest?_append_of_none hnear,
        nearest?_append_of_some h, h]

theorem lowerBetween_far_before {before : List Char} {b : Char} (h : nearest? before = some b)
    (cs ds after : List Char) :
    lowerBetween (before ++ ds) cs after = lowerBetween before cs after := by
  induction cs generalizing before b with
  | nil => rfl
  | cons c cs ih =>
    unfold lowerBetween
    have hnext : ∃ d, nearest? (c :: before) = some d := by
      unfold nearest? at h ⊢
      rw [List.dropWhile_cons]
      split
      · exact ⟨b, h⟩
      · exact ⟨c, rfl⟩
    obtain ⟨d, hd⟩ := hnext
    rw [← ih hd, List.cons_append]
    congr 1
    refine lowerAt_congr c ?_ rfl
    rw [nearest?_append_of_some h, h]

/-- Around a sigma a text has its lower case in three parts. -/
theorem lowerBetween_sigma (before us vs after : List Char) :
    lowerBetween before (us ++ sigma :: vs) after =
      lowerBetween before us (sigma :: vs) ++ (lowerAt (us.reverse ++ before) sigma (vs ++ after) ++
        lowerBetween (sigma :: us.reverse) vs after) := by
  have hbefore := lowerBetween_far_before (nearest?_sigma us.reverse) vs before after
  rw [List.cons_append] at hbefore
  rw [lowerBetween_append, lowerBetween_far_after (nearest?_sigma vs), lowerBetween, hbefore]

theorem ne_sigma_of_nearest?_eq_none {cs : List Char} (h : nearest? cs = none) :
    ∀ c ∈ cs, c ≠ sigma := by
  unfold nearest? at h
  rw [List.head?_eq_none_iff, List.dropWhile_eq_nil_iff] at h
  rintro c hc rfl
  have hsigma := h sigma hc
  rw [isCaseIgnorable_sigma] at hsigma
  cases hsigma

/-- Without a sigma nothing around a text matters. -/
theorem lowerBetween_of_ne_sigma {cs : List Char} (h : ∀ c ∈ cs, c ≠ sigma)
    (before after : List Char) : lowerBetween before cs after = cs.flatMap lowerChar := by
  induction cs generalizing before with
  | nil => rfl
  | cons c cs ih =>
    obtain ⟨hc, hcs⟩ := List.forall_mem_cons.mp h
    unfold lowerBetween
    rw [ih hcs, List.flatMap_cons, lowerAt_of_ne_sigma hc]

/-! ## 2. Sigmas that are settled -/

/-- Whether a sigma has the same lower case whatever stands further out than these texts: at an open
end it has if what is near at the other end already excludes the end of a word. -/
def settles (before after : List Char) : Bool :=
  match nearest? before, nearest? after with
  | some _, some _ => true
  | some b, none => !isCased b
  | none, some a => isCased a
  | none, none => false

def settledFrom (before : List Char) : List Char → Bool
  | [] => true
  | c :: cs => (c != sigma || settles before cs) && settledFrom (c :: before) cs

/-- Whether all capital sigmas of a text are settled by the text itself. -/
def isSettled (s : String) : Bool := settledFrom [] s.toList

theorem settledFrom_of_ne_sigma {cs : List Char} (h : ∀ c ∈ cs, c ≠ sigma) (before : List Char) :
    settledFrom before cs = true := by
  induction cs generalizing before with
  | nil => rfl
  | cons c cs ih =>
    obtain ⟨hc, hcs⟩ := List.forall_mem_cons.mp h
    unfold settledFrom
    rw [ih hcs]
    simp [hc]

/-- Without a capital sigma nothing is open. -/
theorem isSettled_of_ne_sigma {s : String} (h : ∀ c ∈ s.toList, c ≠ sigma) :
    isSettled s = true :=
  settledFrom_of_ne_sigma h []

theorem lowerAt_of_settles {before after : List Char} (h : settles before after = true)
    (before' after' : List Char) :
    lowerAt (before ++ before') sigma (after ++ after') = lowerAt before sigma after := by
  unfold settles at h
  rw [lowerAt_sigma, lowerAt_sigma]
  cases hb : nearest? before with
  | some b =>
    rw [nearest?_append_of_some hb]
    cases ha : nearest? after with
    | some a => rw [nearest?_append_of_some ha]
    | none =>
      -- a letter without case in front: no word ends here
      rw [hb, ha] at h
      have hb' : isCased b = false := by simpa using h
      simp [hb']
  | none =>
    cases ha : nearest? after with
    | some a =>
      -- a cased letter behind: the word goes on
      rw [hb, ha] at h
      have ha' : isCased a = true := h
      rw [nearest?_append_of_some ha]
      simp [ha']
    | none =>
      rw [hb, ha] at h
      cases h

/-- A settled text has one lower case. -/
theorem lowerBetween_of_settledFrom {before cs : List Char} (h : settledFrom before cs = true)
    (before' after' : List Char) :
    lowerBetween (before ++ before') cs after' = lowerBetween before cs [] := by
  induction cs generalizing before with
  | nil => rfl
  | cons c cs ih =>
    unfold settledFrom at h
    obtain ⟨hc, hcs⟩ := Bool.and_eq_true_iff.mp h
    unfold lowerBetween
    rw [List.append_nil, ← ih hcs, List.cons_append]
    congr 1
    by_cases hsigma : c = sigma
    · subst hsigma
      exact lowerAt_of_settles (by simpa using hc) before' after'
    · rw [lowerAt_of_ne_sigma hsigma, lowerAt_of_ne_sigma hsigma]

theorem exists_open_of_not_settledFrom {before cs : List Char}
    (h : settledFrom before cs = false) :
    ∃ us vs, cs = us ++ sigma :: vs ∧ settles (us.reverse ++ before) vs = false := by
  induction cs generalizing before with
  | nil => cases h
  | cons c cs ih =>
    unfold settledFrom at h
    rcases Bool.and_eq_false_iff.mp h with hc | hcs
    · obtain ⟨hsigma, hopen⟩ := Bool.or_eq_false_iff.mp hc
      have hsigma : c = sigma := by simpa using hsigma
      exact ⟨[], cs, by rw [hsigma]; rfl, hopen⟩
    · obtain ⟨us, vs, rfl, hopen⟩ := ih hcs
      refine ⟨c :: us, vs, rfl, ?_⟩
      simpa using hopen

/-! ## 3. Occurrences -/

theorem hasInfix_iff {needle cs : List Char} : hasInfix needle cs = true ↔ needle <:+: cs := by
  unfold hasInfix
  induction cs with
  | nil =>
    unfold cutAt?
    cases needle <;> simp
  | cons c cs ih =>
    unfold cutAt?
    cases hstart : stripStart? needle (c :: cs) with
    | some rest =>
      refine iff_of_true rfl ⟨[], rest, ?_⟩
      rw [List.nil_append, stripStart?_eq_some_iff.mp hstart]
    | none =>
      have hno : ¬ needle <+: c :: cs := by
        rintro ⟨rest, hrest⟩
        rw [stripStart?_eq_some_iff.mpr hrest.symm] at hstart
        cases hstart
      rw [List.infix_cons_iff, ← ih]
      simp [hno]

/-- The lower case of a settled text stands in the lower case of every text that holds it. -/
theorem lowerFrom_infix {cs ds : List Char} (h : settledFrom [] cs = true) (hin : cs <:+: ds) :
    lowerFrom [] cs <:+: lowerFrom [] ds := by
  obtain ⟨us, vs, rfl⟩ := hin
  rw [lowerFrom_eq, lowerFrom_eq, lowerBetween_append, lowerBetween_append, List.append_nil]
  have hsame := lowerBetween_of_settledFrom h us.reverse vs
  rw [List.nil_append] at hsame
  rw [List.append_nil, hsame]
  exact ⟨_, _, rfl⟩

/-- A lower case with one character in place of a `c` does not hold what has a `c` more. -/
theorem not_infix_of_replaced {c d : Char} (hne : d ≠ c) {us vs ps qs : List Char}
    (hps : c ∉ ps) (hqs : c ∉ qs) : ¬ us ++ c :: vs <:+: ps ++ (us ++ d :: vs) ++ qs := by
  intro hin
  have hcount := hin.sublist.count_le c
  simp only [List.count_append, List.count_cons_self, List.count_cons_of_ne hne,
    List.count_eq_zero_of_not_mem hps, List.count_eq_zero_of_not_mem hqs] at hcount
  omega

theorem nearest?_letter : nearest? ['a'] = some 'a' := by decide

theorem isCased_letter : isCased 'a' = true := by decide

variable {us vs : List Char}

/-- A sigma at the open end of a word is a final one, and a letter behind the text makes it an inner
one. -/
theorem not_lowerFrom_infix_append {b : Char} (hbefore : nearest? us.reverse = some b)
    (hb : isCased b = true) (hafter : nearest? vs = none) :
    ¬ lowerFrom [] (us ++ sigma :: vs) <:+: lowerFrom [] (us ++ sigma :: vs ++ ['a']) := by
  have hvs := lowerBetween_of_ne_sigma (ne_sigma_of_nearest?_eq_none hafter)
  have hfinal : lowerFrom [] (us ++ sigma :: vs) =
      lowerBetween [] us (sigma :: vs) ++ '\u03c2' :: vs.flatMap lowerChar := by
    rw [lowerFrom_eq, lowerBetween_sigma, hvs, lowerAt_sigma, List.append_nil, List.append_nil,
      hbefore, hafter]
    simp [hb]
  have hinner : lowerFrom [] (us ++ sigma :: vs ++ ['a']) =
      [] ++ (lowerBetween [] us (sigma :: vs) ++ '\u03c3' :: vs.flatMap lowerChar) ++ ['a'] := by
    rw [lowerFrom_eq, lowerBetween_append, lowerBetween_sigma, hvs, lowerAt_sigma, List.append_nil,
      List.append_nil, hbefore, nearest?_append_of_none hafter, nearest?_letter]
    simp [isCased_letter, lowerBetween, lowerAt, sigma, lowerChar]
  rw [hfinal, hinner]
  exact not_infix_of_replaced (by decide) (by decide) (by decide)

/-- A sigma at the open start of a word is an inner one, and a letter in front of the text makes it
a final one where no word goes on. -/
theorem not_lowerFrom_infix_cons (hbefore : nearest? us.reverse = none)
    (hafter : (nearest? vs).any isCased = false) :
    ¬ lowerFrom [] (us ++ sigma :: vs) <:+: lowerFrom [] ('a' :: (us ++ sigma :: vs)) := by
  have hne : ∀ c ∈ us, c ≠ sigma := fun c hc =>
    ne_sigma_of_nearest?_eq_none hbefore c (List.mem_reverse.mpr hc)
  have hus := lowerBetween_of_ne_sigma hne
  have hinner : lowerFrom [] (us ++ sigma :: vs) =
      us.flatMap lowerChar ++ '\u03c3' :: lowerBetween (sigma :: us.reverse) vs [] := by
    rw [lowerFrom_eq, lowerBetween_sigma, hus, lowerAt_sigma, List.append_nil, hbefore]
    rfl
  have hfinal : lowerFrom [] ('a' :: (us ++ sigma :: vs)) =
      ['a'] ++ (us.flatMap lowerChar ++ '\u03c2' :: lowerBetween (sigma :: us.reverse) vs []) ++
        [] := by
    rw [lowerFrom_eq, lowerBetween, lowerBetween_sigma, hus, lowerAt_sigma,
      nearest?_append_of_none hbefore, nearest?_letter, List.append_nil, List.append_nil]
    simp [hafter, isCased_letter, lowerAt, sigma, lowerChar]
  rw [hinner, hfinal]
  exact not_infix_of_replaced (by decide) (by decide) (by decide)

/-- A text that is not settled stands in a text whose lower case does not hold its own. -/
theorem exists_not_lowerFrom_infix {cs : List Char} (h : settledFrom [] cs = false) :
    ∃ ds, cs <:+: ds ∧ ¬ lowerFrom [] cs <:+: lowerFrom [] ds := by
  obtain ⟨us, vs, rfl, hopen⟩ := exists_open_of_not_settledFrom h
  rw [List.append_nil] at hopen
  unfold settles at hopen
  cases hbefore : nearest? us.reverse with
  | some b =>
    cases hafter : nearest? vs with
    | some a =>
      rw [hbefore, hafter] at hopen
      cases hopen
    | none =>
      rw [hbefore, hafter] at hopen
      have hb : isCased b = true := by simpa using hopen
      exact ⟨_, ⟨[], ['a'], rfl⟩, not_lowerFrom_infix_append hbefore hb hafter⟩
  | none =>
    have hafter : (nearest? vs).any isCased = false := by
      rw [hbefore] at hopen
      cases hnearest : nearest? vs with
      | none => rfl
      | some a =>
        rw [hnearest] at hopen
        exact hopen
    exact ⟨_, ⟨['a'], [], by simp⟩, not_lowerFrom_infix_cons hbefore hafter⟩

end Text

/-! ## 4. Cells that hold the text of a filter -/

namespace CellFilter

variable {f : CellFilter} {cell : String} {r : Registry} {fault : FilterFault}

theorem isFoundIn_eq : f.isFoundIn cell =
    Text.hasInfix (Text.lowerFrom [] f.text.toList) (Text.lowerFrom [] cell.toList) := by
  unfold isFoundIn Text.contains Text.toLower
  rw [String.toList_ofList, String.toList_ofList]

theorem isFoundIn_iff : f.isFoundIn cell = true ↔
    Text.lowerFrom [] f.text.toList <:+: Text.lowerFrom [] cell.toList := by
  rw [isFoundIn_eq, Text.hasInfix_iff]

/-- Where a bare text cannot be evaluated, it keeps the cells that it is found in. -/
theorem keep_of_error (hbare : f.shape = .bare) (hfails : (f.eval cell r).1 = .error fault) :
    (f.keep cell r).1 = f.isFoundIn cell := by
  show f.decide cell (f.eval cell r).1 = f.isFoundIn cell
  rw [hfails]
  unfold decide
  rw [hbare]
  rfl

/-- A bare text that is settled is found in every cell that holds it.  For every other one there is
a cell that holds it and that it does not keep, should it not be evaluated there. -/
theorem keep_iff_isSettled (hbare : f.shape = .bare) :
    (Text.isSettled f.text = true → ∀ cell r fault, f.text.toList <:+: cell.toList →
        (f.eval cell r).1 = .error fault → (f.keep cell r).1 = true) ∧
      (Text.isSettled f.text = false → ∃ cell : String, f.text.toList <:+: cell.toList ∧
        ∀ r fault, (f.eval cell r).1 = .error fault → (f.keep cell r).1 = false) := by
  constructor
  · intro hsettled cell r fault hin hfails
    rw [keep_of_error hbare hfails, isFoundIn_iff]
    exact Text.lowerFrom_infix hsettled hin
  · intro hopen
    obtain ⟨ds, hin, hlost⟩ := Text.exists_not_lowerFrom_infix hopen
    refine ⟨.ofList ds, by rw [String.toList_ofList]; exact hin, fun r fault hfails => ?_⟩
    rw [keep_of_error hbare hfails, Bool.eq_false_iff]
    intro hfound
    rw [isFoundIn_iff, String.toList_ofList] at hfound
    exact hlost hfound

/-- A filter that was read from a text. -/
def reading (text : String) : CellFilter := ⟨text, 0, Snippet.readExpr text⟩

theorem eval_reading_eq_error {text cell : String} {r : Registry}
    (h : ((reading text).eval cell r).1.isOk = false) :
    ∃ fault, ((reading text).eval cell r).1 = .error fault := by
  cases heval : ((reading text).eval cell r).1 with
  | error fault => exact ⟨fault, rfl⟩
  | ok v =>
    rw [heval] at h
    cases h

/-- A word with its sigma inside is found in a longer one. -/
theorem keep_settledWord :
    (reading "aΣa").shape = .bare ∧ Text.isSettled "aΣa" = true ∧
      (∃ fault, ((reading "aΣa").eval "baΣaΣ" {}).1 = .error fault) ∧
      ((reading "aΣa").keep "baΣaΣ" {}).1 = true := by
  have hbare : (reading "aΣa").shape = .bare := by
    simp [reading, shape, FilterShape.ofText]
  have hsettled : Text.isSettled "aΣa" = true := by decide +kernel
  obtain ⟨fault, hfails⟩ : ∃ fault, ((reading "aΣa").eval "baΣaΣ" {}).1 = .error fault :=
    eval_reading_eq_error (by decide +kernel)
  have hin : (reading "aΣa").text.toList <:+: "baΣaΣ".toList := ⟨['b'], ['Σ'], by decide⟩
  exact ⟨hbare, hsettled, ⟨fault, hfails⟩, (keep_iff_isSettled hbare).1 hsettled _ _ _ hin hfails⟩

/-- A word that ends in a sigma is not found where it goes on. -/
theorem not_keep_openWord :
    (reading "aΣ").shape = .bare ∧ (∃ fault, ((reading "aΣ").eval "aΣa" {}).1 = .error fault) ∧
      "aΣ".toList <:+: "aΣa".toList ∧ ((reading "aΣ").keep "aΣa" {}).1 = false := by
  have hbare : (reading "aΣ").shape = .bare := by
    simp [reading, shape, FilterShape.ofText]
  obtain ⟨fault, hfails⟩ : ∃ fault, ((reading "aΣ").eval "aΣa" {}).1 = .error fault :=
    eval_reading_eq_error (by decide +kernel)
  refine ⟨hbare, ⟨fault, hfails⟩, ⟨[], ['a'], by decide⟩, ?_⟩
  rw [keep_of_error hbare hfails, isFoundIn_eq]
  decide +kernel

end CellFilter

end TraceViewer
