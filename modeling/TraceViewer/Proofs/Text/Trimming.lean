import Mathlib.Data.List.DropRight
import TraceViewer.Text.Search

/-!
# Texts without blanks at their ends

What trimming leaves of a text stands in it between the blanks that are dropped, and trimming again
drops nothing.
-/

namespace TraceViewer.Text

theorem head_of_start {xs ys : List Char} (h : xs <+: ys) (c : Char) (hc : xs.head? = some c) :
    ys.head? = some c := by
  obtain ⟨rest, rfl⟩ := h
  rw [List.head?_append, hc]
  rfl

theorem dropBlanks_eq_self {cs : List Char} (h : ∀ c, cs.head? = some c → isBlank c = false) :
    dropBlanks cs = cs := by
  cases cs with
  | nil => rfl
  | cons c rest => exact List.dropWhile_cons_of_neg (by simp [h c rfl])

theorem isBlank_head_dropBlanks (cs : List Char) (c : Char) (hc : (dropBlanks cs).head? = some c) :
    isBlank c = false := by
  have hnone := List.head?_dropWhile_not isBlank cs
  rw [show cs.dropWhile isBlank = dropBlanks cs from rfl, hc] at hnone
  exact hnone

theorem dropEndBlanks_start (cs : List Char) : dropEndBlanks cs <+: cs :=
  List.rdropWhile_prefix isBlank cs

/-- A text is the one without blanks at its ends, between some that are dropped. -/
theorem exists_of_trim (s : String) : ∃ before after,
    s.toList = before ++ ((trim s).toList ++ after) ∧ ∀ b ∈ before, isBlank b = true := by
  obtain ⟨after, hafter⟩ := dropEndBlanks_start (dropBlanks s.toList)
  refine ⟨s.toList.takeWhile isBlank, after, ?_, fun b hb => List.mem_takeWhile_imp hb⟩
  unfold trim
  rw [String.toList_ofList, hafter]
  exact List.takeWhile_append_dropWhile.symm

theorem mem_dropBlanks {cs : List Char} {c : Char} (hmem : c ∈ cs) (hc : isBlank c = false) :
    c ∈ dropBlanks cs := by
  rw [← List.takeWhile_append_dropWhile (p := isBlank) (l := cs)] at hmem
  rcases List.mem_append.mp hmem with hmem | hmem
  · have hblank := List.mem_takeWhile_imp hmem
    rw [hc] at hblank
    cases hblank
  · exact hmem

/-- Nothing but blanks is dropped. -/
theorem mem_trim {s : String} {c : Char} (hmem : c ∈ s.toList) (hc : isBlank c = false) :
    c ∈ (trim s).toList := by
  have hstart := mem_dropBlanks hmem hc
  unfold trim dropEndBlanks
  rw [String.toList_ofList, List.mem_reverse]
  exact mem_dropBlanks (List.mem_reverse.mpr hstart) hc

theorem trim_trim (s : String) : trim (trim s) = trim s := by
  have hprefix := dropEndBlanks_start (dropBlanks s.toList)
  -- what is dropped at the end leaves the head, which is no blank
  have hstart : dropBlanks (dropEndBlanks (dropBlanks s.toList)) =
      dropEndBlanks (dropBlanks s.toList) :=
    dropBlanks_eq_self fun c hc =>
      isBlank_head_dropBlanks s.toList c (head_of_start hprefix c hc)
  unfold trim
  rw [String.toList_ofList, hstart]
  exact congrArg String.ofList (List.rdropWhile_idempotent isBlank (dropBlanks s.toList))

theorem trim_eq_self {s : String} (h : ∀ c ∈ s.toList, isBlank c = false) : trim s = s := by
  have hstart : dropBlanks s.toList = s.toList :=
    dropBlanks_eq_self fun c hc => h c (List.mem_of_mem_head? hc)
  have hend : dropBlanks s.toList.reverse = s.toList.reverse :=
    dropBlanks_eq_self fun c hc => h c (List.mem_reverse.mp (List.mem_of_mem_head? hc))
  unfold trim dropEndBlanks
  rw [hstart, show s.toList.reverse.dropWhile isBlank = s.toList.reverse from hend,
    List.reverse_reverse, String.ofList_toList]

end TraceViewer.Text
