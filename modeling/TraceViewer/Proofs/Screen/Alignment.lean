import TraceViewer.Screen.Row

/-!
# Rows that line up

A cell that is too wide for its column is cut, and an ellipsis takes the place of the last character
that fits.  This makes the cell as wide as its column, unless that character is a mark that takes no
room in a column that is full already: then the cell gets one wider.  `linesUp_iff` says that header
and rows line up exactly if no cell is cut there.
-/

namespace TraceViewer

open TraceViewer.Text

/-! ## 1. Widths of characters -/

theorem charWidth_space : charWidth ' ' = 1 := by decide

theorem zeroWidthTable_marks :
    ['…', '│', '\u0301'].map zeroWidthTable.contains = [false, false, true] := by
  unfold zeroWidthTable CharSet.ofLines
  simp only [List.flatMap_cons, List.flatMap_nil]
  repeat rw [String.toList_ofList]
  decide +kernel

theorem wideTable_marks : ['…', '│'].map wideTable.contains = [false, false] := by
  unfold wideTable CharSet.ofLines
  simp only [List.flatMap_cons, List.flatMap_nil]
  repeat rw [String.toList_ofList]
  decide +kernel

theorem charWidth_ellipsis : charWidth '…' = 1 := by
  have hzero := (List.cons.inj zeroWidthTable_marks).1
  have hwide := (List.cons.inj wideTable_marks).1
  rw [charWidth, charWidth?, hzero, hwide]
  rfl

theorem charWidth_bar : charWidth '│' = 1 := by
  have hzero := (List.cons.inj (List.cons.inj zeroWidthTable_marks).2).1
  have hwide := (List.cons.inj (List.cons.inj wideTable_marks).2).1
  rw [charWidth, charWidth?, hzero, hwide]
  rfl

theorem charWidth_acute : charWidth '\u0301' = 0 := by
  have hzero := (List.cons.inj (List.cons.inj (List.cons.inj zeroWidthTable_marks).2).2).1
  rw [charWidth, charWidth?, hzero]
  rfl

namespace Text

theorem widthOf_cons (c : Char) (cs : List Char) : widthOf (c :: cs) = charWidth c + widthOf cs :=
  rfl

theorem widthOf_reverse (cs : List Char) : widthOf cs.reverse = widthOf cs := by
  induction cs with
  | nil => rfl
  | cons c cs ih =>
    rw [List.reverse_cons, widthOf_append, ih, widthOf_cons, widthOf_cons, widthOf_nil]
    omega

theorem widthOf_spaces (n : Nat) : widthOf (spaces n).toList = n := by
  rw [spaces, String.toList_ofList]
  induction n with
  | zero => rfl
  | succ n ih =>
    rw [List.replicate_succ, widthOf_cons, ih, charWidth_space]
    omega

theorem widthOf_columnSeparator : widthOf columnSeparator.toList = 3 := by
  show widthOf [' ', '│', ' '] = 3
  rw [widthOf_cons, widthOf_cons, widthOf_cons, charWidth_space, charWidth_bar]
  rfl

end Text

/-! ## 2. One cell -/

/-- The characters up to a mark without a width fill the column, and a character that has one comes
after it. -/
def IsCutAtMark (width : Nat) (cell : List Char) : Prop :=
  ∃ fitted mark next rest, cell = fitted ++ mark :: next :: rest ∧ widthOf fitted = width ∧
    charWidth mark = 0 ∧ 0 < charWidth next

/-- A cell without marks is never cut at one. -/
theorem not_isCutAtMark_of_all {width : Nat} {cell : List Char}
    (h : (cell.all fun c => 0 < charWidth c) = true) : ¬IsCutAtMark width cell := by
  rintro ⟨fitted, mark, next, rest, rfl, -, hmark, -⟩
  have hpos := List.all_eq_true.mp h mark (List.mem_append_right fitted List.mem_cons_self)
  rw [decide_eq_true_eq] at hpos
  omega

/-- A text gets too wide at one character only. -/
theorem eq_of_overflow {width : Nat} {before before' after after' : List Char} {c c' : Char}
    (heq : before ++ c :: after = before' ++ c' :: after') (hfits : widthOf before ≤ width)
    (hover : width < widthOf before + charWidth c) (hfits' : widthOf before' ≤ width)
    (hover' : width < widthOf before' + charWidth c') : before = before' := by
  rcases List.append_eq_append_iff.mp heq with ⟨more, hbefore, hafter⟩ | ⟨more, hbefore, hafter⟩
  · cases more with
    | nil => rw [hbefore, List.append_nil]
    | cons d more =>
      obtain ⟨rfl, -⟩ := List.cons.inj hafter
      rw [hbefore, widthOf_append, widthOf_cons] at hfits'
      omega
  · cases more with
    | nil => rw [hbefore, List.append_nil]
    | cons d more =>
      obtain ⟨rfl, -⟩ := List.cons.inj hafter
      rw [hbefore, widthOf_append, widthOf_cons] at hfits
      omega

/-- A text that fits is not cut. -/
theorem IsCutAtMark.lt {width : Nat} {cell : List Char} (h : IsCutAtMark width cell) :
    width < widthOf cell := by
  obtain ⟨fitted, mark, next, rest, rfl, hfitted, -, hnext⟩ := h
  rw [widthOf_append, widthOf_cons, widthOf_cons]
  omega

/-- Where a text gets too wide at a known character, what stands before it decides. -/
theorem isCutAtMark_iff {width : Nat} {before rest : List Char} {c : Char}
    (hfits : widthOf before ≤ width) (hover : width < widthOf before + charWidth c) :
    IsCutAtMark width (before ++ c :: rest) ↔
      ∃ fitted mark, before = fitted ++ [mark] ∧ widthOf fitted = width ∧ charWidth mark = 0 := by
  constructor
  · rintro ⟨fitted, mark, next, rest', heq, hfitted, hmark, hnext⟩
    have hmarked : widthOf (fitted ++ [mark]) = width := by
      rw [widthOf_append, widthOf_cons, hmark, hfitted]
      rfl
    have heq : before ++ c :: rest = (fitted ++ [mark]) ++ next :: rest' := by
      rw [heq, List.append_assoc, List.singleton_append]
    exact ⟨fitted, mark,
      eq_of_overflow heq hfits hover (Nat.le_of_eq hmarked) (by omega), hfitted, hmark⟩
  · rintro ⟨fitted, mark, rfl, hfitted, hmark⟩
    rw [widthOf_append, widthOf_cons, widthOf_nil, hfitted, hmark] at hover
    refine ⟨fitted, mark, c, rest, ?_, hfitted, hmark, by omega⟩
    rw [List.append_assoc, List.singleton_append]

theorem cutCell_of_fits {width used : Nat} {c : Char} (h : used + charWidth c ≤ width)
    (fitted cs : List Char) :
    cutCell width fitted used (c :: cs) = cutCell width (c :: fitted) (used + charWidth c) cs :=
  if_pos h

theorem cutCell_of_over {width used : Nat} {c : Char} (h : ¬used + charWidth c ≤ width)
    (fitted cs : List Char) :
    cutCell width fitted used (c :: cs) =
      match fitted with
      | last :: before => ('…' :: before, used - charWidth last + 1)
      | [] => (['…'], used + 1) :=
  if_neg h

/-- What a cut leaves of a cell is as wide as it was counted, and one too wide at most. -/
theorem cutCell_spec {width : Nat} (hpos : 0 < width) (cs fitted : List Char)
    (hfits : widthOf fitted ≤ width) :
    widthOf (cutCell width fitted (widthOf fitted) cs).1 =
        (cutCell width fitted (widthOf fitted) cs).2 ∧
      (cutCell width fitted (widthOf fitted) cs).2 ≤ width + 1 ∧
        ((cutCell width fitted (widthOf fitted) cs).2 = width + 1 ↔
          IsCutAtMark width (fitted.reverse ++ cs)) := by
  induction cs generalizing fitted with
  | nil =>
    have hnot : ¬IsCutAtMark width (fitted.reverse ++ []) := fun hcut => by
      have hlt := hcut.lt
      rw [List.append_nil, widthOf_reverse] at hlt
      omega
    show widthOf fitted = widthOf fitted ∧ widthOf fitted ≤ width + 1 ∧
      (widthOf fitted = width + 1 ↔ _)
    exact ⟨rfl, by omega, fun hover => by omega, fun hcut => absurd hcut hnot⟩
  | cons c cs ih =>
    by_cases hc : widthOf fitted + charWidth c ≤ width
    · rw [cutCell_of_fits hc]
      rw [Nat.add_comm, ← widthOf_cons] at hc ⊢
      have hnext := ih (c :: fitted) hc
      rwa [List.reverse_cons, List.append_assoc, List.singleton_append] at hnext
    · have hcut : IsCutAtMark width (fitted.reverse ++ c :: cs) ↔ _ :=
        isCutAtMark_iff (by rwa [widthOf_reverse]) (by rw [widthOf_reverse]; omega)
      rw [cutCell_of_over hc, hcut]
      cases fitted with
      | nil =>
        dsimp only
        rw [widthOf_cons, widthOf_nil, charWidth_ellipsis]
        refine ⟨rfl, by omega, fun hover => by omega, ?_⟩
        rintro ⟨before, mark, hnil, -⟩
        exact absurd hnil (by simp)
      | cons last before =>
        dsimp only
        rw [widthOf_cons] at hfits hc
        rw [widthOf_cons, widthOf_cons, charWidth_ellipsis]
        refine ⟨by omega, by omega, fun hover => ?_, ?_⟩
        · refine ⟨before.reverse, last, List.reverse_cons, ?_, by omega⟩
          rw [widthOf_reverse]
          omega
        · rintro ⟨fitted, mark, heq, hfitted, hmark⟩
          rw [List.reverse_cons] at heq
          obtain ⟨rfl, hlast⟩ := List.append_inj' heq rfl
          rw [(List.cons.inj hlast).1, hmark]
          rw [widthOf_reverse] at hfitted
          omega

theorem widthOf_padCell_cases {width : Nat} (hpos : 0 < width) (cell : String) :
    widthOf (padCell cell width).toList = width ∧ ¬IsCutAtMark width cell.toList ∨
      widthOf (padCell cell width).toList = width + 1 ∧ IsCutAtMark width cell.toList := by
  obtain ⟨hwidth, hle, hcut⟩ := cutCell_spec hpos cell.toList [] (Nat.zero_le _)
  rw [List.reverse_nil, List.nil_append] at hcut
  rw [padCell]
  dsimp only
  rw [String.toList_append, String.toList_ofList, widthOf_append, widthOf_reverse, widthOf_spaces]
  rw [widthOf_nil] at *
  rw [hwidth, ← hcut]
  omega

/-- A cell is as wide as its column, or one wider. -/
theorem le_widthOf_padCell {width : Nat} (hpos : 0 < width) (cell : String) :
    width ≤ widthOf (padCell cell width).toList := by
  rcases widthOf_padCell_cases hpos cell with ⟨hwidth, -⟩ | ⟨hwidth, -⟩ <;> omega

theorem widthOf_padCell_iff {width : Nat} (hpos : 0 < width) (cell : String) :
    widthOf (padCell cell width).toList = width ↔ ¬IsCutAtMark width cell.toList := by
  rcases widthOf_padCell_cases hpos cell with ⟨hwidth, hcut⟩ | ⟨hwidth, hcut⟩
  · exact ⟨fun _ => hcut, fun _ => hwidth⟩
  · exact ⟨fun h => by omega, fun h => absurd hcut h⟩

/-! ## 3. Lines of cells -/

def total : List Nat → Nat
  | [] => 0
  | n :: rest => n + total rest

/-- The width of a line of cells with a separator between each two. -/
def lineWidth (widths : List Nat) : Nat := total widths + 3 * (widths.length - 1)

theorem widthOf_join {α : Type} (xs : List α) (text : α → String) :
    widthOf (join columnSeparator (xs.map text)).toList =
      lineWidth (xs.map fun x => widthOf (text x).toList) := by
  induction xs with
  | nil => rfl
  | cons x xs ih =>
    cases xs with
    | nil =>
      rw [List.map_singleton, join, String.intercalate_singleton]
      rfl
    | cons next xs =>
      rw [List.map_cons, join] at ih
      rw [List.map_cons, List.map_cons, join, String.intercalate_cons_cons, String.toList_append,
        String.toList_append, widthOf_append, widthOf_append, widthOf_columnSeparator, ih]
      simp only [lineWidth, total, List.map_cons, List.length_cons]
      omega

theorem total_map_le {α : Type} {xs : List α} {f g : α → Nat} (hle : ∀ x ∈ xs, f x ≤ g x) :
    total (xs.map f) ≤ total (xs.map g) := by
  induction xs with
  | nil => exact Nat.le_refl 0
  | cons x xs ih =>
    obtain ⟨hx, hxs⟩ := List.forall_mem_cons.mp hle
    exact Nat.add_le_add hx (ih hxs)

/-- Sums of numbers of which none is less than its counterpart are equal only term by term. -/
theorem total_map_eq_iff {α : Type} {xs : List α} {f g : α → Nat} (hle : ∀ x ∈ xs, f x ≤ g x) :
    total (xs.map g) = total (xs.map f) ↔ ∀ x ∈ xs, g x = f x := by
  induction xs with
  | nil => exact ⟨fun _ => List.forall_mem_nil _, fun _ => rfl⟩
  | cons x xs ih =>
    obtain ⟨hx, hxs⟩ := List.forall_mem_cons.mp hle
    have hrest := total_map_le hxs
    rw [List.forall_mem_cons, ← ih hxs, List.map_cons, List.map_cons, total, total]
    omega

theorem columnWidth_pos (rows : List Event) (column : String) : 0 < columnWidth rows column := by
  have hfold (start : Nat) : start ≤
      rows.foldl (fun w row => max w (Text.width (row.cell column))) start := by
    induction rows generalizing start with
    | nil => exact Nat.le_refl start
    | cons row rows ih => exact Nat.le_trans (Nat.le_max_left ..) (ih _)
  have hmarks := hfold (Text.width column + 2)
  unfold columnWidth maxColumnWidth
  omega

/-- A line is as wide as its columns exactly if none of its cells is cut behind a full column. -/
theorem widthOf_joinCells_iff (columns : List String) (rows : List Event) (cell : String → String) :
    widthOf (joinCells (columns.map cell) (columnWidths columns rows)).toList =
        lineWidth (columnWidths columns rows) ↔
      ∀ column ∈ columns, ¬IsCutAtMark (columnWidth rows column) (cell column).toList := by
  have hcells : joinCells (columns.map cell) (columnWidths columns rows) =
      join columnSeparator
        (columns.map fun column => padCell (cell column) (columnWidth rows column)) := by
    rw [joinCells, columnWidths, List.zip_map', List.map_map]
    rfl
  have hpos (column : String) := columnWidth_pos rows column
  rw [hcells, widthOf_join, lineWidth, lineWidth, columnWidths, List.length_map, List.length_map,
    Nat.add_right_cancel_iff,
    total_map_eq_iff fun column _ => le_widthOf_padCell (hpos column) (cell column)]
  exact forall₂_congr fun column _ => widthOf_padCell_iff (hpos column) (cell column)

/-! ## 4. Tables -/

/-- The header and all rows are as wide as the columns with their separators. -/
structure LinesUp (t : Table) (rows : List Event) : Prop where
  header : widthOf (headerLine t (columnWidths t.columns rows)).toList =
    lineWidth (columnWidths t.columns rows)
  row : ∀ row ∈ rows, widthOf (rowLine t.columns (columnWidths t.columns rows) row).toList =
    lineWidth (columnWidths t.columns rows)

/-- A padded cell is as wide as it should be exactly if it is not cut at a mark behind a full
column, and a table lines up exactly if this holds for its labels and its cells. -/
theorem linesUp_iff (t : Table) (rows : List Event) (hcolumns : t.columns ≠ []) :
    (∀ (cell : String) (width : Nat), 1 ≤ width →
      (widthOf (padCell cell width).toList = width ↔ ¬IsCutAtMark width cell.toList)) ∧
    (LinesUp t rows ↔ ∀ column ∈ t.columns,
      ¬IsCutAtMark (columnWidth rows column) (columnLabel t column).toList ∧
      ∀ row ∈ rows,
        ¬IsCutAtMark (columnWidth rows column) (flatten (row.cell column)).toList) := by
  refine ⟨fun cell width hpos => widthOf_padCell_iff hpos cell, ?_⟩
  have hempty : t.columns.isEmpty = false := by
    rw [← Bool.not_eq_true, List.isEmpty_iff]
    exact hcolumns
  have hheader := widthOf_joinCells_iff t.columns rows (columnLabel t)
  have hrow (row : Event) := widthOf_joinCells_iff t.columns rows fun column =>
    flatten (row.cell column)
  constructor
  · rintro ⟨h, hrows⟩ column hcolumn
    rw [headerLine, hempty] at h
    refine ⟨hheader.mp h column hcolumn, fun row hmem => ?_⟩
    have h := hrows row hmem
    rw [rowLine, hempty] at h
    exact (hrow row).mp h column hcolumn
  · intro h
    constructor
    · rw [headerLine, hempty]
      exact hheader.mpr fun column hcolumn => (h column hcolumn).1
    · intro row hmem
      rw [rowLine, hempty]
      exact (hrow row).mpr fun column hcolumn => (h column hcolumn).2 row hmem

/-- A cell that is cut and a table of one row. -/
theorem linesUp_iff_plainCells :
    let t : Table := { columns := ["name"] }
    let rows : List Event := [[("name", .string "matmul")]]
    1 ≤ 4 ∧ widthOf (padCell "matmul" 4).toList = 4 ∧ t.columns ≠ [] ∧ LinesUp t rows := by
  intro t rows
  have hcolumns : t.columns ≠ [] := List.cons_ne_nil _ _
  have hcut : ¬IsCutAtMark 4 "matmul".toList := not_isCutAtMark_of_all (by decide)
  obtain ⟨hcell, htable⟩ := linesUp_iff t rows hcolumns
  refine ⟨by decide, (hcell "matmul" 4 (by decide)).mpr hcut, hcolumns,
    htable.mpr fun column hcolumn => ?_⟩
  have hlabel : columnLabel t "name" = "name" := rfl
  rw [List.mem_singleton.mp hcolumn, hlabel]
  refine ⟨not_isCutAtMark_of_all (by decide), fun row hrow => ?_⟩
  rw [List.mem_singleton.mp hrow, flatten, String.toList_map]
  exact not_isCutAtMark_of_all (by decide)

/-- An accent on the one character that fits: the ellipsis takes the place of the accent alone. -/
theorem padCell_accented : widthOf (padCell "a\u0301b" 1).toList = 2 := by
  have hcut : IsCutAtMark 1 "a\u0301b".toList :=
    ⟨['a'], '\u0301', 'b', [], rfl, by decide, charWidth_acute, by decide⟩
  rcases widthOf_padCell_cases Nat.one_pos "a\u0301b" with ⟨-, hnot⟩ | ⟨hwidth, -⟩
  · exact absurd hcut hnot
  · exact hwidth

end TraceViewer
