import TraceViewer.Proofs.Table.Stability

/-!
# The arrow of a sorted column

A column that shows an arrow was sorted in its direction, and nothing that happens afterwards takes
the rows out of the order that the sort left.  Rows next to each other are in order in any column.
Rows further apart are where all cells are numbers or none is; between the two kinds of cells there
are circles.
-/

namespace TraceViewer

/-! ## 1. Rows in order -/

/-- In this direction the later of two cells may be listed after the earlier. -/
def Direction.Allows (d : Direction) (earlier later : String) : Prop :=
  match d with
  | .ascending => compareCells later earlier ≠ .lt
  | .descending => compareCells later earlier ≠ .gt

theorem Direction.allows_iff {d : Direction} {earlier later : String} :
    d.Allows earlier later ↔ d.precedes (compareCells later earlier) = false := by
  cases d <;> simp [Allows, precedes]

/-- What precedes a cell does not follow it. -/
theorem Direction.precedes_asymm {d : Direction} {a b : String}
    (h : d.precedes (compareCells a b) = true) : d.precedes (compareCells b a) = false := by
  rw [← compareCells_swap a b]
  cases d <;> simp_all [precedes]

namespace Table

/-- In this direction of a column the row at the second position may be listed after the row at the
first. -/
def Follows (t : Table) (column : String) (d : Direction) (i j : Nat) : Prop :=
  ∀ row row', t.rows[i]? = some row → t.rows[j]? = some row' →
    d.Allows (row.cell column) (row'.cell column)

/-- The rows are listed by a column in a direction. -/
structure IsSorted (t : Table) (column : String) (d : Direction) : Prop where
  neighbours : t.order.IsChain (t.Follows column d)
  all : t.IsUniform column → t.order.Pairwise (t.Follows column d)

theorem IsSorted.congr {t t' : Table} {column : String} {d : Direction} (h : t.IsSorted column d)
    (hrows : t'.rows = t.rows) (horder : t'.order = t.order) : t'.IsSorted column d := by
  have hfollows : t'.Follows column d = t.Follows column d := by
    unfold Follows
    rw [hrows]
  have huniform : t'.IsUniform column = t.IsUniform column := by
    unfold IsUniform
    rw [hrows]
  refine ⟨?_, ?_⟩
  · rw [horder, hfollows]
    exact h.neighbours
  · rw [horder, hfollows, huniform]
    exact h.all

/-! ## 2. Sorting -/

theorem sortsBefore_asymm (t : Table) (column : String) (i j : Nat)
    (h : t.sortsBefore column i j = true) : t.sortsBefore column j i = false := by
  unfold sortsBefore at h ⊢
  cases hi : t.rows[i]? with
  | none => simp [hi] at h
  | some row =>
    cases hj : t.rows[j]? with
    | none => simp [hi, hj] at h
    | some row' =>
      simp only [hi, hj] at h ⊢
      exact Direction.precedes_asymm h

theorem follows_of_not_sortsBefore {t : Table} {column : String} {i j : Nat}
    (h : t.sortsBefore column j i = false) : t.Follows column (t.nextDirection column) i j := by
  intro row row' hi hj
  rw [sortsBefore_eq hj hi] at h
  exact Direction.allows_iff.mpr h

/-- A sort lists the rows by its column, in the direction that it goes. -/
theorem Reached.isSorted_sort {t : Table} (ht : t.Reached) (column : String) :
    (t.sort column).IsSorted column (t.nextDirection column) := by
  have hinRange : ∀ i ∈ t.order, i < t.rows.size :=
    fun i hi => List.mem_range.mp (ht.order_perm.mem_iff.mp hi)
  refine ⟨?_, fun huniform => ?_⟩
  · rw [order_sort]
    exact (noStepBack_mergeSort (t.sortsBefore_asymm column) t.order).imp
      fun i j h => follows_of_not_sortsBefore h
  · rw [order_sort]
    have hunbroken := unbroken_sortsBefore (IsUniform.not_circle (t := t) huniform)
    exact (hunbroken.mergeSort hinRange).imp fun h => follows_of_not_sortsBefore h

/-! ## 3. Later on -/

/-- Whatever a table went through, it lists each of its rows once, and by the column that shows an
arrow in the direction of the arrow. -/
theorem Reached.order_isSorted {t : Table} (h : t.Reached) :
    t.order.Perm (List.range t.rows.size) ∧
      ∀ column d, t.sorting = some (column, d) → t.IsSorted column d := by
  refine ⟨h.order_perm, ?_⟩
  induction h with
  | empty => simp
  | load h columns rows ih => simp [Table.load]
  | @sort t h column ih =>
    intro c d hsorting
    obtain ⟨rfl, rfl⟩ : column = c ∧ t.nextDirection column = d := by
      simpa [Table.sort] using hsorting
    exact h.isSorted_sort column
  | @setFilter t h column text r ih =>
    intro c d hsorting
    rw [sorting_setFilter] at hsorting
    exact (ih c d hsorting).congr (t.rows_setFilter column text r) (t.order_setFilter column text r)
  | @clearFilter t h column r ih =>
    intro c d hsorting
    rw [sorting_clearFilter] at hsorting
    exact (ih c d hsorting).congr (t.rows_clearFilter column r) (t.order_clearFilter column r)
  | @setRowFilter t h text r ih =>
    intro c d hsorting
    rw [sorting_setRowFilter] at hsorting
    exact (ih c d hsorting).congr (t.rows_setRowFilter text r) (t.order_setRowFilter text r)
  | refilter h r ih => exact fun c d hsorting => (ih c d hsorting).congr rfl rfl
  | @moveColumn t h position delta ih =>
    intro c d hsorting
    rw [sorting_moveColumn] at hsorting
    exact (ih c d hsorting).congr (t.rows_moveColumn position delta)
      (t.order_moveColumn position delta)

/-- The rows in a circle, sorted twice, filtered and with another column in front. -/
def sortedCircleRows : Table :=
  ((((fresh ["n", "v"] circleRows).sort "v").sort "v").setFilter "n" "value < 4" {}).1.moveColumn 1
    (-1) |>.2

/-- The theorem for a column of numbers and of texts. -/
theorem order_isSorted_sortedCircleRows :
    sortedCircleRows.Reached ∧ sortedCircleRows.sorting = some ("v", .descending) ∧
      sortedCircleRows.order.Perm (List.range 6) ∧ sortedCircleRows.IsSorted "v" .descending := by
  have hreached : sortedCircleRows.Reached :=
    ((((reached_fresh ["n", "v"] circleRows).sort "v").sort "v").setFilter _ _ _).moveColumn _ _
  have hsorting : sortedCircleRows.sorting = some ("v", .descending) := by
    rw [sortedCircleRows, sorting_moveColumn, sorting_setFilter]
    rfl
  have hsize : sortedCircleRows.rows.size = 6 := by
    rw [sortedCircleRows, rows_moveColumn, rows_setFilter]
    rfl
  obtain ⟨hperm, hsorted⟩ := hreached.order_isSorted
  rw [hsize] at hperm
  exact ⟨hreached, hsorting, hperm, hsorted _ _ hsorting⟩

end Table

end TraceViewer
