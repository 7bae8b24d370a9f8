import TraceViewer.Proofs.Table.Circle
import TraceViewer.Proofs.Table.Filtering

/-!
# Rows with equal cells

Sorting by a column is meant to leave rows with equal cells in the order in which they were listed.
`Table.keepsTies_iff` tells which cells make sure that it does: those of which no three are in a
circle.  A column of numbers alone has none, nor has one of other texts alone; a column of both can.
-/

namespace TraceViewer

namespace Table

/-! ## 1. Tables over time -/

/-- What a table can become by loads, filters, sorts and moves of columns, with whatever parsers
there are at the time. -/
inductive Reached : Table → Prop
  | empty : Reached {}
  | load {t : Table} (h : Reached t) (columns : List String) (rows : List Event) :
      Reached (t.load columns rows)
  | sort {t : Table} (h : Reached t) (column : String) : Reached (t.sort column)
  | setFilter {t : Table} (h : Reached t) (column text : String) (r : Registry) :
      Reached (t.setFilter column text r).1
  | clearFilter {t : Table} (h : Reached t) (column : String) (r : Registry) :
      Reached (t.clearFilter column r).1
  | setRowFilter {t : Table} (h : Reached t) (text : String) (r : Registry) :
      Reached (t.setRowFilter text r).2.1
  | refilter {t : Table} (h : Reached t) (r : Registry) : Reached (t.refilter r).1
  | moveColumn {t : Table} (h : Reached t) (position : Nat) (delta : Int) :
      Reached (t.moveColumn position delta).2

/-- The positions that are listed are those of the rows. -/
theorem Reached.order_perm {t : Table} (h : t.Reached) :
    t.order.Perm (List.range t.rows.size) := by
  induction h with
  | empty => exact .refl _
  | load h columns rows ih =>
    show (List.range rows.length).Perm (List.range rows.toArray.size)
    rw [List.size_toArray]
  | sort h column ih => exact (mergeSort_perm _ _).trans ih
  | setFilter h column text r ih => rwa [order_setFilter, rows_setFilter]
  | clearFilter h column r ih => rwa [order_clearFilter, rows_clearFilter]
  | setRowFilter h text r ih => rwa [order_setRowFilter, rows_setRowFilter]
  | refilter h r ih => exact ih
  | moveColumn h position delta ih => rwa [order_moveColumn, rows_moveColumn]

/-! ## 2. The order that a sort goes by -/

/-- Of two rows with equal cells in a column, the one that is listed first stays first when the
table is sorted by the column. -/
def KeepsTies (t : Table) (column : String) : Prop :=
  ∀ (i j : Nat) (row row' : Event), t.rows[i]? = some row → t.rows[j]? = some row' →
    row.cell column = row'.cell column →
    [i, j].Sublist t.order → [i, j].Sublist (t.sort column).order

/-- Whether sorting by a column lists the first of two positions ahead of the second. -/
def sortsBefore (t : Table) (column : String) (i j : Nat) : Bool :=
  match t.rows[i]?, t.rows[j]? with
  | some row, some row' =>
    (t.nextDirection column).precedes (compareCells (row.cell column) (row'.cell column))
  | _, _ => false

theorem order_sort (t : Table) (column : String) :
    (t.sort column).order = mergeSort (t.sortsBefore column) t.order := by
  unfold sort
  dsimp only
  congr 1
  funext i j
  unfold sortsBefore
  rw [Array.getElem?_map, Array.getElem?_map]
  cases t.rows[i]? with
  | none => rfl
  | some row =>
    cases t.rows[j]? with
    | none => rfl
    | some row' => rfl

theorem sortsBefore_eq {t : Table} {column : String} {i j : Nat} {row row' : Event}
    (hi : t.rows[i]? = some row) (hj : t.rows[j]? = some row') :
    t.sortsBefore column i j =
      (t.nextDirection column).precedes (compareCells (row.cell column) (row'.cell column)) := by
  unfold sortsBefore
  rw [hi, hj]

/-! ## 3. Without circles -/

/-- Where no cells of a column are in a circle, neither are the positions of the rows. -/
theorem unbroken_sortsBefore {t : Table} {column : String}
    (h : ∀ a ∈ t.rows, ∀ b ∈ t.rows, ∀ c ∈ t.rows,
      ¬Circle (a.cell column) (b.cell column) (c.cell column)) :
    Unbroken (t.sortsBefore column) fun i => i < t.rows.size := by
  have hcells : Unbroken (fun a b => (t.nextDirection column).precedes (compareCells a b))
      fun text => ∃ row ∈ t.rows, row.cell column = text := by
    refine unbroken_of_not_circle ?_ _
    rintro _ _ _ ⟨a, ha, rfl⟩ ⟨b, hb, rfl⟩ ⟨c, hc, rfl⟩
    exact h a ha b hb c hc
  have hcell {i : Nat} (hi : i < t.rows.size) :
      ∃ row ∈ t.rows, row.cell column = t.rows[i].cell column :=
    ⟨t.rows[i], Array.getElem_mem hi, rfl⟩
  have hless {i j : Nat} (hi : i < t.rows.size) (hj : j < t.rows.size) :
      t.sortsBefore column i j = (t.nextDirection column).precedes
        (compareCells (t.rows[i].cell column) (t.rows[j].cell column)) :=
    sortsBefore_eq (Array.getElem?_eq_getElem hi) (Array.getElem?_eq_getElem hj)
  refine ⟨fun i j hi hj => ?_, fun i j k hi hj hk => ?_⟩
  · rw [hless hi hj, hless hj hi]
    exact hcells.asymm _ _ (hcell hi) (hcell hj)
  · rw [hless hi hk, hless hi hj, hless hj hk]
    exact hcells.between _ _ _ (hcell hi) (hcell hj) (hcell hk)

/-- A sort by a column without circles leaves equal cells in the order that they had. -/
theorem Reached.keepsTies {t : Table} (ht : t.Reached) {column : String}
    (h : ∀ a ∈ t.rows, ∀ b ∈ t.rows, ∀ c ∈ t.rows,
      ¬Circle (a.cell column) (b.cell column) (c.cell column)) : t.KeepsTies column := by
  intro i j row row' hi hj hcell hlisted
  -- The rows whose cells equal those of the two rows.
  let tied (k : Nat) : Bool := t.rows[k]?.map (·.cell column) == some (row.cell column)
  have hrows {k : Nat} (hk : tied k = true) :
      ∃ found, t.rows[k]? = some found ∧ found.cell column = row.cell column :=
    Option.map_eq_some_iff.mp (beq_iff_eq.mp hk)
  have hi : tied i = true := beq_iff_eq.mpr (Option.map_eq_some_iff.mpr ⟨row, hi, rfl⟩)
  have hj : tied j = true := beq_iff_eq.mpr (Option.map_eq_some_iff.mpr ⟨row', hj, hcell.symm⟩)
  have hpair : [i, j].filter tied = [i, j] := by
    rw [List.filter_cons_of_pos hi, List.filter_cons_of_pos hj]
    rfl
  have halike (k l m : Nat) (hk : tied k = true) (hl : tied l = true) :
      t.sortsBefore column k m = t.sortsBefore column l m := by
    obtain ⟨found, hk, hkcell⟩ := hrows hk
    obtain ⟨found', hl, hlcell⟩ := hrows hl
    unfold sortsBefore
    rw [hk, hl]
    cases t.rows[m]? with
    | none => rfl
    | some _ =>
      dsimp only
      rw [hkcell, hlcell]
  have hinRange : ∀ k ∈ t.order, k < t.rows.size :=
    fun k hk => List.mem_range.mp (ht.order_perm.mem_iff.mp hk)
  have hfiltered := (unbroken_sortsBefore h).filter_mergeSort halike hinRange
  have hkept : ([i, j].filter tied).Sublist (t.order.filter tied) := hlisted.filter tied
  rw [hpair, ← hfiltered] at hkept
  rw [order_sort]
  exact hkept.trans List.filter_sublist

/-- All cells of a column are numbers, or none is. -/
def IsUniform (t : Table) (column : String) : Prop :=
  (∀ row ∈ t.rows, (cellNumber? (row.cell column)).isSome = true) ∨
    ∀ row ∈ t.rows, cellNumber? (row.cell column) = none

theorem IsUniform.not_circle {t : Table} {column : String} (h : t.IsUniform column) :
    ∀ a ∈ t.rows, ∀ b ∈ t.rows, ∀ c ∈ t.rows,
      ¬Circle (a.cell column) (b.cell column) (c.cell column) := by
  intro a ha b hb c hc
  cases h with
  | inl hnumbers =>
    obtain ⟨x, hx⟩ := Option.isSome_iff_exists.mp (hnumbers a ha)
    obtain ⟨y, hy⟩ := Option.isSome_iff_exists.mp (hnumbers b hb)
    obtain ⟨z, hz⟩ := Option.isSome_iff_exists.mp (hnumbers c hc)
    exact not_circle_of_numbers hx hy hz
  | inr htexts =>
    exact not_circle_of_texts (.inl (htexts b hb)) (.inl (htexts c hc)) (.inl (htexts c hc))

/-- Sorting by a column of numbers alone, or without numbers, leaves equal cells in the order that
they had. -/
theorem Reached.keepsTies_of_uniform {t : Table} (ht : t.Reached) {column : String}
    (h : t.IsUniform column) : t.KeepsTies column :=
  ht.keepsTies h.not_circle

/-! ## 4. Around a circle -/

/-- A new table that shows some rows. -/
def fresh (columns : List String) (rows : List Event) : Table := ({} : Table).load columns rows

theorem reached_fresh (columns : List String) (rows : List Event) : (fresh columns rows).Reached :=
  Reached.empty.load columns rows

theorem rows_fresh (columns : List String) (rows : List Event) (i : Nat) :
    (fresh columns rows).rows[i]? = rows[i]? :=
  List.getElem?_toArray

theorem sortsBefore_fresh {columns : List String} {rows : List Event} {column a b : String}
    {i j : Nat} (hi : (rows.map (·.cell column))[i]? = some a)
    (hj : (rows.map (·.cell column))[j]? = some b) :
    (fresh columns rows).sortsBefore column i j = (compareCells a b == .lt) := by
  rw [List.getElem?_map] at hi hj
  obtain ⟨row, hrow, rfl⟩ := Option.map_eq_some_iff.mp hi
  obtain ⟨row', hrow', rfl⟩ := Option.map_eq_some_iff.mp hj
  exact sortsBefore_eq ((rows_fresh ..).trans hrow) ((rows_fresh ..).trans hrow')

/-- Around a circle the third of six rows and the fourth change places. -/
theorem not_keepsTies_of_circle {a b c : String} (h : Circle a b c) (columns : List String)
    (rows : List Event) (column : String)
    (hcells : rows.map (·.cell column) = [a, b, c, c, c, c]) :
    ¬(fresh columns rows).KeepsTies column := by
  obtain ⟨hba, hcb, hca⟩ := h
  have hcc : compareCells c c ≠ .lt := by
    rw [compareCells_self]
    decide
  have hless {i j : Nat} {x y : String} (hi : [a, b, c, c, c, c][i]? = some x)
      (hj : [a, b, c, c, c, c][j]? = some y) :
      (fresh columns rows).sortsBefore column i j = (compareCells x y == .lt) := by
    rw [← hcells] at hi hj
    exact sortsBefore_fresh hi hj
  -- the sort sees the six cells only, and they are the circle of `mergeSort_circle`
  have hsort : mergeSort ((fresh columns rows).sortsBefore column) [0, 1, 2, 3, 4, 5] =
      [3, 4, 5, 0, 1, 2] :=
    mergeSort_circle ((hless rfl rfl).trans (beq_eq_false_iff_ne.mpr hba))
      ((hless rfl rfl).trans (beq_eq_false_iff_ne.mpr hcb))
      ((hless rfl rfl).trans (beq_eq_false_iff_ne.mpr hcc))
      ((hless rfl rfl).trans (beq_eq_false_iff_ne.mpr hcc))
      ((hless rfl rfl).trans (beq_iff_eq.mpr hca)) ((hless rfl rfl).trans (beq_iff_eq.mpr hca))
      ((hless rfl rfl).trans (beq_iff_eq.mpr hca))
  have horder : (fresh columns rows).order = [0, 1, 2, 3, 4, 5] := by
    have hlength : (rows.map (·.cell column)).length = 6 := congrArg List.length hcells
    rw [List.length_map] at hlength
    show List.range rows.length = _
    rw [hlength]
    rfl
  have hrow {i : Nat} (hi : [a, b, c, c, c, c][i]? = some c) :
      ∃ row, (fresh columns rows).rows[i]? = some row ∧ row.cell column = c := by
    rw [← hcells, List.getElem?_map] at hi
    obtain ⟨row, hi, hcell⟩ := Option.map_eq_some_iff.mp hi
    exact ⟨row, (rows_fresh ..).trans hi, hcell⟩
  obtain ⟨row, hi, hcell⟩ := hrow (i := 2) rfl
  obtain ⟨row', hj, hcell'⟩ := hrow (i := 3) rfl
  -- the rows at 2 and 3 hold equal cells and yet are listed the other way round
  intro hties
  have hsorted := hties 2 3 row row' hi hj (hcell.trans hcell'.symm)
    (by rw [horder]; decide)
  rw [order_sort, horder, hsort] at hsorted
  exact absurd hsorted (by decide)

/-! ## 5. Which cells keep their order -/

/-- Sorting leaves rows with equal cells in the order that they had, whatever the table went
through and whichever way it sorts, for just those cells of which no three are in a circle. -/
theorem keepsTies_iff (p : String → Prop) :
    (∀ t : Table, t.Reached → ∀ column, (∀ row ∈ t.rows, p (row.cell column)) →
      t.KeepsTies column) ↔ ∀ a b c, p a → p b → p c → ¬Circle a b c := by
  refine ⟨fun h a b c ha hb hc hcircle => ?_, fun h t ht column hp => ?_⟩
  · -- One record for each text, with the text in its only field.
    let rows : List Event := [a, b, c, c, c, c].map fun text => [("v", .string text)]
    refine not_keepsTies_of_circle hcircle ["v"] rows "v" rfl ?_
    refine h _ (reached_fresh ["v"] rows) "v" fun row hrow => ?_
    obtain ⟨text, htext, rfl⟩ := List.mem_map.mp (List.mem_toArray.mp hrow)
    show p text
    simp only [List.mem_cons, List.not_mem_nil, or_false] at htext
    rcases htext with rfl | rfl | rfl | rfl | rfl | rfl <;> assumption
  · exact ht.keepsTies fun a ha b hb c hc => h _ _ _ (hp a ha) (hp b hb) (hp c hc)

/-- Six records of which four have equal cells. -/
def circleRows : List Event :=
  [[("n", .number (.whole 0)), ("v", .string "9")],
    [("n", .number (.whole 1)), ("v", .string "10")],
    [("n", .number (.whole 2)), ("v", .string "1a")],
    [("n", .number (.whole 3)), ("v", .string "1a")],
    [("n", .number (.whole 4)), ("v", .string "1a")],
    [("n", .number (.whole 5)), ("v", .string "1a")]]

/-- Sorted for the first time, they do not stay in order. -/
theorem not_keepsTies_circleRows :
    (fresh ["n", "v"] circleRows).Reached ∧ ¬(fresh ["n", "v"] circleRows).KeepsTies "v" :=
  ⟨reached_fresh ["n", "v"] circleRows, not_keepsTies_of_circle circle_nine_ten _ _ _ rfl⟩

end Table

end TraceViewer
