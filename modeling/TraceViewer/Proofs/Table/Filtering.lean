import TraceViewer.Proofs.Parser.Stateless
import TraceViewer.Proofs.Table.Sorting
import TraceViewer.Table.View

/-!
# Keeping the kept rows up to date

Which rows a table keeps was decided when its filters or the parsers last changed.  As long as the
parsers keep no state, deciding anew at any later time gives the same: that is what `Table.InStep`
says, and every operation on the table keeps it up.
-/

namespace TraceViewer

open Registry (Evolves Continues)

/-! ## 1. One filter -/

namespace FilterCache

/-- The numbers of the filters' texts were given out. -/
def Sourced (c : FilterCache) (r : Registry) : Prop :=
  ∀ f ∈ c.filters, f.source < r.heap.nextSource

variable {c c' c'' : FilterCache} {r r' r'' : Registry} {text : String}

theorem Sourced.mono (h : c.Sourced r) (g : Continues r r') : c.Sourced r' :=
  fun f hf => Nat.lt_of_lt_of_le (h f hf) g.source

/-- A later cache, and a registry that has served in between. -/
structure Later (c : FilterCache) (r : Registry) (c' : FilterCache) (r' : Registry) : Prop where
  evolves : Evolves r r'
  filters : c.filters <+: c'.filters
  sourced : c'.Sourced r'

theorem Later.refl (hc : c.Sourced r) : Later c r c r := ⟨.refl r, List.prefix_rfl, hc⟩

theorem Later.trans (h : Later c r c' r') (g : Later c' r' c'' r'') : Later c r c'' r'' :=
  ⟨h.evolves.trans g.evolves, h.filters.trans g.filters, g.sourced⟩

theorem Later.of_evolves (hr : r.Sound) (hc : c.Sourced r) (h : Evolves r r') : Later c r c r' :=
  ⟨h, List.prefix_rfl, hc.mono (h.continues hr)⟩

/-- The filter of a text that was read. -/
def cached? (c : FilterCache) (text : String) : Option CellFilter :=
  c.filters.find? fun f => f.text == Text.trim text

theorem cached?_mem {f : CellFilter} (h : c.cached? text = some f) : f ∈ c.filters :=
  List.mem_of_find?_eq_some h

/-- A text that was read is not read again. -/
theorem cached?_of_prefix {f : CellFilter} (h : c.filters <+: c'.filters)
    (hf : c.cached? text = some f) : c'.cached? text = some f := by
  obtain ⟨more, hmore⟩ := h
  unfold cached? at hf ⊢
  rw [← hmore, List.find?_append, hf]
  rfl

/-- A text that is read for the first time. -/
def fresh (text : String) (r : Registry) : CellFilter :=
  ⟨Text.trim text, r.heap.nextSource, Snippet.readExpr (Text.trim text)⟩

theorem cached?_append_fresh (h : c.cached? text = none) :
    cached? ⟨c.filters ++ [fresh text r]⟩ text = some (fresh text r) := by
  have htext : ((fresh text r).text == Text.trim text) = true := beq_self_eq_true (Text.trim text)
  unfold cached? at h ⊢
  rw [List.find?_append, h, Option.none_or]
  exact List.find?_cons_of_pos htext

theorem keepCell_blank (h : (Text.trim text).isEmpty = true) (cell : String) :
    c.keepCell text cell r = (true, c, r) := by
  unfold keepCell compile
  rw [if_pos h]

theorem keepCell_cached (h : ¬(Text.trim text).isEmpty = true) {f : CellFilter}
    (hf : c.cached? text = some f) (cell : String) :
    c.keepCell text cell r = ((f.keep cell r).1, c, (f.keep cell r).2) := by
  unfold cached? at hf
  unfold keepCell compile
  rw [if_neg h, hf]

theorem keepCell_fresh (h : ¬(Text.trim text).isEmpty = true) (hf : c.cached? text = none)
    (cell : String) :
    c.keepCell text cell r =
      (((fresh text r).keep cell r.source.2).1, ⟨c.filters ++ [fresh text r]⟩,
        ((fresh text r).keep cell r.source.2).2) := by
  unfold cached? at hf
  unfold keepCell compile
  rw [if_neg h, hf]
  rfl

theorem keep_serves (f : CellFilter) (hf : f.source < r.heap.nextSource) (cell : String) :
    Registry.Serves r (f.keep cell r).2 := .cell r f hf cell

theorem later_keepCell (hr : r.Sound) (hc : c.Sourced r) (text cell : String) :
    Later c r (c.keepCell text cell r).2.1 (c.keepCell text cell r).2.2 := by
  by_cases hblank : (Text.trim text).isEmpty = true
  · rw [keepCell_blank hblank]
    exact .refl hc
  · cases hf : c.cached? text with
    | some f =>
      rw [keepCell_cached hblank hf]
      exact .of_evolves hr hc (keep_serves f (hc f (cached?_mem hf)) cell).evolves
    | none =>
      rw [keepCell_fresh hblank hf]
      have hread : Evolves r r.source.2 := (Registry.Serves.source r).evolves
      have hsource : (fresh text r).source < r.source.2.heap.nextSource := Nat.lt_succ_self _
      have hsourced : Sourced ⟨c.filters ++ [fresh text r]⟩ r.source.2 := by
        intro f hf
        rcases List.mem_append.mp hf with hf | hf
        · exact Nat.lt_succ_of_lt (hc f hf)
        · rw [List.mem_singleton.mp hf]
          exact hsource
      have hkeep := (keep_serves (fresh text r) hsource cell).evolves
      exact ⟨hread.trans hkeep, List.prefix_append _ _,
        hsourced.mono (hkeep.continues (hread.continues hr).sound)⟩

/-- Each further use of a filter leaves a later cache. -/
theorem Later.keepCell (hr : r.Sound) (h : Later c r c' r') (text cell : String) :
    Later c r (c'.keepCell text cell r').2.1 (c'.keepCell text cell r').2.2 :=
  h.trans (later_keepCell (h.evolves.continues hr).sound h.sourced text cell)

variable {reg : Registry} (hreg : reg.Sound) (hk : reg.KeepsNoState)
include hreg hk

/-- What a text decides about a cell, it decides ever after. -/
theorem keepCell_eq (hr : Evolves reg r) (hc : c.Sourced r) {cell : String}
    (h : Later (c.keepCell text cell r).2.1 (c.keepCell text cell r).2.2 c' r') :
    (c.keepCell text cell r).1 = (c'.keepCell text cell r').1 := by
  have hr' : Evolves reg r' :=
    (hr.trans (later_keepCell (hr.continues hreg).sound hc text cell).evolves).trans h.evolves
  by_cases hblank : (Text.trim text).isEmpty = true
  · rw [keepCell_blank hblank, keepCell_blank hblank]
  · cases hf : c.cached? text with
    | some f =>
      rw [keepCell_cached hblank hf] at h ⊢
      -- the cache only grows, so the same filter is found again
      have hf' : c'.cached? text = some f := cached?_of_prefix h.filters hf
      rw [keepCell_cached hblank hf']
      exact Registry.Unchanged.keep_cell hreg (hk.unchanged hreg hr) (hk.unchanged hreg hr') f
        (hc f (cached?_mem hf)) (h.sourced f (cached?_mem hf')) cell
    | none =>
      rw [keepCell_fresh hblank hf] at h ⊢
      -- the filter that was read now is the one found later
      have hf' : c'.cached? text = some (fresh text r) :=
        cached?_of_prefix h.filters (cached?_append_fresh hf)
      rw [keepCell_cached hblank hf']
      have hread : Evolves reg r.source.2 := hr.trans (Registry.Serves.source r).evolves
      exact Registry.Unchanged.keep_cell hreg (hk.unchanged hreg hread) (hk.unchanged hreg hr') _
        (Nat.lt_succ_self _) (h.sourced _ (cached?_mem hf')) cell

end FilterCache

/-! ## 2. All filters -/

namespace Table

open FilterCache (Later later_keepCell keepCell_eq)

/-- Whether all filters keep a row, each evaluated on its own. -/
def decides (filters : List (String × String)) (rowFilter : Option RowFilter) (c : FilterCache)
    (r : Registry) (row : Event) : Bool :=
  (filters.all fun f => (c.keepCell f.2 (row.cell f.1) r).1) &&
    rowFilter.all fun f => (f.keep row r).1

/-- The number of the row filter's text was given out. -/
def RowSourced (rowFilter : Option RowFilter) (r : Registry) : Prop :=
  ∀ f ∈ rowFilter, f.source < r.heap.nextSource

theorem RowSourced.mono {rowFilter : Option RowFilter} {r r' : Registry}
    (h : RowSourced rowFilter r) (g : Continues r r') : RowSourced rowFilter r' :=
  fun f hf => Nat.lt_of_lt_of_le (h f hf) g.source

variable {c c' : FilterCache} {r r' : Registry} {filters : List (String × String)}
  {rowFilter : Option RowFilter} {row : Event}

theorem keepCells_cons (f : String × String) :
    keepCells row (f :: filters) c r =
      if (c.keepCell f.2 (row.cell f.1) r).1 then
        keepCells row filters (c.keepCell f.2 (row.cell f.1) r).2.1
          (c.keepCell f.2 (row.cell f.1) r).2.2
      else c.keepCell f.2 (row.cell f.1) r := by
  rw [keepCells]
  split
  · next h => rw [h]; rfl
  · next h => rw [h]; rfl

theorem keepRow_some (f : RowFilter) (h : (keepCells row filters c r).1 = true) :
    keepRow filters (some f) row c r =
      ((f.keep row (keepCells row filters c r).2.2).1, (keepCells row filters c r).2.1,
        (f.keep row (keepCells row filters c r).2.2).2) := by
  unfold keepRow
  generalize keepCells row filters c r = outcome at h ⊢
  obtain ⟨kept, c, r⟩ := outcome
  dsimp only at h
  rw [h]

theorem keepRow_of_not (h : ¬(keepCells row filters c r).1 = true) :
    keepRow filters rowFilter row c r = keepCells row filters c r := by
  unfold keepRow
  split
  · next heq =>
    rw [heq] at h
    exact absurd rfl h
  · rfl

theorem keepRow_none : keepRow filters none row c r = keepCells row filters c r := by
  unfold keepRow
  split
  · next heq => cases heq
  · rfl

theorem row_serves (f : RowFilter) (hf : f.source < r.heap.nextSource) (row : Event) :
    Registry.Serves r (f.keep row r).2 := by
  have hkeep : (f.keep row r).2 = (f.eval row r).2 := by
    unfold RowFilter.keep
    split <;>
    · next heq => rw [heq]
  rw [hkeep]
  exact .row r f hf row

theorem keepRows_cons (rows : List Event) (acc : List Bool) :
    keepRows filters rowFilter (row :: rows) acc c r =
      keepRows filters rowFilter rows ((keepRow filters rowFilter row c r).1 :: acc)
        (keepRow filters rowFilter row c r).2.1 (keepRow filters rowFilter row c r).2.2 := rfl

section Preserves

/-! What every use of a filter keeps up, filtering keeps up. -/

variable {P : FilterCache → Registry → Prop}
  (hcell : ∀ c r, P c r → ∀ text cell, P (c.keepCell text cell r).2.1 (c.keepCell text cell r).2.2)
include hcell

theorem keepCells_preserves (filters : List (String × String)) (row : Event) (h : P c r) :
    P (keepCells row filters c r).2.1 (keepCells row filters c r).2.2 := by
  induction filters generalizing c r with
  | nil => exact h
  | cons f rest ih =>
    rw [keepCells_cons]
    split
    · exact ih (hcell c r h f.2 (row.cell f.1))
    · exact hcell c r h f.2 (row.cell f.1)

variable (hrow : ∀ f ∈ rowFilter, ∀ c r, P c r → ∀ row, P c (f.keep row r).2)
include hrow

theorem keepRow_preserves (filters : List (String × String)) (row : Event) (h : P c r) :
    P (keepRow filters rowFilter row c r).2.1 (keepRow filters rowFilter row c r).2.2 := by
  have hcells := keepCells_preserves hcell filters row h
  cases rowFilter with
  | none => rwa [keepRow_none]
  | some f =>
    by_cases hkept : (keepCells row filters c r).1 = true
    · rw [keepRow_some f hkept]
      exact hrow f rfl _ _ hcells row
    · rwa [keepRow_of_not hkept]

theorem keepRows_preserves (filters : List (String × String)) (rows : List Event) (acc : List Bool)
    (h : P c r) :
    P (keepRows filters rowFilter rows acc c r).2.1
      (keepRows filters rowFilter rows acc c r).2.2 := by
  induction rows generalizing acc c r with
  | nil => exact h
  | cons row rest ih =>
    rw [keepRows_cons]
    exact ih _ (keepRow_preserves hcell hrow filters row h)

end Preserves

theorem length_keepRows (rows : List Event) (acc : List Bool) :
    (keepRows filters rowFilter rows acc c r).1.length = acc.length + rows.length := by
  induction rows generalizing acc c r with
  | nil => exact List.length_reverse
  | cons row rest ih =>
    rw [keepRows_cons, ih, List.length_cons, List.length_cons, Nat.add_right_comm]
    rfl

theorem later_keepEvent (hr : r.Sound) (h : Later c r c' r') {f : RowFilter}
    (hf : f.source < r.heap.nextSource) (row : Event) : Later c r c' (f.keep row r').2 := by
  have hafter := h.evolves.continues hr
  have hserves := row_serves f (Nat.lt_of_lt_of_le hf hafter.source) row
  exact h.trans (.of_evolves hafter.sound h.sourced hserves.evolves)

theorem later_keepCells (filters : List (String × String)) (row : Event) (hr : r.Sound)
    (hc : c.Sourced r) :
    Later c r (keepCells row filters c r).2.1 (keepCells row filters c r).2.2 :=
  keepCells_preserves (P := Later c r) (fun _ _ h => h.keepCell hr) filters row (.refl hc)

theorem later_keepRow (filters : List (String × String)) (row : Event) (hr : r.Sound)
    (hc : c.Sourced r) (hf : RowSourced rowFilter r) :
    Later c r (keepRow filters rowFilter row c r).2.1 (keepRow filters rowFilter row c r).2.2 :=
  keepRow_preserves (P := Later c r) (fun _ _ h => h.keepCell hr)
    (fun f hrow _ _ h => later_keepEvent hr h (hf f hrow))
    filters row (.refl hc)

theorem later_keepRows (filters : List (String × String)) (rows : List Event) (acc : List Bool)
    (hr : r.Sound) (hc : c.Sourced r) (hf : RowSourced rowFilter r) :
    Later c r (keepRows filters rowFilter rows acc c r).2.1
      (keepRows filters rowFilter rows acc c r).2.2 :=
  keepRows_preserves (P := Later c r) (fun _ _ h => h.keepCell hr)
    (fun f hrow _ _ h => later_keepEvent hr h (hf f hrow))
    filters rows acc (.refl hc)

section Decisions

variable {reg : Registry} (hreg : reg.Sound) (hk : reg.KeepsNoState) (hr : Evolves reg r)
include hreg hk hr

/-- What the filters of the columns decide about a row, they decide ever after. -/
theorem keepCells_eq (hc : c.Sourced r)
    (h : Later (keepCells row filters c r).2.1 (keepCells row filters c r).2.2 c' r') :
    (keepCells row filters c r).1 =
      filters.all fun f => (c'.keepCell f.2 (row.cell f.1) r').1 := by
  induction filters generalizing c r with
  | nil => rfl
  | cons f rest ih =>
    have hsound := (hr.continues hreg).sound
    have hone := later_keepCell hsound hc f.2 (row.cell f.1)
    rw [List.all_cons]
    rw [keepCells_cons] at h ⊢
    split at h
    · next hkept =>
      rw [if_pos hkept]
      have hafter := (hone.evolves.continues hsound).sound
      have hrest := later_keepCells rest row hafter hone.sourced
      rw [← keepCell_eq hreg hk hr hc (hrest.trans h), hkept, Bool.true_and]
      exact ih (hr.trans hone.evolves) hone.sourced h
    · next hkept =>
      rw [if_neg hkept, ← keepCell_eq hreg hk hr hc h, Bool.not_eq_true _ |>.mp hkept,
        Bool.false_and]

/-- What the filters decide about a row, they decide ever after. -/
theorem keepRow_eq (hc : c.Sourced r) (hf : RowSourced rowFilter r)
    (h : Later (keepRow filters rowFilter row c r).2.1 (keepRow filters rowFilter row c r).2.2
      c' r') :
    (keepRow filters rowFilter row c r).1 = decides filters rowFilter c' r' row := by
  have hsound := (hr.continues hreg).sound
  have hcells := later_keepCells filters row hsound hc
  have hrow := later_keepRow filters row hsound hc hf
  unfold decides
  cases rowFilter with
  | none =>
    rw [keepRow_none] at h ⊢
    rw [keepCells_eq hreg hk hr hc h]
    exact (Bool.and_true _).symm
  | some f =>
    -- the row filter runs only where the filters of the columns let the row through
    by_cases hkept : (keepCells row filters c r).1 = true
    · have hf := hf.mono (hcells.evolves.continues hsound) f rfl
      have hserves := row_serves f hf row
      have hafter := hcells.evolves.continues hsound
      have hkeep : Later (keepCells row filters c r).2.1 (keepCells row filters c r).2.2
          (keepRow filters (some f) row c r).2.1 (keepRow filters (some f) row c r).2.2 := by
        rw [keepRow_some f hkept]
        exact .of_evolves hafter.sound hcells.sourced hserves.evolves
      have hr' : Evolves reg r' := (hr.trans hrow.evolves).trans h.evolves
      have hf' := Nat.lt_of_lt_of_le hf
        (((hkeep.trans h).evolves.continues hafter.sound).source)
      rw [← keepCells_eq hreg hk hr hc (hkeep.trans h), hkept, Bool.true_and, keepRow_some f hkept]
      exact Registry.Unchanged.keep_row hreg (hk.unchanged hreg (hr.trans hcells.evolves))
        (hk.unchanged hreg hr') f hf hf' row
    · rw [keepRow_of_not hkept] at h ⊢
      rw [← keepCells_eq hreg hk hr hc h, Bool.not_eq_true _ |>.mp hkept, Bool.false_and]

/-- What the filters decide about rows, one after another, they decide ever after. -/
theorem keepRows_eq {rows : List Event} {acc : List Bool} (hc : c.Sourced r)
    (hf : RowSourced rowFilter r)
    (h : Later (keepRows filters rowFilter rows acc c r).2.1
      (keepRows filters rowFilter rows acc c r).2.2 c' r') :
    (keepRows filters rowFilter rows acc c r).1 =
      acc.reverse ++ rows.map (decides filters rowFilter c' r') := by
  induction rows generalizing acc c r with
  | nil => exact (List.append_nil _).symm
  | cons row rest ih =>
    have hsound := (hr.continues hreg).sound
    have hone := later_keepRow filters row hsound hc hf
    have hafter := hone.evolves.continues hsound
    have hrest := later_keepRows filters rest
      ((keepRow filters rowFilter row c r).1 :: acc) hafter.sound hone.sourced
      (hf.mono hafter)
    rw [keepRows_cons] at h ⊢
    rw [ih (hr.trans hone.evolves) hone.sourced (hf.mono hafter) h,
      keepRow_eq hreg hk hr hc hf (hrest.trans h), List.reverse_cons, List.append_assoc,
      List.map_cons]
    rfl

end Decisions

/-! ## 3. Tables in step -/

/-- A table whose positions are those of its rows, and whose filters were read from texts that have
numbers.  Its registry has served only since it was `reg`. -/
structure Fit (reg : Registry) (t : Table) (r : Registry) : Prop where
  sound : reg.Sound
  evolves : Evolves reg r
  order : t.order.Perm (List.range t.rows.size)
  size : t.kept.size = t.rows.size
  sourced : t.cache.Sourced r
  rowSourced : RowSourced t.rowFilter r

/-- The rows are kept that the filters keep, now and ever after. -/
def Settled (t : Table) (r : Registry) : Prop :=
  ∀ c' r', Later t.cache r c' r' →
    t.kept.toList = t.rows.toList.map (decides t.filters t.rowFilter c' r')

/-- A table that is up to date. -/
structure InStep (reg : Registry) (t : Table) (r : Registry) : Prop extends Fit reg t r where
  settled : reg.KeepsNoState → t.Settled r

variable {reg : Registry} {t : Table}

theorem Fit.continues (h : t.Fit reg r) : Continues reg r := h.evolves.continues h.sound

/-- Serving anything leaves the table up to date. -/
theorem InStep.evolve (h : t.InStep reg r) (g : Evolves r r') : t.InStep reg r' := by
  have hr := h.continues.sound
  have hlater := Later.of_evolves hr h.sourced g
  exact ⟨⟨h.sound, h.evolves.trans g, h.order, h.size, hlater.sourced,
    h.rowSourced.mono (g.continues hr)⟩, fun hk c' r'' h' => h.settled hk c' r'' (hlater.trans h')⟩

/-- Evaluating all filters anew brings the table up to date. -/
theorem Fit.refilter (h : t.Fit reg r) : (t.refilter r).1.InStep reg (t.refilter r).2 := by
  have hr := h.continues.sound
  have hlater := later_keepRows t.filters t.rows.toList [] hr h.sourced h.rowSourced
  refine ⟨⟨h.sound, h.evolves.trans hlater.evolves, h.order, ?_, hlater.sourced,
    h.rowSourced.mono (hlater.evolves.continues hr)⟩, fun hk c' r' h' => ?_⟩
  · show (keepRows t.filters t.rowFilter t.rows.toList [] t.cache r).1.toArray.size = t.rows.size
    rw [List.size_toArray, length_keepRows, Array.length_toList]
    exact Nat.zero_add _
  · show (keepRows t.filters t.rowFilter t.rows.toList [] t.cache r).1.toArray.toList = _
    rw [List.toList_toArray, keepRows_eq h.sound hk h.evolves h.sourced h.rowSourced h']
    rfl

/-- A table that never was filtered keeps all rows. -/
theorem settled_of_unfiltered (hkept : t.kept = Array.replicate t.rows.size true)
    (hfilters : t.filters = []) (hrow : t.rowFilter = none) (r : Registry) : t.Settled r := by
  intro c' r' _
  rw [hkept, hfilters, hrow, Array.toList_replicate, ← Array.length_toList]
  exact (List.map_const' ..).symm

theorem InStep.load (h : t.InStep reg r) (columns : List String) (rows : List Event) :
    (t.load columns rows).InStep reg r := by
  refine ⟨⟨h.sound, h.evolves, ?_, ?_, h.sourced, fun f hf => by cases hf⟩,
    fun _ => settled_of_unfiltered ?_ rfl rfl r⟩
  · show (List.range rows.length).Perm (List.range rows.toArray.size)
    rw [List.size_toArray]
  · show (Array.replicate rows.length true).size = rows.toArray.size
    rw [Array.size_replicate, List.size_toArray]
  · show Array.replicate rows.length true = Array.replicate rows.toArray.size true
    rw [List.size_toArray]

theorem InStep.clearFilter (h : t.InStep reg r) (column : String) :
    (t.clearFilter column r).1.InStep reg (t.clearFilter column r).2 := by
  unfold Table.clearFilter
  dsimp only
  split
  · exact h
  · exact Fit.refilter ⟨h.sound, h.evolves, h.order, h.size, h.sourced, h.rowSourced⟩

theorem InStep.setFilter (h : t.InStep reg r) (column text : String) :
    (t.setFilter column text r).1.InStep reg (t.setFilter column text r).2 := by
  unfold Table.setFilter
  dsimp only
  split
  · exact h.clearFilter column
  · exact Fit.refilter ⟨h.sound, h.evolves, h.order, h.size, h.sourced, h.rowSourced⟩

/-- A text that cannot be read is no filter of rows; any other is one, with a number. -/
theorem rowFilter_cases (text : String) (r : Registry) :
    (∃ fault, RowFilter.compile text r = (.error fault, r)) ∨
      ∃ rowFilter r', Evolves r r' ∧ RowSourced rowFilter r' ∧
        RowFilter.compile text r = (.ok rowFilter, r') := by
  unfold RowFilter.compile
  dsimp only
  split
  · exact .inr ⟨none, r, .refl r, fun f hf => (nomatch hf), rfl⟩
  · split
    · exact .inl ⟨_, rfl⟩
    · refine .inr ⟨_, _, (Registry.Serves.source r).evolves, fun f hf => ?_, rfl⟩
      obtain rfl := Option.some.inj hf
      exact Nat.lt_succ_self _

/-- A filter of rows that cannot be read changes nothing. -/
theorem setRowFilter_cases (t : Table) (text : String) (r : Registry) :
    (∃ fault, t.setRowFilter text r = (.error fault, t, r)) ∨
      ∃ rowFilter r', Evolves r r' ∧ RowSourced rowFilter r' ∧
        t.setRowFilter text r = (.ok (), { t with rowFilter }.refilter r') := by
  unfold setRowFilter
  rcases rowFilter_cases text r with ⟨fault, heq⟩ | ⟨rowFilter, r', hr', hrow, heq⟩
  · rw [heq]
    exact .inl ⟨fault, rfl⟩
  · rw [heq]
    exact .inr ⟨rowFilter, r', hr', hrow, rfl⟩

theorem InStep.setRowFilter (h : t.InStep reg r) (text : String) :
    (t.setRowFilter text r).2.1.InStep reg (t.setRowFilter text r).2.2 := by
  rcases t.setRowFilter_cases text r with ⟨fault, heq⟩ | ⟨rowFilter, r', hr', hrow, heq⟩
  · rw [heq]
    exact h
  · rw [heq]
    have h' := h.evolve hr'
    exact Fit.refilter ⟨h'.sound, h'.evolves, h'.order, h'.size, h'.sourced, hrow⟩

theorem InStep.sort (h : t.InStep reg r) (column : String) : (t.sort column).InStep reg r :=
  ⟨⟨h.sound, h.evolves, (mergeSort_perm _ t.order).trans h.order, h.size, h.sourced,
    h.rowSourced⟩, h.settled⟩

theorem InStep.moveColumn (h : t.InStep reg r) (position : Nat) (delta : Int) :
    (t.moveColumn position delta).2.InStep reg r := by
  unfold Table.moveColumn
  split
  · exact h
  · exact ⟨⟨h.sound, h.evolves, h.order, h.size, h.sourced, h.rowSourced⟩, h.settled⟩

/-! ## 4. What filtering leaves -/

theorem rows_clearFilter (t : Table) (column : String) (r : Registry) :
    (t.clearFilter column r).1.rows = t.rows := by
  unfold clearFilter
  dsimp only
  split <;> rfl

theorem columns_clearFilter (t : Table) (column : String) (r : Registry) :
    (t.clearFilter column r).1.columns = t.columns := by
  unfold clearFilter
  dsimp only
  split <;> rfl

theorem order_clearFilter (t : Table) (column : String) (r : Registry) :
    (t.clearFilter column r).1.order = t.order := by
  unfold clearFilter
  dsimp only
  split <;> rfl

theorem sorting_clearFilter (t : Table) (column : String) (r : Registry) :
    (t.clearFilter column r).1.sorting = t.sorting := by
  unfold clearFilter
  dsimp only
  split <;> rfl

theorem filters_clearFilter (t : Table) (column : String) (r : Registry) :
    (t.clearFilter column r).1.filters = t.filters.filter fun f => f.1 ≠ column := by
  unfold clearFilter
  dsimp only
  split
  · next h => exact (List.filter_eq_self.mpr (List.length_filter_eq_length_iff.mp h)).symm
  · rfl

theorem rows_setFilter (t : Table) (column text : String) (r : Registry) :
    (t.setFilter column text r).1.rows = t.rows := by
  unfold setFilter
  dsimp only
  split
  · exact t.rows_clearFilter column r
  · rfl

theorem columns_setFilter (t : Table) (column text : String) (r : Registry) :
    (t.setFilter column text r).1.columns = t.columns := by
  unfold setFilter
  dsimp only
  split
  · exact t.columns_clearFilter column r
  · rfl

theorem order_setFilter (t : Table) (column text : String) (r : Registry) :
    (t.setFilter column text r).1.order = t.order := by
  unfold setFilter
  dsimp only
  split
  · exact t.order_clearFilter column r
  · rfl

theorem sorting_setFilter (t : Table) (column text : String) (r : Registry) :
    (t.setFilter column text r).1.sorting = t.sorting := by
  unfold setFilter
  dsimp only
  split
  · exact t.sorting_clearFilter column r
  · rfl

theorem filters_setFilter_of_blank (t : Table) {column text : String} (r : Registry)
    (h : (Text.trim text).isEmpty = true) :
    (t.setFilter column text r).1.filters = t.filters.filter fun f => f.1 ≠ column := by
  unfold setFilter
  rw [if_pos h]
  exact t.filters_clearFilter column r

theorem filters_setFilter_of_text (t : Table) {column text : String} (r : Registry)
    (h : ¬(Text.trim text).isEmpty = true) :
    (t.setFilter column text r).1.filters = setText column (Text.trim text) t.filters := by
  unfold setFilter
  rw [if_neg h]
  rfl

theorem rows_setRowFilter (t : Table) (text : String) (r : Registry) :
    (t.setRowFilter text r).2.1.rows = t.rows := by
  unfold setRowFilter
  split <;> rfl

theorem columns_setRowFilter (t : Table) (text : String) (r : Registry) :
    (t.setRowFilter text r).2.1.columns = t.columns := by
  unfold setRowFilter
  split <;> rfl

theorem order_setRowFilter (t : Table) (text : String) (r : Registry) :
    (t.setRowFilter text r).2.1.order = t.order := by
  unfold setRowFilter
  split <;> rfl

theorem sorting_setRowFilter (t : Table) (text : String) (r : Registry) :
    (t.setRowFilter text r).2.1.sorting = t.sorting := by
  unfold setRowFilter
  split <;> rfl

theorem filters_setRowFilter (t : Table) (text : String) (r : Registry) :
    (t.setRowFilter text r).2.1.filters = t.filters := by
  unfold setRowFilter
  split <;> rfl

theorem rows_moveColumn (t : Table) (position : Nat) (delta : Int) :
    (t.moveColumn position delta).2.rows = t.rows := by
  unfold moveColumn
  split <;> rfl

theorem order_moveColumn (t : Table) (position : Nat) (delta : Int) :
    (t.moveColumn position delta).2.order = t.order := by
  unfold moveColumn
  split <;> rfl

theorem sorting_moveColumn (t : Table) (position : Nat) (delta : Int) :
    (t.moveColumn position delta).2.sorting = t.sorting := by
  unfold moveColumn
  split <;> rfl

theorem filters_moveColumn (t : Table) (position : Nat) (delta : Int) :
    (t.moveColumn position delta).2.filters = t.filters := by
  unfold moveColumn
  split <;> rfl

/-- Moving a column only reorders the columns. -/
theorem columns_moveColumn (t : Table) (position : Nat) (delta : Int) :
    (t.moveColumn position delta).2.columns.Perm t.columns := by
  unfold Table.moveColumn
  split
  · exact .refl _
  · next column hcolumn =>
    obtain ⟨hlt, hget⟩ := List.getElem?_eq_some_iff.mp hcolumn
    have hbound :
        shifted position delta t.columns.length ≤ (t.columns.eraseIdx position).length := by
      rw [List.length_eraseIdx_of_lt hlt]
      exact Nat.min_le_right _ _
    refine (List.perm_insertIdx column _ hbound).trans ?_
    rw [← hget]
    exact List.getElem_cons_eraseIdx_perm hlt

section Parsers

variable (t : Table) (c : FilterCache) (r : Registry)

@[simp] theorem parsers_keepCell (text cell : String) :
    (c.keepCell text cell r).2.2.parsers = r.parsers := by
  by_cases hblank : (Text.trim text).isEmpty = true
  · rw [FilterCache.keepCell_blank hblank]
  · cases hf : c.cached? text with
    | some f => simp [FilterCache.keepCell_cached hblank hf]
    | none => simp [FilterCache.keepCell_fresh hblank hf]

@[simp] theorem parsers_keepRows (filters : List (String × String)) (rowFilter : Option RowFilter)
    (rows : List Event) (acc : List Bool) :
    (keepRows filters rowFilter rows acc c r).2.2.parsers = r.parsers :=
  keepRows_preserves (P := fun _ r' => r'.parsers = r.parsers)
    (fun _ _ h _ _ => (parsers_keepCell _ _ _ _).trans h)
    (fun f _ _ _ h row => (Registry.parsers_row _ f row).trans h) filters rows acc rfl

@[simp] theorem parsers_refilter : (t.refilter r).2.parsers = r.parsers := by
  simp [refilter]

theorem parsers_clearFilter (column : String) : (t.clearFilter column r).2.parsers = r.parsers := by
  unfold clearFilter
  dsimp only
  split <;> simp

theorem parsers_setFilter (column text : String) :
    (t.setFilter column text r).2.parsers = r.parsers := by
  unfold setFilter
  dsimp only
  split
  · exact t.parsers_clearFilter r column
  · simp

theorem parsers_rowFilter (text : String) : (RowFilter.compile text r).2.parsers = r.parsers := by
  unfold RowFilter.compile
  dsimp only
  split
  · rfl
  · split <;> rfl

theorem parsers_setRowFilter (text : String) :
    (t.setRowFilter text r).2.2.parsers = r.parsers := by
  have h := parsers_rowFilter r text
  unfold setRowFilter
  split
  · next heq =>
    rw [heq] at h
    exact h
  · next heq =>
    rw [heq] at h
    simpa using h

end Parsers

/-! ## 5. What shows -/

/-- Whether the filters of the table keep a row. -/
def passes (t : Table) (r : Registry) (row : Event) : Bool :=
  decides t.filters t.rowFilter t.cache r row

theorem passes_iff : t.passes r row = true ↔
    (∀ f ∈ t.filters, (t.cache.keepCell f.2 (row.cell f.1) r).1 = true) ∧
      ∀ f ∈ t.rowFilter, (f.keep row r).1 = true := by
  unfold passes decides
  rw [Bool.and_eq_true, List.all_eq_true, Option.all_eq_true]
  rfl

theorem InStep.isKept (h : t.InStep reg r) (hk : reg.KeepsNoState) {i : Nat} :
    t.isKept i = true ↔ ∃ row, t.rows[i]? = some row ∧ t.passes r row = true := by
  have hkept : t.kept[i]? = t.rows[i]?.map (t.passes r) := by
    rw [← Array.getElem?_toList, h.settled hk _ _ (.refl h.sourced), List.getElem?_map,
      Array.getElem?_toList]
    rfl
  unfold Table.isKept
  rw [hkept]
  cases t.rows[i]? with
  | none => exact ⟨fun h => (nomatch h), fun ⟨_, h, _⟩ => (nomatch h)⟩
  | some row =>
    refine ⟨fun h => ⟨row, rfl, h⟩, fun ⟨_, hrow, hp⟩ => ?_⟩
    obtain rfl := Option.some.inj hrow
    exact hp

theorem InStep.mem_visible (h : t.InStep reg r) (hk : reg.KeepsNoState) {i : Nat} :
    i ∈ t.visible ↔ ∃ row, t.rows[i]? = some row ∧ t.passes r row = true := by
  unfold visible
  rw [List.mem_filter, h.isKept hk, h.order.mem_iff, List.mem_range]
  exact ⟨fun h => h.2, fun ⟨row, hrow, hp⟩ =>
    ⟨(Array.getElem?_eq_some_iff.mp hrow).1, row, hrow, hp⟩⟩

/-- There is a row for each position that shows. -/
theorem Fit.visibleRows (h : t.Fit reg r) :
    t.visibleRows.map some = t.visible.map fun i => t.rows[i]? := by
  have hrow : ∀ i ∈ t.visible, ∃ row, t.rows[i]? = some row := by
    intro i hi
    have hlt := List.mem_range.mp (h.order.mem_iff.mp (List.mem_filter.mp hi).1)
    exact ⟨t.rows[i], Array.getElem?_eq_getElem hlt⟩
  unfold Table.visibleRows
  generalize t.visible = positions at hrow ⊢
  induction positions with
  | nil => rfl
  | cons i rest ih =>
    obtain ⟨row, hi⟩ := hrow i (List.mem_cons_self ..)
    rw [List.filterMap_cons_some hi, List.map_cons, List.map_cons, hi,
      ih fun j hj => hrow j (List.mem_cons_of_mem _ hj)]

/-- The number of rows that show is the number of rows that are kept. -/
theorem Fit.visibleCount (h : t.Fit reg r) : t.visibleCount = t.visible.length := by
  have hkept : t.kept.toList = (List.range t.rows.size).map t.isKept := by
    refine List.ext_getElem? fun i => ?_
    rw [Array.getElem?_toList, List.getElem?_map]
    by_cases hi : i < t.rows.size
    · have hlt : i < t.kept.size := h.size ▸ hi
      rw [List.getElem?_range hi, Array.getElem?_eq_getElem hlt]
      show _ = some (t.kept[i]?.getD false)
      rw [Array.getElem?_eq_getElem hlt]
      rfl
    · rw [Array.getElem?_eq_none (h.size ▸ Nat.not_lt.mp hi),
        List.getElem?_eq_none (by rw [List.length_range]; exact Nat.not_lt.mp hi)]
      rfl
  unfold Table.visibleCount visible
  rw [hkept, List.countP_map, ← List.countP_eq_length_filter, h.order.countP_eq]
  rfl

end Table

end TraceViewer
