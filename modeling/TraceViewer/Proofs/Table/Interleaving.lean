import TraceViewer.Proofs.Parser.Ledger
import TraceViewer.Proofs.Table.RowAlone

/-!
# Sorting and filtering side by side

A sort changes the order in which rows are listed, and an edit of the filters changes which rows are
kept, so that it does not matter in which order the two are done.  Among edits of the filters the
order matters as little, as long as the parsers keep no state: which rows show then depends on the
text of each column's filter and on the filter of rows, and not on the way that led there.
-/

namespace TraceViewer

open Snippet (readExpr)
open Registry (Evolves Continues Reparsed)
open FilterCache (Grown)

/-! ## 1. Sequences of sorts and of edits -/

/-- A change of the filters, or their evaluation anew. -/
inductive FilterEdit where
  | set (column text : String)
  | clear (column : String)
  | setRows (text : String)
  | again

/-- A sort by a column, or an edit of the filters. -/
inductive TableStep where
  | sort (column : String)
  | edit (e : FilterEdit)

namespace TableStep

def sort? : TableStep → Option String
  | .sort column => some column
  | .edit _ => none

def edit? : TableStep → Option FilterEdit
  | .sort _ => none
  | .edit e => some e

/-- The columns of the sorts among some steps, in order. -/
def sorts (steps : List TableStep) : List String := steps.filterMap sort?

/-- The edits among some steps, in order. -/
def edits (steps : List TableStep) : List FilterEdit := steps.filterMap edit?

end TableStep

namespace Table

def edit (t : Table) (r : Registry) : FilterEdit → Table × Registry
  | .set column text => t.setFilter column text r
  | .clear column => t.clearFilter column r
  | .setRows text => (t.setRowFilter text r).2
  | .again => t.refilter r

def step (t : Table) (r : Registry) : TableStep → Table × Registry
  | .sort column => (t.sort column, r)
  | .edit e => t.edit r e

/-- Takes steps one after another. -/
def run (t : Table) (r : Registry) (steps : List TableStep) : Table × Registry :=
  steps.foldl (fun p s => p.1.step p.2 s) (t, r)

/-- Makes edits one after another. -/
def editAll (t : Table) (r : Registry) (edits : List FilterEdit) : Table × Registry :=
  edits.foldl (fun p e => p.1.edit p.2 e) (t, r)

/-- Sorts by one column after another. -/
def sortAll (t : Table) (columns : List String) : Table := columns.foldl sort t

variable {t : Table} {r : Registry}

theorem clearFilter_sort (column by' : String) :
    (t.sort by').clearFilter column r =
      ((t.clearFilter column r).1.sort by', (t.clearFilter column r).2) := by
  have hfilters : (t.sort by').filters = t.filters := rfl
  unfold clearFilter
  dsimp only
  rw [hfilters]
  split <;> rfl

/-- An edit has the same effect before a sort as after it. -/
theorem edit_sort (e : FilterEdit) (column : String) :
    (t.sort column).edit r e = ((t.edit r e).1.sort column, (t.edit r e).2) := by
  cases e with
  | set filtered text =>
    unfold edit setFilter
    dsimp only
    split
    · exact clearFilter_sort filtered column
    · rfl
  | clear filtered => exact clearFilter_sort filtered column
  | setRows text =>
    unfold edit setRowFilter
    dsimp only
    obtain ⟨_ | _, _⟩ := RowFilter.compile text r <;> rfl
  | again => rfl

theorem editAll_sort (edits : List FilterEdit) (column : String) :
    (t.sort column).editAll r edits =
      ((t.editAll r edits).1.sort column, (t.editAll r edits).2) := by
  induction edits generalizing t r with
  | nil => rfl
  | cons e rest ih =>
    have hfirst : (t.sort column).editAll r (e :: rest) =
        ((t.sort column).edit r e).1.editAll ((t.sort column).edit r e).2 rest := rfl
    rw [hfirst, edit_sort, ih]
    rfl

/-- Steps do what their edits and then their sorts do. -/
theorem run_eq (steps : List TableStep) :
    t.run r steps = ((t.editAll r (TableStep.edits steps)).1.sortAll (TableStep.sorts steps),
      (t.editAll r (TableStep.edits steps)).2) := by
  induction steps generalizing t r with
  | nil => rfl
  | cons s rest ih =>
    cases s with
    | sort column =>
      -- the sort goes behind all the edits that follow it
      have hfirst : t.run r (.sort column :: rest) = (t.sort column).run r rest := rfl
      rw [hfirst, ih, editAll_sort]
      rfl
    | edit e =>
      have hfirst : t.run r (.edit e :: rest) = (t.edit r e).1.run (t.edit r e).2 rest := rfl
      rw [hfirst, ih]
      rfl

/-! ## 2. What an edit does -/

theorem setText_eq_put (column text : String) (filters : List (String × String)) :
    setText column text filters = Named.put column text filters := by
  induction filters with
  | nil => rfl
  | cons f rest ih =>
    unfold setText Named.put
    rw [ih]

theorem rowFilter_read {text : String} {rowFilter : Option RowFilter} {r' : Registry}
    (h : RowFilter.compile text r = (.ok rowFilter, r')) :
    ∀ f ∈ rowFilter, readExpr f.text = .ok f.expr := by
  unfold RowFilter.compile at h
  dsimp only at h
  intro f hf
  split at h
  · cases h
    cases hf
  · split at h
    · cases h
    · next expr hread =>
      cases h
      cases hf
      exact hread

/-- An edit changes nothing, or evaluates filters that can be others: no column has two, and the
filter of rows is the one that there was or is read anew. -/
theorem edit_cases (t : Table) (r : Registry) (e : FilterEdit) :
    t.edit r e = (t, r) ∨ ∃ filters rowFilter r',
      t.edit r e = { t with filters, rowFilter }.refilter r' ∧ Evolves r r' ∧
        ((Named.names t.filters).Nodup → (Named.names filters).Nodup) ∧
        (rowFilter = t.rowFilter ∨ RowSourced rowFilter r' ∧
          ∀ f ∈ rowFilter, readExpr f.text = .ok f.expr) := by
  have hclear (column : String) : t.clearFilter column r = (t, r) ∨
      t.clearFilter column r =
        { t with filters := t.filters.filter fun f => f.1 ≠ column }.refilter r := by
    unfold clearFilter
    dsimp only
    split
    · exact .inl rfl
    · exact .inr rfl
  have hcleared (column : String) (h : (Named.names t.filters).Nodup) :
      (Named.names (t.filters.filter fun f => f.1 ≠ column)).Nodup :=
    h.sublist (List.filter_sublist.map _)
  cases e with
  | set column text =>
    unfold edit setFilter
    dsimp only
    split
    · refine (hclear column).imp_right fun h => ?_
      exact ⟨_, t.rowFilter, r, h, .refl r, hcleared column, .inl rfl⟩
    · refine .inr ⟨_, t.rowFilter, r, rfl, .refl r, fun hnodup => ?_, .inl rfl⟩
      -- a column that has a filter keeps its place, and any other comes last
      rw [setText_eq_put, Named.names_put]
      split
      · exact hnodup
      · next hnew =>
        rw [← List.concat_eq_append]
        exact hnodup.concat hnew
  | clear column =>
    refine (hclear column).imp_right fun h => ?_
    exact ⟨_, t.rowFilter, r, h, .refl r, hcleared column, .inl rfl⟩
  | setRows text =>
    unfold edit setRowFilter
    dsimp only
    rcases rowFilter_cases text r with ⟨fault, heq⟩ | ⟨rowFilter, r', hr', hrow, heq⟩
    · rw [heq]
      exact .inl rfl
    · rw [heq]
      exact .inr ⟨t.filters, rowFilter, r', rfl, hr', id, .inr ⟨hrow, rowFilter_read heq⟩⟩
  | again => exact .inr ⟨t.filters, t.rowFilter, r, rfl, .refl r, id, .inl rfl⟩

/-! ## 3. Tables in use -/

/-- A table, with the registry as it was when the parsers last changed and as it is now, after any
loads, sorts, moves of columns and edits of filters.  Filters are evaluated anew when the parsers
change. -/
inductive Used : Registry → Table → Registry → Prop
  | new {reg : Registry} (h : reg.Made) : Used reg {} reg
  | load {reg r : Registry} {t : Table} (h : Used reg t r) (columns : List String)
      (rows : List Event) : Used reg (t.load columns rows) r
  | move {reg r : Registry} {t : Table} (h : Used reg t r) (position : Nat) (delta : Int) :
      Used reg (t.moveColumn position delta).2 r
  | step {reg r : Registry} {t : Table} (h : Used reg t r) (s : TableStep) :
      Used reg (t.step r s).1 (t.step r s).2
  | serve {reg r r' : Registry} {t : Table} (h : Used reg t r) (hr : Registry.Serves r r') :
      Used reg t r'
  | reparse {reg r r' : Registry} {t : Table} (h : Used reg t r) (hr : Reparsed r r') :
      Used r' (t.refilter r').1 (t.refilter r').2

/-- A table that is up to date, with one filter for a column, and a filter of rows that was read. -/
structure InUse (reg : Registry) (t : Table) (r : Registry) : Prop extends InStep reg t r where
  nodup : (Named.names t.filters).Nodup
  read : ∀ f ∈ t.rowFilter, readExpr f.text = .ok f.expr

variable {reg r' : Registry}

theorem InUse.edit (h : t.InUse reg r) (e : FilterEdit) :
    (t.edit r e).1.InUse reg (t.edit r e).2 := by
  rcases t.edit_cases r e with heq | ⟨filters, rowFilter, r', heq, hr', hnodup, hrow⟩
  · rw [heq]
    exact h
  · have h' := h.evolve hr'
    have hread : RowSourced rowFilter r' ∧ ∀ f ∈ rowFilter, readExpr f.text = .ok f.expr := by
      rcases hrow with rfl | hrow
      · exact ⟨h'.rowSourced, h.read⟩
      · exact hrow
    rw [heq]
    exact ⟨Fit.refilter ⟨h'.sound, h'.evolves, h'.order, h'.size, h'.sourced, hread.1⟩,
      hnodup h.nodup, hread.2⟩

theorem InUse.step (h : t.InUse reg r) (s : TableStep) :
    (t.step r s).1.InUse reg (t.step r s).2 := by
  cases s with
  | sort column => exact ⟨h.toInStep.sort column, h.nodup, h.read⟩
  | edit e => exact h.edit e

theorem Used.inUse (h : t.Used reg r) : t.InUse reg r := by
  induction h with
  | new hmade =>
    have hfit : Fit _ {} _ :=
      ⟨hmade.sound, .refl _, .refl _, rfl, fun f hf => (by cases hf), fun f hf => (by cases hf)⟩
    exact ⟨⟨hfit, fun _ => settled_of_unfiltered rfl rfl rfl _⟩, List.nodup_nil,
      fun f hf => by cases hf⟩
  | load _ columns rows ih =>
    exact ⟨ih.toInStep.load columns rows, List.nodup_nil, fun f hf => by cases hf⟩
  | move _ position delta ih =>
    refine ⟨ih.toInStep.moveColumn position delta, ?_, ?_⟩
    · rw [filters_moveColumn]
      exact ih.nodup
    · unfold moveColumn
      split <;> exact ih.read
  | step _ s ih => exact ih.step s
  | serve _ hr ih => exact ⟨ih.evolve hr.evolves, ih.nodup, ih.read⟩
  | reparse _ hr ih =>
    have hfit : Fit _ _ _ :=
      ⟨hr.sound, .refl _, ih.order, ih.size,
        fun f hf => Nat.lt_of_lt_of_le (ih.sourced f hf) hr.source,
        fun f hf => Nat.lt_of_lt_of_le (ih.rowSourced f hf) hr.source⟩
    exact ⟨hfit.refilter, ih.nodup, ih.read⟩

end Table

/-! ## 4. Caches that grow -/

namespace FilterCache

/-- A cache that has grown while the registry served. -/
structure GrownBy (c : FilterCache) (r : Registry) (c' : FilterCache) (r' : Registry) : Prop
    extends Grown c r c' r' where
  evolves : Evolves r r'

namespace GrownBy

variable {c c' : FilterCache} {r r' r'' : Registry}

theorem refl (hr : r.Sound) (hc : c.Sourced r) : GrownBy c r c r := ⟨.refl hr hc, .refl r⟩

theorem sourced_right (h : GrownBy c r c' r') : c'.Sourced r' := by
  obtain ⟨more, hmore, hnew⟩ := h.filters
  intro f hf
  rw [hmore] at hf
  rcases List.mem_append.mp hf with hf | hf
  · exact Nat.lt_of_lt_of_le (h.sourced f hf) h.unchanged.source
  · exact (hnew f hf).2.2

variable (hr : r.Sound) (hk : r.KeepsNoState)
include hr hk

omit hr in
theorem serve (h : GrownBy c r c' r') (g : Evolves r' r'') : GrownBy c r c' r'' :=
  ⟨h.trans (g.continues h.unchanged.sound) (hk r'' (h.evolves.trans g)), h.evolves.trans g⟩

/-- Parsers that keep no state leave their variables. -/
theorem leaves_keepCell (hc : c.Sourced r) (text cell : String) :
    r.Leaves (c.keepCell text cell r).2.2 :=
  hk _ (later_keepCell hr hc text cell).evolves

theorem keepCell_eq (h : GrownBy c r c' r') (text cell : String) :
    (c'.keepCell text cell r').1 = (c.keepCell text cell r).1 :=
  (h.toGrown.keepCell hr (leaves_keepCell hr hk h.sourced text cell)).1

theorem keepCell (h : GrownBy c r c' r') (text cell : String) :
    GrownBy c r (c'.keepCell text cell r').2.1 (c'.keepCell text cell r').2.2 :=
  ⟨(h.toGrown.keepCell hr (leaves_keepCell hr hk h.sourced text cell)).2,
    h.evolves.trans (later_keepCell h.unchanged.sound h.sourced_right text cell).evolves⟩

theorem keepRows {rowFilter : Option RowFilter} (hf : Table.RowSourced rowFilter r')
    (h : GrownBy c r c' r') (filters : List (String × String)) (rows : List Event)
    (acc : List Bool) :
    GrownBy c r (Table.keepRows filters rowFilter rows acc c' r').2.1
      (Table.keepRows filters rowFilter rows acc c' r').2.2 := by
  -- the number of the row filter stays a number that was given out
  let Kept (c' : FilterCache) (r' : Registry) : Prop :=
    GrownBy c r c' r' ∧ Table.RowSourced rowFilter r'
  have hkept : Kept c' r' := ⟨h, hf⟩
  refine (Table.keepRows_preserves (P := Kept) ?_ ?_ filters rows acc hkept).1
  · rintro c' r' ⟨h, hf⟩ text cell
    have hlater := later_keepCell h.unchanged.sound h.sourced_right text cell
    exact ⟨h.keepCell hr hk text cell, hf.mono (hlater.evolves.continues h.unchanged.sound)⟩
  · rintro f hrow c' r' ⟨h, hf⟩ row
    have hserves := (Table.row_serves f (hf f hrow) row).evolves
    exact ⟨h.serve hk hserves, hf.mono (hserves.continues h.unchanged.sound)⟩

end GrownBy

end FilterCache

namespace Table

open FilterCache (GrownBy)

variable {t : Table} {reg r : Registry} {c : FilterCache} {r₀ : Registry}

theorem InUse.run (h : t.InUse reg r) (steps : List TableStep) :
    (t.run r steps).1.InUse reg (t.run r steps).2 := by
  induction steps generalizing t r with
  | nil => exact h
  | cons s rest ih => exact ih (h.step s)

theorem InUse.grownBy_step (hr : r₀.Sound) (hk : r₀.KeepsNoState) (h : t.InUse reg r)
    (hgrown : GrownBy c r₀ t.cache r) (s : TableStep) :
    GrownBy c r₀ (t.step r s).1.cache (t.step r s).2 := by
  cases s with
  | sort column => exact hgrown
  | edit e =>
    show GrownBy c r₀ (t.edit r e).1.cache (t.edit r e).2
    rcases t.edit_cases r e with heq | ⟨filters, rowFilter, r', heq, hr', _, hrow⟩
    · rw [heq]
      exact hgrown
    · have hsourced : RowSourced rowFilter r' := by
        rcases hrow with rfl | hrow
        · exact (h.evolve hr').rowSourced
        · exact hrow.1
      rw [heq]
      exact (hgrown.serve hk hr').keepRows hr hk hsourced filters _ _

theorem InUse.grownBy_run (hr : r₀.Sound) (hk : r₀.KeepsNoState) (h : t.InUse reg r)
    (hgrown : GrownBy c r₀ t.cache r) (steps : List TableStep) :
    GrownBy c r₀ (t.run r steps).1.cache (t.run r steps).2 := by
  induction steps generalizing t r with
  | nil => exact hgrown
  | cons s rest ih => exact ih (h.step s) (h.grownBy_step hr hk hgrown s)

/-! ## 5. The same filters -/

/-- The filter of rows is the same, or it was read from the same text, and since the parsers last
changed. -/
def SameRowFilter (reg : Registry) (f g : Option RowFilter) : Prop :=
  f = g ∨ f.map RowFilter.text = g.map RowFilter.text ∧
    ∀ h, h ∈ f ∨ h ∈ g → reg.heap.nextSource ≤ h.source

/-- Tables have the same filters: each column the same text, and the rows the same filter. -/
structure SameFilters (reg : Registry) (p q : Table) : Prop where
  columns : ∀ column, p.filterOf? column = q.filterOf? column
  rows : SameRowFilter reg p.rowFilter q.rowFilter

variable {p q : Table} {rp rq : Registry}

/-- No filter of rows on either side, or filters that stand for each other. -/
theorem SameRowFilter.cases {f g : Option RowFilter} (h : SameRowFilter reg f g)
    (hf : ∀ a ∈ f, readExpr a.text = .ok a.expr) (hg : ∀ b ∈ g, readExpr b.text = .ok b.expr) :
    f = none ∧ g = none ∨ ∃ a b, f = some a ∧ g = some b ∧ b.expr = a.expr ∧
      reg.Stands a.source b.source := by
  rcases h with rfl | ⟨htext, hnew⟩
  · cases f with
    | none => exact .inl ⟨rfl, rfl⟩
    | some a =>
      refine .inr ⟨a, a, rfl, rfl, rfl, ?_⟩
      unfold Registry.Stands
      omega
  · cases f with
    | none =>
      cases g with
      | none => exact .inl ⟨rfl, rfl⟩
      | some b => cases htext
    | some a =>
      cases g with
      | none => cases htext
      | some b =>
        have htext : a.text = b.text := Option.some.inj htext
        have ha := hf a rfl
        rw [htext, hg b rfl] at ha
        exact .inr ⟨a, b, rfl, rfl, Except.ok.inj ha,
          .inr ⟨hnew a (.inl rfl), hnew b (.inr rfl)⟩⟩

theorem forall_filters_iff {filters : List (String × String)} (h : (Named.names filters).Nodup)
    (P : String → String → Prop) :
    (∀ f ∈ filters, P f.1 f.2) ↔ ∀ column text, filters.lookup column = some text → P column text :=
  ⟨fun hall _ _ hlookup => hall _ (Named.mem_of_lookup hlookup),
    fun hall f hf => hall f.1 f.2 (Named.lookup_of_mem h hf)⟩

theorem passes_iff_of_grownBy (hr : r₀.Sound) (hk : r₀.KeepsNoState) (h : p.InUse reg rp)
    (hgrown : GrownBy c r₀ p.cache rp) {row : Event} :
    p.passes rp row = true ↔
      (∀ column text, p.filterOf? column = some text →
        (c.keepCell text (row.cell column) r₀).1 = true) ∧
      ∀ f ∈ p.rowFilter, (f.keep row rp).1 = true := by
  rw [passes_iff]
  refine and_congr_left fun _ => ?_
  simp only [hgrown.keepCell_eq hr hk]
  exact forall_filters_iff h.nodup fun column text =>
    (c.keepCell text (row.cell column) r₀).1 = true

/-- Two tables that come of one table by sorts and edits keep the same rows where they have the same
filters. -/
theorem SameFilters.passes_iff (hreg : reg.KeepsNoState) (hr : r₀.Sound) (hk : r₀.KeepsNoState)
    (hp : p.InUse reg rp) (hq : q.InUse reg rq) (hgp : GrownBy c r₀ p.cache rp)
    (hgq : GrownBy c r₀ q.cache rq) (h : SameFilters reg p q) {row : Event} :
    p.passes rp row = true ↔ q.passes rq row = true := by
  rw [passes_iff_of_grownBy hr hk hp hgp, passes_iff_of_grownBy hr hk hq hgq]
  simp only [h.columns]
  refine and_congr_right fun _ => ?_
  rcases h.rows.cases hp.read hq.read with ⟨hf, hg⟩ | ⟨f, g, hf, hg, hexpr, hstands⟩
  · simp [hf, hg]
  · -- each run has its own number for the filter, but the same expression
    have hkeep := (Registry.Unchanged.keep_rows hp.sound (hreg.unchanged hp.sound hp.evolves)
      (hreg.unchanged hp.sound hq.evolves) hexpr (hp.rowSourced f hf) (hq.rowSourced g hg)
      (hstands.apart hp.sound) row).1
    rw [hf, hg]
    simp only [Option.mem_def, Option.some.injEq, forall_eq', hkeep]

theorem rows_edit (t : Table) (r : Registry) (e : FilterEdit) : (t.edit r e).1.rows = t.rows := by
  rcases t.edit_cases r e with heq | ⟨filters, rowFilter, r', heq, _⟩
  · rw [heq]
  · rw [heq]
    rfl

theorem rows_run (t : Table) (r : Registry) (steps : List TableStep) :
    (t.run r steps).1.rows = t.rows := by
  induction steps generalizing t r with
  | nil => rfl
  | cons s rest ih =>
    have hfirst : t.run r (s :: rest) = (t.step r s).1.run (t.step r s).2 rest := rfl
    rw [hfirst, ih]
    cases s with
    | sort column => rfl
    | edit e => exact rows_edit t r e

/-- Sorts and edits of filters do not disturb each other.  Steps with the same sorts and the same
edits, each in their order, end alike, and so list the same rows in the same order.  Where the
parsers keep no state, any steps that end with the same filters show the same rows. -/
theorem run_independent (h : t.Used reg r) (hk : reg.KeepsNoState) :
    (∀ (t₀ : Table) (r₀ : Registry) (steps steps' : List TableStep),
      TableStep.sorts steps = TableStep.sorts steps' →
      TableStep.edits steps = TableStep.edits steps' →
      t₀.run r₀ steps = t₀.run r₀ steps' ∧
        (t₀.run r₀ steps).1.visible = (t₀.run r₀ steps').1.visible) ∧
    ∀ steps steps' : List TableStep, SameFilters reg (t.run r steps).1 (t.run r steps').1 →
      ∀ i, i ∈ (t.run r steps).1.visible ↔ i ∈ (t.run r steps').1.visible := by
  refine ⟨fun t₀ r₀ steps steps' hsorts hedits => ?_, fun steps steps' hsame i => ?_⟩
  · have heq : t₀.run r₀ steps = t₀.run r₀ steps' := by rw [run_eq, run_eq, hsorts, hedits]
    exact ⟨heq, by rw [heq]⟩
  · have huse := h.inUse
    have hr := huse.continues.sound
    have hk' := hk.evolve huse.sound huse.evolves
    have hgrown := GrownBy.refl hr huse.sourced
    have hp := huse.run steps
    have hq := huse.run steps'
    rw [hp.mem_visible hk, hq.mem_visible hk, rows_run, rows_run]
    -- both runs start from one cache, and what they add to it they would find out anew
    have hgp := huse.grownBy_run hr hk' hgrown steps
    have hgq := huse.grownBy_run hr hk' hgrown steps'
    have hpasses (row : Event) : (t.run r steps).1.passes (t.run r steps).2 row = true ↔
        (t.run r steps').1.passes (t.run r steps').2 row = true :=
      hsame.passes_iff hk hr hk' hp hq hgp hgq
    simp only [hpasses]

/-- Four rows of two cells. -/
def fourRows : List Event :=
  [("7", "y"), ("8", "y"), ("7", "x"), ("7", "y")].map fun row =>
    [("l", .string row.1), ("r", .string row.2)]

/-- One filter, a sort, and another filter that is set twice; and the filters in the other order. -/
theorem run_independent_fourRows :
    let t := ({} : Table).load ["l", "r"] fourRows
    let steps : List TableStep :=
      [.edit (.set "l" "whole(value) === 7"), .sort "r", .edit (.set "r" "value === 'x'"),
        .edit (.set "r" "value === 'y'")]
    let steps' : List TableStep :=
      [.edit (.set "r" "value === 'y'"), .edit (.set "l" "whole(value) === 7")]
    t.Used wholeParser wholeParser ∧ wholeParser.KeepsNoState ∧
      SameFilters wholeParser (t.run wholeParser steps).1 (t.run wholeParser steps').1 ∧
      (t.run wholeParser steps).1.visible = [0, 3] ∧
      ∀ i, i ∈ (t.run wholeParser steps).1.visible ↔ i ∈ (t.run wholeParser steps').1.visible := by
  intro t steps steps'
  have hused : t.Used wholeParser wholeParser := (Used.new (.register (.new {}) _ _)).load _ _
  have hfilters : (t.run wholeParser steps).1.filters =
      [("l", "whole(value) === 7"), ("r", "value === 'y'")] := by decide +kernel
  have hfilters' : (t.run wholeParser steps').1.filters =
      [("r", "value === 'y'"), ("l", "whole(value) === 7")] := by decide +kernel
  have hnone : (t.run wholeParser steps).1.rowFilter.isNone = true := by decide +kernel
  have hnone' : (t.run wholeParser steps').1.rowFilter.isNone = true := by decide +kernel
  have hsame :
      SameFilters wholeParser (t.run wholeParser steps).1 (t.run wholeParser steps').1 := by
    rw [Option.isNone_iff_eq_none] at hnone hnone'
    refine ⟨fun column => ?_, .inl (hnone.trans hnone'.symm)⟩
    unfold filterOf?
    rw [hfilters, hfilters']
    simp only [Named.lookup_cons, List.lookup_nil]
    split
    · next h =>
      rw [← h]
      rfl
    · rfl
  exact ⟨hused, wholeParser_keepsNoState, hsame, by decide +kernel,
    (run_independent hused wholeParser_keepsNoState).2 steps steps' hsame⟩

end Table

end TraceViewer
