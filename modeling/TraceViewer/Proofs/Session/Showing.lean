import TraceViewer.Proofs.Session.Run

/-!
# Sessions show the rows that pass

Whatever has happened to a session, its table holds the rows of the trace that was shown last, and
shows just those that pass all filters, as they would be decided now.
-/

namespace TraceViewer

/-! ## 1. Tables and trails -/

/-- The table is up to date, and is that of the trace that was shown last. -/
structure Trail.Describes (p : Trail) (t : Table) (r : Registry) : Prop where
  inStep : t.InStep p.reparsed r
  rows : t.rows = p.rows.toArray
  columns : t.columns.Perm p.columns

namespace Trail.Describes

variable {p q : Trail} {t t' : Table} {r r' : Registry} {s : Session} {e : Stimulus}

/-- All filters are evaluated anew when the parsers have changed. -/
theorem reparse (h : p.Describes t r) (hr : Registry.Reparsed r r') :
    ({ p with reparsed := r' } : Trail).Describes (t.refilter r').1 (t.refilter r').2 := by
  have hfit : t.Fit r' r' :=
    ⟨hr.sound, .refl r', h.inStep.order, h.inStep.size,
      fun f hf => Nat.lt_of_lt_of_le (h.inStep.sourced f hf) hr.source,
      fun f hf => Nat.lt_of_lt_of_le (h.inStep.rowSourced f hf) hr.source⟩
  exact ⟨hfit.refilter, h.rows, h.columns⟩

theorem change (h : p.Describes s.table s.registry) (hc : Change s e p t' r' q) :
    q.Describes t' r' := by
  have hr := h.inStep.continues.sound
  cases hc with
  | none => exact h
  | setFilter column =>
    refine ⟨h.inStep.setFilter column s.buffer,
      (s.table.rows_setFilter column s.buffer s.registry).trans h.rows, ?_⟩
    rw [s.table.columns_setFilter column s.buffer s.registry]
    exact h.columns
  | clearFilter column =>
    refine ⟨h.inStep.clearFilter column,
      (s.table.rows_clearFilter column s.registry).trans h.rows, ?_⟩
    rw [s.table.columns_clearFilter column s.registry]
    exact h.columns
  | setRowFilter text =>
    refine ⟨h.inStep.setRowFilter text,
      (s.table.rows_setRowFilter text s.registry).trans h.rows, ?_⟩
    rw [s.table.columns_setRowFilter text s.registry]
    exact h.columns
  | sort column => exact ⟨h.inStep.sort column, h.rows, h.columns⟩
  | moveColumn position delta =>
    exact ⟨h.inStep.moveColumn position delta,
      (s.table.rows_moveColumn position delta).trans h.rows,
      (s.table.columns_moveColumn position delta).trans h.columns⟩
  | serve hserve => exact ⟨h.inStep.evolve hserve, h.rows, h.columns⟩
  | register name source => exact h.reparse (hr.register name source)
  | remove name => exact h.reparse (hr.remove name)
  | load loaded => exact ⟨h.inStep.load _ _, rfl, .refl _⟩

end Trail.Describes

/-- The trail of a session describes its table. -/
theorem Session.Reached.describes {s : Session} {p : Trail} (h : s.Reached p) :
    p.Describes s.table s.registry := by
  induction h with
  | start setup hmade sources mode exportFolder clock =>
    have hfit : Table.Fit setup.registry {} setup.registry :=
      ⟨hmade.sound, .refl _, .refl _, rfl, fun f hf => (nomatch hf), fun f hf => (nomatch hf)⟩
    exact ⟨⟨hfit, fun _ => Table.settled_of_unfiltered rfl rfl rfl _⟩, rfl, .refl _⟩
  | step _ e ih => exact ih.change (Session.step_change _ _ e)

/-! ## 2. What is shown -/

/-- What a session shows of the trace that was shown last. -/
structure Session.Shows (s : Session) (p : Trail) : Prop where
  rows : s.table.rows = p.rows.toArray
  columns : s.table.columns.Perm p.columns
  order : s.table.order.Perm (List.range s.table.rows.size)
  size : s.table.kept.size = s.table.rows.size
  /-- The rows that show stand in the order of all rows. -/
  visible : s.table.visible.Sublist s.table.order
  once : s.table.visible.Nodup
  listed : s.table.visibleRows.map some = s.table.visible.map fun i => s.table.rows[i]?
  /-- A row shows just when every filter of a column and the filter of rows keep it, each evaluated
  against the parsers as they are now. -/
  passing : ∀ i, i ∈ s.table.visible ↔ ∃ row, s.table.rows[i]? = some row ∧
    (∀ f ∈ s.table.filters,
      (s.table.cache.keepCell f.2 (row.cell f.1) s.registry).1 = true) ∧
    ∀ f ∈ s.table.rowFilter, (f.keep row s.registry).1 = true
  visibleCount : s.table.visibleCount = s.table.visible.length
  rowCount : s.table.rowCount = s.table.rows.size
  /-- A filter of rows that is rejected changes neither the table nor the parsers. -/
  rejected : ∀ fault, (s.table.setRowFilter s.buffer s.registry).1 = .error fault →
    (s.submitFilter .rows).table = s.table ∧ (s.submitFilter .rows).registry = s.registry

/-- In every state that a session can reach with parsers that keep no state, it shows each row that
passes the filters once, and no other. -/
theorem Session.Reached.shows {s : Session} {p : Trail} (h : s.Reached p)
    (hk : p.reparsed.KeepsNoState) : s.Shows p := by
  have hd := h.describes
  have hstep := hd.inStep
  have hsub : s.table.visible.Sublist s.table.order := List.filter_sublist
  refine ⟨hd.rows, hd.columns, hstep.order, hstep.size, hsub,
    hsub.nodup (hstep.order.nodup_iff.mpr List.nodup_range), ?_, fun i => ?_,
    hstep.visibleCount, rfl, fun fault hfault => ?_⟩
  · exact hstep.visibleRows
  · rw [hstep.mem_visible hk]
    simp only [Table.passes_iff]
  · unfold Session.submitFilter
    rcases s.table.setRowFilter_cases s.buffer s.registry with ⟨_, heq⟩ | ⟨_, _, _, _, heq⟩
    · dsimp only
      rw [heq]
      exact ⟨rfl, rfl⟩
    · rw [heq] at hfault
      cases hfault

/-- Two events, one without its only column. -/
def twoEvents : LoadedTrace := ⟨⟨"run", [[("dur", .string "7")], []], [], false⟩, ["dur"], []⟩

/-- The events are loaded, and then filtered by the column with the text of a single letter. -/
def filteringStimuli : List Stimulus :=
  [.request, .respond ⟨⟨1, .byUpload, 0⟩, .ok twoEvents⟩, .press (.char 'c'), .press .enter,
    .press (.char 'w'), .press .enter]

/-- The theorem for a session with a parser, two events and a filter. -/
theorem shows_filteringStimuli :
    let start := Session.start ⟨wholeParser, {}, {}, none⟩ [] .byUpload "." 0
    let run := start.stepAll ⟨wholeParser, none⟩ filteringStimuli
    run.1.Reached run.2 ∧ run.2.reparsed.KeepsNoState ∧ run.2.rows.length = 2 ∧
      run.1.Shows run.2 := by
  have hmade : wholeParser.Made := .register (.new {}) "whole" "parseInt"
  have hreached :=
    (Session.Reached.start ⟨wholeParser, {}, {}, none⟩ hmade [] .byUpload "." 0).stepAll
    filteringStimuli
  exact ⟨hreached, wholeParser_keepsNoState, rfl, hreached.shows wholeParser_keepsNoState⟩

end TraceViewer
