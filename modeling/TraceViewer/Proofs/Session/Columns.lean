import TraceViewer.Proofs.Session.Showing

/-!
# Filters of columns that are there

A filter hides rows until it is cleared, and it can be cleared only while its column is listed.
Loading a trace clears all filters, but leaves the prompt open whose text is being typed: it may be
that of a column which the new trace does not have.  Until the next load, the columns that are
filtered are listed just as long as no such prompt was submitted.
-/

namespace TraceViewer

/-! ## 1. Filters and columns of a table -/

namespace Table

variable {t : Table}

/-- Every column with a filter is one of the columns. -/
def ListsFilters (t : Table) : Prop := ∀ f ∈ t.filters, f.1 ∈ t.columns

/-- The column that the rows are sorted by, if there is one, is one of the columns. -/
def ListsSorting (t : Table) : Prop := ∀ d ∈ t.sorting, d.1 ∈ t.columns

theorem ListsFilters.of_nil (h : t.filters = []) : t.ListsFilters := by
  simp [ListsFilters, h]

theorem ListsSorting.of_none (h : t.sorting = none) : t.ListsSorting := by
  simp [ListsSorting, h]

theorem listsFilters_congr {t' : Table} (hfilters : t'.filters = t.filters)
    (hcolumns : t'.columns.Perm t.columns) : t'.ListsFilters ↔ t.ListsFilters := by
  unfold ListsFilters
  rw [hfilters]
  exact forall₂_congr fun f _ => hcolumns.mem_iff

theorem ListsSorting.congr {t' : Table} (h : t.ListsSorting) (hsorting : t'.sorting = t.sorting)
    (hcolumns : t'.columns.Perm t.columns) : t'.ListsSorting := by
  intro d hd
  rw [hsorting] at hd
  exact hcolumns.mem_iff.mpr (h d hd)

variable {column : String} (text : String) (r : Registry)

/-- Setting the filter of a column leaves all filters of others. -/
theorem forall_setText {P : String → Prop} {filters : List (String × String)} :
    (∀ f ∈ setText column text filters, P f.1) ↔ P column ∧ ∀ f ∈ filters, P f.1 := by
  induction filters with
  | nil => simp [setText]
  | cons f rest ih =>
    obtain ⟨c, old⟩ := f
    unfold setText
    split
    · next h =>
      have hc : c = column := by simpa using h
      subst hc
      simp
    · simp only [List.forall_mem_cons, ih]
      exact and_left_comm

/-- Removing the filter of a column that is listed makes no difference to the others. -/
theorem forall_filter_ne {P : String → Prop} (hcolumn : P column)
    {filters : List (String × String)} :
    (∀ f ∈ filters.filter fun f => f.1 ≠ column, P f.1) ↔ ∀ f ∈ filters, P f.1 := by
  refine ⟨fun h f hf => ?_, fun h f hf => h f (List.mem_filter.mp hf).1⟩
  by_cases hne : f.1 = column
  · rwa [hne]
  · exact h f (List.mem_filter.mpr ⟨hf, by simpa using hne⟩)

theorem listsFilters_clearFilter (hcolumn : column ∈ t.columns) :
    (t.clearFilter column r).1.ListsFilters ↔ t.ListsFilters := by
  unfold ListsFilters
  rw [filters_clearFilter, columns_clearFilter]
  exact forall_filter_ne hcolumn

theorem listsFilters_setFilter (hcolumn : column ∈ t.columns) :
    (t.setFilter column text r).1.ListsFilters ↔ t.ListsFilters := by
  unfold ListsFilters
  rw [columns_setFilter]
  by_cases hblank : (Text.trim text).isEmpty = true
  · rw [t.filters_setFilter_of_blank r hblank]
    exact forall_filter_ne hcolumn
  · rw [t.filters_setFilter_of_text r hblank, forall_setText]
    exact and_iff_right hcolumn

/-- A filter of a column that is not there is one that is not listed. -/
theorem not_listsFilters_setFilter (hcolumn : column ∉ t.columns)
    (htext : ¬(Text.trim text).isEmpty = true) : ¬(t.setFilter column text r).1.ListsFilters := by
  unfold ListsFilters
  rw [columns_setFilter, t.filters_setFilter_of_text r htext, forall_setText]
  exact fun h => hcolumn h.1

/-- Without filters, a blank text sets none. -/
theorem filters_setFilter_of_nil (hfilters : t.filters = [])
    (htext : (Text.trim text).isEmpty = true) : (t.setFilter column text r).1.filters = [] := by
  rw [t.filters_setFilter_of_blank r htext, hfilters]
  rfl

end Table

namespace Session

variable (s : Session) {column : String} {target : FilterTarget}

/-! ## 2. Prompts -/

/-- Entering a text closes the prompt of a filter. -/
theorem input_submit : s.submit.input ≠ .filter target := by
  intro h
  unfold submit submitFilter at h
  split at h
  · next target hinput =>
    cases target with
    | column name =>
      dsimp only at h
      generalize s.table.setFilter name s.buffer s.registry = outcome at h
      cases h
    | rows =>
      dsimp only at h
      split at h <;> cases h
  · next hinput => cases hinput.symm.trans h
  · next hfilter _ => exact hfilter _ h

theorem modeBefore_ne (input : InputMode) : modeBefore input ≠ .filter target := by
  unfold modeBefore
  split <;> simp

/-- While a text is typed, its prompt stays until the text is entered. -/
theorem input_typeKey {key : Key} (h : (s.typeKey key).input = .filter target) :
    s.input = .filter target ∧ key ≠ .enter := by
  rcases s.typeKey_cases key with ⟨rfl, -⟩ | ⟨hkey, buffer, input, hinput, heq⟩
  · exact absurd h s.input_submit
  · rw [heq] at h
    rcases hinput with rfl | rfl
    · exact ⟨h, hkey⟩
    · exact absurd h (modeBefore_ne s.input)

theorem input_moveColumn (delta : Int) : (s.moveColumn delta).input = s.input := by
  unfold moveColumn
  split <;> rfl

theorem input_sortSelectedColumn : s.sortSelectedColumn.input = s.input := by
  unfold sortSelectedColumn
  split <;> rfl

theorem input_clearSelectedFilter : s.clearSelectedFilter.input = s.input := by
  unfold clearSelectedFilter
  split <;> rfl

/-- The prompt for a column opens only for the one that is selected. -/
theorem input_columnKey {key : Key} (hinput : s.input = .columns)
    (h : (s.columnKey key).2.input = .filter (.column column)) :
    s.selectedColumn? = some column := by
  have hsame {s' : Session} (h : s'.input = .filter (.column column)) : s'.input ≠ s.input := by
    rw [h, hinput]
    simp
  unfold columnKey at h
  dsimp only at h
  split at h
  all_goals first
    | exact absurd rfl (hsame h)
    | exact absurd (s.input_moveColumn _) (hsame h)
    | exact absurd s.input_sortSelectedColumn (hsame h)
    | exact absurd s.input_clearSelectedFilter (hsame h)
    | cases h
    | skip
  all_goals
    split at h
    · next hcolumn =>
      cases h
      exact hcolumn
    · exact absurd rfl (hsame h)

theorem input_forget (name : String) : (s.forget name).input = s.input := by
  unfold forget
  split
  · rfl
  · split <;> rfl

theorem input_deleteSelectedParser : s.deleteSelectedParser.input = s.input := by
  unfold deleteSelectedParser
  split
  · rfl
  · exact input_forget _ _

theorem input_parserKey {key : Key} (h : (s.parserKey key).2.input = .filter target) :
    s.input = .filter target := by
  unfold parserKey at h
  split at h
  all_goals first
    | with_reducible exact s.input_deleteSelectedParser.symm.trans h
    | exact h
    | cases h
    | split at h <;> first | exact h | cases h

theorem input_press {key : Key} (h : (s.press key).2.input = .filter (.column column)) :
    s.input = .filter (.column column) ∧ key ≠ .enter ∨ s.selectedColumn? = some column := by
  unfold press at h
  split at h
  · next hkey => exact .inl ⟨h, by simp [hkey]⟩
  · split at h
    · exact .inl (s.input_typeKey h)
    · exact .inl (s.input_typeKey h)
    · next hinput => exact .inr (s.input_columnKey hinput h)
    · next hinput => cases hinput.symm.trans (s.input_parserKey h)
    · next hinput => cases hinput.symm.trans ((s.spares_sourceKey key).prompt h)
    · next hinput => cases hinput.symm.trans ((s.spares_normalKey key).prompt h)

theorem input_saveParser {source : String} {editing : Option String}
    (h : (s.saveParser source editing).input = .filter (.column column)) :
    s.input = .filter (.column column) := by
  unfold saveParser at h
  split at h
  · exact h
  · split at h
    · exact h
    · have hinput := (spares_persist _ _ _).prompt h
      split at hinput <;> exact hinput

theorem input_applyLoad (response : LoadResponse) : (s.applyLoad response).2.input = s.input := by
  unfold applyLoad
  split
  · rfl
  · dsimp only
    split <;> rfl

/-- After a step, the prompt for a column was open before, or is that of the selected column. -/
theorem input_step {e : Stimulus} (h : (s.step e).input = .filter (.column column)) :
    s.input = .filter (.column column) ∧ e ≠ .press .enter ∨ s.selectedColumn? = some column := by
  cases e with
  | press key =>
    rcases s.input_press h with ⟨hinput, hkey⟩ | hselected
    · exact .inl ⟨hinput, fun he => hkey (Stimulus.press.inj he)⟩
    · exact .inr hselected
  | saveParser source editing =>
    have hsave : (s.saveParser source editing).input = .filter (.column column) := h
    exact .inl ⟨s.input_saveParser hsave, by simp⟩
  | request => exact .inl ⟨h, by simp⟩
  | respond response => exact .inl ⟨(s.input_applyLoad response).symm.trans h, by simp⟩
  | draw width height => exact .inl ⟨(s.spares_draw width height).prompt h, by simp⟩
  | outside files clock => exact .inl ⟨h, by simp⟩

/-! ## 3. Steps -/

/-- The prompt that is open is for the filter of a column that the table does not have. -/
def PromptsAstray (s : Session) : Prop :=
  ∃ column, s.input = .filter (.column column) ∧ column ∉ s.table.columns

/-- A text is entered for the filter of a column that the table does not have. -/
def SubmitsAstray (s : Session) (e : Stimulus) : Prop :=
  e = .press .enter ∧ s.PromptsAstray ∧ ¬(Text.trim s.buffer).isEmpty = true

theorem selectedColumn?_mem (h : s.selectedColumn? = some column) : column ∈ s.table.columns := by
  unfold selectedColumn? at h
  obtain ⟨i, -, hi⟩ := Option.bind_eq_some_iff.mp h
  exact List.mem_of_getElem? hi

/-- A trace that is loaded takes the place of the table. -/
theorem table_step_of_loaded {e : Stimulus} {loaded : LoadedTrace}
    (h : s.loaded? e = some loaded) :
    (s.step e).table = s.table.load loaded.columns loaded.trace.rows := by
  unfold loaded? at h
  split at h
  · next response =>
    split at h
    · cases h
    · next hnewest =>
      split at h
      · next houtcome =>
        cases h
        show (s.applyLoad response).2.table = _
        unfold applyLoad
        rw [if_neg hnewest, houtcome]
        rfl
      · cases h
  · cases h

theorem table_step_enter (hinput : s.input = .filter (.column column)) :
    (s.step (.press .enter)).table = (s.table.setFilter column s.buffer s.registry).1 := by
  show (s.press .enter).2.table = _
  unfold press typeKey submit submitFilter
  rw [if_neg (by simp), hinput]
  dsimp only
  generalize s.table.setFilter column s.buffer s.registry = outcome
  rfl

end Session

namespace Change

variable {s : Session} {e : Stimulus} {p q : Trail} {t : Table} {r : Registry}

/-- Only loading a trace gives other columns. -/
theorem columns (h : Change s e p t r q) (hloaded : s.loaded? e = Option.none) :
    t.columns.Perm s.table.columns := by
  cases h with
  | setFilter column => rw [Table.columns_setFilter]
  | clearFilter column => rw [Table.columns_clearFilter]
  | setRowFilter text => rw [Table.columns_setRowFilter]
  | moveColumn position delta => exact s.table.columns_moveColumn position delta
  | load loaded h => cases hloaded.symm.trans h
  | _ => exact .refl _

/-- Without a filter, and without a prompt that is entered, none is set. -/
theorem filters_of_nil (h : Change s e p t r q) (hfilters : s.table.filters = [])
    (he : e ≠ .press .enter) : t.filters = [] := by
  cases h with
  | setFilter column henter => exact absurd henter he
  | clearFilter column =>
    rw [Table.filters_clearFilter, hfilters]
    rfl
  | setRowFilter text =>
    rw [Table.filters_setRowFilter]
    exact hfilters
  | moveColumn position delta =>
    rw [Table.filters_moveColumn]
    exact hfilters
  | load loaded => rfl
  | _ => exact hfilters

theorem listsSorting (h : Change s e p t r q) (hlists : s.table.ListsSorting) : t.ListsSorting := by
  cases h with
  | setFilter column =>
    exact hlists.congr (s.table.sorting_setFilter column s.buffer s.registry)
      (.of_eq (s.table.columns_setFilter column s.buffer s.registry))
  | clearFilter column =>
    exact hlists.congr (s.table.sorting_clearFilter column s.registry)
      (.of_eq (s.table.columns_clearFilter column s.registry))
  | setRowFilter text =>
    exact hlists.congr (s.table.sorting_setRowFilter text s.registry)
      (.of_eq (s.table.columns_setRowFilter text s.registry))
  | moveColumn position delta =>
    exact hlists.congr (s.table.sorting_moveColumn position delta)
      (s.table.columns_moveColumn position delta)
  | sort column hcolumn =>
    intro d hd
    cases hd
    exact s.selectedColumn?_mem hcolumn
  | load loaded => exact .of_none rfl
  | _ => exact hlists

/-- As long as no text is entered astray, a step other than a load makes no difference. -/
theorem listsFilters (h : Change s e p t r q) (hloaded : s.loaded? e = Option.none)
    (hastray : ¬s.SubmitsAstray e) (hprompt : s.PromptsAstray → s.table.filters = []) :
    t.ListsFilters ↔ s.table.ListsFilters := by
  cases h with
  | setFilter column he hinput =>
    by_cases hcolumn : column ∈ s.table.columns
    · exact Table.listsFilters_setFilter s.buffer s.registry hcolumn
    · -- a blank text sets no filter, and there was none
      have hopen : s.PromptsAstray := ⟨column, hinput, hcolumn⟩
      have hblank : (Text.trim s.buffer).isEmpty = true :=
        Decidable.byContradiction fun htext => hastray ⟨he, hopen, htext⟩
      have hfilters := hprompt hopen
      exact iff_of_true
        (.of_nil (Table.filters_setFilter_of_nil s.buffer s.registry hfilters hblank))
        (.of_nil hfilters)
  | clearFilter column hcolumn =>
    exact Table.listsFilters_clearFilter s.registry (s.selectedColumn?_mem hcolumn)
  | setRowFilter text =>
    exact Table.listsFilters_congr (s.table.filters_setRowFilter text s.registry)
      (.of_eq (s.table.columns_setRowFilter text s.registry))
  | moveColumn position delta =>
    exact Table.listsFilters_congr (s.table.filters_moveColumn position delta)
      (s.table.columns_moveColumn position delta)
  | load loaded h => exact nomatch hloaded.symm.trans h
  | _ => rfl

end Change

/-! ## 4. Runs -/

namespace Session

variable {s : Session} {p : Trail} {e : Stimulus}

/-- Only loading a trace leaves a prompt with a column that the table does not have. -/
theorem promptsAstray_of_step (hprompt : (s.step e).PromptsAstray) (hloaded : s.loaded? e = none) :
    s.PromptsAstray ∧ e ≠ .press .enter := by
  obtain ⟨column, hinput, hcolumn⟩ := hprompt
  rw [((s.step_change ⟨s.registry, none⟩ e).columns hloaded).mem_iff] at hcolumn
  rcases s.input_step hinput with ⟨hopen, he⟩ | hselected
  · exact ⟨⟨column, hopen, hcolumn⟩, he⟩
  · exact absurd (s.selectedColumn?_mem hselected) hcolumn

/-- While such a prompt is open, no column is filtered: the load cleared all filters. -/
theorem Reached.filters_of_promptsAstray (h : s.Reached p) (hprompt : s.PromptsAstray) :
    s.table.filters = [] := by
  induction h with
  | start => rfl
  | @step s p hs e ih =>
    cases hloaded : s.loaded? e with
    | some loaded =>
      rw [s.table_step_of_loaded hloaded]
      rfl
    | none =>
      obtain ⟨hopen, he⟩ := promptsAstray_of_step hprompt hloaded
      exact (s.step_change p e).filters_of_nil (ih hopen) he

/-- Until the next load, the columns that are filtered are listed just as long as no text is
entered astray. -/
theorem Reached.listsFilters_step (h : s.Reached p) (hloaded : s.loaded? e = none) :
    (s.step e).table.ListsFilters ↔ s.table.ListsFilters ∧ ¬s.SubmitsAstray e := by
  by_cases hastray : s.SubmitsAstray e
  · obtain ⟨rfl, ⟨column, hinput, hcolumn⟩, htext⟩ := id hastray
    rw [s.table_step_enter hinput]
    exact iff_of_false (Table.not_listsFilters_setFilter s.buffer s.registry hcolumn htext)
      fun hboth => hboth.2 hastray
  · rw [and_iff_left hastray]
    exact (s.step_change p e).listsFilters hloaded hastray h.filters_of_promptsAstray

/-- A text has been entered astray, and no trace was loaded since. -/
inductive Strayed : Session → Trail → Prop
  | submit {s : Session} {p : Trail} (h : s.Reached p) {e : Stimulus} (he : s.SubmitsAstray e) :
      Strayed (s.step e) (p.step s e)
  | step {s : Session} {p : Trail} (h : Strayed s p) {e : Stimulus} (he : s.loaded? e = none) :
      Strayed (s.step e) (p.step s e)

theorem Strayed.not_listsFilters (h : s.Strayed p) : s.Reached p ∧ ¬s.table.ListsFilters := by
  induction h with
  | @submit s p h e he =>
    have hloaded : s.loaded? e = none := by
      rw [he.1]
      rfl
    exact ⟨h.step e, fun hlists => ((h.listsFilters_step hloaded).mp hlists).2 he⟩
  | @step s p h e he ih =>
    obtain ⟨hreached, hlists⟩ := ih
    exact ⟨hreached.step e, fun h' => hlists ((hreached.listsFilters_step he).mp h').1⟩

theorem Reached.listsSorting (h : s.Reached p) : s.table.ListsSorting := by
  induction h with
  | start => exact .of_none rfl
  | @step s p _ e ih => exact (s.step_change p e).listsSorting ih

/-- In every state that a session can reach, the column that the rows are sorted by is listed; and
each column that is filtered is, unless a text was entered for the filter of a column that the table
did not have, and no trace was loaded since. -/
theorem Reached.listsFilters_iff (h : s.Reached p) :
    s.table.ListsSorting ∧ (s.table.ListsFilters ↔ ¬s.Strayed p) := by
  refine ⟨h.listsSorting, fun hlists hstrayed => hstrayed.not_listsFilters.2 hlists, ?_⟩
  intro hnot
  induction h with
  | start => exact .of_nil rfl
  | @step s p h e ih =>
    cases hloaded : s.loaded? e with
    | some loaded =>
      rw [s.table_step_of_loaded hloaded]
      exact .of_nil rfl
    | none =>
      refine (h.listsFilters_step hloaded).mpr ⟨ih fun hstrayed => ?_, fun hsubmit => ?_⟩
      · exact hnot (.step hstrayed hloaded)
      · exact hnot (.submit h hsubmit)

/-- Two sources with an event each, and no column in common. -/
def apartSources : List TraceSource :=
  [.inline "one" "[\x7b\"a\":1\x7d]", .inline "two" "[\x7b\"b\":2\x7d]"]

/-- The second source is selected, and comes while the filter of the column of the first one is
being typed. -/
def lateStimuli : List Stimulus :=
  [.request, .respond ⟨⟨1, .byUpload, 0⟩, LoadedTrace.load {} apartSources .byUpload 0⟩,
    .press (.char 't'), .press (.char 'j'), .press .enter, .press (.char 'c'), .press .enter,
    .respond ⟨⟨2, .byUpload, 1⟩, LoadedTrace.load {} apartSources .byUpload 1⟩,
    .press (.char 'z'), .press .enter]

def lateRun : Session × Trail :=
  (Session.start ⟨wholeParser, {}, {}, none⟩ apartSources .byUpload "." 0).stepAll
    ⟨wholeParser, none⟩ lateStimuli

theorem reached_lateRun : lateRun.1.Reached lateRun.2 := by
  have hmade : wholeParser.Made := .register (.new {}) "whole" "parseInt"
  have hstart :=
    Session.Reached.start ⟨wholeParser, {}, {}, none⟩ hmade apartSources .byUpload "." 0
  exact hstart.stepAll
    lateStimuli

theorem filters_lateRun : lateRun.1.table.filters = [("a", "z")] := rfl

theorem columns_lateRun : lateRun.1.table.columns = ["b"] := rfl

/-- The theorem for that run, which leaves a filter that is not listed. -/
theorem listsFilters_iff_lateRun :
    lateRun.1.Reached lateRun.2 ∧ lateRun.1.table.filters = [("a", "z")] ∧
      lateRun.1.table.columns = ["b"] ∧
      lateRun.1.table.ListsSorting ∧
        (lateRun.1.table.ListsFilters ↔ ¬lateRun.1.Strayed lateRun.2) :=
  ⟨reached_lateRun, filters_lateRun, columns_lateRun, reached_lateRun.listsFilters_iff⟩

/-- Not in every state that a session can reach are all columns listed that are filtered. -/
theorem not_listsFilters_lateRun :
    ¬∀ (s : Session) (p : Trail), s.Reached p → s.table.ListsSorting ∧ s.table.ListsFilters := by
  intro h
  have hlists := (h _ _ reached_lateRun).2
  unfold Table.ListsFilters at hlists
  rw [filters_lateRun, columns_lateRun] at hlists
  exact absurd (hlists ("a", "z") (by simp)) (by simp)

end Session

end TraceViewer
