import TraceViewer.Proofs.Session.Showing

/-!
# What is selected is there

The rows, the columns, the parsers and the sources of a session are lists that grow and shrink on
their own, each with a selection.  No selection ever points past the end of its list, and a row is
selected as soon as one shows.
-/

namespace TraceViewer

/-! ## 1. Selections -/

/-- A selection from so many items, if there is one. -/
def Within (selected : Option Nat) (count : Nat) : Prop := ∀ i ∈ selected, i < count

/-- A selection from so many items, which there is as soon as there is an item. -/
structure Picks (selected : Option Nat) (count : Nat) : Prop where
  none_iff : selected = none ↔ count = 0
  within : Within selected count

theorem within_none (count : Nat) : Within none count := by simp [Within]

theorem within_some {i count : Nat} : Within (some i) count ↔ i < count := by simp [Within]

theorem Within.mono {selected : Option Nat} {count count' : Nat} (h : Within selected count)
    (hle : count ≤ count') : Within selected count' := fun i hi => Nat.lt_of_lt_of_le (h i hi) hle

theorem picks_zero : Picks none 0 := ⟨by simp, within_none 0⟩

theorem picks_some {i count : Nat} (h : i < count) : Picks (some i) count :=
  ⟨by simp; omega, within_some.mpr h⟩

theorem Table.shifted_lt {count : Nat} (h : count ≠ 0) (position : Nat) (delta : Int) :
    shifted position delta count < count := by
  unfold shifted
  omega

namespace Table

variable {t : Table}

theorem visibleCount_moveColumn (position : Nat) (delta : Int) :
    (t.moveColumn position delta).2.visibleCount = t.visibleCount := by
  unfold moveColumn
  split <;> rfl

theorem moveColumn_lt {position : Nat} (h : position < t.columns.length) (delta : Int) :
    (t.moveColumn position delta).1 < t.columns.length := by
  unfold moveColumn
  split
  · exact h
  · exact shifted_lt (by omega) position delta

/-- A column stands at its new position once it is moved. -/
theorem getElem?_moveColumn (t : Table) (position : Nat) (delta : Int) :
    (t.moveColumn position delta).2.columns[(t.moveColumn position delta).1]? =
      t.columns[position]? := by
  unfold moveColumn
  split
  · rfl
  · next column hcolumn =>
    obtain ⟨hlt, -⟩ := List.getElem?_eq_some_iff.mp hcolumn
    have hle : shifted position delta t.columns.length ≤ (t.columns.eraseIdx position).length := by
      rw [List.length_eraseIdx_of_lt hlt]
      unfold shifted
      omega
    rw [hcolumn]
    dsimp only
    rw [List.getElem?_insertIdx_self, if_pos hle]

end Table

namespace ListPosition

variable (p : ListPosition) (count : Nat)

@[simp] theorem selected_select (selected : Option Nat) :
    (p.select selected).selected = selected := by
  cases selected <;> rfl

theorem picks_selectFirst : Picks (p.selectFirst count).selected count := by
  unfold selectFirst
  rw [selected_select]
  split
  · next h => exact h ▸ picks_zero
  · next h => exact picks_some (by omega)

theorem picks_selectLast : Picks (p.selectLast count).selected count := by
  unfold selectLast
  rw [selected_select]
  split
  · next h => exact h ▸ picks_zero
  · next h => exact picks_some (by omega)

theorem picks_move (delta : Int) : Picks (p.move count delta).selected count := by
  unfold move
  split
  · next h => exact h ▸ picks_zero
  · next h =>
    rw [selected_select]
    exact picks_some (Table.shifted_lt h _ delta)

@[simp] theorem selected_settle (shown : Nat) : (p.settle count shown).selected = p.selected := by
  unfold settle
  split
  · rfl
  · dsimp only
    split
    · rfl
    · split
      · simp_all
      · split <;> simp_all

end ListPosition

/-- What is selected in the lists of a session, and how many items each list has. -/
structure Selections where
  row : Option Nat
  rowCount : Nat
  column : Option Nat
  columnCount : Nat
  parser : Option Nat
  parserCount : Nat
  source : Option Nat
  sources : List TraceSource
  shownSource : Nat
  summaryCount : Nat

/-- The sources stay what they are; a session without any has none that it could show. -/
structure Selections.Valid (sources : List TraceSource) (c : Selections) : Prop where
  row : Picks c.row c.rowCount
  column : Within c.column c.columnCount
  parser : Within c.parser c.parserCount
  sources : c.sources = sources
  source : c.sources.length ≠ 0 → Within c.source c.sources.length
  shownSource : c.sources.length ≠ 0 → c.shownSource < c.sources.length
  summaries : c.summaryCount = c.sources.length

namespace Session

def selections (s : Session) : Selections where
  row := s.rowList.selected
  rowCount := s.visibleCount
  column := s.columnList.selected
  columnCount := s.table.columns.length
  parser := s.parserList.selected
  parserCount := s.registry.parsers.length
  source := s.sourceList.selected
  sources := s.sources
  shownSource := s.selectedSource
  summaryCount := s.summaries.length

/-- Every selection is one from its list, and the sources are those that are given. -/
def IsValid (sources : List TraceSource) (s : Session) : Prop := s.selections.Valid sources

variable {sources : List TraceSource} {s : Session}

/-! ## 2. Rows -/

theorem picks_clampSelection (s : Session) :
    Picks s.clampSelection.rowList.selected s.visibleCount := by
  unfold clampSelection resetScroll
  dsimp only
  rw [ListPosition.selected_select]
  split
  · next h => exact h ▸ picks_zero
  · next h => exact picks_some (by omega)

theorem IsValid.moveSelection (h : s.IsValid sources) (delta : Int) :
    (s.moveSelection delta).IsValid sources := by
  unfold Session.moveSelection
  split
  · exact h
  · next hcount =>
    exact { h with row := picks_some (Table.shifted_lt hcount _ delta) }

theorem IsValid.selectFirst (h : s.IsValid sources) : s.selectFirst.IsValid sources :=
  { h with row := s.rowList.picks_selectFirst s.visibleCount }

theorem IsValid.selectLast (h : s.IsValid sources) : s.selectLast.IsValid sources :=
  { h with row := s.rowList.picks_selectLast s.visibleCount }

theorem IsValid.scrollDown (h : s.IsValid sources) (lines : Nat) :
    (s.scrollDown lines).IsValid sources := by
  unfold Session.scrollDown
  split <;> exact h

theorem IsValid.listKey (h : s.IsValid sources) (key : Key) : (s.listKey key).IsValid sources := by
  unfold Session.listKey pageDown pageUp
  split
  all_goals first
    | with_reducible exact h.moveSelection _
    | with_reducible exact h.selectFirst
    | with_reducible exact h.selectLast
    | exact h

theorem IsValid.detailKey (h : s.IsValid sources) (key : Key) :
    (s.detailKey key).IsValid sources := by
  unfold Session.detailKey
  split
  all_goals first
    | with_reducible exact h.scrollDown _
    | exact h

theorem IsValid.exportTable (h : s.IsValid sources) : s.exportTable.IsValid sources := by
  unfold Session.exportTable
  dsimp only
  split <;> exact h

/-! ## 3. Filters and columns -/

/-- With other rows showing and other parsers, but no fewer, a row is selected anew. -/
theorem IsValid.refiltered (h : s.IsValid sources) {table : Table} {registry : Registry}
    (hcolumns : table.columns = s.table.columns)
    (hparsers : s.registry.parsers.length ≤ registry.parsers.length) :
    ({ s with table, registry } : Session).clampSelection.IsValid sources :=
  { h with
    row := picks_clampSelection _
    column := by
      show Within _ table.columns.length
      rw [hcolumns]
      exact h.column
    parser := h.parser.mono hparsers }

/-- With other parsers, of which one is selected or none. -/
theorem IsValid.reselected (h : s.IsValid sources) {registry : Registry} {parser : Option Nat}
    (hparser : Within parser ({ s with registry } : Session).refilter.registry.parsers.length) :
    ({ ({ s with registry } : Session).refilter with
        parserList := s.parserList.select parser } : Session).IsValid sources :=
  { h with
    row := picks_clampSelection _
    parser := by
      show Within (ListPosition.selected (ListPosition.select _ _)) _
      rw [ListPosition.selected_select]
      exact hparser }

theorem IsValid.submitFilter (h : s.IsValid sources) (target : FilterTarget) :
    (s.submitFilter target).IsValid sources := by
  unfold Session.submitFilter
  cases target with
  | column name =>
    have hcolumns := s.table.columns_setFilter name s.buffer s.registry
    have hparsers := s.table.parsers_setFilter s.registry name s.buffer
    dsimp only
    generalize s.table.setFilter name s.buffer s.registry = outcome at hcolumns hparsers ⊢
    exact h.refiltered hcolumns (Nat.le_of_eq (congrArg List.length hparsers.symm))
  | rows =>
    have hcolumns := s.table.columns_setRowFilter s.buffer s.registry
    have hparsers := s.table.parsers_setRowFilter s.registry s.buffer
    have hrejected := s.table.setRowFilter_cases s.buffer s.registry
    dsimp only
    split
    · next heq =>
      rw [heq] at hcolumns hparsers
      exact h.refiltered hcolumns (Nat.le_of_eq (congrArg List.length hparsers.symm))
    · next heq =>
      -- a text that is rejected leaves the table, and with it the rows that show
      rcases hrejected with ⟨_, hsame⟩ | ⟨_, _, _, _, hset⟩
      · rw [heq] at hsame
        cases hsame
        exact h
      · rw [heq] at hset
        cases hset

theorem IsValid.testParser (h : s.IsValid sources) (name input : String) :
    (s.testParser name input).IsValid sources :=
  { h with
    parser := by
      show Within _ (s.registry.test name input).2.parsers.length
      rw [Registry.parsers_test]
      exact h.parser }

theorem IsValid.submit (h : s.IsValid sources) : s.submit.IsValid sources := by
  unfold Session.submit
  split
  · exact h.submitFilter _
  · exact h.testParser _ _
  · exact h

theorem IsValid.typeKey (h : s.IsValid sources) (key : Key) : (s.typeKey key).IsValid sources := by
  rcases s.typeKey_cases key with ⟨rfl, -⟩ | ⟨-, buffer, input, -, hkey⟩
  · exact h.submit
  · rw [hkey]
    exact h

theorem IsValid.clearSelectedFilter (h : s.IsValid sources) :
    s.clearSelectedFilter.IsValid sources := by
  unfold Session.clearSelectedFilter
  split
  · exact h
  · next column _ =>
    exact h.refiltered (s.table.columns_clearFilter column s.registry)
      (Nat.le_of_eq (congrArg List.length (s.table.parsers_clearFilter s.registry column).symm))

theorem IsValid.sortSelectedColumn (h : s.IsValid sources) :
    s.sortSelectedColumn.IsValid sources := by
  unfold Session.sortSelectedColumn
  split
  · exact h
  · next column _ =>
    have hsorted : ({ s with table := s.table.sort column } : Session).IsValid sources := h
    exact hsorted.selectFirst

theorem IsValid.moveColumn (h : s.IsValid sources) (delta : Int) :
    (s.moveColumn delta).IsValid sources := by
  unfold Session.moveColumn
  split
  · exact h
  · next position hposition =>
    have hlt : position < s.table.columns.length := h.column position hposition
    have hlength := (s.table.columns_moveColumn position delta).length_eq
    exact { h with
      row := by
        show Picks _ (Table.visibleCount _)
        rw [Table.visibleCount_moveColumn]
        exact h.row
      column := by
        show Within (ListPosition.selected (ListPosition.select _ _)) _
        rw [ListPosition.selected_select, within_some]
        show _ < (s.table.moveColumn position delta).2.columns.length
        rw [hlength]
        exact Table.moveColumn_lt hlt delta }

/-- The column that is moved is still the one that is selected. -/
theorem selectedColumn?_moveColumn (s : Session) (delta : Int) :
    (s.moveColumn delta).selectedColumn? = s.selectedColumn? := by
  unfold Session.moveColumn selectedColumn?
  cases hselected : s.columnList.selected with
  | none => simp [hselected]
  | some position =>
    dsimp only
    rw [ListPosition.selected_select]
    exact s.table.getElem?_moveColumn position delta

theorem IsValid.columnKey (h : s.IsValid sources) (key : Key) :
    (s.columnKey key).2.IsValid sources := by
  unfold Session.columnKey
  dsimp only
  split
  all_goals first
    | with_reducible exact h.moveColumn _
    | with_reducible exact h.sortSelectedColumn
    | with_reducible exact h.clearSelectedFilter
    | exact h
    | exact { h with column := (ListPosition.picks_move _ _ _).within }
    | exact { h with column := (ListPosition.picks_selectFirst _ _).within }
    | exact { h with column := (ListPosition.picks_selectLast _ _).within }
    | split <;> exact h

/-! ## 4. Parsers -/

theorem IsValid.persist (h : s.IsValid sources) (name source : String) :
    (s.persist name source).IsValid sources := by
  unfold Session.persist
  split <;> exact h

theorem IsValid.forget (h : s.IsValid sources) (name : String) :
    (s.forget name).IsValid sources := by
  unfold Session.forget
  split
  · exact h
  · split <;> exact h

theorem IsValid.saveParser (h : s.IsValid sources) (source : String) (editing : Option String) :
    (s.saveParser source editing).IsValid sources := by
  unfold Session.saveParser
  split
  · exact h
  · next name _ =>
    have hregister := s.registry.length_parsers_register name source
    split
    · next heq =>
      rw [heq] at hregister
      exact { h with parser := h.parser.mono hregister }
    · next registry heq =>
      rw [heq] at hregister
      have hparsers : s.registry.parsers.length ≤
          (s.table.refilter registry).2.parsers.length := by
        rwa [Table.parsers_refilter]
      dsimp only
      split
      · next position hposition =>
        -- the name was found among those of the parsers that are there now
        have hlt := (List.findIdx?_eq_some_iff_getElem.mp hposition).1
        rw [Registry.names, List.length_map] at hlt
        exact (h.reselected (within_some.mpr hlt)).persist name source
      · have hrefiltered : ({ s with registry } : Session).refilter.IsValid sources :=
          h.refiltered rfl hparsers
        exact hrefiltered.persist name source

theorem IsValid.deleteSelectedParser (h : s.IsValid sources) :
    s.deleteSelectedParser.IsValid sources := by
  unfold Session.deleteSelectedParser
  split
  · exact h
  · next name _ =>
    have hleft (selected count : Nat) :
        Within (if count = 0 then none else some (min selected (count - 1))) count := by
      split
      · exact within_none count
      · exact within_some.mpr (by omega)
    exact (h.reselected (hleft _ _)).forget name

theorem IsValid.moveParser (h : s.IsValid sources) (delta : Int) :
    (s.moveParser delta).IsValid sources :=
  { h with parser := (ListPosition.picks_move _ _ _).within }

theorem IsValid.parserKey (h : s.IsValid sources) (key : Key) :
    (s.parserKey key).2.IsValid sources := by
  unfold Session.parserKey
  split
  all_goals first
    | with_reducible exact h.moveParser _
    | with_reducible exact h.deleteSelectedParser
    | exact h
    | split <;> exact h

/-! ## 5. Sources -/

theorem IsValid.selectSource (h : s.IsValid sources) (position : Nat) :
    (s.selectSource position).2.IsValid sources := by
  unfold Session.selectSource
  split
  · exact h
  · next hlt => exact { h with shownSource := fun _ => Nat.lt_of_not_le hlt }

theorem IsValid.sourceKey (h : s.IsValid sources) (key : Key) :
    (s.sourceKey key).2.IsValid sources := by
  unfold Session.sourceKey
  dsimp only
  split
  all_goals first
    | exact h
    | exact { h with source := fun _ => (ListPosition.picks_move _ _ _).within }
    | skip
  have hclosed : ({ s with input := .normal } : Session).IsValid sources := h
  have hpicked := hclosed.selectSource (s.sourceList.selected.getD 0)
  split <;>
  · next heq =>
    rw [heq] at hpicked
    exact hpicked

/-! ## 6. Keys -/

theorem IsValid.openColumns (h : s.IsValid sources) : s.openColumns.IsValid sources := by
  unfold Session.openColumns
  dsimp only
  split
  · exact { h with column := (ListPosition.picks_selectFirst _ _).within }
  · exact h

theorem IsValid.openParsers (h : s.IsValid sources) : s.openParsers.IsValid sources := by
  unfold Session.openParsers
  dsimp only
  split
  · exact { h with parser := (ListPosition.picks_selectFirst _ _).within }
  · exact h

/-- The panel of the sources opens with the one that is shown. -/
theorem IsValid.openSources (h : s.IsValid sources) : s.openSources.IsValid sources :=
  { h with source := fun hcount => within_some.mpr (h.shownSource hcount) }

theorem IsValid.commonKey? (h : s.IsValid sources) {key : Key} {outcome : Action × Session}
    (hkey : s.commonKey? key = some outcome) : outcome.2.IsValid sources := by
  unfold Session.commonKey? at hkey
  split at hkey
  all_goals cases hkey
  all_goals first
    | with_reducible exact h.moveSelection _
    | with_reducible exact h.exportTable
    | with_reducible exact h.openColumns
    | with_reducible exact h.openParsers
    | with_reducible exact h.openSources
    | exact h

theorem IsValid.normalKey (h : s.IsValid sources) (key : Key) :
    (s.normalKey key).2.IsValid sources := by
  unfold Session.normalKey
  split
  · exact h
  · split
    · split <;> exact h
    · split
      · next hcommon => exact h.commonKey? hcommon
      · split
        · exact h.listKey key
        · exact h.detailKey key

theorem IsValid.press (h : s.IsValid sources) (key : Key) : (s.press key).2.IsValid sources := by
  unfold Session.press
  split
  · exact h
  · split
    · exact h.typeKey key
    · exact h.typeKey key
    · exact h.columnKey key
    · exact h.parserKey key
    · exact h.sourceKey key
    · exact h.normalKey key

/-! ## 7. Steps -/

theorem length_noteSummaries (summaries : List (Option SourceSummary))
    (loaded : List (Nat × SourceSummary)) :
    (noteSummaries summaries loaded).length = summaries.length := by
  unfold noteSummaries
  induction loaded generalizing summaries with
  | nil => rfl
  | cons l rest ih => rw [List.foldl_cons, ih, List.length_set]

theorem IsValid.applyLoad (h : s.IsValid sources) (response : LoadResponse) :
    (s.applyLoad response).2.IsValid sources := by
  unfold Session.applyLoad
  split
  · exact h
  · dsimp only
    split
    · next loaded _ =>
      exact { h with
        row := ListPosition.picks_selectFirst _ _
        column := (s.columnList.picks_selectFirst loaded.columns.length).within
        summaries := (length_noteSummaries s.summaries loaded.summaries).trans h.summaries }
    · exact h

theorem IsValid.measureDetail (h : s.IsValid sources) (f : Frame) :
    (s.measureDetail f).IsValid sources := by
  unfold Session.measureDetail
  split
  · exact h
  · dsimp only
    split <;> exact h

/-- Lists that are moved to where their selections show keep the selections. -/
theorem IsValid.settlePanel (h : s.IsValid sources) (f : Frame) :
    (s.settlePanel f).IsValid sources := by
  have hcolumn (count shown : Nat) :
      Within (s.columnList.settle count shown).selected s.table.columns.length := by
    rw [ListPosition.selected_settle]
    exact h.column
  have hparser (count shown : Nat) :
      Within (s.parserList.settle count shown).selected s.registry.parsers.length := by
    rw [ListPosition.selected_settle]
    exact h.parser
  have hsource (count shown : Nat) (hcount : s.sources.length ≠ 0) :
      Within (s.sourceList.settle count shown).selected s.sources.length := by
    rw [ListPosition.selected_settle]
    exact h.source hcount
  unfold Session.settlePanel
  split
  · exact { h with column := hcolumn _ _ }
  · exact { h with column := hcolumn _ _ }
  · exact { h with parser := hparser _ _ }
  · exact { h with parser := hparser _ _ }
  · exact { h with source := hsource _ _ }
  · exact h

theorem IsValid.draw (h : s.IsValid sources) (width height : Nat) :
    (s.draw width height).2.IsValid sources := by
  show (s.measure (Frame.ofSession s width height)).IsValid sources
  unfold measure
  generalize Frame.ofSession s width height = f
  let listed : Session :=
    { s.measureList f with
      rowList := (s.measureList f).rowList.settle (s.measureList f).visibleCount
        (shownItems f.body) }
  have hrow : Picks listed.rowList.selected s.visibleCount := by
    rw [ListPosition.selected_settle]
    exact h.row
  have hlisted : listed.IsValid sources := { h with row := hrow }
  exact (hlisted.measureDetail f).settlePanel f

theorem IsValid.step (h : s.IsValid sources) (e : Stimulus) : (s.step e).IsValid sources := by
  cases e with
  | press key => exact h.press key
  | saveParser source editing => exact h.saveParser source editing
  | request => exact h
  | respond response => exact h.applyLoad response
  | draw width height => exact h.draw width height
  | outside files clock => exact h

theorem isValid_start (setup : ParserSetup) (sources : List TraceSource) (mode : ViewMode)
    (exportFolder : String) (clock : Int) :
    (Session.start setup sources mode exportFolder clock).IsValid sources where
  row := picks_zero
  column := within_none _
  parser := within_none _
  sources := rfl
  source := fun _ => within_none _
  shownSource := fun hcount => Nat.pos_of_ne_zero hcount
  summaries := List.length_replicate

/-- All that a session selects is there, whatever happens to it. -/
theorem IsValid.stepAll (h : s.IsValid sources) (p : Trail) (stimuli : List Stimulus) :
    (s.stepAll p stimuli).1.IsValid sources := by
  induction stimuli generalizing s p with
  | nil => exact h
  | cons e rest ih => exact ih (h.step e) _

/-! ## 8. What is selected -/

/-- Every selection of a session is one from its list. -/
structure SelectsWhatIsThere (s : Session) : Prop where
  row_none : s.rowList.selected = none ↔ s.table.visibleRows = []
  row : ∀ i ∈ s.rowList.selected, i < s.table.visibleRows.length
  currentRow : s.currentRow?.isSome = true ↔ s.table.visibleRows ≠ []
  column : ∀ i ∈ s.columnList.selected, i < s.table.columns.length
  /-- The keys that move the selected column keep it selected. -/
  movedColumn : s.input = .columns → ∀ c ∈ ['J', 'K'], ∀ control,
    (s.press (.char c control)).2.selectedColumn? = s.selectedColumn?
  parser : ∀ i ∈ s.parserList.selected, i < s.registry.parsers.length
  source : ∀ i ∈ s.sourceList.selected, i < s.sources.length
  summaries : s.summaries.length = s.sources.length

theorem selectedColumn?_press (hinput : s.input = .columns) {c : Char} (hc : c ∈ ['J', 'K'])
    (control : Bool) : (s.press (.char c control)).2.selectedColumn? = s.selectedColumn? := by
  unfold Session.press
  rw [hinput]
  simp only [List.mem_cons, List.not_mem_nil, or_false] at hc
  rcases hc with rfl | rfl
  · rw [if_neg (by simp)]
    exact s.selectedColumn?_moveColumn 1
  · rw [if_neg (by simp)]
    exact s.selectedColumn?_moveColumn (-1)

theorem IsValid.selectsWhatIsThere {p : Trail} (h : s.Reached p) (hvalid : s.IsValid sources)
    (hsources : sources ≠ []) : s.SelectsWhatIsThere := by
  have hfit := h.describes.inStep.toFit
  have hcount : s.visibleCount = s.table.visibleRows.length := by
    have hlisted := congrArg List.length hfit.visibleRows
    simp only [List.length_map] at hlisted
    exact hfit.visibleCount.trans hlisted.symm
  have hrow := hvalid.row
  have hnone : s.rowList.selected = none ↔ s.table.visibleRows = [] := by
    rw [← List.length_eq_zero_iff, ← hcount]
    exact hrow.none_iff
  have hlt : ∀ i ∈ s.rowList.selected, i < s.table.visibleRows.length := by
    rw [← hcount]
    exact hrow.within
  have hsome : s.sources.length ≠ 0 := by
    have hkept : s.sources = sources := hvalid.sources
    simpa [hkept] using hsources
  refine {
    row_none := hnone
    row := hlt
    currentRow := ?_
    column := hvalid.column
    movedColumn := fun hinput c hc control => selectedColumn?_press hinput hc control
    parser := hvalid.parser
    source := hvalid.source hsome
    summaries := hvalid.summaries }
  rw [Ne, ← hnone]
  unfold currentRow? Table.visibleRow?
  cases hselected : s.rowList.selected with
  | none => simp
  | some i =>
    have hi := hlt i hselected
    simp [hi]

/-- In every state that a session started with a source can reach, what is selected is there: no
selection points past the end of its list, and a row is selected just when one shows. -/
theorem selectsWhatIsThere_stepAll (setup : ParserSetup) (hmade : setup.registry.Made)
    {sources : List TraceSource} (hsources : sources ≠ []) (mode : ViewMode) (exportFolder : String)
    (clock : Int) (stimuli : List Stimulus) :
    ((Session.start setup sources mode exportFolder clock).stepAll ⟨setup.registry, none⟩
      stimuli).1.SelectsWhatIsThere := by
  have hreached := (Reached.start setup hmade sources mode exportFolder clock).stepAll stimuli
  have hvalid := (isValid_start setup sources mode exportFolder clock).stepAll
    ⟨setup.registry, none⟩ stimuli
  exact hvalid.selectsWhatIsThere hreached hsources

/-- Two events are loaded, their only column is moved and filtered, and the sources are opened. -/
def selectingStimuli : List Stimulus :=
  [.request, .respond ⟨⟨1, .byUpload, 0⟩, .ok twoEvents⟩, .press (.char 'c'), .press (.char 'J'),
    .press .enter, .press (.char 'w'), .press .enter, .press .escape, .press (.char 't')]

/-- The theorem for a session with one source. -/
theorem selectsWhatIsThere_selectingStimuli :
    let start := Session.start ⟨wholeParser, {}, {}, none⟩ [.inline "run" "[]"] .byUpload "." 0
    let run := start.stepAll ⟨wholeParser, none⟩ selectingStimuli
    wholeParser.Made ∧ [TraceSource.inline "run" "[]"] ≠ [] ∧
      run.1.table.filters = [("dur", "w")] ∧ run.1.sourceList.selected = some 0 ∧
      run.1.SelectsWhatIsThere := by
  have hmade : wholeParser.Made := .register (.new {}) "whole" "parseInt"
  have hsources := List.cons_ne_nil (TraceSource.inline "run" "[]") []
  exact ⟨hmade, hsources, rfl, rfl,
    selectsWhatIsThere_stepAll ⟨wholeParser, {}, {}, none⟩ hmade hsources .byUpload "." 0
      selectingStimuli⟩

end Session

end TraceViewer
