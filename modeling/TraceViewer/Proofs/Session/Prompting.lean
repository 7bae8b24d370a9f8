import TraceViewer.Proofs.Parser.Sparing
import TraceViewer.Proofs.Session.Columns
import TraceViewer.Proofs.Table.Editing

/-!
# Prompts of filters

A prompt opens with the text that its filter has.  Entering it as it stands leaves all filters, and
entering another text sets the filter to that text without blanks at its ends, which the prompt then
shows when it is opened again.  A text that is no expression is rejected as a filter of rows.
-/

namespace TraceViewer

open Snippet (readExpr)

/-- Whatever a step does to the filters, their texts stay tidy. -/
theorem Change.isTidy {s : Session} {e : Stimulus} {p q : Trail} {t : Table} {r : Registry}
    (h : Change s e p t r q) (htidy : s.table.IsTidy) : t.IsTidy := by
  cases h with
  | setFilter column => exact htidy.setFilter column s.buffer s.registry
  | clearFilter column => exact htidy.clearFilter column s.registry
  | setRowFilter text => exact htidy.setRowFilter text s.registry
  | moveColumn position delta =>
    exact htidy.congr (s.table.filters_moveColumn position delta)
      (s.table.rowFilter_moveColumn position delta)
  | load loaded => exact ⟨fun _ hf => (nomatch hf), fun _ hf => (nomatch hf)⟩
  | _ => exact htidy.congr rfl rfl

namespace Session

variable {s : Session} {key : Key} {target : FilterTarget}

/-! ## 1. Opening a prompt -/

/-- The filter whose prompt a key opens, if it opens one. -/
def opens? (s : Session) (key : Key) : Option FilterTarget :=
  match s.input, key with
  | .normal, .char '/' _ => if s.showsHelp then none else some .rows
  | .columns, .enter | .columns, .char '/' _ => s.selectedColumn?.map .column
  | _, _ => none

theorem normalKey_slash (control : Bool) : s.normalKey (.char '/' control) =
    if s.showsHelp then (.proceed, s) else (.proceed, s.beginFilter .rows) := rfl

theorem columnKey_slash (control : Bool) :
    s.columnKey (.char '/' control) = s.columnKey .enter := rfl

theorem columnKey_enter {column : String} (h : s.selectedColumn? = some column) :
    (s.columnKey .enter).2 = s.beginFilter (.column column) := by
  unfold columnKey
  rw [h]

theorem press_opens? (h : s.opens? key = some target) : (s.press key).2 = s.beginFilter target := by
  unfold opens? at h
  split at h
  · next hinput =>
    split at h
    · cases h
    · next hhelp =>
      cases h
      unfold press
      rw [if_neg (by simp), hinput]
      dsimp only
      rw [normalKey_slash, if_neg hhelp]
  · next hinput =>
    obtain ⟨column, hcolumn, rfl⟩ := Option.map_eq_some_iff.mp h
    unfold press
    rw [if_neg (by simp), hinput]
    exact columnKey_enter hcolumn
  · next hinput =>
    obtain ⟨column, hcolumn, rfl⟩ := Option.map_eq_some_iff.mp h
    unfold press
    rw [if_neg (by simp), hinput]
    dsimp only
    rw [columnKey_slash]
    exact columnKey_enter hcolumn
  · cases h

/-- In the list of columns a prompt opens for the column that is selected. -/
theorem opens?_of_columnKey (hinput : s.input = .columns)
    (h : (s.columnKey key).2.input = .filter target) : s.opens? key = some target := by
  have hsame {s' : Session} (h : s'.input = .filter target) : s'.input ≠ s.input := by
    rw [h, hinput]
    simp
  unfold opens?
  rw [hinput]
  unfold columnKey at h
  dsimp only at h
  split at h
  all_goals first
    | exact absurd rfl (hsame h)
    | exact absurd (s.input_moveColumn _) (hsame h)
    | exact absurd s.input_sortSelectedColumn (hsame h)
    | exact absurd s.input_clearSelectedFilter (hsame h)
    | cases h
    | skip
  all_goals
    split at h
    · next hcolumn =>
      cases h
      exact congrArg (Option.map FilterTarget.column) hcolumn
    · exact absurd rfl (hsame h)

theorem input_moveSelection (delta : Int) : (s.moveSelection delta).input = s.input := by
  unfold moveSelection
  split <;> rfl

theorem input_scrollDown (lines : Nat) : (s.scrollDown lines).input = s.input := by
  unfold scrollDown
  split <;> rfl

theorem input_listKey (key : Key) : (s.listKey key).input = s.input := by
  unfold listKey pageDown pageUp
  split
  all_goals first
    | with_reducible exact input_moveSelection _
    | rfl

theorem input_detailKey (key : Key) : (s.detailKey key).input = s.input := by
  unfold detailKey
  split
  all_goals first
    | with_reducible exact input_scrollDown _
    | rfl

theorem input_exportTable : s.exportTable.input = s.input := by
  unfold exportTable
  dsimp only
  split <;> rfl

/-- Of the keys that mean the same in both panes, one opens a prompt, that of the rows. -/
theorem opens_commonKey? (hinput : s.input = .normal) {outcome : Action × Session}
    (houtcome : s.commonKey? key = some outcome) (h : outcome.2.input = .filter target) :
    ∃ control, key = .char '/' control ∧ target = .rows := by
  unfold commonKey? at houtcome
  split at houtcome
  all_goals cases houtcome
  all_goals first
    | (rw [input_moveSelection, hinput] at h; cases h)
    | (rw [input_exportTable, hinput] at h; cases h)
    | cases hinput.symm.trans h
    | cases h
  exact ⟨_, rfl, rfl⟩

/-- Outside all prompts only one key opens one. -/
theorem opens?_of_normalKey (hinput : s.input = .normal)
    (h : (s.normalKey key).2.input = .filter target) : s.opens? key = some target := by
  unfold normalKey at h
  split at h
  · cases hinput.symm.trans h
  · split at h
    · split at h <;> cases hinput.symm.trans h
    · next hhelp =>
      split at h
      · next houtcome =>
        obtain ⟨control, rfl, rfl⟩ := opens_commonKey? hinput houtcome h
        unfold opens?
        rw [hinput]
        exact if_neg hhelp
      · split at h
        · cases (hinput.symm.trans (input_listKey key).symm).trans h
        · cases (hinput.symm.trans (input_detailKey key).symm).trans h

/-- Loading a source opens no prompt. -/
theorem input_sourceKey (hinput : s.input = .sources) :
    (s.sourceKey key).2.input ≠ .filter target := by
  intro h
  have hselect (s : Session) (position : Nat) : (s.selectSource position).2.input = s.input := by
    unfold selectSource
    split <;> rfl
  unfold sourceKey at h
  dsimp only at h
  split at h
  all_goals first
    | cases hinput.symm.trans h
    | cases h
    | skip
  have hinput := hselect { s with input := .normal } (s.sourceList.selected.getD 0)
  split at h <;>
  · next heq =>
    rw [heq] at hinput
    cases hinput.symm.trans h

/-- A key that leads to a prompt opens it, unless it was open. -/
theorem opens?_of_press (hclosed : s.input ≠ .filter target)
    (h : (s.press key).2.input = .filter target) : s.opens? key = some target := by
  unfold press at h
  split at h
  · exact absurd h hclosed
  · split at h
    · exact absurd (s.input_typeKey h).1 hclosed
    · exact absurd (s.input_typeKey h).1 hclosed
    · next hinput => exact opens?_of_columnKey hinput h
    · exact absurd (s.input_parserKey h) hclosed
    · next hinput => exact absurd h (input_sourceKey hinput)
    · next hinput => exact opens?_of_normalKey hinput h

/-! ## 2. Typing and entering a text -/

/-- Presses keys one after another. -/
def pressAll (s : Session) (keys : List Key) : Session :=
  keys.foldl (fun s key => (s.press key).2) s

/-- The keys that open a prompt, replace its text and enter it. -/
def retyping (key : Key) (text : String) : List Key :=
  [key, .char 'u' true] ++ text.toList.map (Key.char · false) ++ [.enter]

/-- Enters a text for a filter. -/
def enter (s : Session) (target : FilterTarget) (text : String) : Session :=
  { s with buffer := text, input := .filter target }.submitFilter target

theorem press_prompt (hinput : s.input = .filter target) (hkey : key ≠ .char 'c' true) :
    (s.press key).2 = s.typeKey key := by
  unfold press
  rw [if_neg hkey, hinput]

theorem pressAll_append (s : Session) (keys more : List Key) :
    s.pressAll (keys ++ more) = (s.pressAll keys).pressAll more := List.foldl_append

theorem pressAll_text (hinput : s.input = .filter target) (cs : List Char) :
    s.pressAll (cs.map (Key.char · false)) = { s with buffer := s.buffer ++ String.ofList cs } := by
  induction cs generalizing s with
  | nil =>
    rw [String.ofList_nil, String.append_empty]
    rfl
  | cons c rest ih =>
    have hpress : (s.press (.char c false)).2 = { s with buffer := s.buffer.push c } :=
      press_prompt hinput (by simp)
    have hbuffer : s.buffer.push c ++ String.ofList rest =
        s.buffer ++ String.ofList (c :: rest) := by
      rw [← String.toList_inj]
      simp
    show ((s.press (.char c false)).2).pressAll _ = _
    rw [hpress]
    exact (ih (s := { s with buffer := s.buffer.push c }) hinput).trans (hbuffer ▸ rfl)

theorem press_enter (hinput : s.input = .filter target) :
    (s.press .enter).2 = s.submitFilter target := by
  rw [press_prompt hinput (by simp)]
  unfold typeKey submit
  rw [hinput]

theorem pressAll_enter (h : s.opens? key = some target) :
    s.pressAll [key, .enter] = s.enter target (s.filterText target) := by
  have hinput : (s.beginFilter target).input = .filter target := rfl
  show ((s.press key).2.press .enter).2 = _
  rw [press_opens? h, press_enter hinput]
  rfl

theorem pressAll_retyping (h : s.opens? key = some target) (text : String) :
    s.pressAll (retyping key text) = s.enter target text := by
  have hclear : ((s.beginFilter target).press (.char 'u' true)).2 =
      { s with buffer := "", input := .filter target } := press_prompt rfl (by simp)
  unfold retyping
  rw [pressAll_append, pressAll_append]
  show ((((s.press key).2.press (.char 'u' true)).2).pressAll _).pressAll _ = _
  rw [press_opens? h, hclear, pressAll_text rfl, String.empty_append, String.ofList_toList]
  exact press_enter rfl

/-- Entering a text for the filter of a column sets it, and leads back to the list of columns. -/
theorem enter_column (s : Session) (column text : String) :
    let u := s.enter (.column column) text
    u.table = (s.table.setFilter column text s.registry).1 ∧ u.input = .columns ∧
      u.columnList = s.columnList := by
  unfold enter submitFilter
  dsimp only
  generalize s.table.setFilter column text s.registry = outcome
  exact ⟨rfl, rfl, rfl⟩

/-- Entering a text for the filter of rows closes the prompt, also where the text is rejected. -/
theorem enter_rows (s : Session) (text : String) :
    let u := s.enter .rows text
    u.table = (s.table.setRowFilter text s.registry).2.1 ∧ u.input = .normal ∧
      u.showsHelp = s.showsHelp ∧
      ∀ fault, (s.table.setRowFilter text s.registry).1 = .error fault →
        u.notice = some (.error fault.message) := by
  unfold enter submitFilter
  dsimp only
  split
  · next heq =>
    rw [heq]
    exact ⟨rfl, rfl, rfl, fun _ h => (nomatch h)⟩
  · next heq =>
    rw [heq]
    refine ⟨rfl, rfl, rfl, fun _ h => ?_⟩
    cases h
    rfl

/-- Entering a text leads back to where its prompt opens. -/
theorem opens?_enter (h : s.opens? key = some target) (text : String) :
    (s.enter target text).opens? key = some target := by
  cases target with
  | column column =>
    obtain ⟨htable, hinput, hlist⟩ := s.enter_column column text
    have hselected : (s.enter (.column column) text).selectedColumn? = s.selectedColumn? := by
      unfold selectedColumn?
      rw [htable, hlist, Table.columns_setFilter]
    unfold opens? at h ⊢
    rw [hinput, hselected]
    split at h
    · split at h <;> cases h
    · exact h
    · exact h
    · cases h
  | rows =>
    obtain ⟨-, hinput, hhelp, -⟩ := s.enter_rows text
    unfold opens? at h ⊢
    rw [hinput, hhelp]
    split at h
    · exact h
    · simp at h
    · simp at h
    · cases h

/-! ## 3. What becomes of the filters -/

/-- The text of a filter, if it is set. -/
def filterText? (s : Session) : FilterTarget → Option String
  | .column name => s.table.filterOf? name
  | .rows => s.table.rowFilter.map (·.text)

theorem filterText_eq (s : Session) (target : FilterTarget) :
    s.filterText target = (s.filterText? target).getD "" := by
  cases target <;> rfl

/-- Whether a filter can be set to a text: that of rows must be blank or an expression, which is
read without the blanks at its ends. -/
def Accepts (target : FilterTarget) (text : String) : Prop :=
  target = .rows → (Text.trim text).isEmpty = true ∨ ∃ e, readExpr (Text.trim text) = .ok e

/-- What becomes of the filters of a session when a text is entered for one of them. -/
structure Entered (s u : Session) (target : FilterTarget) (text : String) : Prop where
  others : ∀ other ≠ target, u.filterText? other = s.filterText? other
  set : Accepts target text → u.filterText? target = Text.tidied? text
  rejected : ¬Accepts target text → u.table = s.table ∧
    ∃ e, readExpr (Text.trim text) = .error e ∧
      u.notice = some (.error (FilterFault.message ⟨Text.trim text, e⟩))

theorem filterText?_column (s : Session) (column : String) :
    s.filterText? (.column column) = s.table.filterOf? column := rfl

theorem filterText?_rows (s : Session) :
    s.filterText? .rows = s.table.rowFilter.map (·.text) := rfl

theorem entered_column (s : Session) (column text : String) :
    s.Entered (s.enter (.column column) text) (.column column) text := by
  obtain ⟨htable, -⟩ := s.enter_column column text
  have hset := s.table.filterOf?_setFilter column text
  refine ⟨fun other hother => ?_, fun _ => ?_, fun h => absurd (fun hrows => nomatch hrows) h⟩
  · cases other with
    | column other =>
      have hne : ¬column = other := fun heq => hother (heq ▸ rfl)
      rw [filterText?_column, filterText?_column, htable, hset, if_neg hne]
    | rows => rw [filterText?_rows, filterText?_rows, htable, Table.rowFilter_setFilter]
  · rw [filterText?_column, htable, hset, if_pos rfl]

theorem entered_rows (s : Session) (text : String) :
    s.Entered (s.enter .rows text) .rows text := by
  obtain ⟨htable, -, -, hnotice⟩ := s.enter_rows text
  refine ⟨fun other hother => ?_, fun h => ?_, fun h => ?_⟩
  · cases other with
    | column other =>
      rw [filterText?_column, filterText?_column, htable]
      unfold Table.filterOf?
      rw [Table.filters_setRowFilter]
    | rows => exact absurd rfl hother
  · rw [filterText?_rows, htable]
    exact (s.table.setRowFilter_of_reads s.registry (h rfl)).2
  · have hblank : ¬(Text.trim text).isEmpty = true := fun hblank => h fun _ => .inl hblank
    cases he : readExpr (Text.trim text) with
    | ok e => exact absurd (fun _ => .inr ⟨e, he⟩) h
    | error e =>
      have hset := s.table.setRowFilter_of_error s.registry hblank he
      rw [hset] at htable hnotice
      exact ⟨htable, e, rfl, hnotice _ rfl⟩

theorem entered_enter (s : Session) (target : FilterTarget) (text : String) :
    s.Entered (s.enter target text) target text := by
  cases target with
  | column column => exact s.entered_column column text
  | rows => exact s.entered_rows text

/-! ## 4. Sessions that can be reached -/

variable {p : Trail}

theorem Reached.isTidy (h : s.Reached p) : s.table.IsTidy := by
  induction h with
  | start => exact ⟨fun _ hf => (nomatch hf), fun _ hf => (nomatch hf)⟩
  | @step s p _ e ih => exact (s.step_change p e).isTidy ih

/-- What is done by entering the prompt that a key opens: as it opens, and with another text. -/
structure RoundTrips (s : Session) (key : Key) (target : FilterTarget) : Prop where
  filters : (s.pressAll [key, .enter]).table.filters = s.table.filters
  rowFilter : (s.pressAll [key, .enter]).table.rowFilter.map (·.content) =
    s.table.rowFilter.map (·.content)
  /-- The rows that show stay the same, unless the filter of rows was made anew and a parser has
  something that it made before. -/
  visible : (target = .rows → ∀ f ∈ s.table.rowFilter, ¬s.registry.Keeps f.source) →
    (s.pressAll [key, .enter]).table.visible = s.table.visible ∧
      (s.pressAll [key, .enter]).table.visibleRows = s.table.visibleRows
  entered : ∀ text, s.Entered (s.pressAll (retyping key text)) target text
  reopened : ∀ text, ((s.pressAll (retyping key text)).press key).2.input = .filter target
  shown : ∀ text, Accepts target text →
    ((s.pressAll (retyping key text)).press key).2.buffer = Text.trim text

theorem getD_tidied? (text : String) : (Text.tidied? text).getD "" = Text.trim text := by
  unfold Text.tidied?
  split
  · next h => exact (String.isEmpty_iff.mp h).symm
  · rfl

/-- Entering a prompt as it opens. -/
theorem Reached.enter_filterText (h : s.Reached p) (hk : p.reparsed.KeepsNoState)
    (target : FilterTarget) :
    let u := s.enter target (s.filterText target)
    u.table.filters = s.table.filters ∧
      u.table.rowFilter.map (·.content) = s.table.rowFilter.map (·.content) ∧
      u.table.rows = s.table.rows ∧
      ((target = .rows → ∀ f ∈ s.table.rowFilter, ¬s.registry.Keeps f.source) →
        u.table.visible = s.table.visible) := by
  have hstep := h.describes.inStep
  cases target with
  | column column =>
    obtain ⟨htable, -⟩ := s.enter_column column (s.filterText (.column column))
    rw [filterText_eq, filterText?_column] at htable ⊢
    obtain ⟨hfilters, hvisible⟩ := hstep.setFilter_self hk h.isTidy column
    dsimp only
    rw [htable, Table.rowFilter_setFilter, Table.rows_setFilter]
    exact ⟨hfilters, rfl, rfl, fun _ => hvisible⟩
  | rows =>
    obtain ⟨htable, -⟩ := s.enter_rows (s.filterText .rows)
    rw [filterText_eq, filterText?_rows] at htable ⊢
    obtain ⟨-, hrow, hvisible⟩ := hstep.setRowFilter_self hk h.isTidy
    dsimp only
    rw [htable, Table.filters_setRowFilter, Table.rows_setRowFilter]
    exact ⟨rfl, hrow, rfl, fun hkeeps => hvisible (hkeeps rfl)⟩

/-- In every state that a session can reach with parsers that keep no state, the prompt of a filter
shows the text that the filter has, and sets it to the text that is entered. -/
theorem Reached.roundTrips (h : s.Reached p) (hk : p.reparsed.KeepsNoState)
    (hclosed : s.input ≠ .filter target) (hopens : (s.press key).2.input = .filter target) :
    s.RoundTrips key target := by
  have hkey := opens?_of_press hclosed hopens
  obtain ⟨hfilters, hrow, hrows, hvisible⟩ := h.enter_filterText hk target
  have hreopen (text : String) : ((s.pressAll (retyping key text)).press key).2 =
      (s.enter target text).beginFilter target := by
    rw [pressAll_retyping hkey]
    exact press_opens? (opens?_enter hkey text)
  have hentered := s.entered_enter target
  refine ⟨?_, ?_, fun hkeeps => ?_, fun text => ?_, fun text => ?_, fun text haccepts => ?_⟩
  · rwa [pressAll_enter hkey]
  · rwa [pressAll_enter hkey]
  · rw [pressAll_enter hkey]
    unfold Table.visibleRows
    rw [hrows, hvisible hkeeps]
    exact ⟨rfl, rfl⟩
  · rw [pressAll_retyping hkey]
    exact hentered text
  · rw [hreopen]
    rfl
  · rw [hreopen]
    show (s.enter target text).filterText target = _
    rw [filterText_eq, (hentered text).set haccepts, getD_tidied?]

/-- Two events are loaded, and then filtered by a number that is not zero. -/
def rowFilteringStimuli : List Stimulus :=
  [.request, .respond ⟨⟨1, .byUpload, 0⟩, .ok twoEvents⟩, .press (.char '/'), .press (.char '1'),
    .press .enter]

def rowFilteringRun : Session × Trail :=
  (Session.start ⟨wholeParser, {}, {}, none⟩ [] .byUpload "." 0).stepAll ⟨wholeParser, none⟩
    rowFilteringStimuli

theorem reached_rowFilteringRun : rowFilteringRun.1.Reached rowFilteringRun.2 := by
  have hmade : wholeParser.Made := .register (.new {}) "whole" "parseInt"
  exact (Session.Reached.start ⟨wholeParser, {}, {}, none⟩ hmade [] .byUpload "." 0).stepAll
    rowFilteringStimuli

theorem rowFilteringRun_keepsNoState : rowFilteringRun.2.reparsed.KeepsNoState :=
  wholeParser_keepsNoState

theorem prompt_rowFilteringRun : rowFilteringRun.1.filterText .rows = "1" ∧
    rowFilteringRun.1.input ≠ .filter .rows ∧
    (rowFilteringRun.1.press (.char '/')).2.input = .filter .rows := by
  decide +kernel

/-- The theorem for a session with a parser and a filter of rows. -/
theorem roundTrips_rowFilteringRun :
    rowFilteringRun.1.Reached rowFilteringRun.2 ∧ rowFilteringRun.2.reparsed.KeepsNoState ∧
      rowFilteringRun.1.filterText .rows = "1" ∧
      rowFilteringRun.1.input ≠ .filter .rows ∧
      (rowFilteringRun.1.press (.char '/')).2.input = .filter .rows ∧
      rowFilteringRun.1.RoundTrips (.char '/') .rows := by
  obtain ⟨htext, hclosed, hopens⟩ := prompt_rowFilteringRun
  exact ⟨reached_rowFilteringRun, rowFilteringRun_keepsNoState, htext, hclosed, hopens,
    reached_rowFilteringRun.roundTrips rowFilteringRun_keepsNoState hclosed hopens⟩

/-! ## 5. A parser that has something of a filter -/

/-- A parser that remembers the last value that it was given. -/
def remembering : Registry :=
  (({} : Registry).register "f" "function f(r) \x7b if (r) k = r; return k \x7d let k").2

def oneEvent : LoadedTrace := ⟨⟨"one", [[]], [], false⟩, ["a"], []⟩

/-- The filter of rows gives a regular expression to the parser, which is then replaced by one that
compares with it and remembers nothing more. -/
def rememberedStimuli : List Stimulus :=
  [.request, .respond ⟨⟨1, .byUpload, 0⟩, .ok oneEvent⟩] ++
    [.char '/', .char 'f', .char '(', .char '/', .char 'x', .char '/', .char ')',
      .enter].map .press ++
    [.saveParser "(k => r => r == k)(f())" (some "f")]

def rememberedRun : Session × Trail :=
  (Session.start ⟨remembering, {}, {}, none⟩ [] .byUpload "." 0).stepAll ⟨remembering, none⟩
    rememberedStimuli

theorem reached_rememberedRun : rememberedRun.1.Reached rememberedRun.2 := by
  have hmade : remembering.Made := .register (.new {}) "f" _
  exact (Session.Reached.start ⟨remembering, {}, {}, none⟩ hmade [] .byUpload "." 0).stepAll
    rememberedStimuli

/-- No function that the parsers can come to assigns anything, and the event that shows is hidden
when the prompt of the rows is entered as it opens. -/
theorem hidden_rememberedRun :
    let r := rememberedRun.2.reparsed
    (∀ q ∈ r.parsers, ∀ c ∈ q.callable.closures, c.function.writes = []) ∧
      (∀ scope ∈ r.heap.scopes.toList, (Fields.names scope.vars).Nodup ∧
        ∀ f ∈ scope.vars, ∀ c ∈ f.2.closures, c.function.writes = []) ∧
      rememberedRun.1.input ≠ .filter .rows ∧
      (rememberedRun.1.press (.char '/')).2.input = .filter .rows ∧
      rememberedRun.1.table.visible = [0] ∧
      (rememberedRun.1.pressAll [.char '/', .enter]).table.visible = [] := by
  decide +kernel

/-- Entering the prompt of the rows as it opens may change the rows that show: the filter is read
anew, and its regular expression is not the one that the parser has. -/
theorem not_visible_rememberedRun :
    ¬∀ (s : Session) (p : Trail), s.Reached p → p.reparsed.KeepsNoState →
      ∀ (key : Key) (target : FilterTarget), s.input ≠ .filter target →
        (s.press key).2.input = .filter target →
        (s.pressAll [key, .enter]).table.visible = s.table.visible := by
  intro h
  obtain ⟨hparsers, hscopes, hclosed, hopens, hbefore, hafter⟩ := hidden_rememberedRun
  have hreached := reached_rememberedRun
  have hk := Registry.keepsNoState_of_writes_nil hreached.describes.inStep.sound hparsers hscopes
  have hsame := h _ _ hreached hk (.char '/') .rows hclosed hopens
  rw [hbefore, hafter] at hsame
  cases hsame

end Session

end TraceViewer
