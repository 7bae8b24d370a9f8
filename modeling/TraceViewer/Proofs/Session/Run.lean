import TraceViewer.Proofs.Table.Filtering
import TraceViewer.Screen.Frame
import TraceViewer.Session.Key
import TraceViewer.Session.Start

/-!
# Sessions as they are used

Everything that can happen to a session, in any order, and the sessions that it leads to.  A session
forgets what its parsers were when one was last registered or removed, and which trace it was last
given; the trail of a session remembers.  `Session.step_change` says once what a single step can do
to the table and the parsers.
-/

namespace TraceViewer

/-! ## 1. Steps -/

/-- What can happen to a session.  Responses may be any at all, and files and time pass. -/
inductive Stimulus where
  | press (key : Key)
  | saveParser (source : String) (editing : Option String)
  | request
  | respond (response : LoadResponse)
  | draw (width height : Nat)
  | outside (files : Files) (clock : Int)

namespace Session

def step (s : Session) : Stimulus → Session
  | .press key => (s.press key).2
  | .saveParser source editing => s.saveParser source editing
  | .request => s.requestLoad.2
  | .respond response => (s.applyLoad response).2
  | .draw width height => (s.draw width height).2
  | .outside files clock => { s with files, clock }

/-- The parsers right after a parser has been registered or removed, where that happens. -/
def reparsed? (s : Session) : Stimulus → Option Registry
  | .saveParser source editing =>
    (editing <|> Parser.declaredName? source).bind fun name =>
      match s.registry.register name source with
      | (.ok (), r) => some r
      | (.error _, _) => none
  | .press (.char 'd' _) =>
    match s.input with
    | .parsers => s.selectedParser?.map fun name => (s.registry.remove name).2
    | _ => none
  | _ => none

/-- The trace that is shown from then on, where a load is successful and was the newest. -/
def loaded? (s : Session) : Stimulus → Option LoadedTrace
  | .respond response =>
    if response.request.generation ≠ s.generation then none
    else
      match response.outcome with
      | .ok loaded => some loaded
      | .error _ => none
  | _ => none

end Session

/-- What a session does not remember: its parsers right after the last change of one, and the trace
that was shown last. -/
structure Trail where
  reparsed : Registry
  loaded : Option LoadedTrace := none

namespace Trail

/-- The columns of the trace, in its own order. -/
def columns (p : Trail) : List String := p.loaded.elim [] LoadedTrace.columns

def rows (p : Trail) : List Event := p.loaded.elim [] fun l => l.trace.rows

def step (p : Trail) (s : Session) (e : Stimulus) : Trail where
  reparsed := (s.reparsed? e).getD p.reparsed
  loaded := s.loaded? e <|> p.loaded

theorem step_of_none {p : Trail} {s : Session} {e : Stimulus} (hr : s.reparsed? e = none)
    (hl : s.loaded? e = none) : p.step s e = p := by
  unfold step
  rw [hr, hl]
  rfl

end Trail

/-- Sessions that come about from the start, with their trails. -/
inductive Session.Reached : Session → Trail → Prop
  | start (setup : ParserSetup) (h : setup.registry.Made) (sources : List TraceSource)
      (mode : ViewMode) (exportFolder : String) (clock : Int) :
      Session.Reached (Session.start setup sources mode exportFolder clock) ⟨setup.registry, none⟩
  | step {s : Session} {p : Trail} (h : Session.Reached s p) (e : Stimulus) :
      Session.Reached (s.step e) (p.step s e)

/-- One step after another, with the trails. -/
def Session.stepAll (s : Session) (p : Trail) : List Stimulus → Session × Trail
  | [] => (s, p)
  | e :: rest => (s.step e).stepAll (p.step s e) rest

theorem Session.Reached.stepAll {s : Session} {p : Trail} (h : s.Reached p)
    (stimuli : List Stimulus) : (s.stepAll p stimuli).1.Reached (s.stepAll p stimuli).2 := by
  induction stimuli generalizing s p with
  | nil => exact h
  | cons e rest ih => exact ih (h.step e)

/-- The parsers that a session starts with come about by registering. -/
theorem made_start (path : Option String) (limits : Snippet.Limits) (files : Files) (now : Int) :
    (ParserSetup.start path limits files now).registry.Made := by
  have hsave (setup : ParserSetup) : (setup.saveFirst now).registry = setup.registry := by
    unfold ParserSetup.saveFirst
    split
    · rfl
    · split <;> rfl
  have hregister (sources : List (String × String)) :
      (({ limits } : Registry).registerAll sources).2.seed.2.Made :=
    ((Registry.Made.new limits).registerAll sources).seed
  unfold ParserSetup.start
  split
  next store notice _ =>
    have hseed := hregister store.sources
    split
    next registry hregistered =>
    rw [hregistered] at hseed
    split
    next seeded registry hseeded =>
    rw [hseeded] at hseed
    dsimp only
    split
    · rw [hsave]
      exact hseed
    · exact hseed

/-! ## 2. What a step can change -/

/-- What a step can do to the table, the parsers and the trail of a session.  A column is filtered
only by entering the text of its prompt, and its filter is removed or its cells are sorted only
while it is selected. -/
inductive Change (s : Session) (e : Stimulus) (p : Trail) : Table → Registry → Trail → Prop
  | none : Change s e p s.table s.registry p
  | setFilter (column : String) (he : e = .press .enter)
      (hinput : s.input = .filter (.column column)) :
      Change s e p (s.table.setFilter column s.buffer s.registry).1
        (s.table.setFilter column s.buffer s.registry).2 p
  | clearFilter (column : String) (hcolumn : s.selectedColumn? = some column) :
      Change s e p (s.table.clearFilter column s.registry).1
        (s.table.clearFilter column s.registry).2 p
  | setRowFilter (text : String) :
      Change s e p (s.table.setRowFilter text s.registry).2.1
        (s.table.setRowFilter text s.registry).2.2 p
  | sort (column : String) (hcolumn : s.selectedColumn? = some column) :
      Change s e p (s.table.sort column) s.registry p
  | moveColumn (position : Nat) (delta : Int) :
      Change s e p (s.table.moveColumn position delta).2 s.registry p
  | serve {r' : Registry} (h : Registry.Evolves s.registry r') : Change s e p s.table r' p
  | register (name source : String) :
      Change s e p (s.table.refilter (s.registry.register name source).2).1
        (s.table.refilter (s.registry.register name source).2).2
        { p with reparsed := (s.registry.register name source).2 }
  | remove (name : String) :
      Change s e p (s.table.refilter (s.registry.remove name).2).1
        (s.table.refilter (s.registry.remove name).2).2
        { p with reparsed := (s.registry.remove name).2 }
  | load (loaded : LoadedTrace) (hloaded : s.loaded? e = some loaded) :
      Change s e p (s.table.load loaded.columns loaded.trace.rows) s.registry
        { p with loaded := some loaded }

namespace Session

/-- The step changes neither the table nor the parsers, and opens no prompt for a column. -/
structure Spares (s s' : Session) : Prop where
  table : s'.table = s.table
  registry : s'.registry = s.registry
  prompt : ∀ {column}, s'.input = .filter (.column column) → s.input = .filter (.column column)

theorem Spares.trans {s s' s'' : Session} (h : Spares s s') (g : Spares s' s'') : Spares s s'' :=
  ⟨g.table.trans h.table, g.registry.trans h.registry, fun hinput => h.prompt (g.prompt hinput)⟩

/-- The prompt stays, if one is open. -/
theorem Spares.of_eq {s s' : Session} (htable : s'.table = s.table)
    (hregistry : s'.registry = s.registry) (hinput : s'.input = s.input) : Spares s s' :=
  ⟨htable, hregistry, fun h => hinput ▸ h⟩

theorem Spares.change {s s' : Session} (h : Spares s s') {e : Stimulus} (p : Trail) :
    Change s e p s'.table s'.registry p := by
  rw [h.table, h.registry]
  exact .none

/-- What is done to the table and the parsers is all that a step that spares them after it does. -/
theorem Spares.after {s s' s'' : Session} (h : Spares s' s'') {e : Stimulus} {p q : Trail}
    (g : Change s e p s'.table s'.registry q) : Change s e p s''.table s''.registry q := by
  rw [h.table, h.registry]
  exact g

variable (s : Session)

/-! ## 3. Steps that spare the table -/

theorem spares_moveSelection (delta : Int) : Spares s (s.moveSelection delta) := by
  unfold moveSelection
  split <;> exact .of_eq rfl rfl rfl

theorem spares_scrollDown (lines : Nat) : Spares s (s.scrollDown lines) := by
  unfold scrollDown
  split <;> exact .of_eq rfl rfl rfl

theorem spares_listKey (key : Key) : Spares s (s.listKey key) := by
  unfold listKey pageDown pageUp
  split
  all_goals first
    | with_reducible exact s.spares_moveSelection _
    | exact .of_eq rfl rfl rfl

theorem spares_detailKey (key : Key) : Spares s (s.detailKey key) := by
  unfold detailKey
  split
  all_goals first
    | with_reducible exact s.spares_scrollDown _
    | exact .of_eq rfl rfl rfl

theorem spares_exportTable : Spares s s.exportTable := by
  unfold exportTable
  dsimp only
  split <;> exact .of_eq rfl rfl rfl

theorem spares_commonKey? {key : Key} {outcome : Action × Session}
    (h : s.commonKey? key = some outcome) : Spares s outcome.2 := by
  unfold commonKey? at h
  split at h
  all_goals cases h
  all_goals first
    | with_reducible exact s.spares_moveSelection _
    | with_reducible exact s.spares_exportTable
    | exact .of_eq rfl rfl rfl
    | exact ⟨rfl, rfl, nofun⟩

theorem spares_normalKey (key : Key) : Spares s (s.normalKey key).2 := by
  unfold normalKey
  split
  · exact .of_eq rfl rfl rfl
  · split
    · split <;> exact .of_eq rfl rfl rfl
    · split
      · next h => exact s.spares_commonKey? h
      · split
        · exact s.spares_listKey key
        · exact s.spares_detailKey key

theorem spares_selectSource (position : Nat) : Spares s (s.selectSource position).2 := by
  unfold selectSource
  split <;> exact .of_eq rfl rfl rfl

theorem spares_sourceKey (key : Key) : Spares s (s.sourceKey key).2 := by
  unfold sourceKey
  dsimp only
  split
  all_goals first
    | exact .of_eq rfl rfl rfl
    | exact ⟨rfl, rfl, nofun⟩
    | skip
  have hclosed : Spares s { s with input := .normal } := ⟨rfl, rfl, nofun⟩
  have h := hclosed.trans (spares_selectSource _ (s.sourceList.selected.getD 0))
  split <;>
  · next heq =>
    rw [heq] at h
    exact h

theorem spares_persist (name source : String) : Spares s (s.persist name source) := by
  unfold persist
  split <;> exact .of_eq rfl rfl rfl

theorem spares_forget (name : String) : Spares s (s.forget name) := by
  unfold forget
  split
  · exact .of_eq rfl rfl rfl
  · split <;> exact .of_eq rfl rfl rfl

theorem spares_measureDetail (f : Frame) : Spares s (s.measureDetail f) := by
  unfold measureDetail
  split
  · exact .of_eq rfl rfl rfl
  · dsimp only
    split <;> exact .of_eq rfl rfl rfl

theorem spares_settlePanel (f : Frame) : Spares s (s.settlePanel f) := by
  unfold settlePanel
  split <;> exact .of_eq rfl rfl rfl

theorem spares_draw (width height : Nat) : Spares s (s.draw width height).2 := by
  show Spares s (s.measure (Frame.ofSession s width height))
  unfold measure
  generalize Frame.ofSession s width height = f
  let listed : Session :=
    { s.measureList f with
      rowList := (s.measureList f).rowList.settle (s.measureList f).visibleCount
        (shownItems f.body) }
  have hlisted : Spares s listed := .of_eq rfl rfl rfl
  exact (hlisted.trans (listed.spares_measureDetail f)).trans (spares_settlePanel _ f)

/-! ## 4. Steps that do not -/

variable (p : Trail)

theorem change_submitFilter {target : FilterTarget} (hinput : s.input = .filter target) :
    Change s (.press .enter) p (s.submitFilter target).table
      (s.submitFilter target).registry p := by
  unfold submitFilter
  cases target with
  | column name =>
    have h := Change.setFilter (s := s) (p := p) name rfl hinput
    dsimp only
    generalize s.table.setFilter name s.buffer s.registry = outcome at h ⊢
    exact h
  | rows =>
    have h := Change.setRowFilter (s := s) (e := .press .enter) (p := p) s.buffer
    dsimp only
    split <;>
    · next heq =>
      rw [heq] at h
      exact h

theorem change_testParser {e : Stimulus} (name input : String) :
    Change s e p (s.testParser name input).table (s.testParser name input).registry p :=
  .serve (Registry.Serves.test s.registry name input).evolves

theorem change_submit : Change s (.press .enter) p s.submit.table s.submit.registry p := by
  unfold submit
  split
  · next hinput => exact s.change_submitFilter p hinput
  · exact s.change_testParser p _ s.buffer
  · exact .none

/-- While text is typed, a key enters it, or else changes the text and closes the prompt at most. -/
theorem typeKey_cases (key : Key) :
    key = .enter ∧ s.typeKey key = s.submit ∨
      key ≠ .enter ∧ ∃ buffer input, (input = s.input ∨ input = modeBefore s.input) ∧
        s.typeKey key = { s with buffer, input } := by
  cases key with
  | enter => exact .inl ⟨rfl, rfl⟩
  | escape => exact .inr ⟨nofun, _, _, .inr rfl, rfl⟩
  | char c control =>
    unfold typeKey
    cases control with
    | false => exact .inr ⟨nofun, _, _, .inl rfl, rfl⟩
    | true =>
      dsimp only
      split <;> exact .inr ⟨nofun, _, _, .inl rfl, rfl⟩
  | _ => exact .inr ⟨nofun, _, _, .inl rfl, rfl⟩

theorem change_typeKey (key : Key) :
    Change s (.press key) p (s.typeKey key).table (s.typeKey key).registry p := by
  rcases s.typeKey_cases key with ⟨rfl, -⟩ | ⟨-, buffer, input, -, h⟩
  · exact s.change_submit p
  · rw [h]
    exact .none

theorem change_clearSelectedFilter {e : Stimulus} :
    Change s e p s.clearSelectedFilter.table s.clearSelectedFilter.registry p := by
  unfold clearSelectedFilter
  split
  · exact .none
  · next column hcolumn =>
    have h := Change.clearFilter (s := s) (e := e) (p := p) column hcolumn
    generalize s.table.clearFilter column s.registry = outcome at h ⊢
    exact h

theorem change_sortSelectedColumn {e : Stimulus} :
    Change s e p s.sortSelectedColumn.table s.sortSelectedColumn.registry p := by
  unfold sortSelectedColumn
  split
  · exact .none
  · next hcolumn => exact .sort _ hcolumn

theorem change_moveColumn {e : Stimulus} (delta : Int) :
    Change s e p (s.moveColumn delta).table (s.moveColumn delta).registry p := by
  unfold Session.moveColumn
  split
  · exact .none
  · exact .moveColumn _ delta

theorem change_columnKey (key : Key) :
    Change s (.press key) p (s.columnKey key).2.table (s.columnKey key).2.registry p := by
  unfold columnKey
  dsimp only
  split
  all_goals first
    | with_reducible exact s.change_moveColumn p _
    | with_reducible exact s.change_sortSelectedColumn p
    | with_reducible exact s.change_clearSelectedFilter p
    | exact .none
    | split <;> exact .none

/-- Removing a parser, or doing nothing when none is selected. -/
theorem change_deleteSelectedParser {e : Stimulus} :
    Change s e p s.deleteSelectedParser.table s.deleteSelectedParser.registry
      { p with
        reparsed := (s.selectedParser?.map fun name => (s.registry.remove name).2).getD
          p.reparsed } := by
  unfold deleteSelectedParser
  split
  · next h =>
    rw [h]
    exact .none
  · next name h =>
    rw [h]
    exact (spares_forget _ name).after (.remove name)

theorem reparsed?_press {key : Key} (h : ∀ control, key = .char 'd' control → s.input ≠ .parsers) :
    s.reparsed? (.press key) = none := by
  unfold reparsed?
  split
  · next heq => cases heq
  · next control heq =>
    split
    · next hinput => exact absurd hinput (h control (Stimulus.press.inj heq))
    · rfl
  · rfl

theorem change_parserKey (hinput : s.input = .parsers) (key : Key) :
    Change s (.press key) p (s.parserKey key).2.table (s.parserKey key).2.registry
      (p.step s (.press key)) := by
  by_cases hd : ∃ control, key = .char 'd' control
  · obtain ⟨control, rfl⟩ := hd
    have h := s.change_deleteSelectedParser (e := .press (.char 'd' control)) p
    unfold Trail.step reparsed?
    rw [hinput]
    exact h
  · rw [Trail.step_of_none (s.reparsed?_press fun control hkey => absurd ⟨control, hkey⟩ hd) rfl]
    unfold parserKey
    split
    case h_11 => exact absurd ⟨_, rfl⟩ hd
    all_goals first
      | exact .none
      | split <;> exact .none

theorem change_press (key : Key) :
    Change s (.press key) p (s.press key).2.table (s.press key).2.registry
      (p.step s (.press key)) := by
  unfold press
  split
  · next hkey =>
    subst hkey
    rw [Trail.step_of_none rfl rfl]
    exact .none
  · by_cases hinput : s.input = .parsers
    · rw [hinput]
      exact s.change_parserKey p hinput key
    · rw [Trail.step_of_none (s.reparsed?_press fun _ _ => hinput) rfl]
      split
      · exact s.change_typeKey p key
      · exact s.change_typeKey p key
      · exact s.change_columnKey p key
      · next h => exact absurd h hinput
      · exact (s.spares_sourceKey key).change p
      · exact (s.spares_normalKey key).change p

/-- Registering a parser that is saved, or none when its text cannot be compiled. -/
theorem change_saveParser (source : String) (editing : Option String) :
    Change s (.saveParser source editing) p (s.saveParser source editing).table
      (s.saveParser source editing).registry (p.step s (.saveParser source editing)) := by
  have hloaded : s.loaded? (.saveParser source editing) = none := rfl
  unfold saveParser Trail.step reparsed?
  rw [hloaded]
  dsimp only
  cases editing <|> Parser.declaredName? source with
  | none => exact .none
  | some name =>
    have hregister :=
      Change.register (s := s) (e := .saveParser source editing) (p := p) name source
    have herror := @Registry.register_error s.registry name source
    dsimp only [Option.bind_some]
    generalize s.registry.register name source = outcome at hregister herror ⊢
    obtain ⟨_ | _, r⟩ := outcome
    · -- a text that is refused ran at most once, and the parsers stay
      have hserve : Registry.Evolves s.registry r := by
        rcases herror rfl with h | h
        · rw [h]
          exact .refl _
        · rw [h]
          exact (Registry.Serves.compile s.registry _ source).evolves
      exact .serve hserve
    · -- selecting the parser and writing it to the store come after and touch neither
      let refiltered : Session := { s with registry := r }.refilter
      have hchange : Change s (.saveParser source editing) p refiltered.table refiltered.registry
          { p with reparsed := r } := hregister
      dsimp only
      split
      · next position _ =>
        have hselect : Spares refiltered
            { refiltered with parserList := refiltered.parserList.select (some position) } :=
          .of_eq rfl rfl rfl
        exact (hselect.trans (spares_persist _ name source)).after hchange
      · exact (refiltered.spares_persist name source).after hchange

theorem change_applyLoad (response : LoadResponse) :
    Change s (.respond response) p (s.applyLoad response).2.table (s.applyLoad response).2.registry
      (p.step s (.respond response)) := by
  unfold applyLoad
  -- only the response to the newest request that brings rows replaces the table
  by_cases hnewest : response.request.generation ≠ s.generation
  · have hloaded : s.loaded? (.respond response) = none := if_pos hnewest
    rw [if_pos hnewest, Trail.step_of_none rfl hloaded]
    exact .none
  · rw [if_neg hnewest]
    cases houtcome : response.outcome with
    | error fault =>
      have hloaded : s.loaded? (.respond response) = none :=
        (if_neg hnewest).trans (by rw [houtcome])
      rw [Trail.step_of_none rfl hloaded]
      exact .none
    | ok loaded =>
      have hloaded : s.loaded? (.respond response) = some loaded :=
        (if_neg hnewest).trans (by rw [houtcome])
      unfold Trail.step
      rw [hloaded]
      exact .load loaded hloaded

/-- All that a step can do to the table and the parsers. -/
theorem step_change (e : Stimulus) :
    Change s e p (s.step e).table (s.step e).registry (p.step s e) := by
  cases e with
  | press key => exact s.change_press p key
  | saveParser source editing => exact s.change_saveParser p source editing
  | request => exact .none
  | respond response => exact s.change_applyLoad p response
  | draw width height => exact (s.spares_draw width height).change p
  | outside files clock => exact .none

end Session

end TraceViewer
