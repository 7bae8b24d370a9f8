import Mathlib.Data.List.MinMax
import TraceViewer.Proofs.Session.Run

/-!
# The newest request wins

Loads take their time, so responses may come late and in any order.  Whatever the order, a session
shows the trace of the highest request that was answered with one while it was the newest, and a
response to any other request changes nothing.
-/

namespace TraceViewer

/-! ## 1. What loads change -/

/-- What only loads change of a session, besides its table. -/
structure LoadState where
  traceName : String
  groups : List GroupSummary
  generation : Nat
  isLoading : Bool

/-- A request is made. -/
def LoadState.ask (l : LoadState) : LoadState :=
  { l with generation := l.generation + 1, isLoading := true }

/-- The request that an action asks for. -/
def Action.request? : Action → Option LoadRequest
  | .load q => some q
  | _ => none

namespace Session

def loadState (s : Session) : LoadState := ⟨s.traceName, s.groups, s.generation, s.isLoading⟩

variable (s : Session)

theorem loadState_moveSelection (delta : Int) :
    (s.moveSelection delta).loadState = s.loadState := by
  unfold moveSelection
  split <;> rfl

theorem loadState_scrollDown (lines : Nat) : (s.scrollDown lines).loadState = s.loadState := by
  unfold scrollDown
  split <;> rfl

theorem loadState_listKey (key : Key) : (s.listKey key).loadState = s.loadState := by
  unfold listKey pageDown pageUp
  split
  all_goals first
    | with_reducible exact s.loadState_moveSelection _
    | rfl

theorem loadState_detailKey (key : Key) : (s.detailKey key).loadState = s.loadState := by
  unfold detailKey
  split
  all_goals first
    | with_reducible exact s.loadState_scrollDown _
    | rfl

theorem loadState_exportTable : s.exportTable.loadState = s.loadState := by
  unfold exportTable
  dsimp only
  split <;> rfl

theorem loadState_submitFilter (target : FilterTarget) :
    (s.submitFilter target).loadState = s.loadState := by
  unfold submitFilter
  cases target with
  | column name =>
    dsimp only
    generalize s.table.setFilter name s.buffer s.registry = outcome
    rfl
  | rows =>
    dsimp only
    split <;> rfl

theorem loadState_submit : s.submit.loadState = s.loadState := by
  unfold submit
  split
  · exact s.loadState_submitFilter _
  · rfl
  · rfl

theorem loadState_typeKey (key : Key) : (s.typeKey key).loadState = s.loadState := by
  rcases s.typeKey_cases key with ⟨rfl, -⟩ | ⟨-, buffer, input, -, h⟩
  · exact s.loadState_submit
  · rw [h]
    rfl

theorem loadState_clearSelectedFilter : s.clearSelectedFilter.loadState = s.loadState := by
  unfold clearSelectedFilter
  split <;> rfl

theorem loadState_sortSelectedColumn : s.sortSelectedColumn.loadState = s.loadState := by
  unfold sortSelectedColumn
  split <;> rfl

theorem loadState_moveColumn (delta : Int) : (s.moveColumn delta).loadState = s.loadState := by
  unfold Session.moveColumn
  split <;> rfl

theorem loadState_persist (name source : String) :
    (s.persist name source).loadState = s.loadState := by
  unfold persist
  split <;> rfl

theorem loadState_forget (name : String) : (s.forget name).loadState = s.loadState := by
  unfold forget
  split
  · rfl
  · split <;> rfl

theorem loadState_deleteSelectedParser : s.deleteSelectedParser.loadState = s.loadState := by
  unfold deleteSelectedParser
  split
  · rfl
  · exact loadState_forget _ _

theorem loadState_saveParser (source : String) (editing : Option String) :
    (s.saveParser source editing).loadState = s.loadState := by
  unfold saveParser
  split
  · rfl
  · split
    · rfl
    · dsimp only
      rw [loadState_persist]
      split <;> rfl

theorem loadState_draw (width height : Nat) : (s.draw width height).2.loadState = s.loadState := by
  show (s.measure (Frame.ofSession s width height)).loadState = s.loadState
  have hdetail (t : Session) (f : Frame) : (t.measureDetail f).loadState = t.loadState := by
    unfold measureDetail
    split
    · rfl
    · dsimp only
      split <;> rfl
  have hpanel (t : Session) (f : Frame) : (t.settlePanel f).loadState = t.loadState := by
    unfold settlePanel
    split <;> rfl
  unfold measure
  rw [hpanel, hdetail]
  rfl

/-! ## 2. Operations that make requests -/

/-- What is made of a session by an operation that may make a request: the request has the next
number, and without one nothing changes that loads change. -/
inductive Asks (s : Session) : Option LoadRequest → Session → Prop
  | request {q : LoadRequest} {s' : Session} (hq : q.generation = s.generation + 1)
      (hs : s'.loadState = s.loadState.ask) : Asks s (some q) s'
  | keep {s' : Session} (hs : s'.loadState = s.loadState) : Asks s none s'

/-- The same for what comes of a key. -/
abbrev AsksByKey (outcome : Action × Session) : Prop := s.Asks outcome.1.request? outcome.2

theorem asks_proceed {s s' : Session} (h : s'.loadState = s.loadState) :
    s.AsksByKey (.proceed, s') := .keep h

theorem asks_requestLoad : s.Asks (some s.requestLoad.1) s.requestLoad.2 := .request rfl rfl

theorem asks_toggleMode : s.Asks (some s.toggleMode.1) s.toggleMode.2 := .request rfl rfl

theorem asks_columnKey (key : Key) : s.AsksByKey (s.columnKey key) := by
  unfold columnKey
  dsimp only
  split
  all_goals first
    | with_reducible exact asks_proceed (s.loadState_moveColumn _)
    | with_reducible exact asks_proceed s.loadState_sortSelectedColumn
    | with_reducible exact asks_proceed s.loadState_clearSelectedFilter
    | exact .keep rfl
    | split <;> exact .keep rfl

theorem asks_parserKey (key : Key) : s.AsksByKey (s.parserKey key) := by
  unfold parserKey
  split
  all_goals first
    | with_reducible exact asks_proceed s.loadState_deleteSelectedParser
    | exact .keep rfl
    | split <;> exact .keep rfl

theorem asks_selectSource (position : Nat) :
    s.Asks (s.selectSource position).1 (s.selectSource position).2 := by
  unfold selectSource
  split
  · exact .keep rfl
  · exact .request rfl rfl

theorem asks_sourceKey (key : Key) : s.AsksByKey (s.sourceKey key) := by
  unfold sourceKey
  dsimp only
  split
  all_goals try exact .keep rfl
  -- only the key that picks a source asks for a trace, and closes the panel before
  have h := asks_selectSource { s with input := .normal } (s.sourceList.selected.getD 0)
  split
  · next heq =>
    rw [heq] at h
    cases h with
    | request hq hs => exact .request hq hs
  · next heq =>
    rw [heq] at h
    cases h with
    | keep hs => exact .keep hs

theorem asks_commonKey? {key : Key} {outcome : Action × Session}
    (h : s.commonKey? key = some outcome) : s.AsksByKey outcome := by
  unfold commonKey? at h
  split at h
  all_goals cases h
  all_goals first
    | with_reducible exact asks_proceed (s.loadState_moveSelection _)
    | with_reducible exact asks_proceed s.loadState_exportTable
    | exact s.asks_toggleMode
    | exact s.asks_requestLoad
    | exact .keep rfl

theorem asks_normalKey (key : Key) : s.AsksByKey (s.normalKey key) := by
  unfold normalKey
  split
  · exact .keep rfl
  · split
    · split <;> exact .keep rfl
    · split
      · next h => exact s.asks_commonKey? h
      · split
        · exact .keep (s.loadState_listKey key)
        · exact .keep (s.loadState_detailKey key)

theorem asks_press (key : Key) : s.AsksByKey (s.press key) := by
  unfold press
  split
  · exact .keep rfl
  · split
    · exact .keep (s.loadState_typeKey key)
    · exact .keep (s.loadState_typeKey key)
    · exact s.asks_columnKey key
    · exact s.asks_parserKey key
    · exact s.asks_sourceKey key
    · exact s.asks_normalKey key

end Session

/-! ## 3. Traffic -/

/-- What is done with a session: all that can happen to it, and two operations of keys made
anywhere. -/
inductive Operation where
  | stimulus (e : Stimulus)
  | toggleMode
  | selectSource (position : Nat)

namespace Session

def operate (s : Session) : Operation → Session
  | .stimulus e => s.step e
  | .toggleMode => s.toggleMode.2
  | .selectSource position => (s.selectSource position).2

/-- The request that an operation makes. -/
def asked? (s : Session) : Operation → Option LoadRequest
  | .stimulus (.press key) => (s.press key).1.request?
  | .stimulus .request => some s.requestLoad.1
  | .stimulus _ => none
  | .toggleMode => some s.toggleMode.1
  | .selectSource position => (s.selectSource position).1

end Session

/-- The requests that a session made, the newest first; those that were answered; and the traces
that answered them where the session took the response and the load was successful. -/
structure Traffic where
  requests : List LoadRequest := []
  answered : List LoadRequest := []
  applied : List (LoadRequest × LoadedTrace) := []

namespace Traffic

/-- The trace of the highest request that was answered with one. -/
def shown? (t : Traffic) : Option LoadedTrace :=
  (t.applied.argmax fun a => a.1.generation).map (·.2)

def receive (t : Traffic) (s : Session) (response : LoadResponse) : Traffic where
  requests := t.requests
  answered := response.request :: t.answered
  applied :=
    match (s.applyLoad response).1, response.outcome with
    | true, .ok loaded => (response.request, loaded) :: t.applied
    | _, _ => t.applied

def after (t : Traffic) (s : Session) : Operation → Traffic
  | .stimulus (.respond response) => t.receive s response
  | o => { t with requests := (s.asked? o).toList ++ t.requests }

/-- Only requests that were made are answered, each at most once. -/
def Allows (t : Traffic) : Operation → Prop
  | .stimulus (.respond response) => response.request ∈ t.requests ∧ response.request ∉ t.answered
  | _ => True

end Traffic

/-- Sessions with the traffic that they had since the start. -/
inductive Session.Exchanged : Session → Traffic → Prop
  | start (setup : ParserSetup) (sources : List TraceSource) (mode : ViewMode)
      (exportFolder : String) (clock : Int) :
      Session.Exchanged (Session.start setup sources mode exportFolder clock) {}
  | operate {s : Session} {t : Traffic} (h : Session.Exchanged s t) (o : Operation)
      (ho : t.Allows o) : Session.Exchanged (s.operate o) (t.after s o)

/-! ## 4. What a step preserves -/

/-- A session shows a trace, or nothing before the first. -/
structure Session.ShowsTrace (s : Session) (shown : Option LoadedTrace) : Prop where
  rows : s.table.rows = (shown.elim [] fun l => l.trace.rows).toArray
  columns : s.table.columns.Perm (shown.elim [] LoadedTrace.columns)
  traceName : s.traceName = shown.elim "" fun l => l.trace.name
  groups : s.groups = shown.elim [] fun l => l.trace.groups

/-- The traffic is that of the session. -/
structure Traffic.Tracks (t : Traffic) (s : Session) : Prop where
  sorted : t.requests.Pairwise fun q q' => q'.generation < q.generation
  newest : ∀ q ∈ t.requests.head?, q.generation = s.generation
  answered : t.answered ⊆ t.requests
  applied : ∀ a ∈ t.applied, a.1 ∈ t.answered
  loading : s.isLoading = true ↔ ∃ q ∈ t.requests.head?, q ∉ t.answered
  trace : s.ShowsTrace t.shown?

/-- Whatever happens to a table but a load, it keeps the rows and the columns of its trace. -/
theorem Change.keepsTrace {s : Session} {e : Stimulus} {t' : Table} {r' : Registry} {p q : Trail}
    (h : Change s e p t' r' q) (hloaded : q.loaded = p.loaded)
    (hrows : s.table.rows = p.rows.toArray) (hcolumns : s.table.columns.Perm p.columns) :
    t'.rows = p.rows.toArray ∧ t'.columns.Perm p.columns := by
  cases h with
  | none | sort | serve | register | remove => exact ⟨hrows, hcolumns⟩
  | setFilter column =>
    rw [s.table.rows_setFilter, s.table.columns_setFilter]
    exact ⟨hrows, hcolumns⟩
  | clearFilter column =>
    rw [s.table.rows_clearFilter, s.table.columns_clearFilter]
    exact ⟨hrows, hcolumns⟩
  | setRowFilter text =>
    rw [s.table.rows_setRowFilter, s.table.columns_setRowFilter]
    exact ⟨hrows, hcolumns⟩
  | moveColumn position delta =>
    rw [s.table.rows_moveColumn]
    exact ⟨hrows, (s.table.columns_moveColumn position delta).trans hcolumns⟩
  | load loaded =>
    have hload : p.loaded = some loaded := hloaded.symm
    unfold Trail.rows Trail.columns
    rw [hload]
    exact ⟨rfl, .refl _⟩

/-- An operation that is no response. -/
def Operation.IsOwn (o : Operation) : Prop := ∀ response, o ≠ .stimulus (.respond response)

theorem Session.asks_operate (s : Session) {o : Operation} (ho : o.IsOwn) :
    s.Asks (s.asked? o) (s.operate o) := by
  cases o with
  | stimulus e =>
    cases e with
    | press key => exact s.asks_press key
    | saveParser source editing => exact .keep (s.loadState_saveParser source editing)
    | request => exact s.asks_requestLoad
    | respond response => exact absurd rfl (ho response)
    | draw width height => exact .keep (s.loadState_draw width height)
    | outside files clock => exact .keep rfl
  | toggleMode => exact s.asks_toggleMode
  | selectSource position => exact s.asks_selectSource position

/-- No operation but a response changes the trace that is shown. -/
theorem Session.ShowsTrace.operate {s : Session} {shown : Option LoadedTrace}
    (h : s.ShowsTrace shown) {o : Operation} (ho : o.IsOwn) :
    (s.operate o).ShowsTrace shown := by
  have hnames : (s.operate o).traceName = s.traceName ∧ (s.operate o).groups = s.groups := by
    have hasks := s.asks_operate ho
    generalize s.operate o = s' at hasks
    generalize s.asked? o = asked at hasks
    cases hasks with
    | request _ hs | keep hs =>
      exact ⟨congrArg LoadState.traceName hs, congrArg LoadState.groups hs⟩
  -- the rows and the columns are kept by every change of a table that is no load
  have htable : (s.operate o).table.rows = (shown.elim [] fun l => l.trace.rows).toArray ∧
      (s.operate o).table.columns.Perm (shown.elim [] LoadedTrace.columns) := by
    cases o with
    | stimulus e =>
      have hloaded : s.loaded? e = none := by
        cases e with
        | respond response => exact absurd rfl (ho response)
        | _ => rfl
      let p : Trail := ⟨s.registry, shown⟩
      have hkept : (p.step s e).loaded = p.loaded := by
        show (s.loaded? e <|> shown) = shown
        rw [hloaded]
        rfl
      exact (s.step_change p e).keepsTrace hkept h.rows h.columns
    | toggleMode => exact ⟨h.rows, h.columns⟩
    | selectSource position =>
      show (s.selectSource position).2.table.rows = _ ∧
        List.Perm (s.selectSource position).2.table.columns _
      rw [(s.spares_selectSource position).table]
      exact ⟨h.rows, h.columns⟩
  exact ⟨htable.1, htable.2, hnames.1.trans h.traceName, hnames.2.trans h.groups⟩

theorem Traffic.after_of_own (t : Traffic) (s : Session) {o : Operation} (ho : o.IsOwn) :
    t.after s o = { t with requests := (s.asked? o).toList ++ t.requests } := by
  unfold Traffic.after
  split
  · next response => exact absurd rfl (ho response)
  · rfl

/-- A trace for a request above all that were answered with one before is the one that is shown. -/
theorem Traffic.shown?_cons {requests answered : List LoadRequest}
    {applied : List (LoadRequest × LoadedTrace)} {q : LoadRequest} (loaded : LoadedTrace)
    (hlt : ∀ a ∈ applied, a.1.generation < q.generation) :
    Traffic.shown? ⟨requests, answered, (q, loaded) :: applied⟩ = some loaded := by
  unfold Traffic.shown?
  rw [List.argmax_cons]
  cases hmax : applied.argmax fun a => a.1.generation with
  | none => rfl
  | some c =>
    have hc := hlt c (List.argmax_mem hmax)
    dsimp only
    rw [if_neg (by omega)]
    rfl

namespace Traffic.Tracks

variable {t : Traffic} {s : Session}

/-- A request is the newest or has a lower number. -/
theorem newest_or_lt (h : t.Tracks s) {q : LoadRequest} (hq : q ∈ t.requests) :
    t.requests.head? = some q ∨ q.generation < s.generation := by
  have hsorted := h.sorted
  have hnewest := h.newest
  generalize t.requests = requests at hq hsorted hnewest
  cases requests with
  | nil => cases hq
  | cons q' rest =>
    have hfirst : q'.generation = s.generation := hnewest q' rfl
    cases hq with
    | head => exact .inl rfl
    | tail _ hq =>
      have hlt := List.rel_of_pairwise_cons hsorted hq
      exact .inr (by omega)

theorem generation_le (h : t.Tracks s) {q : LoadRequest} (hq : q ∈ t.requests) :
    q.generation ≤ s.generation := by
  rcases h.newest_or_lt hq with hhead | hlt
  · exact Nat.le_of_eq (h.newest q hhead)
  · exact Nat.le_of_lt hlt

/-- A request has the number of the newest just when it is the newest. -/
theorem newest_iff (h : t.Tracks s) {q : LoadRequest} (hq : q ∈ t.requests) :
    q.generation = s.generation ↔ t.requests.head? = some q := by
  constructor
  · intro hgeneration
    rcases h.newest_or_lt hq with hhead | hlt
    · exact hhead
    · omega
  · exact h.newest q

/-- Until the newest request is answered, all traces are for older ones. -/
theorem applied_lt (h : t.Tracks s) {q : LoadRequest} (hq : t.requests.head? = some q)
    (hopen : q ∉ t.answered) : ∀ a ∈ t.applied, a.1.generation < q.generation := by
  intro a ha
  have hmem := h.applied a ha
  have hle := h.generation_le (h.answered hmem)
  have hnewest := h.newest q hq
  -- a trace for a request with the newest number would be for the newest request itself
  have hne : a.1.generation ≠ s.generation := by
    intro heq
    have hsame := hq.symm.trans ((h.newest_iff (h.answered hmem)).mp heq)
    rw [Option.some.inj hsame] at hopen
    exact hopen hmem
  omega

theorem own (h : t.Tracks s) {o : Operation} (ho : o.IsOwn) :
    (t.after s o).Tracks (s.operate o) := by
  have htrace := h.trace.operate ho
  have hasks := s.asks_operate ho
  rw [t.after_of_own s ho]
  generalize s.operate o = s' at hasks htrace
  generalize s.asked? o = asked at hasks
  cases hasks with
  | keep hs =>
    have hgeneration : s'.generation = s.generation := congrArg LoadState.generation hs
    have hloading : s'.isLoading = s.isLoading := congrArg LoadState.isLoading hs
    refine ⟨h.sorted, fun q hq => (h.newest q hq).trans hgeneration.symm, h.answered, h.applied, ?_,
      htrace⟩
    rw [hloading]
    exact h.loading
  | @request q _ hq hs =>
    have hgeneration : s'.generation = s.generation + 1 := congrArg LoadState.generation hs
    have hloading : s'.isLoading = true := congrArg LoadState.isLoading hs
    have hlt : ∀ q' ∈ t.requests, q'.generation < q.generation := by
      intro q' hq'
      have hle := h.generation_le hq'
      omega
    have hnew : q ∉ t.answered := fun hmem => Nat.lt_irrefl _ (hlt q (h.answered hmem))
    -- the new request is above all others, and nobody can have answered it yet
    refine ⟨.cons hlt h.sorted, ?_, fun q' hq' => .tail _ (h.answered hq'), h.applied, ?_, htrace⟩
    · intro q' hq'
      cases hq'
      exact hq.trans hgeneration.symm
    · exact ⟨fun _ => ⟨q, rfl, hnew⟩, fun _ => hloading⟩

/-- The response to the newest request is taken, whether it succeeded or not. -/
theorem receive_newest (h : t.Tracks s) {response : LoadResponse}
    (hrequest : response.request ∈ t.requests) (hopen : response.request ∉ t.answered)
    (hnewest : response.request.generation = s.generation) :
    (t.receive s response).Tracks (s.applyLoad response).2 := by
  have hhead := (h.newest_iff hrequest).mp hnewest
  have hanswered : response.request :: t.answered ⊆ t.requests :=
    List.cons_subset.mpr ⟨hrequest, h.answered⟩
  -- what answers the newest request leaves none open
  have hidle : ¬∃ q ∈ t.requests.head?, q ∉ response.request :: t.answered := by
    rintro ⟨q, hq, hnot⟩
    rw [hhead] at hq
    cases hq
    exact hnot (List.mem_cons_self)
  unfold Traffic.receive Session.applyLoad
  rw [if_neg (not_not.mpr hnewest)]
  cases houtcome : response.outcome with
  | error fault =>
    -- a failed load leaves the trace that was shown
    exact ⟨h.sorted, h.newest, hanswered, fun a ha => .tail _ (h.applied a ha),
      ⟨fun hl => (nomatch hl), fun hq => absurd hq hidle⟩,
      ⟨h.trace.rows, h.trace.columns, h.trace.traceName, h.trace.groups⟩⟩
  | ok loaded =>
    refine ⟨h.sorted, h.newest, hanswered, ?_,
      ⟨fun hl => (nomatch hl), fun hq => absurd hq hidle⟩, ?_⟩
    · intro a ha
      cases ha with
      | head => exact List.mem_cons_self
      | tail _ ha => exact .tail _ (h.applied a ha)
    · show Session.ShowsTrace _ (Traffic.shown? _)
      rw [Traffic.shown?_cons loaded (h.applied_lt hhead hopen)]
      exact ⟨rfl, .refl _, rfl, rfl⟩

/-- A response to another request is not. -/
theorem receive_stale (h : t.Tracks s) {response : LoadResponse}
    (hrequest : response.request ∈ t.requests)
    (hstale : response.request.generation ≠ s.generation) :
    (t.receive s response).Tracks (s.applyLoad response).2 := by
  have hanswered : response.request :: t.answered ⊆ t.requests :=
    List.cons_subset.mpr ⟨hrequest, h.answered⟩
  unfold Traffic.receive Session.applyLoad
  rw [if_pos hstale]
  refine ⟨h.sorted, h.newest, hanswered, fun a ha => .tail _ (h.applied a ha), ?_, h.trace⟩
  -- whether the newest request is open does not depend on answers to others
  rw [h.loading]
  constructor
  · rintro ⟨q, hq, hnot⟩
    refine ⟨q, hq, fun hmem => ?_⟩
    cases hmem with
    | head => exact hstale (h.newest _ hq)
    | tail _ hmem => exact hnot hmem
  · rintro ⟨q, hq, hnot⟩
    exact ⟨q, hq, fun hmem => hnot (.tail _ hmem)⟩

end Traffic.Tracks

/-- The traffic of a session is its own, whatever was done with it. -/
theorem Session.Exchanged.tracks {s : Session} {t : Traffic} (h : s.Exchanged t) : t.Tracks s := by
  induction h with
  | start setup sources mode exportFolder clock =>
    exact ⟨.nil, fun _ hq => (nomatch hq), List.nil_subset _, fun _ ha => (nomatch ha),
      ⟨fun hl => (nomatch hl), fun ⟨_, hq, _⟩ => (nomatch hq)⟩, ⟨rfl, .refl _, rfl, rfl⟩⟩
  | @operate s t _ o ho ih =>
    by_cases hown : o.IsOwn
    · exact ih.own hown
    · unfold Operation.IsOwn at hown
      push Not at hown
      obtain ⟨response, rfl⟩ := hown
      by_cases hnewest : response.request.generation = s.generation
      · exact ih.receive_newest ho.1 ho.2 hnewest
      · exact ih.receive_stale ho.1 hnewest

/-! ## 5. What a session shows -/

/-- The newest request wins. -/
structure Session.NewestWins (s : Session) (t : Traffic) : Prop where
  numbered : t.requests.Pairwise fun q q' => q'.generation < q.generation
  taken : ∀ response, response.request ∈ t.requests →
    ((s.applyLoad response).1 = true ↔
      ∃ q ∈ t.requests.head?, response.request.generation = q.generation)
  stale : ∀ response, (s.applyLoad response).1 = false → (s.applyLoad response).2 = s
  /-- A failed load leaves all but the notice. -/
  failed : ∀ response fault, response.outcome = .error fault → (s.applyLoad response).1 = true →
    (s.applyLoad response).2 =
      { s with isLoading := false, notice := some (.error ("Load failed: " ++ fault.message)) }
  loading : s.isLoading = true ↔ ∃ q ∈ t.requests.head?, q ∉ t.answered
  trace : s.ShowsTrace t.shown?

theorem Session.applyLoad_taken (s : Session) (response : LoadResponse) :
    (s.applyLoad response).1 = true ↔ response.request.generation = s.generation := by
  unfold applyLoad
  split
  · next hstale => exact ⟨fun h => (nomatch h), fun h => absurd h hstale⟩
  · next hnewest =>
    have hnewest := not_not.mp hnewest
    dsimp only
    split <;> exact ⟨fun _ => hnewest, fun _ => rfl⟩

/-- Whatever was asked of a session and answered, in any order, it takes the responses to its newest
request and no others, and shows the trace of the highest request that was answered with one. -/
theorem Session.Exchanged.newestWins {s : Session} {t : Traffic} (h : s.Exchanged t) :
    s.NewestWins t := by
  have ht := h.tracks
  refine ⟨ht.sorted, fun response hrequest => ?_, fun response hfalse => ?_,
    fun response fault hfault htrue => ?_, ht.loading, ht.trace⟩
  · rw [s.applyLoad_taken]
    constructor
    · intro hnewest
      exact ⟨response.request, (ht.newest_iff hrequest).mp hnewest, rfl⟩
    · rintro ⟨q, hq, hgeneration⟩
      exact hgeneration.trans (ht.newest q hq)
  · have hstale : response.request.generation ≠ s.generation := by
      intro hnewest
      rw [(s.applyLoad_taken response).mpr hnewest] at hfalse
      cases hfalse
    unfold applyLoad
    rw [if_pos hstale]
  · have hnewest := (s.applyLoad_taken response).mp htrue
    unfold applyLoad
    rw [if_neg (not_not.mpr hnewest), hfault]
    rfl

/-- One operation after another, with the traffic. -/
def Session.operateAll (s : Session) (t : Traffic) : List Operation → Session × Traffic
  | [] => (s, t)
  | o :: rest => (s.operate o).operateAll (t.after s o) rest

/-- Each operation is allowed by the traffic before it. -/
def Traffic.AllowsAll (t : Traffic) (s : Session) : List Operation → Prop
  | [] => True
  | o :: rest => t.Allows o ∧ (t.after s o).AllowsAll (s.operate o) rest

theorem Session.Exchanged.operateAll {s : Session} {t : Traffic} (h : s.Exchanged t)
    {operations : List Operation} (ho : t.AllowsAll s operations) :
    (s.operateAll t operations).1.Exchanged (s.operateAll t operations).2 := by
  induction operations generalizing s t with
  | nil => exact h
  | cons o rest ih => exact ih (h.operate o ho.1) ho.2

/-- An event without columns, as a trace of its own. -/
def oneEvent (name : String) : LoadedTrace := ⟨⟨name, [[]], [], false⟩, [], []⟩

/-- Two requests, whose responses arrive the other way around. -/
def crossedResponses : List Operation :=
  [.stimulus .request, .toggleMode,
    .stimulus (.respond ⟨⟨2, .consolidated, 0⟩, .ok (oneEvent "second")⟩),
    .stimulus (.respond ⟨⟨1, .byUpload, 0⟩, .ok (oneEvent "first")⟩)]

/-- The theorem for two responses that arrive the other way around: the second trace shows. -/
theorem newestWins_crossedResponses :
    let start := Session.start ⟨{}, {}, {}, none⟩ [] .byUpload "." 0
    let run := start.operateAll {} crossedResponses
    run.1.Exchanged run.2 ∧ run.2.answered.length = 2 ∧ run.1.traceName = "second" ∧
      run.1.NewestWins run.2 := by
  have hallowed : Traffic.AllowsAll {} (Session.start ⟨{}, {}, {}, none⟩ [] .byUpload "." 0)
      crossedResponses := by
    refine ⟨trivial, trivial, ⟨.head _, List.not_mem_nil⟩, ⟨.tail _ (.head _), ?_⟩, trivial⟩
    show (⟨1, .byUpload, 0⟩ : LoadRequest) ∉ [⟨2, .consolidated, 0⟩]
    decide
  have hexchanged :=
    (Session.Exchanged.start ⟨{}, {}, {}, none⟩ [] .byUpload "." 0).operateAll hallowed
  exact ⟨hexchanged, rfl, rfl, hexchanged.newestWins⟩

end TraceViewer
