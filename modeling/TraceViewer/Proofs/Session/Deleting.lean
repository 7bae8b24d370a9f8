import TraceViewer.Proofs.Session.Agreement

/-!
# Parsers that come back

Registering takes the blanks off a record's name, and of records with one name the last that
compiles counts; deleting a parser takes away the first record of the id of the first record of
exactly its name.  So a parser that is deleted comes back with the next start where another record
is left that becomes a parser of its name (`Session.Reached.restores_iff`).  It does not where names
and ids are distinct and names have no blanks at their ends.
-/

namespace TraceViewer

/-! ## 1. Names that registering gives -/

namespace Registry

variable {r : Registry} {name : String}

theorem mem_names_register {m code : String} : name ∈ (r.register m code).2.names ↔
    name ∈ r.names ∨ (Text.trim m = name ∧ (r.register m code).1.isOk = true) := by
  rw [← names_ledger, (r.register_entries m code).2, ← names_ledger]
  by_cases hok : (r.register m code).1.isOk = true
  · rw [if_pos hok, Named.names_put]
    split
    · next hmem =>
      refine ⟨.inl, fun h => h.elim id ?_⟩
      rintro ⟨rfl, -⟩
      exact hmem
    · rw [List.mem_append, List.mem_singleton, eq_comm, and_iff_left hok]
  · rw [if_neg hok, or_iff_left fun h => hok h.2]

/-- A name is bound after registering where it was before, or where a text is registered under it,
with blanks at its ends or not. -/
theorem mem_names_registerAll {sources : List (String × String)} :
    name ∈ (r.registerAll sources).2.names ↔ name ∈ r.names ∨
      ∃ before m code after, sources = before ++ (m, code) :: after ∧ Text.trim m = name ∧
        ((r.registerAll before).2.register m code).1.isOk = true := by
  induction sources generalizing r with
  | nil => simp [registerAll]
  | cons first rest ih =>
    obtain ⟨m, code⟩ := first
    rw [registerAll_cons]
    show name ∈ ((r.register m code).2.registerAll rest).2.names ↔ _
    rw [ih, mem_names_register, or_assoc]
    refine or_congr_right ⟨?_, ?_⟩
    · rintro (⟨hname, hok⟩ | ⟨before, m', code', after, rfl, hname, hok⟩)
      · exact ⟨[], m, code, rest, rfl, hname, hok⟩
      · refine ⟨(m, code) :: before, m', code', after, rfl, hname, ?_⟩
        rw [registerAll_cons]
        exact hok
    · rintro ⟨before, m', code', after, heq, hname, hok⟩
      cases before with
      | nil =>
        cases heq
        exact .inl ⟨hname, hok⟩
      | cons first before =>
        cases heq
        rw [registerAll_cons] at hok
        exact .inr ⟨before, m', code', after, rfl, hname, hok⟩

end Registry

/-! ## 2. Records of a parser -/

namespace ParserStore

variable {s : ParserStore} {records : List ParserRecord} {name : String}

/-- The records that become parsers of a name, where they compile. -/
def recordsFor (records : List ParserRecord) (name : String) : List ParserRecord :=
  records.filter fun p => Text.trim p.name == name

/-- The records without the one that is deleted with the parser of a name. -/
def without (s : ParserStore) (name : String) : List ParserRecord :=
  match s.idOf? name with
  | none => s.records
  | some id => s.records.eraseP fun p => p.id == id

/-- At most one record becomes a parser of the name.  It has just this name, without blanks, and is
the first of its id. -/
def HasOneRecord (records : List ParserRecord) (name : String) : Prop :=
  recordsFor records name = [] ∨ ∃ p, recordsFor records name = [p] ∧ p.name = name ∧
    (records.find? fun q => q.id == p.id) = some p

/-- The registry that is made anew from the records has a parser of the name. -/
def Restores (s : ParserStore) (limits : Snippet.Limits) (name : String) : Prop :=
  name ∈ (({ limits } : Registry).registerAll s.sources).2.names

instance (s : ParserStore) (limits : Snippet.Limits) (name : String) :
    Decidable (s.Restores limits name) :=
  inferInstanceAs (Decidable (name ∈ _))

/-- The record can be registered in its turn, after the records before it. -/
def RegistersAfter (limits : Snippet.Limits) (before : List ParserRecord) (record : ParserRecord) :
    Prop :=
  let sources := ({ records := before } : ParserStore).sources
  ((({ limits } : Registry).registerAll sources).2.register record.name record.code).1.isOk = true

theorem restores_iff_exists {limits : Snippet.Limits} : s.Restores limits name ↔
    ∃ before record after, s.records = before ++ record :: after ∧
      Text.trim record.name = name ∧ RegistersAfter limits before record := by
  unfold Restores
  have hnew : name ∉ ({ limits } : Registry).names := List.not_mem_nil
  rw [Registry.mem_names_registerAll, or_iff_right hnew]
  constructor
  · rintro ⟨before, m, code, after, hsources, hname, hok⟩
    obtain ⟨records, rest, hrecords, rfl, hrest⟩ := List.map_eq_append_iff.mp hsources
    obtain ⟨record, others, rfl, hrecord, -⟩ := List.map_eq_cons_iff.mp hrest
    obtain ⟨rfl, rfl⟩ := Prod.mk.inj hrecord
    exact ⟨records, record, others, hrecords, hname, hok⟩
  · rintro ⟨before, record, after, hrecords, hname, hok⟩
    refine ⟨_, record.name, record.code, ({ records := after } : ParserStore).sources, ?_, hname,
      hok⟩
    unfold sources
    rw [hrecords, List.map_append, List.map_cons]

theorem recordsFor_append (before after : List ParserRecord) (name : String) :
    recordsFor (before ++ after) name = recordsFor before name ++ recordsFor after name :=
  List.filter_append before after

/-- Of the records of an id the first is taken out. -/
theorem exists_of_eraseP_id {p : ParserRecord} (hp : p ∈ records) : ∃ before q after,
    records = before ++ q :: after ∧ (records.find? fun r => r.id == p.id) = some q ∧
      (records.eraseP fun r => r.id == p.id) = before ++ after := by
  obtain ⟨q, before, after, hbefore, hq, hrecords, herase⟩ :=
    List.exists_of_eraseP (p := fun r => r.id == p.id) hp (beq_self_eq_true p.id)
  have hnone : (before.find? fun r => r.id == p.id) = none :=
    List.find?_eq_none.mpr fun r hr => by simpa using hbefore r hr
  refine ⟨before, q, after, hrecords, ?_, herase⟩
  rw [hrecords, List.find?_append, hnone, Option.none_or]
  exact List.find?_cons_of_pos (p := fun r : ParserRecord => r.id == p.id) hq

/-- Of the records that become parsers of a name none is left without the one that is deleted, if
there was only this one. -/
theorem recordsFor_without_eq_nil_iff (htrim : Text.trim name = name) :
    recordsFor (s.without name) name = [] ↔ HasOneRecord s.records name := by
  unfold without idOf?
  cases hfind : s.records.find? fun p => p.name == name with
  | none =>
    have hnone : ∀ p ∈ s.records, p.name ≠ name := by simpa using hfind
    refine ⟨.inl, fun h => h.elim id ?_⟩
    rintro ⟨p, honly, hname, -⟩
    have hp : p ∈ recordsFor s.records name := honly ▸ List.mem_singleton_self p
    exact absurd hname (hnone p (List.mem_filter.mp hp).1)
  | some p =>
    have hname : p.name = name := by simpa using List.find?_some hfind
    have hp : p ∈ recordsFor s.records name := by
      refine List.mem_filter.mpr ⟨List.mem_of_find?_eq_some hfind, ?_⟩
      rw [hname, htrim]
      exact beq_self_eq_true name
    obtain ⟨before, q, after, hrecords, hfirst, herase⟩ :=
      exists_of_eraseP_id (List.mem_of_find?_eq_some hfind)
    have hall := recordsFor_append before (q :: after) name
    rw [← hrecords] at hall
    show recordsFor (s.records.eraseP fun q => q.id == p.id) name = [] ↔ _
    rw [herase, recordsFor_append]
    by_cases hqname : Text.trim q.name = name
    · -- the record that is deleted is one of the name, and it may be another than the first
      have hcons : recordsFor (q :: after) name = q :: recordsFor after name :=
        List.filter_cons_of_pos (beq_iff_eq.mpr hqname)
      rw [hcons] at hall
      constructor
      · intro hnil
        obtain ⟨hb, ha⟩ := List.append_eq_nil_iff.mp hnil
        rw [hb, ha, List.nil_append] at hall
        obtain rfl : p = q := List.mem_singleton.mp (hall ▸ hp)
        exact .inr ⟨p, hall, hname, hfirst⟩
      · rintro (hnil | ⟨r, honly, -⟩)
        · exact absurd hnil (List.ne_nil_of_mem hp)
        · rw [hall] at honly
          have hlength := congrArg List.length honly
          rw [List.length_append, List.length_cons, List.length_singleton] at hlength
          rw [← List.length_eq_zero_iff, List.length_append]
          omega
    · -- all records of the name stay, and there are some
      have hcons : recordsFor (q :: after) name = recordsFor after name :=
        List.filter_cons_of_neg (by simpa using hqname)
      rw [← hcons, ← hall]
      refine iff_of_false (List.ne_nil_of_mem hp) fun h => ?_
      obtain ⟨r, honly, -, hr⟩ := h.resolve_left (List.ne_nil_of_mem hp)
      obtain rfl : p = r := List.mem_singleton.mp (honly ▸ hp)
      obtain rfl : q = p := Option.some.inj (hfirst.symm.trans hr)
      exact hqname ((congrArg Text.trim hname).trans htrim)

/-- Deleting by the id of a name leaves the records without that one. -/
theorem records_delete_idOf {id : Int} (hid : s.idOf? name = some id) (files : Files) (now : Int) :
    (s.delete id files now).2.1.records = s.without name := by
  rw [store_delete]
  unfold without
  rw [hid]

end ParserStore

/-! ## 3. Names in a session -/

theorem Registry.Evolves.parsers {r r' : Registry} (h : Registry.Evolves r r') :
    r'.parsers = r.parsers := by
  induction h with
  | refl => rfl
  | tail _ hserves ih => exact hserves.parsers.trans ih

theorem Change.balanced {s : Session} {e : Stimulus} {p q : Trail} {t : Table} {r : Registry}
    (h : Change s e p t r q) (hbalanced : s.registry.ledger.Balanced) : r.ledger.Balanced := by
  cases h with
  | none => exact hbalanced
  | setFilter column =>
    have hparsers := s.table.parsers_setFilter s.registry column s.buffer
    exact Registry.balanced_of_parsers hparsers hbalanced
  | clearFilter column =>
    have hparsers := s.table.parsers_clearFilter s.registry column
    exact Registry.balanced_of_parsers hparsers hbalanced
  | setRowFilter text =>
    have hparsers := s.table.parsers_setRowFilter s.registry text
    exact Registry.balanced_of_parsers hparsers hbalanced
  | sort => exact hbalanced
  | moveColumn => exact hbalanced
  | serve hevolves => exact Registry.balanced_of_parsers hevolves.parsers hbalanced
  | register name source =>
    exact Registry.balanced_of_parsers (s.table.parsers_refilter _)
      (Registry.balanced_register hbalanced name source)
  | remove name =>
    exact Registry.balanced_of_parsers (s.table.parsers_refilter _)
      (Registry.balanced_remove hbalanced name)
  | load => exact hbalanced

namespace Session

variable {s : Session} {p : Trail} {name : String}

/-- The names of the parsers are distinct and have no blanks at their ends, whatever happens. -/
theorem Reached.balanced (h : s.Reached p) : s.registry.ledger.Balanced := by
  induction h with
  | start setup hmade => exact hmade.balanced
  | @step s p _ e ih => exact (s.step_change p e).balanced ih

theorem mem_names_of_selectedParser? (hname : s.selectedParser? = some name) :
    name ∈ s.registry.names := by
  obtain ⟨i, -, hi⟩ := Option.bind_eq_some_iff.mp hname
  exact List.mem_of_getElem? hi

/-! ## 4. What is left -/

/-- The record is deleted whether or not the others can be written. -/
theorem records_deleteSelectedParser (hname : s.selectedParser? = some name) :
    s.deleteSelectedParser.store.records = s.store.without name := by
  rcases s.deleteSelectedParser_cases with ⟨hnone, -⟩ | ⟨name', t, hsome, hrests, heq⟩
  · cases hnone.symm.trans hname
  · cases hsome.symm.trans hname
    have hstore : t.store = s.store := hrests.store
    rw [heq, ← hstore]
    unfold forget
    split
    · next hid =>
      unfold ParserStore.without
      rw [hid]
      rfl
    · next id hid =>
      have hdelete := ParserStore.records_delete_idOf hid t.files t.clock
      split <;>
      · next hdone =>
        rw [hdone] at hdelete
        exact hdelete

/-- No record has a name with blanks at its ends. -/
def Tidy (s : Session) : Prop := ∀ record ∈ s.store.records, Text.trim record.name = record.name

theorem tidy_saved {records : List ParserRecord}
    (h : ∀ record ∈ records, Text.trim record.name = record.name) (htrim : Text.trim name = name)
    (code stamp : String) : ∀ record ∈ (ParserStore.saved records name code stamp).2,
      Text.trim record.name = record.name := by
  intro record hrecord
  have hmem : (record.name, record.code) ∈
      ({ records := (ParserStore.saved records name code stamp).2 } : ParserStore).sources :=
    List.mem_map.mpr ⟨record, hrecord, rfl⟩
  rw [({ records } : ParserStore).sources_saved name code stamp] at hmem
  rcases Named.mem_put hmem with heq | hold
  · rw [(Prod.mk.inj heq).1, htrim]
  · obtain ⟨old, hold, heq⟩ := List.mem_map.mp hold
    rw [← (Prod.mk.inj heq).1]
    exact h old hold

theorem Tidy.saveParser (h : s.Tidy) (hbalanced : s.registry.ledger.Balanced)
    {editing : Option String} (hediting : ∀ name, editing = some name → name ∈ s.registry.names)
    (source : String) : (s.saveParser source editing).Tidy := by
  unfold Session.saveParser
  cases hname : editing <|> Parser.declaredName? source with
  | none => exact h
  | some name =>
    have htrim := trim_savedName hbalanced hediting hname
    dsimp only
    generalize s.registry.register name source = registered
    obtain ⟨fault | _, r⟩ := registered
    · exact h
    · dsimp only
      unfold Tidy
      rw [store_persist, ParserStore.store_upsert]
      have hsaved := tidy_saved h htrim source
      split <;> exact hsaved _

theorem Tidy.delete (h : s.Tidy) : s.deleteSelectedParser.Tidy := by
  intro record hrecord
  cases hname : s.selectedParser? with
  | none =>
    rcases s.deleteSelectedParser_cases with ⟨-, heq⟩ | ⟨name, t, hsome, -, -⟩
    · rw [heq] at hrecord
      exact h record hrecord
    · cases hname.symm.trans hsome
  | some name =>
    rw [records_deleteSelectedParser hname] at hrecord
    unfold ParserStore.without at hrecord
    split at hrecord
    · exact h record hrecord
    · exact h record (List.mem_of_mem_eraseP hrecord)

theorem OfDistinct.tidy (h : s.OfDistinct) : s.Tidy := by
  induction h with
  | start hload hdistinct htidy hroom limits now =>
    have hshape : Text.trim Registry.shapeName = Registry.shapeName := by decide
    rcases ParserSetup.start_cases hload limits now with ⟨-, -, hstore⟩ | ⟨-, -, hstore⟩
    all_goals
      intro record hrecord
      rw [show (Session.start _ _ _ _ _).store = _ from hstore] at hrecord
    · exact tidy_saved htidy hshape Registry.shapeSource _ record hrecord
    · exact htidy record hrecord
  | @step s h e he ih =>
    rcases s.step_cases e with ⟨source, editing, rfl⟩ | hdelete | hrests
    · exact ih.saveParser h.agrees.balanced he.1 source
    · rw [hdelete]
      exact ih.delete
    · unfold Tidy
      rw [hrests.store]
      exact ih
  | delete _ ih => exact ih.delete

/-! ## 5. Deleted parsers at the next start -/

/-- At the next start a parser that was deleted comes back if and only if a record that is left
becomes a parser of its name in its turn.  No record of the name is left if and only if there was at
most one, of just this name, and first of its id; so it is where names and ids were distinct from
the start and names had no blanks at their ends. -/
theorem Reached.restores_iff (h : s.Reached p) (hname : s.selectedParser? = some name) :
    let left := s.deleteSelectedParser.store
    (∀ limits, left.Restores limits name ↔
      ∃ before record after, left.records = before ++ record :: after ∧
        Text.trim record.name = name ∧ ParserStore.RegistersAfter limits before record) ∧
      ((∀ record ∈ left.records, Text.trim record.name ≠ name) ↔
        ParserStore.HasOneRecord s.store.records name) ∧
      (s.OfDistinct → ∀ record ∈ left.records, Text.trim record.name ≠ name) := by
  intro left
  have htrim := trim_name h.balanced (mem_names_of_selectedParser? hname)
  have hrecords : left.records = s.store.without name := records_deleteSelectedParser hname
  refine ⟨fun limits => left.restores_iff_exists, ?_, fun hs record hrecord htrimmed => ?_⟩
  · rw [hrecords, ← ParserStore.recordsFor_without_eq_nil_iff htrim]
    unfold ParserStore.recordsFor
    rw [List.filter_eq_nil_iff]
    simp
  · have hgone := (hs.agrees.deleteSelectedParser.2 name hname).2
    rw [ParserStore.names_sources] at hgone
    refine hgone (List.mem_map.mpr ⟨record, hrecord, ?_⟩)
    rw [← hs.tidy.delete record hrecord, htrimmed]

/-- Of distinct records nothing is left of the parser that is deleted. -/
theorem restores_iff_editedSession :
    (∃ p, editedSession.Reached p) ∧ editedSession.selectedParser? = some "rank" ∧
      ParserStore.HasOneRecord editedSession.store.records "rank" ∧
      ∀ limits, ¬ editedSession.deleteSelectedParser.store.Restores limits "rank" := by
  have hload := ParserSetup.load_filesOf mixedRecords (by decide)
  have hreached : ∃ p, editedSession.Reached p := by
    have hmade := made_start (some "parsers.json") {} (ParserSetup.filesOf mixedRecords) 0
    rw [ParserSetup.start_of_load hload] at hmade
    exact ⟨_, ((Reached.start _ hmade [] .byUpload "." 0).step _).step _⟩
  have hname : editedSession.selectedParser? = some "rank" := by decide +kernel
  obtain ⟨p, hp⟩ := hreached
  obtain ⟨hiff, hone, hdistinct⟩ := hp.restores_iff hname
  have hleft := hdistinct ofDistinct_editedSession
  refine ⟨⟨p, hp⟩, hname, hone.mp hleft, fun limits h => ?_⟩
  obtain ⟨before, record, after, hrecords, htrim, -⟩ := (hiff limits).mp h
  exact hleft record (hrecords ▸ List.mem_append_right _ List.mem_cons_self) htrim

/-- A record of a name with blanks at its ends. -/
def blankRecords : List ParserRecord :=
  [⟨1, " a ", "x => 1", "2024-01-02T03:04:05Z", "2024-01-02T03:04:05Z"⟩]

/-- The list of parsers is open. -/
def blankSession : Session :=
  (Session.start (ParserSetup.start (some "parsers.json") {} (ParserSetup.filesOf blankRecords) 0)
    [] .byUpload "." 0).step (.press (.char 'p'))

/-- The parser has the name without blanks, of which there is no record, so nothing is deleted, and
the next start makes the parser from the record again. -/
theorem restores_blankSession :
    let after := blankSession.step (.press (.char 'd'))
    ParserStore.load (some "parsers.json") (ParserSetup.filesOf blankRecords) =
        .ok { path := some "parsers.json", records := blankRecords } ∧
      blankSession.selectedParser? = some "a" ∧
      after.notice = some (.info "Parser \"a\" deleted") ∧ after.registry.names = [] ∧
      after.store.records = blankRecords ∧ after.store.Restores {} "a" := by
  have hload := ParserSetup.load_filesOf blankRecords (by decide)
  unfold blankSession
  rw [ParserSetup.start_of_load hload]
  exact ⟨hload, by decide +kernel, by decide +kernel, by decide +kernel, by decide +kernel,
    by decide +kernel⟩

end Session

end TraceViewer
