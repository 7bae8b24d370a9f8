import TraceViewer.Proofs.Parser.Declaring
import TraceViewer.Proofs.Parser.Saving
import TraceViewer.Session.Start

/-!
# Starting on saved records

Every saved record is registered, and the default parser where none could be.  The default parser is
saved by its name, so that `ParserSetup.keeps_start_iff` has an exception: a record of this name
that could not be registered is overwritten.
-/

namespace TraceViewer

open Registry (shapeName shapeSource)

/-! ## 1. Registering saved records -/

theorem Named.put_ne_nil {α : Type} (name : String) (a : α) (xs : List (String × α)) :
    put name a xs ≠ [] := by
  cases xs with
  | nil => exact List.cons_ne_nil _ _
  | cons x rest =>
    rw [put]
    split <;> exact List.cons_ne_nil _ _

namespace Registry

variable (r : Registry)

/-- Registering puts the name with its source text in the list, or leaves the list. -/
theorem register_entries (name source : String) :
    (r.register name source).2.limits = r.limits ∧
      (r.register name source).2.ledger.entries =
        if (r.register name source).1.isOk then Named.put (Text.trim name) source r.ledger.entries
        else r.ledger.entries := by
  have hledger := r.register_ledger name source
  generalize r.register name source = registered at hledger ⊢
  obtain ⟨outcome, r'⟩ := registered
  rcases r.ledger.register_cases name source with ⟨fault, heap, h⟩ | ⟨f, heap, -, -, h⟩
  · obtain ⟨rfl, hafter⟩ := Prod.mk.inj (hledger.symm.trans h)
    have hentries : r'.ledger.entries = r.ledger.entries := by rw [hafter]
    exact ⟨congrArg Ledger.limits hafter, hentries⟩
  · obtain ⟨rfl, hafter⟩ := Prod.mk.inj (hledger.symm.trans h)
    have hentries : r'.ledger.entries = Named.put (Text.trim name) source r.ledger.entries :=
      congrArg Ledger.entries hafter
    exact ⟨congrArg Ledger.limits hafter, hentries⟩

theorem registerAll_cons (name source : String) (rest : List (String × String)) :
    r.registerAll ((name, source) :: rest) =
      let after := (r.register name source).2.registerAll rest
      (if (r.register name source).1.isOk then after.1 + 1 else after.1, after.2) := by
  rw [registerAll]
  obtain ⟨_ | _, r'⟩ := r.register name source <;> rfl

theorem limits_registerAll (sources : List (String × String)) :
    (r.registerAll sources).2.limits = r.limits := by
  induction sources generalizing r with
  | nil => rfl
  | cons record rest ih =>
    obtain ⟨name, source⟩ := record
    rw [registerAll_cons]
    dsimp only
    rw [ih, (r.register_entries name source).1]

/-- The list stays as it is where nothing could be registered, and else is not empty. -/
theorem registerAll_cases (sources : List (String × String)) :
    (r.registerAll sources).1 = 0 ∧
        (r.registerAll sources).2.ledger.entries = r.ledger.entries ∨
      (r.registerAll sources).1 ≠ 0 ∧ (r.registerAll sources).2.ledger.entries ≠ [] := by
  induction sources generalizing r with
  | nil => exact .inl ⟨rfl, rfl⟩
  | cons record rest ih =>
    obtain ⟨name, source⟩ := record
    have hentries := (r.register_entries name source).2
    have hrest := ih (r.register name source).2
    rw [registerAll_cons]
    dsimp only
    by_cases hok : (r.register name source).1.isOk
    · rw [if_pos hok] at hentries ⊢
      right
      rcases hrest with ⟨-, hrest⟩ | ⟨-, hrest⟩
      · have hput := Named.put_ne_nil (Text.trim name) source r.ledger.entries
        rw [← hentries, ← hrest] at hput
        exact ⟨Nat.succ_ne_zero _, hput⟩
      · exact ⟨Nat.succ_ne_zero _, hrest⟩
    · rw [if_neg hok] at hentries ⊢
      rwa [hentries] at hrest

/-- Every entry is listed already or is a saved one. -/
theorem mem_entries_registerAll {sources : List (String × String)} {e : String × String}
    (h : e ∈ (r.registerAll sources).2.ledger.entries) :
    e ∈ r.ledger.entries ∨ ∃ record ∈ sources, e = (Text.trim record.1, record.2) := by
  induction sources generalizing r with
  | nil => exact .inl h
  | cons record rest ih =>
    obtain ⟨name, source⟩ := record
    have hentries := (r.register_entries name source).2
    rw [registerAll_cons] at h
    dsimp only at h
    rcases ih (r := (r.register name source).2) h with h | ⟨record, hrecord, he⟩
    · rw [hentries] at h
      split at h
      · rcases Named.mem_put h with rfl | h
        · exact .inr ⟨_, List.mem_cons_self, rfl⟩
        · exact .inl h
      · exact .inl h
    · exact .inr ⟨record, List.mem_cons_of_mem _ hrecord, he⟩

/-- The default parser can be registered where it is among the saved ones. -/
theorem registerAll_shape (hsteps : r.limits.steps ≠ 0) {sources : List (String × String)}
    (h : (shapeName, shapeSource) ∈ sources) : (r.registerAll sources).1 ≠ 0 := by
  induction sources generalizing r with
  | nil => cases h
  | cons record rest ih =>
    obtain ⟨name, source⟩ := record
    rw [registerAll_cons]
    dsimp only
    rcases List.mem_cons.mp h with heq | h
    · obtain ⟨rfl, rfl⟩ := Prod.mk.inj heq
      rw [if_pos (r.isOk_register_shape.mpr hsteps)]
      exact Nat.succ_ne_zero _
    · have hlimits := (r.register_entries name source).1
      have hrest := ih (r.register name source).2 (by rwa [hlimits]) h
      split
      · exact Nat.succ_ne_zero _
      · exact hrest

/-- The default parser is registered where there is no other, if a step may be taken. -/
theorem seed_cases :
    (r.ledger.entries = [] ∧ r.limits.steps ≠ 0) ∧
        r.seed.1 = true ∧ r.seed.2.ledger.entries = [(shapeName, shapeSource)] ∨
      (r.ledger.entries ≠ [] ∨ r.limits.steps = 0) ∧
        r.seed.1 = false ∧ r.seed.2.ledger.entries = r.ledger.entries := by
  have hempty : r.parsers.isEmpty ↔ r.ledger.entries = [] := by
    rw [ledger, List.map_eq_nil_iff, List.isEmpty_iff]
  have hok := r.isOk_register_shape
  have hentries := (r.register_entries shapeName shapeSource).2
  have hname : Text.trim shapeName = shapeName := by decide
  rw [hname] at hentries
  unfold seed
  by_cases hnone : r.ledger.entries = []
  · rw [if_pos (hempty.mpr hnone)]
    rw [hnone] at hentries ⊢
    generalize r.register shapeName shapeSource = registered at hok hentries ⊢
    obtain ⟨fault | _, r'⟩ := registered
    · have hsteps : r.limits.steps = 0 := by
        by_contra hsteps
        cases hok.mpr hsteps
      exact .inr ⟨.inr hsteps, rfl, hentries⟩
    · exact .inl ⟨⟨rfl, hok.mp rfl⟩, rfl, hentries⟩
  · rw [if_neg (mt hempty.mp hnone)]
    exact .inr ⟨.inl hnone, rfl, rfl⟩

end Registry

/-! ## 2. What is saved afterwards -/

namespace ParserSetup

variable {path : Option String} {files : Files} {store : ParserStore}

/-- What starting makes of a store that could be read. -/
def onStore (store : ParserStore) (limits : Snippet.Limits) (files : Files) (now : Int) :
    ParserSetup :=
  let (_, registry) := ({ limits } : Registry).registerAll store.sources
  let (seeded, registry) := registry.seed
  let setup : ParserSetup := { registry, store, files }
  if seeded then setup.saveFirst now else setup

theorem start_of_load (h : ParserStore.load path files = .ok store) (limits : Snippet.Limits)
    (now : Int) : start path limits files now = onStore store limits files now := by
  unfold start onStore
  rw [h]
  simp only [Option.isNone_none, Bool.and_true]

theorem saveFirst_of_entries {p : ParserSetup} {name source : String}
    {rest : List (String × String)} (h : p.registry.ledger.entries = (name, source) :: rest)
    (now : Int) :
    (p.saveFirst now).registry = p.registry ∧
      (p.saveFirst now).store = (p.store.upsert name source p.files now).2.1 := by
  obtain ⟨first, others, hparsers, hfirst, -⟩ := List.map_eq_cons_iff.mp h
  obtain ⟨rfl, rfl⟩ := Prod.mk.inj hfirst
  unfold saveFirst
  rw [hparsers]
  dsimp only
  generalize p.store.upsert first.name first.source p.files now = outcome
  obtain ⟨_ | _, _, _⟩ := outcome <;> exact ⟨rfl, rfl⟩

/-- The default parser is registered and saved where no record could be registered, if a step may be
taken; else the saved records stay as they are. -/
theorem start_cases (h : ParserStore.load path files = .ok store) (limits : Snippet.Limits)
    (now : Int) :
    let registered := ({ limits } : Registry).registerAll store.sources
    let setup := start path limits files now
    (registered.1 = 0 ∧ limits.steps ≠ 0) ∧
        setup.registry.ledger.entries = [(shapeName, shapeSource)] ∧
        setup.store = { store with
          records := (ParserStore.saved store.records shapeName shapeSource (Time.stamp now)).2 } ∨
      (registered.1 ≠ 0 ∨ limits.steps = 0) ∧
        setup.registry.ledger.entries = registered.2.ledger.entries ∧ setup.store = store := by
  rw [start_of_load h]
  unfold onStore
  dsimp only
  have hlimits := ({ limits } : Registry).limits_registerAll store.sources
  have hregistered := ({ limits } : Registry).registerAll_cases store.sources
  generalize ({ limits } : Registry).registerAll store.sources = registered at hlimits hregistered ⊢
  obtain ⟨count, registry⟩ := registered
  have hseed := registry.seed_cases
  dsimp only at hlimits hregistered hseed ⊢
  rw [hlimits] at hseed
  generalize registry.seed = seeded at hseed ⊢
  obtain ⟨did, seeded⟩ := seeded
  rcases hseed with ⟨⟨hnone, hsteps⟩, rfl, hentries⟩ | ⟨hother, rfl, hentries⟩
  · left
    have hcount : count = 0 := by
      rcases hregistered with ⟨hcount, -⟩ | ⟨-, hsome⟩
      · exact hcount
      · exact absurd hnone hsome
    obtain ⟨hregistry, hstore⟩ := saveFirst_of_entries
      (p := { registry := seeded, store, files, notice := none }) hentries now
    rw [ParserStore.store_upsert] at hstore
    refine ⟨⟨hcount, hsteps⟩, ?_, hstore⟩
    show (saveFirst _ now).registry.ledger.entries = _
    rw [hregistry]
    exact hentries
  · right
    refine ⟨?_, hentries, rfl⟩
    rcases hother with hsome | hsteps
    · rcases hregistered with ⟨-, hnone⟩ | ⟨hcount, -⟩
      · exact absurd hnone hsome
      · exact .inl hcount
    · exact .inr hsteps

end ParserSetup

/-! ## 3. What becomes of the saved records -/

/-- What a record says, the times of its changes aside. -/
def ParserRecord.content (p : ParserRecord) : Int × String × String := (p.id, p.name, p.code)

namespace ParserStore

/-- All records are still there, in their order, and at most the default parser is new. -/
def Keeps (before after : List ParserRecord) : Prop :=
  after.map ParserRecord.content = before.map ParserRecord.content ∨
    ∃ id, after.map ParserRecord.content =
      before.map ParserRecord.content ++ [(id, shapeName, shapeSource)]

theorem length_changeFirst (picks : ParserRecord → Bool) (change : ParserRecord → ParserRecord)
    (records : List ParserRecord) : (changeFirst picks change records).length = records.length := by
  induction records with
  | nil => rfl
  | cons p rest ih =>
    rw [changeFirst]
    split
    · rfl
    · rw [List.length_cons, List.length_cons, ih]

/-- Saving the default parser keeps all records unless there is one of its name with another source
text. -/
theorem keeps_saved_iff (records : List ParserRecord) (stamp : String) :
    Keeps records (saved records shapeName shapeSource stamp).2 ↔
      ∀ p, (records.find? fun p => p.name == shapeName) = some p → p.code = shapeSource := by
  unfold saved Keeps
  cases hfind : records.find? fun p => p.name == shapeName with
  | none =>
    refine iff_of_true (.inr ⟨nextId records, ?_⟩) nofun
    rw [List.map_append]
    rfl
  | some p =>
    let change (p : ParserRecord) : ParserRecord := { p with code := shapeSource, updated := stamp }
    have hiff := map_changeFirst_eq_iff ParserRecord.content change hfind
    have hlength : ∀ id, (changeFirst (fun p => p.name == shapeName) change records).map
        ParserRecord.content ≠
          records.map ParserRecord.content ++ [(id, shapeName, shapeSource)] := by
      intro id heq
      have hlength := congrArg List.length heq
      rw [List.length_map, length_changeFirst, List.length_append, List.length_map,
        List.length_singleton] at hlength
      omega
    dsimp only
    rw [hiff, or_iff_left fun ⟨id, heq⟩ => hlength id heq]
    simp [change, ParserRecord.content, eq_comm]

end ParserStore

namespace ParserSetup

open ParserStore (Keeps)

variable {path : Option String} {files : Files} {store : ParserStore}

/-- Starting keeps what is saved, unless nothing could be registered and there is a record of the
default parser's name: its source text is replaced. -/
theorem keeps_start_iff (h : ParserStore.load path files = .ok store) (limits : Snippet.Limits)
    (now : Int) :
    Keeps store.records (start path limits files now).store.records ↔
      limits.steps = 0 ∨ (({ limits } : Registry).registerAll store.sources).1 ≠ 0 ∨
        ∀ p ∈ store.records, p.name ≠ shapeName := by
  rcases start_cases h limits now with ⟨⟨hnone, hsteps⟩, -, hstore⟩ | ⟨hother, -, hstore⟩
  · rw [hstore, ParserStore.keeps_saved_iff, or_iff_right hsteps, or_iff_right fun h => h hnone]
    constructor
    · -- the default parser's own text under its name could have been registered
      intro hcode p hp hname
      have hsome : (store.records.find? fun p => p.name == shapeName).isSome :=
        List.find?_isSome.mpr ⟨p, hp, by simpa using hname⟩
      obtain ⟨q, hq⟩ := Option.isSome_iff_exists.mp hsome
      have hqname : q.name = shapeName := by simpa using List.find?_some hq
      have hshape : (shapeName, shapeSource) ∈ store.sources := by
        refine List.mem_map.mpr ⟨q, List.mem_of_find?_eq_some hq, ?_⟩
        rw [hcode q hq, hqname]
      exact ({ limits } : Registry).registerAll_shape hsteps hshape hnone
    · intro hnames p hp
      have hname : p.name = shapeName := by simpa using List.find?_some hp
      exact absurd hname (hnames p (List.mem_of_find?_eq_some hp))
  · rw [hstore]
    refine iff_of_true (.inl rfl) ?_
    rcases hother with hcount | hsteps
    · exact .inr (.inl hcount)
    · exact .inl hsteps

/-- The files where only records are, in their file. -/
def filesOf (records : List ParserRecord) : Files :=
  ({} : Files).put ["parsers.json"] (.file (ParserRecord.fileText records).toUTF8 0)

theorem load_filesOf (records : List ParserRecord) (h : ∀ p ∈ records, p.Fits) :
    ParserStore.load (some "parsers.json") (filesOf records) =
      .ok { path := some "parsers.json", records } := by
  have hplace : Path.place "parsers.json" = ["parsers.json"] := by decide +kernel
  have hname : Path.namesFolder "parsers.json" = false := by decide +kernel
  have hfolder : ({} : Files).isFolder (Path.place "parsers.json") = false := by decide +kernel
  have hread := Files.readText_put hname hfolder (ParserRecord.fileText records) 0
  rw [hplace] at hread
  exact ParserStore.load_of_fileText h hread

/-- A record without a function. -/
def brokenRecord (id : Int) (name : String) : ParserRecord :=
  ⟨id, name, "(", "2024-01-02T03:04:05Z", "2024-01-02T03:04:05Z"⟩

/-- The default parser is saved after a record of another name. -/
theorem keeps_start_brokenRank :
    Keeps [brokenRecord 1 "rank"]
      (start (some "parsers.json") {} (filesOf [brokenRecord 1 "rank"]) 0).store.records :=
  (keeps_start_iff (load_filesOf _ (by decide)) {} 0).mpr (.inr (.inr (by decide)))

/-- Of two records without a function the one of the default parser's name is overwritten. -/
theorem not_keeps_start_brokenShape :
    let records := [brokenRecord 1 "rank", brokenRecord 2 "tensorShape"]
    ParserStore.load (some "parsers.json") (filesOf records) =
        .ok { path := some "parsers.json", records } ∧
      ¬ Keeps records (start (some "parsers.json") {} (filesOf records) 0).store.records := by
  intro records
  have hload := load_filesOf records (by decide)
  have hcount : (({} : Registry).registerAll (records.map fun p => (p.name, p.code))).1 = 0 := by
    decide +kernel
  refine ⟨hload, ?_⟩
  rcases start_cases hload {} 0 with ⟨-, -, hstore⟩ | ⟨hother, -, -⟩
  · rw [hstore, ParserStore.keeps_saved_iff]
    intro hcode
    exact absurd (hcode (brokenRecord 2 "tensorShape") rfl) (by decide +kernel)
  · exact absurd hcount (hother.resolve_right (by decide))

end ParserSetup

end TraceViewer
