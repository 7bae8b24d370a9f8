import TraceViewer.Proofs.Parser.Distinct
import TraceViewer.Proofs.Session.Run
import TraceViewer.Proofs.Session.Starting
import TraceViewer.Text.Letter

/-!
# Parsers and their records

Registering a parser and saving it are two steps, and either can fail.  In every state of a session
that was started on records with distinct names and ids, each parser has one record of its name,
with its source text, whether or not the records could be written.
-/

namespace TraceViewer

/-! ## 1. Names that a source text declares -/

namespace Parser

theorem isBlank_of_isNameChar {c : Char} (h : isNameChar c = true) : Text.isBlank c = false := by
  have hlow : ∀ n ≤ 0x20, isNameChar (Char.ofNat n) = false := by decide
  have hwide : ∀ n ∈ Text.wideBlanks, isNameChar (Char.ofNat n) = false := by decide
  by_contra hblank
  rcases Text.mem_wideBlanks (Bool.not_eq_false _ |>.mp hblank) with hc | hc
  · have hc := hlow c.toNat hc
    rw [Char.ofNat_toNat, h] at hc
    cases hc
  · have hc := hwide c.toNat hc
    rw [Char.ofNat_toNat, h] at hc
    cases hc

theorem mem_nameBefore {stop : Char} {cs name : List Char} (h : nameBefore? stop cs = some name) :
    ∀ c ∈ name, isNameChar c = true := by
  unfold nameBefore? at h
  dsimp only at h
  split at h
  · cases h
    exact fun c hc => List.mem_takeWhile_imp hc
  · cases h

theorem exists_of_firstInside {read : List Char → Option (List Char)} {cs found : List Char}
    (h : firstInside? read cs = some found) : ∃ rest, read rest = some found := by
  induction cs with
  | nil => exact ⟨[], h⟩
  | cons c cs ih =>
    rw [firstInside?] at h
    split at h
    · next hread =>
      cases h
      exact ⟨_, hread⟩
    · exact ih h

/-- A declared name has no blanks. -/
theorem trim_declaredName {source name : String} (h : declaredName? source = some name) :
    Text.trim name = name := by
  obtain ⟨cs, hfound, rfl⟩ := Option.map_eq_some_iff.mp h
  have hname : ∃ stop rest, nameBefore? stop rest = some cs := by
    rw [Option.orElse_eq_orElse, Option.orElse_eq_or] at hfound
    rcases Option.or_eq_some_iff.mp hfound with hfound | ⟨-, hfound⟩
    all_goals
      obtain ⟨text, hread⟩ := exists_of_firstInside hfound
      obtain ⟨rest, -, hread⟩ := Option.bind_eq_some_iff.mp hread
      exact ⟨_, rest, hread⟩
  obtain ⟨stop, rest, hname⟩ := hname
  refine Text.trim_eq_self fun c hc => isBlank_of_isNameChar (mem_nameBefore hname c ?_)
  rwa [String.toList_ofList] at hc

end Parser

/-! ## 2. Steps that leave parsers and records -/

namespace Session

/-- The step changes neither the parsers nor their records. -/
structure Rests (s s' : Session) : Prop where
  parsers : s'.registry.parsers = s.registry.parsers
  store : s'.store = s.store

theorem Rests.trans {s s' s'' : Session} (h : Rests s s') (g : Rests s' s'') : Rests s s'' :=
  ⟨g.parsers.trans h.parsers, g.store.trans h.store⟩

variable (s : Session)

theorem rests_moveSelection (delta : Int) : Rests s (s.moveSelection delta) := by
  unfold moveSelection
  split <;> exact ⟨rfl, rfl⟩

theorem rests_scrollDown (lines : Nat) : Rests s (s.scrollDown lines) := by
  unfold scrollDown
  split <;> exact ⟨rfl, rfl⟩

theorem rests_listKey (key : Key) : Rests s (s.listKey key) := by
  unfold listKey pageDown pageUp
  split
  all_goals first
    | with_reducible exact s.rests_moveSelection _
    | exact ⟨rfl, rfl⟩

theorem rests_detailKey (key : Key) : Rests s (s.detailKey key) := by
  unfold detailKey
  split
  all_goals first
    | with_reducible exact s.rests_scrollDown _
    | exact ⟨rfl, rfl⟩

theorem rests_exportTable : Rests s s.exportTable := by
  unfold exportTable
  dsimp only
  split <;> exact ⟨rfl, rfl⟩

theorem rests_commonKey? {key : Key} {outcome : Action × Session}
    (h : s.commonKey? key = some outcome) : Rests s outcome.2 := by
  unfold commonKey? at h
  split at h
  all_goals cases h
  all_goals first
    | with_reducible exact s.rests_moveSelection _
    | with_reducible exact s.rests_exportTable
    | exact ⟨rfl, rfl⟩

theorem rests_normalKey (key : Key) : Rests s (s.normalKey key).2 := by
  unfold normalKey
  split
  · exact ⟨rfl, rfl⟩
  · split
    · split <;> exact ⟨rfl, rfl⟩
    · split
      · next h => exact s.rests_commonKey? h
      · split
        · exact s.rests_listKey key
        · exact s.rests_detailKey key

theorem rests_sourceKey (key : Key) : Rests s (s.sourceKey key).2 := by
  unfold sourceKey selectSource
  dsimp only
  split
  all_goals first
    | exact ⟨rfl, rfl⟩
    | split <;>
      · next h =>
        split at h <;> cases h
        exact ⟨rfl, rfl⟩

/-- Filters run their parsers, and the parsers stay. -/
theorem rests_refilter : Rests s s.refilter := ⟨s.table.parsers_refilter s.registry, rfl⟩

theorem rests_submitFilter (target : FilterTarget) : Rests s (s.submitFilter target) := by
  unfold submitFilter
  cases target with
  | column name =>
    have hparsers := s.table.parsers_setFilter s.registry name s.buffer
    dsimp only
    generalize s.table.setFilter name s.buffer s.registry = outcome at hparsers ⊢
    exact ⟨hparsers, rfl⟩
  | rows =>
    have hparsers := s.table.parsers_setRowFilter s.registry s.buffer
    dsimp only
    split <;>
    · next heq =>
      rw [heq] at hparsers
      exact ⟨hparsers, rfl⟩

theorem rests_testParser (name input : String) : Rests s (s.testParser name input) :=
  ⟨s.registry.parsers_test name input, rfl⟩

theorem rests_typeKey (key : Key) : Rests s (s.typeKey key) := by
  rcases s.typeKey_cases key with ⟨-, h⟩ | ⟨-, buffer, input, -, h⟩
  · rw [h]
    unfold submit
    split
    · exact s.rests_submitFilter _
    · exact s.rests_testParser _ s.buffer
    · exact ⟨rfl, rfl⟩
  · rw [h]
    exact ⟨rfl, rfl⟩

theorem rests_clearSelectedFilter : Rests s s.clearSelectedFilter := by
  unfold clearSelectedFilter
  split
  · exact ⟨rfl, rfl⟩
  · next column _ => exact ⟨s.table.parsers_clearFilter s.registry column, rfl⟩

theorem rests_columnKey (key : Key) : Rests s (s.columnKey key).2 := by
  unfold columnKey sortSelectedColumn moveColumn
  dsimp only
  split
  all_goals first
    | with_reducible exact s.rests_clearSelectedFilter
    | exact ⟨rfl, rfl⟩
    | split <;> exact ⟨rfl, rfl⟩

/-- Of the keys in the list of parsers only the one that deletes does more than select. -/
theorem parserKey_cases (key : Key) :
    (s.parserKey key).2 = s.deleteSelectedParser ∨ Rests s (s.parserKey key).2 := by
  unfold parserKey
  split
  all_goals first
    | exact .inl rfl
    | exact .inr ⟨rfl, rfl⟩
    | split <;> exact .inr ⟨rfl, rfl⟩

theorem press_cases (key : Key) :
    (s.press key).2 = s.deleteSelectedParser ∨ Rests s (s.press key).2 := by
  unfold press
  split
  · exact .inr ⟨rfl, rfl⟩
  · split
    · exact .inr (s.rests_typeKey key)
    · exact .inr (s.rests_typeKey key)
    · exact .inr (s.rests_columnKey key)
    · exact s.parserKey_cases key
    · exact .inr (s.rests_sourceKey key)
    · exact .inr (s.rests_normalKey key)

theorem rests_applyLoad (response : LoadResponse) : Rests s (s.applyLoad response).2 := by
  unfold applyLoad
  split
  · exact ⟨rfl, rfl⟩
  · dsimp only
    split <;> exact ⟨rfl, rfl⟩

theorem rests_measureDetail (f : Frame) : Rests s (s.measureDetail f) := by
  unfold measureDetail
  split
  · exact ⟨rfl, rfl⟩
  · dsimp only
    split <;> exact ⟨rfl, rfl⟩

theorem rests_settlePanel (f : Frame) : Rests s (s.settlePanel f) := by
  unfold settlePanel
  split <;> exact ⟨rfl, rfl⟩

theorem rests_draw (width height : Nat) : Rests s (s.draw width height).2 := by
  show Rests s (s.measure (Frame.ofSession s width height))
  unfold measure
  generalize Frame.ofSession s width height = f
  let listed : Session :=
    { s.measureList f with
      rowList := (s.measureList f).rowList.settle (s.measureList f).visibleCount
        (shownItems f.body) }
  have hlisted : Rests s listed := ⟨rfl, rfl⟩
  exact (hlisted.trans (listed.rests_measureDetail f)).trans (rests_settlePanel _ f)

/-- Only saving a parser and deleting one do something to the parsers or their records. -/
theorem step_cases (e : Stimulus) :
    (∃ source editing, e = .saveParser source editing) ∨ s.step e = s.deleteSelectedParser ∨
      Rests s (s.step e) := by
  cases e with
  | press key => exact .inr (s.press_cases key)
  | saveParser source editing => exact .inl ⟨source, editing, rfl⟩
  | request => exact .inr (.inr ⟨rfl, rfl⟩)
  | respond response => exact .inr (.inr (s.rests_applyLoad response))
  | draw width height => exact .inr (.inr (s.rests_draw width height))
  | outside files clock => exact .inr (.inr ⟨rfl, rfl⟩)

end Session

/-! ## 3. Registering and saving, removing and deleting -/

namespace Registry

variable {r r' : Registry}

theorem entries_of_parsers (h : r'.parsers = r.parsers) :
    r'.ledger.entries = r.ledger.entries := by
  unfold ledger
  rw [h]

theorem balanced_of_parsers (h : r'.parsers = r.parsers) (hbalanced : r.ledger.Balanced) :
    r'.ledger.Balanced := by
  refine hbalanced.of_books (entries_of_parsers h) ?_
  unfold ledger setting
  rw [h]

theorem Serves.parsers (h : Serves r r') : r'.parsers = r.parsers := by
  cases h with
  | source => exact r.parsers_source
  | cell f _ cell => exact r.parsers_cell f cell
  | row f _ event => exact r.parsers_perform _
  | test name input => exact r.parsers_test name input
  | compile name source => exact r.parsers_compile name source

theorem balanced_register (h : r.ledger.Balanced) (name source : String) :
    (r.register name source).2.ledger.Balanced := by
  have hledger := r.register_ledger name source
  have hbalanced := h.register name source
  generalize r.register name source = registered at hledger ⊢
  rw [hledger] at hbalanced
  exact hbalanced

theorem balanced_remove (h : r.ledger.Balanced) (name : String) :
    (r.remove name).2.ledger.Balanced := by
  have hledger := r.remove_ledger name
  have hbalanced := h.remove name
  generalize r.remove name = removed at hledger ⊢
  rw [hledger] at hbalanced
  exact hbalanced

theorem entries_remove (r : Registry) (name : String) :
    (r.remove name).2.ledger.entries = Named.drop name r.ledger.entries := by
  have hledger := r.remove_ledger name
  generalize r.remove name = removed at hledger ⊢
  obtain ⟨parser?, r'⟩ := removed
  rcases r.ledger.remove_cases name with ⟨hunlisted, h⟩ | ⟨source, heap, -, h⟩
  · obtain ⟨-, hafter⟩ := Prod.mk.inj (hledger.symm.trans h)
    rw [Named.drop_of_notMem hunlisted, ← hafter]
  · obtain ⟨-, hafter⟩ := Prod.mk.inj (hledger.symm.trans h)
    show r'.ledger.entries = _
    rw [hafter]

/-- The names of the parsers of any registry that comes about are distinct, and none of them is
empty or has blanks at its ends. -/
theorem Made.balanced (h : r.Made) : r.ledger.Balanced := by
  induction h with
  | new limits => exact ⟨rfl, List.nodup_nil, nofun, nofun⟩
  | register _ name source ih => exact balanced_register ih name source
  | remove _ name ih => exact balanced_remove ih name
  | serve _ hserves ih => exact balanced_of_parsers hserves.parsers ih

theorem names_ledger (r : Registry) : Named.names r.ledger.entries = r.names := by
  rw [Named.names, ledger, List.map_map]
  rfl

end Registry

namespace Session

/-- The parsers and the records are two books that agree: each parser has a record of its name with
its source text.  There may be more records, of texts that could not be registered. -/
structure Agrees (s : Session) : Prop where
  balanced : s.registry.ledger.Balanced
  distinct : ParserStore.Distinct s.store.records
  saved : ∀ name source, s.registry.ledger.entries.lookup name = some source →
    s.store.sources.lookup name = some source

variable {s t : Session} {r : Registry} {name source : String}

theorem Rests.entries (h : Rests s t) :
    t.registry.ledger.entries = s.registry.ledger.entries :=
  Registry.entries_of_parsers h.parsers

theorem Rests.balanced (h : Rests s t) (hbalanced : s.registry.ledger.Balanced) :
    t.registry.ledger.Balanced :=
  Registry.balanced_of_parsers h.parsers hbalanced

theorem Agrees.rests (h : s.Agrees) (hrests : Rests s t) : t.Agrees := by
  refine ⟨hrests.balanced h.balanced, ?_, ?_⟩
  · rw [hrests.store]
    exact h.distinct
  · rw [hrests.entries, hrests.store]
    exact h.saved

theorem registry_persist (s : Session) (name source : String) :
    (s.persist name source).registry = s.registry := (s.spares_persist name source).registry

theorem store_persist (s : Session) (name source : String) :
    (s.persist name source).store = (s.store.upsert name source s.files s.clock).2.1 := by
  unfold persist
  split <;>
  · next h =>
    rw [h]
    rfl

/-- A parser that was just registered is saved, whether or not its record can be written. -/
theorem Agrees.persist (h : s.Agrees) (hroom : ParserStore.HasRoom s.store.records)
    (hbalanced : r.ledger.Balanced)
    (hentries : r.ledger.entries = Named.put name source s.registry.ledger.entries)
    (hrests : Rests { s with registry := r } t) : (t.persist name source).Agrees := by
  have hstore : t.store = s.store := hrests.store
  constructor
  · rw [registry_persist]
    exact hrests.balanced hbalanced
  · rw [store_persist, hstore, ParserStore.store_upsert]
    exact h.distinct.saved hroom _ _ _
  · intro m text hlookup
    rw [registry_persist, hrests.entries, hentries, Named.lookup_put] at hlookup
    rw [store_persist, hstore, ParserStore.sources_upsert, Named.lookup_put]
    split at hlookup
    · next hm => rwa [if_pos hm]
    · next hm =>
      rw [if_neg hm]
      exact h.saved m text hlookup

theorem registry_forget (s : Session) (name : String) :
    (s.forget name).registry = s.registry := (s.spares_forget name).registry

/-- The record of a name is deleted, whether or not the others can be written. -/
theorem store_forget (h : ParserStore.Distinct s.store.records) (name : String) :
    ParserStore.Distinct (s.forget name).store.records ∧
      (s.forget name).store.sources = Named.drop name s.store.sources := by
  unfold forget
  split
  · next hnone =>
    rw [Named.drop_of_notMem (ParserStore.idOf?_eq_none_iff.mp hnone)]
    exact ⟨h, rfl⟩
  · next id hid =>
    have hdelete := ParserStore.delete_idOf h hid s.files s.clock
    split <;>
    · next heq =>
      rw [heq] at hdelete
      exact hdelete

theorem Agrees.forget (h : s.Agrees) (hbalanced : r.ledger.Balanced)
    (hentries : r.ledger.entries = Named.drop name s.registry.ledger.entries)
    (hrests : Rests { s with registry := r } t) :
    (t.forget name).Agrees ∧ name ∉ (t.forget name).registry.names ∧
      name ∉ Named.names (t.forget name).store.sources := by
  have hstore : t.store = s.store := hrests.store
  have hdistinct : ParserStore.Distinct t.store.records := hstore ▸ h.distinct
  obtain ⟨hdeleted, hsources⟩ := store_forget hdistinct name
  have hentriesNodup := h.balanced.nodup
  have hsourcesNodup : (Named.names s.store.sources).Nodup := by
    rw [ParserStore.names_sources]
    exact h.distinct.names
  rw [hstore] at hsources
  refine ⟨⟨?_, hdeleted, ?_⟩, ?_, ?_⟩
  · rw [registry_forget]
    exact hrests.balanced hbalanced
  · intro m text hlookup
    rw [registry_forget, hrests.entries, hentries, Named.lookup_drop hentriesNodup] at hlookup
    rw [hsources, Named.lookup_drop hsourcesNodup]
    split at hlookup
    · cases hlookup
    · next hm =>
      rw [if_neg hm]
      exact h.saved m text hlookup
  · rw [registry_forget, ← Registry.names_ledger, hrests.entries, hentries, Named.names_drop]
    exact hentriesNodup.not_mem_erase
  · rw [hsources, Named.names_drop]
    exact hsourcesNodup.not_mem_erase

theorem trim_name (hbalanced : s.registry.ledger.Balanced) (hname : name ∈ s.registry.names) :
    Text.trim name = name := by
  rw [← Registry.names_ledger] at hname
  exact (hbalanced.tidy name hname).2

/-- A parser is saved under a name without blanks at its ends. -/
theorem trim_savedName (hbalanced : s.registry.ledger.Balanced) {editing : Option String}
    (hediting : ∀ name, editing = some name → name ∈ s.registry.names)
    (hname : (editing <|> Parser.declaredName? source) = some name) : Text.trim name = name := by
  rw [Option.orElse_eq_orElse, Option.orElse_eq_or] at hname
  rcases Option.or_eq_some_iff.mp hname with hname | ⟨-, hname⟩
  · exact trim_name hbalanced (hediting name hname)
  · exact Parser.trim_declaredName hname

theorem Agrees.saveParser (h : s.Agrees) (hroom : ParserStore.HasRoom s.store.records)
    {editing : Option String} (hediting : ∀ name, editing = some name → name ∈ s.registry.names)
    (source : String) : (s.saveParser source editing).Agrees := by
  unfold Session.saveParser
  cases hname : editing <|> Parser.declaredName? source with
  | none => exact h.rests ⟨rfl, rfl⟩
  | some name =>
    -- the name has no blanks, so it is registered and saved as the same one
    have htrim := trim_savedName h.balanced hediting hname
    have hbalanced := Registry.balanced_register h.balanced name source
    have hentries := (s.registry.register_entries name source).2
    rw [htrim] at hentries
    dsimp only
    generalize s.registry.register name source = registered at hbalanced hentries ⊢
    obtain ⟨fault | _, r⟩ := registered
    · refine ⟨hbalanced, h.distinct, fun m text hlookup => h.saved m text ?_⟩
      rw [← hlookup]
      exact congrArg (List.lookup m) hentries.symm
    · have hrefiltered : Rests { s with registry := r } { s with registry := r }.refilter :=
        rests_refilter _
      refine h.persist hroom hbalanced hentries ?_
      split <;> exact ⟨hrefiltered.parsers, hrefiltered.store⟩

/-- Deleting the selected parser removes it, selects another one, and then deletes its record. -/
theorem deleteSelectedParser_cases (s : Session) :
    s.selectedParser? = none ∧ s.deleteSelectedParser = s ∨
      ∃ name t, s.selectedParser? = some name ∧
        Rests { s with registry := (s.registry.remove name).2 } t ∧
        s.deleteSelectedParser = t.forget name := by
  unfold Session.deleteSelectedParser
  cases s.selectedParser? with
  | none => exact .inl ⟨rfl, rfl⟩
  | some name =>
    have hrefiltered := rests_refilter { s with registry := (s.registry.remove name).2 }
    refine .inr ⟨name, _, rfl, ?_, rfl⟩
    exact ⟨hrefiltered.parsers, hrefiltered.store⟩

/-- Deleting the selected parser takes its name out of both books. -/
theorem Agrees.deleteSelectedParser (h : s.Agrees) :
    s.deleteSelectedParser.Agrees ∧ ∀ name, s.selectedParser? = some name →
      name ∉ s.deleteSelectedParser.registry.names ∧
        name ∉ Named.names s.deleteSelectedParser.store.sources := by
  rcases s.deleteSelectedParser_cases with ⟨hnone, heq⟩ | ⟨name, t, hsome, hrests, heq⟩
  · rw [heq, hnone]
    exact ⟨h, nofun⟩
  · have hbalanced := Registry.balanced_remove h.balanced name
    have hentries := s.registry.entries_remove name
    have hforget := h.forget hbalanced hentries hrests
    rw [heq, hsome]
    refine ⟨hforget.1, fun m hm => ?_⟩
    cases hm
    exact hforget.2

/-! ## 4. Sessions on distinct records -/

/-- What may happen.  A parser is saved under the name that its source text declares, or under that
of a parser that is edited, and a new record is given an id that follows all others. -/
def Admits (s : Session) : Stimulus → Prop
  | .saveParser _ editing =>
    (∀ name, editing = some name → name ∈ s.registry.names) ∧
      ParserStore.HasRoom s.store.records
  | _ => True

/-- Sessions that come about from a start on records with distinct names and ids. -/
inductive OfDistinct : Session → Prop
  | start {path : Option String} {files : Files} {store : ParserStore}
      (hload : ParserStore.load path files = .ok store)
      (hdistinct : ParserStore.Distinct store.records)
      (htidy : ∀ p ∈ store.records, Text.trim p.name = p.name)
      (hroom : ParserStore.HasRoom store.records) (limits : Snippet.Limits) (now : Int)
      (sources : List TraceSource) (mode : ViewMode) (exportFolder : String) (clock : Int) :
      OfDistinct (Session.start (ParserSetup.start path limits files now) sources mode
        exportFolder clock)
  | step {s : Session} (h : OfDistinct s) (e : Stimulus) (he : s.Admits e) :
      OfDistinct (s.step e)
  | delete {s : Session} (h : OfDistinct s) : OfDistinct s.deleteSelectedParser

theorem agrees_start {path : Option String} {files : Files} {store : ParserStore}
    (hload : ParserStore.load path files = .ok store)
    (hdistinct : ParserStore.Distinct store.records)
    (htidy : ∀ p ∈ store.records, Text.trim p.name = p.name)
    (hroom : ParserStore.HasRoom store.records) (limits : Snippet.Limits) (now : Int)
    (sources : List TraceSource) (mode : ViewMode) (exportFolder : String) (clock : Int) :
    (Session.start (ParserSetup.start path limits files now) sources mode exportFolder
      clock).Agrees := by
  have hbalanced := (made_start path limits files now).balanced
  have hcases := ParserSetup.start_cases hload limits now
  dsimp only at hcases
  generalize ParserSetup.start path limits files now = setup at hbalanced hcases ⊢
  rcases hcases with ⟨-, hentries, hstore⟩ | ⟨-, hentries, hstore⟩
  · refine ⟨hbalanced, ?_, fun name source hlookup => ?_⟩
    · show ParserStore.Distinct setup.store.records
      rw [hstore]
      exact hdistinct.saved hroom _ _ _
    · show setup.store.sources.lookup name = some source
      have hlookup : setup.registry.ledger.entries.lookup name = some source := hlookup
      rw [hentries, Named.lookup_cons] at hlookup
      rw [hstore, ParserStore.sources_saved, Named.lookup_put]
      split at hlookup
      · next hname => rwa [if_pos hname]
      · cases hlookup
  · refine ⟨hbalanced, ?_, fun name source hlookup => ?_⟩
    · show ParserStore.Distinct setup.store.records
      rw [hstore]
      exact hdistinct
    · show setup.store.sources.lookup name = some source
      have hnames : (Named.names store.sources).Nodup := by
        rw [ParserStore.names_sources]
        exact hdistinct.names
      have hmem := Named.mem_of_lookup hlookup
      have hmem : (name, source) ∈ setup.registry.ledger.entries := hmem
      rw [hentries] at hmem
      rcases Registry.mem_entries_registerAll _ hmem with hmem | ⟨record, hrecord, heq⟩
      · cases hmem
      · obtain ⟨p, hp, rfl⟩ := List.mem_map.mp hrecord
        obtain ⟨rfl, rfl⟩ := Prod.mk.inj heq
        rw [hstore, htidy p hp]
        exact Named.lookup_of_mem hnames hrecord

theorem OfDistinct.agrees (h : s.OfDistinct) : s.Agrees := by
  induction h with
  | start hload hdistinct htidy hroom limits now sources mode exportFolder clock =>
    exact agrees_start hload hdistinct htidy hroom limits now sources mode exportFolder clock
  | @step s _ e he ih =>
    rcases s.step_cases e with ⟨source, editing, rfl⟩ | hdelete | hrests
    · exact ih.saveParser he.2 he.1 source
    · rw [hdelete]
      exact ih.deleteSelectedParser.1
    · exact ih.rests hrests
  | delete _ ih => exact ih.deleteSelectedParser.1

/-- Each parser has exactly one record of its name, and with its source text, whatever was saved and
deleted, and whether or not the records could be written.  Deleting the selected parser takes its
name out of the parsers and out of the records. -/
theorem OfDistinct.one_record (h : s.OfDistinct) :
    (∀ p ∈ s.registry.parsers, ∃ record,
      (s.store.records.filter fun q => q.name == p.name) = [record] ∧ record.code = p.source) ∧
    ∀ name, s.selectedParser? = some name →
      name ∉ s.deleteSelectedParser.registry.names ∧
        ∀ record ∈ s.deleteSelectedParser.store.records, record.name ≠ name := by
  have hagrees := h.agrees
  constructor
  · intro p hp
    have hentry : (p.name, p.source) ∈ s.registry.ledger.entries :=
      List.mem_map.mpr ⟨p, hp, rfl⟩
    have hlisted := Named.lookup_of_mem hagrees.balanced.nodup hentry
    have hnames : (Named.names s.store.sources).Nodup := by
      rw [ParserStore.names_sources]
      exact hagrees.distinct.names
    exact ParserStore.exists_filter_name hnames (hagrees.saved p.name p.source hlisted)
  · intro name hname
    obtain ⟨hparsers, hrecords⟩ := hagrees.deleteSelectedParser.2 name hname
    rw [ParserStore.names_sources] at hrecords
    exact ⟨hparsers, fun record hrecord hn => hrecords (List.mem_map.mpr ⟨record, hrecord, hn⟩)⟩

/-- A parser and a record without a function. -/
def mixedRecords : List ParserRecord :=
  [⟨7, "rank", "x => 1", "2024-01-02T03:04:05Z", "2024-01-02T03:04:05Z"⟩,
    ParserSetup.brokenRecord 3 "shape"]

def mixedSession : Session :=
  Session.start (ParserSetup.onStore { path := some "parsers.json", records := mixedRecords } {}
    (ParserSetup.filesOf mixedRecords) 0) [] .byUpload "." 0

/-- The record is given a function, and the parser another source text. -/
def editedSession : Session :=
  (mixedSession.step (.saveParser "function shape(x) \x7b return 2; \x7d" none)).step
    (.saveParser "x => 3" (some "rank"))

theorem ofDistinct_editedSession : editedSession.OfDistinct := by
  have hload := ParserSetup.load_filesOf mixedRecords (by decide)
  have hdistinct : ParserStore.Distinct mixedRecords := ⟨by decide, by decide⟩
  have hmixed : mixedSession.OfDistinct := by
    unfold mixedSession
    rw [← ParserSetup.start_of_load hload]
    exact .start hload hdistinct (by decide) (by decide) {} 0 [] .byUpload "." 0
  have hnamed := hmixed.step (.saveParser "function shape(x) \x7b return 2; \x7d" none)
    ⟨nofun, by decide +kernel⟩
  refine hnamed.step _ ⟨fun name hname => ?_, by decide +kernel⟩
  cases hname
  decide +kernel

/-- The record that was not registered keeps its id, and the parser that was edited can be deleted
with its record. -/
theorem one_record_editedSession :
    editedSession.registry.names = ["rank", "shape"] ∧
      editedSession.store.records.map ParserRecord.content =
        [(7, "rank", "x => 3"), (3, "shape", "function shape(x) \x7b return 2; \x7d")] ∧
      editedSession.selectedParser? = some "rank" ∧
      (∀ p ∈ editedSession.registry.parsers, ∃ record,
        (editedSession.store.records.filter fun q => q.name == p.name) = [record] ∧
          record.code = p.source) ∧
      ∀ name, editedSession.selectedParser? = some name →
        name ∉ editedSession.deleteSelectedParser.registry.names ∧
          ∀ record ∈ editedSession.deleteSelectedParser.store.records, record.name ≠ name :=
  ⟨by decide +kernel, by decide +kernel, by decide +kernel, ofDistinct_editedSession.one_record⟩

end Session

end TraceViewer
