import Mathlib.Data.List.Nodup
import TraceViewer.Proofs.Parser.Ledger
import TraceViewer.Proofs.Parser.Saving

/-!
# Records with distinct names and ids

Where no two records have a name or an id in common, saving and deleting keep it so, and do to the
names with their source texts what registering and removing do to a list of parsers.
-/

namespace TraceViewer

/-! ## 1. Lists with names -/

namespace Named

variable {α : Type} {name : String} {xs : List (String × α)}

theorem put_of_notMem (h : name ∉ names xs) (a : α) : put name a xs = xs ++ [(name, a)] := by
  induction xs with
  | nil => rfl
  | cons x rest ih =>
    obtain ⟨hx, hrest⟩ := not_or.mp (mt List.mem_cons.mpr h)
    rw [put, if_neg (by simpa using Ne.symm hx), ih hrest, List.cons_append]

theorem drop_of_notMem (h : name ∉ names xs) : drop name xs = xs := by
  refine List.eraseP_of_forall_not fun x hx hname => h ?_
  exact List.mem_map.mpr ⟨x, hx, beq_iff_eq.mp hname⟩

end Named

namespace ParserStore

/-! ## 2. Names and source texts -/

theorem names_sources (s : ParserStore) : Named.names s.sources = s.records.map (·.name) := by
  rw [Named.names, sources, List.map_map]
  rfl

theorem idOf?_eq_none_iff {s : ParserStore} {name : String} :
    s.idOf? name = none ↔ name ∉ Named.names s.sources := by
  rw [names_sources, idOf?, Option.map_eq_none_iff, List.find?_eq_none]
  simp

/-- Changing the source text of the first record of a name puts it in the place of the old one. -/
theorem sources_changeFirst (name code stamp : String) {records : List ParserRecord}
    (h : name ∈ records.map (·.name)) :
    (changeFirst (fun p => p.name == name) (fun p => { p with code, updated := stamp })
      records).map (fun p => (p.name, p.code)) =
        Named.put name code (records.map fun p => (p.name, p.code)) := by
  induction records with
  | nil => cases h
  | cons p rest ih =>
    rw [changeFirst, List.map_cons, Named.put]
    by_cases hp : p.name = name
    · rw [if_pos (beq_iff_eq.mpr hp), if_pos (beq_iff_eq.mpr hp), List.map_cons, hp]
    · have hrest := (List.mem_cons.mp h).resolve_left (Ne.symm hp)
      rw [if_neg (by simpa using hp), if_neg (by simpa using hp), List.map_cons, ih hrest]

/-- Saving does to the names with their source texts what registering does to the parsers. -/
theorem sources_saved (s : ParserStore) (name code stamp : String) :
    ({ s with records := (saved s.records name code stamp).2 } : ParserStore).sources =
      Named.put name code s.sources := by
  rw [sources, saved]
  dsimp only
  cases hfind : s.records.find? fun p => p.name == name with
  | none =>
    have hname : name ∉ Named.names s.sources := by
      rw [names_sources]
      simpa using hfind
    dsimp only
    rw [Named.put_of_notMem hname, List.map_append]
    rfl
  | some p =>
    have hname : name ∈ s.records.map (·.name) := by
      have hpname : p.name = name := by simpa using List.find?_some hfind
      exact List.mem_map.mpr ⟨p, List.mem_of_find?_eq_some hfind, hpname⟩
    exact sources_changeFirst name code stamp hname

theorem sources_upsert (s : ParserStore) (name code : String) (files : Files) (now : Int) :
    (s.upsert name code files now).2.1.sources = Named.put name code s.sources := by
  rw [store_upsert]
  exact s.sources_saved name code (Time.stamp now)

/-- Where names are distinct, the record of a name is the only one. -/
theorem exists_filter_name {s : ParserStore} (h : (Named.names s.sources).Nodup)
    {name code : String}
    (hlookup : s.sources.lookup name = some code) :
    ∃ p, (s.records.filter fun p => p.name == name) = [p] ∧ p.code = code := by
  obtain ⟨path, records⟩ := s
  unfold sources at h hlookup
  dsimp only at h hlookup ⊢
  induction records with
  | nil => cases hlookup
  | cons p rest ih =>
    obtain ⟨hp, hrest⟩ := List.nodup_cons.mp h
    rw [List.map_cons, Named.lookup_cons] at hlookup
    by_cases hname : p.name = name
    · rw [if_pos hname] at hlookup
      have hnone : (rest.filter fun p => p.name == name) = [] := by
        rw [List.filter_eq_nil_iff]
        intro q hq hqname
        have hq : (q.name, q.code) ∈ rest.map fun p => (p.name, p.code) :=
          List.mem_map.mpr ⟨q, hq, rfl⟩
        exact hp (List.mem_map.mpr ⟨_, hq, (beq_iff_eq.mp hqname).trans hname.symm⟩)
      refine ⟨p, ?_, Option.some.inj hlookup⟩
      rw [List.filter_cons_of_pos (by simpa using hname), hnone]
    · rw [if_neg hname] at hlookup
      rw [List.filter_cons_of_neg (by simpa using hname)]
      exact ih hrest hlookup

/-! ## 3. Distinct records -/

structure Distinct (records : List ParserRecord) : Prop where
  names : (records.map (·.name)).Nodup
  ids : (records.map (·.id)).Nodup

/-- The greatest id of 64 bits is the last that a new record may follow. -/
def HasRoom (records : List ParserRecord) : Prop := ∀ p ∈ records, p.id < 0x7fffffffffffffff

instance (records : List ParserRecord) : Decidable (HasRoom records) :=
  inferInstanceAs (Decidable (∀ p ∈ records, _))

theorem lt_nextId {records : List ParserRecord} (h : HasRoom records) :
    ∀ p ∈ records, p.id < nextId records := by
  intro p hp
  unfold nextId
  dsimp only
  cases hmax : (records.map (·.id)).max? with
  | none =>
    rw [List.max?_eq_none_iff, List.map_eq_nil_iff] at hmax
    rw [hmax] at hp
    cases hp
  | some last =>
    obtain ⟨hmem, hle⟩ := List.max?_eq_some_iff.mp hmax
    obtain ⟨q, hq, rfl⟩ := List.mem_map.mp hmem
    have hroom := h q hq
    have hp := hle p.id (List.mem_map.mpr ⟨p, hp, rfl⟩)
    rw [Option.getD_some, if_neg (Int.ne_of_lt hroom)]
    omega

theorem Distinct.saved {records : List ParserRecord} (h : Distinct records)
    (hroom : HasRoom records)
    (name code stamp : String) : Distinct (saved records name code stamp).2 := by
  unfold ParserStore.saved
  cases hfind : records.find? fun p => p.name == name with
  | none =>
    have hid : nextId records ∉ records.map (·.id) := by
      intro hmem
      obtain ⟨p, hp, heq⟩ := List.mem_map.mp hmem
      exact Int.ne_of_lt (lt_nextId hroom p hp) heq
    have hname : name ∉ records.map (·.name) := by simpa using hfind
    dsimp only
    constructor <;> rw [List.map_append, List.map_singleton, ← List.concat_eq_append]
    · exact h.names.concat hname
    · exact h.ids.concat hid
  | some p =>
    let change (p : ParserRecord) : ParserRecord := { p with code, updated := stamp }
    have hnames := (map_changeFirst_eq_iff (·.name) change hfind).mpr rfl
    have hids := (map_changeFirst_eq_iff (·.id) change hfind).mpr rfl
    exact ⟨hnames ▸ h.names, hids ▸ h.ids⟩

theorem Distinct.eraseP {records : List ParserRecord} (h : Distinct records)
    (picks : ParserRecord → Bool) : Distinct (records.eraseP picks) :=
  ⟨h.names.sublist (List.eraseP_sublist.map _), h.ids.sublist (List.eraseP_sublist.map _)⟩

/-- The record of a name is the one of its id. -/
theorem eraseP_id_eq {records : List ParserRecord} (h : (records.map (·.id)).Nodup) {name : String}
    {p : ParserRecord} (hp : (records.find? fun p => p.name == name) = some p) :
    (records.eraseP fun q => q.id == p.id) = records.eraseP fun q => q.name == name := by
  induction records with
  | nil => rfl
  | cons q rest ih =>
    obtain ⟨hq, hrest⟩ := List.nodup_cons.mp h
    by_cases hname : q.name = name
    · rw [List.find?_cons_of_pos (by simpa using hname)] at hp
      cases hp
      rw [List.eraseP_cons_of_pos (by simp), List.eraseP_cons_of_pos (by simpa using hname)]
    · rw [List.find?_cons_of_neg (by simpa using hname)] at hp
      have hid : q.id ≠ p.id := by
        intro heq
        exact hq (List.mem_map.mpr ⟨p, List.mem_of_find?_eq_some hp, heq.symm⟩)
      rw [List.eraseP_cons_of_neg (by simpa using hid),
        List.eraseP_cons_of_neg (by simpa using hname), ih hrest hp]

/-- Deleting by the id of a name does to the names with their source texts what removing does to the
parsers. -/
theorem delete_idOf {s : ParserStore} (h : Distinct s.records) {name : String} {id : Int}
    (hid : s.idOf? name = some id) (files : Files) (now : Int) :
    Distinct (s.delete id files now).2.1.records ∧
      (s.delete id files now).2.1.sources = Named.drop name s.sources := by
  obtain ⟨p, hp, rfl⟩ := Option.map_eq_some_iff.mp hid
  rw [store_delete, eraseP_id_eq h.ids hp]
  refine ⟨h.eraseP _, ?_⟩
  rw [sources, sources, Named.drop, List.eraseP_map]
  rfl

end ParserStore

end TraceViewer
