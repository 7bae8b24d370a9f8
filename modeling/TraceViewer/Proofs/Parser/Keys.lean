import Mathlib.Data.List.Infix
import TraceViewer.Proofs.Parser.Distinct

/-!
# The two keys of the saved parsers

Records are saved by their names and deleted by their ids.  Where names and ids are distinct and no
id is the greatest of 64 bits, a call does to one record what it says and nothing to the others,
whether or not the records can be written, and leaves distinct names and ids for the next call
(`ParserStore.performAll_keeps_keys`).
-/

namespace TraceViewer.ParserStore

variable {s : ParserStore} {files : Files} {now : Int} {records : List ParserRecord}
  {name code stamp : String} {id : Int}

/-! ## 1. Saving -/

/-- Where a key is distinct, the first record has another one than those behind it. -/
theorem forall_ne_of_nodup_cons {α : Type} {key : ParserRecord → α} {q : ParserRecord}
    {rest : List ParserRecord} (h : ((q :: rest).map key).Nodup) :
    (∀ p ∈ rest, key q ≠ key p) ∧ (rest.map key).Nodup := by
  obtain ⟨hq, hrest⟩ := List.nodup_cons.mp h
  exact ⟨fun p hp heq => hq (List.mem_map.mpr ⟨p, hp, heq.symm⟩), hrest⟩

/-- Where names are distinct, the first record of a name is the one that has it. -/
theorem find?_name_of_getElem? (h : (records.map (·.name)).Nodup) {i : Nat} {p : ParserRecord}
    (hp : records[i]? = some p) : (records.find? fun q => q.name == p.name) = some p := by
  induction records generalizing i with
  | nil => cases hp
  | cons q rest ih =>
    obtain ⟨hothers, hrest⟩ := forall_ne_of_nodup_cons h
    cases i with
    | zero =>
      cases hp
      exact List.find?_cons_of_pos (beq_self_eq_true p.name)
    | succ i =>
      have hp : rest[i]? = some p := hp
      have hne : q.name ≠ p.name := hothers p (List.mem_of_getElem? hp)
      rw [List.find?_cons_of_neg (by simpa using hne), ih hrest hp]

/-- Where names are distinct, the record that changes by its name stays in its place. -/
theorem changeFirst_eq_set (h : (records.map (·.name)).Nodup) {i : Nat} {p : ParserRecord}
    (hp : records[i]? = some p) (change : ParserRecord → ParserRecord) :
    changeFirst (fun q => q.name == p.name) change records = records.set i (change p) := by
  induction records generalizing i with
  | nil => cases hp
  | cons q rest ih =>
    obtain ⟨hothers, hrest⟩ := forall_ne_of_nodup_cons h
    rw [changeFirst]
    cases i with
    | zero =>
      cases hp
      rw [if_pos (beq_self_eq_true p.name), List.set_cons_zero]
    | succ i =>
      have hp : rest[i]? = some p := hp
      have hne : q.name ≠ p.name := hothers p (List.mem_of_getElem? hp)
      rw [if_neg (by simpa using hne), ih hrest hp, List.set_cons_succ]

/-- What saving a source text under a name makes of the records, and the id that it is saved
under. -/
structure Saves (name code stamp : String) (id : Int) (records records' : List ParserRecord) :
    Prop where
  /-- A known name keeps its id, its place and the time when it was new. -/
  known : ∀ i p, records[i]? = some p → p.name = name →
    p.id = id ∧ records' = records.set i { p with code, updated := stamp }
  /-- A new name comes last, with the greatest id. -/
  fresh : (∀ p ∈ records, p.name ≠ name) →
    (∀ p ∈ records, p.id < id) ∧ records' = records ++ [⟨id, name, code, stamp, stamp⟩]

theorem Distinct.saves (h : Distinct records) (hroom : HasRoom records)
    (name code stamp : String) :
    Saves name code stamp (ParserStore.saved records name code stamp).1 records
      (ParserStore.saved records name code stamp).2 := by
  constructor
  · rintro i p hp rfl
    unfold ParserStore.saved
    rw [find?_name_of_getElem? h.names hp]
    exact ⟨rfl, changeFirst_eq_set h.names hp _⟩
  · intro hnew
    have hnone : (records.find? fun p => p.name == name) = none :=
      List.find?_eq_none.mpr fun p hp => by simpa using hnew p hp
    unfold ParserStore.saved
    rw [hnone]
    exact ⟨lt_nextId hroom, rfl⟩

/-- A changed record is found in its place if it is still one that is picked. -/
theorem find?_changeFirst {picks : ParserRecord → Bool} {change : ParserRecord → ParserRecord}
    {p : ParserRecord} (hfind : records.find? picks = some p) (hchange : picks (change p) = true) :
    (changeFirst picks change records).find? picks = some (change p) := by
  induction records with
  | nil => cases hfind
  | cons q rest ih =>
    rw [changeFirst]
    by_cases hq : picks q = true
    · rw [List.find?_cons_of_pos hq] at hfind
      cases hfind
      rw [if_pos hq, List.find?_cons_of_pos hchange]
    · rw [List.find?_cons_of_neg hq] at hfind
      rw [if_neg hq, List.find?_cons_of_neg hq, ih hfind]

/-- What was just saved is found under its name. -/
theorem idOf?_saved (s : ParserStore) (name code stamp : String) :
    ({ s with records := (saved s.records name code stamp).2 } : ParserStore).idOf? name =
      some (saved s.records name code stamp).1 := by
  unfold idOf? saved
  cases hfind : s.records.find? fun p => p.name == name with
  | none =>
    have hnew : ([⟨nextId s.records, name, code, stamp, stamp⟩] : List ParserRecord).find?
        (fun p => p.name == name) = some ⟨nextId s.records, name, code, stamp, stamp⟩ :=
      List.find?_cons_of_pos (beq_self_eq_true name)
    dsimp only
    rw [List.find?_append, hfind, Option.none_or, hnew, Option.map_some]
  | some p =>
    have hname : p.name = name := by simpa using List.find?_some hfind
    dsimp only
    rw [find?_changeFirst hfind (beq_iff_eq.mpr hname), Option.map_some]

/-- The id is returned where the records could be written. -/
theorem outcome_upsert (s : ParserStore) (name code : String) (files : Files) (now : Int) :
    (s.upsert name code files now).1 = ((s.upsert name code files now).2.1.write files now).1.map
      fun _ => (saved s.records name code (Time.stamp now)).1 := by
  rw [store_upsert]
  unfold upsert
  dsimp only
  generalize write _ files now = written
  obtain ⟨_ | _, _⟩ := written <;> rfl

/-! ## 2. Deleting -/

/-- Where ids are distinct, deleting takes out all that has the id. -/
theorem eraseP_id_eq_filter (h : (records.map (·.id)).Nodup) (id : Int) :
    (records.eraseP fun p => p.id == id) = records.filter fun p => p.id ≠ id := by
  induction records with
  | nil => rfl
  | cons q rest ih =>
    obtain ⟨hothers, hrest⟩ := forall_ne_of_nodup_cons h
    by_cases hid : q.id = id
    · -- no other record of the id is behind the one that is taken out
      have hkeep : ∀ p ∈ rest, p.id ≠ id := fun p hp => hid ▸ (hothers p hp).symm
      rw [List.eraseP_cons_of_pos (by simpa using hid),
        List.filter_cons_of_neg (by simpa using hid),
        List.filter_eq_self.mpr fun p hp => decide_eq_true (hkeep p hp)]
    · rw [List.eraseP_cons_of_neg (by simpa using hid),
        List.filter_cons_of_pos (by simpa using hid), ih hrest]

/-- Only the record of the id is deleted, or there is none and nothing is done. -/
theorem Distinct.deletes (h : Distinct s.records) (id : Int) (files : Files) (now : Int) :
    (∃ p ∈ s.records, p.id = id ∧
        (s.delete id files now).2.1.records = s.records.filter (fun q => q.id ≠ id) ∧
        (s.delete id files now).1 =
          ((s.delete id files now).2.1.write files now).1.map fun _ => p) ∨
      (∀ p ∈ s.records, p.id ≠ id) ∧
        s.delete id files now = (.error (.noRecord id), s, files) := by
  have hrecords : (s.delete id files now).2.1.records = s.records.filter fun q => q.id ≠ id := by
    rw [store_delete]
    exact eraseP_id_eq_filter h.ids id
  cases hfind : s.records.find? fun p => p.id == id with
  | none =>
    have hnone : ∀ p ∈ s.records, p.id ≠ id := by simpa using List.find?_eq_none.mp hfind
    refine .inr ⟨hnone, ?_⟩
    unfold delete
    rw [hfind]
  | some p =>
    have hid : p.id = id := by simpa using List.find?_some hfind
    refine .inl ⟨p, List.mem_of_find?_eq_some hfind, hid, hrecords, ?_⟩
    rw [store_delete]
    unfold delete
    rw [hfind]
    dsimp only
    generalize write _ files now = written
    obtain ⟨_ | _, _⟩ := written <;> rfl

/-! ## 3. Calls one after another -/

theorem Distinct.perform (h : Distinct s.records) (hroom : HasRoom s.records) (files : Files)
    (now : Int) (call : Call) : Distinct (s.perform files now call).2.1.records := by
  rw [store_perform]
  cases call with
  | upsert name code => exact h.saved hroom name code _
  | delete id => exact h.eraseP _

theorem Distinct.afterAll (h : Distinct s.records) {calls : List (Int × Call)}
    (hroom : ∀ before, before <+: calls → HasRoom (s.performAll files before).1.records) :
    Distinct (s.performAll files calls).1.records := by
  induction calls generalizing s files with
  | nil => exact h
  | cons first rest ih =>
    obtain ⟨now, call⟩ := first
    have hstart : HasRoom s.records := hroom [] List.nil_prefix
    refine ih (h.perform hstart files now call) fun before hbefore => ?_
    exact hroom ((now, call) :: before) ((List.cons_prefix_cons).mpr ⟨rfl, hbefore⟩)

/-- After any calls that leave room for ids, names and ids are distinct; the next call saves under
the name's own id or under a new greatest one, which is then the id of the name, or it deletes the
one record of an id, or nothing where there is none.  The files may have changed before that call,
and writing them may fail. -/
theorem performAll_keeps_keys (h : Distinct s.records) (calls : List (Int × Call))
    (hroom : ∀ before, before <+: calls → HasRoom (s.performAll files before).1.records) :
    let t := (s.performAll files calls).1
    Distinct t.records ∧ ∀ (files : Files) (now : Int),
      (∀ name code, let after := t.upsert name code files now
        ∃ id, Saves name code (Time.stamp now) id t.records after.2.1.records ∧
          after.2.1.idOf? name = some id ∧
          after.1 = (after.2.1.write files now).1.map fun _ => id) ∧
      ∀ id, let after := t.delete id files now
        (∃ p ∈ t.records, p.id = id ∧
            after.2.1.records = t.records.filter (fun q => q.id ≠ id) ∧
            after.1 = (after.2.1.write files now).1.map fun _ => p) ∨
          (∀ p ∈ t.records, p.id ≠ id) ∧ after = (.error (.noRecord id), t, files) := by
  intro t
  have hdistinct : Distinct t.records := h.afterAll hroom
  have hlast : HasRoom t.records := hroom calls (List.prefix_refl calls)
  refine ⟨hdistinct, fun files now => ⟨fun name code => ?_, fun id => ?_⟩⟩
  · have hsaves := hdistinct.saves hlast name code (Time.stamp now)
    have hfound := t.idOf?_saved name code (Time.stamp now)
    have hstore := t.store_upsert name code files now
    refine ⟨(ParserStore.saved t.records name code (Time.stamp now)).1, ?_, ?_,
      t.outcome_upsert name code files now⟩
    · rw [hstore]
      exact hsaves
    · rw [hstore]
      exact hfound
  · exact hdistinct.deletes id files now

/-- Records with ids below zero, in a folder that cannot be written. -/
def borrowedRecords : ParserStore where
  path := some "new/"
  records := [⟨-3, "shape", "x => 1", "1970-01-01T00:00:00Z", "1970-01-01T00:00:00Z"⟩,
    ⟨-7, "rank", "x => 2", "1970-01-01T00:00:00Z", "1970-01-01T00:00:00Z"⟩]

/-- Where the greatest id was deleted it is given anew, here to the same name. -/
theorem performAll_keeps_keys_borrowedRecords :
    let calls : List (Int × Call) := [(60, .upsert "rank" "x => 3"), (90, .delete (-3))]
    let t := (borrowedRecords.performAll {} calls).1
    let after := t.upsert "shape" "x => 4" {} 120
    t.records = [⟨-7, "rank", "x => 3", "1970-01-01T00:00:00Z", "1970-01-01T00:01:00Z"⟩] ∧
      Distinct t.records ∧ after.1.isOk = false ∧ after.2.1.idOf? "shape" = some (-6) ∧
      Saves "shape" "x => 4" (Time.stamp 120) (-6) t.records after.2.1.records ∧
      t.delete (-3) {} 120 = (.error (.noRecord (-3)), t, {}) := by
  intro calls t after
  have hdistinct : Distinct borrowedRecords.records := ⟨by decide, by decide⟩
  have hroom : ∀ before ∈ calls.inits,
      HasRoom (borrowedRecords.performAll {} before).1.records := by
    decide +kernel
  have hrecords : t.records =
      [⟨-7, "rank", "x => 3", "1970-01-01T00:00:00Z", "1970-01-01T00:01:00Z"⟩] := by
    decide +kernel
  have hfound : after.2.1.idOf? "shape" = some (-6) := by decide +kernel
  obtain ⟨hafter, hnext⟩ := performAll_keeps_keys hdistinct calls fun before hbefore =>
    hroom before (by rwa [List.mem_inits])
  obtain ⟨hupsert, hdelete⟩ := hnext {} 120
  obtain ⟨id, hsaves, hid, -⟩ := hupsert "shape" "x => 4"
  obtain rfl : -6 = id := Option.some.inj (hfound.symm.trans hid)
  refine ⟨hrecords, hafter, by decide +kernel, hfound, hsaves, ?_⟩
  refine ((hdelete (-3)).resolve_left ?_).2
  rintro ⟨p, hp, hpid, -⟩
  rw [show (borrowedRecords.performAll {} calls).1.records = _ from hrecords] at hp
  cases List.mem_singleton.mp hp
  cases hpid

end TraceViewer.ParserStore
