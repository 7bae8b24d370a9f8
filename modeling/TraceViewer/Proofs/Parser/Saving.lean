import TraceViewer.Parser.Store
import TraceViewer.Proofs.Files.Writing
import TraceViewer.Proofs.Parser.Filing

/-!
# Memory and file of the saved parsers

A call changes the records in memory and then writes them.  `ParserStore.perform_cases` says all
that it can do.  Where it succeeds, the file gives back the records in memory, after any calls;
where it fails, the file gives what it gave before, and memory has changed without it.
-/

namespace TraceViewer.ParserStore

/-! ## 1. Calls -/

/-- A change of the saved parsers. -/
inductive Call where
  | upsert (name code : String)
  | delete (id : Int)

/-- The records that a call leaves in memory. -/
def Call.applied (records : List ParserRecord) (now : Int) : Call → List ParserRecord
  | .upsert name code => (saved records name code (Time.stamp now)).2
  | .delete id => records.eraseP fun p => p.id == id

/-- Makes a call, and tells whether it succeeded. -/
def perform (s : ParserStore) (files : Files) (now : Int) :
    Call → Except TransferFault Unit × ParserStore × Files
  | .upsert name code => (s.upsert name code files now).map (Except.map fun _ => ()) id
  | .delete id => (s.delete id files now).map (Except.map fun _ => ()) fun rest => rest

/-- Makes one call after another, each at its time, whether or not they succeed. -/
def performAll (s : ParserStore) (files : Files) : List (Int × Call) → ParserStore × Files
  | [] => (s, files)
  | (now, call) :: rest =>
    let (_, s, files) := s.perform files now call
    s.performAll files rest

variable {s : ParserStore} {files : Files} {now : Int}

/-- Only deleting a record that is not there is refused before anything is done. Else the records
are changed in memory and written. -/
theorem perform_cases (s : ParserStore) (files : Files) (now : Int) (call : Call) :
    (∃ id, call = .delete id ∧ (∀ p ∈ s.records, p.id ≠ id) ∧
      s.perform files now call = (.error (.noRecord id), s, files)) ∨
    let s' := { s with records := call.applied s.records now }
    s.perform files now call = ((s'.write files now).1, s', (s'.write files now).2) := by
  cases call with
  | upsert name code =>
    right
    unfold Call.applied
    dsimp only
    rw [perform, upsert]
    generalize saved s.records name code (Time.stamp now) = outcome
    obtain ⟨id, records⟩ := outcome
    dsimp only
    generalize write _ files now = written
    obtain ⟨_ | _, files⟩ := written <;> rfl
  | delete id =>
    unfold Call.applied
    dsimp only
    rw [perform, delete]
    cases hfind : s.records.find? fun p => p.id == id with
    | none => exact .inl ⟨id, rfl, fun p hp => by simpa using List.find?_eq_none.mp hfind p hp, rfl⟩
    | some record =>
      right
      dsimp only
      generalize write _ files now = written
      obtain ⟨_ | _, files⟩ := written <;> rfl

/-- What a call does to the records in memory does not depend on its success. -/
theorem store_perform (s : ParserStore) (files : Files) (now : Int) (call : Call) :
    (s.perform files now call).2.1 = { s with records := call.applied s.records now } := by
  rcases s.perform_cases files now call with ⟨id, rfl, hid, h⟩ | h
  · have hnone : (s.records.eraseP fun p => p.id == id) = s.records :=
      List.eraseP_of_forall_not fun p hp => by simpa using hid p hp
    rw [h]
    show s = { s with records := s.records.eraseP fun p => p.id == id }
    rw [hnone]
  · rw [h]

theorem store_upsert (s : ParserStore) (name code : String) (files : Files) (now : Int) :
    (s.upsert name code files now).2.1 =
      { s with records := (saved s.records name code (Time.stamp now)).2 } :=
  s.store_perform files now (.upsert name code)

theorem store_delete (s : ParserStore) (id : Int) (files : Files) (now : Int) :
    (s.delete id files now).2.1 = { s with records := s.records.eraseP fun p => p.id == id } :=
  s.store_perform files now (.delete id)

/-! ## 2. Ids of 64 bits -/

theorem nextId_fits {records : List ParserRecord} (h : ∀ p ∈ records, p.Fits) :
    -0x8000000000000000 ≤ nextId records ∧ nextId records ≤ 0x7fffffffffffffff := by
  have hlast : ∀ last, (records.map (·.id)).max? = some last →
      -0x8000000000000000 ≤ last ∧ last ≤ 0x7fffffffffffffff := by
    intro last hmax
    obtain ⟨p, hp, rfl⟩ := List.mem_map.mp (List.max?_mem hmax)
    exact h p hp
  unfold nextId
  dsimp only
  cases hmax : (records.map (·.id)).max? with
  | none => decide
  | some last =>
    have := hlast last hmax
    rw [Option.getD_some]
    split <;> omega

/-- Changing a record keeps what holds of all records and of the changed one. -/
theorem forall_mem_changeFirst {P : ParserRecord → Prop} {picks : ParserRecord → Bool}
    {change : ParserRecord → ParserRecord} {records : List ParserRecord}
    (h : ∀ p ∈ records, P p) (hchange : ∀ p, P p → P (change p)) :
    ∀ p ∈ changeFirst picks change records, P p := by
  induction records with
  | nil => exact h
  | cons q rest ih =>
    obtain ⟨hq, hrest⟩ := List.forall_mem_cons.mp h
    rw [changeFirst]
    split
    · exact List.forall_mem_cons.mpr ⟨hchange q hq, hrest⟩
    · exact List.forall_mem_cons.mpr ⟨hq, ih hrest⟩

theorem applied_fits {records : List ParserRecord} (h : ∀ p ∈ records, p.Fits) (now : Int)
    (call : Call) : ∀ p ∈ call.applied records now, p.Fits := by
  cases call with
  | upsert name code =>
    rw [Call.applied, saved]
    split
    · exact forall_mem_changeFirst h fun p hp => hp
    · have hnew : (⟨nextId records, name, code, Time.stamp now, Time.stamp now⟩ :
          ParserRecord).Fits := nextId_fits h
      exact List.forall_mem_append.mpr ⟨h, List.forall_mem_singleton.mpr hnew⟩
  | delete id => exact fun p hp => h p (List.mem_of_mem_eraseP hp)

theorem path_perform (s : ParserStore) (files : Files) (now : Int) (call : Call) :
    (s.perform files now call).2.1.path = s.path := by
  rw [store_perform]

theorem fits_perform (h : ∀ p ∈ s.records, p.Fits) (files : Files) (now : Int) (call : Call) :
    ∀ p ∈ (s.perform files now call).2.1.records, p.Fits := by
  rw [store_perform]
  exact applied_fits h now call

/-! ## 3. What the file gives back -/

/-- A file is written whole, or what can be read in it stays. -/
theorem write_cases {path : String} (hpath : s.path = some path) (files : Files) (now : Int) :
    (∃ files', s.write files now = (.ok (), files') ∧
      files'.readText path = .ok (ParserRecord.fileText s.records)) ∨
    ∃ fault files', s.write files now = (.error fault, files') ∧
      files'.readText path = files.readText path := by
  unfold write
  rw [hpath]
  dsimp only
  cases hparents : files.makeParents path with
  | error fault => exact .inr ⟨_, files, rfl, rfl⟩
  | ok furnished =>
    dsimp only
    cases hwrite : furnished.writeText path (ParserRecord.fileText s.records) now with
    | error fault => exact .inr ⟨_, furnished, rfl, Files.readText_makeParents hparents⟩
    | ok written => exact .inl ⟨written, rfl, Files.readText_writeText hwrite⟩

theorem load_of_fileText {path : String} {records : List ParserRecord}
    (hfits : ∀ p ∈ records, p.Fits)
    (h : files.readText path = .ok (ParserRecord.fileText records)) :
    load (some path) files = .ok { path := some path, records } := by
  unfold load
  dsimp only
  rw [h]
  dsimp only
  rw [ParserRecord.ofFile?_fileText hfits]

/-- A call that succeeds writes the records that it leaves in memory, and one that fails nothing. -/
theorem readText_perform {path : String} (hpath : s.path = some path) (files : Files) (now : Int)
    (call : Call) :
    (s.perform files now call).1.isOk = true ∧ (s.perform files now call).2.2.readText path =
        .ok (ParserRecord.fileText (call.applied s.records now)) ∨
      (s.perform files now call).1.isOk = false ∧
        (s.perform files now call).2.2.readText path = files.readText path := by
  rcases s.perform_cases files now call with ⟨id, -, -, heq⟩ | heq
  · rw [heq]
    exact .inr ⟨rfl, rfl⟩
  · let s' : ParserStore := { s with records := call.applied s.records now }
    have hpath' : s'.path = some path := hpath
    rw [heq]
    rcases write_cases hpath' files now with ⟨files', hwrite, hread⟩ |
      ⟨fault, files', hwrite, hread⟩
    · rw [hwrite]
      exact .inl ⟨rfl, hread⟩
    · rw [hwrite]
      exact .inr ⟨rfl, hread⟩

/-- A call that succeeds leaves the same records in memory and in the file. -/
theorem load_perform {path : String} (hpath : s.path = some path) (hfits : ∀ p ∈ s.records, p.Fits)
    {call : Call} (h : (s.perform files now call).1.isOk) :
    load (some path) (s.perform files now call).2.2 = .ok (s.perform files now call).2.1 := by
  rcases readText_perform hpath files now call with ⟨-, hread⟩ | ⟨herror, -⟩
  · rw [load_of_fileText (applied_fits hfits now call) hread, store_perform, hpath]
  · rw [herror] at h
    cases h

/-- What is saved is what is loaded: after any calls, each at its time, the next one that succeeds
leaves a file that gives back the records in memory, in their order and as they are. -/
theorem load_performAll (s : ParserStore) {path : String} (hpath : s.path = some path)
    (hfits : ∀ p ∈ s.records, p.Fits) (files : Files) (calls : List (Int × Call)) (now : Int)
    (call : Call) :
    let (s', files') := s.performAll files calls
    (s'.perform files' now call).1.isOk →
      load (some path) (s'.perform files' now call).2.2 = .ok (s'.perform files' now call).2.1 := by
  induction calls generalizing s files with
  | nil => exact load_perform hpath hfits
  | cons first rest ih =>
    obtain ⟨time, earlier⟩ := first
    exact ih _ ((path_perform ..).trans hpath) (fits_perform hfits files time earlier) _

/-- A record of text that has to be escaped is saved, another one too, and both are deleted. -/
theorem load_emptied :
    let s : ParserStore := { path := some "saved/parsers.json" }
    let calls : List (Int × Call) :=
      [(0, .upsert "\"\\\n" "\x01"), (60, .upsert "\"\\\n" ""), (60, .upsert "é" "x => 1"),
        (90, .delete 1)]
    let (s', files') := s.performAll {} calls
    s'.records = [⟨2, "é", "x => 1", "1970-01-01T00:01:00Z", "1970-01-01T00:01:00Z"⟩] ∧
      (s'.perform files' 90 (.delete 2)).2.1.records = [] ∧
      load (some "saved/parsers.json") (s'.perform files' 90 (.delete 2)).2.2 =
        .ok (s'.perform files' 90 (.delete 2)).2.1 := by
  intro s calls
  refine ⟨by decide +kernel, by decide +kernel, ?_⟩
  have hfits : ∀ p ∈ s.records, p.Fits := by decide
  exact load_performAll s rfl hfits {} calls 90 (.delete 2) (by decide +kernel)

/-! ## 4. Calls that fail -/

theorem load_congr {path : String} {files' : Files}
    (h : files'.readText path = files.readText path) :
    load (some path) files' = load (some path) files := by
  unfold load
  dsimp only
  rw [h]

theorem load_perform_of_error {call : Call} (h : (s.perform files now call).1.isOk = false) :
    load s.path (s.perform files now call).2.2 = load s.path files := by
  cases hpath : s.path with
  | none => rfl
  | some path =>
    rcases readText_perform hpath files now call with ⟨hok, -⟩ | ⟨-, hread⟩
    · rw [h] at hok
      cases hok
    · exact load_congr hread

/-- The call asks for what there is: the record of the name with the code and this very time, or no
record of the id. -/
def Call.IsIdle (records : List ParserRecord) (now : Int) : Call → Prop
  | .upsert name code => ∃ p, (records.find? fun p => p.name == name) = some p ∧
      p.code = code ∧ p.updated = Time.stamp now
  | .delete id => ∀ p ∈ records, p.id ≠ id

/-- As far as a function looks, changing the first record that is picked leaves the records as they
are exactly when it leaves that one. -/
theorem map_changeFirst_eq_iff {α : Type} (f : ParserRecord → α)
    (change : ParserRecord → ParserRecord) {picks : ParserRecord → Bool}
    {records : List ParserRecord} {p : ParserRecord} (h : records.find? picks = some p) :
    (changeFirst picks change records).map f = records.map f ↔ f (change p) = f p := by
  induction records with
  | nil => cases h
  | cons q rest ih =>
    rw [changeFirst]
    by_cases hq : picks q = true
    · rw [List.find?_cons_of_pos hq] at h
      cases h
      rw [if_pos hq, List.map_cons, List.map_cons, List.cons_eq_cons, eq_self, and_true]
    · rw [List.find?_cons_of_neg hq] at h
      rw [if_neg hq, List.map_cons, List.map_cons, List.cons_eq_cons, eq_self, true_and, ih h]

theorem applied_eq_self_iff (records : List ParserRecord) (now : Int) (call : Call) :
    call.applied records now = records ↔ call.IsIdle records now := by
  cases call with
  | upsert name code =>
    rw [Call.applied, Call.IsIdle, saved]
    cases hfind : records.find? fun p => p.name == name with
    | none => simp
    | some p =>
      have hiff := map_changeFirst_eq_iff id
        (fun p => { p with code, updated := Time.stamp now }) hfind
      rw [List.map_id, List.map_id, id, id] at hiff
      dsimp only
      rw [hiff]
      obtain ⟨id, name, code, created, updated⟩ := p
      simp [eq_comm]
  | delete id => simp [Call.applied, Call.IsIdle]

/-- A call that fails is not undone: the file gives what it gave before, and memory is as after a
success, so that they part unless the call asked for what there was. -/
theorem unsaved_of_error {call : Call} (h : (s.perform files now call).1.isOk = false) :
    let (_, s', files') := s.perform files now call
    load s.path files' = load s.path files ∧ s'.records = call.applied s.records now ∧
      (s'.records = s.records ↔ call.IsIdle s.records now) := by
  have hrecords : (s.perform files now call).2.1.records = call.applied s.records now := by
    rw [store_perform]
  have hkept : (s.perform files now call).2.1.records = s.records ↔ call.IsIdle s.records now := by
    rw [hrecords]
    exact applied_eq_self_iff s.records now call
  exact ⟨load_perform_of_error h, hrecords, hkept⟩

/-- A path with a slash at its end names a folder, which cannot be written but counts as a missing
file as long as it is not there. -/
theorem ahead_of_missing_folder :
    let s : ParserStore := { path := some "new/" }
    let call : Call := .upsert "a" "x => 1"
    let (outcome, s', files') := s.perform {} 0 call
    outcome.isOk = false ∧ load s.path files' = load s.path {} ∧
      s'.records = call.applied s.records 0 ∧
      (s'.records = s.records ↔ call.IsIdle s.records 0) := by
  intro s call
  have h : (s.perform {} 0 call).1.isOk = false := by decide +kernel
  exact ⟨h, unsaved_of_error h⟩

/-- Saving is not atomic: the new record is in memory, and not in the file. -/
theorem upsert_not_atomic :
    ¬ ∀ (s : ParserStore) (name code : String) (files : Files) (now : Int),
      (s.upsert name code files now).1.isOk = false →
        (s.upsert name code files now).2.1.records = s.records := by
  intro h
  have hkept := h { path := some "new/" } "a" "x => 1" {} 0 (by decide +kernel)
  exact absurd hkept (by decide +kernel)

end TraceViewer.ParserStore
