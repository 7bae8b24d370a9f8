import TraceViewer.Parser.Record
import TraceViewer.Proofs.Json.Reading

/-!
# Records in their file

The file that records are written to is read as these records, in their order, whatever their names
and source texts hold, and also when there is no record.
-/

namespace TraceViewer

/-- A text is not blank that starts with something else than a blank. -/
theorem Text.isEmpty_trim {s : String} {c : Char} {cs : List Char} (h : s.toList = c :: cs)
    (hc : isBlank c = false) : (trim s).isEmpty = false := by
  have hkept : dropEndBlanks (c :: cs) ≠ [] := by
    intro hnil
    have hblank := List.rdropWhile_eq_nil_iff.mp hnil c List.mem_cons_self
    rw [hc] at hblank
    cases hblank
  unfold trim dropBlanks
  rw [h, List.dropWhile_cons_of_neg (by simp [hc])]
  simpa using hkept

namespace ParserRecord

open Json (Reads memberText laidOut)

/-- The id has 64 bits. -/
def Fits (p : ParserRecord) : Prop := -0x8000000000000000 ≤ p.id ∧ p.id ≤ 0x7fffffffffffffff

instance (p : ParserRecord) : Decidable p.Fits := inferInstanceAs (Decidable (_ ∧ _))

/-- A member that a record needs is read back. -/
theorem reads_member (depth : Nat) {key : String} (hkey : key ∈ memberNames) {v : Json}
    (hv : Reads (Json.scanValue Json.maxNesting) '\x7d' (Json.prettyAt depth v).toList v) :
    Reads scanMember '\x7d' (memberText depth (key, v)) (some (key, v)) := by
  constructor
  · obtain ⟨body, heq, -⟩ := Json.scanString_quote key []
    rw [List.append_nil] at heq
    have htext : memberText depth (key, v) = '"' :: (body ++ ':' :: ' ' ::
        (Json.prettyAt depth v).toList) := by
      rw [memberText, heq]
      rfl
    exact ⟨'"', _, htext, rfl, by decide⟩
  · intro rest hrest
    obtain ⟨body, heq, hbody⟩ :=
      Json.scanString_quote key (':' :: ' ' :: ((Json.prettyAt depth v).toList ++ rest))
    have htext : memberText depth (key, v) ++ rest = '"' :: body := by
      rw [← heq, memberText, List.append_assoc]
      rfl
    have hblank : ∀ c ∈ [' '], Json.isSpace c = true := List.forall_mem_singleton.mpr rfl
    have hspace : Json.skipSpace (' ' :: ((Json.prettyAt depth v).toList ++ rest)) =
        (Json.prettyAt depth v).toList ++ rest :=
      (Json.skipSpace_append hblank _).trans (hv.skipSpace rest)
    have hcontains : memberNames.contains key = true := List.contains_iff_mem.mpr hkey
    rw [htext, scanMember, hbody]
    simp only [Option.bind_eq_bind, Option.bind_some]
    rw [Json.skipSpace_cons rfl]
    show ite _ (Option.bind (Json.scanValue _ (Json.skipSpace (' ' :: _))) _) _ = _
    rw [hspace, if_pos hcontains, hv.read hrest]
    rfl

/-- A record is read back. -/
theorem reads_members (depth : Nat) {p : ParserRecord} (hp : p.Fits) :
    Reads scan ']' (Json.prettyAt depth (.object p.members)).toList p := by
  have hmembers : ∀ m ∈ p.members,
      Reads scanMember '\x7d' (memberText (depth + 1) m) (some m) := by
    have htext {key s : String} (hkey : key ∈ memberNames) :
        Reads scanMember '\x7d' (memberText (depth + 1) (key, .string s)) (some (key, .string s)) :=
      reads_member _ hkey (Json.reads_string _ _ (by decide) s)
    simp only [members, List.forall_mem_cons]
    refine ⟨?_, htext (by decide), htext (by decide), htext (by decide), htext (by decide), nofun⟩
    have hhigh : p.id ≤ 0xffffffffffffffff := Int.le_trans hp.2 (by decide)
    exact reads_member _ (by decide) (Json.reads_whole _ _ rfl (by decide) hp.1 hhigh)
  rw [Json.toList_prettyAt_object]
  constructor
  · exact ⟨'\x7b', _, rfl, rfl, by decide⟩
  · intro rest _
    have hread := Json.scanContainer_laidOut rfl (by decide) (Json.isGap_newline (depth + 1))
      (Json.isGap_newline depth) p.members hmembers rest
    rw [List.cons_append, List.append_assoc, List.singleton_append, scan, hread]
    have hid : id? (.ofInt p.id) = some p.id := by
      simp [id?, Json.ofInt, hp.1, hp.2]
    have hrecord : ofMembers? p.members = some p := by
      show ((some (Json.ofInt p.id)).bind id?).bind _ = some p
      rw [Option.bind_some, hid]
      rfl
    show Option.bind (ofMembers? ((p.members.map some).filterMap fun m => m)) _ = _
    rw [List.filterMap_map, show ((fun m => m) ∘ some : String × Json → _) = some from rfl,
      List.filterMap_some, hrecord]
    rfl

/-- A file gives back the records that were written to it. -/
theorem ofFile?_fileText {records : List ParserRecord} (h : ∀ p ∈ records, p.Fits) :
    ofFile? (fileText records) = some records := by
  have htext : (fileText records).toList = '[' :: (laidOut (Json.newline 1).toList
      (Json.newline 0).toList (fun p => (Json.prettyAt 1 (.object (members p))).toList) records ++
        [']']) := by
    rw [fileText, Json.pretty, Json.toList_prettyAt_array, Json.laidOut_map]
  have hread := Json.scanContainer_laidOut rfl (by decide) (Json.isGap_newline 1)
    (Json.isGap_newline 0) records (fun p hp => reads_members 1 (h p hp)) []
  unfold ofFile?
  rw [Text.isEmpty_trim htext rfl, if_neg Bool.false_ne_true, htext, Json.skipSpace_cons rfl]
  show Option.bind (Json.scanContainer scan ']' _) _ = _
  rw [hread, List.map_id']
  rfl

end ParserRecord

end TraceViewer
