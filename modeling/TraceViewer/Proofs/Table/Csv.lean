import Mathlib.Data.List.Basic
import TraceViewer.Table.View

/-!
# Reading comma-separated values back

A reader of comma-separated values, and what it reads in the text that a table is exported as: the
columns, and the cells of the rows that show.
-/

namespace TraceViewer

namespace Csv

/-! ## 1. A reader -/

/-- The records of a text.  The first argument tells whether quotes are open; then come what was
read of the present field and the fields before it in its record.  A record counts once it has
ended. -/
def readFrom : Bool → List Char → List String → List Char → List (List String)
  | _, _, _, [] => []
  | true, cs, fields, '"' :: '"' :: rest => readFrom true (cs ++ ['"']) fields rest
  | true, cs, fields, '"' :: rest => readFrom false cs fields rest
  | true, cs, fields, c :: rest => readFrom true (cs ++ [c]) fields rest
  | false, cs, fields, '"' :: rest => readFrom true cs fields rest
  | false, cs, fields, ',' :: rest => readFrom false [] (fields ++ [.ofList cs]) rest
  | false, cs, fields, '\n' :: rest => (fields ++ [.ofList cs]) :: readFrom false [] [] rest
  | false, cs, fields, c :: rest => readFrom false (cs ++ [c]) fields rest

def read (text : String) : List (List String) := readFrom false [] [] text.toList

/-! ## 2. Fields -/

theorem doubleQuotes_cons_quote (text : List Char) :
    doubleQuotes ('"' :: text) = '"' :: '"' :: doubleQuotes text := by
  simp [doubleQuotes]

theorem doubleQuotes_cons_of_ne {c : Char} (h : c ≠ '"') (text : List Char) :
    doubleQuotes (c :: text) = c :: doubleQuotes text := by
  simp [doubleQuotes, h]

/-- What follows a field does not go on with a quote. -/
def EndsField (rest : List Char) : Prop := rest.head? ≠ some '"'

theorem readFrom_doubleQuotes (cs text rest : List Char) (fields : List String)
    (hrest : EndsField rest) :
    readFrom true cs fields (doubleQuotes text ++ '"' :: rest) =
      readFrom false (cs ++ text) fields rest := by
  induction text generalizing cs with
  | nil =>
    cases rest with
    | nil => simp [doubleQuotes, readFrom]
    | cons c rest =>
      have hc : c ≠ '"' := by simpa [EndsField] using hrest
      simp [doubleQuotes, readFrom, hc]
  | cons c text ih =>
    by_cases hc : c = '"'
    · subst hc
      rw [doubleQuotes_cons_quote, List.cons_append, List.cons_append, readFrom, ih]
      simp
    · rw [doubleQuotes_cons_of_ne hc, List.cons_append, readFrom, ih]
      · simp
      · simp [hc]
      · simp [hc]

theorem readFrom_plain (cs text rest : List Char) (fields : List String)
    (htext : ∀ c ∈ text, isSpecial c = false) :
    readFrom false cs fields (text ++ rest) = readFrom false (cs ++ text) fields rest := by
  induction text generalizing cs with
  | nil => simp
  | cons c text ih =>
    obtain ⟨hc, htext⟩ := List.forall_mem_cons.mp htext
    simp only [isSpecial, Bool.or_eq_false_iff, beq_eq_false_iff_ne] at hc
    rw [List.cons_append, readFrom, ih (cs ++ [c]) htext]
    · simp
    all_goals simp [hc]

/-- A field is read as the text that it was made of. -/
theorem readFrom_field (text : String) (rest : List Char) (fields : List String)
    (hrest : EndsField rest) :
    readFrom false [] fields ((field text).toList ++ rest) =
      readFrom false text.toList fields rest := by
  unfold field
  split
  · have h := readFrom_doubleQuotes [] text.toList rest fields hrest
    simpa [readFrom] using h
  · next hplain =>
    have hany : text.any isSpecial = text.toList.any isSpecial := String.contains_bool_eq
    have htext : ∀ c ∈ text.toList, isSpecial c = false := by
      simpa [hany] using hplain
    exact readFrom_plain [] text.toList rest fields htext

/-! ## 3. Records -/

theorem toList_record_singleton (text : String) :
    (record [text]).toList = (field text).toList ++ ['\n'] := by
  simp [record, Text.join, String.intercalate_singleton]

theorem toList_record_cons (text next : String) (texts : List String) :
    (record (text :: next :: texts)).toList =
      (field text).toList ++ ',' :: (record (next :: texts)).toList := by
  simp [record, Text.join, String.intercalate_cons_cons]

/-- A record is read as its fields, after those that were read before. -/
theorem readFrom_record (text : String) (texts fields : List String) (rest : List Char) :
    readFrom false [] fields ((record (text :: texts)).toList ++ rest) =
      (fields ++ text :: texts) :: readFrom false [] [] rest := by
  induction texts generalizing text fields with
  | nil =>
    rw [toList_record_singleton, List.append_assoc, readFrom_field _ _ _ (by simp [EndsField])]
    simp [readFrom]
  | cons next texts ih =>
    rw [toList_record_cons, List.append_assoc, readFrom_field _ _ _ (by simp [EndsField])]
    simp [readFrom, ih]

/-- Records with fields are read back. -/
theorem read_text (records : List (List String)) (h : ∀ fields ∈ records, fields ≠ []) :
    read (text records) = records := by
  unfold read text
  rw [String.toList_join]
  induction records with
  | nil => rfl
  | cons fields records ih =>
    obtain ⟨hfields, hrecords⟩ := List.forall_mem_cons.mp h
    obtain ⟨text, texts, rfl⟩ := List.exists_cons_of_ne_nil hfields
    rw [List.map_cons, List.flatMap_cons, readFrom_record, ih hrecords]
    rfl

/-- A record without fields is read as one with an empty field. -/
example : read (text [[]]) = [[""]] := rfl

end Csv

/-! ## 4. Tables -/

namespace Table

/-- What is read in an exported table with columns: the columns as they stand, and for each row that
shows a record of its cells in the order of the columns. -/
theorem read_csv (t : Table) (h : t.columns ≠ []) :
    Csv.read t.csv = t.columns :: t.visibleRows.map fun row => t.columns.map row.cell := by
  unfold csv
  apply Csv.read_text
  simp [h]

/-- Events whose texts hold all that means something between fields. -/
def quotedRows : List Event :=
  [[("note", .string "say \"hi\""), ("op, kind", .string "a,b")],
    [("note", .string "cr\rhere"), ("op, kind", .string "two\nlines")],
    [("op, kind", .string "\"")]]

/-- The theorem for fields of every kind, an empty one among them. -/
theorem read_csv_quotedRows :
    let t := ({} : Table).load ["op, kind", "note"] quotedRows
    t.columns ≠ [] ∧ Csv.read t.csv = [["op, kind", "note"], ["a,b", "say \"hi\""],
      ["two\nlines", "cr\rhere"], ["\"", ""]] := by
  have hcolumns : (({} : Table).load ["op, kind", "note"] quotedRows).columns ≠ [] := by
    simp [Table.load]
  refine ⟨hcolumns, ?_⟩
  rw [read_csv _ hcolumns]
  rfl

end Table

end TraceViewer
