import Mathlib.Data.List.Induction
import Mathlib.Data.List.Sort
import Mathlib.Data.Nat.Digits.Defs
import TraceViewer.Trace.Columns

/-!
# The columns of events

Which fields are columns and in which order (`Columns.ofEvents_isProjection`).  The names of all
fields come in a list without doubles in the order of their texts, so that nothing is left of the
order of the events; the columns are this list in three parts, of which the arguments are sorted
again, by their numbers.
-/

namespace TraceViewer

/-! ## 1. Texts by their bytes -/

namespace Text

/-- The bytes of a text in UTF-8. -/
def bytes (s : String) : List UInt8 := s.toUTF8.data.toList

theorem bytes_eq (s : String) : bytes s = s.toList.flatMap String.utf8EncodeChar := by
  have htext : String.toByteArray (.ofList s.toList) = s.toList.utf8Encode :=
    String.toByteArray_ofList
  rw [String.ofList_toList] at htext
  show s.toByteArray.data.toList = _
  rw [htext]
  exact List.toList_data_toByteArray

/-- Of two characters the lesser one has the lesser bytes, whatever follows. -/
theorem utf8EncodeChar_append_lt {c d : Char} (h : c < d) (xs ys : List UInt8) :
    String.utf8EncodeChar c ++ xs < String.utf8EncodeChar d ++ ys := by
  have hlt : c.val.toNat < d.val.toNat := UInt32.lt_iff_toNat_lt.mp h
  have hmax : d.val.toNat < 0x110000 := by
    rcases d.valid with h | ⟨-, h⟩
    · exact Nat.lt_trans h (by decide)
    · exact h
  have hdiv (k : Nat) : k / 64 / 64 = k / 4096 ∧ k / 4096 / 64 = k / 262144 := by omega
  unfold String.utf8EncodeChar
  dsimp only
  generalize c.val.toNat = m at hlt ⊢
  generalize d.val.toNat = n at hlt hmax ⊢
  have hm := hdiv m
  have hn := hdiv n
  -- by how many bytes each of the two has
  split_ifs
  all_goals
    simp (disch := omega) only [List.cons_append, List.nil_append, List.cons_lt_cons_iff,
      UInt8.lt_iff_toNat_lt, ← UInt8.toNat_inj, UInt8.toNat_ofNat', Nat.mod_eq_of_lt]
    omega

theorem utf8EncodeChar_ne_nil (c : Char) : String.utf8EncodeChar c ≠ [] := by
  unfold String.utf8EncodeChar
  dsimp only
  split_ifs <;> exact List.cons_ne_nil _ _

/-- Texts are in the order of their bytes. -/
theorem bytes_lt_of_lt {s t : String} (h : s < t) : bytes s < bytes t := by
  rw [bytes_eq, bytes_eq]
  have hlex : List.Lex (· < ·) s.toList t.toList := String.lt_iff.mp h
  generalize s.toList = cs at hlex
  generalize t.toList = ds at hlex
  induction hlex with
  | @nil d ds =>
    obtain ⟨b, bs, hbytes⟩ := List.exists_cons_of_ne_nil (utf8EncodeChar_ne_nil d)
    rw [List.flatMap_cons, hbytes]
    exact List.nil_lt_cons b _
  | rel hcd => exact utf8EncodeChar_append_lt hcd _ _
  | cons _ ih => exact List.append_left_lt ih

end Text

/-! ## 2. Names in order -/

namespace Fields

variable {α : Type} {name other : String} {value : α} {fields : Fields α}

theorem names_cons (f : String × α) (rest : Fields α) : names (f :: rest) = f.1 :: names rest := rfl

theorem mem_names_set :
    other ∈ names (set name value fields) ↔ other = name ∨ other ∈ names fields := by
  induction fields with
  | nil => exact List.mem_cons
  | cons f rest ih =>
    obtain ⟨n, v⟩ := f
    unfold set
    split
    · exact List.mem_cons
    · split
      · next hname =>
        obtain rfl : name = n := eq_of_beq hname
        rw [names_cons, names_cons, List.mem_cons, ← or_assoc, or_self]
      · rw [names_cons, names_cons, List.mem_cons, List.mem_cons, ih, or_left_comm]

theorem names_set_sorted (name : String) (value : α) (h : (names fields).Pairwise (· < ·)) :
    (names (set name value fields)).Pairwise (· < ·) := by
  induction fields with
  | nil => exact List.pairwise_singleton _ _
  | cons f rest ih =>
    obtain ⟨n, v⟩ := f
    obtain ⟨hn, hrest⟩ := List.pairwise_cons.mp h
    unfold set
    split
    · next hlt =>
      refine List.pairwise_cons.mpr ⟨fun m hm => ?_, h⟩
      rcases List.mem_cons.mp hm with rfl | hm
      · exact hlt
      · exact String.lt_trans hlt (hn m hm)
    · next hlt =>
      split
      · next hname =>
        obtain rfl : name = n := eq_of_beq hname
        exact h
      · next hname =>
        have hgt : n < name := by
          rcases Std.lt_trichotomy name n with hless | heq | hgreater
          · exact absurd hless hlt
          · exact absurd (beq_iff_eq.mpr heq) hname
          · exact hgreater
        refine List.pairwise_cons.mpr ⟨fun m hm => ?_, ih hrest⟩
        rcases mem_names_set.mp hm with rfl | hm
        · exact hgt
        · exact hn m hm

end Fields

namespace Columns

/-- The names that a row adds to those that were seen before. -/
theorem names_seen (row : Event) {seen : Fields Unit} (h : (Fields.names seen).Pairwise (· < ·)) :
    let after := row.foldl (fun seen f => Fields.set f.1 () seen) seen
    (Fields.names after).Pairwise (· < ·) ∧
      ∀ name, name ∈ Fields.names after ↔ name ∈ Fields.names seen ∨ name ∈ Fields.names row := by
  induction row generalizing seen with
  | nil => exact ⟨h, fun name => (or_iff_left List.not_mem_nil).symm⟩
  | cons f rest ih =>
    obtain ⟨hsorted, hmem⟩ := ih (Fields.names_set_sorted f.1 () h)
    refine ⟨hsorted, fun name => (hmem name).trans ?_⟩
    rw [Fields.mem_names_set, Fields.names_cons, List.mem_cons, or_assoc, or_left_comm]

/-- The event has a field of the name. -/
def HasField (rows : List Event) (name : String) : Prop := ∃ row ∈ rows, name ∈ Fields.names row

theorem hasField_cons {row : Event} {rows : List Event} {name : String} :
    HasField (row :: rows) name ↔ name ∈ Fields.names row ∨ HasField rows name :=
  List.exists_mem_cons_iff _ row rows

/-- The names of all fields come in order, each once, in whatever order the events are. -/
theorem fieldNames_spec (rows : List Event) :
    (fieldNames rows).Pairwise (· < ·) ∧ ∀ name, name ∈ fieldNames rows ↔ HasField rows name := by
  have hfold (seen : Fields Unit) (h : (Fields.names seen).Pairwise (· < ·)) :
      let after := rows.foldl
        (fun seen row => row.foldl (fun seen f => Fields.set f.1 () seen) seen) seen
      (Fields.names after).Pairwise (· < ·) ∧
        ∀ name, name ∈ Fields.names after ↔ name ∈ Fields.names seen ∨ HasField rows name := by
    induction rows generalizing seen with
    | nil => exact ⟨h, fun name => (or_iff_left fun ⟨_, hrow, _⟩ => List.not_mem_nil hrow).symm⟩
    | cons row rest ih =>
      obtain ⟨hseen, hrow⟩ := names_seen row h
      obtain ⟨hsorted, hmem⟩ := ih _ hseen
      refine ⟨hsorted, fun name => (hmem name).trans ?_⟩
      rw [hrow, hasField_cons, or_assoc]
  obtain ⟨hsorted, hmem⟩ := hfold [] .nil
  exact ⟨hsorted, fun name => (hmem name).trans (or_iff_right List.not_mem_nil)⟩

theorem fieldNames_congr {rows rows' : List Event}
    (h : ∀ name, HasField rows' name ↔ HasField rows name) :
    fieldNames rows' = fieldNames rows := by
  obtain ⟨hsorted, hmem⟩ := fieldNames_spec rows
  obtain ⟨hsorted', hmem'⟩ := fieldNames_spec rows'
  have : Std.Antisymm (α := String) (· < ·) := ⟨fun a b hab hba => absurd hba (String.lt_asymm hab)⟩
  have : Std.Irrefl (α := String) (· < ·) := ⟨String.lt_irrefl⟩
  refine hsorted'.eq_of_mem_iff hsorted fun name => ?_
  rw [hmem, hmem', h]

/-! ## 3. Arguments and their numbers -/

/-- The name is "arg" and decimal digits, of which the number fits 64 bits. -/
def IsArgument (name : String) (n : Nat) : Prop :=
  ∃ digits : List Nat, digits ≠ [] ∧ (∀ d ∈ digits, d < 10) ∧
    name = "arg" ++ .ofList (digits.map Nat.digitChar) ∧
    n = Nat.ofDigits 10 digits.reverse ∧ n ≤ 0xffffffffffffffff

theorem digitChar_toNat {c : Char} (h : c.isDigit = true) :
    c.toNat - '0'.toNat < 10 ∧ Nat.digitChar (c.toNat - '0'.toNat) = c := by
  have hrange : 48 ≤ c.toNat ∧ c.toNat ≤ 57 := by
    delta Char.isDigit at h
    simp only [Bool.and_eq_true, decide_eq_true_eq, ge_iff_le, UInt32.le_iff_toNat_le] at h
    exact h
  obtain ⟨hlow, hhigh⟩ := hrange
  have hdigit : ∀ d < 10, Nat.digitChar (d + 48 - 48) = Char.ofNat (d + 48) := by decide
  have hc := hdigit (c.toNat - 48) (by omega)
  rw [Nat.sub_add_cancel hlow, Char.ofNat_toNat] at hc
  exact ⟨by show c.toNat - 48 < 10; omega, hc⟩

theorem toNat_digitChar : ∀ d < 10, (Nat.digitChar d).toNat - '0'.toNat = d := by decide

theorem foldl_digits {digits : List Nat} (h : ∀ d ∈ digits, d < 10) :
    (digits.map Nat.digitChar).foldl (fun n c => n * 10 + (c.toNat - '0'.toNat)) 0 =
      Nat.ofDigits 10 digits.reverse := by
  induction digits using List.reverseRecOn with
  | nil => rfl
  | append_singleton digits d ih =>
    obtain ⟨hdigits, hd⟩ := List.forall_mem_append.mp h
    have hd : d < 10 := hd d (List.mem_singleton_self d)
    rw [List.map_append, List.foldl_append, ih hdigits, List.reverse_append, List.reverse_singleton,
      List.singleton_append, Nat.ofDigits_cons, List.map_singleton, List.foldl_cons, List.foldl_nil,
      toNat_digitChar d hd]
    omega

theorem exists_digits {cs : List Char} (h : ∀ c ∈ cs, c.isDigit = true) :
    ∃ digits : List Nat, (∀ d ∈ digits, d < 10) ∧ cs = digits.map Nat.digitChar := by
  refine ⟨cs.map fun c => c.toNat - '0'.toNat, ?_, ?_⟩
  · intro d hd
    obtain ⟨c, hc, rfl⟩ := List.mem_map.mp hd
    exact (digitChar_toNat (h c hc)).1
  · rw [List.map_map]
    exact (List.map_id cs).symm.trans
      (List.map_congr_left fun c hc => (digitChar_toNat (h c hc)).2.symm)

theorem argument?_arg {digits : List Nat} (hdigits : ∀ d ∈ digits, d < 10) :
    argument? ("arg" ++ .ofList (digits.map Nat.digitChar)) =
      if digits ≠ [] ∧ Nat.ofDigits 10 digits.reverse ≤ 0xffffffffffffffff then
        some (Nat.ofDigits 10 digits.reverse)
      else none := by
  have hchars : ("arg" ++ String.ofList (digits.map Nat.digitChar)).toList =
      'a' :: 'r' :: 'g' :: digits.map Nat.digitChar := by
    simp only [String.toList_append, String.toList_ofList]
    rfl
  have hall : (digits.map Nat.digitChar).all Char.isDigit = true := by
    rw [List.all_eq_true]
    intro c hc
    obtain ⟨d, hd, rfl⟩ := List.mem_map.mp hc
    rw [Nat.isDigit_digitChar]
    exact decide_eq_true (hdigits d hd)
  unfold argument?
  rw [hchars]
  simp only [hall, foldl_digits hdigits, Number.maxSize]
  simp

/-- An argument's column has the number of the digits in its name. -/
theorem argument?_eq_some_iff {name : String} {n : Nat} :
    argument? name = some n ↔ IsArgument name n := by
  constructor
  · intro h
    have hname : ∃ digits : List Nat, (∀ d ∈ digits, d < 10) ∧
        name = "arg" ++ .ofList (digits.map Nat.digitChar) := by
      unfold argument? at h
      split at h
      · next cs hname =>
        dsimp only at h
        split at h
        · next hok =>
          simp only [Bool.and_eq_true, List.all_eq_true] at hok
          obtain ⟨digits, hdigits, rfl⟩ := exists_digits hok.1.2
          refine ⟨digits, hdigits, String.toList_inj.mp ?_⟩
          simp only [hname, String.toList_append, String.toList_ofList]
          rfl
        · cases h
      · cases h
    obtain ⟨digits, hdigits, rfl⟩ := hname
    rw [argument?_arg hdigits] at h
    split at h
    · next hok =>
      cases h
      exact ⟨digits, hok.1, hdigits, rfl, rfl, hok.2⟩
    · cases h
  · rintro ⟨digits, hne, hdigits, rfl, rfl, hfits⟩
    rw [argument?_arg hdigits, if_pos ⟨hne, hfits⟩]

/-- The order of numbered names: by number, and equal numbers by name. -/
def Before (a b : Nat × String) : Prop := a.1 < b.1 ∨ a.1 = b.1 ∧ a.2 < b.2

instance (a b : Nat × String) : Decidable (Before a b) :=
  inferInstanceAs (Decidable (a.1 < b.1 ∨ a.1 = b.1 ∧ a.2 < b.2))

theorem Before.trans {a b c : Nat × String} (h : Before a b) (g : Before b c) : Before a c := by
  rcases h with h | ⟨heq, h⟩ <;> rcases g with g | ⟨heq', g⟩
  · exact .inl (Nat.lt_trans h g)
  · exact .inl (heq' ▸ h)
  · exact .inl (heq ▸ g)
  · exact .inr ⟨heq.trans heq', String.lt_trans h g⟩

theorem before_of_not {a b : Nat × String} (hne : a ≠ b) (h : ¬ Before a b) : Before b a := by
  obtain ⟨m, s⟩ := a
  obtain ⟨n, t⟩ := b
  unfold Before at h ⊢
  dsimp only at h ⊢
  rcases Nat.lt_trichotomy m n with hlt | rfl | hgt
  · exact absurd (.inl hlt) h
  · rcases Std.lt_trichotomy s t with hlt | rfl | hgt
    · exact absurd (.inr ⟨rfl, hlt⟩) h
    · exact absurd rfl hne
    · exact .inr ⟨rfl, hgt⟩
  · exact .inl hgt

theorem insertArgument_cons (a b : Nat × String) (rest : List (Nat × String)) :
    insertArgument a (b :: rest) =
      if Before a b then a :: b :: rest else b :: insertArgument a rest := by
  have hiff : (a.1 < b.1 || (a.1 == b.1 && a.2 < b.2)) = true ↔ Before a b := by
    simp [Before]
  by_cases h : Before a b
  · rw [if_pos h, insertArgument, if_pos (hiff.mpr h)]
  · rw [if_neg h, insertArgument, if_neg (mt hiff.mp h)]

theorem insertArgument_perm (a : Nat × String) (sorted : List (Nat × String)) :
    (insertArgument a sorted).Perm (a :: sorted) := by
  induction sorted with
  | nil => rfl
  | cons b rest ih =>
    rw [insertArgument_cons]
    split
    · rfl
    · exact (ih.cons b).trans (.swap a b rest)

theorem insertArgument_sorted {a : Nat × String} {sorted : List (Nat × String)}
    (h : sorted.Pairwise Before) (ha : a ∉ sorted) : (insertArgument a sorted).Pairwise Before := by
  induction sorted with
  | nil => exact List.pairwise_singleton _ _
  | cons b rest ih =>
    obtain ⟨hb, hrest⟩ := List.pairwise_cons.mp h
    obtain ⟨hab, harest⟩ := not_or.mp (mt List.mem_cons.mpr ha)
    rw [insertArgument_cons]
    split
    · next hbefore =>
      refine List.pairwise_cons.mpr ⟨fun c hc => ?_, h⟩
      rcases List.mem_cons.mp hc with rfl | hc
      · exact hbefore
      · exact hbefore.trans (hb c hc)
    · next hnot =>
      refine List.pairwise_cons.mpr ⟨fun c hc => ?_, ih hrest harest⟩
      rcases List.mem_cons.mp ((insertArgument_perm a rest).mem_iff.mp hc) with rfl | hc
      · exact before_of_not hab hnot
      · exact hb c hc

/-- Sorting by insertion: what was sorted already is part of it. -/
theorem foldl_insertArgument {sorted : List (Nat × String)} (h : sorted.Pairwise Before)
    (numbered : List (Nat × String)) (hnodup : (sorted ++ numbered).Nodup) :
    let after := numbered.foldl (fun sorted a => insertArgument a sorted) sorted
    after.Pairwise Before ∧ after.Perm (sorted ++ numbered) := by
  induction numbered generalizing sorted with
  | nil => exact ⟨h, by rw [List.append_nil]; rfl⟩
  | cons a rest ih =>
    have hmoved : (insertArgument a sorted ++ rest).Perm (sorted ++ a :: rest) :=
      ((insertArgument_perm a sorted).append_right rest).trans List.perm_middle.symm
    have ha : a ∉ sorted := fun hmem =>
      List.disjoint_of_nodup_append hnodup hmem List.mem_cons_self
    obtain ⟨hsorted, hperm⟩ := ih (insertArgument_sorted h ha) (hmoved.nodup_iff.mpr hnodup)
    exact ⟨hsorted, hperm.trans hmoved⟩

/-! ## 4. The order of columns -/

/-- How columns follow one another: the operation, then the arguments by number and equal numbers
by name, then the other names, all names by their bytes. -/
inductive Precedes : String → String → Prop
  | operation {b : String} : b ≠ "operation" → Precedes "operation" b
  | number {a b : String} {m n : Nat} : IsArgument a m → IsArgument b n → m < n → Precedes a b
  | sameNumber {a b : String} {n : Nat} : IsArgument a n → IsArgument b n →
      Text.bytes a < Text.bytes b → Precedes a b
  | argument {a b : String} {m : Nat} : IsArgument a m → b ≠ "operation" →
      (∀ n, ¬ IsArgument b n) → Precedes a b
  | name {a b : String} : a ≠ "operation" → (∀ n, ¬ IsArgument a n) → b ≠ "operation" →
      (∀ n, ¬ IsArgument b n) → Text.bytes a < Text.bytes b → Precedes a b

theorem not_isArgument_operation (n : Nat) : ¬ IsArgument "operation" n := by
  rw [← argument?_eq_some_iff]
  have hnone : argument? "operation" = none := by decide +kernel
  rw [hnone]
  exact nofun

theorem argument?_eq_none_iff {name : String} :
    (argument? name).isNone = true ↔ ∀ n, ¬ IsArgument name n := by
  rw [Option.isNone_iff_eq_none, Option.eq_none_iff_forall_ne_some]
  exact forall_congr' fun n => not_congr argument?_eq_some_iff

variable {names : List String}

/-- The names of arguments with their numbers. -/
theorem mem_numbered {a : Nat × String} :
    a ∈ names.filterMap (fun name => (argument? name).map fun n => (n, name)) ↔
      a.2 ∈ names ∧ IsArgument a.2 a.1 := by
  obtain ⟨n, name⟩ := a
  rw [List.mem_filterMap]
  constructor
  · rintro ⟨other, hother, h⟩
    obtain ⟨m, hm, heq⟩ := Option.map_eq_some_iff.mp h
    cases heq
    exact ⟨hother, argument?_eq_some_iff.mp hm⟩
  · rintro ⟨hname, hn⟩
    exact ⟨name, hname, Option.map_eq_some_iff.mpr ⟨n, argument?_eq_some_iff.mpr hn, rfl⟩⟩

theorem nodup_numbered (h : names.Nodup) :
    (names.filterMap fun name => (argument? name).map fun n => (n, name)).Nodup := by
  refine List.pairwise_filterMap.mpr (h.imp fun {s t} hne a ha b hb heq => ?_)
  obtain ⟨m, -, rfl⟩ := Option.map_eq_some_iff.mp ha
  obtain ⟨n, -, rfl⟩ := Option.map_eq_some_iff.mp hb
  exact hne (Prod.mk.inj heq).2

/-- The arguments among some names, by number. -/
theorem arguments_spec (h : names.Nodup) :
    (arguments names).Pairwise Precedes ∧
      ∀ name, name ∈ arguments names ↔ name ∈ names ∧ ∃ n, IsArgument name n := by
  have hmem := @mem_numbered names
  have hnodup := nodup_numbered h
  unfold arguments
  dsimp only
  generalize names.filterMap (fun name => (argument? name).map fun n => (n, name)) = numbered
    at hmem hnodup ⊢
  obtain ⟨hsorted, hperm⟩ := foldl_insertArgument .nil numbered hnodup
  constructor
  · rw [List.pairwise_map]
    refine hsorted.imp_of_mem fun {a b} ha hb hbefore => ?_
    obtain ⟨-, ha⟩ := hmem.mp (hperm.mem_iff.mp ha)
    obtain ⟨-, hb⟩ := hmem.mp (hperm.mem_iff.mp hb)
    rcases hbefore with hlt | ⟨heq, hlt⟩
    · exact .number ha hb hlt
    · exact .sameNumber (heq ▸ ha) hb (Text.bytes_lt_of_lt hlt)
  · intro name
    rw [List.mem_map]
    constructor
    · rintro ⟨a, ha, rfl⟩
      obtain ⟨hname, hn⟩ := hmem.mp (hperm.mem_iff.mp ha)
      exact ⟨hname, a.1, hn⟩
    · rintro ⟨hname, n, hn⟩
      exact ⟨(n, name), hperm.mem_iff.mpr (hmem.mpr ⟨hname, hn⟩), rfl⟩

/-- The shown names in the order of the columns. -/
def arranged (names : List String) : List String :=
  names.filter (· == primary) ++ arguments names ++
    names.filter fun name => name != primary && (argument? name).isNone

theorem mem_rest {name : String} :
    name ∈ names.filter (fun name => name != primary && (argument? name).isNone) ↔
      name ∈ names ∧ name ≠ "operation" ∧ ∀ n, ¬ IsArgument name n := by
  rw [List.mem_filter, Bool.and_eq_true, argument?_eq_none_iff, bne_iff_ne]
  rfl

theorem mem_arranged (h : names.Nodup) {name : String} : name ∈ arranged names ↔ name ∈ names := by
  unfold arranged
  rw [List.mem_append, List.mem_append, (arguments_spec h).2, mem_rest, List.mem_filter, beq_iff_eq]
  constructor
  · rintro ((⟨h, -⟩ | ⟨h, -⟩) | ⟨h, -⟩) <;> exact h
  · intro hname
    by_cases hoperation : name = "operation"
    · exact .inl (.inl ⟨hname, hoperation⟩)
    · by_cases hargument : ∃ n, IsArgument name n
      · exact .inl (.inr ⟨hname, hargument⟩)
      · exact .inr ⟨hname, hoperation, not_exists.mp hargument⟩

theorem arranged_pairwise (h : names.Pairwise (· < ·)) : (arranged names).Pairwise Precedes := by
  have hnodup : names.Nodup := h.imp String.ne_of_lt
  obtain ⟨hsorted, hmem⟩ := arguments_spec hnodup
  have hoperation {name : String} (hname : name ∈ names.filter (· == primary)) :
      name = "operation" := eq_of_beq (List.mem_filter.mp hname).2
  unfold arranged
  refine List.pairwise_append.mpr ⟨List.pairwise_append.mpr ⟨?_, hsorted, ?_⟩, ?_, ?_⟩
  · -- there is only one of them
    refine (h.filter _).imp_of_mem fun ha hb hlt => ?_
    rw [hoperation ha, hoperation hb] at hlt
    exact absurd hlt (String.lt_irrefl _)
  · intro a ha b hb
    obtain ⟨-, n, hn⟩ := (hmem b).mp hb
    rw [hoperation ha]
    exact .operation fun heq => not_isArgument_operation n (heq ▸ hn)
  · refine (h.filter _).imp_of_mem fun ha hb hlt => ?_
    obtain ⟨-, ha, ha'⟩ := mem_rest.mp ha
    obtain ⟨-, hb, hb'⟩ := mem_rest.mp hb
    exact .name ha ha' hb hb' (Text.bytes_lt_of_lt hlt)
  · intro a ha b hb
    obtain ⟨-, hb, hb'⟩ := mem_rest.mp hb
    rcases List.mem_append.mp ha with ha | ha
    · rw [hoperation ha]
      exact .operation hb
    · obtain ⟨-, n, hn⟩ := (hmem a).mp ha
      exact .argument hn hb hb'

theorem Precedes.ne {a b : String} (h : Precedes a b) : a ≠ b := by
  cases h with
  | operation hne => exact hne.symm
  | number hm hn hlt =>
    rintro rfl
    have heq := (argument?_eq_some_iff.mpr hm).symm.trans (argument?_eq_some_iff.mpr hn)
    exact Nat.ne_of_lt hlt (Option.some.inj heq)
  | sameNumber _ _ hlt =>
    rintro rfl
    exact List.lt_irrefl _ hlt
  | argument hm _ hnot =>
    rintro rfl
    exact hnot _ hm
  | name _ _ _ _ hlt =>
    rintro rfl
    exact List.lt_irrefl _ hlt

/-! ## 5. Which fields are columns -/

theorem isShown_iff {severalGroups : Bool} {name : String} : isShown severalGroups name = true ↔
    name ≠ "id" ∧ ¬ (severalGroups = true ∧
      ("upload_".toList <+: name.toList ∨ "_upload_".toList <+: name.toList)) := by
  unfold isShown isGroupField
  rw [Bool.and_eq_true, bne_iff_ne, Bool.not_eq_true', ← Bool.not_eq_true, Bool.and_eq_true,
    Bool.or_eq_true, String.startsWith_string_iff, String.startsWith_string_iff]
  rfl

/-- The columns are the names of all fields but "id", and where there are several groups but what
tells of them, each once and in the order of columns; they are the same for the same events in
another order. -/
theorem ofEvents_isProjection (rows : List Event) (severalGroups : Bool) :
    let columns := ofEvents rows severalGroups
    columns.Nodup ∧
      (∀ name, name ∈ columns ↔ HasField rows name ∧ name ≠ "id" ∧ ¬ (severalGroups = true ∧
        ("upload_".toList <+: name.toList ∨ "_upload_".toList <+: name.toList))) ∧
      columns.Pairwise Precedes ∧
      ∀ rows', rows'.Perm rows → ofEvents rows' severalGroups = columns := by
  intro columns
  obtain ⟨hsorted, hmem⟩ := fieldNames_spec rows
  have hshown : ((fieldNames rows).filter (isShown severalGroups)).Pairwise (· < ·) :=
    hsorted.filter _
  have hpairwise : columns.Pairwise Precedes := arranged_pairwise hshown
  refine ⟨hpairwise.imp Precedes.ne, fun name => ?_, hpairwise, fun rows' hperm => ?_⟩
  · rw [← hmem, ← isShown_iff, ← List.mem_filter]
    exact mem_arranged (hshown.imp String.ne_of_lt)
  · have hsame : fieldNames rows' = fieldNames rows := by
      refine fieldNames_congr fun name => ?_
      exact exists_congr fun row => and_congr_left' hperm.mem_iff
    show arranged _ = arranged _
    rw [hsame]

/-- Events with look-alikes of arguments: a number with a zero in front, and one that is too
large. -/
def lookalikeEvents : List Event :=
  [[("arg10", .null), ("arg18446744073709551616", .null), ("id", .null), ("operation", .null)],
    [("arg02", .null), ("arg2", .null), ("args", .null), ("upload_id", .null),
      ("uploader", .null)]]

theorem ofEvents_isProjection_lookalikeEvents :
    let columns := ofEvents lookalikeEvents true
    columns =
        ["operation", "arg02", "arg2", "arg10", "arg18446744073709551616", "args", "uploader"] ∧
      columns.Nodup ∧ columns.Pairwise Precedes ∧ lookalikeEvents.reverse.Perm lookalikeEvents ∧
      ofEvents lookalikeEvents.reverse true = columns := by
  obtain ⟨hnodup, -, hpairwise, horder⟩ := ofEvents_isProjection lookalikeEvents true
  have hperm := List.reverse_perm lookalikeEvents
  exact ⟨by decide +kernel, hnodup, hpairwise, hperm, horder _ hperm⟩

end Columns

end TraceViewer
