import TraceViewer.Proofs.Number.Bits
import TraceViewer.Proofs.Trace.Grouping

/-!
# Summing up groups

The rows of a trace are summed up in one pass: a row whose group has no summary yet adds one.  The
pass asks the summaries that it made so far, not the rows that it has seen, which comes to the same
because equality of documents is transitive.
-/

namespace TraceViewer

/-! ## 1. Equal documents -/

namespace Json

mutual

theorem same_comm : ∀ a b : Json, a.same b = b.same a
  | .null, b => by rcases b with _ | _ | (_ | _) | _ | _ | _ <;> simp [same]
  | .bool _, b => by rcases b with _ | _ | (_ | _) | _ | _ | _ <;> simp [same, Bool.beq_comm]
  | .string _, b => by rcases b with _ | _ | (_ | _) | _ | _ | _ <;> simp [same, Bool.beq_comm]
  | .number (.whole _), b => by
    rcases b with _ | _ | (_ | _) | _ | _ | _ <;> simp [same, Bool.beq_comm]
  | .number (.float x), b => by
    rcases b with _ | _ | (_ | _) | _ | _ | _ <;> simp [same, BEq.comm (a := x)]
  | .array as, b => by
    rcases b with _ | _ | (_ | _) | _ | _ | _ <;> simp [same, sameItems_comm as]
  | .object as, b => by
    rcases b with _ | _ | (_ | _) | _ | _ | _ <;> simp [same, sameFields_comm as]

theorem sameItems_comm : ∀ as bs : List Json, sameItems as bs = sameItems bs as
  | [], bs => by cases bs <;> simp [sameItems]
  | a :: as, bs => by cases bs <;> simp [sameItems, same_comm a, sameItems_comm as]

theorem sameFields_comm : ∀ as bs : List (String × Json), sameFields as bs = sameFields bs as
  | [], bs => by cases bs <;> simp [sameFields]
  | (k, a) :: as, bs => by
    cases bs <;> simp [sameFields, same_comm a, sameFields_comm as, Bool.beq_comm]

end

mutual

theorem same_trans : ∀ {a b c : Json}, a.same b = true → b.same c = true → a.same c = true
  | .null, b, c, hab, hbc => by
    rcases b with _ | _ | (_ | _) | _ | _ | _ <;> simp [same] at hab
    exact hbc
  | .bool _, b, c, hab, hbc => by
    rcases b with _ | _ | (_ | _) | _ | _ | _ <;> simp [same] at hab
    exact hab ▸ hbc
  | .string _, b, c, hab, hbc => by
    rcases b with _ | _ | (_ | _) | _ | _ | _ <;> simp [same] at hab
    exact hab ▸ hbc
  | .number (.whole _), b, c, hab, hbc => by
    rcases b with _ | _ | (_ | _) | _ | _ | _ <;> simp [same] at hab
    exact hab ▸ hbc
  | .number (.float x), b, c, hab, hbc => by
    rcases b with _ | _ | (_ | _) | _ | _ | _ <;> simp [same] at hab
    rcases c with _ | _ | (_ | _) | _ | _ | _ <;> simp [same] at hbc
    exact BEq.trans hab hbc
  | .array as, b, c, hab, hbc => by
    rcases b with _ | _ | (_ | _) | _ | _ | _ <;> simp [same] at hab
    rcases c with _ | _ | (_ | _) | _ | _ | _ <;> simp [same] at hbc
    exact sameItems_trans hab hbc
  | .object as, b, c, hab, hbc => by
    rcases b with _ | _ | (_ | _) | _ | _ | _ <;> simp [same] at hab
    rcases c with _ | _ | (_ | _) | _ | _ | _ <;> simp [same] at hbc
    exact sameFields_trans hab hbc

theorem sameItems_trans : ∀ {as bs cs : List Json}, sameItems as bs = true →
    sameItems bs cs = true → sameItems as cs = true
  | [], bs, cs, hab, hbc => by
    cases bs <;> simp [sameItems] at hab
    exact hbc
  | a :: as, bs, cs, hab, hbc => by
    cases bs <;> simp [sameItems] at hab
    cases cs <;> simp [sameItems] at hbc
    rw [sameItems, same_trans hab.1 hbc.1, sameItems_trans hab.2 hbc.2]
    rfl

theorem sameFields_trans : ∀ {as bs cs : List (String × Json)}, sameFields as bs = true →
    sameFields bs cs = true → sameFields as cs = true
  | [], bs, cs, hab, hbc => by
    cases bs <;> simp [sameFields] at hab
    exact hbc
  | (k, a) :: as, bs, cs, hab, hbc => by
    cases bs <;> simp [sameFields] at hab
    cases cs <;> simp [sameFields] at hbc
    rw [sameFields, same_trans hab.1.2 hbc.1.2, sameFields_trans hab.2 hbc.2, hab.1.1, hbc.1.1]
    simp

end

end Json

/-! ## 2. Rows that bring up a group -/

/-- The name of the group of a row. A field with an underscore counts before the one without. -/
def Event.groupName (e : Event) : String :=
  match e.present? "_upload_name" <|> e.present? "upload_name" with
  | some v => v.cellText
  | none => unknownName

/-- The time of the group of a row. -/
def Event.groupTime (e : Event) : String :=
  match e.present? "_upload_time" <|> e.present? "upload_time" with
  | some v => v.cellText
  | none => ""

/-- Whether a row has an id that no row before it has. -/
def BringsUp (rows : List Event) (i : Nat) : Prop :=
  ∃ row id, rows[i]? = some row ∧ row.groupId? = some id ∧
    ∀ j earlier v, j < i → rows[j]? = some earlier → earlier.groupId? = some v → v.same id = false

theorem BringsUp.lt {rows : List Event} {i : Nat} (h : BringsUp rows i) : i < rows.length := by
  obtain ⟨row, _, hrow, _⟩ := h
  exact (List.getElem?_eq_some_iff.mp hrow).1

/-- Rows that follow do not matter. -/
theorem bringsUp_append {rows : List Event} {i : Nat} (h : i < rows.length) (more : List Event) :
    BringsUp (rows ++ more) i ↔ BringsUp rows i := by
  unfold BringsUp
  rw [List.getElem?_append_left h]
  apply exists_congr; intro row
  apply exists_congr; intro id
  apply and_congr_right; intro _
  apply and_congr_right; intro _
  apply forall_congr'; intro j
  apply forall_congr'; intro earlier
  apply forall_congr'; intro v
  apply imp_congr_right; intro hj
  rw [List.getElem?_append_left (hj.trans h)]

/-- The last of some rows is one more row that may bring up a group. -/
theorem bringsUp_append_iff (rows : List Event) (row : Event) (i : Nat) :
    BringsUp (rows ++ [row]) i ↔
      BringsUp rows i ∨ i = rows.length ∧ BringsUp (rows ++ [row]) rows.length := by
  rcases Nat.lt_trichotomy i rows.length with h | rfl | h
  · rw [bringsUp_append h, or_iff_left fun hlast => h.ne hlast.1]
  · have hnot : ¬BringsUp rows rows.length := fun hold => hold.lt.false
    rw [or_iff_right hnot, and_iff_right rfl]
  · have hnot : ¬BringsUp rows i := fun hold => h.asymm hold.lt
    have hnotLast : ¬BringsUp (rows ++ [row]) i := by
      intro hi
      have hlt := hi.lt
      rw [List.length_append, List.length_singleton] at hlt
      omega
    exact iff_of_false hnotLast fun hor => hor.elim hnot fun hlast => h.ne' hlast.1

namespace GroupSummary

/-- Whether a summary says what a row says of its group. -/
structure IsOf (g : GroupSummary) (row : Event) : Prop where
  id : row.groupId? = some g.id
  name : g.name = row.groupName
  time : g.time = row.groupTime

theorem isOf_of_ofEvent? {row : Event} {g : GroupSummary} (h : ofEvent? row = some g) :
    g.IsOf row := by
  have hid : row.groupId? = some g.id := by
    rw [← id_ofEvent?, h]
    rfl
  unfold ofEvent? at h
  obtain ⟨id, _, rfl⟩ := Option.map_eq_some_iff.mp h
  refine ⟨hid, ?_, ?_⟩
  · show ((row.present? "_upload_name" <|> row.present? "upload_name").map Json.cellText).getD _ = _
    unfold Event.groupName
    cases row.present? "_upload_name" <|> row.present? "upload_name" <;> rfl
  · show ((row.present? "_upload_time" <|> row.present? "upload_time").map Json.cellText).getD _ = _
    unfold Event.groupTime
    cases row.present? "_upload_time" <|> row.present? "upload_time" <;> rfl

/-! ## 3. The pass over the rows -/

theorem ofRows_append (rows : List Event) (row : Event) :
    ofRows (rows ++ [row]) =
      match ofEvent? row with
      | some g =>
        if (ofRows rows).any fun s => s.id.same g.id then ofRows rows else ofRows rows ++ [g]
      | none => ofRows rows := by
  unfold ofRows
  rw [List.foldl_append]
  rfl

/-- No id has two summaries. -/
theorem ofRows_apart (rows : List Event) :
    (ofRows rows).Pairwise fun g h => g.id.same h.id = false ∧ h.id.same g.id = false := by
  induction rows using List.reverseRecOn with
  | nil => exact .nil
  | append_singleton rows row ih =>
    rw [ofRows_append]
    cases ofEvent? row with
    | none => exact ih
    | some g =>
      dsimp only
      split
      · exact ih
      · next hnew =>
        rw [List.pairwise_append]
        refine ⟨ih, List.pairwise_singleton .., ?_⟩
        intro s hs h hh
        obtain rfl := List.mem_singleton.mp hh
        have hdiffer : s.id.same h.id = false := by
          simp only [List.any_eq_true, not_exists, not_and, Bool.not_eq_true] at hnew
          exact hnew s hs
        exact ⟨hdiffer, by rw [Json.same_comm, hdiffer]⟩

/-- Every id has a summary. -/
theorem exists_mem_ofRows {rows : List Event} {row : Event} (hrow : row ∈ rows) {id : Json}
    (hid : row.groupId? = some id) : ∃ g ∈ ofRows rows, g.id = id ∨ g.id.same id = true := by
  induction rows using List.reverseRecOn with
  | nil => cases hrow
  | append_singleton rows last ih =>
    -- summaries stay
    have hold : ∀ g ∈ ofRows rows, g ∈ ofRows (rows ++ [last]) := by
      intro g hg
      rw [ofRows_append]
      cases ofEvent? last with
      | none => exact hg
      | some _ =>
        dsimp only
        split
        · exact hg
        · exact List.mem_append_left _ hg
    rcases List.mem_append.mp hrow with hrow | hrow
    · obtain ⟨g, hg, hsame⟩ := ih hrow
      exact ⟨g, hold g hg, hsame⟩
    · obtain rfl := List.mem_singleton.mp hrow
      rw [ofRows_append]
      cases hown : ofEvent? row with
      | none =>
        rw [← id_ofEvent?, hown] at hid
        cases hid
      | some g =>
        have hg : g.id = id := by
          rw [← id_ofEvent?, hown] at hid
          exact Option.some.inj hid
        dsimp only
        split
        · next hknown =>
          obtain ⟨s, hs, hsame⟩ := List.any_eq_true.mp hknown
          exact ⟨s, hs, .inr (hg ▸ hsame)⟩
        · exact ⟨g, List.mem_append_right _ (List.mem_singleton_self g), .inl hg⟩

/-- The summaries tell which groups the rows before have brought up. -/
theorem bringsUp_last_iff {rows : List Event} {row : Event} {g : GroupSummary} (hg : g.IsOf row) :
    BringsUp (rows ++ [row]) rows.length ↔ ¬((ofRows rows).any fun s => s.id.same g.id) = true := by
  have hlast : (rows ++ [row])[rows.length]? = some row := by simp
  constructor
  · rintro ⟨own, id, hown, hid, hfirst⟩ hknown
    obtain rfl := Option.some.inj (hlast.symm.trans hown)
    obtain rfl := Option.some.inj (hg.id.symm.trans hid)
    obtain ⟨s, hs, hsame⟩ := List.any_eq_true.mp hknown
    obtain ⟨earlier, hearlier, hsid⟩ := exists_row_of_mem hs
    obtain ⟨j, hj, hjrow⟩ := List.mem_iff_getElem.mp hearlier
    have hdiffer := hfirst j earlier s.id hj
      (by rw [List.getElem?_append_left hj, List.getElem?_eq_getElem hj, hjrow]) hsid
    rw [hsame] at hdiffer
    cases hdiffer
  · intro hnew
    refine ⟨row, g.id, hlast, hg.id, ?_⟩
    intro j earlier v hj hearlier hv
    rw [List.getElem?_append_left hj] at hearlier
    obtain ⟨s, hs, hsv⟩ := exists_mem_ofRows (List.mem_of_getElem? hearlier) hv
    -- an earlier row of this id has left a summary of it
    by_contra hsame
    rw [Bool.not_eq_false] at hsame
    apply hnew
    rw [List.any_eq_true]
    rcases hsv with rfl | hsv
    · exact ⟨s, hs, hsame⟩
    · exact ⟨s, hs, Json.same_trans hsv hsame⟩

section LastRow

variable {rows : List Event} {row : Event}

theorem ofRows_append_of_bringsUp (h : BringsUp (rows ++ [row]) rows.length) :
    ∃ g : GroupSummary, g.IsOf row ∧ ofRows (rows ++ [row]) = ofRows rows ++ [g] := by
  have hid : row.groupId?.isSome := by
    obtain ⟨own, id, hown, hid, -⟩ := h
    have hlast : (rows ++ [row])[rows.length]? = some row := by simp
    obtain rfl := Option.some.inj (hlast.symm.trans hown)
    rw [hid]
    rfl
  rw [← id_ofEvent?, Option.isSome_map] at hid
  obtain ⟨g, hg⟩ := Option.isSome_iff_exists.mp hid
  have hgroup := isOf_of_ofEvent? hg
  refine ⟨g, hgroup, ?_⟩
  rw [ofRows_append, hg]
  exact if_neg ((bringsUp_last_iff hgroup).mp h)

theorem ofRows_append_of_not_bringsUp (h : ¬BringsUp (rows ++ [row]) rows.length) :
    ofRows (rows ++ [row]) = ofRows rows := by
  rw [ofRows_append]
  cases hg : ofEvent? row with
  | none => rfl
  | some g =>
    rw [bringsUp_last_iff (isOf_of_ofEvent? hg), not_not] at h
    exact if_pos h

end LastRow

/-- Whether summaries are those of the rows at some positions, one after another. -/
def AreAt (rows : List Event) : List Nat → List GroupSummary → Prop :=
  List.Forall₂ fun i g => ∃ row, rows[i]? = some row ∧ g.IsOf row

theorem AreAt.append {rows : List Event} {positions : List Nat} {groups : List GroupSummary}
    (h : AreAt rows positions groups) (row : Event) : AreAt (rows ++ [row]) positions groups := by
  apply h.imp
  rintro i g ⟨own, hown, hg⟩
  have hlt := (List.getElem?_eq_some_iff.mp hown).1
  exact ⟨own, by rw [List.getElem?_append_left hlt, hown], hg⟩

/-- The summaries are those of the rows that bring up a group, in the order of these rows. -/
theorem exists_areAt_ofRows (rows : List Event) : ∃ positions : List Nat,
    positions.Pairwise (· < ·) ∧ (∀ i, i ∈ positions ↔ BringsUp rows i) ∧
      AreAt rows positions (ofRows rows) := by
  induction rows using List.reverseRecOn with
  | nil =>
    have hnone (i : Nat) : ¬BringsUp [] i := fun h => Nat.not_lt_zero i h.lt
    exact ⟨[], .nil, fun i => iff_of_false List.not_mem_nil (hnone i), .nil⟩
  | append_singleton rows row ih =>
    obtain ⟨positions, hsorted, hmem, hat⟩ := ih
    by_cases hlast : BringsUp (rows ++ [row]) rows.length
    · obtain ⟨g, hg, heq⟩ := ofRows_append_of_bringsUp hlast
      refine ⟨positions ++ [rows.length], ?_, ?_, ?_⟩
      · rw [List.pairwise_append]
        refine ⟨hsorted, List.pairwise_singleton .., ?_⟩
        intro i hi j hj
        rw [List.mem_singleton.mp hj]
        exact ((hmem i).mp hi).lt
      · intro i
        rw [List.mem_append, List.mem_singleton, bringsUp_append_iff, hmem, and_iff_left hlast]
      · rw [heq]
        exact List.rel_append (hat.append row) (.cons ⟨row, by simp, hg⟩ .nil)
    · refine ⟨positions, hsorted, ?_, ?_⟩
      · intro i
        rw [bringsUp_append_iff, hmem, or_iff_left fun h => hlast h.2]
      · rw [ofRows_append_of_not_bringsUp hlast]
        exact hat.append row

/-- Rows without an id do not count. -/
theorem ofRows_filter (rows : List Event) :
    ofRows (rows.filter fun row => row.groupId?.isSome) = ofRows rows := by
  unfold ofRows
  rw [List.foldl_filter]
  congr 1
  funext seen row
  rw [← id_ofEvent?, Option.isSome_map]
  cases ofEvent? row <;> rfl

/-- Every id that a row has is summed up once, by what the first of its rows says, and in the order
of these first rows; rows without an id are passed over. -/
theorem ofRows_sums_up (rows : List Event) :
    (∃ positions : List Nat, positions.Pairwise (· < ·) ∧
      (∀ i, i ∈ positions ↔ BringsUp rows i) ∧ AreAt rows positions (ofRows rows)) ∧
    ((ofRows rows).Pairwise fun g h => g.id.same h.id = false ∧ h.id.same g.id = false) ∧
    (∀ row ∈ rows, ∀ id, row.groupId? = some id →
      ∃ g ∈ ofRows rows, g.id = id ∨ g.id.same id = true) ∧
    ofRows (rows.filter fun row => row.groupId?.isSome) = ofRows rows :=
  ⟨exists_areAt_ofRows rows, ofRows_apart rows, fun _ hrow _ hid => exists_mem_ofRows hrow hid,
    ofRows_filter rows⟩

end GroupSummary

end TraceViewer
