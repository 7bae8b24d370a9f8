import Mathlib.Data.List.Induction
import TraceViewer.Proofs.Trace.Loading

/-!
# Groups of consolidated rows

Consolidated loading gives each source an id, its place counted from one, and so makes it a group.
An event that has an id keeps it. Two sources therefore share a group only through ids that their
own rows brought along.
-/

namespace TraceViewer

/-! ## 1. The group of a row -/

/-- The id of the group of a row. A field with an underscore counts before the one without. -/
def Event.groupId? (e : Event) : Option Json :=
  e.present? "_upload_id" <|> e.present? "upload_id"

theorem GroupSummary.id_ofEvent? (e : Event) :
    (GroupSummary.ofEvent? e).map GroupSummary.id = e.groupId? := by
  unfold GroupSummary.ofEvent? Event.groupId?
  rw [Option.map_map]
  exact Option.map_id'

/-- Every summary has the id of one of the rows. -/
theorem GroupSummary.exists_row_of_mem {rows : List Event} {g : GroupSummary}
    (hg : g ∈ GroupSummary.ofRows rows) : ∃ row ∈ rows, row.groupId? = some g.id := by
  unfold GroupSummary.ofRows at hg
  induction rows using List.reverseRecOn with
  | nil => cases hg
  | append_singleton rest row ih =>
    rw [List.foldl_append, List.foldl_cons, List.foldl_nil] at hg
    have hearlier {g : GroupSummary} (h : ∃ row ∈ rest, row.groupId? = some g.id) :
        ∃ row' ∈ rest ++ [row], row'.groupId? = some g.id :=
      h.imp fun _ h => ⟨List.mem_append_left _ h.1, h.2⟩
    split at hg
    · next own hown =>
      split at hg
      · exact hearlier (ih hg)
      · rcases List.mem_append.mp hg with hg | hg
        · exact hearlier (ih hg)
        · refine ⟨row, by simp, ?_⟩
          rw [← id_ofEvent?, hown, List.mem_singleton.mp hg]
          rfl
    · exact hearlier (ih hg)

/-- Whether a row belongs to the group of a summary. -/
def GroupSummary.Covers (g : GroupSummary) (row : Event) : Prop :=
  ∃ id, row.groupId? = some id ∧ g.id.same id = true

/-- The ids that sources are given are the same only for one place. -/
theorem Json.same_ofInt (a b : Int) : (Json.ofInt a).same (Json.ofInt b) = true ↔ a = b := by
  simp [Json.ofInt, Json.same]

theorem Json.eq_of_same_ofInt {v : Json} {a b : Int} (ha : v.same (.ofInt a) = true)
    (hb : v.same (.ofInt b) = true) : a = b := by
  unfold Json.ofInt at ha hb
  cases v with
  | number n =>
    cases n with
    | whole c =>
      simp only [Json.same, beq_iff_eq] at ha hb
      exact ha.symm.trans hb
    | float x => simp [Json.same] at ha
  | _ => simp [Json.same] at ha

/-! ## 2. What a source adds -/

namespace TraceSource

variable (files : Files) (position : Nat) (s : TraceSource) (e : Event)

theorem present?_extendedBy_underscore :
    (e.extendedBy (s.marks files position)).present? "_upload_id" = e.present? "_upload_id" := by
  have hmarks : Fields.get? "_upload_id" (s.marks files position) = none := rfl
  unfold Event.present?
  rw [Event.get?_extendedBy, hmarks]
  simp

theorem present?_extendedBy_id :
    (e.extendedBy (s.marks files position)).present? "upload_id" = e.present? "upload_id" ∨
      (e.extendedBy (s.marks files position)).present? "upload_id" =
        some (.ofInt (position + 1)) := by
  have hmarks : Fields.get? "upload_id" (s.marks files position) = some (.ofInt (position + 1)) :=
    rfl
  unfold Event.present?
  rw [Event.get?_extendedBy, hmarks]
  cases Fields.get? "upload_id" e with
  | some own => exact .inl rfl
  | none =>
    show Option.filter _ (some _) = _ ∨ Option.filter _ (some _) = _
    rw [Option.filter_some]
    split
    · exact .inr rfl
    · exact .inl rfl

/-- A row has the group that its event has, or that of its source. -/
theorem groupId?_extendedBy :
    (e.extendedBy (s.marks files position)).groupId? = e.groupId? ∨
      (e.extendedBy (s.marks files position)).groupId? = some (.ofInt (position + 1)) := by
  unfold Event.groupId?
  rw [present?_extendedBy_underscore]
  cases e.present? "_upload_id" with
  | some own => exact .inl rfl
  | none => simpa using present?_extendedBy_id files position s e

end TraceSource

/-! ## 3. Rows of two sources -/

namespace LoadedTrace

/-- Whether rows of different sources are never in one group. -/
def SourcesApart (files : Files) (sources : List TraceSource) : Prop :=
  ∀ i j s t e e', sources[i]? = some s → sources[j]? = some t → i ≠ j →
    e ∈ ownRows files sources i → e' ∈ ownRows files sources j →
    ∀ u v, (e.extendedBy (s.marks files i)).groupId? = some u →
      (e'.extendedBy (t.marks files j)).groupId? = some v → u.same v = false

/-- Rows of different sources are in one group only if one of their events is in that group by
itself. -/
theorem groups_apart {files : Files} {sources : List TraceSource} {i j : Nat} {s t : TraceSource}
    {e e' : Event} (hs : sources[i]? = some s) (ht : sources[j]? = some t) (hne : i ≠ j)
    (he : e ∈ ownRows files sources i) (he' : e' ∈ ownRows files sources j) :
    let row := e.extendedBy (s.marks files i)
    let row' := e'.extendedBy (t.marks files j)
    let trace := TraceRows.consolidated files sources
    row ∈ trace.rows ∧ row' ∈ trace.rows ∧
    (∀ u v, row.groupId? = some u → row'.groupId? = some v → u.same v = true →
      e.groupId? = some u ∨ e'.groupId? = some v) ∧
    ∀ g ∈ trace.groups, (∃ other ∈ trace.rows, other.groupId? = some g.id) ∧
      (g.Covers row → g.Covers row' → g.Covers e ∨ g.Covers e') := by
  intro row row' trace
  have hplaces : (i : Int) + 1 ≠ j + 1 := by omega
  refine ⟨mem_rows_consolidated hs he, mem_rows_consolidated ht he', ?_, ?_⟩
  · intro u v hu hv hsame
    rcases s.groupId?_extendedBy files i e with hown | hmark
    · exact .inl (hown ▸ hu)
    rcases t.groupId?_extendedBy files j e' with hown' | hmark'
    · exact .inr (hown' ▸ hv)
    -- the ids of the two places differ
    rw [hmark] at hu
    rw [hmark'] at hv
    cases hu
    cases hv
    exact absurd ((Json.same_ofInt _ _).mp hsame) hplaces
  · intro g hg
    refine ⟨GroupSummary.exists_row_of_mem hg, ?_⟩
    rintro ⟨u, hu, hgu⟩ ⟨v, hv, hgv⟩
    rcases s.groupId?_extendedBy files i e with hown | hmark
    · exact .inl ⟨u, hown ▸ hu, hgu⟩
    rcases t.groupId?_extendedBy files j e' with hown' | hmark'
    · exact .inr ⟨v, hown' ▸ hv, hgv⟩
    rw [hmark] at hu
    rw [hmark'] at hv
    cases hu
    cases hv
    exact absurd (Json.eq_of_same_ofInt hgu hgv) hplaces

/-- Two sources whose rows bring the same id, in different fields. -/
theorem groups_apart_of_brought :
    let sources : List TraceSource :=
      [.inline "a" "[\x7b\"upload_id\":\"7\"\x7d]", .inline "b" "[\x7b\"_upload_id\":\"7\"\x7d]"]
    let e : Event := [("upload_id", .string "7")]
    let e' : Event := [("_upload_id", .string "7")]
    e ∈ ownRows {} sources 0 ∧ e' ∈ ownRows {} sources 1 ∧
    (e.groupId? = some (.string "7") ∨ e'.groupId? = some (.string "7")) := by
  intro sources e e'
  have he : e ∈ ownRows {} sources 0 := List.mem_singleton.mpr rfl
  have he' : e' ∈ ownRows {} sources 1 := List.mem_singleton.mpr rfl
  have hapart := groups_apart (i := 0) (j := 1) rfl rfl Nat.zero_ne_one he he'
  exact ⟨he, he', hapart.2.2.1 (.string "7") (.string "7") rfl rfl rfl⟩

/-- An event that names an upload keeps its id, so rows of two sources can share a group. -/
theorem not_sourcesApart : ¬ ∀ files sources, SourcesApart files sources := by
  intro h
  have hsame := h {}
    [.inline "a" "[\x7b\"upload_id\":\"7\"\x7d]", .inline "b" "[\x7b\"upload_id\":\"7\"\x7d]"]
    0 1 _ _ [("upload_id", .string "7")] [("upload_id", .string "7")] rfl rfl Nat.zero_ne_one
    (List.mem_singleton.mpr rfl) (List.mem_singleton.mpr rfl) (.string "7") (.string "7") rfl rfl
  cases hsame

end LoadedTrace

end TraceViewer
