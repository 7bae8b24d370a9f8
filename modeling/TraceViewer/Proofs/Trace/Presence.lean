import TraceViewer.Proofs.Trace.Loading

/-!
# What an event says of itself

A row is its event with what the event does not say of its group.  Groups with events of their own
are asked field by field.  Uploads beside a list of events are asked for the name alone, and the
time comes with it: where the event had said another time, that is lost, and nothing else is.
-/

namespace TraceViewer

/-! ## 1. Events that are filled in -/

namespace Event

variable {e row : Event} {key : String}

/-- A field of a row is as in the event, or it tells of the group and the event says nothing. -/
def IsFilledAt (e row : Event) (key : String) : Prop :=
  Fields.get? key row ≠ Fields.get? key e → key ∈ groupFields ∧ e.present? key = none

def IsFilledIn (e row : Event) : Prop := ∀ key, e.IsFilledAt row key

theorem get?_of_present? {v : Json} (h : e.present? key = some v) : Fields.get? key e = some v :=
  Option.eq_some_of_filter_eq_some h

theorem present?_of_get?_eq_none (h : Fields.get? key e = none) : e.present? key = none := by
  unfold present?
  rw [h]
  rfl

/-- What an event says stays as it is. -/
theorem IsFilledIn.get?_of_present? (h : e.IsFilledIn row) {v : Json}
    (hv : e.present? key = some v) : Fields.get? key row = some v := by
  by_cases hsame : Fields.get? key row = Fields.get? key e
  · rw [hsame, Event.get?_of_present? hv]
  · rw [(h key hsame).2] at hv
    cases hv

theorem isFilledAt_self (e : Event) (key : String) : e.IsFilledAt e key := fun h => absurd rfl h

/-- A group gives its events only the fields that they do not have at all. -/
theorem isFilledIn_tag (g : EventGroup) (e : Event) : e.IsFilledIn (g.tag e) := by
  intro key hne
  rw [EventGroup.tag_eq, get?_extendedBy] at hne
  cases hown : Fields.get? key e with
  | some v =>
    rw [hown] at hne
    exact absurd rfl hne
  | none =>
    refine ⟨?_, present?_of_get?_eq_none hown⟩
    by_contra hkey
    rw [hown, EventGroup.get?_marks_of_notMem hkey] at hne
    exact hne rfl

/-! ## 2. Uploads beside a list of events -/

/-- The upload that gives an event its name: the first with the id that the event says, where the
event says no name. -/
def adopted? (groups : List EventGroup) (e : Event) : Option EventGroup :=
  match e.present? "upload_name", e.present? "upload_id" with
  | none, some id => groups.find? fun g => g.id.same id
  | _, _ => none

theorem present?_name_of_adopted? {groups : List EventGroup} {g : EventGroup}
    (h : e.adopted? groups = some g) : e.present? "upload_name" = none := by
  unfold adopted? at h
  split at h
  · next hname _ => exact hname
  · cases h

theorem backfill_eq (groups : List EventGroup) (e : Event) :
    EventGroup.backfill groups e =
      match e.adopted? groups with
      | some g => Fields.set "upload_time" g.timeText (Fields.set "upload_name" g.nameText e)
      | none => e := by
  unfold EventGroup.backfill adopted?
  cases e.present? "upload_name" <;> cases e.present? "upload_id" <;> rfl

theorem backfill_of_adopted? {groups : List EventGroup} {g : EventGroup}
    (h : e.adopted? groups = some g) :
    EventGroup.backfill groups e =
      Fields.set "upload_time" g.timeText (Fields.set "upload_name" g.nameText e) := by
  rw [backfill_eq, h]

/-- An event says another time than the upload that gives it its name. -/
def LosesTime (groups : List EventGroup) (e : Event) : Prop :=
  ∃ g v, e.adopted? groups = some g ∧ e.present? "upload_time" = some v ∧ v ≠ g.timeText

theorem not_losesTime_nil (e : Event) : ¬e.LosesTime [] := by
  rintro ⟨g, v, hadopted, -⟩
  unfold adopted? at hadopted
  split at hadopted <;> cases hadopted

/-- An upload gives the name only where the event says none. -/
theorem isFilledAt_backfill (groups : List EventGroup) (e : Event) (h : key ≠ "upload_time") :
    e.IsFilledAt (EventGroup.backfill groups e) key := by
  cases hadopted : e.adopted? groups with
  | none =>
    rw [backfill_eq, hadopted]
    exact e.isFilledAt_self key
  | some g =>
    rw [backfill_of_adopted? hadopted]
    intro hne
    rw [Fields.get?_set, if_neg h, Fields.get?_set] at hne
    by_cases hname : key = "upload_name"
    · subst hname
      exact ⟨by decide, present?_name_of_adopted? hadopted⟩
    · rw [if_neg hname] at hne
      exact absurd rfl hne

/-- The time comes with the name, whatever the event says. -/
theorem isFilledIn_backfill_iff (groups : List EventGroup) (e : Event) :
    e.IsFilledIn (EventGroup.backfill groups e) ↔ ¬e.LosesTime groups := by
  constructor
  · rintro h ⟨g, v, hadopted, hv, hne⟩
    have htime := h.get?_of_present? hv
    rw [backfill_of_adopted? hadopted, Fields.get?_set, if_pos rfl, Option.some.injEq] at htime
    exact hne htime.symm
  · intro h key
    by_cases htime : key = "upload_time"
    · subst htime
      intro hne
      refine ⟨by decide, ?_⟩
      cases hadopted : e.adopted? groups with
      | none =>
        rw [backfill_eq, hadopted] at hne
        exact absurd rfl hne
      | some g =>
        rw [backfill_of_adopted? hadopted, Fields.get?_set, if_pos rfl] at hne
        cases hv : e.present? "upload_time" with
        | none => rfl
        | some v =>
          rw [get?_of_present? hv] at hne
          exact absurd ⟨g, v, hadopted, hv, fun heq => hne (by rw [heq])⟩ h
    · exact isFilledAt_backfill groups e htime

end Event

/-! ## 3. The rows of a payload -/

namespace Payload

/-- The events of a payload, in the order of their rows. -/
def allEvents : Payload → List Event
  | .events items | .wrapped _ _ items _ => Event.ofItems items
  | .uploads groups | .traces groups => groups.flatMap fun g => Event.ofItems g.events

/-- The uploads that stand beside the events of a payload. -/
def uploadsBeside : Payload → List EventGroup
  | .wrapped _ _ _ (some groups) => groups
  | _ => []

end Payload

theorem EventGroup.filledIn_rows (groups : List EventGroup) :
    List.Forall₂ Event.IsFilledIn (groups.flatMap fun g => Event.ofItems g.events)
      (rows groups) := by
  induction groups with
  | nil => exact .nil
  | cons g rest ih =>
    exact List.rel_append (forall₂_map_of_forall (Event.isFilledIn_tag g) _) ih

/-- What holds of rows, and when no time is lost, for events beside some uploads. -/
abbrev FilledBeside (groups : List EventGroup) (events rows : List Event) : Prop :=
  List.Forall₂ (fun e row => ∀ key, key ≠ "upload_time" → Event.IsFilledAt e row key) events rows ∧
    (List.Forall₂ Event.IsFilledIn events rows ↔ ∀ e ∈ events, ¬e.LosesTime groups)

theorem filledBeside_backfill (groups : List EventGroup) (events : List Event) :
    FilledBeside groups events (events.map (EventGroup.backfill groups)) := by
  unfold FilledBeside
  rw [List.forall₂_map_right_iff, List.forall₂_map_right_iff, List.forall₂_same, List.forall₂_same]
  exact ⟨fun e _ key hkey => e.isFilledAt_backfill groups hkey,
    forall₂_congr fun e _ => Event.isFilledIn_backfill_iff groups e⟩

/-- Without uploads there is no other time. -/
theorem filledBeside_nil {events rows : List Event}
    (h : List.Forall₂ Event.IsFilledIn events rows) : FilledBeside [] events rows :=
  ⟨h.imp fun _ _ hrow key _ => hrow key, iff_of_true h fun e _ => e.not_losesTime_nil⟩

/-- In every row, what the event says of its id and of its name stays, and so does every field that
does not tell of its group.  The time stays as well exactly where no event says another time than
the upload that gives it its name. -/
theorem TraceRows.filledIn_ofPayload_iff (payload : Payload) (fallback : String) :
    let rows := (ofPayload payload fallback).rows
    List.Forall₂ (fun e row => ∀ key, key ≠ "upload_time" → Event.IsFilledAt e row key)
        payload.allEvents rows ∧
      (List.Forall₂ Event.IsFilledIn payload.allEvents rows ↔
        ∀ e ∈ payload.allEvents, ¬e.LosesTime payload.uploadsBeside) := by
  show FilledBeside payload.uploadsBeside payload.allEvents (rowsOf payload)
  cases payload with
  | events items => exact filledBeside_nil (List.forall₂_same.mpr fun e _ => e.isFilledAt_self)
  | wrapped name fileName items uploads =>
    cases uploads with
    | none => exact filledBeside_nil (List.forall₂_same.mpr fun e _ => e.isFilledAt_self)
    | some groups => exact filledBeside_backfill groups _
  | uploads groups => exact filledBeside_nil (EventGroup.filledIn_rows groups)
  | traces groups => exact filledBeside_nil (EventGroup.filledIn_rows groups)

/-- An event that says a time loses it to the upload beside it, which says none. -/
theorem TraceRows.not_filledIn_timedEvent :
    let e : Event := [("upload_id", .ofInt 1), ("upload_time", .string "t")]
    let row : Event :=
      [("upload_id", .ofInt 1), ("upload_name", .string unknownName), ("upload_time", .string "")]
    let j : Json := .object
      [("events", .array [.object e]), ("uploads", .array [.object [("id", .ofInt 1)]])]
    ∃ payload, Payload.ofJson j = .ok payload ∧ payload.allEvents = [e] ∧
      (ofPayload payload "f").rows = [row] ∧ e.present? "upload_time" = some (.string "t") ∧
      Fields.get? "upload_time" row = some (.string "") := by
  intro e row j
  exact ⟨_, rfl, rfl, rfl, rfl, rfl⟩

end TraceViewer
