import Mathlib.Data.List.Forall2
import TraceViewer.Trace.Source

/-!
# Loading traces

No event of a trace is lost, doubled or moved on its way to a row. A payload has a row for each
object among its events, and consolidated loading has the rows of all sources, each with what it
lacks of the id, the name and the time of its source.
-/

namespace TraceViewer

/-! ## 1. The fields that an event takes over -/

namespace Event

/-- An event with those of some fields that it lacks. -/
def extendedBy (marks : Fields Json) (e : Event) : Event :=
  marks.foldl (fun e mark => e.inherit mark.1 mark.2) e

theorem get?_inherit (key field : String) (value : Json) (e : Event) :
    Fields.get? key (e.inherit field value) =
      (Fields.get? key e <|> Fields.get? key [(field, value)]) := by
  unfold inherit
  split
  · next own h =>
    rw [Fields.get?_cons]
    split
    · next hkey =>
      rw [hkey, h]
      rfl
    · simp
  · next h =>
    rw [Fields.get?_set, Fields.get?_cons]
    split
    · next hkey =>
      rw [hkey, h]
      rfl
    · simp

/-- A field that an event has stays, and one that it lacks is the mark of that name. -/
theorem get?_extendedBy (key : String) (marks : Fields Json) (e : Event) :
    Fields.get? key (e.extendedBy marks) = (Fields.get? key e <|> Fields.get? key marks) := by
  induction marks generalizing e with
  | nil => simp [extendedBy]
  | cons mark rest ih =>
    have hstep : e.extendedBy (mark :: rest) = (e.inherit mark.1 mark.2).extendedBy rest := rfl
    rw [hstep, ih, get?_inherit, Fields.get?_cons, Fields.get?_cons]
    split <;> cases Fields.get? key e <;> simp

end Event

/-- The fields that tell of the group of an event. -/
def groupFields : List String := ["upload_id", "upload_name", "upload_time"]

/-- Whether a row is an event as it was: with all of its fields, and with no more than those that
tell of its group. A name and a time that it had may have given way only where the name said
nothing. -/
structure Event.IsKeptIn (e row : Event) : Prop where
  others (key : String) : key ∉ groupFields → Fields.get? key row = Fields.get? key e
  has (key : String) (v : Json) : Fields.get? key e = some v →
    ∃ w, Fields.get? key row = some w ∧ (w = v ∨ e.present? "upload_name" = none)

namespace EventGroup

/-- What a group gives to its events. -/
def marks (g : EventGroup) : Fields Json :=
  [("upload_id", g.id), ("upload_name", g.nameText), ("upload_time", g.timeText)]

theorem tag_eq (g : EventGroup) (e : Event) : g.tag e = e.extendedBy g.marks := rfl

theorem get?_marks_of_notMem {g : EventGroup} {key : String} (h : key ∉ groupFields) :
    Fields.get? key g.marks = none := by
  simp only [groupFields, List.mem_cons, List.not_mem_nil, or_false, not_or] at h
  simp [marks, Fields.get?_cons, h]

end EventGroup

namespace Event

theorem isKeptIn_self (e : Event) : e.IsKeptIn e where
  others _ _ := rfl
  has _ v h := ⟨v, h, .inl rfl⟩

theorem isKeptIn_tag (g : EventGroup) (e : Event) : e.IsKeptIn (g.tag e) where
  others key hkey := by
    rw [EventGroup.tag_eq, get?_extendedBy, EventGroup.get?_marks_of_notMem hkey]
    simp
  has key v h := by
    refine ⟨v, ?_, .inl rfl⟩
    rw [EventGroup.tag_eq, get?_extendedBy, h]
    rfl

theorem isKeptIn_backfill (groups : List EventGroup) (e : Event) :
    e.IsKeptIn (EventGroup.backfill groups e) := by
  unfold EventGroup.backfill
  split
  · next id hname _ =>
    split
    · next g _ =>
      constructor
      · intro key hkey
        simp only [groupFields, List.mem_cons, List.not_mem_nil, or_false, not_or] at hkey
        rw [Fields.get?_set, Fields.get?_set, if_neg hkey.2.2, if_neg hkey.2.1]
      · intro key v h
        rw [Fields.get?_set, Fields.get?_set]
        -- a key that is written has a value, and only because the name says nothing
        by_cases htime : key = "upload_time"
        · exact ⟨g.timeText, if_pos htime, .inr hname⟩
        by_cases hsame : key = "upload_name"
        · exact ⟨g.nameText, by rw [if_neg htime, if_pos hsame], .inr hname⟩
        · exact ⟨v, by rw [if_neg htime, if_neg hsame, h], .inl rfl⟩
    · exact isKeptIn_self e
  · exact isKeptIn_self e

end Event

/-! ## 2. The rows of a payload -/

namespace Json

/-- Whether a document is a trace: a list, or an object with a list of events or of groups. -/
def isTrace : Json → Bool
  | .array _ => true
  | .object fields =>
    ["events", "uploads", "traces"].any fun key => (memberItems? key (.object fields)).isSome
  | _ => false

/-- The items of the list of events in a document; none where there is no such list. -/
def ownEvents (j : Json) : List Json := (j.memberItems? "events").getD []

/-- What stands in the lists of events of a document, one list after another. A list of events
counts before uploads, and uploads before traces. -/
def eventItems : Json → List Json
  | .array items => items
  | j =>
    match j.memberItems? "events", j.memberItems? "uploads", j.memberItems? "traces" with
    | some items, _, _ => items
    | none, some groups, _ => groups.flatMap ownEvents
    | none, none, some groups => groups.flatMap ownEvents
    | none, none, none => []

end Json

theorem forall₂_map_of_forall {α β : Type} {R : α → β → Prop} {f : α → β} (h : ∀ a, R a (f a))
    (l : List α) : List.Forall₂ R l (l.map f) := by
  rw [List.forall₂_map_right_iff]
  exact List.forall₂_same.mpr fun a _ => h a

namespace EventGroup

/-- Rows of groups are the events of the groups' lists. -/
theorem keptIn_rows (groups : List EventGroup) :
    List.Forall₂ Event.IsKeptIn ((groups.flatMap events).filterMap Json.object?) (rows groups) := by
  rw [List.filterMap_flatMap]
  induction groups with
  | nil => exact .nil
  | cons g rest ih =>
    exact List.rel_append (forall₂_map_of_forall (Event.isKeptIn_tag g) _) ih

theorem flatMap_events_ofMembers (id name time : String) (groups : List Json) :
    (groups.map (ofMembers id name time)).flatMap events = groups.flatMap Json.ownEvents := by
  rw [List.flatMap_map]
  rfl

end EventGroup

/-- Every trace is read, and its rows are the objects in its lists of events. -/
theorem TraceRows.ofPayload_of_isTrace {j : Json} (h : j.isTrace = true) :
    ∃ payload, Payload.ofJson j = .ok payload ∧ ∀ fallback,
      List.Forall₂ Event.IsKeptIn (j.eventItems.filterMap Json.object?)
        (TraceRows.ofPayload payload fallback).rows := by
  cases j with
  | array items => exact ⟨_, rfl, fun _ => List.forall₂_same.mpr fun e _ => e.isKeptIn_self⟩
  | object fields =>
    simp only [Json.isTrace, List.any_cons, List.any_nil, Bool.or_false, Bool.or_eq_true] at h
    cases hevents : Json.memberItems? "events" (.object fields) with
    | some items =>
      simp only [Json.eventItems, Payload.ofJson, hevents]
      refine ⟨_, rfl, fun fallback => ?_⟩
      cases Json.memberItems? "uploads" (.object fields) with
      | none => exact List.forall₂_same.mpr fun e _ => Event.isKeptIn_self e
      | some groups => exact forall₂_map_of_forall (Event.isKeptIn_backfill _) _
    | none =>
      cases huploads : Json.memberItems? "uploads" (.object fields) with
      | some groups =>
        simp only [Json.eventItems, Payload.ofJson, hevents, huploads]
        refine ⟨_, rfl, fun fallback => ?_⟩
        rw [← EventGroup.flatMap_events_ofMembers "id" "name" "timestamp"]
        exact EventGroup.keptIn_rows _
      | none =>
        cases htraces : Json.memberItems? "traces" (.object fields) with
        | some groups =>
          simp only [Json.eventItems, Payload.ofJson, hevents, huploads, htraces]
          refine ⟨_, rfl, fun fallback => ?_⟩
          rw [← EventGroup.flatMap_events_ofMembers "upload_id" "upload_name" "upload_time"]
          exact EventGroup.keptIn_rows _
        | none => simp [hevents, huploads, htraces] at h
  | _ => cases h

/-! ## 3. The rows of all sources -/

namespace LoadedTrace

/-- The rows that a source gives on its own; none where it cannot be loaded. -/
def ownRows (files : Files) (sources : List TraceSource) (position : Nat) : List Event :=
  match load files sources .byUpload position with
  | .ok loaded => loaded.trace.rows
  | .error _ => []

end LoadedTrace

namespace TraceSource

/-- What consolidated loading tells of a source: its place, counted from one, its name without an
ending, and when it was last changed. -/
def marks (files : Files) (position : Nat) (s : TraceSource) : Fields Json :=
  [("upload_id", .ofInt (position + 1)), ("upload_name", .string s.stem),
    ("upload_time", .string (s.changed files))]

end TraceSource

namespace LoadedTrace

variable {files : Files} {sources : List TraceSource} {s : TraceSource} {position : Nat}

theorem ownRows_eq (h : sources[position]? = some s) :
    ownRows files sources position =
      match s.rows files with
      | .ok trace => trace.rows
      | .error _ => [] := by
  unfold ownRows load
  rw [h]
  cases hrows : s.rows files <;> simp only [hrows, ofRows]

/-- The group of a source holds the rows that the source gives on its own. -/
theorem rows_group? (h : sources[position]? = some s) :
    EventGroup.rows (s.group? files position).toList =
      (ownRows files sources position).map (Event.extendedBy (s.marks files position)) := by
  rw [ownRows_eq h]
  unfold TraceSource.group?
  cases s.rows files with
  | error _ => rfl
  | ok trace =>
    have hevents : Event.ofItems (trace.rows.map Json.object) = trace.rows := by
      unfold Event.ofItems
      rw [List.filterMap_map]
      exact List.filterMap_some
    simp only [Option.toList, EventGroup.rows, List.flatMap_cons, List.flatMap_nil, List.append_nil,
      hevents]
    rfl

theorem rowCount_summary (h : sources[position]? = some s) :
    (s.summary files).rowCount = (ownRows files sources position).length := by
  rw [ownRows_eq h]
  unfold TraceSource.summary
  cases s.rows files <;> rfl

end LoadedTrace

theorem TraceRows.rows_consolidated (files : Files) (sources : List TraceSource) :
    (TraceRows.consolidated files sources).rows =
      sources.zipIdx.flatMap fun s =>
        (LoadedTrace.ownRows files sources s.2).map (Event.extendedBy (s.1.marks files s.2)) := by
  have hgroup : ∀ s ∈ sources.zipIdx, EventGroup.rows (s.1.group? files s.2).toList =
      (LoadedTrace.ownRows files sources s.2).map (Event.extendedBy (s.1.marks files s.2)) :=
    fun s hs => LoadedTrace.rows_group? (List.mem_zipIdx_iff_getElem?.mp hs)
  rw [← List.flatMap_congr hgroup]
  show EventGroup.rows _ = _
  unfold EventGroup.rows
  rw [List.filterMap_eq_flatMap_toList, List.flatMap_assoc]

/-- A row that a source gives on its own is there with the marks of the source. -/
theorem LoadedTrace.mem_rows_consolidated {files : Files} {sources : List TraceSource} {i : Nat}
    {s : TraceSource} {e : Event} (hs : sources[i]? = some s) (he : e ∈ ownRows files sources i) :
    e.extendedBy (s.marks files i) ∈ (TraceRows.consolidated files sources).rows := by
  rw [TraceRows.rows_consolidated, List.mem_flatMap]
  exact ⟨(s, i), List.mem_zipIdx_iff_getElem?.mpr hs, List.mem_map_of_mem he⟩

theorem LoadedTrace.counts_summaries (files : Files) (sources : List TraceSource) :
    (sources.zipIdx.map fun s => (s.2, s.1.summary files)).map
        (fun s => (s.1, s.2.label, s.2.rowCount)) =
      sources.zipIdx.map fun s => (s.2, s.1.label, (ownRows files sources s.2).length) := by
  have hlabel (s : TraceSource) : (s.summary files).label = s.label := by
    unfold TraceSource.summary
    cases s.rows files <;> rfl
  rw [List.map_map]
  apply List.map_congr_left
  intro s hs
  have hcount : (s.1.summary files).rowCount = (ownRows files sources s.2).length :=
    rowCount_summary (List.mem_zipIdx_iff_getElem?.mp hs)
  simp only [Function.comp, hlabel, hcount]

/-- Loading keeps every event and the order of the events. A trace is read into one row for each
object in its lists of events, and the row has the fields of the event. Consolidated loading never
fails; its rows are those that the sources give on their own, one source after another, each with
the marks of its source that it lacks, and its summaries count them. -/
theorem LoadedTrace.events_kept {j : Json} (hj : j.isTrace = true) (files : Files)
    (sources : List TraceSource) (selected : Nat) :
    (∃ payload, Payload.ofJson j = .ok payload ∧ ∀ fallback,
      List.Forall₂ Event.IsKeptIn (j.eventItems.filterMap Json.object?)
        (TraceRows.ofPayload payload fallback).rows) ∧
    (∃ loaded, load files sources .consolidated selected = .ok loaded ∧
      loaded.trace.rows = (sources.zipIdx.flatMap fun s =>
        (ownRows files sources s.2).map (Event.extendedBy (s.1.marks files s.2))) ∧
      loaded.summaries.map (fun s => (s.1, s.2.label, s.2.rowCount)) =
        sources.zipIdx.map fun s => (s.2, s.1.label, (ownRows files sources s.2).length)) ∧
    ∀ key marks e, Fields.get? key (Event.extendedBy marks e) =
      (Fields.get? key e <|> Fields.get? key marks) := by
  refine ⟨TraceRows.ofPayload_of_isTrace hj, ⟨_, rfl, ?_, ?_⟩, Event.get?_extendedBy⟩
  · exact TraceRows.rows_consolidated files sources
  · exact counts_summaries files sources

/-- Uploads with an event that is none and one that names an upload itself, and sources of which
the second cannot be read and the third has rows with a name of their own. -/
theorem LoadedTrace.events_kept_of_three :
    let j : Json := .object [("uploads", .array [
      .object [("id", .string "7"), ("events", .array [.object [("a", .null)], .bool true])],
      .object [("events", .array [.object [("upload_id", .string "8")]])]])]
    let sources : List TraceSource :=
      [.inline "one" "[\x7b\"x\":\"1\"\x7d,true]", .inline "two" "oops",
        .inline "three" "[\x7b\"upload_name\":\"own\"\x7d]"]
    j.isTrace = true ∧
    (∃ payload, Payload.ofJson j = .ok payload ∧
      List.Forall₂ Event.IsKeptIn [[("a", .null)], [("upload_id", .string "8")]]
        (TraceRows.ofPayload payload "j").rows) ∧
    ∃ loaded, load {} sources .consolidated 0 = .ok loaded ∧
      loaded.trace.rows =
        [[("upload_id", .ofInt 1), ("upload_name", .string "one"), ("upload_time", .string ""),
            ("x", .string "1")],
          [("upload_id", .ofInt 3), ("upload_name", .string "own"), ("upload_time", .string "")]] ∧
      loaded.summaries.map (fun s => (s.1, s.2.label, s.2.rowCount)) =
        [(0, "one", 1), (1, "two", 0), (2, "three", 1)] := by
  intro j sources
  have hj : j.isTrace = true := by decide
  obtain ⟨⟨payload, hpayload, hrows⟩, ⟨loaded, hload, hall, hcounts⟩, _⟩ :=
    events_kept hj {} sources 0
  exact ⟨hj, ⟨payload, hpayload, hrows "j"⟩, loaded, hload, hall, hcounts⟩

end TraceViewer
