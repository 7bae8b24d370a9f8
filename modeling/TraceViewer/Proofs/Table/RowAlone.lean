import TraceViewer.Proofs.Table.Filtering

/-!
# Rows are decided one by one

Rows are decided one after another with the same parsers, and a call of a parser can change its
variables.  `Table.refilter_alone` says that each row is decided as if it were the only one, and
again the same at any later time, as long as no filter that gets to see one of the rows changes a
variable that the parsers have a way to when it is evaluated for this row alone.  A parser that
counts its calls shows that this cannot be dropped.
-/

namespace TraceViewer

open Snippet
open Registry (Continues)

namespace Registry

variable {reg r r' : Registry}

/-! ## 1. Runs that leave the variables of the parsers -/

/-- The variables that the parsers have a way to are in a later registry as they were. -/
def Leaves (r r' : Registry) : Prop :=
  ∀ i, r.Needs i → r'.heap.scopes[i]? = r.heap.scopes[i]?

/-- Numbers of source texts that stand for each other: the same one that was given out, or two that
were not. -/
def Stands (r : Registry) (s s' : Nat) : Prop :=
  s = s' ∧ s < r.heap.nextSource ∨ r.heap.nextSource ≤ s ∧ r.heap.nextSource ≤ s'

theorem Unchanged.refl (hr : r.Sound) : Unchanged r r := ⟨.refl hr, fun _ _ => rfl⟩

theorem Unchanged.read (h : Unchanged r r') : Unchanged r r'.source.2 :=
  ⟨h.toContinues.trans h.sound.source, h.scopes⟩

theorem Stands.apart (hr : r.Sound) {s s' : Nat} (h : r.Stands s s') :
    s = s' ∨ ¬r.Keeps s ∧ ¬r.Keeps s' :=
  h.imp And.left (And.imp hr.not_keeps hr.not_keeps)

/-- Two registries in which the parsers find their variables as they were run alike, also where two
source texts that the parsers do not keep stand for each other. -/
theorem Unchanged.beside_sources (hreg : reg.Sound) (h : Unchanged reg r) (h' : Unchanged reg r')
    {s s' : Nat} (hs : s < r.heap.nextSource) (hs' : s' < r'.heap.nextSource)
    (hss : s = s' ∨ ¬reg.Keeps s ∧ ¬reg.Keeps s') :
    ∃ w : SideBySide r.setting r'.setting, Beside r r' w ∧
      (∀ i, reg.Needs i → w.ρ.scope i i) ∧ w.ρ.source s s' := by
  obtain ⟨w, hw, hρ⟩ := Unchanged.beside_of hreg h h'
    (fun a b => a = b ∧ reg.Keeps a ∨ a = s ∧ b = s')
    (by
      rcases hss with rfl | ⟨hs, hs'⟩
      · refine Renaming.oneToOne_eq.mono fun a b hab => ?_
        rcases hab with ⟨rfl, _⟩ | ⟨rfl, rfl⟩ <;> rfl
      · rintro a a' b b' (⟨rfl, ha⟩ | ⟨rfl, rfl⟩) (⟨rfl, hb⟩ | ⟨rfl, rfl⟩)
        · exact Iff.rfl
        · exact iff_of_false (fun heq => hs (heq ▸ ha)) fun heq => hs' (heq ▸ ha)
        · exact iff_of_false (fun heq => hs (heq ▸ hb)) fun heq => hs' (heq ▸ hb)
        · simp)
    (by
      rintro a b (⟨rfl, ha⟩ | ⟨rfl, rfl⟩)
      · have hlt := hreg.lt_of_keeps ha
        exact ⟨Nat.lt_of_lt_of_le hlt h.source, Nat.lt_of_lt_of_le hlt h'.source⟩
      · exact ⟨hs, hs'⟩)
    fun a ha => .inl ⟨rfl, ha⟩
  refine ⟨w, hw, fun i hi => ?_, ?_⟩
  · rw [hρ]
    exact ⟨rfl, hi⟩
  · rw [hρ]
    exact .inr ⟨rfl, rfl⟩

/-- Two runs that are alike have alike outcomes, and one leaves the variables if the other does. -/
theorem leaves_perform {w : SideBySide r.setting r'.setting} (h : Unchanged reg r)
    (h' : Unchanged reg r') (hw : Beside r r' w) (hscope : ∀ i, reg.Needs i → w.ρ.scope i i)
    {α β : Type} {own : Option Nat} (run : Setting → Run α) (run' : Setting → Run β)
    {P : SideBySide r.setting r'.setting → α → β → Prop}
    (hrun : w.Runs own P (run r.setting) (run' r'.setting)) :
    (∃ v, OutcomesAlike (P v) (r.perform run).1 (r'.perform run').1) ∧
      (reg.Leaves (r.perform run).2 → reg.Leaves (r'.perform run').2) := by
  obtain ⟨v, hv, hleft, hright, houtcome⟩ := perform_alike hw run run' hrun
  refine ⟨⟨v, houtcome⟩, fun hleaves i hi => ?_⟩
  -- before the runs the scope is as it was on both sides
  obtain ⟨s, s', hs, hs', hss⟩ := w.heap.scope i i (hscope i hi)
  rw [hw.left] at hs
  rw [hw.right] at hs'
  have hs : reg.heap.scopes[i]? = some s := (h.scopes i hi).symm.trans hs
  have hs' : reg.heap.scopes[i]? = some s' := (h'.scopes i hi).symm.trans hs'
  obtain rfl := Option.some.inj (hs.symm.trans hs')
  obtain ⟨t, t', ht, ht', htt⟩ := v.heap.scope i i (hv.le.scope _ _ (hscope i hi))
  rw [hleft, hleaves i hi, hs] at ht
  obtain rfl := Option.some.inj ht
  -- the scope on the left is as it was, so its numbers stand for themselves
  rw [← hright, ht', hs, htt.eq_of_self v.heap.faithful (hss.mono hv.le)]

/-- Evaluates an expression for a cell. -/
def runCell (source : Nat) (cell : String) (e : Expr) (S : Setting) : Run Value := do
  let env ← Run.openScope [("value", .text cell)] source
  runExpr S env e

/-- Evaluates an expression for an event, and calls a function that this gives. -/
def runRow (source : Nat) (event : Event) (e : Expr) (S : Setting) : Run Value := do
  let row ← RowFilter.eventValue event
  let env ← Run.openScope [("row", row)] source
  let v ← runExpr S env e
  if v.isCallable then runCall S v [row] else return v

theorem keep_cell_of_read {f : CellFilter} {e : Expr} (h : f.parsed = .ok e) (cell : String)
    (r : Registry) :
    f.keep cell r =
      (match (r.perform (runCell f.source cell e)).1 with
        | .ok v => v.isTrue
        | .error _ => f.shape == .bare && f.isFoundIn cell,
      (r.perform (runCell f.source cell e)).2) := by
  unfold CellFilter.keep CellFilter.eval runCell
  rw [h]
  dsimp only
  generalize r.perform _ = outcome
  obtain ⟨_ | _, _⟩ := outcome <;> rfl

theorem keep_row_eq (f : RowFilter) (event : Event) (r : Registry) :
    f.keep event r =
      (match (r.perform (runRow f.source event f.expr)).1 with
        | .ok v => v.isTrue
        | .error _ => true,
      (r.perform (runRow f.source event f.expr)).2) := by
  unfold RowFilter.keep RowFilter.eval runRow
  generalize r.perform _ = outcome
  obtain ⟨_ | _, _⟩ := outcome <;> rfl

section Decisions

variable (hreg : reg.Sound) (h : Unchanged reg r) (h' : Unchanged reg r')
include hreg h h'

/-- Filters of one text decide the same about a cell, and leave the variables if one of them
does. -/
theorem Unchanged.keep_cells {f f' : CellFilter} (htext : f'.text = f.text)
    (hparsed : f'.parsed = f.parsed) (hf : f.source < r.heap.nextSource)
    (hf' : f'.source < r'.heap.nextSource)
    (hff : f.source = f'.source ∨ ¬reg.Keeps f.source ∧ ¬reg.Keeps f'.source) (cell : String) :
    (f'.keep cell r').1 = (f.keep cell r).1 ∧
      (reg.Leaves (f.keep cell r).2 → reg.Leaves (f'.keep cell r').2) := by
  obtain ⟨w, hw, hscope, hsource⟩ := Unchanged.beside_sources hreg h h' hf hf' hff
  have hshape : f'.shape = f.shape := congrArg FilterShape.ofText htext
  have hfound : f'.isFoundIn cell = f.isFoundIn cell := by
    unfold CellFilter.isFoundIn
    rw [htext]
  cases hread : f.parsed with
  | error e =>
    -- nothing is evaluated
    unfold CellFilter.keep CellFilter.eval
    rw [hparsed, hread]
    refine ⟨?_, fun _ => h'.scopes⟩
    simp only [CellFilter.decide, hshape, hfound]
  | ok e =>
    obtain ⟨⟨v, houtcome⟩, hleaves⟩ := leaves_perform h h' hw hscope (runCell f.source cell e)
      (runCell f'.source cell e) (runs_cell hw.within hsource cell e)
    rw [keep_cell_of_read hread, keep_cell_of_read (hparsed.trans hread)]
    refine ⟨?_, hleaves⟩
    dsimp only
    generalize (r.perform _).1 = x at houtcome ⊢
    generalize (r'.perform _).1 = x' at houtcome ⊢
    cases houtcome with
    | ok hv => exact (isTrue_eq hv).symm
    | error e => rw [hshape, hfound]

/-- So do filters of rows that were read alike. -/
theorem Unchanged.keep_rows {f f' : RowFilter} (hexpr : f'.expr = f.expr)
    (hf : f.source < r.heap.nextSource) (hf' : f'.source < r'.heap.nextSource)
    (hff : f.source = f'.source ∨ ¬reg.Keeps f.source ∧ ¬reg.Keeps f'.source) (event : Event) :
    (f'.keep event r').1 = (f.keep event r).1 ∧
      (reg.Leaves (f.keep event r).2 → reg.Leaves (f'.keep event r').2) := by
  obtain ⟨w, hw, hscope, hsource⟩ := Unchanged.beside_sources hreg h h' hf hf' hff
  obtain ⟨⟨v, houtcome⟩, hleaves⟩ := leaves_perform h h' hw hscope (runRow f.source event f.expr)
    (runRow f'.source event f.expr) (runs_row hw.within hsource event f.expr)
  rw [keep_row_eq, keep_row_eq, hexpr]
  refine ⟨?_, hleaves⟩
  dsimp only
  generalize (r.perform _).1 = x at houtcome ⊢
  generalize (r'.perform _).1 = x' at houtcome ⊢
  cases houtcome with
  | ok hv => exact (isTrue_eq hv).symm
  | error e => rfl

end Decisions

end Registry

/-! ## 2. A filter of a column -/

namespace FilterCache

variable {c c' : FilterCache} {r r' : Registry} {text : String}

/-- What reading a text that is not blank gives. -/
def read (c : FilterCache) (text : String) (r : Registry) : CellFilter × FilterCache × Registry :=
  match c.cached? text with
  | some f => (f, c, r)
  | none => (fresh text r, ⟨c.filters ++ [fresh text r]⟩, r.source.2)

theorem keepCell_eq_read (h : ¬(Text.trim text).isEmpty = true) (cell : String) :
    c.keepCell text cell r =
      (((c.read text r).1.keep cell (c.read text r).2.2).1, (c.read text r).2.1,
        ((c.read text r).1.keep cell (c.read text r).2.2).2) := by
  unfold read
  cases hf : c.cached? text with
  | some f => exact keepCell_cached h hf cell
  | none => exact keepCell_fresh h hf cell

/-- A later registry in which the parsers find their variables as they were, with a cache that has
grown by texts that were read since. -/
structure Grown (c : FilterCache) (r : Registry) (c' : FilterCache) (r' : Registry) : Prop where
  unchanged : Registry.Unchanged r r'
  sourced : c.Sourced r
  filters : ∃ more, c'.filters = c.filters ++ more ∧ ∀ f ∈ more,
    f.parsed = readExpr f.text ∧ r.heap.nextSource ≤ f.source ∧ f.source < r'.heap.nextSource

theorem Grown.refl (hr : r.Sound) (hc : c.Sourced r) : Grown c r c r :=
  ⟨.refl hr, hc, [], (List.append_nil _).symm, fun _ hf => (nomatch hf)⟩

/-- Going on without reading a text. -/
theorem Grown.trans {r'' : Registry} (h : Grown c r c' r') (g : Continues r' r'')
    (hleaves : r.Leaves r'') : Grown c r c' r'' := by
  obtain ⟨more, hmore, hnew⟩ := h.filters
  refine ⟨⟨h.unchanged.toContinues.trans g, hleaves⟩, h.sourced, more, hmore, fun f hf => ?_⟩
  obtain ⟨hparsed, hle, hlt⟩ := hnew f hf
  exact ⟨hparsed, hle, Nat.lt_of_lt_of_le hlt g.source⟩

/-- Filters that two caches give for a text, with the registries after reading it. -/
structure ReadAlike (c : FilterCache) (r : Registry) (x y : CellFilter × FilterCache × Registry) :
    Prop where
  text : y.1.text = x.1.text
  parsed : y.1.parsed = x.1.parsed
  stands : r.Stands x.1.source y.1.source
  left : x.1.source < x.2.2.heap.nextSource
  right : y.1.source < y.2.2.heap.nextSource
  unchanged : Registry.Unchanged r x.2.2
  grown : Grown c r y.2.1 y.2.2

theorem Grown.read (hr : r.Sound) (h : Grown c r c' r') (text : String) :
    ReadAlike c r (c.read text r) (c'.read text r') := by
  obtain ⟨more, hmore, hnew⟩ := h.filters
  have hlater := h.unchanged.source
  unfold FilterCache.read
  cases hf : c.cached? text with
  | some f =>
    have hf' : c'.cached? text = some f :=
      cached?_of_prefix (by rw [hmore]; exact List.prefix_append _ _) hf
    have hlt := h.sourced f (cached?_mem hf)
    rw [hf']
    exact ⟨rfl, rfl, .inl ⟨rfl, hlt⟩, hlt, Nat.lt_of_lt_of_le hlt hlater, .refl hr, h⟩
  | none =>
    have hleft : (fresh text r).source < r.source.2.heap.nextSource := Nat.lt_succ_self _
    cases hf' : c'.cached? text with
    | some f =>
      -- the text was read in the meantime
      have hfind : (more.find? fun f => f.text == Text.trim text) = some f := by
        unfold cached? at hf hf'
        rwa [hmore, List.find?_append, hf, Option.none_or] at hf'
      have htext : f.text = Text.trim text := by simpa using List.find?_some hfind
      obtain ⟨hparsed, hle, hlt⟩ := hnew f (List.mem_of_find?_eq_some hfind)
      exact ⟨htext, by rw [hparsed, htext]; rfl, .inr ⟨Nat.le_refl _, hle⟩, hleft, hlt,
        (Registry.Unchanged.refl hr).read, h⟩
    | none =>
      have hright : (fresh text r').source < r'.source.2.heap.nextSource := Nat.lt_succ_self _
      refine ⟨rfl, rfl, .inr ⟨Nat.le_refl _, hlater⟩, hleft, hright,
        (Registry.Unchanged.refl hr).read, h.unchanged.read, h.sourced, more ++ [fresh text r'], ?_,
        ?_⟩
      · rw [hmore, List.append_assoc]
      · intro f hf
        rcases List.mem_append.mp hf with hf | hf
        · obtain ⟨hparsed, hle, hlt⟩ := hnew f hf
          exact ⟨hparsed, hle, Nat.lt_succ_of_lt hlt⟩
        · rw [List.mem_singleton.mp hf]
          exact ⟨rfl, hlater, hright⟩

/-- A filter decides about a cell as it did before, and leaves the variables if it did before. -/
theorem Grown.keepCell (hr : r.Sound) (h : Grown c r c' r') {text cell : String}
    (hleaves : r.Leaves (c.keepCell text cell r).2.2) :
    (c'.keepCell text cell r').1 = (c.keepCell text cell r).1 ∧
      Grown c r (c'.keepCell text cell r').2.1 (c'.keepCell text cell r').2.2 := by
  by_cases hblank : (Text.trim text).isEmpty = true
  · rw [keepCell_blank hblank, keepCell_blank hblank]
    exact ⟨rfl, h⟩
  · rw [keepCell_eq_read hblank] at hleaves
    rw [keepCell_eq_read hblank, keepCell_eq_read hblank]
    have hread := h.read hr text
    obtain ⟨hkept, hafter⟩ := Registry.Unchanged.keep_cells hr hread.unchanged
      hread.grown.unchanged hread.text hread.parsed hread.left hread.right
      (hread.stands.apart hr) cell
    have hserves := keep_serves (c'.read text r').1 hread.right cell
    exact ⟨hkept, hread.grown.trans (hserves.continues hread.grown.unchanged.sound)
      (hafter hleaves)⟩

end FilterCache

/-! ## 3. Rows one after another -/

namespace Table

open FilterCache (Grown)

variable {c c' : FilterCache} {r r' : Registry} {filters : List (String × String)}
  {rowFilter : Option RowFilter} {row : Event}

/-- The filters of columns up to the first that does not keep the row leave the variables of the
parsers, each when it is evaluated by itself. -/
def CellsSpare (c : FilterCache) (r : Registry) (row : Event) : List (String × String) → Prop
  | [] => True
  | (column, text) :: rest =>
    r.Leaves (c.keepCell text (row.cell column) r).2.2 ∧
      ((c.keepCell text (row.cell column) r).1 = true → CellsSpare c r row rest)

/-- So does the filter of rows if the columns keep the row. -/
def RowSpares (filters : List (String × String)) (rowFilter : Option RowFilter) (c : FilterCache)
    (r : Registry) (row : Event) : Prop :=
  CellsSpare c r row filters ∧
    ((filters.all fun f => (c.keepCell f.2 (row.cell f.1) r).1) = true →
      ∀ f ∈ rowFilter, r.Leaves (f.keep row r).2)

theorem grown_keepCells (hr : r.Sound) (h : Grown c r c' r') (hspare : CellsSpare c r row filters) :
    (keepCells row filters c' r').1 =
        (filters.all fun f => (c.keepCell f.2 (row.cell f.1) r).1) ∧
      Grown c r (keepCells row filters c' r').2.1 (keepCells row filters c' r').2.2 := by
  induction filters generalizing c' r' with
  | nil => exact ⟨rfl, h⟩
  | cons f rest ih =>
    obtain ⟨hleaves, hrest⟩ := hspare
    obtain ⟨hkept, hafter⟩ := h.keepCell hr hleaves
    rw [keepCells_cons, List.all_cons, hkept]
    cases hf : (c.keepCell f.2 (row.cell f.1) r).1 with
    | true =>
      rw [if_pos rfl, Bool.true_and]
      exact ih hafter (hrest hf)
    | false =>
      rw [if_neg Bool.false_ne_true, Bool.false_and]
      exact ⟨hkept.trans hf, hafter⟩

theorem grown_keepRow (hr : r.Sound) (hf : RowSourced rowFilter r) (h : Grown c r c' r')
    (hspares : RowSpares filters rowFilter c r row) :
    (keepRow filters rowFilter row c' r').1 = decides filters rowFilter c r row ∧
      Grown c r (keepRow filters rowFilter row c' r').2.1
        (keepRow filters rowFilter row c' r').2.2 := by
  obtain ⟨hkept, hafter⟩ := grown_keepCells hr h hspares.1
  unfold decides
  cases rowFilter with
  | none =>
    rw [keepRow_none, hkept]
    exact ⟨(Bool.and_true _).symm, hafter⟩
  | some f =>
    by_cases hcells : (keepCells row filters c' r').1 = true
    · have hlt := hf f rfl
      have hlt' := Nat.lt_of_lt_of_le hlt hafter.unchanged.source
      obtain ⟨hrow, hleaves⟩ := Registry.Unchanged.keep_rows hr (.refl hr) hafter.unchanged rfl hlt
        hlt' (.inl rfl) row
      have hserves := row_serves f hlt' row
      rw [keepRow_some f hcells, ← hkept, hcells, Bool.true_and]
      exact ⟨hrow, hafter.trans (hserves.continues hafter.unchanged.sound)
        (hleaves (hspares.2 (hkept.symm.trans hcells) f rfl))⟩
    · have hcells' := Bool.not_eq_true _ |>.mp hcells
      rw [keepRow_of_not hcells, ← hkept, hcells', Bool.false_and]
      exact ⟨rfl, hafter⟩

theorem grown_keepRows (hr : r.Sound) (hf : RowSourced rowFilter r) (h : Grown c r c' r')
    {rows : List Event} (hspares : ∀ row ∈ rows, RowSpares filters rowFilter c r row)
    (acc : List Bool) :
    (keepRows filters rowFilter rows acc c' r').1 =
        acc.reverse ++ rows.map (decides filters rowFilter c r) ∧
      Grown c r (keepRows filters rowFilter rows acc c' r').2.1
        (keepRows filters rowFilter rows acc c' r').2.2 := by
  induction rows generalizing acc c' r' with
  | nil => exact ⟨(List.append_nil _).symm, h⟩
  | cons row rest ih =>
    obtain ⟨hkept, hafter⟩ := grown_keepRow hr hf h (hspares row (List.mem_cons_self ..))
    obtain ⟨hrest, hlast⟩ := ih hafter (fun row hrow => hspares row (List.mem_cons_of_mem _ hrow))
      (decides filters rowFilter c r row :: acc)
    rw [keepRows_cons, hkept]
    refine ⟨?_, hlast⟩
    rw [hrest, List.reverse_cons, List.append_assoc, List.map_cons]
    rfl

/-! ## 4. Tables -/

/-- The table with a single row. -/
def only (t : Table) (row : Event) : Table :=
  { t with rows := #[row], order := [0], kept := #[true] }

/-- Whether the row shows when it is the only one. -/
def keepsAlone (t : Table) (r : Registry) (row : Event) : Bool :=
  ((t.only row).refilter r).1.isKept 0

/-- The filters that get to see a row change no variable of the parsers, each when it is evaluated
for this row alone. -/
def Spares (t : Table) (r : Registry) (row : Event) : Prop :=
  RowSpares t.filters t.rowFilter t.cache r row

variable {t : Table}

/-- A table as it was, but with other decisions, made with the parsers as they were. -/
structure Redone (t : Table) (r : Registry) (t' : Table) (r' : Registry) : Prop where
  table : t' = { t with kept := t'.kept, cache := t'.cache }
  grown : Grown t.cache r t'.cache r'

theorem Redone.order {t' : Table} (h : Redone t r t' r') : t'.order = t.order := by
  rw [h.table]

theorem visible_congr {t' : Table} (horder : t.order = t'.order) (hkept : t.kept = t'.kept) :
    t.visible = t'.visible := by
  unfold visible isKept
  rw [horder, hkept]

theorem Redone.refilter (hr : r.Sound) (hf : RowSourced t.rowFilter r)
    (hspares : ∀ row ∈ t.rows, t.Spares r row) {t' : Table} (h : Redone t r t' r') :
    (t'.refilter r').1.kept.toList = t.rows.toList.map (decides t.filters t.rowFilter t.cache r) ∧
      Redone t r (t'.refilter r').1 (t'.refilter r').2 := by
  have hspares : ∀ row ∈ t.rows.toList, t.Spares r row :=
    fun row hrow => hspares row (Array.mem_toList_iff.mp hrow)
  obtain ⟨hkept, hgrown⟩ := grown_keepRows hr hf h.grown hspares []
  rw [h.table]
  refine ⟨?_, rfl, hgrown⟩
  show (keepRows t.filters t.rowFilter t.rows.toList [] t'.cache r').1.toArray.toList = _
  rw [List.toList_toArray, hkept]
  rfl

theorem keepsAlone_eq (hr : r.Sound) (hc : t.cache.Sourced r) (hf : RowSourced t.rowFilter r)
    (hspares : t.Spares r row) :
    t.keepsAlone r row = decides t.filters t.rowFilter t.cache r row :=
  (grown_keepRow hr hf (.refl hr hc) hspares).1

/-- Each row is decided as if it were the only one, and any number of times again with the same
result, when no filter that gets to see one of the rows changes a variable of the parsers for it. -/
theorem refilter_alone (hr : r.Made) (hc : t.cache.Sourced r) (hf : RowSourced t.rowFilter r)
    (hspares : ∀ row ∈ t.rows, t.Spares r row) :
    (t.refilter r).1.kept = t.rows.map (t.keepsAlone r) ∧
      ∀ n, ((fun p : Table × Registry => p.1.refilter p.2)^[n] (t.refilter r)).1.visible =
        (t.refilter r).1.visible := by
  have hfirst : Redone t r t r := ⟨rfl, .refl hr.sound hc⟩
  have hkept (n : Nat) :
      let p := (fun p : Table × Registry => p.1.refilter p.2)^[n] (t.refilter r)
      p.1.kept.toList = t.rows.toList.map (decides t.filters t.rowFilter t.cache r) ∧
        Redone t r p.1 p.2 := by
    induction n with
    | zero => exact hfirst.refilter hr.sound hf hspares
    | succ n ih =>
      dsimp only
      rw [Function.iterate_succ_apply']
      exact ih.2.refilter hr.sound hf hspares
  obtain ⟨hzero, hredone⟩ := hkept 0
  constructor
  · refine Array.toList_inj.mp (hzero.trans ?_)
    rw [Array.toList_map]
    refine List.map_congr_left fun row hrow => ?_
    exact (keepsAlone_eq hr.sound hc hf (hspares row (Array.mem_toList_iff.mp hrow))).symm
  · intro n
    obtain ⟨hn, hredone'⟩ := hkept n
    exact visible_congr (hredone'.order.trans hredone.order.symm)
      (Array.toList_inj.mp (hn.trans hzero.symm))

/-- A parser that closes over no variables, and tells whether a text is longer than one letter. -/
def longParser : Registry := (({} : Registry).register "long" "x => x.length > 1").2

/-- Rows with these cells, of which a filter keeps some. -/
def filtered (filter : String) (cells : List String) : Table :=
  { ({} : Table).load ["v"] (cells.map fun cell => [("v", .string cell)]) with
    filters := [("v", filter)] }

theorem eq_empty_of_isEmpty {scope : Option Scope}
    (h : (scope.map fun s => (s.vars.isEmpty, s.parent)) = some (true, none)) :
    scope = some ⟨[], none⟩ := by
  obtain _ | ⟨_ | _, _ | _⟩ := scope
  · cases h
  · rfl
  · cases h
  · cases h
  · cases h

/-- The theorem for two rows and a parser. -/
theorem refilter_alone_longParser :
    let t := filtered "long(value)" ["x", "xy"]
    (∀ row ∈ t.rows, t.Spares longParser row) ∧
      (t.refilter longParser).1.kept = t.rows.map (t.keepsAlone longParser) ∧
      (t.refilter longParser).1.kept = #[false, true] := by
  have hmade : longParser.Made := .register (.new {}) _ _
  have hleaves (cell : String)
      (h : (((FilterCache.keepCell {} "long(value)" cell longParser).2.2.heap.scopes[0]?).map
        fun s => (s.vars.isEmpty, s.parent)) = some (true, none)) :
      longParser.Leaves (FilterCache.keepCell {} "long(value)" cell longParser).2.2 := by
    intro i hi
    -- the parser has a way to the one scope that there is
    obtain ⟨s, _, hs, _⟩ := hmade.sound.heap.scope i i ⟨rfl, hi⟩
    have hsize : longParser.heap.scopes.size = 1 := by decide +kernel
    have hlt : i < 1 := hsize ▸ (Array.getElem?_eq_some_iff.mp hs).1
    obtain rfl := Nat.lt_one_iff.mp hlt
    have hbefore : longParser.heap.scopes[0]? = some ⟨[], none⟩ :=
      eq_empty_of_isEmpty (by decide +kernel)
    exact (eq_empty_of_isEmpty h).trans hbefore.symm
  have hspares : ∀ row ∈ (filtered "long(value)" ["x", "xy"]).rows,
      (filtered "long(value)" ["x", "xy"]).Spares longParser row := by
    intro row hrow
    refine ⟨⟨?_, fun _ => trivial⟩, fun _ _ hf => (nomatch hf)⟩
    have hrow : row ∈ [[("v", Json.string "x")], [("v", Json.string "xy")]] :=
      Array.mem_toList_iff.mpr hrow
    simp only [List.mem_cons, List.not_mem_nil, or_false] at hrow
    rcases hrow with rfl | rfl
    · exact hleaves "x" (by decide +kernel)
    · exact hleaves "xy" (by decide +kernel)
  have hsourced : (filtered "long(value)" ["x", "xy"]).cache.Sourced longParser :=
    fun _ hf => (nomatch hf)
  have hrow : RowSourced (filtered "long(value)" ["x", "xy"]).rowFilter longParser :=
    fun _ hf => (nomatch hf)
  exact ⟨hspares, (refilter_alone hmade hsourced hrow hspares).1, by decide +kernel⟩

/-- A parser that counts its calls, and says from the second one on that it was called before. -/
def countingParser : Registry :=
  (({} : Registry).register "again"
    "function again(x) \x7b n = n + 1; return n > 1; \x7d let n = 0;").2

/-- Of two equal rows it keeps the second, and both when it is asked again; alone it keeps
neither. -/
theorem not_alone_countingParser :
    let t := filtered "again(value)" ["x", "x"]
    let p := t.refilter countingParser
    countingParser.Made ∧ t.cache.Sourced countingParser ∧ RowSourced t.rowFilter countingParser ∧
      p.1.kept ≠ t.rows.map (t.keepsAlone countingParser) ∧
      (p.1.refilter p.2).1.visible ≠ p.1.visible := by
  refine ⟨.register (.new {}) _ _, fun _ h => (nomatch h), fun _ h => (nomatch h), ?_, ?_⟩
  · decide +kernel
  · decide +kernel

end Table

end TraceViewer
