import TraceViewer.Proofs.Table.Interleaving

/-!
# Filters by their texts

A table knows its filters by texts without blanks at the ends.  Setting a filter to the text that it
has changes no text, and it shows the same rows if the parsers keep no state: the filter of a column
is found again in the cache.  The filter of rows is read anew, which makes another filter of it, so
the parsers must not have kept anything that the old one made.
-/

namespace TraceViewer

open Snippet (readExpr)
open Registry (Evolves Unchanged)
open FilterCache (Later)

/-- A text that a filter can have: without blanks at its ends, and not empty. -/
structure Text.IsTidy (text : String) : Prop where
  trim : Text.trim text = text
  ne : ¬text.isEmpty = true

theorem Text.isTidy_trim {text : String} (h : ¬(Text.trim text).isEmpty = true) :
    Text.IsTidy (Text.trim text) := ⟨Text.trim_trim text, h⟩

theorem Text.IsTidy.not_blank {text : String} (h : Text.IsTidy text) :
    ¬(Text.trim text).isEmpty = true := by
  rw [h.trim]
  exact h.ne

/-- The text that a filter gets which is set to some text; a blank one removes it. -/
def Text.tidied? (text : String) : Option String :=
  if (Text.trim text).isEmpty then none else some (Text.trim text)

/-- What a filter of rows says: its text, and the expression that this is. -/
def RowFilter.content (f : RowFilter) : String × Snippet.Expr := (f.text, f.expr)

namespace Table

variable {t : Table} {reg r r' : Registry} {column text : String}

/-! ## 1. The text of a filter -/

theorem filterOf?_setFilter (t : Table) (column text other : String) (r : Registry) :
    (t.setFilter column text r).1.filterOf? other =
      if column = other then Text.tidied? text else t.filterOf? other := by
  unfold filterOf? Text.tidied?
  by_cases hblank : (Text.trim text).isEmpty = true
  · rw [filters_setFilter_of_blank t r hblank, Named.lookup_filter_ne, if_pos hblank]
  · rw [filters_setFilter_of_text t r hblank, setText_eq_put, Named.lookup_put, if_neg hblank]

theorem rowFilter_clearFilter (t : Table) (column : String) (r : Registry) :
    (t.clearFilter column r).1.rowFilter = t.rowFilter := by
  unfold clearFilter
  dsimp only
  split <;> rfl

theorem rowFilter_setFilter (t : Table) (column text : String) (r : Registry) :
    (t.setFilter column text r).1.rowFilter = t.rowFilter := by
  unfold setFilter
  dsimp only
  split
  · exact t.rowFilter_clearFilter column r
  · rfl

theorem rowFilter_moveColumn (t : Table) (position : Nat) (delta : Int) :
    (t.moveColumn position delta).2.rowFilter = t.rowFilter := by
  unfold moveColumn
  split <;> rfl

theorem setText_self {filters : List (String × String)} (h : filters.lookup column = some text) :
    setText column text filters = filters := by
  induction filters with
  | nil => cases h
  | cons f rest ih =>
    obtain ⟨c, old⟩ := f
    rw [Named.lookup_cons] at h
    unfold setText
    by_cases hc : c = column
    · rw [if_pos hc] at h
      cases h
      rw [if_pos (beq_iff_eq.mpr hc), hc]
    · rw [if_neg hc] at h
      rw [if_neg (by simpa using hc), ih h]

theorem filter_ne_self {filters : List (String × String)} (h : filters.lookup column = none) :
    (filters.filter fun f => f.1 ≠ column) = filters := by
  refine List.filter_eq_self.mpr fun f hf => decide_eq_true fun hcolumn => ?_
  have hsome : (filters.lookup column).isSome :=
    Named.lookup_isSome_iff.mpr (List.mem_map.mpr ⟨f, hf, hcolumn⟩)
  rw [h] at hsome
  cases hsome

/-! ## 2. The filter of rows -/

theorem compile_blank (h : (Text.trim text).isEmpty = true) :
    RowFilter.compile text r = (.ok none, r) := by
  unfold RowFilter.compile
  rw [if_pos h]

theorem compile_of_ok (h : ¬(Text.trim text).isEmpty = true) {e : Snippet.Expr}
    (he : readExpr (Text.trim text) = .ok e) :
    RowFilter.compile text r = (.ok (some ⟨Text.trim text, r.heap.nextSource, e⟩), r.source.2) := by
  unfold RowFilter.compile
  rw [if_neg h, he]
  rfl

theorem compile_of_error (h : ¬(Text.trim text).isEmpty = true) {e : Snippet.Error}
    (he : readExpr (Text.trim text) = .error e) :
    RowFilter.compile text r = (.error ⟨Text.trim text, e⟩, r) := by
  unfold RowFilter.compile
  rw [if_neg h, he]

/-- A filter of rows is set to a text that is blank or an expression. -/
theorem setRowFilter_of_reads (t : Table) (r : Registry)
    (h : (Text.trim text).isEmpty = true ∨ ∃ e, readExpr (Text.trim text) = .ok e) :
    (t.setRowFilter text r).1 = .ok () ∧
      (t.setRowFilter text r).2.1.rowFilter.map (·.text) = Text.tidied? text := by
  unfold setRowFilter Text.tidied?
  by_cases hblank : (Text.trim text).isEmpty = true
  · rw [compile_blank hblank, if_pos hblank]
    exact ⟨rfl, rfl⟩
  · obtain ⟨e, he⟩ := h.resolve_left hblank
    rw [compile_of_ok hblank he, if_neg hblank]
    exact ⟨rfl, rfl⟩

/-- It is not set to any other text, and the table stays as it was. -/
theorem setRowFilter_of_error (t : Table) (r : Registry) (h : ¬(Text.trim text).isEmpty = true)
    {e : Snippet.Error} (he : readExpr (Text.trim text) = .error e) :
    t.setRowFilter text r = (.error ⟨Text.trim text, e⟩, t, r) := by
  unfold setRowFilter
  rw [compile_of_error h he]

/-! ## 3. Tables with tidy texts -/

/-- Every filter has a tidy text, and that of rows is what its text reads as. -/
structure IsTidy (t : Table) : Prop where
  filters : ∀ f ∈ t.filters, Text.IsTidy f.2
  rowFilter : ∀ f ∈ t.rowFilter, Text.IsTidy f.text ∧ readExpr f.text = .ok f.expr

namespace IsTidy

theorem congr {t' : Table} (h : t.IsTidy) (hfilters : t'.filters = t.filters)
    (hrow : t'.rowFilter = t.rowFilter) : t'.IsTidy :=
  ⟨hfilters ▸ h.filters, hrow ▸ h.rowFilter⟩

theorem clearFilter (h : t.IsTidy) (column : String) (r : Registry) :
    (t.clearFilter column r).1.IsTidy := by
  refine ⟨fun f hf => ?_, ?_⟩
  · rw [filters_clearFilter] at hf
    exact h.filters f (List.mem_filter.mp hf).1
  · rw [rowFilter_clearFilter]
    exact h.rowFilter

theorem setFilter (h : t.IsTidy) (column text : String) (r : Registry) :
    (t.setFilter column text r).1.IsTidy := by
  refine ⟨fun f hf => ?_, ?_⟩
  · by_cases hblank : (Text.trim text).isEmpty = true
    · rw [filters_setFilter_of_blank t r hblank] at hf
      exact h.filters f (List.mem_filter.mp hf).1
    · rw [filters_setFilter_of_text t r hblank] at hf
      rw [setText_eq_put] at hf
      rcases Named.mem_put hf with rfl | hf
      · exact Text.isTidy_trim hblank
      · exact h.filters f hf
  · rw [rowFilter_setFilter]
    exact h.rowFilter

theorem setRowFilter (h : t.IsTidy) (text : String) (r : Registry) :
    (t.setRowFilter text r).2.1.IsTidy := by
  by_cases hblank : (Text.trim text).isEmpty = true
  · unfold Table.setRowFilter
    rw [compile_blank hblank]
    exact ⟨h.filters, fun f hf => (nomatch hf)⟩
  · cases he : readExpr (Text.trim text) with
    | error e =>
      rw [setRowFilter_of_error t r hblank he]
      exact h
    | ok e =>
      unfold Table.setRowFilter
      rw [compile_of_ok hblank he]
      refine ⟨h.filters, fun f hf => ?_⟩
      cases hf
      exact ⟨Text.isTidy_trim hblank, he⟩

end IsTidy

/-! ## 4. The same filters again -/

theorem Fit.later_refilter (h : t.Fit reg r) :
    Later t.cache r (t.refilter r).1.cache (t.refilter r).2 :=
  later_keepRows t.filters t.rows.toList [] h.continues.sound h.sourced h.rowSourced

/-- Evaluating all filters anew shows the same rows, also with another filter of rows that decides
the same. -/
theorem InStep.visible_refilter (h : t.InStep reg r) (hk : reg.KeepsNoState)
    {rowFilter : Option RowFilter} (hr' : Evolves r r') (hf : RowSourced rowFilter r')
    (hsame : ∀ r'', Evolves r' r'' → ∀ row, (rowFilter.all fun f => (f.keep row r'').1) =
      t.rowFilter.all fun f => (f.keep row r'').1) :
    ({ t with rowFilter }.refilter r').1.visible = t.visible := by
  let u : Table := { t with rowFilter }
  have h' := h.evolve hr'
  have hfit : u.Fit reg r' := ⟨h'.sound, h'.evolves, h'.order, h'.size, h'.sourced, hf⟩
  have hlater := hfit.later_refilter
  have hanew := hfit.refilter.settled hk _ _ (.refl hfit.refilter.sourced)
  have hbefore := h'.settled hk _ _ hlater
  refine visible_congr rfl (Array.toList_inj.mp ?_)
  rw [hbefore]
  refine hanew.trans (List.map_congr_left fun row _ => ?_)
  unfold decides
  exact congrArg _ (hsame _ hlater.evolves row)

/-- Setting the filter of a column to the text that it has changes nothing that shows. -/
theorem InStep.setFilter_self (h : t.InStep reg r) (hk : reg.KeepsNoState) (ht : t.IsTidy)
    (column : String) :
    let u := (t.setFilter column ((t.filterOf? column).getD "") r).1
    u.filters = t.filters ∧ u.visible = t.visible := by
  unfold filterOf?
  cases hlookup : t.filters.lookup column with
  | none =>
    have hblank : (Text.trim "").isEmpty = true := by decide
    have hfilters : t.setFilter column "" r = (t, r) := by
      unfold Table.setFilter Table.clearFilter
      rw [if_pos hblank, filter_ne_self hlookup]
      exact if_pos rfl
    rw [Option.getD_none, hfilters]
    exact ⟨rfl, rfl⟩
  | some text =>
    have htext := ht.filters _ (Named.mem_of_lookup hlookup)
    have hset : t.setFilter column text r = t.refilter r := by
      unfold Table.setFilter
      rw [if_neg htext.not_blank, htext.trim, setText_self hlookup]
    rw [Option.getD_some, hset]
    exact ⟨rfl, h.visible_refilter hk (.refl r) h.rowSourced fun _ _ _ => rfl⟩

/-- A filter of rows that is read anew decides the same, unless the parsers have kept something that
the one before it made. -/
theorem InStep.keep_anew (h : t.InStep reg r) (hk : reg.KeepsNoState) {f : RowFilter}
    (hrow : t.rowFilter = some f) (hkeeps : ¬r.Keeps f.source) {r'' : Registry}
    (hr'' : Evolves r.source.2 r'') (row : Event) :
    ((RowFilter.mk f.text r.heap.nextSource f.expr).keep row r'').1 = (f.keep row r'').1 := by
  have hr := h.continues.sound
  have hserves : Evolves r r.source.2 := (Registry.Serves.source r).evolves
  have hlater := hserves.trans hr''
  have hunchanged : Unchanged reg r'' := hk.unchanged h.sound (h.evolves.trans hlater)
  have hsource := (hr''.continues (hserves.continues hr).sound).source
  have hold : ¬reg.Keeps f.source := fun hf =>
    hkeeps ((hk.unchanged h.sound h.evolves).keeps hf)
  -- its number is given out only now
  have hnew : ¬reg.Keeps r.heap.nextSource := h.sound.not_keeps h.continues.source
  have hlt := Nat.lt_of_lt_of_le (h.rowSourced f hrow) (hlater.continues hr).source
  have hexpr : (RowFilter.mk f.text r.heap.nextSource f.expr).expr = f.expr := rfl
  exact (Unchanged.keep_rows h.sound hunchanged hunchanged hexpr hlt hsource
    (.inr ⟨hold, hnew⟩) row).1

/-- Setting the filter of rows to the text that it has leaves it with this text and expression, and
changes nothing that shows if the parsers have kept nothing that the filter made. -/
theorem InStep.setRowFilter_self (h : t.InStep reg r) (hk : reg.KeepsNoState) (ht : t.IsTidy) :
    let outcome := t.setRowFilter ((t.rowFilter.map (·.text)).getD "") r
    outcome.1 = .ok () ∧ outcome.2.1.rowFilter.map (·.content) = t.rowFilter.map (·.content) ∧
      ((∀ f ∈ t.rowFilter, ¬r.Keeps f.source) → outcome.2.1.visible = t.visible) := by
  cases hrow : t.rowFilter with
  | none =>
    have hblank : (Text.trim "").isEmpty = true := by decide
    have hset : t.setRowFilter "" r = (.ok (), { t with rowFilter := none }.refilter r) := by
      unfold Table.setRowFilter
      rw [compile_blank hblank]
    rw [Option.map_none, Option.getD_none, hset]
    refine ⟨rfl, rfl, fun _ => ?_⟩
    exact h.visible_refilter hk (.refl r) (fun f hf => (nomatch hf)) fun _ _ _ => by rw [hrow]
  | some f =>
    obtain ⟨htext, hread⟩ := ht.rowFilter f hrow
    have hset : t.setRowFilter f.text r = (.ok (),
        { t with rowFilter := some ⟨f.text, r.heap.nextSource, f.expr⟩ }.refilter r.source.2) := by
      unfold Table.setRowFilter
      rw [compile_of_ok htext.not_blank (htext.trim.symm ▸ hread), htext.trim]
    rw [Option.map_some, Option.getD_some, hset]
    refine ⟨rfl, rfl, fun hkeeps => ?_⟩
    have hserves : Evolves r r.source.2 := (Registry.Serves.source r).evolves
    refine h.visible_refilter hk hserves (fun g hg => ?_) fun r'' hr'' row => ?_
    · cases hg
      exact Nat.lt_succ_self _
    · rw [hrow]
      exact h.keep_anew hk hrow (hkeeps f rfl) hr'' row

end Table

end TraceViewer
