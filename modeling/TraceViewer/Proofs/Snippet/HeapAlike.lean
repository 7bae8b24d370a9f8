import TraceViewer.Proofs.Snippet.Alike

/-!
# Heaps up to renaming

`Heap.Alike ρ h h'` says that the scopes of `h` and `h'` that stand for each other hold alike
variables and sit inside scopes that stand for each other.  Scopes that stand for nothing may hold
anything: a scope that one run has emptied and the other has kept is such a scope.

`Machine.Follows` is about one run alone.  A scope that is older than the run keeps its names, and
captures nothing new unless the run counts an escape.
-/

namespace TraceViewer.Snippet

/-! ## 1. Variables -/

theorem setVar_rel {R : Value → Value → Prop} {vars vars' : Fields Value} {v v' : Value}
    (hv : R v v') (h : Fields.Rel R vars vars') (name : String) :
    Fields.Rel R (setVar name v vars) (setVar name v' vars') := by
  induction h with
  | nil => exact .cons name hv .nil
  | cons n h t ih =>
    unfold setVar
    split
    · exact .cons name hv t
    · exact .cons n h ih

theorem mem_setVar {name : String} {v : Value} {vars : List (String × Value)} {f : String × Value}
    (hf : f ∈ setVar name v vars) : f = (name, v) ∨ f ∈ vars := by
  induction vars with
  | nil => exact .inl (List.mem_singleton.mp hf)
  | cons g rest ih =>
    unfold setVar at hf
    split at hf
    · rcases List.mem_cons.mp hf with rfl | hf
      · exact .inl rfl
      · exact .inr (List.mem_cons_of_mem _ hf)
    · rcases List.mem_cons.mp hf with rfl | hf
      · exact .inr (List.mem_cons_self ..)
      · exact (ih hf).imp_right (List.mem_cons_of_mem _)

/-- Setting a variable that exists adds no name. -/
theorem names_setVar {name : String} {v : Value} {vars : List (String × Value)}
    (h : (vars.lookup name).isSome) : Fields.names (setVar name v vars) = Fields.names vars := by
  induction vars with
  | nil => cases h
  | cons f rest ih =>
    unfold setVar
    split
    · next hn => rw [Fields.names, Fields.names, List.map_cons, List.map_cons, beq_iff_eq.mp hn]
    · next hn =>
      rw [List.lookup_cons] at h
      have hne : (name == f.1) = false := by
        rw [Bool.eq_false_iff, ne_eq, beq_iff_eq]
        exact fun heq => hn (beq_iff_eq.mpr heq.symm)
      rw [hne] at h
      rw [Fields.names, List.map_cons, Fields.names, List.map_cons]
      exact congrArg _ (ih h)

theorem subset_names_setVar (name : String) (v : Value) (vars : List (String × Value)) :
    Fields.names vars ⊆ Fields.names (setVar name v vars) := by
  induction vars with
  | nil => exact List.nil_subset _
  | cons f rest ih =>
    unfold setVar
    split
    · next hn =>
      rw [Fields.names, Fields.names, List.map_cons, List.map_cons, beq_iff_eq.mp hn]
      exact List.Subset.refl _
    · exact List.cons_subset_cons _ ih

theorem lookup_isSome_iff {name : String} {vars : List (String × Value)} :
    (vars.lookup name).isSome ↔ name ∈ Fields.names vars := by
  rw [List.lookup_isSome_iff, Fields.names, List.mem_map]
  simp only [beq_iff_eq, eq_comm (a := name)]

theorem mem_of_lookup {name : String} {v : Value} {vars : List (String × Value)}
    (h : vars.lookup name = some v) : (name, v) ∈ vars := by
  obtain ⟨before, after, rfl, _⟩ := List.lookup_eq_some_iff.mp h
  exact List.mem_append_right _ (List.mem_cons_self ..)

/-! ## 2. Reading and writing scopes -/

namespace Heap

variable {h : Heap}

theorem scopes_modifyVars (h : Heap) (i j : Nat)
    (f : List (String × Value) → List (String × Value)) :
    (h.modifyVars i f).scopes[j]? =
      if i = j then h.scopes[j]?.map fun s => { s with vars := f s.vars } else h.scopes[j]? := by
  rw [modifyVars, Array.getElem?_modify]

theorem size_modifyVars (h : Heap) (i : Nat) (f : List (String × Value) → List (String × Value)) :
    (h.modifyVars i f).scopes.size = h.scopes.size := Array.size_modify

/-- A heap with a scope emptied on a condition. -/
def clearIf (h : Heap) (condition : Bool) (i : Nat) : Heap :=
  match condition with
  | true => h.clear i
  | false => h

variable (condition : Bool) (i j : Nat)

@[simp] theorem nextMark_clearIf : (h.clearIf condition i).nextMark = h.nextMark := by
  cases condition <;> rfl

@[simp] theorem nextSource_clearIf : (h.clearIf condition i).nextSource = h.nextSource := by
  cases condition <;> rfl

@[simp] theorem size_clearIf : (h.clearIf condition i).scopes.size = h.scopes.size := by
  cases condition with
  | true => exact size_modifyVars h i _
  | false => rfl

theorem scopes_clearIf (hij : j ≠ i) : (h.clearIf condition i).scopes[j]? = h.scopes[j]? := by
  cases condition with
  | true =>
    show (h.modifyVars i _).scopes[j]? = _
    rw [scopes_modifyVars, if_neg (Ne.symm hij)]
  | false => rfl

/-- A scope in which a variable was found has that variable. -/
theorem lookup_of_find? {i : Nat} {name : String} {found : Nat × Value}
    (hf : h.find? i name = some found) :
    ∃ s, h.scopes[found.1]? = some s ∧ s.vars.lookup name = some found.2 := by
  induction i using Nat.strongRecOn with
  | ind i ih =>
    rw [find?] at hf
    split at hf
    · cases hf
    · next s hs =>
      split at hf
      · next v hv =>
        cases hf
        exact ⟨s, hs, hv⟩
      · split at hf
        · cases hf
        · next p _ =>
          split at hf
          · next hp => exact ih p hp hf
          · cases hf

/-- Where names and the scopes around stay the same, a variable is found in the same scope. -/
theorem find?_fst_eq {g : Heap} {name : String} {i : Nat}
    (hg : ∀ j ≤ i, ∀ s, h.scopes[j]? = some s →
      ∃ t, g.scopes[j]? = some t ∧ t.parent = s.parent ∧ Fields.names t.vars = Fields.names s.vars)
    (hi : i < h.scopes.size) :
    (g.find? i name).map (·.1) = (h.find? i name).map (·.1) := by
  -- a look-up goes outwards, to scopes with smaller numbers
  induction i using Nat.strongRecOn with
  | ind i ih =>
    have hs : h.scopes[i]? = some h.scopes[i] := Array.getElem?_eq_getElem hi
    obtain ⟨t, ht, hparent, hnames⟩ := hg i (Nat.le_refl i) _ hs
    have hsome : (t.vars.lookup name).isSome = (h.scopes[i].vars.lookup name).isSome := by
      rw [Bool.eq_iff_iff, lookup_isSome_iff, lookup_isSome_iff, hnames]
    rw [find?, find?, hs, ht]
    dsimp only
    rw [hparent]
    -- the scope itself has the name on both sides, or on neither and its parent decides
    cases hv : h.scopes[i].vars.lookup name with
    | some v =>
      rw [hv] at hsome
      obtain ⟨v', hv'⟩ := Option.isSome_iff_exists.mp hsome
      rw [hv']
      rfl
    | none =>
      rw [hv] at hsome
      rw [Option.not_isSome_iff_eq_none.mp (Bool.eq_false_iff.mp hsome)]
      dsimp only
      cases h.scopes[i].parent with
      | none => rfl
      | some p =>
        dsimp only
        split
        · next hp => exact ih p hp (fun j hj => hg j (by omega)) (by omega)
        · rfl

end Heap

/-! ## 3. Alike heaps -/

/-- Scopes with alike variables, inside scopes that stand for each other. -/
structure Scope.Alike (ρ : Renaming) (i i' : Nat) (s s' : Scope) : Prop where
  vars : FieldsAlike ρ s.vars s'.vars
  parent : Option.Rel (fun p p' => p < i ∧ p' < i' ∧ ρ.scope p p') s.parent s'.parent

/-- Heaps whose numbers stand for each other as a renaming says. -/
structure Heap.Alike (ρ : Renaming) (h h' : Heap) : Prop where
  faithful : ρ.Faithful
  mark : ∀ a b, ρ.mark a b → a < h.nextMark ∧ b < h'.nextMark
  source : ∀ a b, ρ.source a b → a < h.nextSource ∧ b < h'.nextSource
  scope : ∀ i i', ρ.scope i i' →
    ∃ s s', h.scopes[i]? = some s ∧ h'.scopes[i']? = some s' ∧ s.Alike ρ i i' s'

/-- What two searches for a name find. -/
abbrev FoundAlike (ρ : Renaming) : Option (Nat × Value) → Option (Nat × Value) → Prop :=
  Option.Rel fun f f' => ρ.scope f.1 f'.1 ∧ Value.Alike ρ f.2 f'.2

theorem Scope.Alike.eq {ρ : Renaming} (hρ : ρ.Diagonal) {i i' : Nat} {s s' : Scope}
    (h : s.Alike ρ i i' s') : s = s' := by
  obtain ⟨vars, parent⟩ := s
  obtain ⟨vars', parent'⟩ := s'
  have hvars : vars = vars' := Value.Alike.eqFields hρ h.vars
  have hparent : Option.Rel _ parent parent' := h.parent
  cases hparent with
  | none => rw [hvars]
  | some hp => rw [hvars, hρ.scope _ _ hp.2.2]

theorem Scope.Alike.mono {ρ σ : Renaming} (hle : ρ.Le σ) {i i' : Nat} {s s' : Scope}
    (h : s.Alike ρ i i' s') : s.Alike σ i i' s' :=
  ⟨FieldsAlike.mono hle h.vars,
    optionRel_imp (fun _ _ hp => ⟨hp.1, hp.2.1, hle.scope _ _ hp.2.2⟩) h.parent⟩

theorem Scope.Alike.eq_of_self {ρ : Renaming} (hρ : ρ.Faithful) {i j i' : Nat} {s s' : Scope}
    (h : s.Alike ρ i i' s') (k : s.Alike ρ i j s) : s = s' := by
  obtain ⟨vars, parent⟩ := s
  obtain ⟨vars', parent'⟩ := s'
  have hvars : vars = vars' := Value.Alike.eqFields_of_self hρ h.vars k.vars
  have hparent : Option.Rel _ parent parent' := h.parent
  have kparent : Option.Rel _ parent parent := k.parent
  cases hparent with
  | none => rw [hvars]
  | some hp =>
    cases kparent with
    | some kp => rw [hvars, hρ.scope.eq_of_self kp.2.2 hp.2.2]

namespace Heap.Alike

variable {ρ σ : Renaming} {h h' : Heap}

theorem size_left (hh : h.Alike ρ h') {i i' : Nat} (hi : ρ.scope i i') : i < h.scopes.size := by
  obtain ⟨s, _, hs, _⟩ := hh.scope i i' hi
  exact (Array.getElem?_eq_some_iff.mp hs).1

theorem size_right (hh : h.Alike ρ h') {i i' : Nat} (hi : ρ.scope i i') : i' < h'.scopes.size := by
  obtain ⟨_, s', _, hs', _⟩ := hh.scope i i' hi
  exact (Array.getElem?_eq_some_iff.mp hs').1

theorem find? (hh : h.Alike ρ h') {i i' : Nat} (hi : ρ.scope i i') (name : String) :
    FoundAlike ρ (h.find? i name) (h'.find? i' name) := by
  induction i using Nat.strongRecOn generalizing i' with
  | ind i ih =>
    obtain ⟨s, s', hs, hs', hvars, hparent⟩ := hh.scope i i' hi
    rw [Heap.find?, Heap.find?, hs, hs']
    dsimp only
    have hv := hvars.lookup name
    generalize s.vars.lookup name = v at hv
    generalize s'.vars.lookup name = v' at hv
    cases hv with
    | some hv => exact .some ⟨hi, hv⟩
    | none =>
      dsimp only
      generalize s.parent = p at hparent
      generalize s'.parent = p' at hparent
      cases hparent with
      | none => exact .none
      | some hp =>
        dsimp only
        rw [if_pos hp.1, if_pos hp.2.1]
        exact ih _ hp.1 hp.2.2

theorem lookup? (hh : h.Alike ρ h') {i i' : Nat} (hi : ρ.scope i i') (name : String) :
    OptionAlike ρ (h.lookup? i name) (h'.lookup? i' name) := by
  have hf := hh.find? hi name
  unfold Heap.lookup?
  generalize h.find? i name = found at hf
  generalize h'.find? i' name = found' at hf
  cases hf with
  | none => exact .none
  | some hf => exact .some hf.2

/-- Changing scopes that stand for each other keeps the others. -/
theorem modifyVars (hh : h.Alike ρ h') {i i' : Nat} (hi : ρ.scope i i')
    {f f' : List (String × Value) → List (String × Value)}
    (hf : ∀ vars vars', FieldsAlike ρ vars vars' → FieldsAlike ρ (f vars) (f' vars')) :
    (h.modifyVars i f).Alike ρ (h'.modifyVars i' f') := by
  refine ⟨hh.faithful, hh.mark, hh.source, fun j j' hj => ?_⟩
  obtain ⟨s, s', hs, hs', hss⟩ := hh.scope j j' hj
  rw [scopes_modifyVars, scopes_modifyVars, hs, hs']
  by_cases hij : i = j
  · rw [if_pos hij, if_pos ((hh.faithful.scope _ _ _ _ hi hj).mp hij)]
    exact ⟨_, _, rfl, rfl, hf _ _ hss.vars, hss.parent⟩
  · rw [if_neg hij, if_neg fun h => hij ((hh.faithful.scope _ _ _ _ hi hj).mpr h)]
    exact ⟨s, s', rfl, rfl, hss⟩

theorem declare (hh : h.Alike ρ h') {i i' : Nat} (hi : ρ.scope i i') (name : String) {v v' : Value}
    (hv : Value.Alike ρ v v') : (h.declare i name v).Alike ρ (h'.declare i' name v') :=
  hh.modifyVars hi fun _ _ hvars => setVar_rel hv hvars name

theorem newMarks (hh : h.Alike ρ h') (k : Nat) :
    Heap.Alike (ρ.withMarks h.nextMark h'.nextMark k) { h with nextMark := h.nextMark + k }
      { h' with nextMark := h'.nextMark + k } := by
  refine ⟨⟨hh.faithful.mark.insert hh.mark k, hh.faithful.scope, hh.faithful.source⟩, ?_,
    hh.source, fun i i' hi => ?_⟩
  · intro a b hab
    show a < h.nextMark + k ∧ b < h'.nextMark + k
    rcases hab with hab | ⟨i, hi, rfl, rfl⟩
    · have := hh.mark a b hab
      omega
    · omega
  · obtain ⟨s, s', hs, hs', hss⟩ := hh.scope i i' hi
    exact ⟨s, s', hs, hs', hss.vars.mono (ρ.le_withMarks _ _ _), hss.parent⟩

theorem newSource (hh : h.Alike ρ h') :
    h.source.2.Alike (ρ.withSources h.nextSource h'.nextSource 1) h'.source.2 := by
  refine ⟨⟨hh.faithful.mark, hh.faithful.scope, hh.faithful.source.insert hh.source 1⟩, hh.mark, ?_,
    fun i i' hi => ?_⟩
  · intro a b hab
    show a < h.nextSource + 1 ∧ b < h'.nextSource + 1
    rcases hab with hab | ⟨i, hi, rfl, rfl⟩
    · have := hh.source a b hab
      omega
    · omega
  · obtain ⟨s, s', hs, hs', hss⟩ := hh.scope i i' hi
    exact ⟨s, s', hs, hs', hss.vars.mono (ρ.le_withSources _ _ _), hss.parent⟩

theorem addScope (hh : h.Alike ρ h') {p p' : Option Nat} (hp : Option.Rel ρ.scope p p')
    {vars vars' : List (String × Value)} (hvars : FieldsAlike ρ vars vars') :
    (h.addScope p vars).2.Alike (ρ.withScopes h.scopes.size h'.scopes.size 1)
      (h'.addScope p' vars').2 := by
  have hsize : ∀ i i', ρ.scope i i' → i < h.scopes.size ∧ i' < h'.scopes.size :=
    fun i i' hi => ⟨hh.size_left hi, hh.size_right hi⟩
  have hle := ρ.le_withScopes h.scopes.size h'.scopes.size 1
  refine ⟨⟨hh.faithful.mark, hh.faithful.scope.insert hsize 1, hh.faithful.source⟩, hh.mark,
    hh.source, fun i i' hi => ?_⟩
  show ∃ s s', (h.scopes.push ⟨vars, p⟩)[i]? = some s ∧
    (h'.scopes.push ⟨vars', p'⟩)[i']? = some s' ∧ _
  rcases hi with hi | ⟨j, hj, rfl, rfl⟩
  · obtain ⟨s, s', hs, hs', hss⟩ := hh.scope i i' hi
    rw [Array.getElem?_push_lt (hsize i i' hi).1, Array.getElem?_push_lt (hsize i i' hi).2]
    rw [Array.getElem?_eq_getElem (hsize i i' hi).1] at hs
    rw [Array.getElem?_eq_getElem (hsize i i' hi).2] at hs'
    exact ⟨s, s', hs, hs', hss.vars.mono hle,
      optionRel_imp (fun _ _ hq => ⟨hq.1, hq.2.1, .inl hq.2.2⟩) hss.parent⟩
  · obtain rfl : j = 0 := by omega
    rw [Nat.add_zero, Nat.add_zero, Array.getElem?_push_size, Array.getElem?_push_size]
    refine ⟨_, _, rfl, rfl, hvars.mono hle, optionRel_imp (fun q q' hq => ?_) hp⟩
    exact ⟨(hsize q q' hq).1, (hsize q q' hq).2, .inl hq⟩

/-- Fewer scopes may stand for each other when those that still do have no way to the others, and
then the others may change. -/
theorem restrict (hh : h.Alike ρ h') {τ : Nat → Nat → Prop} (hτ : ∀ i i', τ i i' → ρ.scope i i')
    (houter : ∀ i i' j j', τ i i' → j < i → ρ.scope j j' → τ j j')
    (hcaptured : ∀ i i' s', τ i i' → h'.scopes[i']? = some s' →
      ∀ j, ∀ j' ∈ Value.capturedFields s'.vars, ρ.scope j j' → τ j j')
    {g g' : Heap} (hmark : g.nextMark = h.nextMark) (hmark' : g'.nextMark = h'.nextMark)
    (hsource : g.nextSource = h.nextSource) (hsource' : g'.nextSource = h'.nextSource)
    (hg : ∀ i i', τ i i' → g.scopes[i]? = h.scopes[i]? ∧ g'.scopes[i']? = h'.scopes[i']?) :
    g.Alike { ρ with scope := τ } g' := by
  refine ⟨⟨hh.faithful.mark, hh.faithful.scope.mono hτ, hh.faithful.source⟩, ?_, ?_,
    fun i i' hi => ?_⟩
  · rw [hmark, hmark']
    exact hh.mark
  · rw [hsource, hsource']
    exact hh.source
  · obtain ⟨s, s', hs, hs', hss⟩ := hh.scope i i' (hτ i i' hi)
    rw [(hg i i' hi).1, (hg i i' hi).2]
    refine ⟨s, s', hs, hs', ?_, optionRel_imp (fun p p' hp => ⟨hp.1, hp.2.1, ?_⟩) hss.parent⟩
    · exact Value.Alike.transferFields (ρ := ρ) (fun _ _ h => h) (fun _ _ h => h)
        (hcaptured i i' s' hi hs') hss.vars
    · exact houter i i' p p' hi hp.1 hp.2.2

end Heap.Alike

/-! ## 4. One run alone -/

/-- What became of a scope.  Only a run in the scope itself, its `own` one, declares variables in
it; and if no escape was counted, what it captures it captured before. -/
structure Scope.Follows (own quiet : Prop) (s t : Scope) : Prop where
  parent : t.parent = s.parent
  grows : Fields.names s.vars ⊆ Fields.names t.vars
  closed : ¬own → Fields.names t.vars = Fields.names s.vars
  captured : quiet → ¬own → Value.capturedFields t.vars ⊆ Value.capturedFields s.vars

/-- What became of a machine by a run that declares variables in `own` at most. -/
structure Machine.Follows (own : Option Nat) (m n : Machine) : Prop where
  escapes : m.escapes ≤ n.escapes
  scope : ∀ (i : Nat) (s : Scope), m.heap.scopes[i]? = some s →
    ∃ t, n.heap.scopes[i]? = some t ∧ s.Follows (own = some i) (n.escapes = m.escapes) t

/-- Giving a variable that exists a value that captures nothing new. -/
theorem Scope.Follows.setVar {own quiet : Prop} {s t : Scope} (h : s.Follows own quiet t)
    {name : String} {v : Value} (hname : (t.vars.lookup name).isSome)
    (hv : quiet → v.captured ⊆ Value.capturedFields s.vars) :
    s.Follows own quiet { t with vars := setVar name v t.vars } := by
  refine ⟨h.parent, ?_, fun hown => ?_, fun hquiet hown i hi => ?_⟩
  · rw [names_setVar hname]
    exact h.grows
  · rw [names_setVar hname]
    exact h.closed hown
  · obtain ⟨f, hf, hi⟩ := Value.mem_capturedFields.mp hi
    rcases mem_setVar hf with rfl | hf
    · exact hv hquiet hi
    · exact h.captured hquiet hown (Value.mem_capturedFields.mpr ⟨f, hf, hi⟩)

theorem Scope.Follows.refl (own quiet : Prop) (s : Scope) : s.Follows own quiet s :=
  ⟨rfl, List.Subset.refl _, fun _ => rfl, fun _ _ => List.Subset.refl _⟩

namespace Machine.Follows

variable {own : Option Nat} {m n k : Machine}

/-- Adding scopes is no change of those that are there. -/
theorem of_scopes (he : m.escapes ≤ n.escapes)
    (hs : ∀ (i : Nat) (s : Scope), m.heap.scopes[i]? = some s → n.heap.scopes[i]? = some s) :
    m.Follows own n :=
  ⟨he, fun i s hi => ⟨s, hs i s hi, .refl _ _ s⟩⟩

theorem refl (own : Option Nat) (m : Machine) : m.Follows own m :=
  of_scopes (Nat.le_refl _) fun _ _ h => h

theorem trans (h : m.Follows own n) (g : n.Follows own k) : m.Follows own k := by
  refine ⟨Nat.le_trans h.escapes g.escapes, fun i s hs => ?_⟩
  obtain ⟨t, ht, hst⟩ := h.scope i s hs
  obtain ⟨u, hu, htu⟩ := g.scope i t ht
  refine ⟨u, hu, htu.parent.trans hst.parent, List.Subset.trans hst.grows htu.grows,
    fun hown => (htu.closed hown).trans (hst.closed hown), fun hquiet hown => ?_⟩
  -- escapes only grow, so a quiet run is quiet in both parts
  have hle := h.escapes
  have hle' := g.escapes
  exact List.Subset.trans (htu.captured (by omega) hown) (hst.captured (by omega) hown)

theorem widen (h : m.Follows none n) : m.Follows own n := by
  refine ⟨h.escapes, fun i s hs => ?_⟩
  obtain ⟨t, ht, hst⟩ := h.scope i s hs
  have hnone : ¬(none : Option Nat) = some i := fun he => by cases he
  exact ⟨t, ht, hst.parent, hst.grows, fun _ => hst.closed hnone,
    fun hquiet _ => hst.captured hquiet hnone⟩

theorem size_le (h : m.Follows own n) : m.heap.scopes.size ≤ n.heap.scopes.size := by
  by_contra hlt
  rw [Nat.not_le] at hlt
  obtain ⟨t, ht, _⟩ := h.scope _ _ (Array.getElem?_eq_getElem hlt)
  have := (Array.getElem?_eq_some_iff.mp ht).1
  omega

/-- Declaring variables in a scope made since is declaring none in those that were there. -/
theorem transNew (h : m.Follows none n) {i : Nat} (hi : m.heap.scopes.size ≤ i)
    (g : n.Follows (some i) k) : m.Follows none k := by
  refine ⟨Nat.le_trans h.escapes g.escapes, fun j s hs => ?_⟩
  have hj := (Array.getElem?_eq_some_iff.mp hs).1
  obtain ⟨t, ht, hst⟩ := h.scope j s hs
  obtain ⟨u, hu, htu⟩ := g.scope j t ht
  have hnone : ¬(none : Option Nat) = some j := fun he => by cases he
  have hne : ¬some i = some j := fun he => by
    cases he
    omega
  have hle := h.escapes
  have hle' := g.escapes
  refine ⟨u, hu, htu.parent.trans hst.parent, List.Subset.trans hst.grows htu.grows,
    fun _ => (htu.closed hne).trans (hst.closed hnone), fun hquiet _ => ?_⟩
  exact List.Subset.trans (htu.captured (by omega) hne) (hst.captured (by omega) hnone)

/-- A name is found in the scope where it was found before a run that declares nothing. -/
theorem find?_fst (h : m.Follows none n) {i : Nat} (hi : i < m.heap.scopes.size) {name : String}
    {g : Nat × Value} (hg : n.heap.find? i name = some g) :
    ∃ v, m.heap.find? i name = some (g.1, v) := by
  have hsame : (n.heap.find? i name).map (·.1) = (m.heap.find? i name).map (·.1) := by
    refine Heap.find?_fst_eq (fun k _ s hs => ?_) hi
    obtain ⟨t, ht, hst⟩ := h.scope k s hs
    exact ⟨t, ht, hst.parent, hst.closed fun he => by cases he⟩
  rw [hg] at hsame
  obtain ⟨f, hf, hfg⟩ := Option.map_eq_some_iff.mp hsame.symm
  have hfg : f.1 = g.1 := hfg
  exact ⟨f.2, by rw [hf, ← hfg]⟩

/-- An assignment adds nothing to what scopes capture when the variable held the value before, or
an escape was counted since. -/
theorem assign (h : m.Follows none n) {i : Nat} (hi : i < m.heap.scopes.size) {name : String}
    {found : Nat × Value} {v : Value} (hfound : n.heap.find? i name = some found)
    (hheld : n.escapes = m.escapes → ∀ f, m.heap.find? i name = some f →
      v.captured ⊆ f.2.captured) :
    m.Follows none { n with heap := n.heap.declare found.1 name v } := by
  refine ⟨h.escapes, fun k s hs => ?_⟩
  obtain ⟨t, ht, hst⟩ := h.scope k s hs
  show ∃ t, (n.heap.modifyVars found.1 _).scopes[k]? = some t ∧ _
  rw [Heap.scopes_modifyVars]
  -- only the scope where the variable was found changes
  by_cases hk : found.1 = k
  · obtain ⟨t', ht', hlookup⟩ := Heap.lookup_of_find? hfound
    rw [hk, ht] at ht'
    cases ht'
    rw [if_pos hk, ht]
    refine ⟨_, rfl, hst.setVar (by rw [hlookup]; rfl) fun hquiet => ?_⟩
    obtain ⟨u, hf⟩ := h.find?_fst hi hfound
    obtain ⟨s', hs', hlookup'⟩ := Heap.lookup_of_find? hf
    rw [hk, hs] at hs'
    cases hs'
    -- what the new value captures, the variable captured when `m` was the machine
    intro j hj
    exact Value.mem_capturedFields.mpr ⟨_, mem_of_lookup hlookup', hheld hquiet _ hf hj⟩
  · rw [if_neg hk]
    exact ⟨t, ht, hst⟩

/-- A run may declare what it likes in its own scope. -/
theorem declare (m : Machine) (i : Nat) (name : String) (v : Value) :
    m.Follows (some i) { m with heap := m.heap.declare i name v } := by
  refine ⟨Nat.le_refl _, fun k s hs => ?_⟩
  show ∃ t, (m.heap.modifyVars i _).scopes[k]? = some t ∧ _
  rw [Heap.scopes_modifyVars]
  by_cases hk : i = k
  · rw [if_pos hk, hs]
    exact ⟨_, rfl, rfl, subset_names_setVar name v s.vars, fun hown => absurd (congrArg _ hk) hown,
      fun _ hown => absurd (congrArg _ hk) hown⟩
  · rw [if_neg hk]
    exact ⟨s, hs, .refl _ _ s⟩

/-- Scopes made since may be emptied. -/
theorem clearIf (h : m.Follows own n) {i : Nat} (hi : m.heap.scopes.size ≤ i) (b : Bool) :
    m.Follows own { n with heap := n.heap.clearIf b i } := by
  refine ⟨h.escapes, fun k s hs => ?_⟩
  have hk := (Array.getElem?_eq_some_iff.mp hs).1
  obtain ⟨t, ht, hst⟩ := h.scope k s hs
  exact ⟨t, by rw [← ht]; exact Heap.scopes_clearIf _ _ _ (by omega), hst⟩

end Machine.Follows

end TraceViewer.Snippet
