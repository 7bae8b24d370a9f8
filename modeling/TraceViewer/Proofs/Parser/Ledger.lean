import Mathlib.Data.List.Nodup
import TraceViewer.Parser.Store
import TraceViewer.Proofs.Parser.Sound
import TraceViewer.Proofs.Text.Trimming

/-!
# Listed parsers and bound names

Parsers stand in two books.  The list of entries, names with their source texts, is what is shown
and saved; the bindings, names with functions, are what snippets look up.  Every operation writes
first in the one book and then in the other, and it can fail on the way, after source texts were
run.  `Ledger.balanced_runAll` says that the books agree after any operations, and what each
operation changes in them.  A registry, which keeps one list for both, does the same as the two
books.
-/

namespace TraceViewer

open Snippet

/-! ## 1. Lists with names -/

namespace Named

variable {α β : Type}

def names (xs : List (String × α)) : List String := xs.map (·.1)

/-- Puts an item in the place of the one of its name, or at the end. -/
def put (name : String) (a : α) : List (String × α) → List (String × α)
  | [] => [(name, a)]
  | x :: rest => if x.1 == name then (name, a) :: rest else x :: put name a rest

/-- Takes out the first item of a name. -/
def drop (name : String) (xs : List (String × α)) : List (String × α) :=
  xs.eraseP fun x => x.1 == name

theorem lookup_isSome_iff {name : String} {xs : List (String × α)} :
    (xs.lookup name).isSome ↔ name ∈ names xs := by
  rw [List.lookup_isSome_iff, names, List.mem_map]
  simp

theorem mem_of_lookup {name : String} {a : α} {xs : List (String × α)}
    (h : xs.lookup name = some a) : (name, a) ∈ xs := by
  obtain ⟨before, after, rfl, _⟩ := List.lookup_eq_some_iff.mp h
  exact List.mem_append_right _ List.mem_cons_self

/-- A known name keeps its place, and a new one comes last. -/
theorem names_put (name : String) (a : α) (xs : List (String × α)) :
    names (put name a xs) = if name ∈ names xs then names xs else names xs ++ [name] := by
  induction xs with
  | nil => rfl
  | cons x rest ih =>
    rw [put]
    by_cases hx : x.1 = name
    · rw [if_pos (beq_iff_eq.mpr hx), if_pos (by rw [names, List.map_cons, hx]; exact .head _)]
      simp [names, hx]
    · rw [if_neg (by simpa using hx), names, List.map_cons, ← names, ih]
      have hmem : name ∈ names (x :: rest) ↔ name ∈ names rest := by
        simp [names, Ne.symm hx]
      by_cases hrest : name ∈ names rest
      · rw [if_pos hrest, if_pos (hmem.mpr hrest)]
        rfl
      · rw [if_neg hrest, if_neg (mt hmem.mp hrest)]
        rfl

theorem lookup_cons (x : String × α) (xs : List (String × α)) (m : String) :
    (x :: xs).lookup m = if x.1 = m then some x.2 else xs.lookup m := by
  rw [List.lookup_cons]
  by_cases hx : x.1 = m
  · rw [if_pos hx, hx, beq_self_eq_true]
  · rw [if_neg hx, beq_eq_false_iff_ne.mpr (Ne.symm hx)]

theorem lookup_of_mem {name : String} {a : α} {xs : List (String × α)} (h : (names xs).Nodup)
    (ha : (name, a) ∈ xs) : xs.lookup name = some a := by
  induction xs with
  | nil => cases ha
  | cons x rest ih =>
    obtain ⟨hx, hrest⟩ := List.nodup_cons.mp h
    rw [lookup_cons]
    rcases List.mem_cons.mp ha with rfl | ha
    · exact if_pos rfl
    · have hne : x.1 ≠ name := by
        intro hname
        exact hx (List.mem_map.mpr ⟨_, ha, hname.symm⟩)
      rw [if_neg hne, ih hrest ha]

theorem lookup_put (name m : String) (a : α) (xs : List (String × α)) :
    (put name a xs).lookup m = if name = m then some a else xs.lookup m := by
  induction xs with
  | nil => exact lookup_cons (name, a) [] m
  | cons x rest ih =>
    rw [put, lookup_cons]
    by_cases hx : x.1 = name
    · rw [if_pos (beq_iff_eq.mpr hx), lookup_cons, hx]
      by_cases hm : name = m
      · rw [if_pos hm, if_pos hm]
      · rw [if_neg hm, if_neg hm, if_neg hm]
    · rw [if_neg (by simpa using hx), lookup_cons, ih]
      by_cases hm : name = m
      · rw [if_pos hm, if_neg fun h => hx (h.trans hm.symm), if_pos hm]
      · rw [if_neg hm, if_neg hm]

theorem mem_put {name : String} {a : α} {x : String × α} {xs : List (String × α)}
    (h : x ∈ put name a xs) : x = (name, a) ∨ x ∈ xs := by
  induction xs with
  | nil => exact .inl (List.mem_singleton.mp h)
  | cons y rest ih =>
    rw [put] at h
    split at h
    · exact (List.mem_cons.mp h).imp_right (List.mem_cons_of_mem _)
    · rcases List.mem_cons.mp h with rfl | h
      · exact .inr List.mem_cons_self
      · exact (ih h).imp_right (List.mem_cons_of_mem _)

theorem names_drop (name : String) (xs : List (String × α)) :
    names (drop name xs) = (names xs).erase name := by
  rw [List.erase_eq_eraseP', names, names, List.eraseP_map]
  rfl

/-- Where no name stands twice, all that has the name is gone, and the rest stays in order. -/
theorem drop_eq_filter {name : String} {xs : List (String × α)} (h : (names xs).Nodup) :
    drop name xs = xs.filter fun x => x.1 ≠ name := by
  induction xs with
  | nil => rfl
  | cons x rest ih =>
    obtain ⟨hx, hrest⟩ := List.nodup_cons.mp h
    by_cases hname : x.1 = name
    · have hkeep : ∀ y ∈ rest, y.1 ≠ name := by
        intro y hy hyname
        exact hx (List.mem_map.mpr ⟨y, hy, hyname.trans hname.symm⟩)
      have herase : drop name (x :: rest) = rest := List.eraseP_cons_of_pos (beq_iff_eq.mpr hname)
      rw [herase, List.filter_cons_of_neg (by simpa using hname),
        List.filter_eq_self.mpr fun y hy => decide_eq_true (hkeep y hy)]
    · have herase : drop name (x :: rest) = x :: drop name rest :=
        List.eraseP_cons_of_neg (by simpa using hname)
      rw [herase, List.filter_cons_of_pos (by simpa using hname), ih hrest]

theorem lookup_filter_ne (name m : String) (xs : List (String × α)) :
    (xs.filter fun x => x.1 ≠ name).lookup m = if name = m then none else xs.lookup m := by
  induction xs with
  | nil => exact (ite_self none).symm
  | cons x rest ih =>
    by_cases hx : x.1 = name
    · rw [List.filter_cons_of_neg (by simpa using hx), ih, lookup_cons, hx]
      by_cases hm : name = m
      · rw [if_pos hm, if_pos hm]
      · rw [if_neg hm, if_neg hm, if_neg hm]
    · rw [List.filter_cons_of_pos (by simpa using hx), lookup_cons, lookup_cons, ih]
      by_cases hm : name = m
      · rw [if_pos hm, if_neg fun h => hx (h.trans hm.symm), if_pos hm]
      · rw [if_neg hm, if_neg hm]

theorem lookup_drop {name : String} {xs : List (String × α)} (h : (names xs).Nodup) (m : String) :
    (drop name xs).lookup m = if name = m then none else xs.lookup m := by
  rw [drop_eq_filter h, lookup_filter_ne]

end Named

/-! ## 2. The two books -/

/-- The list of parsers and the bindings of names, with the limits and the heap that source texts
run under. -/
@[ext]
structure Ledger where
  entries : List (String × String) := []
  bindings : List (String × Value) := []
  limits : Limits := {}
  heap : Heap := {}

namespace Ledger

/-- What source texts can see: the functions under their names, and no source. -/
def serving (l : Ledger) : Registry where
  parsers := l.bindings.map fun b => ⟨b.1, "", b.2⟩
  limits := l.limits
  heap := l.heap

/-- The function of a source text, which is found by running it. -/
def compile (l : Ledger) (name source : String) : Except CompileFault Value × Ledger :=
  let (outcome, r) := l.serving.compile name source
  (outcome, { l with heap := r.heap })

/-- The heap after the function that a name is bound to, if any, was retired. -/
def retired (l : Ledger) (name : String) : Heap :=
  match l.bindings.lookup name with
  | some old => Registry.retire l.heap old
  | none => l.heap

def register (l : Ledger) (name source : String) : Except CompileFault Unit × Ledger :=
  let name := Text.trim name
  if name.isEmpty then (.error .noName, l)
  else
    match l.compile name source with
    | (.error fault, l) => (.error fault, l)
    | (.ok f, l) =>
      let bound := { l with bindings := Named.put name f l.bindings, heap := l.retired name }
      (.ok (), { bound with entries := Named.put name source l.entries })

/-- Registers several parsers, and counts those that could be compiled. -/
def registerAll (l : Ledger) : List (String × String) → Nat × Ledger
  | [] => (0, l)
  | (name, source) :: rest =>
    let (outcome, l) := l.register name source
    let (count, l) := l.registerAll rest
    match outcome with
    | .ok () => (count + 1, l)
    | .error _ => (count, l)

/-- Strikes a name out of both books, if it is listed. -/
def remove (l : Ledger) (name : String) : Option (String × String) × Ledger :=
  match l.entries.find? fun e => e.1 == name with
  | none => (none, l)
  | some entry =>
    let unbound := { l with bindings := Named.drop name l.bindings, heap := l.retired name }
    (some entry, { unbound with entries := Named.drop name l.entries })

/-- Registers the default parser where none is listed, and tells whether it did. -/
def seed (l : Ledger) : Bool × Ledger :=
  if l.entries.isEmpty then
    match l.register Registry.shapeName Registry.shapeSource with
    | (.ok (), l) => (true, l)
    | (.error _, l) => (false, l)
  else (false, l)

end Ledger

/-- What can be asked of a registry that changes its parsers. -/
inductive Registry.Operation where
  | register (name source : String)
  | remove (name : String)
  | load (store : ParserStore)
  | seed

/-- What comes back. -/
inductive Registry.Answer where
  | registered (outcome : Except CompileFault Unit)
  | removed (entry : Option (String × String))
  | loaded (count : Nat)
  | seeded (did : Bool)

namespace Registry.Operation

/-- One operation after another, with their answers. -/
def runAll {σ : Type} (step : σ → Operation → Answer × σ) (s : σ) :
    List Operation → List Answer × σ
  | [] => ([], s)
  | op :: rest =>
    let (answer, s) := step s op
    let (answers, s) := runAll step s rest
    (answer :: answers, s)

end Registry.Operation

def Ledger.answer (l : Ledger) : Registry.Operation → Registry.Answer × Ledger
  | .register name source => (l.register name source).map .registered id
  | .remove name => (l.remove name).map .removed id
  | .load store => (l.registerAll store.sources).map .loaded id
  | .seed => l.seed.map .seeded id

def Registry.answer (r : Registry) : Operation → Answer × Registry
  | .register name source => (r.register name source).map .registered id
  | .remove name => (r.remove name).map (fun p => .removed (p.map fun p => (p.name, p.source))) id
  | .load store => (r.registerAll store.sources).map .loaded id
  | .seed => r.seed.map .seeded id

/-! ## 3. A registry does the same as its books -/

namespace Registry

/-- The books that a registry stands for. -/
def ledger (r : Registry) : Ledger where
  entries := r.parsers.map fun p => (p.name, p.source)
  bindings := r.setting.globals
  limits := r.limits
  heap := r.heap

/-- Two answers that are the same, where each side changed its heap only, to the same one. -/
def Twins {α : Type} (r s : Registry) (x y : α × Registry) : Prop :=
  ∃ a heap, x = (a, { r with heap }) ∧ y = (a, { s with heap })

variable {r s : Registry}

theorem Twins.refl {α : Type} (a : α) (hheap : r.heap = s.heap) : Twins r s (a, r) (a, s) :=
  ⟨a, r.heap, rfl, by rw [hheap]⟩

/-- A run sees no more of a registry than the setting and the heap. -/
theorem twins_perform (hsetting : r.setting = s.setting) (hheap : r.heap = s.heap) {α : Type}
    (run : Setting → Run α) : Twins r s (r.perform run) (s.perform run) := by
  cases hrun : run r.setting { heap := r.heap } with
  | ok a m =>
    have hrun' := hrun
    rw [hsetting, hheap] at hrun'
    exact ⟨.ok a, m.heap, perform_ok hrun, perform_ok hrun'⟩
  | error e m =>
    have hrun' := hrun
    rw [hsetting, hheap] at hrun'
    exact ⟨.error e, m.heap, perform_error hrun, perform_error hrun'⟩

theorem twins_codeValue (hsetting : r.setting = s.setting) (hheap : r.heap = s.heap)
    (name code : String) : Twins r s (r.codeValue name code) (s.codeValue name code) := by
  unfold codeValue
  split
  · next binding _ =>
    split
    · exact .refl _ hheap
    · next program _ =>
      obtain ⟨outcome, heap, hr, hs⟩ := twins_perform hsetting hheap fun setting =>
        programValue setting binding program
      rw [hr, hs]
      rcases outcome with e | _ | v
      · exact ⟨_, heap, rfl, rfl⟩
      · exact ⟨_, heap, rfl, rfl⟩
      · exact ⟨_, heap, rfl, rfl⟩
  · split
    · exact .refl _ hheap
    · next e _ =>
      obtain ⟨outcome, heap, hr, hs⟩ := twins_perform hsetting hheap fun setting =>
        exprValue setting e
      rw [hr, hs]
      rcases outcome with e | v
      · exact ⟨_, heap, rfl, rfl⟩
      · exact ⟨_, heap, rfl, rfl⟩

theorem twins_compile (hsetting : r.setting = s.setting) (hheap : r.heap = s.heap)
    (name source : String) : Twins r s (r.compile name source) (s.compile name source) := by
  obtain ⟨outcome, heap, hr, hs⟩ := twins_codeValue hsetting hheap name (Text.trim source)
  unfold compile
  rw [hr, hs]
  rcases outcome with fault | v
  · exact ⟨_, heap, rfl, rfl⟩
  · dsimp only
    split
    · exact ⟨_, heap, rfl, rfl⟩
    · exact ⟨_, heap, rfl, rfl⟩

theorem setting_serving (r : Registry) : r.ledger.serving.setting = r.setting := by
  have hglobals : (r.ledger.serving.parsers.map fun p => (p.name, p.callable)) =
      r.setting.globals := by
    rw [Ledger.serving, List.map_map]
    exact List.map_id r.setting.globals
  unfold setting at hglobals ⊢
  rw [hglobals]
  rfl

/-- What a registry compiles to is what its books compile to. -/
theorem compile_ledger (r : Registry) (name source : String) :
    ∃ outcome heap, r.compile name source = (outcome, { r with heap }) ∧
      r.ledger.compile name source = (outcome, { r.ledger with heap }) := by
  obtain ⟨outcome, heap, hr, hserving⟩ :=
    twins_compile (setting_serving r).symm (rfl : r.heap = r.ledger.serving.heap) name source
  refine ⟨outcome, heap, hr, ?_⟩
  unfold Ledger.compile
  rw [hserving]

theorem map_insert {α : Type} (f : Parser → α) (parser : Parser) (ps : List Parser) :
    (insert parser ps).map (fun p => (p.name, f p)) =
      Named.put parser.name (f parser) (ps.map fun p => (p.name, f p)) := by
  induction ps with
  | nil => rfl
  | cons p rest ih =>
    rw [insert, List.map_cons, Named.put]
    split
    · rfl
    · rw [List.map_cons, ih]

theorem map_eraseP {α : Type} (f : Parser → α) (name : String) (ps : List Parser) :
    (ps.eraseP fun p => p.name == name).map (fun p => (p.name, f p)) =
      Named.drop name (ps.map fun p => (p.name, f p)) := by
  unfold Named.drop
  rw [List.eraseP_map]
  rfl

theorem lookup_globals (r : Registry) (name : String) :
    r.setting.globals.lookup name = (r.find? name).map (·.callable) := by
  unfold setting find?
  dsimp only
  induction r.parsers with
  | nil => rfl
  | cons p rest ih =>
    rw [List.map_cons, Named.lookup_cons, List.find?_cons, ih]
    by_cases hp : p.name = name
    · rw [if_pos hp, beq_iff_eq.mpr hp]
      rfl
    · rw [if_neg hp, beq_eq_false_iff_ne.mpr hp]

theorem retired_ledger (r : Registry) (name : String) :
    r.ledger.retired name =
      match r.find? name with
      | some p => retire r.heap p.callable
      | none => r.heap := by
  unfold Ledger.retired
  rw [show r.ledger.bindings = r.setting.globals from rfl, lookup_globals]
  cases r.find? name <;> rfl

theorem register_ledger (r : Registry) (name source : String) :
    r.ledger.register name source = (r.register name source).map id ledger := by
  unfold register Ledger.register
  dsimp only
  split
  · rfl
  obtain ⟨outcome, heap, hr, hl⟩ := compile_ledger r (Text.trim name) source
  rw [hr, hl]
  rcases outcome with fault | f
  · rfl
  · have hretired := retired_ledger { r with heap } (Text.trim name)
    have hentries := map_insert (·.source) ⟨Text.trim name, source, f⟩ r.parsers
    have hbindings := map_insert (·.callable) ⟨Text.trim name, source, f⟩ r.parsers
    exact Prod.ext rfl (Ledger.ext hentries.symm hbindings.symm rfl hretired)

theorem registerAll_ledger (r : Registry) (sources : List (String × String)) :
    r.ledger.registerAll sources = (r.registerAll sources).map id ledger := by
  induction sources generalizing r with
  | nil => rfl
  | cons record rest ih =>
    obtain ⟨name, source⟩ := record
    unfold registerAll Ledger.registerAll
    rw [register_ledger]
    obtain ⟨outcome, r'⟩ := r.register name source
    dsimp only [Prod.map]
    rw [id, ih]
    obtain ⟨count, r''⟩ := r'.registerAll rest
    cases outcome <;> rfl

theorem remove_ledger (r : Registry) (name : String) :
    r.ledger.remove name = (r.remove name).map (Option.map fun p => (p.name, p.source)) ledger := by
  have hfind : (r.ledger.entries.find? fun e => e.1 == name) =
      (r.find? name).map fun p => (p.name, p.source) := List.find?_map ..
  have hretired := retired_ledger r name
  unfold remove Ledger.remove
  rw [hfind]
  cases hp : r.find? name with
  | none => rfl
  | some p =>
    rw [hp] at hretired
    exact Prod.ext rfl (Ledger.ext (map_eraseP (·.source) name r.parsers).symm
      (map_eraseP (·.callable) name r.parsers).symm rfl hretired)

theorem seed_ledger (r : Registry) : r.ledger.seed = r.seed.map id ledger := by
  have hempty : r.ledger.entries.isEmpty = r.parsers.isEmpty := List.isEmpty_map
  unfold seed Ledger.seed
  rw [hempty, register_ledger]
  split
  · generalize r.register shapeName shapeSource = registered
    obtain ⟨_ | _, r'⟩ := registered <;> rfl
  · rfl

theorem map_swap {α β σ τ : Type} (f : α → β) (g : σ → τ) (x : α × σ) :
    (x.map id g).map f id = (x.map f id).map id g := rfl

theorem answer_ledger (r : Registry) (op : Operation) :
    r.ledger.answer op = (r.answer op).map id ledger := by
  cases op with
  | register name source =>
    rw [Ledger.answer, register_ledger, map_swap, answer]
  | remove name =>
    rw [Ledger.answer, remove_ledger, answer]
    rfl
  | load store => rw [Ledger.answer, registerAll_ledger, map_swap, answer]
  | seed => rw [Ledger.answer, seed_ledger, map_swap, answer]

theorem runAll_ledger (r : Registry) (ops : List Operation) :
    Operation.runAll Ledger.answer r.ledger ops =
      (Operation.runAll answer r ops).map id ledger := by
  induction ops generalizing r with
  | nil => rfl
  | cons op rest ih =>
    unfold Operation.runAll
    rw [answer_ledger]
    obtain ⟨answer, r'⟩ := r.answer op
    dsimp only [Prod.map]
    rw [id, ih]
    rfl

end Registry

/-! ## 4. What each operation does to balanced books -/

namespace Ledger

/-- The books agree: the names of both are the same, no name stands twice or is blank at an end, and
each is bound to a function. -/
structure Balanced (l : Ledger) : Prop where
  names : Named.names l.bindings = Named.names l.entries
  nodup : (Named.names l.entries).Nodup
  tidy : ∀ name ∈ Named.names l.entries, name ≠ "" ∧ Text.trim name = name
  callable : ∀ b ∈ l.bindings, b.2.isCallable

/-- A function stands for a name in both books, with its source; everything else is as before. -/
structure Registered (l : Ledger) (name source : String) (l' : Ledger) : Prop where
  names : Named.names l'.entries =
    if name ∈ Named.names l.entries then Named.names l.entries
    else Named.names l.entries ++ [name]
  source : l'.entries.lookup name = some source
  callable : ∃ f, l'.bindings.lookup name = some f ∧ f.isCallable
  entries : ∀ m, name ≠ m → l'.entries.lookup m = l.entries.lookup m
  bindings : ∀ m, name ≠ m → l'.bindings.lookup m = l.bindings.lookup m

/-- Registering does all of it, or changes neither book. -/
structure Registers (l : Ledger) (name source : String) : Prop where
  taken : ∀ l', l.register name source = (.ok (), l') → Registered l (Text.trim name) source l'
  refused : ∀ fault l', l.register name source = (.error fault, l') →
    l'.entries = l.entries ∧ l'.bindings = l.bindings

/-- An entry is struck out of both books; everything else is as before and in the same order. -/
structure Removed (l : Ledger) (name source : String) (l' : Ledger) : Prop where
  source : l.entries.lookup name = some source
  entries : l'.entries = l.entries.filter fun e => e.1 ≠ name
  unbound : l'.bindings.lookup name = none
  bindings : ∀ m, name ≠ m → l'.bindings.lookup m = l.bindings.lookup m

/-- Removing does all of it for a listed name, and gives its entry; for any other name it does
nothing. -/
def Removes (l : Ledger) (name : String) : Prop :=
  if name ∈ Named.names l.entries then
    ∃ source l', l.remove name = (some (name, source), l') ∧ Removed l name source l'
  else l.remove name = (none, l)

variable {l : Ledger}

theorem Balanced.isSome_lookup_iff (h : l.Balanced) (name : String) :
    (l.bindings.lookup name).isSome ↔ name ∈ Named.names l.entries := by
  rw [Named.lookup_isSome_iff, h.names]

theorem Balanced.of_books {l' : Ledger} (h : l.Balanced) (hentries : l'.entries = l.entries)
    (hbindings : l'.bindings = l.bindings) : l'.Balanced := by
  obtain ⟨hnames, hnodup, htidy, hcallable⟩ := h
  rw [← hentries] at hnames hnodup htidy
  rw [← hbindings] at hnames hcallable
  exact ⟨hnames, hnodup, htidy, hcallable⟩

theorem isCallable_of_compile {r : Registry} {name source : String} {f : Value}
    (h : (r.compile name source).1 = .ok f) : f.isCallable := by
  unfold Registry.compile at h
  split at h
  · cases h
  · split at h
    · next hf =>
      cases h
      exact hf
    · cases h

/-- Running a source text touches neither book, whatever comes of it. -/
theorem compile_cases (l : Ledger) (name source : String) :
    ∃ outcome heap, l.compile name source = (outcome, { l with heap }) ∧
      ∀ f, outcome = .ok f → f.isCallable := by
  have hcallable (f : Value) : (l.serving.compile name source).1 = .ok f → f.isCallable :=
    isCallable_of_compile
  unfold compile
  generalize l.serving.compile name source = compiled at hcallable ⊢
  exact ⟨compiled.1, compiled.2.heap, rfl, hcallable⟩

/-- Registering is refused, which leaves both books, or puts a function in both. -/
theorem register_cases (l : Ledger) (name source : String) :
    (∃ fault heap, l.register name source = (.error fault, { l with heap })) ∨
      ∃ f heap, (Text.trim name ≠ "") ∧ f.isCallable ∧ l.register name source =
        (.ok (), { l with
          entries := Named.put (Text.trim name) source l.entries
          bindings := Named.put (Text.trim name) f l.bindings
          heap }) := by
  unfold register
  dsimp only
  split
  · exact .inl ⟨.noName, l.heap, rfl⟩
  · next hname =>
    obtain ⟨outcome, heap, hcompile, hcallable⟩ := l.compile_cases (Text.trim name) source
    rw [hcompile]
    rcases outcome with fault | f
    · exact .inl ⟨fault, heap, rfl⟩
    · have hnonempty : Text.trim name ≠ "" := fun h => hname (String.isEmpty_iff.mpr h)
      exact .inr ⟨f, { l with heap }.retired (Text.trim name), hnonempty, hcallable f rfl, rfl⟩

theorem registers (l : Ledger) (name source : String) : l.Registers name source := by
  obtain ⟨fault, heap, h⟩ | ⟨f, heap, -, hf, h⟩ := l.register_cases name source
  · constructor
    · intro l' htaken
      cases h.symm.trans htaken
    · intro fault' l' hrefused
      cases h.symm.trans hrefused
      exact ⟨rfl, rfl⟩
  · constructor
    · intro l' htaken
      cases h.symm.trans htaken
      exact
        { names := Named.names_put ..
          source := by rw [Named.lookup_put, if_pos rfl]
          callable := ⟨f, by rw [Named.lookup_put, if_pos rfl], hf⟩
          entries := fun m hm => by rw [Named.lookup_put, if_neg hm]
          bindings := fun m hm => by rw [Named.lookup_put, if_neg hm] }
    · intro fault l' hrefused
      cases h.symm.trans hrefused

theorem Balanced.register (h : l.Balanced) (name source : String) :
    (l.register name source).2.Balanced := by
  rcases l.register_cases name source with ⟨fault, heap, hr⟩ | ⟨f, heap, hname, hf, hr⟩
  · rw [hr]
    exact h.of_books rfl rfl
  · rw [hr]
    constructor
    · show Named.names (Named.put _ _ _) = Named.names (Named.put _ _ _)
      rw [Named.names_put, Named.names_put, h.names]
    · show (Named.names (Named.put _ _ _)).Nodup
      rw [Named.names_put]
      split
      · exact h.nodup
      · next hnew =>
        rw [← List.concat_eq_append]
        exact List.Nodup.concat hnew h.nodup
    · show ∀ m ∈ Named.names (Named.put _ _ _), _
      rw [Named.names_put]
      intro m hm
      split at hm
      · exact h.tidy m hm
      · rcases List.mem_append.mp hm with hm | hm
        · exact h.tidy m hm
        · rw [List.mem_singleton.mp hm]
          exact ⟨hname, Text.trim_trim name⟩
    · intro b hb
      rcases Named.mem_put hb with rfl | hb
      · exact hf
      · exact h.callable b hb

theorem find?_entries (l : Ledger) (name : String) :
    (l.entries.find? fun e => e.1 == name) =
      (l.entries.lookup name).map fun source => (name, source) := by
  induction l.entries with
  | nil => rfl
  | cons e rest ih =>
    rw [List.find?_cons, Named.lookup_cons, ih]
    by_cases he : e.1 = name
    · rw [if_pos he, beq_iff_eq.mpr he, ← he]
      rfl
    · rw [if_neg he, beq_eq_false_iff_ne.mpr he]

theorem remove_cases (l : Ledger) (name : String) :
    (name ∉ Named.names l.entries ∧ l.remove name = (none, l)) ∨
      ∃ source heap, l.entries.lookup name = some source ∧ l.remove name =
        (some (name, source), { l with
          entries := Named.drop name l.entries
          bindings := Named.drop name l.bindings
          heap }) := by
  unfold remove
  rw [find?_entries]
  cases hlookup : l.entries.lookup name with
  | none =>
    refine .inl ⟨fun hmem => ?_, rfl⟩
    rw [← Named.lookup_isSome_iff, hlookup] at hmem
    cases hmem
  | some source => exact .inr ⟨source, _, rfl, rfl⟩

theorem Balanced.removes (h : l.Balanced) (name : String) : l.Removes name := by
  unfold Removes
  rcases l.remove_cases name with ⟨hunlisted, hr⟩ | ⟨source, heap, hlookup, hr⟩
  · rw [if_neg hunlisted, hr]
  · have hlisted : name ∈ Named.names l.entries := by
      rw [← Named.lookup_isSome_iff, hlookup]
      rfl
    have hnodup : (Named.names l.bindings).Nodup := by
      rw [h.names]
      exact h.nodup
    rw [if_pos hlisted]
    refine ⟨source, _, hr, ?_⟩
    exact
      { source := hlookup
        entries := Named.drop_eq_filter h.nodup
        unbound := by rw [Named.lookup_drop hnodup, if_pos rfl]
        bindings := fun m hm => by rw [Named.lookup_drop hnodup, if_neg hm] }

theorem Balanced.remove (h : l.Balanced) (name : String) : (l.remove name).2.Balanced := by
  rcases l.remove_cases name with ⟨hunlisted, hr⟩ | ⟨source, heap, hlookup, hr⟩
  · rw [hr]
    exact h
  · rw [hr]
    constructor
    · show Named.names (Named.drop _ _) = Named.names (Named.drop _ _)
      rw [Named.names_drop, Named.names_drop, h.names]
    · show (Named.names (Named.drop _ _)).Nodup
      rw [Named.names_drop]
      exact h.nodup.erase name
    · show ∀ m ∈ Named.names (Named.drop _ _), _
      rw [Named.names_drop]
      exact fun m hm => h.tidy m (List.mem_of_mem_erase hm)
    · exact fun b hb => h.callable b (List.mem_of_mem_eraseP hb)

theorem Balanced.registerAll (h : l.Balanced) (sources : List (String × String)) :
    (l.registerAll sources).2.Balanced := by
  induction sources generalizing l with
  | nil => exact h
  | cons record rest ih =>
    obtain ⟨name, source⟩ := record
    have hrest := ih (h.register name source)
    unfold Ledger.registerAll
    dsimp only
    split <;> exact hrest

theorem Balanced.seed (h : l.Balanced) : l.seed.2.Balanced := by
  have hregister := h.register Registry.shapeName Registry.shapeSource
  unfold Ledger.seed
  generalize l.register Registry.shapeName Registry.shapeSource = registered at hregister ⊢
  split
  · split <;> exact hregister
  · exact h

theorem Balanced.answer (h : l.Balanced) (op : Registry.Operation) : (l.answer op).2.Balanced := by
  have hmap {α : Type} (f : α → Registry.Answer) (x : α × Ledger) : (x.map f id).2 = x.2 := rfl
  cases op with
  | register name source =>
    rw [Ledger.answer, hmap]
    exact h.register name source
  | remove name =>
    rw [Ledger.answer, hmap]
    exact h.remove name
  | load store =>
    rw [Ledger.answer, hmap]
    exact h.registerAll store.sources
  | seed =>
    rw [Ledger.answer, hmap]
    exact h.seed

theorem Balanced.runAll (h : l.Balanced) (ops : List Registry.Operation) :
    (Registry.Operation.runAll Ledger.answer l ops).2.Balanced := by
  induction ops generalizing l with
  | nil => exact h
  | cons op rest ih => exact ih (h.answer op)

/-- After any operations the books agree, and so do the answers that were given with those of a
registry that keeps one list.  The next change puts one name in both books, or takes it out of both,
and a source text that is refused changes neither. -/
theorem balanced_runAll (limits : Limits) (ops : List Registry.Operation) :
    let l := Registry.Operation.runAll Ledger.answer { limits } ops
    let r := Registry.Operation.runAll Registry.answer { limits } ops
    l = r.map id Registry.ledger ∧ l.2.Balanced ∧
      (∀ name, (l.2.bindings.lookup name).isSome ↔ name ∈ Named.names l.2.entries) ∧
      (∀ name source, l.2.Registers name source) ∧ ∀ name, l.2.Removes name := by
  have hnew : Balanced { limits } :=
    ⟨rfl, List.nodup_nil, fun _ h => (nomatch h), fun _ h => (nomatch h)⟩
  have hbalanced := hnew.runAll ops
  have hledger := Registry.runAll_ledger { limits } ops
  rw [show Registry.ledger { limits } = { limits } from rfl] at hledger
  exact ⟨hledger, hbalanced, hbalanced.isSome_lookup_iff, registers _, hbalanced.removes⟩

end Ledger

end TraceViewer
