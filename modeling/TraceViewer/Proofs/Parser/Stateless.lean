import Mathlib.Logic.Relation
import TraceViewer.Proofs.Parser.Keeping

/-!
# Parsers that keep no state

Between two changes of its parsers a registry serves filters, tests, and texts that fail to become
parsers.  The parsers keep no state when none of that changes a variable that they have a way to.
Whatever a registry of such parsers has served, a filter decides about a cell or an event as it
would at any other time.
-/

namespace TraceViewer

open Snippet

namespace Registry

/-! ## 1. What a registry serves -/

/-- One use of a registry that leaves its parsers registered. -/
inductive Serves : Registry → Registry → Prop
  | source (r : Registry) : Serves r r.source.2
  | cell (r : Registry) (f : CellFilter) (hf : f.source < r.heap.nextSource) (cell : String) :
      Serves r (f.eval cell r).2
  | row (r : Registry) (f : RowFilter) (hf : f.source < r.heap.nextSource) (event : Event) :
      Serves r (f.eval event r).2
  | test (r : Registry) (name input : String) : Serves r (r.test name input).2
  | compile (r : Registry) (name source : String) : Serves r (r.compile name source).2

/-- Any number of uses. -/
def Evolves : Registry → Registry → Prop := Relation.ReflTransGen Serves

variable {r r' r'' : Registry}

theorem Serves.continues (hr : r.Sound) (h : Serves r r') : Continues r r' := by
  cases h with
  | source => exact hr.source
  | cell f hf cell => exact hr.cell f hf cell
  | row f hf event => exact hr.row f hf event
  | test name input => exact hr.test name input
  | compile name source =>
    have h := hr.compile name source
    generalize r.compile name source = outcome at h
    cases h with
    | ok h => exact h.continues
    | error h _ => exact h

theorem Evolves.continues (hr : r.Sound) (h : Evolves r r') : Continues r r' := by
  induction h with
  | refl => exact .refl hr
  | tail _ step ih => exact ih.trans (step.continues ih.sound)

theorem Evolves.refl (r : Registry) : Evolves r r := Relation.ReflTransGen.refl

theorem Evolves.trans (h : Evolves r r') (g : Evolves r' r'') : Evolves r r'' :=
  Relation.ReflTransGen.trans h g

theorem Serves.evolves (h : Serves r r') : Evolves r r' := Relation.ReflTransGen.single h

/-- Registries that come about: new ones, and what registering, removing and serving make of
them. -/
inductive Made : Registry → Prop
  | new (limits : Limits) : Made { limits }
  | register {r : Registry} (h : Made r) (name source : String) : Made (r.register name source).2
  | remove {r : Registry} (h : Made r) (name : String) : Made (r.remove name).2
  | serve {r r' : Registry} (h : Made r) (hr : Serves r r') : Made r'

/-- No registry that comes about holds anything that was made up. -/
theorem Made.sound (h : r.Made) : r.Sound := by
  induction h with
  | new limits => exact sound_new limits
  | register _ name source ih => exact (ih.register name source).sound
  | remove _ name ih => exact (ih.remove name).sound
  | serve _ hr ih => exact (hr.continues ih).sound

theorem Made.registerAll (h : r.Made) (sources : List (String × String)) :
    (r.registerAll sources).2.Made := by
  induction sources generalizing r with
  | nil => exact h
  | cons p rest ih =>
    have h := ih (h.register p.1 p.2)
    unfold Registry.registerAll
    dsimp only
    split <;> exact h

theorem Made.seed (h : r.Made) : r.seed.2.Made := by
  have hregister := h.register shapeName shapeSource
  unfold Registry.seed
  split
  · split <;>
    · next heq =>
      rw [heq] at hregister
      exact hregister
  · exact h

/-! ## 2. Keeping no state -/

/-- The scopes that the functions of the parsers have a way to. -/
def Needs (r : Registry) (i : Nat) : Prop := r.heap.Reaches r.client.held i

/-- Nothing that the registry may serve changes a variable that its parsers have a way to. -/
def KeepsNoState (r : Registry) : Prop :=
  ∀ r', Evolves r r' → ∀ i, r.Needs i → r'.heap.scopes[i]? = r.heap.scopes[i]?

/-- A later registry in which the parsers find their variables as they were. -/
structure Unchanged (r r' : Registry) : Prop extends Continues r r' where
  scopes : ∀ i, r.Needs i → r'.heap.scopes[i]? = r.heap.scopes[i]?

theorem KeepsNoState.unchanged (hk : r.KeepsNoState) (hr : r.Sound) (h : Evolves r r') :
    Unchanged r r' := ⟨h.continues hr, hk r' h⟩

theorem Continues.setting_eq (h : Continues r r') : r'.setting = r.setting := by
  unfold setting
  rw [h.parsers, h.limits]

theorem Unchanged.needs (h : Unchanged r r') {i : Nat} (hi : r.Needs i) : r'.Needs i := by
  have hheld : r'.client.held = r.client.held := by
    unfold client
    rw [h.setting_eq]
  have hscope {i : Nat} (hi : r.Needs i) : r'.heap.scopes[i]? = r.heap.scopes[i]? := h.scopes i hi
  induction hi with
  | held hi => exact .held (hheld.symm ▸ hi)
  | parent hi hs hp ih => exact .parent ih ((hscope hi).trans hs) hp
  | captured hi hs hj ih => exact .captured ih ((hscope hi).trans hs) hj

/-- What the parsers keep of a source text, they have still. -/
theorem Unchanged.keeps (h : Unchanged r r') {s : Nat} (hs : r.Keeps s) : r'.Keeps s := by
  cases hs with
  | parser hp hs => exact .parser (h.parsers.symm ▸ hp) hs
  | held hi hscope hs => exact .held (h.needs hi) ((h.scopes _ hi).trans hscope) hs

/-- Parsers that keep no state have a way to the same variables ever after. -/
theorem KeepsNoState.needs (hk : r.KeepsNoState) (hr : r.Sound) (h : Evolves r r') {i : Nat}
    (hi : r'.Needs i) : r.Needs i := by
  have hscopes := hk r' h
  induction hi with
  | held hi =>
    unfold client at hi
    rw [(h.continues hr).setting_eq] at hi
    exact .held hi
  | parent _ hs hp ih => exact .parent ih ((hscopes _ ih).symm.trans hs) hp
  | captured _ hs hj ih => exact .captured ih ((hscopes _ ih).symm.trans hs) hj

theorem KeepsNoState.evolve (hk : r.KeepsNoState) (hr : r.Sound) (h : Evolves r r') :
    r'.KeepsNoState := by
  intro r'' h' i hi
  have hi := hk.needs hr h hi
  rw [hk r'' (h.trans h') i hi, hk r' h i hi]

/-- Parsers without variables keep no state. -/
theorem keepsNoState_of_held_nil (h : r.client.held = []) : r.KeepsNoState := by
  have hnone : ∀ i, ¬r.Needs i := by
    intro i hi
    induction hi with
    | held hi =>
      rw [h] at hi
      cases hi
    | parent _ _ _ ih => exact ih
    | captured _ _ _ ih => exact ih
  exact fun _ _ i hi => absurd hi (hnone i)

/-! ## 3. Decisions -/

theorem isTrue_eq {S S' : Setting} {w : SideBySide S S'} {v v' : Value}
    (hv : Value.Alike w.ρ v v') : v.isTrue = v'.isTrue :=
  Value.strictEq_eq w.heap.faithful hv (.plain rfl)

section Decisions

variable {reg : Registry} (hreg : reg.Sound) (h : Unchanged reg r) (h' : Unchanged reg r')
include hreg h h'

/-- Two registries in which the parsers find their variables as they were run alike, whichever of
the source texts that the parsers do not keep stand for each other. -/
theorem Unchanged.beside_of (source : Nat → Nat → Prop) (hone : Renaming.OneToOne source)
    (hlt : ∀ a b, source a b → a < r.heap.nextSource ∧ b < r'.heap.nextSource)
    (hself : ∀ a, reg.Keeps a → source a a) :
    ∃ w : SideBySide r.setting r'.setting, Beside r r' w ∧
      w.ρ = { reg.client.numbers with source } := by
  -- the numbers that the parsers have in them, and those of the source texts
  let ρ : Renaming := { reg.client.numbers with source }
  have hkeep : ∀ a, reg.Keeps a → ∀ b, reg.client.numbers.source a b → ρ.source a b := by
    rintro a ha _ ⟨rfl, _⟩
    exact hself a ha
  have hglobals : FieldsAlike ρ r.setting.globals r'.setting.globals := by
    rw [h.setting_eq, h'.setting_eq]
    exact Value.Alike.carryFields (ρ := reg.client.numbers) (fun _ _ => id) (fun _ _ => id)
      (fun a ha => hkeep a (keeps_of_global ha)) hreg.globals
  have hheap : r.heap.Alike ρ r'.heap := by
    have hfaithful := reg.client.numbers_faithful
    refine ⟨⟨hfaithful.mark, hfaithful.scope, hone⟩, ?_, hlt, ?_⟩
    · rintro a _ ⟨rfl, ha⟩
      exact ⟨Nat.lt_of_lt_of_le ha h.mark, Nat.lt_of_lt_of_le ha h'.mark⟩
    · rintro i _ ⟨rfl, hi⟩
      obtain ⟨s, s', hs, hs', hss⟩ := hreg.heap.scope i i ⟨rfl, hi⟩
      refine ⟨s, s', (h.scopes i hi).trans hs, (h'.scopes i hi).trans hs', ?_, hss.parent⟩
      exact Value.Alike.carryFields (ρ := reg.client.numbers) (fun _ _ => id) (fun _ _ => id)
        (fun a ha => hkeep a (.held hi hs ha)) hss.vars
  exact ⟨⟨ρ, { heap := r.heap }, { heap := r'.heap }, hglobals, rfl, rfl, rfl, rfl, hheap⟩,
    ⟨rfl, rfl, h.limits.trans h'.limits.symm⟩, rfl⟩

/-- Two registries in which the parsers find their variables as they were run alike. -/
theorem Unchanged.beside :
    ∃ w : SideBySide r.setting r'.setting, Beside r r' w ∧
      ∀ k, k < r.heap.nextSource → k < r'.heap.nextSource → w.ρ.source k k := by
  obtain ⟨w, hw, hρ⟩ := Unchanged.beside_of hreg h h'
    (fun a b => a = b ∧ a < r.heap.nextSource ∧ a < r'.heap.nextSource)
    (Renaming.oneToOne_eq.mono fun _ _ hab => hab.1)
    (by
      rintro a _ ⟨rfl, ha⟩
      exact ha)
    fun a ha => ⟨rfl, Nat.lt_of_lt_of_le (hreg.lt_of_keeps ha) h.source,
      Nat.lt_of_lt_of_le (hreg.lt_of_keeps ha) h'.source⟩
  refine ⟨w, hw, fun k hk hk' => ?_⟩
  rw [hρ]
  exact ⟨rfl, hk, hk'⟩

/-- A filter of a column decides the same about a cell. -/
theorem Unchanged.keep_cell (f : CellFilter) (hf : f.source < r.heap.nextSource)
    (hf' : f.source < r'.heap.nextSource) (cell : String) :
    (f.keep cell r).1 = (f.keep cell r').1 := by
  obtain ⟨w, hw, hsource⟩ := Unchanged.beside hreg h h'
  have hk := hsource _ hf hf'
  unfold CellFilter.keep CellFilter.eval
  cases hparsed : f.parsed with
  | error e => rfl
  | ok expr =>
    obtain ⟨v, _, _, _, houtcome⟩ := perform_alike hw
      (fun S => do
        let env ← Run.openScope [("value", .text cell)] f.source
        runExpr S env expr)
      (fun S => do
        let env ← Run.openScope [("value", .text cell)] f.source
        runExpr S env expr)
      (runs_cell hw.within hk cell expr)
    dsimp only
    generalize r.perform _ = left at houtcome ⊢
    generalize r'.perform _ = right at houtcome ⊢
    obtain ⟨x, s⟩ := left
    obtain ⟨x', s'⟩ := right
    cases houtcome with
    | ok hv => exact isTrue_eq hv
    | error e => rfl

/-- A filter of rows decides the same about an event. -/
theorem Unchanged.keep_row (f : RowFilter) (hf : f.source < r.heap.nextSource)
    (hf' : f.source < r'.heap.nextSource) (event : Event) :
    (f.keep event r).1 = (f.keep event r').1 := by
  obtain ⟨w, hw, hsource⟩ := Unchanged.beside hreg h h'
  have hk := hsource _ hf hf'
  obtain ⟨v, _, _, _, houtcome⟩ := perform_alike hw
    (fun S => do
      let row ← RowFilter.eventValue event
      let env ← Run.openScope [("row", row)] f.source
      let v ← runExpr S env f.expr
      if v.isCallable then runCall S v [row] else return v)
    (fun S => do
      let row ← RowFilter.eventValue event
      let env ← Run.openScope [("row", row)] f.source
      let v ← runExpr S env f.expr
      if v.isCallable then runCall S v [row] else return v)
    (runs_row hw.within hk event f.expr)
  unfold RowFilter.keep RowFilter.eval
  generalize r.perform _ = left at houtcome ⊢
  generalize r'.perform _ = right at houtcome ⊢
  obtain ⟨x, s⟩ := left
  obtain ⟨x', s'⟩ := right
  cases houtcome with
  | ok hv => exact isTrue_eq hv
  | error e => rfl

end Decisions

end Registry

/-- A parser that stands for a function of the language. -/
def wholeParser : Registry := (({} : Registry).register "whole" "parseInt").2

theorem wholeParser_keepsNoState : wholeParser.KeepsNoState :=
  Registry.keepsNoState_of_held_nil (by decide +kernel)

end TraceViewer
