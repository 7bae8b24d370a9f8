import TraceViewer.Proofs.Parser.Sound

/-!
# What the parsers keep of a source text

A regular expression is equal to itself alone, and a function carries the number of the source text
that it stands in.  A registry keeps a source text when a value of that text is a parser or stands
in a variable that the parsers have a way to.  What the parsers hold stands for itself under every
renaming that leaves the texts alone that are kept.
-/

namespace TraceViewer

open Snippet

namespace Snippet.Value

variable {ρ σ : Renaming}

/-! ## 1. The source texts in a value -/

mutual

/-- The source texts of the regular expressions and functions in a value. -/
def sources : Value → List Nat
  | .pattern s _ => [s]
  | .closure _ c => [c.source]
  | .array _ items => sourcesOfItems items
  | .object _ fields => sourcesOfFields fields
  | _ => []

def sourcesOfItems : List Value → List Nat
  | [] => []
  | v :: rest => v.sources ++ sourcesOfItems rest

def sourcesOfFields : List (String × Value) → List Nat
  | [] => []
  | (_, v) :: rest => v.sources ++ sourcesOfFields rest

end

theorem mem_sourcesOfFields {s : Nat} {fs : List (String × Value)} :
    s ∈ sourcesOfFields fs ↔ ∃ f ∈ fs, s ∈ f.2.sources := by
  induction fs with
  | nil => simp [sourcesOfFields]
  | cons f rest ih => simp [sourcesOfFields, ih]

mutual

/-- Alike values have source texts that stand for each other. -/
theorem sources_alike {v w : Value} :
    Alike ρ v w → List.Forall₂ ρ.source v.sources w.sources
  | .plain h => by
    cases v <;> first | exact .nil | cases h
  | .array _ t => sourcesOfItems_alike t
  | .object _ t => sourcesOfFields_alike t
  | .pattern h => .cons h .nil
  | .closure _ _ h => .cons h .nil

theorem sourcesOfItems_alike {vs ws : List Value} :
    ItemsAlike ρ vs ws → List.Forall₂ ρ.source (sourcesOfItems vs) (sourcesOfItems ws)
  | .nil => .nil
  | .cons h t => List.rel_append (sources_alike h) (sourcesOfItems_alike t)

theorem sourcesOfFields_alike {fs gs : Fields Value} :
    FieldsAlike ρ fs gs → List.Forall₂ ρ.source (sourcesOfFields fs) (sourcesOfFields gs)
  | .nil => .nil
  | .cons _ h t => List.rel_append (sources_alike h) (sourcesOfFields_alike t)

end

mutual

/-- Alike values stay alike under a renaming that says as much of their source texts, and no less of
marks and scopes. -/
theorem Alike.carry {v w : Value} (hm : ∀ a b, ρ.mark a b → σ.mark a b)
    (hi : ∀ a b, ρ.scope a b → σ.scope a b)
    (hs : ∀ a ∈ v.sources, ∀ b, ρ.source a b → σ.source a b) : Alike ρ v w → Alike σ v w
  | .plain h => .plain h
  | .array h t => .array (hm _ _ h) (Alike.carryItems hm hi hs t)
  | .object h t => .object (hm _ _ h) (Alike.carryFields hm hi hs t)
  | .pattern h => .pattern (hs _ (List.mem_singleton_self _) _ h)
  | .closure h i s => .closure (hm _ _ h) (hi _ _ i) (hs _ (List.mem_singleton_self _) _ s)

theorem Alike.carryItems {vs ws : List Value} (hm : ∀ a b, ρ.mark a b → σ.mark a b)
    (hi : ∀ a b, ρ.scope a b → σ.scope a b)
    (hs : ∀ a ∈ sourcesOfItems vs, ∀ b, ρ.source a b → σ.source a b) :
    ItemsAlike ρ vs ws → ItemsAlike σ vs ws
  | .nil => .nil
  | .cons h t =>
    .cons (Alike.carry hm hi (fun a ha => hs a (List.mem_append_left _ ha)) h)
      (Alike.carryItems hm hi (fun a ha => hs a (List.mem_append_right _ ha)) t)

theorem Alike.carryFields {fs gs : Fields Value} (hm : ∀ a b, ρ.mark a b → σ.mark a b)
    (hi : ∀ a b, ρ.scope a b → σ.scope a b)
    (hs : ∀ a ∈ sourcesOfFields fs, ∀ b, ρ.source a b → σ.source a b) :
    FieldsAlike ρ fs gs → FieldsAlike σ fs gs
  | .nil => .nil
  | .cons n h t =>
    .cons n (Alike.carry hm hi (fun a ha => hs a (List.mem_append_left _ ha)) h)
      (Alike.carryFields hm hi (fun a ha => hs a (List.mem_append_right _ ha)) t)

end

end Snippet.Value

namespace Registry

variable {r : Registry} {s : Nat}

/-! ## 2. The source texts that parsers keep -/

/-- A regular expression or a function of a source text is a parser, or stands in a variable that
the parsers have a way to. -/
inductive Keeps (r : Registry) (s : Nat) : Prop
  | parser {p : Parser} (hp : p ∈ r.parsers) (hs : s ∈ p.callable.sources)
  | held {i : Nat} {scope : Scope} (hi : r.heap.Reaches r.client.held i)
      (hscope : r.heap.scopes[i]? = some scope) (hs : s ∈ Value.sourcesOfFields scope.vars)

theorem keeps_of_global (h : s ∈ Value.sourcesOfFields r.setting.globals) : r.Keeps s := by
  obtain ⟨f, hf, hs⟩ := Value.mem_sourcesOfFields.mp h
  obtain ⟨p, hp, rfl⟩ := List.mem_map.mp hf
  exact .parser hp hs

/-- Only texts that were read are kept. -/
theorem Sound.lt_of_keeps (hr : r.Sound) (h : r.Keeps s) : s < r.heap.nextSource := by
  -- a number in what is alike to itself stands for some number, so it was given out
  have hlt {ss ts : List Nat} (halike : List.Forall₂ r.client.numbers.source ss ts)
      (hs : s ∈ ss) : s < r.heap.nextSource := by
    obtain ⟨_, _, h⟩ := exists_of_mem_right halike.flip hs
    have h : r.client.numbers.source s _ := h
    exact h.2
  cases h with
  | parser hp hs =>
    have hglobal := hr.globals.self_of_mem (List.mem_map.mpr ⟨_, hp, rfl⟩)
    exact hlt (Value.sources_alike hglobal) hs
  | held hi hscope hs =>
    obtain ⟨t, t', ht, ht', halike⟩ := hr.heap.scope _ _ ⟨rfl, hi⟩
    have ht : r.heap.scopes[_]? = some t := ht
    obtain rfl := Option.some.inj (hscope.symm.trans ht)
    exact hlt (Value.sourcesOfFields_alike halike.vars) hs

theorem Sound.not_keeps (hr : r.Sound) (h : r.heap.nextSource ≤ s) : ¬r.Keeps s :=
  fun hs => absurd (hr.lt_of_keeps hs) (Nat.not_lt.mpr h)

/-- A text is not kept when nothing in the whole heap is of it. -/
theorem not_keeps_of_absent
    (hparsers : ∀ p ∈ r.parsers, s ∉ p.callable.sources)
    (hscopes : ∀ scope ∈ r.heap.scopes.toList, s ∉ Value.sourcesOfFields scope.vars) :
    ¬r.Keeps s := by
  intro h
  cases h with
  | parser hp hs => exact hparsers _ hp hs
  | held _ hscope hs =>
    exact hscopes _ (Array.mem_toList_iff.mpr (Array.mem_of_getElem? hscope)) hs

end Registry

end TraceViewer
