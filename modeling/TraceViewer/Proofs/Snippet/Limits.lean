import TraceViewer.Proofs.Snippet.Comparison

/-!
# Limits cut runs off and do nothing else

A run under wider limits does what the same run does under tighter ones, until the tighter limits
cut it off.  So a run that was not cut off gives the same value or error under all wider limits, and
leaves the same machine: the same steps taken, and the same variables in every scope.
-/

namespace TraceViewer.Snippet

/-! ## 1. Outcomes up to a cut -/

/-- Whether a limit cut a run off. -/
def wasCut {α : Type} : EStateM.Result Error Machine α → Bool
  | .ok _ _ => false
  | .error e _ => e.isOfLimit

/-- Two outcomes are the same, unless a limit cut the left run off. -/
inductive UnlessCut {α : Type} :
    EStateM.Result Error Machine α → EStateM.Result Error Machine α → Prop
  | same (x : EStateM.Result Error Machine α) : UnlessCut x x
  | cut {e : Error} (he : e.isOfLimit = true) (m : Machine)
      (y : EStateM.Result Error Machine α) : UnlessCut (.error e m) y

/-- Runs that end alike from every machine, unless a limit cuts the left one off. -/
def AgreeUnlessCut {α : Type} (r r' : Run α) : Prop := ∀ m, UnlessCut (r m) (r' m)

namespace AgreeUnlessCut

variable {S S' : Setting} {α β : Type} {r r' : Run α}

theorem refl (r : Run α) : AgreeUnlessCut r r := fun m => .same (r m)

theorem bind {f f' : α → Run β} (h : AgreeUnlessCut r r')
    (hf : ∀ a, AgreeUnlessCut (f a) (f' a)) : AgreeUnlessCut (r >>= f) (r' >>= f') := by
  intro m
  have hm := h m
  show UnlessCut (EStateM.bind r f m) (EStateM.bind r' f' m)
  unfold EStateM.bind
  generalize r m = x at hm
  generalize r' m = y at hm
  cases hm with
  | same x =>
    cases x with
    | ok a n => exact hf a n
    | error e n => exact .same _
  | cut he n y => exact .cut he n _

theorem tick (hS : S.limits.Within S'.limits) :
    AgreeUnlessCut (Run.tick S.limits) (Run.tick S'.limits) := by
  intro m
  have hsteps := hS.steps
  unfold Run.tick
  dsimp only
  by_cases hspent : S.limits.steps < m.steps + 1
  · rw [if_pos hspent]
    -- the tighter limit is reached first
    exact .cut rfl _ _
  · rw [if_neg hspent, if_neg (by omega)]
    exact .same _

/-- Giving something back afterwards does not change whether runs agree. -/
theorem leaving {x y : EStateM.Result Error Machine α} (h : UnlessCut x y)
    (f : Machine → Machine) : UnlessCut (Snippet.leaving f x) (Snippet.leaving f y) := by
  cases h with
  | same x => exact .same _
  | cut he m y => exact .cut he _ _

theorem counted (hS : S.limits.Within S'.limits) (h : AgreeUnlessCut r r') :
    AgreeUnlessCut (Eval.counted S r) (Eval.counted S' r') := by
  intro m
  have hdepth := hS.depth
  rw [counted_apply, counted_apply]
  by_cases hfull : S.limits.depth ≤ m.depth.now
  · rw [if_pos hfull]
    -- one call too many under the tighter limit, whatever the wider one allows
    exact .cut rfl _ _
  · rw [if_neg hfull, if_neg (by omega)]
    exact leaving (h _) _

theorem nested (h : AgreeUnlessCut r r') :
    AgreeUnlessCut (Eval.nested r) (Eval.nested r') := by
  intro m
  rw [nested_apply, nested_apply]
  by_cases hfull : maxNesting ≤ m.nesting.now
  · rw [if_pos hfull, if_pos hfull]
    -- levels have the same limit in all settings, so running out of them is no cut
    exact .same _
  · rw [if_neg hfull, if_neg hfull]
    exact leaving (h _) _

/-- Both settings release the same scopes, so bodies that agree do so in a scope of their own. -/
theorem inScope (hS : S'.releases = S.releases) (env : Env) (parent : Nat)
    (vars : List (String × Value)) (handedOn : α → Option Value) {body body' : Env → Run α}
    (h : ∀ inside, AgreeUnlessCut (body inside) (body' inside)) :
    AgreeUnlessCut (Eval.inScope S env parent vars handedOn body)
      (Eval.inScope S' env parent vars handedOn body') := by
  intro m
  have hbody := h { env with scope := m.heap.scopes.size }
    { m with heap := (m.heap.addScope (some parent) vars).2 }
  rw [inScope_apply, inScope_apply]
  unfold Machine.released
  rw [hS]
  generalize body _ _ = x at hbody ⊢
  generalize body' _ _ = y at hbody ⊢
  cases hbody with
  | same x => exact .same _
  | cut he n y => exact .cut he _ _

/-- A loop agrees with one that may take more rounds: without rounds left it is cut off. -/
theorem allRounds (hS : S.limits.Within S'.limits) {goes goes' : Run Bool}
    {round round' : Run (Option Flow)} (hgoes : AgreeUnlessCut goes goes')
    (hround : AgreeUnlessCut round round') :
    AgreeUnlessCut (Eval.allRounds S goes round) (Eval.allRounds S' goes' round') := by
  intro m
  have hsteps := hS.steps
  have hleft : S.limits.steps - m.steps + 1 ≤ S'.limits.steps - m.steps + 1 := by omega
  exact Eval.rounds_rel (fun r r' => AgreeUnlessCut r' r) (fun _ => refl _) bind
    (fun _ m => .cut rfl m _) hgoes hround hleft m

end AgreeUnlessCut

/-! ## 2. Wider limits -/

/-- The comparison of a setting with one that differs from it in wider limits only. -/
def wideningLimits (S S' : Setting) (hglobals : S'.globals = S.globals)
    (hreleases : S'.releases = S.releases) (hS : S.limits.Within S'.limits) :
    WholeComparison S S' where
  globals := hglobals
  Rel _ _ r r' := AgreeUnlessCut r r'
  weaken h := h
  pure _ := .refl _
  throw _ _ := .refl _
  bind h hf := .bind h hf
  onHeap _ := .refl _
  noteEscape _ := .refl _
  tick := .tick hS
  counted h := .counted hS h
  nested h := .nested h
  inScope env parent vars handedOn := .inScope hreleases env parent vars handedOn
  allRounds hgoes hround := .allRounds hS hgoes hround
  fromNesting h m := h m.nesting.now m

/-- Limits only cut runs off: what ends otherwise than by a limit ends so under all wider limits,
with the same value or error and the same machine. -/
theorem perform_eq_of_wider_limits (S : Setting) {wider : Limits} (hwider : S.limits.Within wider)
    (q : Request) (m : Machine) (hq : wasCut (q.perform S m) = false) :
    q.perform { S with limits := wider } m = q.perform S m := by
  let S' : Setting := { S with limits := wider }
  have hagree : UnlessCut (q.perform S m) (q.perform S' m) :=
    (wideningLimits S S' rfl rfl hwider).perform q m
  show q.perform S' m = q.perform S m
  generalize q.perform S m = x at hagree hq
  generalize q.perform S' m = y at hagree
  cases hagree with
  | same x => rfl
  | cut he n y =>
    rw [wasCut, he] at hq
    cases hq

/-- A loop that calls a function in each of its two rounds. -/
def callingLoop : List Stmt :=
  [.function (.mk (some "next") ["x"] (.expr (.binary .add (.ident "x") (.number 1)))),
    .declare [("n", some (.number 0))],
    .loop (.binary .less (.ident "n") (.number 2))
      (.expr (.assign "n" none (.call (.ident "next") [.ident "n"] false))),
    .return (some (.ident "n"))]

/-- The theorem for a loop that a hundred steps and one call at a time are enough for. -/
theorem perform_callingLoop :
    let S : Setting := { limits := ⟨100, 1⟩ }
    let m : Machine := { heap := { scopes := #[⟨[], none⟩], nextSource := 1 } }
    S.limits.Within {} ∧ wasCut ((Request.run ⟨0, 0⟩ callingLoop).perform S m) = false ∧
      (Request.run ⟨0, 0⟩ callingLoop).perform { S with limits := {} } m =
        (Request.run ⟨0, 0⟩ callingLoop).perform S m := by
  intro S m
  have hwithin : S.limits.Within {} := ⟨by decide, by decide⟩
  have hnot : wasCut ((Request.run ⟨0, 0⟩ callingLoop).perform S m) = false := by decide +kernel
  exact ⟨hwithin, hnot, perform_eq_of_wider_limits S hwithin _ m hnot⟩

end TraceViewer.Snippet
