import TraceViewer.Proofs.Snippet.SideBySide

/-!
# Properties and methods side by side

Properties and methods of alike values, with alike arguments, run alike, provided that calls of
functions do: `CallsAlike` is that assumption.
-/

namespace TraceViewer.Snippet

/-! ## 1. What arguments count as -/

section Arguments

variable {ρ : Renaming} {v w : Value}

theorem relativePosition_eq (h : Value.Alike ρ v w) (length default : Nat) :
    relativePosition v length default = relativePosition w length default := by
  have hn := Value.toNumber_eq h
  unfold relativePosition
  cases h with
  | plain _ => rfl
  | _ => simp only [hn]

theorem clampedPosition_eq (h : Value.Alike ρ v w) (length default : Nat) :
    clampedPosition v length default = clampedPosition w length default := by
  have hn := Value.toNumber_eq h
  unfold clampedPosition
  cases h with
  | plain _ => rfl
  | _ => simp only [hn]

theorem splitLimit_eq (h : Value.Alike ρ v w) : splitLimit v = splitLimit w := by
  have hn := Value.toNumber_eq h
  unfold splitLimit
  cases h with
  | plain _ => rfl
  | _ => simp only [hn]

theorem placesArgument_eq (h : Value.Alike ρ v w) : placesArgument v = placesArgument w := by
  unfold placesArgument
  rw [Value.toNumber_eq h]

theorem searcherFor_eq (library : Regex.Library) (h : Value.Alike ρ v w) :
    searcherFor library v = searcherFor library w := by
  have hd := Value.display_eq h
  unfold searcherFor
  cases h with
  | plain _ => rfl
  | pattern _ => rfl
  | _ => simp only [hd]

theorem isGlobalPattern_eq (h : Value.Alike ρ v w) : isGlobalPattern v = isGlobalPattern w := by
  cases h <;> rfl

theorem splitParts_eq (h : Value.Alike ρ v w) (text : List Char) :
    splitParts text v = splitParts text w := by
  have hd := Value.display_eq h
  unfold splitParts
  cases h with
  | plain _ => rfl
  | pattern _ => rfl
  | _ => simp only [hd]

theorem joinItems_eq {items items' : List Value} (hitems : ItemsAlike ρ items items')
    (h : Value.Alike ρ v w) : joinItems items v = joinItems items' w := by
  have hd := Value.display_eq h
  unfold joinItems
  rw [Value.displayItems_eq hitems]
  cases h with
  | plain _ => rfl
  | _ => simp only [hd]

theorem sameItem_eq (hρ : ρ.Faithful) {a a' b b' : Value} (ha : Value.Alike ρ a a')
    (hb : Value.Alike ρ b b') : sameItem a b = sameItem a' b' := by
  unfold sameItem
  rw [Value.strictEq_eq hρ ha hb]
  cases ha with
  | plain hv =>
    cases hb with
    | plain _ => rfl
    | _ => cases a <;> rfl
  | _ => rfl

theorem itemAt_alike {items items' : List Value} (hitems : ItemsAlike ρ items items')
    (h : Value.Alike ρ v w) : Value.Alike ρ (itemAt items v) (itemAt items' w) := by
  unfold itemAt
  rw [Value.toNumber_eq h, hitems.length_eq]
  dsimp only
  split
  · exact OptionAlike.getD (hitems.get? 0)
  · split
    · exact .plain rfl
    · generalize (if Number.toInt w.toNumber < 0 then _ else _ : Int) = n
      split
      · exact .plain rfl
      · exact OptionAlike.getD (hitems.get? _)

theorem spread_alike (h : Value.Alike ρ v w) : ItemsAlike ρ (spread v) (spread w) := by
  cases h with
  | plain hv => cases v <;> first | exact .cons (.plain rfl) .nil | cases hv
  | array _ ht => exact ht
  | object hm ht => exact .cons (.object hm ht) .nil
  | pattern hs => exact .cons (.pattern hs) .nil
  | closure hm hi hs => exact .cons (.closure hm hi hs) .nil

theorem isPlain_groupValue (text : List Char) (span : Option (Nat × Nat)) :
    (groupValue text span).isPlain := by
  cases span <;> rfl

theorem isPlain_of_mem_splitParts (text : List Char) {part : Value}
    (h : part ∈ splitParts text v) : part.isPlain := by
  unfold splitParts at h
  split at h
  · rw [List.mem_singleton.mp h]
    rfl
  · obtain ⟨cs, _, rfl⟩ := List.mem_map.mp h
    rfl
  · split at h <;>
    · obtain ⟨cs, _, rfl⟩ := List.mem_map.mp h
      rfl

end Arguments

/-! ## 2. Properties -/

namespace SideBySide

variable {S S' : Setting} {w : SideBySide S S'} {own : Option Nat}

/-- The values that two runs give are alike. -/
abbrev Values (w : SideBySide S S') : Value → Value → Prop := Value.Alike w.ρ

theorem Runs.property {target target' : Value} (h : Value.Alike w.ρ target target')
    (name : String) : Runs own w Values (property target name) (property target' name) := by
  cases h with
  | plain hv =>
    cases target with
    | undefined | null => exact .mistyped _
    | text s => exact .pure (by split <;> exact .plain rfl)
    | bool _ | number _ | builtin _ => exact .pure (.plain rfl)
    | _ => cases hv
  | array hm ht =>
    unfold Snippet.property
    dsimp only
    rw [ht.length_eq]
    split
    · exact .pure (.plain rfl)
    · split
      · exact .pure (OptionAlike.getD (ItemsAlike.get? ht _))
      · exact .pure (.plain rfl)
  | object hm ht => exact .pure (OptionAlike.getD (ht.lookup name))
  | pattern hs =>
    unfold Snippet.property
    dsimp only
    split
    · exact .pure (.plain rfl)
    · split
      · exact .pure (.plain rfl)
      · split <;> exact .pure (.plain rfl)
  | closure _ _ _ => exact .pure (.plain rfl)

theorem Runs.keyed {target target' key key' : Value} (h : Value.Alike w.ρ target target')
    (hkey : Value.Alike w.ρ key key') :
    Runs own w Values (keyed target key) (keyed target' key') := by
  have hproperty : Runs own w Values (Snippet.property target key.display)
      (Snippet.property target' key'.display) := by
    rw [Value.display_eq hkey]
    exact .property h _
  -- only a number as key of an array or a text is no name of a property
  unfold Snippet.keyed
  cases hkey with
  | plain hv =>
    cases key with
    | number x =>
      cases h with
      | array hm ht =>
        dsimp only
        split
        · exact .pure (OptionAlike.getD (ItemsAlike.get? ht _))
        · exact .pure (.plain rfl)
      | plain hv =>
        cases target with
        | text s =>
          dsimp only
          split <;> exact .pure (.plain rfl)
        | array _ _ => cases hv
        | _ => exact hproperty
      | _ => exact hproperty
    | _ => cases target <;> cases target' <;> exact hproperty
  | _ => cases target <;> cases target' <;> exact hproperty

/-! ## 3. Methods of texts -/

/-- Calls of alike functions with alike arguments run alike. -/
def CallsAlike (S S' : Setting) (call call' : Call) : Prop :=
  ∀ (w : SideBySide S S') (f f' : Value) (args args' : List Value), Value.Alike w.ρ f f' →
    ItemsAlike w.ρ args args' → Runs none w Values (call f args) (call' f' args')

variable {call call' : Call}

theorem Runs.firstMatch (searcher : Regex.Searcher) (text : List Char) :
    Runs own w Values (firstMatch searcher text) (firstMatch searcher text) := by
  unfold Snippet.firstMatch
  split
  · exact .pure (.plain rfl)
  · refine .newArray (.plain fun v hv => ?_)
    obtain ⟨span, _, rfl⟩ := List.mem_map.mp hv
    exact isPlain_groupValue text span

theorem Runs.allMatches (searcher : Regex.Searcher) (text : List Char) :
    Runs own w Values (allMatches searcher text) (allMatches searcher text) := by
  unfold Snippet.allMatches
  split
  · exact .pure (.plain rfl)
  · refine .newArray (.plain fun v hv => ?_)
    obtain ⟨m, _, rfl⟩ := List.mem_map.mp hv
    exact isPlain_groupValue text _

theorem Runs.replacementFor (hcall : CallsAlike S S' call call') (searcher : Regex.Searcher)
    (text : List Char) (m : Regex.Match) {replacement replacement' : Value}
    (h : Value.Alike w.ρ replacement replacement') :
    Runs none w (fun _ => Eq) (replacementFor call searcher text m replacement)
      (replacementFor call' searcher text m replacement') := by
  unfold Snippet.replacementFor
  rw [Value.isCallable_eq h, Value.display_eq h]
  split
  · refine Runs.bind (hcall w _ _ _ _ h (.plain fun v hv => ?_)) fun u x x' hu hx => ?_
    · obtain ⟨span, _, rfl⟩ := List.mem_map.mp hv
      exact isPlain_groupValue text span
    · rw [Value.display_eq hx]
      exact .pure rfl
  · exact .pure rfl

theorem Runs.replaceFrom (hcall : CallsAlike S S' call call') (searcher : Regex.Searcher)
    (text : List Char) {replacement replacement' : Value}
    (h : Value.Alike w.ρ replacement replacement') (last : Nat) (pieces : List (List Char))
    (ms : List Regex.Match) :
    Runs none w (fun _ => Eq) (replaceFrom call searcher text replacement last pieces ms)
      (replaceFrom call' searcher text replacement' last pieces ms) := by
  induction ms generalizing w last pieces with
  | nil => exact .pure rfl
  | cons m rest ih =>
    unfold Snippet.replaceFrom
    refine Runs.bind (.replacementFor hcall searcher text m h) ?_
    rintro u x _ hu rfl
    exact ih (h.mono hu.le) _ _

theorem Runs.searcherFor {library : Regex.Library} {pattern pattern' : Value}
    (h : Value.Alike w.ρ pattern pattern') :
    Runs own w (fun _ => Eq) (Run.typed (searcherFor library pattern))
      (Run.typed (searcherFor library pattern')) := by
  rw [searcherFor_eq library h]
  cases Snippet.searcherFor library pattern' with
  | ok searcher => exact .pure rfl
  | error fault => exact .mistyped fault

theorem Runs.replaceMatches {library : Regex.Library} (hcall : CallsAlike S S' call call')
    (text : List Char)
    {pattern pattern' replacement replacement' : Value} (hp : Value.Alike w.ρ pattern pattern')
    (h : Value.Alike w.ρ replacement replacement') (all : Bool) :
    Runs none w Values (replaceMatches library call text pattern replacement all)
      (replaceMatches library call' text pattern' replacement' all) := by
  unfold Snippet.replaceMatches
  refine Runs.bind (.searcherFor hp) ?_
  rintro u searcher _ hu rfl
  refine Runs.bind (.replaceFrom hcall searcher text (h.mono hu.le) 0 [] _) ?_
  rintro u' x _ hu' rfl
  exact .pure (.plain rfl)

theorem Runs.noMethod {target target' : Value} (h : Value.Alike w.ρ target target')
    (name : String) {P : SideBySide S S' → α → β → Prop} :
    Runs own w P (noMethod target name) (noMethod target' name) := by
  unfold Snippet.noMethod
  rw [Value.kind_eq h]
  exact .mistyped _

theorem Runs.textMethod {library : Regex.Library} (hcall : CallsAlike S S' call call')
    (s name : String) {args args' : List Value} (h : ItemsAlike w.ρ args args') :
    Runs none w Values (textMethod library call s name args)
      (textMethod library call' s name args') := by
  have hfirst := h.argument 0
  have hsecond := h.argument 1
  have hdisplay := Value.display_eq hfirst
  unfold Snippet.textMethod
  dsimp only
  split
  · refine Runs.bind (.searcherFor hfirst) ?_
    rintro u searcher _ hu rfl
    rw [isGlobalPattern_eq hfirst]
    split
    · exact .allMatches _ _
    · exact .firstMatch _ _
  · rw [splitParts_eq hfirst, splitLimit_eq hsecond]
    refine .newArray (.plain fun v hv => ?_)
    exact isPlain_of_mem_splitParts _ (List.mem_of_mem_take hv)
  -- methods that take no argument, then those that show their first one
  iterate 6 exact .pure (.plain rfl)
  iterate 3 rw [hdisplay]; exact .pure (.plain rfl)
  · rw [hdisplay]
    split <;> exact .pure (.plain rfl)
  · rw [Value.toNumber_eq hfirst]
    split <;> exact .pure (.plain rfl)
  · rw [relativePosition_eq hfirst, relativePosition_eq hsecond]
    exact .pure (.plain rfl)
  · rw [clampedPosition_eq hfirst, clampedPosition_eq hsecond]
    exact .pure (.plain rfl)
  · rw [isGlobalPattern_eq hfirst]
    exact .replaceMatches hcall _ hfirst hsecond _
  · exact .replaceMatches hcall _ hfirst hsecond _
  · exact .noMethod (.plain rfl) name

/-! ## 4. Methods of arrays -/

section Items

variable (hS : S.limits.Within S'.limits) (hcall : CallsAlike S S' call call')
include hS hcall

theorem Runs.onItem {f f' item item' : Value} (hf : Value.Alike w.ρ f f')
    (hitem : Value.Alike w.ρ item item') (n : Nat) :
    Runs none w Values (onItem S.limits call f item n) (onItem S'.limits call' f' item' n) := by
  unfold Snippet.onItem
  refine Runs.bind (.tick hS) fun u _ _ hu _ => ?_
  exact hcall u _ _ _ _ (hf.mono hu.le)
    (.cons (hitem.mono hu.le) (.cons (.plain rfl) .nil))

theorem Runs.mapItems {f f' : Value} (hf : Value.Alike w.ρ f f') {acc acc' : List Value}
    (hacc : ItemsAlike w.ρ acc acc') (n : Nat) {items items' : List Value}
    (hitems : ItemsAlike w.ρ items items') :
    Runs none w (fun v => ItemsAlike v.ρ) (mapItems S.limits call f acc n items)
      (mapItems S'.limits call' f' acc' n items') := by
  induction items generalizing w acc acc' n items' with
  | nil =>
    cases hitems
    exact .pure hacc.reverse
  | cons item rest ih =>
    cases hitems with
    | cons hitem hrest =>
      unfold Snippet.mapItems
      refine Runs.bind (.onItem hS hcall hf hitem n) fun u x x' hu hx => ?_
      exact ih (hf.mono hu.le) (.cons hx (hacc.mono hu.le)) (n + 1) (ItemsAlike.mono hu.le hrest)

theorem Runs.filterItems {f f' : Value} (hf : Value.Alike w.ρ f f') {acc acc' : List Value}
    (hacc : ItemsAlike w.ρ acc acc') (n : Nat) {items items' : List Value}
    (hitems : ItemsAlike w.ρ items items') :
    Runs none w (fun v => ItemsAlike v.ρ) (filterItems S.limits call f acc n items)
      (filterItems S'.limits call' f' acc' n items') := by
  induction items generalizing w acc acc' n items' with
  | nil =>
    cases hitems
    exact .pure hacc.reverse
  | cons item rest ih =>
    cases hitems with
    | cons hitem hrest =>
      unfold Snippet.filterItems
      refine Runs.bind (.onItem hS hcall hf hitem n) fun u x x' hu hx => ?_
      refine ih (hf.mono hu.le) ?_ (n + 1) (ItemsAlike.mono hu.le hrest)
      rw [Value.truthy_eq hx]
      split
      · exact .cons (hitem.mono hu.le) (hacc.mono hu.le)
      · exact hacc.mono hu.le

/-- An item and its position. -/
abbrev FoundItems (w : SideBySide S S') : Option (Value × Nat) → Option (Value × Nat) → Prop :=
  Option.Rel fun f f' => Value.Alike w.ρ f.1 f'.1 ∧ f.2 = f'.2

theorem Runs.findItem {f f' : Value} (hf : Value.Alike w.ρ f f') (wanted : Bool) (n : Nat)
    {items items' : List Value} (hitems : ItemsAlike w.ρ items items') :
    Runs none w FoundItems (findItem S.limits call f wanted n items)
      (findItem S'.limits call' f' wanted n items') := by
  induction items generalizing w n items' with
  | nil =>
    cases hitems
    exact .pure .none
  | cons item rest ih =>
    cases hitems with
    | cons hitem hrest =>
      unfold Snippet.findItem
      refine Runs.bind (.onItem hS hcall hf hitem n) fun u x x' hu hx => ?_
      rw [Value.truthy_eq hx]
      split
      · exact .pure (.some ⟨hitem.mono hu.le, rfl⟩)
      · exact ih (hf.mono hu.le) (n + 1) (ItemsAlike.mono hu.le hrest)

theorem Runs.foldItems {f f' acc acc' : Value} (hf : Value.Alike w.ρ f f')
    (hacc : Value.Alike w.ρ acc acc') (n : Nat) {items items' : List Value}
    (hitems : ItemsAlike w.ρ items items') :
    Runs none w Values (foldItems S.limits call f acc n items)
      (foldItems S'.limits call' f' acc' n items') := by
  induction items generalizing w acc acc' n items' with
  | nil =>
    cases hitems
    exact .pure hacc
  | cons item rest ih =>
    cases hitems with
    | cons hitem hrest =>
      unfold Snippet.foldItems
      refine Runs.bind (.tick hS) fun u _ _ hu _ => ?_
      refine Runs.bind (hcall u _ _ _ _ (hf.mono hu.le) ?_) fun t x x' ht hx => ?_
      · exact .cons (hacc.mono hu.le) (.cons (hitem.mono hu.le) (.cons (.plain rfl) .nil))
      · have hle := hu.le.trans ht.le
        exact ih (hf.mono hle) hx (n + 1) (ItemsAlike.mono hle hrest)

theorem Runs.arrayMethod {target target' : Value} (htarget : Value.Alike w.ρ target target')
    {items items' args args' : List Value} (hitems : ItemsAlike w.ρ items items') (name : String)
    (hargs : ItemsAlike w.ρ args args') :
    Runs none w Values (arrayMethod S.limits call target items name args)
      (arrayMethod S'.limits call' target' items' name args') := by
  have hfirst := hargs.argument 0
  have hsecond := hargs.argument 1
  unfold Snippet.arrayMethod
  dsimp only
  rw [Value.isCallable_eq hfirst, Value.kind_eq hfirst]
  split
  · exact .mistyped _
  · split
    · exact Runs.bind (.mapItems hS hcall hfirst .nil 0 hitems) fun _ _ _ _ h => .newArray h
    · exact Runs.bind (.filterItems hS hcall hfirst .nil 0 hitems) fun _ _ _ _ h => .newArray h
    · refine Runs.bind (.findItem hS hcall hfirst true 0 hitems) fun _ _ _ _ h => .pure ?_
      cases h <;> exact .plain rfl
    · refine Runs.bind (.findItem hS hcall hfirst false 0 hitems) fun _ _ _ _ h => .pure ?_
      cases h <;> exact .plain rfl
    · refine Runs.bind (.findItem hS hcall hfirst true 0 hitems) fun _ _ _ _ h => ?_
      cases h with
      | none => exact .pure (.plain rfl)
      | some h => exact .pure h.1
    · refine Runs.bind (.findItem hS hcall hfirst true 0 hitems) fun _ _ _ _ h => ?_
      cases h with
      | none => exact .pure (.plain rfl)
      | some h => exact .pure (.of_eq_plain (by rw [h.2]) rfl)
    · -- a fold starts with its second argument, or else with the first item
      have hstart := hargs.get? 1
      generalize args[1]? = start at hstart
      generalize args'[1]? = start' at hstart
      cases hstart with
      | some hstart => exact .foldItems hS hcall hfirst hstart 0 hitems
      | none =>
        cases hitems with
        | nil => exact .mistyped _
        | cons hitem hrest => exact .foldItems hS hcall hfirst hitem 1 hrest
    · rw [hitems.any_eq fun _ _ h => sameItem_eq w.heap.faithful h hfirst]
      exact .pure (.plain rfl)
    · rw [hitems.findIdx?_eq fun _ _ h => Value.strictEq_eq w.heap.faithful h hfirst]
      split <;> exact .pure (.plain rfl)
    · rw [joinItems_eq hitems hfirst]
      exact .pure (.plain rfl)
    · rw [hitems.length_eq, relativePosition_eq hfirst, relativePosition_eq hsecond]
      exact .newArray (List.forall₂_take _ (List.forall₂_drop _ hitems))
    · exact .newArray (List.rel_append hitems (List.rel_flatMap hargs fun _ _ h => spread_alike h))
    · exact .pure (itemAt_alike hitems hfirst)
    · rw [Value.display_eq htarget]
      exact .pure (.plain rfl)
    · exact .noMethod htarget name

/-! ## 5. Methods of all values -/

theorem Runs.builtinMethod (library : Regex.Library) {target target' : Value}
    (h : Value.Alike w.ρ target target') (name : String) {args args' : List Value}
    (hargs : ItemsAlike w.ρ args args') :
    Runs none w Values (builtinMethod library S.limits call target name args)
      (builtinMethod library S'.limits call' target' name args') := by
  have hfirst := hargs.argument 0
  cases h with
  | plain hv =>
    cases target with
    | text s => exact .textMethod hcall s name hargs
    | number x =>
      unfold Snippet.builtinMethod
      dsimp only
      rw [placesArgument_eq hfirst]
      split
      · exact .pure (.plain rfl)
      · split
        · exact .pure (.plain rfl)
        · exact .noMethod (.plain rfl) name
    | bool b =>
      unfold Snippet.builtinMethod
      dsimp only
      split
      · exact .pure (.plain rfl)
      · exact .noMethod (.plain rfl) name
    | array _ _ | pattern _ _ => cases hv
    | _ => exact .noMethod (.plain hv) name
  | array hm ht => exact .arrayMethod hS hcall (.array hm ht) ht name hargs
  | pattern hs =>
    unfold Snippet.builtinMethod
    dsimp only
    rw [Value.display_eq hfirst]
    split
    · exact .pure (.plain rfl)
    · split
      · exact .firstMatch _ _
      · exact .noMethod (.pattern hs) name
  | object hm ht => exact .noMethod (.object hm ht) name
  | closure hm hi hs => exact .noMethod (.closure hm hi hs) name

/-- Methods of alike values with alike arguments run alike. -/
theorem Runs.method (library : Regex.Library) {target target' : Value}
    (h : Value.Alike w.ρ target target') (name : String) {args args' : List Value}
    (hargs : ItemsAlike w.ρ args args') :
    Runs none w Values (method library S.limits call target name args)
      (method library S'.limits call' target' name args') := by
  have hbuiltin := Runs.builtinMethod hS hcall library h name hargs
  cases h with
  | plain hv =>
    cases target with
    | undefined | null => exact .mistyped _
    | object _ _ => cases hv
    | _ => exact hbuiltin
  | object hm ht =>
    have hf := ht.lookup name
    unfold Snippet.method
    dsimp only
    generalize List.lookup name _ = f at hf
    generalize List.lookup name _ = f' at hf
    cases hf with
    | none => exact .mistyped _
    | some hf =>
      dsimp only
      rw [Value.isCallable_eq hf]
      split
      · exact hcall w _ _ _ _ hf hargs
      · exact .mistyped _
  | _ => exact hbuiltin

end Items

end SideBySide

end TraceViewer.Snippet
