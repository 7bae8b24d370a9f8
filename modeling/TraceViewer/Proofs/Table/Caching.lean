import Mathlib.Data.List.Dedup
import TraceViewer.Proofs.Table.RowAlone

/-!
# The cache of filters

A text that was read as a filter of a column is not read again.  `FilterCache.Used.transparent` says
that this shows in no decision, whatever becomes of the parsers in between, unless one of them has
kept a regular expression or a function that the filter of the text had made before: a filter that
is read anew makes others.  Each text counts once, blanks at its ends aside.
-/

namespace TraceViewer

open Snippet

namespace FilterCache

variable {c : FilterCache} {r r' : Registry} {texts : List String} {text : String}

/-! ## 1. Uses of a cache -/

/-- A cache that was asked for these texts one after another, and the registry by then.  Between two
uses the registry may become any other that has not given out fewer numbers. -/
inductive Used : List String → FilterCache → Registry → Prop
  | new {r : Registry} (hr : r.Made) : Used [] {} r
  | compile {texts : List String} {c : FilterCache} {r : Registry} (h : Used texts c r)
      (text : String) : Used (texts ++ [text]) (c.compile text r).2.1 (c.compile text r).2.2
  | keepCell {texts : List String} {c : FilterCache} {r : Registry} (h : Used texts c r)
      (text cell : String) :
      Used (texts ++ [text]) (c.keepCell text cell r).2.1 (c.keepCell text cell r).2.2
  | change {texts : List String} {c : FilterCache} {r r' : Registry} (h : Used texts c r)
      (hr : r'.Made) (hsource : r.heap.nextSource ≤ r'.heap.nextSource) : Used texts c r'

/-- The texts that are filters: no blanks at the ends, and none of them empty. -/
def seen (texts : List String) : List String :=
  (texts.map Text.trim).filter fun text => !text.isEmpty

theorem seen_append (texts : List String) (text : String) :
    seen (texts ++ [text]) = seen texts ++ seen [text] := by
  simp [seen]

theorem seen_blank (h : (Text.trim text).isEmpty = true) : seen [text] = [] := by
  simp [seen, h]

theorem seen_text (h : ¬(Text.trim text).isEmpty = true) : seen [text] = [Text.trim text] := by
  simp [seen, h]

/-- The filters of a cache that was asked for these texts. -/
structure Filed (texts : List String) (c : FilterCache) (r : Registry) : Prop where
  made : r.Made
  sourced : c.Sourced r
  parsed : ∀ f ∈ c.filters, f.parsed = readExpr f.text
  nodup : (c.filters.map (·.text)).Nodup
  texts : ∀ t, t ∈ c.filters.map (·.text) ↔ t ∈ seen texts

theorem compile_blank (h : (Text.trim text).isEmpty = true) : c.compile text r = (none, c, r) := by
  unfold compile
  rw [if_pos h]

theorem compile_eq_read (h : ¬(Text.trim text).isEmpty = true) :
    c.compile text r = (some (c.read text r).1, (c.read text r).2) := by
  unfold compile read cached?
  rw [if_neg h]
  cases c.filters.find? fun f => f.text == Text.trim text <;> rfl

theorem read_mem (c : FilterCache) (text : String) (r : Registry) :
    (c.read text r).1 ∈ (c.read text r).2.1.filters := by
  unfold read
  cases hf : c.cached? text with
  | some f => exact cached?_mem hf
  | none => exact List.mem_append_right _ (List.mem_singleton_self _)

theorem cached?_text {f : CellFilter} (h : c.cached? text = some f) : f.text = Text.trim text := by
  simpa using List.find?_some h

theorem not_mem_of_cached?_eq_none (h : c.cached? text = none) :
    Text.trim text ∉ c.filters.map (·.text) := by
  intro hmem
  obtain ⟨f, hf, htext⟩ := List.mem_map.mp hmem
  simpa [htext] using List.find?_eq_none.mp h f hf

namespace Filed

theorem new (hr : r.Made) : Filed [] {} r :=
  ⟨hr, fun _ hf => (nomatch hf), fun _ hf => (nomatch hf), List.nodup_nil, fun _ => Iff.rfl⟩

theorem blank (h : Filed texts c r) (hblank : (Text.trim text).isEmpty = true) :
    Filed (texts ++ [text]) c r := by
  have hseen : seen (texts ++ [text]) = seen texts := by
    rw [seen_append, seen_blank hblank, List.append_nil]
  exact { h with texts := by rw [hseen]; exact h.texts }

/-- Reading a text files it, once. -/
theorem read (h : Filed texts c r) (htext : ¬(Text.trim text).isEmpty = true) :
    Filed (texts ++ [text]) (c.read text r).2.1 (c.read text r).2.2 := by
  have hseen (t : String) : t ∈ seen (texts ++ [text]) ↔
      t ∈ c.filters.map (·.text) ∨ t = Text.trim text := by
    rw [seen_append, seen_text htext, List.mem_append, List.mem_singleton, h.texts]
  unfold FilterCache.read
  cases hf : c.cached? text with
  | some f =>
    -- the text is among the others
    have hmem : Text.trim text ∈ c.filters.map (·.text) :=
      cached?_text hf ▸ List.mem_map_of_mem (cached?_mem hf)
    refine { h with texts := fun t => ?_ }
    rw [hseen]
    exact ⟨.inl, fun ht => ht.elim id fun ht => ht ▸ hmem⟩
  | none =>
    have hnew := not_mem_of_cached?_eq_none hf
    refine ⟨h.made.serve (.source r), fun f hf => ?_, fun f hf => ?_, ?_, fun t => ?_⟩
    · rcases List.mem_append.mp hf with hf | hf
      · exact Nat.lt_succ_of_lt (h.sourced f hf)
      · rw [List.mem_singleton.mp hf]
        exact Nat.lt_succ_self _
    · rcases List.mem_append.mp hf with hf | hf
      · exact h.parsed f hf
      · rw [List.mem_singleton.mp hf]
        rfl
    · rw [List.map_append, List.nodup_append]
      refine ⟨h.nodup, List.nodup_singleton _, fun a ha b hb hab => ?_⟩
      have hb : b = Text.trim text := List.mem_singleton.mp hb
      rw [hab, hb] at ha
      exact hnew ha
    · rw [hseen, List.map_append, List.mem_append]
      exact or_congr_right List.mem_singleton

theorem compile (h : Filed texts c r) (text : String) :
    Filed (texts ++ [text]) (c.compile text r).2.1 (c.compile text r).2.2 := by
  by_cases hblank : (Text.trim text).isEmpty = true
  · rw [compile_blank hblank]
    exact h.blank hblank
  · rw [compile_eq_read hblank]
    exact h.read hblank

theorem keepCell (h : Filed texts c r) (text cell : String) :
    Filed (texts ++ [text]) (c.keepCell text cell r).2.1 (c.keepCell text cell r).2.2 := by
  by_cases hblank : (Text.trim text).isEmpty = true
  · rw [keepCell_blank hblank]
    exact h.blank hblank
  · have hread := h.read hblank
    rw [keepCell_eq_read hblank]
    have hsource := hread.sourced _ (read_mem c text r)
    have hserves := keep_serves (c.read text r).1 hsource cell
    exact { hread with
      made := hread.made.serve hserves
      sourced := hread.sourced.mono (hserves.continues hread.made.sound) }

/-- A cache holds one filter for each text. -/
theorem size_eq (h : Filed texts c r) : c.size = (seen texts).dedup.length := by
  have hperm : (c.filters.map (·.text)).Perm (seen texts).dedup :=
    (List.perm_ext_iff_of_nodup h.nodup (List.nodup_dedup _)).mpr fun t => by
      rw [List.mem_dedup, h.texts]
  rw [size, ← List.length_map (·.text), hperm.length_eq]

/-- A filter that was read before decides as one that is read now, if the parsers have kept nothing
of it. -/
theorem keepCell_eq_new (h : Filed texts c r) {text : String}
    (hkeeps : ∀ f ∈ c.cached? text, ¬r.Keeps f.source) (cell : String) :
    (c.keepCell text cell r).1 = (({} : FilterCache).keepCell text cell r).1 := by
  have hr := h.made.sound
  by_cases hblank : (Text.trim text).isEmpty = true
  · rw [keepCell_blank hblank, keepCell_blank hblank]
  · have hnew : ({} : FilterCache).cached? text = none := rfl
    cases hf : c.cached? text with
    | none => rw [keepCell_fresh hblank hf, keepCell_fresh hblank hnew]
    | some f =>
      rw [keepCell_cached hblank hf, keepCell_fresh hblank hnew]
      have hmem := cached?_mem hf
      have htext := cached?_text hf
      have hparsed : (fresh text r).parsed = f.parsed := by
        rw [h.parsed f hmem, htext]
        rfl
      exact (Registry.Unchanged.keep_cells hr (.refl hr) (Registry.Unchanged.refl hr).read
        htext.symm
        hparsed (h.sourced f hmem) (Nat.lt_succ_self _)
        (.inr ⟨hkeeps f hf, hr.not_keeps (Nat.le_refl _)⟩) cell).1.symm

end Filed

namespace Used

theorem filed (h : Used texts c r) : Filed texts c r := by
  induction h with
  | new hr => exact .new hr
  | compile _ text ih => exact ih.compile text
  | keepCell _ text cell ih => exact ih.keepCell text cell
  | change _ hr hsource ih =>
    exact { ih with
      made := hr
      sourced := fun f hf => Nat.lt_of_lt_of_le (ih.sourced f hf) hsource }

theorem register (h : Used texts c r) (name source : String) :
    Used texts c (r.register name source).2 :=
  .change h (.register h.filed.made name source) (h.filed.made.sound.register name source).source

theorem remove (h : Used texts c r) (name : String) : Used texts c (r.remove name).2 :=
  .change h (.remove h.filed.made name) (h.filed.made.sound.remove name).source

theorem serve (h : Used texts c r) (hr : r.Serves r') : Used texts c r' :=
  .change h (.serve h.filed.made hr) (hr.continues h.filed.made.sound).source

/-! ## 2. The cache does not show -/

/-- Whatever a cache was used for and whatever became of the parsers, a text decides about a cell as
it does for a new cache, if the parsers have kept nothing that the filter of this text made; and the
cache holds as many filters as there were texts that differ and are not blank. -/
theorem transparent (h : Used texts c r) :
    (∀ text cell, (∀ f ∈ c.cached? text, ¬r.Keeps f.source) →
      (c.keepCell text cell r).1 = (({} : FilterCache).keepCell text cell r).1) ∧
      c.size = (seen texts).dedup.length :=
  ⟨fun _ cell hkeeps => h.filed.keepCell_eq_new hkeeps cell, h.filed.size_eq⟩

end Used

/-- The theorem for a parser that is replaced between two uses: the filter that was read before
decides by the new one. -/
theorem transparent_replaced :
    let first := ({} : FilterCache).keepCell "long(value)" "xy" Table.longParser
    let r := (first.2.2.register "long" "x => x.length > 2").2
    (first.2.1.keepCell " long(value) " "xy" r).1 =
        (({} : FilterCache).keepCell " long(value) " "xy" r).1 ∧
      first.2.1.size = (seen ["long(value)"]).dedup.length ∧
      first.1 = true ∧ (first.2.1.keepCell " long(value) " "xy" r).1 = false := by
  intro first r
  have hused : Used ["long(value)"] first.2.1 r :=
    ((Used.new (.register (.new {}) _ _)).keepCell "long(value)" "xy").register _ _
  have hkeeps : ∀ f ∈ first.2.1.cached? " long(value) ", ¬r.Keeps f.source := by
    intro f hf
    have hsource : f.source = 1 := by
      have h : (first.2.1.cached? " long(value) ").map (·.source) = some 1 := by decide +kernel
      rw [hf] at h
      exact Option.some.inj h
    rw [hsource]
    exact Registry.not_keeps_of_absent (by decide +kernel) (by decide +kernel)
  obtain ⟨hkept, hsize⟩ := hused.transparent
  exact ⟨hkept _ _ hkeeps, hsize, by decide +kernel, by decide +kernel⟩

/-- A parser that tells whether it is given the same value again. -/
def sameParser : Registry :=
  (({} : Registry).register "same"
    "function same(x) \x7b const old = last; last = x; return old === x; \x7d let last = null;").2

/-- The regular expression of a filter is the same each time that the filter is used, and another
one when its text is read anew. -/
theorem not_transparent_sameParser :
    ¬∀ texts c r, Used texts c r → ∀ text cell,
      (c.keepCell text cell r).1 = (({} : FilterCache).keepCell text cell r).1 := by
  intro h
  have hused := (Used.new (r := sameParser) (.register (.new {}) _ _)).keepCell "same(/a/)" "x"
  exact absurd (h _ _ _ hused "same(/a/)" "x") (by decide +kernel)

end FilterCache

end TraceViewer
