import Mathlib.Data.List.Basic
import TraceViewer.Files.Tree

/-!
# What a write leaves to be read

A text that is written is what a later read of the same path gives, and making the folders on the
way to a path changes nothing for those who read it.
-/

namespace TraceViewer.Files

/-! ## 1. Places -/

theorem lookup_filter_ne {p q : Place} (h : p ≠ q) (entries : List (Place × Node)) :
    (entries.filter fun e => e.1 ≠ q).lookup p = entries.lookup p := by
  induction entries with
  | nil => rfl
  | cons e rest ih =>
    by_cases hq : e.1 = q
    · have hp : (p == e.1) = false := by simpa [hq] using h
      rw [List.filter_cons_of_neg (by simpa using hq), ih, List.lookup_cons, hp]
    · rw [List.filter_cons_of_pos (by simpa using hq), List.lookup_cons, List.lookup_cons, ih]

theorem node?_put_of_ne (f : Files) {p q : Place} (h : p ≠ q) (node : Node) :
    (f.put q node).node? p = f.node? p := by
  have hp : (p == q) = false := by simpa using h
  have hlookup : (f.put q node).entries.lookup p = f.entries.lookup p := by
    rw [put, List.lookup_cons, hp]
    exact lookup_filter_ne h f.entries
  unfold node?
  rw [hlookup]

/-- Only what is no folder to begin with can be replaced: the starting places stay folders. -/
theorem node?_put_self (f : Files) {p : Place} (h : f.isFolder p = false) (node : Node) :
    (f.put p node).node? p = some node := by
  have hstart : ¬(p = [] || p = ["/"]) = true := by
    intro hstart
    unfold isFolder node? at h
    rw [if_pos hstart] at h
    cases h
  unfold node?
  rw [if_neg hstart, put, List.lookup_cons, beq_self_eq_true]

theorem isFile_put_folder (f : Files) (p : Place) : (f.put p .folder).isFile p = false := by
  unfold isFile node?
  rw [put, List.lookup_cons, beq_self_eq_true]
  dsimp only
  rw [ite_self]

/-! ## 2. Writing -/

/-- A text that was put where no folder is is read there. -/
theorem readText_put {f : Files} {path : String} (hname : Path.namesFolder path = false)
    (hplace : f.isFolder (Path.place path) = false) (text : String) (now : Int) :
    (f.put (Path.place path) (.file text.toUTF8 now)).readText path = .ok text := by
  have htext : String.fromUTF8? text.toUTF8 = some text := by
    unfold String.fromUTF8?
    rw [String.toUTF8_eq_toByteArray, dif_pos text.isValidUTF8]
    rfl
  unfold readText read?
  dsimp only
  rw [node?_put_self f hplace, hname]
  simp only [htext, Bool.false_eq_true, if_false]

/-- What was written is read. -/
theorem readText_writeText {f f' : Files} {path text : String} {now : Int}
    (h : f.writeText path text now = .ok f') : f'.readText path = .ok text := by
  unfold writeText write at h
  dsimp only at h
  split at h
  · cases h
  split at h
  · next hguard _ =>
    cases h
    simp only [Bool.or_eq_true, Bool.not_eq_true', not_or, Bool.not_eq_true,
      Bool.not_eq_false] at hguard
    obtain ⟨⟨-, hname⟩, hplace⟩ := hguard
    exact readText_put hname hplace text now
  · cases h

/-! ## 3. Folders -/

/-- There may be more folders, but none of them where it is read or in the place of a file. -/
structure Furnishes (place : Place) (f f' : Files) : Prop where
  node : f'.node? place = f.node? place
  isFile : ∀ p, f'.isFile p = true → f.isFile p = true

variable {f f' : Files} {place : Place}

theorem Furnishes.put (h : Furnishes place f f') {p : Place} (hp : place ≠ p) :
    Furnishes place f (f'.put p .folder) where
  node := (node?_put_of_ne f' hp .folder).trans h.node
  isFile q hq := by
    apply h.isFile
    by_cases hqp : q = p
    · rw [hqp, isFile_put_folder] at hq
      cases hq
    · unfold Files.isFile at hq ⊢
      rw [node?_put_of_ne f' hqp] at hq
      exact hq

/-- Folders on the way to a place are not in the place itself. -/
theorem furnishes_foldl (ns : List Nat) (hns : ∀ n ∈ ns, n < place.length)
    (h : Furnishes place f f') :
    Furnishes place f (ns.foldl (fun f n =>
      if f.isFolder (place.take n) then f else f.put (place.take n) .folder) f') := by
  induction ns generalizing f' with
  | nil => exact h
  | cons n ns ih =>
    obtain ⟨hn, hns⟩ := List.forall_mem_cons.mp hns
    have hne : place ≠ place.take n := by
      intro heq
      have hlength := congrArg List.length heq
      rw [List.length_take] at hlength
      omega
    rw [List.foldl_cons]
    split
    · exact ih hns h
    · exact ih hns (h.put hne)

/-- Making the folders on the way to a path does not change what is read there. -/
theorem readText_makeParents {path : String} (h : f.makeParents path = .ok f') :
    f'.readText path = f.readText path := by
  unfold makeParents at h
  dsimp only at h
  split at h
  · cases h
  · next hguard =>
    simp only [Bool.or_eq_true, not_or, Bool.not_eq_true] at hguard
    obtain ⟨-, hblocked⟩ := hguard
    have hfurnishes : Furnishes (Path.place path) f f' := by
      cases h
      exact furnishes_foldl _ (fun n hn => List.mem_range.mp hn) ⟨rfl, fun _ hp => hp⟩
    have hblocked' : f'.isBlocked (Path.place path) = false := by
      unfold isBlocked at hblocked ⊢
      rw [List.any_eq_false] at hblocked ⊢
      exact fun n hn hfile => hblocked n hn (hfurnishes.isFile _ hfile)
    unfold readText read?
    dsimp only
    rw [hfurnishes.node, hblocked, hblocked']

end TraceViewer.Files
