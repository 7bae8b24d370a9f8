import Mathlib.Data.List.Chain
import Mathlib.Data.List.Perm.Basic
import TraceViewer.Table.Order

/-!
# Sorting rows

The sort only moves items about, and whatever the order is, no item goes before the one that it
lists right ahead of it.  It keeps the order of equal items where no items stand in a circle: every
item that lies between two others is above the lower or below the higher.
-/

namespace TraceViewer

variable {α : Type}

/-! ## 1. Nothing is lost -/

theorem merge_perm (less : α → α → Bool) (xs ys : List α) :
    (merge less xs ys).Perm (xs ++ ys) := by
  induction xs, ys using merge.induct less with
  | case1 ys =>
    rw [merge]
    exact .refl ys
  | case2 xs hxs =>
    rw [merge, List.append_nil]
    exact hxs
  | case3 x xs y ys hless ih =>
    rw [merge, if_pos hless]
    exact (ih.cons y).trans List.perm_middle.symm
  | case4 x xs y ys hless ih =>
    rw [merge, if_neg hless]
    exact ih.cons x

theorem mergeSort_perm (less : α → α → Bool) (xs : List α) : (mergeSort less xs).Perm xs := by
  induction xs using mergeSort.induct with
  | case1 xs hlen =>
    rw [mergeSort, if_pos hlen]
  | case2 xs hlen half ihTake ihDrop =>
    rw [mergeSort, if_neg hlen]
    have h := (merge_perm less _ _).trans (ihTake.append ihDrop)
    rwa [List.take_append_drop] at h

/-! ## 2. Neighbours -/

section Neighbours

variable {less : α → α → Bool}

/-- No item goes before the one right ahead of it. -/
def NoStepBack (less : α → α → Bool) (xs : List α) : Prop :=
  xs.IsChain fun x y => less y x = false

/-- Two merged lists begin with the first item of one of them. -/
theorem mem_head?_merge {xs ys : List α} {z : α} (h : z ∈ (merge less xs ys).head?) :
    z ∈ xs.head? ∨ z ∈ ys.head? := by
  cases xs with
  | nil =>
    rw [merge] at h
    exact .inr h
  | cons x xs =>
    cases ys with
    | nil =>
      rw [merge] at h
      · exact .inl h
      · simp
    | cons y ys =>
      rw [merge] at h
      split at h
      · exact .inr h
      · exact .inl h

variable (hasymm : ∀ x y, less x y = true → less y x = false)
include hasymm

/-- Merging compares each item with both that can follow it, so no order that goes on from one item
to the next is needed. -/
theorem NoStepBack.merge {xs ys : List α} (hx : NoStepBack less xs) (hy : NoStepBack less ys) :
    NoStepBack less (merge less xs ys) := by
  unfold NoStepBack at hx hy ⊢
  induction xs, ys using merge.induct less with
  | case1 ys => rwa [TraceViewer.merge]
  | case2 xs hne =>
    rwa [TraceViewer.merge]
    exact hne
  | case3 x xs y ys hless ih =>
    rw [TraceViewer.merge, if_pos hless]
    rw [List.isChain_cons] at hy ⊢
    refine ⟨fun z hz => ?_, ih hx hy.2⟩
    rcases mem_head?_merge hz with hz | hz
    · cases hz
      exact hasymm y x hless
    · exact hy.1 z hz
  | case4 x xs y ys hless ih =>
    rw [TraceViewer.merge, if_neg hless]
    rw [List.isChain_cons] at hx ⊢
    refine ⟨fun z hz => ?_, ih hx.2 hy⟩
    rcases mem_head?_merge hz with hz | hz
    · exact hx.1 z hz
    · cases hz
      simpa using hless

/-- No item of a sorted list goes before the one right ahead of it. -/
theorem noStepBack_mergeSort (xs : List α) : NoStepBack less (mergeSort less xs) := by
  induction xs using mergeSort.induct with
  | case1 xs hlen =>
    rw [mergeSort, if_pos hlen]
    match xs with
    | [] => exact .nil
    | [x] => exact .singleton x
  | case2 xs hlen half ihTake ihDrop =>
    rw [mergeSort, if_neg hlen]
    exact NoStepBack.merge hasymm ihTake ihDrop

end Neighbours

/-! ## 3. Equal items keep their order -/

/-- No item goes before one that is listed earlier. -/
def InOrder (less : α → α → Bool) (xs : List α) : Prop :=
  xs.Pairwise fun x y => less y x = false

/-- An order of some items in which none of them stand in a circle. -/
structure Unbroken (less : α → α → Bool) (p : α → Prop) : Prop where
  asymm : ∀ x y, p x → p y → less x y = true → less y x = false
  between : ∀ x y z, p x → p y → p z → less x z = true → less x y = true ∨ less y z = true

section Unbroken

variable {less : α → α → Bool} {p : α → Prop} (h : Unbroken less p) {xs ys : List α}
include h

/-- What goes before neither of two items in order goes before neither. -/
theorem Unbroken.not_less {x y z : α} (hx : p x) (hy : p y) (hz : p z)
    (hxy : less y x = false) (hyz : less z y = false) : less z x = false := by
  cases hzx : less z x with
  | false => rfl
  | true =>
    rcases h.between z y x hz hy hx hzx with h | h
    · exact absurd (h.symm.trans hyz) (by decide)
    · exact absurd (h.symm.trans hxy) (by decide)

/-- Merging lists in order gives a list in order. -/
theorem Unbroken.merge (hxs : ∀ x ∈ xs, p x) (hys : ∀ y ∈ ys, p y) (hx : InOrder less xs)
    (hy : InOrder less ys) : InOrder less (merge less xs ys) := by
  induction xs, ys using merge.induct less with
  | case1 ys =>
    rwa [TraceViewer.merge]
  | case2 xs hne =>
    rwa [TraceViewer.merge]
    exact hne
  | case3 x xs y ys hless ih =>
    rw [TraceViewer.merge, if_pos hless]
    obtain ⟨hpx, hpxs⟩ := List.forall_mem_cons.mp hxs
    obtain ⟨hpy, hpys⟩ := List.forall_mem_cons.mp hys
    obtain ⟨hyys, hysys⟩ := List.pairwise_cons.mp hy
    obtain ⟨hxxs, -⟩ := List.pairwise_cons.mp hx
    have hxy : less x y = false := h.asymm y x hpy hpx hless
    refine List.pairwise_cons.mpr ⟨fun z hz => ?_, ih hxs hpys hx hysys⟩
    -- what follows `y` is `x`, what is above `x`, or what is above `y`
    rcases List.mem_append.mp ((merge_perm less _ _).mem_iff.mp hz) with hz | hz
    · rcases List.mem_cons.mp hz with rfl | hz
      · exact hxy
      · -- here the order must not be broken: nothing between `y` and `z` takes them apart
        exact h.not_less hpy hpx (hpxs z hz) hxy (hxxs z hz)
    · exact hyys z hz
  | case4 x xs y ys hless ih =>
    rw [TraceViewer.merge, if_neg hless]
    obtain ⟨hpx, hpxs⟩ := List.forall_mem_cons.mp hxs
    obtain ⟨hpy, hpys⟩ := List.forall_mem_cons.mp hys
    obtain ⟨hyys, -⟩ := List.pairwise_cons.mp hy
    obtain ⟨hxxs, hxsxs⟩ := List.pairwise_cons.mp hx
    have hyx : less y x = false := Bool.not_eq_true _ |>.mp hless
    refine List.pairwise_cons.mpr ⟨fun z hz => ?_, ih hpxs hys hxsxs hy⟩
    rcases List.mem_append.mp ((merge_perm less _ _).mem_iff.mp hz) with hz | hz
    · exact hxxs z hz
    · rcases List.mem_cons.mp hz with rfl | hz
      · exact hyx
      · exact h.not_less hpx hpy (hpys z hz) hyx (hyys z hz)

theorem Unbroken.mergeSort (hxs : ∀ x ∈ xs, p x) : InOrder less (mergeSort less xs) := by
  induction xs using mergeSort.induct with
  | case1 xs hlen =>
    rw [TraceViewer.mergeSort, if_pos hlen]
    match xs with
    | [] => exact List.Pairwise.nil
    | [x] => exact List.pairwise_singleton _ x
  | case2 xs hlen half ihTake ihDrop =>
    rw [TraceViewer.mergeSort, if_neg hlen]
    have htake : ∀ x ∈ xs.take half, p x := fun x hx => hxs x (List.mem_of_mem_take hx)
    have hdrop : ∀ x ∈ xs.drop half, p x := fun x hx => hxs x (List.mem_of_mem_drop hx)
    exact h.merge (fun x hx => htake x ((mergeSort_perm less _).mem_iff.mp hx))
      (fun x hx => hdrop x ((mergeSort_perm less _).mem_iff.mp hx)) (ihTake htake) (ihDrop hdrop)

/-- Of equal items those of the first list stay ahead of those of the second. -/
theorem Unbroken.filter_merge {q : α → Bool}
    (hq : ∀ x y z, q x = true → q y = true → less x z = less y z) (hxs : ∀ x ∈ xs, p x)
    (hx : InOrder less xs) :
    (TraceViewer.merge less xs ys).filter q = xs.filter q ++ ys.filter q := by
  induction xs, ys using merge.induct less with
  | case1 ys =>
    rw [TraceViewer.merge]
    rfl
  | case2 xs hne =>
    rw [TraceViewer.merge]
    · exact (List.append_nil _).symm
    · exact hne
  | case3 x xs y ys hless ih =>
    rw [TraceViewer.merge, if_pos hless]
    obtain ⟨hxxs, -⟩ := List.pairwise_cons.mp hx
    have hpx : p x := hxs x List.mem_cons_self
    cases hqy : q y with
    | false =>
      have hneg : ¬q y = true := by
        rw [hqy]
        exact Bool.false_ne_true
      rw [List.filter_cons_of_neg hneg, ih hxs hx, List.filter_cons_of_neg hneg]
    | true =>
      -- An item equal to `y` in the first list goes before `x` like `y`, so there is none.
      have hnone : (x :: xs).filter q = [] := by
        refine List.filter_eq_nil_iff.mpr fun z hz hqz => ?_
        have hzx : less z x = true := (hq z y x hqz hqy).trans hless
        have hnot : less z x = false := by
          rcases List.mem_cons.mp hz with rfl | hz
          · exact h.asymm z z hpx hpx hzx
          · exact hxxs z hz
        exact Bool.false_ne_true (hnot.symm.trans hzx)
      rw [List.filter_cons_of_pos hqy, ih hxs hx, hnone, List.filter_cons_of_pos hqy]
      rfl
  | case4 x xs y ys hless ih =>
    obtain ⟨-, hpxs⟩ := List.forall_mem_cons.mp hxs
    obtain ⟨-, hxsxs⟩ := List.pairwise_cons.mp hx
    rw [TraceViewer.merge, if_neg hless, List.filter_cons, ih hpxs hxsxs, List.filter_cons (x := x)]
    split
    · exact List.cons_append.symm
    · rfl

/-- Sorting keeps the order of equal items. -/
theorem Unbroken.filter_mergeSort {q : α → Bool}
    (hq : ∀ x y z, q x = true → q y = true → less x z = less y z) (hxs : ∀ x ∈ xs, p x) :
    (TraceViewer.mergeSort less xs).filter q = xs.filter q := by
  induction xs using mergeSort.induct with
  | case1 xs hlen =>
    rw [TraceViewer.mergeSort, if_pos hlen]
  | case2 xs hlen half ihTake ihDrop =>
    have htake : ∀ x ∈ xs.take half, p x := fun x hx => hxs x (List.mem_of_mem_take hx)
    have hdrop : ∀ x ∈ xs.drop half, p x := fun x hx => hxs x (List.mem_of_mem_drop hx)
    have hperm := mergeSort_perm less (xs.take half)
    rw [TraceViewer.mergeSort, if_neg hlen,
      h.filter_merge hq (fun x hx => htake x (hperm.mem_iff.mp hx)) (h.mergeSort htake),
      ihTake htake, ihDrop hdrop, ← List.filter_append, List.take_append_drop]

end Unbroken

/-! ## 4. Items in a circle -/

/-- A list is sorted by sorting its halves. -/
theorem mergeSort_append (less : α → α → Bool) (xs ys : List α)
    (hlt : 1 < (xs ++ ys).length) (hhalf : xs.length = (xs ++ ys).length / 2) :
    mergeSort less (xs ++ ys) = merge less (mergeSort less xs) (mergeSort less ys) := by
  rw [mergeSort, if_neg (Nat.not_le.mpr hlt)]
  dsimp only
  rw [← hhalf, List.take_left, List.drop_left]

/-- Six items of which the third to the last go before the first, though no item goes before the
one next to it: the sort lists the second half ahead of the first. -/
theorem mergeSort_circle {less : α → α → Bool} {a b c d e f : α} (hab : less b a = false)
    (hbc : less c b = false) (hde : less e d = false) (hef : less f e = false)
    (hda : less d a = true) (hea : less e a = true) (hfa : less f a = true) :
    mergeSort less [a, b, c, d, e, f] = [d, e, f, a, b, c] := by
  have hone (x : α) : mergeSort less [x] = [x] := by
    have hlen : [x].length ≤ 1 := Nat.le_refl 1
    rw [mergeSort, if_pos hlen]
  have hkeep {x y : α} {ys : List α} (h : less y x = false) :
      merge less [x] (y :: ys) = x :: y :: ys := by
    rw [merge, h, if_neg Bool.false_ne_true, merge]
  have hthree {x y z : α} (hxy : less y x = false) (hyz : less z y = false) :
      mergeSort less ([x] ++ [y, z]) = [x, y, z] := by
    have hpair : mergeSort less ([y] ++ [z]) = [y, z] := by
      rw [mergeSort_append less [y] [z] (by simp) (by simp), hone, hone, hkeep hyz]
    rw [mergeSort_append less [x] [y, z] (by simp) (by simp), hone]
    exact (congrArg (merge less [x]) hpair).trans (hkeep hxy)
  have hleft : mergeSort less [a, b, c] = [a, b, c] := hthree hab hbc
  have hright : mergeSort less [d, e, f] = [d, e, f] := hthree hde hef
  show mergeSort less ([a, b, c] ++ [d, e, f]) = [d, e, f, a, b, c]
  rw [mergeSort_append less [a, b, c] [d, e, f] (by simp) (by simp), hleft, hright, merge,
    if_pos hda,
    merge, if_pos hea, merge, if_pos hfa, merge]
  exact List.cons_ne_nil _ _

end TraceViewer
