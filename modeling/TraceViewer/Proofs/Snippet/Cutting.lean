import TraceViewer.Proofs.Snippet.Counting

/-!
# Cutting and joining

What `split` cuts a text into, `join` puts together again with the same separator.  A value that is
not undefined stands for one position of a text or an array, whether a slice ends or begins there,
so that the two slices at it are all of the text or the array.
-/

namespace TraceViewer

/-! ## 1. Cuts of a text at a separator -/

namespace Text

variable {needle cs : List Char}

theorem splitAt_ne_nil (needle cs : List Char) : splitAt needle cs ≠ [] := by
  unfold splitAt
  split
  · exact List.cons_ne_nil _ _
  · split <;> exact List.cons_ne_nil _ _

/-- The cuts with the needle between each two of them are the text, wherever its occurrences would
overlap. -/
theorem intercalate_splitAt (needle cs : List Char) :
    needle.intercalate (splitAt needle cs) = cs := by
  induction needle, cs using splitAt.induct with
  | case1 cs => rw [splitAt, List.intercalate_singleton]
  | case2 cs n needle hcut =>
    unfold splitAt
    split
    · exact List.intercalate_singleton
    · next hcut' => rw [hcut] at hcut'; cases hcut'
  | case3 cs n needle before after hcut _ ih =>
    unfold splitAt
    split
    · next hcut' => rw [hcut] at hcut'; cases hcut'
    · next hcut' =>
      rw [hcut] at hcut'
      cases hcut'
      rw [List.intercalate_cons_of_ne_nil (splitAt_ne_nil _ _), ih, ← eq_of_cutAt? hcut]

/-- Each cut but the last has a needle behind it, which takes a character of the text. -/
theorem length_splitAt_le (needle cs : List Char) :
    (splitAt needle cs).length ≤ cs.length + 1 := by
  induction needle, cs using splitAt.induct with
  | case1 cs => rw [splitAt]; exact Nat.le_add_left _ _
  | case2 cs n needle hcut =>
    unfold splitAt
    split
    · exact Nat.le_add_left _ _
    · next hcut' => rw [hcut] at hcut'; cases hcut'
  | case3 cs n needle before after hcut hlt ih =>
    unfold splitAt
    split
    · next hcut' => rw [hcut] at hcut'; cases hcut'
    · next hcut' =>
      rw [hcut] at hcut'
      cases hcut'
      rw [List.length_cons]
      omega

/-- The parts of a text at a separator; an empty separator gives its characters. -/
def parts : List Char → List Char → List (List Char)
  | [], text => text.map fun c => [c]
  | n :: needle, text => splitAt (n :: needle) text

theorem intercalate_parts (separator text : List Char) :
    separator.intercalate (parts separator text) = text := by
  cases separator with
  | nil =>
    show [].intercalate (text.map fun c => [c]) = text
    induction text with
    | nil => rfl
    | cons c text ih =>
      cases text with
      | nil => rfl
      | cons d text =>
        have ih : [].intercalate ([d] :: text.map fun c => [c]) = d :: text := ih
        rw [List.map_cons, List.map_cons, List.intercalate_cons_cons, ih]
        rfl
  | cons n needle => exact intercalate_splitAt (n :: needle) text

theorem length_parts_le (separator text : List Char) :
    (parts separator text).length ≤ text.length + 1 := by
  cases separator with
  | nil =>
    rw [parts, List.length_map]
    exact Nat.le_succ _
  | cons n needle => exact length_splitAt_le (n :: needle) text

end Text

namespace Snippet

open TraceViewer.Text

/-! ## 2. Splitting and joining -/

theorem splitParts_text (text : List Char) (separator : String) :
    splitParts text (.text separator) = (parts separator.toList text).map textOf := by
  have hdisplay : (Value.text separator).display = separator := rfl
  unfold splitParts
  dsimp only
  rw [hdisplay]
  cases separator.toList with
  | nil =>
    rw [parts, List.map_map]
    rfl
  | cons n needle => rfl

theorem displayItems_map_textOf (texts : List (List Char)) :
    Value.displayItems (texts.map textOf) = texts.map String.ofList := by
  induction texts with
  | nil => rfl
  | cons text rest ih =>
    rw [List.map_cons, Value.displayItems, ih]
    rfl

/-- Joined with a separator, the parts of a text at it are the text. -/
theorem joinItems_parts (s separator : String) :
    joinItems ((parts separator.toList s.toList).map textOf) (.text separator) = s := by
  have hjoin (items : List Value) :
      joinItems items (.text separator) = join separator (Value.displayItems items) := rfl
  have hofList : String.toList ∘ String.ofList = id := funext fun _ => String.toList_ofList
  apply String.toList_inj.mp
  rw [hjoin, displayItems_map_textOf, join, String.toList_intercalate, List.map_map, hofList,
    List.map_id, intercalate_parts]

variable (library : Regex.Library) (limits : Limits) (call : Call)

/-- `s.split(separator).join(separator)`. -/
def splitAndJoin (s separator : String) : Run Value := do
  let parts ← method library limits call (.text s) "split" [.text separator]
  method library limits call parts "join" [.text separator]

/-- A text comes back from being split and joined.  Splitting makes an array, whose mark stays
used. -/
theorem splitAndJoin_apply {s : String} (hsize : s.toList.length < Number.maxSize)
    (separator : String) (m : Machine) :
    splitAndJoin library limits call s separator m =
      .ok (.text s) { m with heap := m.heap.mark.2 } := by
  have hsplit : method library limits call (.text s) "split" [.text separator] =
      Run.newArray ((splitParts s.toList (.text separator)).take Number.maxSize) := rfl
  have hjoin (mark : Nat) (items : List Value) :
      method library limits call (.array mark items) "join" [.text separator] =
        pure (.text (joinItems items (.text separator))) := rfl
  -- there are fewer parts than the limit that stands for none
  have hall : (splitParts s.toList (.text separator)).take Number.maxSize =
      (parts separator.toList s.toList).map textOf := by
    have hle := length_parts_le separator.toList s.toList
    rw [splitParts_text, List.take_of_length_le]
    rw [List.length_map]
    omega
  have harray (items : List Value) : Run.newArray items m =
      .ok (.array m.heap.nextMark items) { m with heap := m.heap.mark.2 } := rfl
  unfold splitAndJoin
  rw [hsplit, hall, Run.bind_ok (harray _), hjoin, joinItems_parts]
  rfl

/-! ## 3. Slices at one position -/

theorem relativePosition_le {length default : Nat} (h : default ≤ length) (v : Value) :
    relativePosition v length default ≤ length := by
  unfold relativePosition
  split
  · exact h
  · dsimp only
    repeat' split
    all_goals omega

theorem toNatWithin_le (bound : Nat) (x : Float) : Number.toNatWithin bound x ≤ bound := by
  unfold Number.toNatWithin
  repeat' split
  all_goals omega

theorem clampedPosition_le {length default : Nat} (h : default ≤ length) (v : Value) :
    clampedPosition v length default ≤ length := by
  cases v with
  | undefined => exact h
  | _ => exact toNatWithin_le _ _

/-- Only for undefined it matters which position it stands for by default. -/
theorem relativePosition_default {v : Value} (hv : v ≠ .undefined) (length a b : Nat) :
    relativePosition v length a = relativePosition v length b := by
  cases v with
  | undefined => exact absurd rfl hv
  | _ => rfl

theorem clampedPosition_default {v : Value} (hv : v ≠ .undefined) (length a b : Nat) :
    clampedPosition v length a = clampedPosition v length b := by
  cases v with
  | undefined => exact absurd rfl hv
  | _ => rfl

theorem relativePosition_zero (length default : Nat) :
    relativePosition (.number 0) length default = 0 := by
  rw [isPosition_zero.1.relativePosition_eq, isPosition_zero.2, Nat.zero_min]

theorem clampedPosition_zero (length default : Nat) :
    clampedPosition (.number 0) length default = 0 := by
  show Number.toNatWithin length 0 = 0
  unfold Number.toNatWithin
  rw [isPosition_zero.2, Nat.zero_min, isPosition_zero.1.isFinite, if_pos rfl, ite_self]

/-- What stands before a position and what stands behind it are all items. -/
theorem between_append_between {α : Type} (items : List α) (n : Nat) :
    between items 0 n ++ between items n items.length = items := by
  have hrest : (items.drop n).take (items.length - n) = items.drop n :=
    List.take_of_length_le (Nat.le_of_eq List.length_drop)
  rw [between, between, List.drop_zero, Nat.sub_zero, hrest, List.take_append_drop]

/-- `s.name(0, v) + s.name(v)`, for a method that takes a part of a text. -/
def cutText (name s : String) (v : Value) : Run Value := do
  let front ← method library limits call (.text s) name [.number 0, v]
  let back ← method library limits call (.text s) name [v]
  return front.applyBinary .add back

/-- `a.slice(0, v).concat(a.slice(v))`. -/
def cutItems (a v : Value) : Run Value := do
  let front ← method library limits call a "slice" [.number 0, v]
  let back ← method library limits call a "slice" [v]
  method library limits call front "concat" [back]

theorem add_textOf (front back : List Char) :
    (textOf front).applyBinary .add (textOf back) = textOf (front ++ back) := by
  have happend : String.ofList front ++ String.ofList back = String.ofList (front ++ back) :=
    String.ofList_append.symm
  exact congrArg Value.text happend

theorem textOf_toList (s : String) : textOf s.toList = .text s :=
  congrArg Value.text String.ofList_toList

theorem cutText_slice (s : String) {v : Value} (hv : v ≠ .undefined) :
    cutText library limits call "slice" s v = pure (.text s) := by
  have hslice (args : List Value) : method library limits call (.text s) "slice" args =
      pure (textOf (between s.toList (relativePosition (argument args 0) s.toList.length 0)
        (relativePosition (argument args 1) s.toList.length s.toList.length))) := rfl
  have hfront : argument [.number 0, v] 0 = .number 0 ∧ argument [.number 0, v] 1 = v := ⟨rfl, rfl⟩
  have hback : argument [v] 0 = v ∧
      relativePosition (argument [v] 1) s.toList.length s.toList.length = s.toList.length :=
    ⟨rfl, rfl⟩
  unfold cutText
  rw [hslice, hslice, hfront.1, hfront.2, hback.1, hback.2, relativePosition_zero,
    relativePosition_default hv _ 0 s.toList.length, pure_bind, pure_bind, add_textOf,
    between_append_between, textOf_toList]

theorem cutText_substring (s : String) {v : Value} (hv : v ≠ .undefined) :
    cutText library limits call "substring" s v = pure (.text s) := by
  have hsubstring (args : List Value) {a b : Nat}
      (ha : clampedPosition (argument args 0) s.toList.length 0 = a)
      (hb : clampedPosition (argument args 1) s.toList.length s.toList.length = b) (hab : a ≤ b) :
      method library limits call (.text s) "substring" args =
        pure (textOf (between s.toList a b)) := by
    subst ha hb
    show pure (textOf (between s.toList (min _ _) (max _ _))) = _
    rw [Nat.min_eq_left hab, Nat.max_eq_right hab]
  let n := clampedPosition v s.toList.length 0
  have hfront : method library limits call (.text s) "substring" [.number 0, v] =
      pure (textOf (between s.toList 0 n)) :=
    hsubstring [.number 0, v] (clampedPosition_zero _ 0)
      (clampedPosition_default hv _ s.toList.length 0) (Nat.zero_le n)
  have hback : method library limits call (.text s) "substring" [v] =
      pure (textOf (between s.toList n s.toList.length)) :=
    hsubstring [v] rfl rfl (clampedPosition_le (Nat.zero_le _) v)
  unfold cutText
  rw [hfront, hback, pure_bind, pure_bind, add_textOf, between_append_between, textOf_toList]

theorem cutItems_apply (mark : Nat) (items : List Value) {v : Value} (hv : v ≠ .undefined)
    (m : Machine) :
    ∃ mark' m', cutItems library limits call (.array mark items) v m =
      .ok (.array mark' items) m' := by
  have hslice (args : List Value) : method library limits call (.array mark items) "slice" args =
      Run.newArray (between items (relativePosition (argument args 0) items.length 0)
        (relativePosition (argument args 1) items.length items.length)) := rfl
  have hconcat (a b : Nat) (front back : List Value) :
      method library limits call (.array a front) "concat" [.array b back] =
        Run.newArray (front ++ [Value.array b back].flatMap spread) := rfl
  have hspread (b : Nat) (back : List Value) : [Value.array b back].flatMap spread = back :=
    List.append_nil back
  have hfront : argument [.number 0, v] 0 = .number 0 ∧ argument [.number 0, v] 1 = v := ⟨rfl, rfl⟩
  have hback : argument [v] 0 = v ∧
      relativePosition (argument [v] 1) items.length items.length = items.length := ⟨rfl, rfl⟩
  have harray (items : List Value) (m : Machine) : Run.newArray items m =
      .ok (.array m.heap.nextMark items) { m with heap := m.heap.mark.2 } := rfl
  unfold cutItems
  rw [hslice, hslice, hfront.1, hfront.2, hback.1, hback.2, Run.bind_ok (harray _ _),
    Run.bind_ok (harray _ _), hconcat, hspread, harray, relativePosition_zero,
    relativePosition_default hv _ 0 items.length, between_append_between]
  exact ⟨_, _, rfl⟩

/-- Splitting a text and joining its parts gives the text back, whatever the separator, and so does
putting together what stands before a position and what stands behind it, whatever value stands for
the position; the same goes for arrays.  All positions are within what they are positions of.  The
text is not longer than a size can tell, as no text is that a program can have: where no limit is
given, parts are split off up to the largest size. -/
theorem cut_joined (m : Machine) {s : String} (hsize : s.toList.length < Number.maxSize)
    (separator : String) {v : Value} (hv : v ≠ .undefined) (mark : Nat) (items : List Value) :
    (∃ m', splitAndJoin library limits call s separator m = .ok (.text s) m') ∧
      cutText library limits call "slice" s v = pure (.text s) ∧
      cutText library limits call "substring" s v = pure (.text s) ∧
      (∃ mark' m', cutItems library limits call (.array mark items) v m =
        .ok (.array mark' items) m') ∧
      ∀ length default : Nat, default ≤ length →
        relativePosition v length default ≤ length ∧ clampedPosition v length default ≤ length :=
  ⟨⟨_, splitAndJoin_apply library limits call hsize separator m⟩,
    cutText_slice library limits call s hv, cutText_substring library limits call s hv,
    cutItems_apply library limits call mark items hv m,
    fun _ _ h => ⟨relativePosition_le h v, clampedPosition_le h v⟩⟩

/-- The theorem for a separator that overlaps itself, and a position that counts from the end. -/
theorem cut_joined_overlapping :
    "aaab".toList.length < Number.maxSize ∧ (Value.number (-1) ≠ .undefined) ∧
      (∃ m', splitAndJoin Regex.engine {} (fun _ _ => pure .null) "aaab" "aa" ⟨{}, 0, {}, {}, 0⟩ =
        .ok (.text "aaab") m') ∧
      cutText Regex.engine {} (fun _ _ => pure .null) "slice" "aaab" (.number (-1)) =
        pure (.text "aaab") := by
  have hsize : "aaab".toList.length < Number.maxSize := by decide
  have hv : Value.number (-1) ≠ .undefined := nofun
  have hcut :=
    cut_joined Regex.engine {} (fun _ _ => pure .null) ⟨{}, 0, {}, {}, 0⟩ hsize "aa" hv 0 [.null]
  exact ⟨hsize, hv, hcut.1, hcut.2.1⟩

end Snippet

end TraceViewer
