import Mathlib.Data.List.DropRight
import TraceViewer.Json.Printer
import TraceViewer.Json.Reader
import TraceViewer.Proofs.Number.Exact

/-!
# Reading printed documents

What the reader makes of texts, of whole numbers and of lists of items as they are printed, with any
characters after them.
-/

namespace TraceViewer.Json

/-! ## 1. Texts -/

/-- What comes next in a text: the quote that ends it, an escape with a letter or with four digits
that are no surrogate, or a character that stands for itself. -/
theorem scanString_next (acc rest : List Char) :
    scanString acc ('"' :: rest) = some (.ofList acc.reverse, rest) ∧
      (∀ c e, letterEscape? c = some e →
        scanString acc ('\\' :: c :: rest) = scanString (e :: acc) rest) ∧
      (∀ a b c d n, hex4? [a, b, c, d] = some n → isHighSurrogate n = false →
        isLowSurrogate n = false →
          scanString acc ('\\' :: 'u' :: a :: b :: c :: d :: rest) =
            scanString (.ofNat n :: acc) rest) ∧
      ∀ c, c ≠ '"' → c ≠ '\\' → 0x20 ≤ c.toNat →
        scanString acc (c :: rest) = scanString (c :: acc) rest := by
  refine ⟨?_, fun c e h => ?_, fun a b c d n h hhigh hlow => ?_, fun c hquote hslash h => ?_⟩
  · rw [scanString]
  · rw [scanString, h]
    rintro _ _ _ _ _ rfl
    cases h
  · rw [scanString, h]
    simp only [hhigh, hlow, Bool.false_eq_true, if_false]
  · have hplain : (c == '\\' || decide (c.toNat < 0x20)) = false := by
      simp [hslash, h]
    rw [scanString, hplain]
    · rfl
    all_goals simp [hquote, hslash]

theorem hex4?_control : ∀ n < 0x20,
    hex4? ['0', '0', Nat.digitChar (n / 16), Nat.digitChar (n % 16)] = some n := by
  decide

/-- Control characters are no surrogates. -/
theorem scanString_control {c : Char} (h : c.toNat < 0x20) (acc rest : List Char) :
    scanString acc ('\\' :: 'u' :: '0' :: '0' :: Nat.digitChar (c.toNat / 16) ::
      Nat.digitChar (c.toNat % 16) :: rest) = scanString (c :: acc) rest := by
  have hhigh : isHighSurrogate c.toNat = false := by
    unfold isHighSurrogate
    simp only [Bool.and_eq_false_iff, decide_eq_false_iff_not]
    omega
  have hlow : isLowSurrogate c.toNat = false := by
    unfold isLowSurrogate
    simp only [Bool.and_eq_false_iff, decide_eq_false_iff_not]
    omega
  rw [(scanString_next acc rest).2.2.1 _ _ _ _ _ (hex4?_control _ h) hhigh hlow, Char.ofNat_toNat]

/-- A character is read as itself, however it is written. -/
theorem scanString_escape (c : Char) (acc rest : List Char) :
    scanString acc (escape c ++ rest) = scanString (c :: acc) rest := by
  obtain ⟨-, hescape, -, hplain⟩ := scanString_next acc rest
  have hletter {e : Char} (hc : (c == e) = true) {l : Char} (hl : letterEscape? l = some e) :
      scanString acc (['\\', l] ++ rest) = scanString (c :: acc) rest := by
    rw [beq_iff_eq.mp hc]
    exact hescape _ _ hl
  unfold escape
  split
  · next hc => exact hletter hc rfl
  split
  · next hc => exact hletter hc rfl
  split
  · next hc => exact hletter hc rfl
  split
  · next hc => exact hletter hc rfl
  split
  · next hc => exact hletter hc rfl
  split
  · next hc => exact hletter hc rfl
  split
  · next hc => exact hletter hc rfl
  split
  · next hc => exact scanString_control hc acc rest
  · next hquote hslash _ _ _ _ _ hc =>
    exact hplain c (by simpa using hquote) (by simpa using hslash) (Nat.le_of_not_lt hc)

theorem scanString_flatMap_escape (cs acc rest : List Char) :
    scanString acc (cs.flatMap escape ++ '"' :: rest) =
      some (.ofList (acc.reverse ++ cs), rest) := by
  induction cs generalizing acc with
  | nil => rw [List.flatMap_nil, List.nil_append, (scanString_next acc rest).1, List.append_nil]
  | cons c cs ih =>
    rw [List.flatMap_cons, List.append_assoc, scanString_escape, ih, List.reverse_cons,
      List.append_assoc, List.singleton_append]

theorem toList_quote (s : String) : (quote s).toList = '"' :: s.toList.flatMap escape ++ ['"'] :=
  String.toList_ofList

/-- A text is read back after its opening quote. -/
theorem scanString_quote (s : String) (rest : List Char) :
    ∃ body, (quote s).toList ++ rest = '"' :: body ∧ scanString [] body = some (s, rest) := by
  refine ⟨s.toList.flatMap escape ++ '"' :: rest, ?_, ?_⟩
  · rw [toList_quote, List.cons_append, List.cons_append, List.append_assoc]
    rfl
  · rw [scanString_flatMap_escape, List.reverse_nil, List.nil_append, String.ofList_toList]

/-! ## 2. Whole numbers -/

/-- Nothing that follows could go on with a number. -/
def EndsNumber (rest : List Char) : Prop := rest.head? = some ',' ∨ rest.head? = some '\n'

theorem EndsNumber.cases {rest : List Char} (h : EndsNumber rest) :
    ∃ cs, rest = ',' :: cs ∨ rest = '\n' :: cs := by
  cases rest with
  | nil => exact absurd h (by simp [EndsNumber])
  | cons c cs =>
    refine ⟨cs, h.imp (fun hc => ?_) fun hc => ?_⟩
    · rw [Option.some.inj hc]
    · rw [Option.some.inj hc]

theorem EndsNumber.isDigit_head? {rest : List Char} (h : EndsNumber rest) :
    rest.head?.any Number.isDigit = false := by
  obtain ⟨cs, rfl | rfl⟩ := h.cases <;> rfl

theorem digitsValue_cons (acc : Nat) (c : Char) (cs : List Char) :
    Number.digitsValue acc (c :: cs) = Number.digitsValue (acc * 10 + Number.digitValue c) cs :=
  List.foldl_cons ..

theorem le_digitsValue (acc : Nat) (cs : List Char) : acc ≤ Number.digitsValue acc cs := by
  induction cs generalizing acc with
  | nil => exact Nat.le_refl _
  | cons c cs ih =>
    rw [digitsValue_cons]
    exact Nat.le_trans (by omega) (ih _)

theorem takeDigits_cons_of_not {c : Char} (hc : Number.isDigit c = false) (acc count : Nat)
    (rest : List Char) : takeDigits acc count (c :: rest) = (acc, count, c :: rest) := by
  rw [takeDigits, hc, Bool.false_and, if_neg Bool.false_ne_true]

theorem takeDigits_cons_of_fits {c : Char} (hc : Number.isDigit c = true) {acc : Nat}
    (h : acc * 10 + Number.digitValue c ≤ maxSignificand) (count : Nat) (rest : List Char) :
    takeDigits acc count (c :: rest) =
      takeDigits (acc * 10 + Number.digitValue c) (count + 1) rest := by
  rw [takeDigits, hc, decide_eq_true h, Bool.and_self]
  exact if_pos rfl

/-- Digits are all taken as long as their value fits. -/
theorem takeDigits_append {ds : List Char} (hdigits : ∀ c ∈ ds, Number.isDigit c = true)
    (acc count : Nat) (hfits : Number.digitsValue acc ds ≤ maxSignificand) {rest : List Char}
    (hrest : EndsNumber rest) :
    takeDigits acc count (ds ++ rest) = (Number.digitsValue acc ds, count + ds.length, rest) := by
  induction ds generalizing acc count with
  | nil =>
    obtain ⟨cs, rfl | rfl⟩ := hrest.cases
    · exact takeDigits_cons_of_not rfl acc count cs
    · exact takeDigits_cons_of_not rfl acc count cs
  | cons c ds ih =>
    obtain ⟨hc, hdigits⟩ := List.forall_mem_cons.mp hdigits
    rw [digitsValue_cons] at hfits ⊢
    have hfirst := Nat.le_trans (le_digitsValue _ ds) hfits
    rw [List.cons_append, takeDigits_cons_of_fits hc hfirst, ih hdigits _ _ hfits,
      List.length_cons, Nat.add_assoc, Nat.add_comm 1]

/-- Only the number zero starts with the digit zero. -/
theorem head?_toDigits {n : Nat} (h : (Nat.toDigits 10 n).head? = some '0') : n = 0 := by
  induction n using Nat.strongRecOn with
  | ind n ih =>
    rw [Nat.toDigits_eq_if (by decide)] at h
    split at h
    · simpa using h
    · next hlt =>
      rw [List.head?_append_of_ne_nil _ Nat.toDigits_ne_nil] at h
      have hzero := ih (n / 10) (by omega) h
      omega

/-- A number is read back that has at most as many bits as are kept exactly. -/
theorem scanNumber_toDigits {n : Nat} (negative : Bool) (hn : n ≤ maxSignificand)
    (hsign : negative = true → 0 < n ∧ n ≤ 0x8000000000000000) {rest : List Char}
    (hrest : EndsNumber rest) :
    scanNumber negative (Nat.toDigits 10 n ++ rest) =
      some (.whole (if negative then -(n : Int) else n), rest) := by
  have hdigits : ∀ c ∈ Nat.toDigits 10 n, Number.isDigit c = true :=
    fun c => Number.isDigit_of_mem_toDigits
  have hvalue : Number.digitsValue 0 (Nat.toDigits 10 n) = n := by
    rw [Number.digitsValue_eq, Nat.ofDigitChars_toDigits (by decide) (by decide)]
  have htake := takeDigits_append hdigits 0 0 (by rw [hvalue]; exact hn) hrest
  have hzero := @head?_toDigits n
  rw [hvalue] at htake
  obtain ⟨c, ds, heq⟩ := List.exists_cons_of_ne_nil (Nat.toDigits_ne_nil (b := 10) (n := n))
  rw [heq] at hdigits htake hzero ⊢
  have hc : Number.isDigit c = true := hdigits c List.mem_cons_self
  have hlead : (c == '0' && (ds ++ rest).head?.any Number.isDigit) = false := by
    by_cases hc : c = '0'
    · rw [hzero (by rw [hc]; rfl), Nat.toDigits_zero] at heq
      obtain ⟨-, rfl⟩ := List.cons.inj heq
      rw [List.nil_append, hrest.isDigit_head?, Bool.and_false]
    · rw [beq_eq_false_iff_ne.mpr hc, Bool.false_and]
  have hsigned : (!negative || (decide (0 < n) && decide (n ≤ 0x8000000000000000))) = true := by
    cases negative with
    | false => rfl
    | true =>
      obtain ⟨hpos, hle⟩ := hsign rfl
      rw [decide_eq_true hpos, decide_eq_true hle]
      rfl
  unfold scanNumber
  rw [List.cons_append] at htake ⊢
  dsimp only
  rw [htake, hc, hlead]
  obtain ⟨cs, rfl | rfl⟩ := hrest.cases
  · exact if_pos hsigned
  · exact if_pos hsigned

/-! ## 3. Values -/

/-- What the first character says of a value: a quote begins a text, a digit or a sign a number. -/
theorem scanValue_next (levels : Nat) (rest : List Char) :
    scanValue levels ('"' :: rest) = (scanString [] rest).map (fun (s, rest) => (.string s, rest)) ∧
      scanValue levels ('-' :: rest) =
        (scanNumber true rest).map (fun (n, rest) => (.number n, rest)) ∧
      ∀ c, Number.isDigit c = true → scanValue levels (c :: rest) =
        (scanNumber false (c :: rest)).map fun (n, rest) => (.number n, rest) := by
  refine ⟨by rw [scanValue], by rw [scanValue], fun c hc => ?_⟩
  -- no other kind of value starts with a digit
  have hne {d : Char} (hd : Number.isDigit d = false) {cs cs' : List Char} :
      c :: cs ≠ d :: cs' := by
    rintro h
    rw [(List.cons.inj h).1, hd] at hc
    cases hc
  rw [scanValue]
  · exact fun _ => hne rfl
  · exact fun _ => hne rfl
  · exact fun _ => hne rfl
  · exact fun _ => hne rfl
  · exact fun _ => hne rfl
  · exact fun _ _ _ => hne rfl
  · exact fun _ _ _ => hne rfl

theorem scanValue_quote (levels : Nat) (s : String) (rest : List Char) :
    scanValue levels ((quote s).toList ++ rest) = some (.string s, rest) := by
  obtain ⟨body, heq, hbody⟩ := scanString_quote s rest
  rw [heq, (scanValue_next levels body).1, hbody]
  rfl

theorem scanValue_toDigits (levels : Nat) {n : Nat} (hn : n ≤ maxSignificand) {rest : List Char}
    (hrest : EndsNumber rest) :
    scanValue levels (Nat.toDigits 10 n ++ rest) = some (.number (.whole n), rest) := by
  have hscan := scanNumber_toDigits false hn nofun hrest
  obtain ⟨c, ds, heq⟩ := List.exists_cons_of_ne_nil (Nat.toDigits_ne_nil (b := 10) (n := n))
  have hc : Number.isDigit c = true := by
    apply Number.isDigit_of_mem_toDigits (n := n)
    rw [heq]
    exact List.mem_cons_self
  rw [heq, List.cons_append] at hscan ⊢
  rw [(scanValue_next levels _).2.2 c hc, hscan]
  rfl

/-- A whole number is read back that fits 64 bits, with a sign or without. -/
theorem scanValue_intText (levels : Nat) {n : Int} (hlow : -0x8000000000000000 ≤ n)
    (hhigh : n ≤ 0xffffffffffffffff) {rest : List Char} (hrest : EndsNumber rest) :
    scanValue levels ((Number.intText n).toList ++ rest) = some (.number (.whole n), rest) := by
  unfold Number.intText Number.natText
  split
  · next hn =>
    have hscan := scanNumber_toDigits (n := n.natAbs) true (by unfold maxSignificand; omega)
      (by omega) hrest
    have htext : ("-" ++ String.ofList (Nat.toDigits 10 n.natAbs)).toList =
        '-' :: Nat.toDigits 10 n.natAbs := by
      rw [String.toList_append]
      exact congrArg _ String.toList_ofList
    have habs : -(n.natAbs : Int) = n := by omega
    rw [htext, List.cons_append, (scanValue_next levels _).2.1, hscan, if_pos rfl, habs]
    rfl
  · next hn =>
    rw [String.toList_ofList, scanValue_toDigits levels (by unfold maxSignificand; omega) hrest]
    have habs : (n.natAbs : Int) = n := by omega
    rw [habs]

/-! ## 4. Lists of items -/

theorem skipSpace_cons {c : Char} (hc : isSpace c = false) (rest : List Char) :
    skipSpace (c :: rest) = c :: rest :=
  List.dropWhile_cons_of_neg (by simp [hc])

theorem skipSpace_append {gap : List Char} (hgap : ∀ c ∈ gap, isSpace c = true)
    (rest : List Char) : skipSpace (gap ++ rest) = skipSpace rest :=
  List.dropWhile_append_of_pos hgap

/-- A line break and an indentation. -/
def IsGap (cs : List Char) : Prop := ∃ n, cs = '\n' :: List.replicate n ' '

theorem isGap_newline (depth : Nat) : IsGap (newline depth).toList :=
  ⟨2 * depth, String.toList_ofList⟩

theorem IsGap.isSpace {gap : List Char} (h : IsGap gap) : ∀ c ∈ gap, Json.isSpace c = true := by
  obtain ⟨n, rfl⟩ := h
  intro c hc
  rcases List.mem_cons.mp hc with rfl | hc
  · rfl
  · rw [List.eq_of_mem_replicate hc]
    rfl

theorem IsGap.endsNumber {gap : List Char} (h : IsGap gap) (rest : List Char) :
    EndsNumber (gap ++ rest) := by
  obtain ⟨n, rfl⟩ := h
  exact .inr rfl

section Items

variable {α β : Type}

/-- Items as they stand between brackets: each after a gap, with commas between them, and another
gap behind the last. -/
def laidOut (gap out : List Char) (text : β → List Char) : List β → List Char
  | [] => []
  | x :: rest => gap ++ (text x ++ (rest.flatMap (fun y => ',' :: (gap ++ text y)) ++ out))

theorem laidOut_map {γ : Type} (gap out : List Char) (text : β → List Char) (f : γ → β)
    (xs : List γ) : laidOut gap out text (xs.map f) = laidOut gap out (fun x => text (f x)) xs := by
  cases xs with
  | nil => rfl
  | cons x xs => rw [List.map_cons, laidOut, laidOut, List.flatMap_map]

/-- A text that is read as a value where nothing goes on with it, and that does not look like the
end of the list that it stands in. -/
structure Reads (item : List Char → Scan α) (close : Char) (text : List Char) (value : α) :
    Prop where
  head : ∃ c cs, text = c :: cs ∧ isSpace c = false ∧ c ≠ close
  read : ∀ {rest}, EndsNumber rest → item (text ++ rest) = some (value, rest)

variable {item : List Char → Scan α} {close : Char} {gap out : List Char}
  {text : β → List Char} {value : β → α}

theorem Reads.skipSpace {cs : List Char} {a : α} (h : Reads item close cs a) (rest : List Char) :
    Json.skipSpace (cs ++ rest) = cs ++ rest := by
  obtain ⟨c, cs, rfl, hc, -⟩ := h.head
  exact skipSpace_cons hc _

theorem scanItems_skipSpace (bound : Nat) (acc : List α) (cs : List Char) :
    scanItems item close bound acc (Json.skipSpace cs) = scanItems item close bound acc cs := by
  cases bound with
  | zero => rfl
  | succ bound =>
    have hskip : Json.skipSpace (Json.skipSpace cs) = Json.skipSpace cs :=
      List.dropWhile_idempotent isSpace cs
    rw [scanItems, scanItems, hskip]

theorem length_laidOut (gap out : List Char) (text : β → List Char) (xs : List β) :
    xs.length ≤ (laidOut gap out text xs).length + 1 := by
  have hothers (ys : List β) : ys.length ≤ (ys.flatMap fun y => ',' :: (gap ++ text y)).length := by
    induction ys with
    | nil => exact Nat.le_refl _
    | cons y ys ih =>
      rw [List.flatMap_cons, List.length_append, List.length_cons, List.length_cons]
      omega
  cases xs with
  | nil => exact Nat.zero_le _
  | cons x xs =>
    have hxs := hothers xs
    simp only [laidOut, List.length_append, List.length_cons]
    omega

theorem scanItems_laidOut (hclose : isSpace close = false) (hcomma : close ≠ ',') (hgap : IsGap gap)
    (hout : IsGap out) (x : β) (xs : List β)
    (h : ∀ y ∈ x :: xs, Reads item close (text y) (value y)) {bound : Nat}
    (hbound : xs.length < bound) (acc : List α) (rest : List Char) :
    scanItems item close bound acc (laidOut gap out text (x :: xs) ++ close :: rest) =
      some (acc.reverse ++ (x :: xs).map value, rest) := by
  induction xs generalizing x bound acc with
  | nil =>
    obtain ⟨bound, rfl⟩ := Nat.exists_eq_add_one.mpr hbound
    have hx := h x List.mem_cons_self
    have hread := hx.read (hout.endsNumber (close :: rest))
    have htext : laidOut gap out text [x] ++ close :: rest =
        gap ++ (text x ++ (out ++ close :: rest)) := by
      simp [laidOut]
    rw [htext, scanItems, skipSpace_append hgap.isSpace, hx.skipSpace, hread]
    dsimp only
    rw [skipSpace_append hout.isSpace, skipSpace_cons hclose]
    dsimp only
    rw [if_pos (beq_self_eq_true close), List.reverse_cons]
    rfl
  | cons y ys ih =>
    obtain ⟨bound, rfl⟩ := Nat.exists_eq_add_one.mpr (Nat.lt_of_le_of_lt (Nat.zero_le _) hbound)
    have hx := h x List.mem_cons_self
    have hys := ih y (fun z hz => h z (List.mem_cons_of_mem _ hz)) (Nat.lt_of_succ_lt_succ hbound)
      (value x :: acc)
    have hnext : EndsNumber (',' :: (laidOut gap out text (y :: ys) ++ close :: rest)) := .inl rfl
    have hread := hx.read hnext
    have htext : laidOut gap out text (x :: y :: ys) ++ close :: rest =
        gap ++ (text x ++ ',' :: (laidOut gap out text (y :: ys) ++ close :: rest)) := by
      simp [laidOut]
    rw [htext, scanItems, skipSpace_append hgap.isSpace, hx.skipSpace, hread]
    dsimp only
    rw [skipSpace_cons rfl]
    dsimp only
    rw [if_neg (by simpa using hcomma.symm), if_pos (beq_self_eq_true ','), hys]
    simp

/-- A list is read back whose items are. -/
theorem scanContainer_laidOut (hclose : isSpace close = false) (hcomma : close ≠ ',')
    (hgap : IsGap gap) (hout : IsGap out) (xs : List β)
    (h : ∀ x ∈ xs, Reads item close (text x) (value x)) (rest : List Char) :
    scanContainer item close (laidOut gap out text xs ++ close :: rest) =
      some (xs.map value, rest) := by
  unfold scanContainer
  cases xs with
  | nil =>
    rw [laidOut, List.nil_append, skipSpace_cons hclose]
    exact if_pos (beq_self_eq_true close)
  | cons x xs =>
    have hbound : xs.length < (laidOut gap out text (x :: xs) ++ close :: rest).length := by
      have hlength := length_laidOut gap out text (x :: xs)
      rw [List.length_cons] at hlength
      rw [List.length_append, List.length_cons]
      omega
    have hread := scanItems_laidOut hclose hcomma hgap hout x xs h hbound [] rest
    obtain ⟨c, cs, htext, hspace, hne⟩ := (h x List.mem_cons_self).head
    have hskip : ∃ tail,
        skipSpace (laidOut gap out text (x :: xs) ++ close :: rest) = c :: tail := by
      rw [laidOut, List.append_assoc, skipSpace_append hgap.isSpace, htext]
      exact ⟨_, skipSpace_cons hspace _⟩
    obtain ⟨tail, hskip⟩ := hskip
    rw [← scanItems_skipSpace, hskip] at hread
    rw [hskip]
    dsimp only
    rw [if_neg (by simpa using hne), hread]
    rfl

end Items

/-! ## 5. Arrays and objects -/

theorem toList_prettyItems (depth : Nat) (items : List Json) :
    (prettyItems depth items).toList =
      items.flatMap fun v => ',' :: ((newline depth).toList ++ (prettyAt depth v).toList) := by
  induction items with
  | nil => rfl
  | cons v rest ih =>
    rw [prettyItems, List.flatMap_cons, ← ih]
    simp

/-- A member of an object, as it is printed. -/
def memberText (depth : Nat) (m : String × Json) : List Char :=
  (quote m.1).toList ++ ':' :: ' ' :: (prettyAt depth m.2).toList

theorem toList_prettyFields (depth : Nat) (fields : List (String × Json)) :
    (prettyFields depth fields).toList =
      fields.flatMap fun m => ',' :: ((newline depth).toList ++ memberText depth m) := by
  induction fields with
  | nil => rfl
  | cons m rest ih =>
    obtain ⟨key, v⟩ := m
    rw [prettyFields, List.flatMap_cons, ← ih]
    simp [memberText]

theorem toList_prettyAt_array (depth : Nat) (items : List Json) :
    (prettyAt depth (.array items)).toList =
      '[' :: (laidOut (newline (depth + 1)).toList (newline depth).toList
        (fun v => (prettyAt (depth + 1) v).toList) items ++ [']']) := by
  cases items with
  | nil =>
    show "[]".toList = _
    rfl
  | cons v rest =>
    rw [prettyAt]
    simp [laidOut, toList_prettyItems]

theorem toList_prettyAt_object (depth : Nat) (fields : List (String × Json)) :
    (prettyAt depth (.object fields)).toList =
      '\x7b' :: (laidOut (newline (depth + 1)).toList (newline depth).toList
        (memberText (depth + 1)) fields ++ ['\x7d']) := by
  cases fields with
  | nil =>
    show "\x7b\x7d".toList = _
    rfl
  | cons m rest =>
    obtain ⟨key, v⟩ := m
    rw [prettyAt]
    simp [laidOut, toList_prettyFields, memberText]

theorem reads_string (levels depth : Nat) {close : Char} (hclose : close ≠ '"') (s : String) :
    Reads (scanValue levels) close (prettyAt depth (.string s)).toList (.string s) := by
  show Reads (scanValue levels) close (quote s).toList (.string s)
  constructor
  · obtain ⟨body, heq, -⟩ := scanString_quote s []
    rw [List.append_nil] at heq
    exact ⟨'"', body, heq, rfl, hclose.symm⟩
  · exact fun _ => scanValue_quote levels s _

theorem head_intText (n : Int) : ∃ c cs, (Number.intText n).toList = c :: cs ∧
    (c = '-' ∨ Number.isDigit c = true) := by
  obtain ⟨c, cs, heq⟩ := List.exists_cons_of_ne_nil (Nat.toDigits_ne_nil (b := 10) (n := n.natAbs))
  unfold Number.intText Number.natText
  split
  · exact ⟨'-', c :: cs, by simp [heq], .inl rfl⟩
  · refine ⟨c, cs, by rw [String.toList_ofList, heq], .inr ?_⟩
    apply Number.isDigit_of_mem_toDigits (n := n.natAbs)
    rw [heq]
    exact List.mem_cons_self

theorem isSpace_of_isDigit {c : Char} (h : Number.isDigit c = true) : isSpace c = false := by
  by_contra hspace
  simp only [isSpace, Bool.not_eq_false, Bool.or_eq_true, beq_iff_eq] at hspace
  obtain ((rfl | rfl) | rfl) | rfl := hspace <;> cases h

theorem reads_whole (levels depth : Nat) {close : Char} (hdigit : Number.isDigit close = false)
    (hminus : close ≠ '-') {n : Int} (hlow : -0x8000000000000000 ≤ n)
    (hhigh : n ≤ 0xffffffffffffffff) :
    Reads (scanValue levels) close (prettyAt depth (.ofInt n)).toList (.ofInt n) := by
  show Reads (scanValue levels) close (Number.intText n).toList (.number (.whole n))
  constructor
  · obtain ⟨c, cs, heq, rfl | hc⟩ := head_intText n
    · exact ⟨'-', cs, heq, rfl, hminus.symm⟩
    · refine ⟨c, cs, heq, isSpace_of_isDigit hc, ?_⟩
      rintro rfl
      rw [hc] at hdigit
      cases hdigit
  · exact fun hrest => scanValue_intText levels hlow hhigh hrest

end TraceViewer.Json
