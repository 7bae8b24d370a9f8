import TraceViewer.Snippet.Lexer

/-!
# Number literals

Decimal literals, with places and with an exponent or without, and hexadecimal ones.  Each is read
as the number that it writes, where nothing or a blank follows it.
-/

namespace TraceViewer.Snippet

open TraceViewer.Text

/-! ## 1. Runs of characters -/

/-- Nothing, or a blank. -/
def Separated (cs : List Char) : Prop := ∀ c ∈ cs.head?, c = ' '

theorem separated_nil : Separated [] := nofun

theorem Separated.cases {rest : List Char} (h : Separated rest) :
    rest = [] ∨ ∃ rest', rest = ' ' :: rest' := by
  cases rest with
  | nil => exact .inl rfl
  | cons c rest => exact .inr ⟨rest, by rw [h c rfl]⟩

/-- What passes a test ends before what fails it. -/
theorem takeWhile_stop {f : Char → Bool} {cs rest : List Char} (hcs : ∀ c ∈ cs, f c = true)
    (hrest : ∀ c ∈ rest.head?, f c = false) :
    (cs ++ rest).takeWhile f = cs ∧ (cs ++ rest).dropWhile f = rest := by
  rw [List.takeWhile_append_of_pos hcs, List.dropWhile_append_of_pos hcs]
  cases rest with
  | nil => exact ⟨List.append_nil cs, rfl⟩
  | cons c rest =>
    have hc : ¬ f c = true := by rw [hrest c rfl]; exact Bool.false_ne_true
    rw [List.takeWhile_cons_of_neg hc, List.dropWhile_cons_of_neg hc]
    exact ⟨List.append_nil cs, rfl⟩

/-- What passes a test that a blank fails ends where the blank is. -/
theorem takeWhile_separated {f : Char → Bool} (hf : f ' ' = false) {cs rest : List Char}
    (hcs : ∀ c ∈ cs, f c = true) (hrest : Separated rest) :
    (cs ++ rest).takeWhile f = cs ∧ (cs ++ rest).dropWhile f = rest :=
  takeWhile_stop hcs fun c hc => by rw [hrest c hc, hf]

/-- A test that no digit passes. -/
theorem eq_false_of_isDigit {f : Char → Bool} (hf : "0123456789".toList.any f = false) {c : Char}
    (h : Number.isDigit c = true) : f c = false := by
  have hc : ∀ n < 58, 48 ≤ n → Char.ofNat n ∈ "0123456789".toList := by decide
  unfold Number.isDigit at h
  obtain ⟨hlow, hhigh⟩ := Bool.and_eq_true .. |>.mp h
  have hlow : 48 ≤ c.toNat := of_decide_eq_true hlow
  have hhigh : c.toNat ≤ 57 := of_decide_eq_true hhigh
  have hmem := hc c.toNat (by omega) hlow
  rw [Char.ofNat_toNat] at hmem
  exact Bool.not_eq_true _ |>.mp (List.any_eq_false.mp hf c hmem)

/-! ## 2. Literals -/

inductive Sign where
  | absent | plus | minus

def Sign.chars : Sign → List Char
  | .absent => []
  | .plus => ['+']
  | .minus => ['-']

/-- The exponent of a decimal literal. -/
structure Exponent where
  mark : Char
  sign : Sign
  digits : List Char
  isMark : mark = 'e' ∨ mark = 'E'
  isDigit : ∀ c ∈ digits, Number.isDigit c = true
  ne_nil : digits ≠ []

/-- A decimal literal: a point may have no digits before it or none behind it, but not neither. -/
structure Decimal where
  whole : List Char
  places : Option (List Char)
  exponent : Option Exponent
  isDigit_whole : ∀ c ∈ whole, Number.isDigit c = true
  isDigit_places : ∀ c ∈ places.getD [], Number.isDigit c = true
  ne_nil : whole ≠ [] ∨ places.getD [] ≠ []

/-- A hexadecimal literal. -/
structure HexNumeral where
  mark : Char
  digits : List Char
  isMark : mark = 'x' ∨ mark = 'X'
  isHexDigit : ∀ c ∈ digits, isHexDigit c = true
  ne_nil : digits ≠ []
  le_max : hexOf digits ≤ maxHexLiteral

inductive Numeral where
  | decimal (d : Decimal)
  | hex (h : HexNumeral)

def Exponent.chars (x : Exponent) : List Char := x.mark :: (x.sign.chars ++ x.digits)

def Exponent.value (x : Exponent) : Int :=
  match x.sign with
  | .minus => -(Number.digitsValue 0 x.digits : Int)
  | .absent | .plus => Number.digitsValue 0 x.digits

/-- The characters from the point on, up to the exponent. -/
def placesChars : Option (List Char) → List Char
  | none => []
  | some digits => '.' :: digits

def exponentChars (x? : Option Exponent) : List Char := (x?.map Exponent.chars).getD []

def Decimal.chars (d : Decimal) : List Char :=
  d.whole ++ (placesChars d.places ++ exponentChars d.exponent)

/-- The number nearest to what the digits write, as many places behind the point as there are. -/
def Decimal.value (d : Decimal) : Float :=
  Number.ofDecimal (Number.digitsValue 0 (d.whole ++ d.places.getD []))
    ((d.exponent.map Exponent.value).getD 0 - (d.places.getD []).length)

def Numeral.chars : Numeral → List Char
  | .decimal d => d.chars
  | .hex h => '0' :: h.mark :: h.digits

def Numeral.value : Numeral → Float
  | .decimal d => d.value
  | .hex h => Number.ofNat (hexOf h.digits)

/-! ## 3. Reading decimal literals -/

variable {rest : List Char}

theorem beq_or_of_eq {a b c : Char} (h : a = b ∨ a = c) : (a == b || a == c) = true := by
  rcases h with rfl | rfl
  · rw [beq_self_eq_true, Bool.true_or]
  · rw [beq_self_eq_true, Bool.or_true]

/-- No digit is taken for a sign. -/
theorem Exponent.ne_sign (x : Exponent) (rest digits : List Char) :
    x.digits ++ rest ≠ '+' :: digits ∧ x.digits ++ rest ≠ '-' :: digits := by
  obtain ⟨c, cs, hdigits⟩ := List.exists_cons_of_ne_nil x.ne_nil
  have hc : Number.isDigit c = true := x.isDigit c (by rw [hdigits]; exact List.mem_cons_self)
  rw [hdigits, List.cons_append]
  constructor
  · rintro ⟨⟩
    cases hc
  · rintro ⟨⟩
    cases hc

theorem exponentOf_chars (x : Exponent) (hrest : ∀ c ∈ rest.head?, Number.isDigit c = false) :
    exponentOf (x.chars ++ rest) = (x.chars, rest) := by
  obtain ⟨htake, hdrop⟩ := takeWhile_stop x.isDigit hrest
  have hdigits : (!x.digits.isEmpty) = true := by
    rw [Bool.not_eq_true', List.isEmpty_eq_false_iff]
    exact x.ne_nil
  have hread (sign : List Char) :
      (if ((x.mark == 'e' || x.mark == 'E') &&
          !((x.digits ++ rest).takeWhile Number.isDigit).isEmpty) = true then
        (x.mark :: sign ++ (x.digits ++ rest).takeWhile Number.isDigit,
          (x.digits ++ rest).dropWhile Number.isDigit)
      else ([], x.mark :: (sign ++ (x.digits ++ rest)))) =
        (x.mark :: (sign ++ x.digits), rest) := by
    rw [htake, hdrop, beq_or_of_eq x.isMark, hdigits]
    rfl
  unfold exponentOf Exponent.chars
  rw [List.cons_append, List.append_assoc]
  cases x.sign with
  | plus => exact hread ['+']
  | minus => exact hread ['-']
  | absent =>
    dsimp only [Sign.chars, List.nil_append]
    split
    · next heq => exact absurd heq (x.ne_sign rest _).1
    · next heq => exact absurd heq (x.ne_sign rest _).2
    · exact hread []

/-- Behind the places stands an exponent, a blank or nothing. -/
theorem exponentOf_append (x? : Option Exponent) (hrest : Separated rest) :
    exponentOf (exponentChars x? ++ rest) = (exponentChars x?, rest) := by
  cases x? with
  | some x => exact exponentOf_chars x fun c hc => by rw [hrest c hc]; rfl
  | none => rcases hrest.cases with rfl | ⟨rest, rfl⟩ <;> rfl

theorem head?_exponentChars (x? : Option Exponent) (hrest : Separated rest) :
    ∀ c ∈ (exponentChars x? ++ rest).head?, Number.isDigit c = false ∧ c ≠ '.' := by
  cases x? with
  | some x =>
    rintro c ⟨⟩
    rcases x.isMark with hmark | hmark
    · rw [hmark]
      exact ⟨rfl, by decide⟩
    · rw [hmark]
      exact ⟨rfl, by decide⟩
  | none =>
    intro c hc
    rw [hrest c hc]
    exact ⟨rfl, by decide⟩

theorem head?_placesChars (places : Option (List Char)) (x? : Option Exponent)
    (hrest : Separated rest) :
    ∀ c ∈ (placesChars places ++ (exponentChars x? ++ rest)).head?, Number.isDigit c = false := by
  cases places with
  | some digits =>
    rintro c ⟨⟩
    rfl
  | none => exact fun c hc => (head?_exponentChars x? hrest c hc).1

theorem decimalOf_chars (d : Decimal) (hrest : Separated rest) :
    decimalOf (d.chars ++ rest) = (d.chars, rest) := by
  obtain ⟨whole, places, x?, hwhole, hplaces, -⟩ := d
  obtain ⟨htake, hdrop⟩ := takeWhile_stop hwhole (head?_placesChars places x? hrest)
  have hexponent := exponentOf_append x? hrest
  have hhead := head?_exponentChars x? hrest
  unfold decimalOf Decimal.chars
  rw [List.append_assoc, List.append_assoc]
  dsimp only
  rw [htake, hdrop]
  cases places with
  | some digits =>
    have hdigits : ∀ c ∈ digits, Number.isDigit c = true := hplaces
    obtain ⟨htake, hdrop⟩ := takeWhile_stop hdigits fun c hc => (hhead c hc).1
    let tail := digits ++ (exponentChars x? ++ rest)
    show (whole ++ '.' :: tail.takeWhile Number.isDigit ++
      (exponentOf (tail.dropWhile Number.isDigit)).1,
        (exponentOf (tail.dropWhile Number.isDigit)).2) = _
    rw [htake, hdrop, hexponent, List.append_assoc]
    rfl
  | none =>
    dsimp only [placesChars, List.nil_append]
    split
    · next heq => exact absurd rfl (hhead '.' (by rw [heq]; rfl)).2
    · rw [hexponent, List.append_nil]

theorem exponentPart?_chars (x? : Option Exponent) :
    Number.exponentPart? (exponentChars x?) = some ((x?.map Exponent.value).getD 0) := by
  cases x? with
  | none => rfl
  | some x =>
    have hdigits : (x.digits.isEmpty || !x.digits.all Number.isDigit) = false := by
      rw [List.isEmpty_eq_false_iff.mpr x.ne_nil, List.all_eq_true.mpr x.isDigit]
      rfl
    have hread (negative : Bool) :
        (if (x.mark == 'e' || x.mark == 'E') = true then
          if (x.digits.isEmpty || !x.digits.all Number.isDigit) = true then none
          else
            let n : Int := Number.digitsValue 0 x.digits
            some (if negative then -n else n)
        else none) = some (if negative then -(Number.digitsValue 0 x.digits : Int)
          else Number.digitsValue 0 x.digits) := by
      rw [beq_or_of_eq x.isMark, hdigits]
      rfl
    show Number.exponentPart? (x.mark :: (x.sign.chars ++ x.digits)) = some x.value
    unfold Number.exponentPart? Exponent.value
    cases x.sign with
    | plus => exact hread false
    | minus => exact hread true
    | absent =>
      have hsign := x.ne_sign []
      rw [List.append_nil] at hsign
      dsimp only [Sign.chars, List.nil_append]
      rw [if_pos (beq_or_of_eq x.isMark)]
      split
      · next heq => exact absurd heq (hsign _).2
      · next heq => exact absurd heq (hsign _).1
      · rw [hdigits]
        rfl

/-- The first character of a decimal literal is a digit, or a point with a digit behind it. -/
theorem Decimal.start (d : Decimal) : ∃ c cs, d.chars = c :: cs ∧
    (Number.isDigit c = true ∨ c = '.' ∧ cs.head?.any Number.isDigit = true) := by
  obtain ⟨whole, places, x?, hwhole, hplaces, hne⟩ := d
  cases whole with
  | cons c cs => exact ⟨c, _, rfl, .inl (hwhole c List.mem_cons_self)⟩
  | nil =>
    have hne : places.getD [] ≠ [] := hne.resolve_left (absurd rfl)
    cases places with
    | none => exact absurd rfl hne
    | some digits =>
      cases digits with
      | nil => exact absurd rfl hne
      | cons c cs => exact ⟨'.', _, rfl, .inr ⟨rfl, hplaces c List.mem_cons_self⟩⟩

theorem unsignedDecimal?_chars (d : Decimal) : Number.unsignedDecimal? d.chars = some d.value := by
  obtain ⟨whole, places, x?, hwhole, hplaces, hne⟩ := d
  have hhead := head?_exponentChars x? separated_nil
  obtain ⟨htake, hdrop⟩ := takeWhile_stop hwhole (head?_placesChars places x? separated_nil)
  have hempty : (whole.isEmpty && (places.getD []).isEmpty) = false := by
    rw [Bool.and_eq_false_iff, List.isEmpty_eq_false_iff, List.isEmpty_eq_false_iff]
    exact hne
  have hvalue : Number.digitsValue (Number.digitsValue 0 whole) (places.getD []) =
      Number.digitsValue 0 (whole ++ places.getD []) := List.foldl_append.symm
  have hread : (if (whole.isEmpty && (places.getD []).isEmpty) = true then none
      else (Number.exponentPart? (exponentChars x?)).map fun exponent =>
        Number.ofDecimal (Number.digitsValue (Number.digitsValue 0 whole) (places.getD []))
          (exponent - (places.getD []).length)) =
        some (Number.ofDecimal (Number.digitsValue 0 (whole ++ places.getD []))
          ((x?.map Exponent.value).getD 0 - (places.getD []).length)) := by
    rw [hempty, exponentPart?_chars, hvalue]
    rfl
  rw [List.append_nil] at htake hdrop hhead
  unfold Number.unsignedDecimal? Decimal.chars Decimal.value
  dsimp only
  rw [htake, hdrop]
  cases places with
  | some digits =>
    have hdigits : ∀ c ∈ digits, Number.isDigit c = true := hplaces
    obtain ⟨htake, hdrop⟩ := takeWhile_stop hdigits fun c hc => (hhead c hc).1
    let tail := digits ++ exponentChars x?
    show (if (whole.isEmpty && (tail.takeWhile Number.isDigit).isEmpty) = true then none
      else (Number.exponentPart? (tail.dropWhile Number.isDigit)).map fun exponent =>
        Number.ofDecimal (Number.digitsValue (Number.digitsValue 0 whole)
          (tail.takeWhile Number.isDigit)) (exponent - (tail.takeWhile Number.isDigit).length)) = _
    rw [htake, hdrop]
    exact hread
  | none =>
    -- what stands behind the whole part is no point
    cases x? with
    | none => exact hread
    | some x =>
      obtain ⟨mark, sign, digits, hmark, hdigits, hne⟩ := x
      rcases hmark with rfl | rfl <;> exact hread

theorem decimal?_chars (d : Decimal) : Number.decimal? d.chars = some d.value := by
  obtain ⟨c, cs, hchars, hstart⟩ := d.start
  have hsign : c ≠ '-' ∧ c ≠ '+' := by
    constructor
    all_goals
      rintro rfl
      rcases hstart with hc | ⟨hc, -⟩ <;> cases hc
  rw [← unsignedDecimal?_chars, hchars]
  unfold Number.decimal?
  split
  · next heq => exact absurd (List.cons.inj heq).1 hsign.1
  · next heq => exact absurd (List.cons.inj heq).1 hsign.2
  · rfl

/-! ## 4. Reading literals -/

def isHexMark (c : Char) : Bool := c == 'x' || c == 'X'

/-- A test that neither a digit passes nor what else is in a decimal literal. -/
theorem Decimal.eq_false_of_mem {f : Char → Bool}
    (hf : ("0123456789".toList ++ ['.', 'e', 'E', '+', '-']).any f = false) (d : Decimal) :
    ∀ c ∈ d.chars, f c = false := by
  rw [List.any_append, Bool.or_eq_false_iff] at hf
  have hdigit {c : Char} (hc : Number.isDigit c = true) : f c = false :=
    eq_false_of_isDigit hf.1 hc
  have hother {c : Char} (hc : c ∈ ['.', 'e', 'E', '+', '-']) : f c = false :=
    Bool.not_eq_true _ |>.mp (List.any_eq_false.mp hf.2 c hc)
  obtain ⟨whole, places, x?, hwhole, hplaces, -⟩ := d
  intro c hc
  rcases List.mem_append.mp hc with hc | hc
  · exact hdigit (hwhole c hc)
  rcases List.mem_append.mp hc with hc | hc
  · cases places with
    | none => cases hc
    | some digits =>
      rcases List.mem_cons.mp hc with rfl | hc
      · exact hother (by decide)
      · exact hdigit (hplaces c hc)
  · cases x? with
    | none => cases hc
    | some x =>
      rcases List.mem_cons.mp hc with rfl | hc
      · rcases x.isMark with hmark | hmark <;>
        · rw [hmark]
          exact hother (by decide)
      rcases List.mem_append.mp hc with hc | hc
      · cases hsign : x.sign with
        | absent =>
          rw [hsign] at hc
          cases hc
        | plus | minus =>
          rw [hsign] at hc
          obtain rfl := List.mem_singleton.mp hc
          exact hother (by decide)
      · exact hdigit (x.isDigit c hc)

/-- No character of a decimal literal makes it a hexadecimal one. -/
theorem Decimal.isHexMark_eq_false (d : Decimal) : ∀ c ∈ d.chars, isHexMark c = false :=
  d.eq_false_of_mem (by decide)

theorem readNumber_decimal (d : Decimal) (hrest : Separated rest) (offset : Nat) :
    readNumber ⟨offset, d.chars ++ rest⟩ =
      .ok (.number d.value, ⟨offset + byteLength d.chars, rest⟩) := by
  unfold readNumber
  rw [decimalOf_chars d hrest]
  dsimp only
  rw [decimal?_chars]
  dsimp only
  split
  · next c cs heq =>
    -- behind a zero stands another character of the literal, a blank or nothing
    have hhex : isHexMark c = false := by
      obtain ⟨first, ds, hchars, -⟩ := d.start
      rw [hchars, List.cons_append] at heq
      obtain ⟨-, heq⟩ := List.cons.inj heq
      cases ds with
      | nil =>
        obtain rfl : rest = c :: cs := heq
        rw [hrest c rfl]
        rfl
      | cons c' ds =>
        obtain ⟨rfl, -⟩ := List.cons.inj heq
        exact d.isHexMark_eq_false c' (by rw [hchars]; exact .tail _ (.head _))
    exact if_neg (by rw [isHexMark] at hhex; rw [hhex]; exact Bool.false_ne_true)
  · rfl

theorem readNumber_hex (h : HexNumeral) (hrest : Separated rest) (offset : Nat) :
    readNumber ⟨offset, '0' :: h.mark :: h.digits ++ rest⟩ =
      .ok (.number (Number.ofNat (hexOf h.digits)),
        ⟨offset + byteLength ('0' :: h.mark :: h.digits), rest⟩) := by
  obtain ⟨htake, hdrop⟩ := takeWhile_separated (by decide) h.isHexDigit hrest
  have hvalue : hexValue (.ofList h.digits) = hexOf h.digits := by
    rw [hexValue, String.toList_ofList]
  have hok : (h.digits.isEmpty || decide (maxHexLiteral < hexOf h.digits)) = false := by
    rw [List.isEmpty_eq_false_iff.mpr h.ne_nil, decide_eq_false (Nat.not_lt_of_le h.le_max)]
    rfl
  rw [List.cons_append, List.cons_append]
  unfold readNumber
  refine (if_pos (beq_or_of_eq h.isMark)).trans ?_
  dsimp only
  rw [htake, hdrop, hvalue, hok]
  rfl

/-- A literal is read as the number that it writes. -/
theorem readNumber_chars (n : Numeral) (hrest : Separated rest) (offset : Nat) :
    readNumber ⟨offset, n.chars ++ rest⟩ =
      .ok (.number n.value, ⟨offset + byteLength n.chars, rest⟩) := by
  cases n with
  | decimal d => exact readNumber_decimal d hrest offset
  | hex h => exact readNumber_hex h hrest offset

theorem Numeral.start (n : Numeral) : ∃ c cs, n.chars = c :: cs ∧
    (Number.isDigit c = true ∨ c = '.' ∧ cs.head?.any Number.isDigit = true) := by
  cases n with
  | decimal d => exact d.start
  | hex h => exact ⟨'0', _, rfl, .inl rfl⟩

end TraceViewer.Snippet
