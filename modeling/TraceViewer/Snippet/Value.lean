import TraceViewer.Json.Printer
import TraceViewer.Snippet.Expr
import TraceViewer.Snippet.Numeral
import TraceViewer.Text.Search

/-!
The values of the snippet language, and how each shows, counts as a number, counts as true and
stands as JSON. Arrays, objects and functions never change; each carries a mark by which two
values made at different times are told apart.
-/

namespace TraceViewer.Snippet

/-- The functions that the language itself provides. -/
inductive Builtin where
  | parseInt | parseFloat | number | string | boolean | isNaN
  | min | max | abs | floor | ceil | round
  | stringify | isArray
  deriving Repr, DecidableEq

def Builtin.name : Builtin → String
  | .parseInt => "parseInt" | .parseFloat => "parseFloat" | .number => "Number"
  | .string => "String" | .boolean => "Boolean" | .isNaN => "isNaN" | .min => "min"
  | .max => "max" | .abs => "abs" | .floor => "floor" | .ceil => "ceil" | .round => "round"
  | .stringify => "stringify" | .isArray => "isArray"

/-- A function with the scope that it was made in and the number of the source text it stands in. -/
structure Closure where
  function : Function
  scope : Nat
  source : Nat

inductive Value where
  | undefined
  | null
  | bool (b : Bool)
  | number (x : Float)
  | text (s : String)
  | array (mark : Nat) (items : List Value)
  | object (mark : Nat) (fields : List (String × Value))
  | pattern (source : Nat) (literal : PatternLiteral)
  | closure (mark : Nat) (c : Closure)
  | builtin (b : Builtin)

namespace Value

instance : Inhabited Value := ⟨.undefined⟩

/-- The word for the kind of a value in messages. -/
def kind : Value → String
  | .undefined => "undefined"
  | .null => "null"
  | .bool _ => "boolean"
  | .number _ => "number"
  | .text _ => "string"
  | .array _ _ => "array"
  | .object _ _ => "object"
  | .pattern _ _ => "regexp"
  | .closure _ _ | .builtin _ => "function"

/-- The word for the kind of a value in the language itself. -/
def kindOf : Value → String
  | .null | .array _ _ | .pattern _ _ => "object"
  | v => v.kind

def isNullish : Value → Bool
  | .undefined | .null => true
  | _ => false

def isCallable : Value → Bool
  | .closure _ _ | .builtin _ => true
  | _ => false

mutual

/-- Whether a function with a scope can be reached from a value. -/
def holdsClosure : Value → Bool
  | .closure _ _ => true
  | .array _ items => anyHoldsClosure items
  | .object _ fields => anyFieldHoldsClosure fields
  | _ => false

def anyHoldsClosure : List Value → Bool
  | [] => false
  | v :: rest => v.holdsClosure || anyHoldsClosure rest

def anyFieldHoldsClosure : List (String × Value) → Bool
  | [] => false
  | (_, v) :: rest => v.holdsClosure || anyFieldHoldsClosure rest

end

/-! ## Coercions -/

def truthy : Value → Bool
  | .undefined | .null => false
  | .bool b => b
  | .number x => x != 0 && !Number.isNaN x
  | .text s => !s.isEmpty
  | _ => true

mutual

/-- The number that a value counts as. An array of one item counts as that item. -/
def toNumber : Value → Float
  | .undefined => Number.nan
  | .null => 0
  | .bool b => if b then 1 else 0
  | .number x => x
  | .text s => textNumber s
  | .array _ items => itemsNumber items
  | _ => Number.nan

def itemsNumber : List Value → Float
  | [] => 0
  | v :: rest => if rest.isEmpty then v.toNumber else Number.nan

end

/-- A literal between its slashes, with its flags. -/
def patternText (p : PatternLiteral) : String := "/" ++ p.body ++ "/" ++ p.flags

/-- How a function shows: its name and parameters, or an arrow after them. -/
def functionText (f : Function) : String :=
  match f.name with
  | some name => "function " ++ name ++ "(" ++ Text.join ", " f.params ++ ")"
  | none => "(" ++ Text.join ", " f.params ++ ") => ..."

mutual

/-- The text that a value shows as. -/
def display : Value → String
  | .undefined => "undefined"
  | .null => "null"
  | .bool b => if b then "true" else "false"
  | .number x => numberText x
  | .text s => s
  | .array _ items => Text.join "," (displayItems items)
  | .object _ _ => "[object Object]"
  | .pattern _ p => patternText p
  | .closure _ c => functionText c.function
  | .builtin b => "function " ++ b.name ++ "() \x7b [native code] \x7d"

/-- The texts of the items of an array, empty for what is null or undefined. -/
def displayItems : List Value → List String
  | [] => []
  | v :: rest => (if v.isNullish then "" else v.display) :: displayItems rest

end

/-! ## JSON -/

/-- Whole numbers below this size become whole numbers in JSON. -/
def wholeBelow : Nat := 9000000000000000

/-- A number as JSON; what is not finite has no form there. -/
def numberJson (x : Float) : Json :=
  if Number.isWhole x && Number.wholePart x < wholeBelow then .ofInt (Number.toInt x)
  else if Number.isFinite x then .number (.float x)
  else .null

mutual

/-- A value as JSON. Functions and undefined have no form there and become null; regular
expressions become their text. -/
def toJson : Value → Json
  | .undefined | .null | .closure _ _ | .builtin _ => .null
  | .bool b => .bool b
  | .number x => numberJson x
  | .text s => .string s
  | .array _ items => .array (itemsJson items)
  | .object _ fields => .object (fieldsJson fields)
  | .pattern _ p => .string (patternText p)

def itemsJson : List Value → List Json
  | [] => []
  | v :: rest => v.toJson :: itemsJson rest

def fieldsJson : List (String × Value) → List (String × Json)
  | [] => []
  | (k, v) :: rest => (k, v.toJson) :: fieldsJson rest

end

mutual

/-- The value of a JSON document, the arrays and objects in it marked from `mark` on; with the
first mark that is left. -/
def ofJson (mark : Nat) : Json → Value × Nat
  | .null => (.null, mark)
  | .bool b => (.bool b, mark)
  | .number n => (.number n.toFloat, mark)
  | .string s => (.text s, mark)
  | .array items =>
    let (values, next) := ofItems (mark + 1) items
    (.array mark values, next)
  | .object fields =>
    let (values, next) := ofFields (mark + 1) fields
    (.object mark values, next)

def ofItems (mark : Nat) : List Json → List Value × Nat
  | [] => ([], mark)
  | j :: rest =>
    let (v, next) := ofJson mark j
    let (values, next) := ofItems next rest
    (v :: values, next)

def ofFields (mark : Nat) : List (String × Json) → List (String × Value) × Nat
  | [] => ([], mark)
  | (k, j) :: rest =>
    let (v, next) := ofJson mark j
    let (values, next) := ofFields next rest
    ((k, v) :: values, next)

end

/-! ## Comparison -/

/-- The text of a compound value in place of the value; other values stay as they are. -/
def toPrimitive : Value → Value
  | .array mark items => .text (display (.array mark items))
  | .object mark fields => .text (display (.object mark fields))
  | .pattern source p => .text (display (.pattern source p))
  | v => v

/-- Equality without coercion. Compound values are equal only to themselves. -/
def strictEq : Value → Value → Bool
  | .undefined, .undefined => true
  | .null, .null => true
  | .bool a, .bool b => a == b
  | .number a, .number b => a == b
  | .text a, .text b => a == b
  | .array a _, .array b _ => a == b
  | .object a _, .object b _ => a == b
  -- a literal is the same pattern each time that it is evaluated
  | .pattern s a, .pattern t b => s == t && a.number == b.number
  | .closure a _, .closure b _ => a == b
  | .builtin a, .builtin b => a == b
  | _, _ => false

/-- A truth value as a number; other values stay as they are. -/
def boolToNumber : Value → Value
  | .bool b => .number (toNumber (.bool b))
  | v => v

/-- Whether a value is an array, an object or a regular expression. -/
def isCompound : Value → Bool
  | .array _ _ | .object _ _ | .pattern _ _ => true
  | _ => false

/-- Equality of values neither of which is null, undefined or a truth value. -/
def looseEqPlain (a b : Value) : Bool :=
  match a, b with
  | .number x, .text s => x == textNumber s
  | .text s, .number x => textNumber s == x
  | .number x, b => if b.isCompound then x == toNumber b.toPrimitive else strictEq (.number x) b
  | .text s, b => if b.isCompound then strictEq (.text s) b.toPrimitive else strictEq (.text s) b
  | a, .number y => if a.isCompound then toNumber a.toPrimitive == y else strictEq a (.number y)
  | a, .text t => if a.isCompound then strictEq a.toPrimitive (.text t) else strictEq a (.text t)
  | a, b => strictEq a b

/-- Equality with coercion. Null and undefined equal each other and nothing else, truth values
count as numbers, a number is compared with the number of a text, and a compound value takes part
as its text. -/
def looseEq (a b : Value) : Bool :=
  if a.isNullish || b.isNullish then a.isNullish && b.isNullish
  else looseEqPlain a.boolToNumber b.boolToNumber

/-- The order of two values: of their texts when both are texts, else of their numbers; none when
a number is missing. -/
def compare? (a b : Value) : Option Ordering :=
  match a.toPrimitive, b.toPrimitive with
  | .text s, .text t => some (Ord.compare s t)
  | p, q =>
    let x := p.toNumber
    let y := q.toNumber
    -- neither less, equal nor greater when one of them is no number
    if x < y then some .lt
    else if x == y then some .eq
    else if x > y then some .gt
    else none

/-! ## Operators -/

/-- Whether adding a value joins texts. -/
def isTextual : Value → Bool
  | .text _ | .array _ _ | .object _ _ | .pattern _ _ => true
  | _ => false

def applyBinary (op : BinaryOp) (a b : Value) : Value :=
  let onNumbers (f : Float → Float → Float) : Value := .number (f a.toNumber b.toNumber)
  match op with
  | .add =>
    if a.isTextual || b.isTextual then .text (a.display ++ b.display) else onNumbers (· + ·)
  | .sub => onNumbers (· - ·)
  | .mul => onNumbers (· * ·)
  | .div => onNumbers (· / ·)
  | .rem => onNumbers Number.remainder
  | .less => .bool (a.compare? b == some .lt)
  | .lessEq => .bool (a.compare? b == some .lt || a.compare? b == some .eq)
  | .greater => .bool (a.compare? b == some .gt)
  | .greaterEq => .bool (a.compare? b == some .gt || a.compare? b == some .eq)
  | .looseEq => .bool (a.looseEq b)
  | .looseNe => .bool (!a.looseEq b)
  | .strictEq => .bool (a.strictEq b)
  | .strictNe => .bool (!a.strictEq b)

def applyUnary (op : UnaryOp) (v : Value) : Value :=
  match op with
  | .not => .bool (!v.truthy)
  | .negate => .number (-v.toNumber)
  | .plus => .number v.toNumber
  | .kindOf => .text v.kindOf

end Value

end TraceViewer.Snippet
