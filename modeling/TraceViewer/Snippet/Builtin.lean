import TraceViewer.Snippet.Machine

/-!
The functions that the language provides under global names. None of them calls back.
-/

namespace TraceViewer.Snippet

/-- The argument at a position, undefined where there is none. -/
def argument (args : List Value) (n : Nat) : Value := args[n]?.getD .undefined

/-- An object that holds builtin functions under their names. -/
def builtinObject (members : List Builtin) : Run Value :=
  Run.newObject (Fields.ofList (members.map fun b => (b.name, .builtin b)))

/-- The value of a global name. Each use of an object makes it anew. -/
def globalValue? (name : String) : Option (Run Value) :=
  match name with
  | "parseInt" => some (pure (.builtin .parseInt))
  | "parseFloat" => some (pure (.builtin .parseFloat))
  | "Number" => some (pure (.builtin .number))
  | "String" => some (pure (.builtin .string))
  | "Boolean" => some (pure (.builtin .boolean))
  | "isNaN" => some (pure (.builtin .isNaN))
  | "NaN" => some (pure (.number Number.nan))
  | "Infinity" => some (pure (.number Number.infinity))
  | "Math" => some (builtinObject [.min, .max, .abs, .floor, .ceil, .round])
  | "JSON" => some (builtinObject [.stringify])
  | "Array" => some (builtinObject [.isArray])
  | _ => none

/-- The smaller of two numbers, the first of two equal ones, and no number when one is missing. -/
def minimum (x y : Float) : Float :=
  if Number.isNaN x || Number.isNaN y then Number.nan else if y < x then y else x

/-- The larger of two numbers, the first of two equal ones, and no number when one is missing. -/
def maximum (x y : Float) : Float :=
  if Number.isNaN x || Number.isNaN y then Number.nan else if x < y then y else x

/-- A number without its sign. -/
def magnitude (x : Float) : Float := if Number.isNegative x then -x else x

/-- The base that an argument asks for; zero leaves it open. -/
def baseArgument (v : Value) : Nat :=
  match v with
  | .undefined => 0
  | v =>
    let x := v.toNumber
    if Number.isFinite x then Number.toNatWithin 0xffffffff x else 0

def applyBuiltin (b : Builtin) (args : List Value) : Value :=
  let first := argument args 0
  let number := first.toNumber
  match b with
  | .parseInt => .number (leadingInteger first.display (baseArgument (argument args 1)))
  | .parseFloat => .number (leadingNumber first.display)
  | .number => .number (if args.isEmpty then 0 else number)
  | .string => .text (if args.isEmpty then "" else first.display)
  | .boolean => .bool first.truthy
  | .isNaN => .bool (Number.isNaN number)
  | .min => .number ((args.map Value.toNumber).foldl minimum Number.infinity)
  | .max => .number ((args.map Value.toNumber).foldl maximum (-Number.infinity))
  | .abs => .number (magnitude number)
  | .floor => .number (Number.floor number)
  | .ceil => .number (Number.ceil number)
  | .round => .number (Number.floor (number + 0.5))
  | .stringify =>
    match first with
    | .undefined | .closure _ _ | .builtin _ => .undefined
    | v => .text v.toJson.compact
  | .isArray =>
    match first with
    | .array _ _ => .bool true
    | _ => .bool false

end TraceViewer.Snippet
