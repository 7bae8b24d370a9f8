import TraceViewer.Snippet.Builtin
import TraceViewer.Text.LetterCase

/-!
Properties and methods of values. Those that take a function call it through the parameter `call`,
and those that search a text for a text compile it with the parameter `library`.
-/

namespace TraceViewer.Snippet

open TraceViewer.Text

/-- How a function value is called. -/
abbrev Call := Value → List Value → Run Value

/-! ## Properties -/

def noProperties (target : Value) (name : String) : TypeFault := .noProperties target.kind name

/-- A property of a value by its name. -/
def property (target : Value) (name : String) : Run Value :=
  match target with
  | .undefined | .null => Run.mistyped (noProperties target name)
  | .text s => pure (if name == "length" then .number (Number.ofNat (units16 s)) else .undefined)
  | .array _ items =>
    if name == "length" then pure (.number (Number.ofNat items.length))
    else
      match Number.size? name.toList with
      | some n => pure (items[n]?.getD .undefined)
      | none => pure .undefined
  | .object _ fields => pure ((fields.lookup name).getD .undefined)
  | .pattern _ p =>
    if name == "source" then pure (.text p.body)
    else if name == "flags" then pure (.text p.flags)
    else if name == "global" then pure (.bool p.isGlobal)
    else pure .undefined
  | _ => pure .undefined

/-- The position that a number names: itself, when it is whole and not below zero. -/
def position? (x : Float) : Option Nat :=
  if Number.isWhole x && x >= 0 then some (Number.toSize x) else none

/-- A property of a value by a key of any kind. A number picks an item of an array or a character of
a text; any other key counts as its text. -/
def keyed (target key : Value) : Run Value :=
  match target, key with
  | .array _ items, .number x =>
    match position? x with
    | some n => pure (items[n]?.getD .undefined)
    | none => pure .undefined
  | .text s, .number x =>
    match (position? x).bind fun n => s.toList[n]? with
    | some c => pure (.text (ofChar c))
    | none => pure .undefined
  | target, key => property target key.display

/-! ## Positions in sequences -/

/-- A position given by a value: below zero it counts from the end, and it stays between zero and
the length. -/
def relativePosition (v : Value) (length default : Nat) : Nat :=
  match v with
  | .undefined => default
  | v =>
    let x := v.toNumber
    if Number.isNaN x then 0
    else if Number.isFinite x then
      -- minus a fraction has whole part zero and counts from the start
      if Number.isNegative x && Number.wholePart x != 0 then length - Number.wholePart x
      else min (Number.wholePart x) length
    else if Number.isNegative x then 0 else length

/-- A position given by a value, kept between zero and the length. -/
def clampedPosition (v : Value) (length default : Nat) : Nat :=
  match v with
  | .undefined => default
  | v => Number.toNatWithin length v.toNumber

/-- The part of a list between two positions, empty when they are out of order. -/
def between (items : List α) (start stop : Nat) : List α := (items.drop start).take (stop - start)

/-! ## Texts -/

/-- What a value searches for: a pattern for itself, and any other value for its own text. -/
def searcherFor (library : Regex.Library) (pattern : Value) : Except TypeFault Regex.Searcher :=
  match pattern with
  | .pattern _ p => .ok p.searcher
  | v =>
    let body := library.escape v.display
    match searcherOf library body "" with
    | .ok searcher => .ok searcher
    | .error _ => .error (.badPattern body)

def isGlobalPattern : Value → Bool
  | .pattern _ p => p.isGlobal
  | _ => false

def textOf (cs : List Char) : Value := .text (.ofList cs)

/-- The part of a text that a match or a group takes, undefined where the group took no part. -/
def groupValue (text : List Char) : Option (Nat × Nat) → Value
  | some (start, stop) => textOf (sliceBytes text start stop)
  | none => .undefined

/-- The groups of the first match, or null. -/
def firstMatch (searcher : Regex.Searcher) (text : List Char) : Run Value :=
  match searcher.search text with
  | none => pure .null
  | some m => Run.newArray (m.all.map (groupValue text))

def allMatches (searcher : Regex.Searcher) (text : List Char) : Run Value :=
  match searcher.searchAll text with
  | [] => pure .null
  | ms => Run.newArray (ms.map fun m => groupValue text (some m.whole))

/-- The parts of a text between matches. -/
def partsBetween (text : List Char) (last : Nat) : List Regex.Match → List (List Char)
  | [] => [dropBytes text last]
  | m :: rest => sliceBytes text last m.whole.1 :: partsBetween text m.whole.2 rest

def splitParts (text : List Char) (separator : Value) : List Value :=
  match separator with
  | .undefined => [textOf text]
  | .pattern _ p => (partsBetween text 0 (p.searcher.searchAll text)).map textOf
  | v =>
    -- an empty separator gives the characters, without empty ends
    match v.display.toList with
    | [] => text.map fun c => .text (ofChar c)
    | needle => (splitAt needle text).map textOf

/-- How many parts a split may give. -/
def splitLimit (v : Value) : Nat :=
  match v with
  | .undefined => Number.maxSize
  | v => Number.toSize v.toNumber

/-- What stands for a match: the result of a function of its groups, or a text with references. -/
def replacementFor (call : Call) (searcher : Regex.Searcher) (text : List Char) (m : Regex.Match)
    (replacement : Value) : Run (List Char) := do
  if replacement.isCallable then
    let v ← call replacement (m.all.map (groupValue text))
    return v.display.toList
  else return searcher.expand text m replacement.display.toList

/-- The pieces of a text with the given matches replaced; `last` is where the match before them
ended, and the pieces before it stand in reverse. -/
def replaceFrom (call : Call) (searcher : Regex.Searcher) (text : List Char) (replacement : Value)
    (last : Nat) (pieces : List (List Char)) : List Regex.Match → Run (List Char)
  | [] => return (dropBytes text last :: pieces).reverse.flatten
  | m :: rest => do
    let replaced ← replacementFor call searcher text m replacement
    replaceFrom call searcher text replacement m.whole.2
      (replaced :: sliceBytes text last m.whole.1 :: pieces) rest

/-- A text with its first match replaced, or all of them. -/
def replaceMatches (library : Regex.Library) (call : Call) (text : List Char)
    (pattern replacement : Value) (all : Bool) : Run Value := do
  let searcher ← Run.typed (searcherFor library pattern)
  let ms := searcher.searchAll text
  textOf <$> replaceFrom call searcher text replacement 0 [] (if all then ms else ms.take 1)

def noMethod (target : Value) (name : String) : Run α :=
  Run.mistyped (.notFunction (target.kind ++ "." ++ name))

def textMethod (library : Regex.Library) (call : Call) (s name : String) (args : List Value) :
    Run Value :=
  let first := argument args 0
  let text := s.toList
  match name with
  | "match" => do
    let searcher ← Run.typed (searcherFor library first)
    if isGlobalPattern first then allMatches searcher text else firstMatch searcher text
  | "split" => Run.newArray ((splitParts text first).take (splitLimit (argument args 1)))
  | "trim" => pure (.text (trim s))
  | "trimStart" => pure (.text (trimStart s))
  | "trimEnd" => pure (.text (trimEnd s))
  | "toLowerCase" => pure (.text (toLower s))
  | "toUpperCase" => pure (.text (toUpper s))
  | "toString" => pure (.text s)
  | "includes" => pure (.bool (contains s first.display))
  | "startsWith" => pure (.bool (hasStart s first.display))
  | "endsWith" => pure (.bool (hasEnd s first.display))
  | "indexOf" =>
    match indexOf? first.display.toList text with
    | some n => pure (.number (Number.ofNat n))
    | none => pure (.number (-1))
  | "charAt" =>
    match text[Number.toSize first.toNumber]? with
    | some c => pure (.text (ofChar c))
    | none => pure (.text "")
  | "slice" =>
    pure (textOf (between text (relativePosition first text.length 0)
      (relativePosition (argument args 1) text.length text.length)))
  | "substring" =>
    let a := clampedPosition first text.length 0
    let b := clampedPosition (argument args 1) text.length text.length
    pure (textOf (between text (min a b) (max a b)))
  | "replace" => replaceMatches library call text first (argument args 1) (isGlobalPattern first)
  | "replaceAll" => replaceMatches library call text first (argument args 1) true
  | _ => noMethod (.text s) name

/-! ## Arrays -/

/-- Calls a function on an item and its position. Each call takes a step of its own. -/
def onItem (limits : Limits) (call : Call) (f item : Value) (n : Nat) : Run Value := do
  Run.tick limits
  call f [item, .number (Number.ofNat n)]

/-- The results of a function on all items, the first of which stands at position `n`. -/
def mapItems (limits : Limits) (call : Call) (f : Value) (acc : List Value) (n : Nat) :
    List Value → Run (List Value)
  | [] => return acc.reverse
  | item :: rest => do
    let v ← onItem limits call f item n
    mapItems limits call f (v :: acc) (n + 1) rest

def filterItems (limits : Limits) (call : Call) (f : Value) (acc : List Value) (n : Nat) :
    List Value → Run (List Value)
  | [] => return acc.reverse
  | item :: rest => do
    let v ← onItem limits call f item n
    filterItems limits call f (if v.truthy then item :: acc else acc) (n + 1) rest

/-- The first item on which a function gives a value that counts as `wanted`, with its position. -/
def findItem (limits : Limits) (call : Call) (f : Value) (wanted : Bool) (n : Nat) :
    List Value → Run (Option (Value × Nat))
  | [] => return none
  | item :: rest => do
    let v ← onItem limits call f item n
    if v.truthy == wanted then return some (item, n)
    else findItem limits call f wanted (n + 1) rest

def foldItems (limits : Limits) (call : Call) (f acc : Value) (n : Nat) : List Value → Run Value
  | [] => return acc
  | item :: rest => do
    Run.tick limits
    let acc ← call f [acc, item, .number (Number.ofNat n)]
    foldItems limits call f acc (n + 1) rest

/-- Whether two values are the same item; no number is the same item as no number. -/
def sameItem (a b : Value) : Bool :=
  a.strictEq b ||
    match a, b with
    | .number x, .number y => Number.isNaN x && Number.isNaN y
    | _, _ => false

/-- The texts of items with a separator between them. -/
def joinItems (items : List Value) (separator : Value) : String :=
  let separator :=
    match separator with
    | .undefined => ","
    | v => v.display
  join separator (Value.displayItems items)

/-- The items that an argument adds to an array: those of an array, or the value itself. -/
def spread : Value → List Value
  | .array _ items => items
  | v => [v]

/-- The item at a position that counts from the end when it is below zero. -/
def itemAt (items : List Value) (v : Value) : Value :=
  let x := v.toNumber
  if Number.isNaN x then items[0]?.getD .undefined
  else if !Number.isFinite x then .undefined
  else
    let n := Number.toInt x
    let n := if n < 0 then n + items.length else n
    if n < 0 then .undefined else items[n.toNat]?.getD .undefined

/-- The methods of arrays that take a function. -/
def callbackMethods : List String :=
  ["map", "filter", "some", "every", "find", "findIndex", "reduce"]

def arrayMethod (limits : Limits) (call : Call) (target : Value) (items : List Value)
    (name : String) (args : List Value) : Run Value := do
  let first := argument args 0
  if callbackMethods.contains name && !first.isCallable then
    Run.mistyped (.notFunction first.kind)
  else
    match name with
    | "map" => Run.newArray (← mapItems limits call first [] 0 items)
    | "filter" => Run.newArray (← filterItems limits call first [] 0 items)
    | "some" => return .bool (← findItem limits call first true 0 items).isSome
    | "every" => return .bool (← findItem limits call first false 0 items).isNone
    | "find" =>
      match ← findItem limits call first true 0 items with
      | some (item, _) => return item
      | none => return .undefined
    | "findIndex" =>
      match ← findItem limits call first true 0 items with
      | some (_, n) => return .number (Number.ofNat n)
      | none => return .number (-1)
    | "reduce" =>
      -- undefined as an explicit start counts as a start
      match args[1]?, items with
      | some start, items => foldItems limits call first start 0 items
      | none, item :: rest => foldItems limits call first item 1 rest
      | none, [] => Run.mistyped .emptyReduce
    | "includes" => return .bool (items.any (sameItem · first))
    | "indexOf" =>
      match items.findIdx? (·.strictEq first) with
      | some n => return .number (Number.ofNat n)
      | none => return .number (-1)
    | "join" => return .text (joinItems items first)
    | "slice" =>
      Run.newArray (between items (relativePosition first items.length 0)
        (relativePosition (argument args 1) items.length items.length))
    | "concat" => Run.newArray (items ++ args.flatMap spread)
    | "at" => return itemAt items first
    | "toString" => return .text target.display
    | _ => noMethod target name

/-! ## All values -/

/-- The number of places that an argument asks for: none unless it is a number, and at most a
hundred. -/
def placesArgument (v : Value) : Nat :=
  let x := v.toNumber
  if Number.isFinite x then Number.toNatWithin 100 x else 0

/-- Calls a method of a value that is neither an object nor null nor undefined. -/
def builtinMethod (library : Regex.Library) (limits : Limits) (call : Call) (target : Value)
    (name : String) (args : List Value) : Run Value :=
  match target with
  | .text s => textMethod library call s name args
  | .array _ items => arrayMethod limits call target items name args
  | .number x =>
    if name == "toFixed" then
      pure (.text (Number.fixedText (placesArgument (argument args 0)) x))
    else if name == "toString" then pure (.text (numberText x))
    else noMethod target name
  | .bool _ => if name == "toString" then pure (.text target.display) else noMethod target name
  | .pattern _ p =>
    let text := (argument args 0).display.toList
    if name == "test" then pure (.bool (p.searcher.search text).isSome)
    else if name == "exec" then firstMatch p.searcher text
    else noMethod target name
  | _ => noMethod target name

/-- Calls a method of any value: what an object holds under the name, else a method of its kind. -/
def method (library : Regex.Library) (limits : Limits) (call : Call) (target : Value)
    (name : String) (args : List Value) : Run Value :=
  match target with
  -- an object has no methods but what it holds itself
  | .object _ fields =>
    match fields.lookup name with
    | some f => if f.isCallable then call f args else Run.mistyped (.notFunction name)
    | none => Run.mistyped (.notFunction name)
  | .undefined | .null => Run.mistyped (noProperties target name)
  | target => builtinMethod library limits call target name args

end TraceViewer.Snippet
