/-
Base/Loads.lean

`json.loads`, with the two limits of the interpreter: how deep arrays and objects
may be nested, and how many digits an integer may have.  The first ends in a
`RecursionError`, the second in a `ValueError` that is no `JSONDecodeError`.

Each scanner takes what is left of the text and returns what it has read and what is
left then, as those of the decoder do.  The scanner of a value calls itself with one
level of nesting less; the loops over the items of an array or an object are given the
length of the text, which they cannot use up.
-/
import KonohaRuntime.Base.PyStr

namespace Konoha

open CodePoint

/-- What `json.loads` returns. -/
inductive PyJson
  | null
  | bool (b : Bool)
  | int (i : Int)
  | float (f : PyFloat)
  | str (s : PyStr)
  | arr (xs : List PyJson)
  | obj (fields : List (PyStr × PyJson))

instance : Inhabited PyJson := ⟨.null⟩

/-- How `json.loads` fails. -/
inductive LoadError
  /-- `JSONDecodeError` -/
  | decode
  /-- the `ValueError` of an integer with too many digits -/
  | digits
  /-- `RecursionError` -/
  | recursion
  deriving DecidableEq

/-- The exception that is raised. -/
def LoadError.exc : LoadError → PyExc
  | decode => .valueError "Expecting value"
  | digits => .valueError "Exceeds the limit for integer string conversion"
  | recursion => .recursionError "maximum recursion depth exceeded"

/-- The interpreter, as far as `json.loads` depends on it. -/
structure Interpreter where
  /-- how many more levels of nesting the stack has room for -/
  depth : Nat
  /-- `sys.get_int_max_str_digits()` -/
  maxStrDigits : Nat
  /-- `float(text)`, of a number in a JSON text -/
  parseFloat : List Char → PyFloat

namespace Loads

/-! ### Space and strings -/

/-- `[ \t\n\r]` -/
def isSpace (p : CodePoint) : Bool :=
  p = scalar ' ' ∨ p = scalar '\t' ∨ p = scalar '\n' ∨ p = scalar '\r'

def skipSpace (s : PyStr) : PyStr := s.dropWhile isSpace

/-- A code point below `0x20`, which a string must not have in it as it is. -/
def isControl : CodePoint → Bool
  | scalar c => c.toNat < 0x20
  | surrogate _ => false

def hexValue : CodePoint → Option Nat
  | scalar c =>
      if '0' ≤ c ∧ c ≤ '9' then some (c.toNat - 48)
      else if 'a' ≤ c ∧ c ≤ 'f' then some (c.toNat - 87)
      else if 'A' ≤ c ∧ c ≤ 'F' then some (c.toNat - 55)
      else none
  | surrogate _ => none

def hex4 (a b c d : CodePoint) : Option Nat := do
  let a ← hexValue a
  let b ← hexValue b
  let c ← hexValue c
  let d ← hexValue d
  return a * 4096 + b * 256 + c * 16 + d

/-- What a backslash and a letter stand for. -/
def escaped : CodePoint → Option CodePoint
  | scalar '"' => some (scalar '"')
  | scalar '\\' => some (scalar '\\')
  | scalar '/' => some (scalar '/')
  | scalar 'b' => some (scalar (Char.ofNat 8))
  | scalar 'f' => some (scalar (Char.ofNat 12))
  | scalar 'n' => some (scalar '\n')
  | scalar 'r' => some (scalar '\r')
  | scalar 't' => some (scalar '\t')
  | _ => none

/-- A piece of a string: a code point, or the code unit of a `\uXXXX`. -/
inductive Piece
  | point (p : CodePoint)
  | unit (n : Nat)
  deriving DecidableEq

/-- A code unit of the first half of a pair, and one of the second. -/
def isPair (h l : Nat) : Bool := 0xd800 ≤ h ∧ h < 0xdc00 ∧ 0xdc00 ≤ l ∧ l < 0xe000

/-- The string that the pieces make up, after the code unit `held`; two code units that are
a pair are one code point. -/
def joinAfter : Option Nat → List Piece → PyStr
  | none, [] => []
  | some h, [] => [CodePoint.ofNat h]
  | none, .point p :: rest => p :: joinAfter none rest
  | some h, .point p :: rest => CodePoint.ofNat h :: p :: joinAfter none rest
  | none, .unit n :: rest => joinAfter (some n) rest
  | some h, .unit n :: rest =>
      if isPair h n then
        CodePoint.ofNat (0x10000 + (h - 0xd800) * 0x400 + (n - 0xdc00)) :: joinAfter none rest
      else CodePoint.ofNat h :: joinAfter (some n) rest

def join (ps : List Piece) : PyStr := joinAfter none ps

/-- `scanstring`, after the opening quote. -/
def scanPieces : PyStr → Except LoadError (List Piece × PyStr)
  | [] => .error .decode
  | p :: rest =>
      if p = scalar '"' then .ok ([], rest)
      else if p = scalar '\\' then
        match rest with
        | [] => .error .decode
        | q :: rest =>
            if q = scalar 'u' then
              match rest with
              | a :: b :: c :: d :: rest =>
                  match hex4 a b c d with
                  | none => .error .decode
                  | some n => (scanPieces rest).map fun r => (.unit n :: r.1, r.2)
              | _ => .error .decode
            else
              match escaped q with
              | none => .error .decode
              | some e => (scanPieces rest).map fun r => (.point e :: r.1, r.2)
      else if isControl p then .error .decode
      else (scanPieces rest).map fun r => (.point p :: r.1, r.2)

def scanString (s : PyStr) : Except LoadError (PyStr × PyStr) :=
  (scanPieces s).map fun r => (join r.1, r.2)

/-! ### Numbers and constants -/

def isDigit (c : Char) : Bool := '0' ≤ c ∧ c ≤ '9'

/-- The digits at the front. -/
def spanDigits : PyStr → List Char × PyStr
  | scalar c :: rest =>
      if isDigit c then (c :: (spanDigits rest).1, (spanDigits rest).2) else ([], scalar c :: rest)
  | s => ([], s)

/-- `0`, or digits that do not begin with it. -/
def scanInteger : PyStr → Option (List Char × PyStr)
  | scalar c :: rest =>
      if c = '0' then some (['0'], rest)
      else if isDigit c then some (c :: (spanDigits rest).1, (spanDigits rest).2)
      else none
  | _ => none

/-- A point and digits, if they are there. -/
def scanFraction (s : PyStr) : List Char × PyStr :=
  match s with
  | scalar '.' :: rest =>
      match spanDigits rest with
      | ([], _) => ([], s)
      | (ds, rest) => ('.' :: ds, rest)
  | _ => ([], s)

/-- The sign of an exponent. -/
def scanSign : PyStr → List Char × PyStr
  | scalar '+' :: rest => (['+'], rest)
  | scalar '-' :: rest => (['-'], rest)
  | s => ([], s)

/-- `e`, a sign and digits, if they are there. -/
def scanExponent (s : PyStr) : List Char × PyStr :=
  match s with
  | scalar c :: rest =>
      if c = 'e' ∨ c = 'E' then
        match spanDigits (scanSign rest).2 with
        | ([], _) => ([], s)
        | (ds, rest') => (c :: (scanSign rest).1 ++ ds, rest')
      else ([], s)
  | _ => ([], s)

/-- The value of digits. -/
def natOfDigits (ds : List Char) : Nat := ds.foldl (fun n c => n * 10 + (c.toNat - 48)) 0

variable (py : Interpreter)

/-- `int(text)` -/
def parseInt (negative : Bool) (ds : List Char) : Except LoadError Int :=
  if py.maxStrDigits ≠ 0 ∧ py.maxStrDigits < ds.length then .error .digits
  else .ok (if negative then -(natOfDigits ds : Int) else natOfDigits ds)

/-- `_match_number`, after the sign. -/
def scanNumber (negative : Bool) (s : PyStr) : Except LoadError (PyJson × PyStr) :=
  match scanInteger s with
  | none => .error .decode
  | some (ds, s) =>
      let fraction := scanFraction s
      let exponent := scanExponent fraction.2
      let tail := fraction.1 ++ exponent.1
      if tail = [] then (parseInt py negative ds).map fun i => (.int i, exponent.2)
      else
        .ok (.float (py.parseFloat ((if negative then ['-'] else []) ++ ds ++ tail)), exponent.2)

/-- `float("nan")` -/
def nan : PyFloat := ⟨0x7ff8000000000000⟩

/-- `float("inf")` -/
def infinity : PyFloat := ⟨0x7ff0000000000000⟩

/-- `float("-inf")` -/
def negInfinity : PyFloat := ⟨0xfff0000000000000⟩

/-- The constants, with their texts. -/
def constants : List (String × PyJson) :=
  [("null", .null), ("true", .bool true), ("false", .bool false), ("NaN", .float nan),
    ("Infinity", .float infinity), ("-Infinity", .float negInfinity)]

/-- The constant at the front. -/
def scanConstant (s : PyStr) : Option (PyJson × PyStr) :=
  constants.findSome? fun c =>
    if (PyStr.ofString c.1).isPrefixOf s then some (c.2, s.drop c.1.length) else none

/-- A constant or a number. -/
def scanAtom (s : PyStr) : Except LoadError (PyJson × PyStr) :=
  match scanConstant s with
  | some r => .ok r
  | none =>
      match s with
      | scalar '-' :: rest => scanNumber py true rest
      | _ => scanNumber py false s

/-! ### Values -/

/-- A dict has one value for a key: the last, where the first was. -/
def insertField (fields : List (PyStr × PyJson)) (key : PyStr) (v : PyJson) :
    List (PyStr × PyJson) :=
  match fields with
  | [] => [(key, v)]
  | (k, w) :: rest => if k = key then (k, v) :: rest else (k, w) :: insertField rest key v

def dictOf (pairs : List (PyStr × PyJson)) : List (PyStr × PyJson) :=
  pairs.foldl (fun fields kv => insertField fields kv.1 kv.2) []

section

variable (scan : PyStr → Except LoadError (PyJson × PyStr))

/-- The items of an array, up to its end. -/
def scanItems : Nat → PyStr → Except LoadError (List PyJson × PyStr)
  | 0, _ => .error .decode
  | fuel + 1, s => do
      let (v, rest) ← scan s
      match skipSpace rest with
      | scalar ']' :: rest => return ([v], rest)
      | scalar ',' :: rest =>
          (scanItems fuel (skipSpace rest)).map fun r => (v :: r.1, r.2)
      | _ => .error .decode

/-- The fields of an object, up to its end. -/
def scanFields : Nat → PyStr → Except LoadError (List (PyStr × PyJson) × PyStr)
  | fuel + 1, scalar '"' :: s => do
      let (key, rest) ← scanString s
      match skipSpace rest with
      | scalar ':' :: rest => do
          let (v, rest) ← scan (skipSpace rest)
          match skipSpace rest with
          | scalar '}' :: rest => return ([(key, v)], rest)
          | scalar ',' :: rest =>
              (scanFields fuel (skipSpace rest)).map fun r => ((key, v) :: r.1, r.2)
          | _ => .error .decode
      | _ => .error .decode
  | _, _ => .error .decode

/-- An array, after its bracket. -/
def scanArray (s : PyStr) : Except LoadError (PyJson × PyStr) :=
  match skipSpace s with
  | scalar ']' :: rest => .ok (.arr [], rest)
  | s => (scanItems scan s.length s).map fun r => (.arr r.1, r.2)

/-- An object, after its bracket. -/
def scanObject (s : PyStr) : Except LoadError (PyJson × PyStr) :=
  match skipSpace s with
  | scalar '}' :: rest => .ok (.obj [], rest)
  | s => (scanFields scan s.length s).map fun r => (.obj (dictOf r.1), r.2)

end

/-- `scan_once` -/
def scanValue : Nat → PyStr → Except LoadError (PyJson × PyStr)
  | 0, s =>
      match s with
      | scalar '"' :: rest => (scanString rest).map fun r => (.str r.1, r.2)
      | scalar '[' :: _ => .error .recursion
      | scalar '{' :: _ => .error .recursion
      | s => scanAtom py s
  | depth + 1, s =>
      match s with
      | scalar '"' :: rest => (scanString rest).map fun r => (.str r.1, r.2)
      | scalar '[' :: rest => scanArray (scanValue depth) rest
      | scalar '{' :: rest => scanObject (scanValue depth) rest
      | s => scanAtom py s

end Loads

open Loads in
/-- `json.loads` -/
def loads (py : Interpreter) (s : PyStr) : Except LoadError PyJson :=
  match s with
  | scalar '\ufeff' :: _ => .error .decode
  | s => do
      let (v, rest) ← scanValue py py.depth (skipSpace s)
      if skipSpace rest = [] then return v else .error .decode

namespace PyJson

mutual

/-- A value whose strings have no surrogates. -/
def ofJson : Json → PyJson
  | .null => null
  | .bool b => bool b
  | .int i => int i
  | .float f => float f
  | .str s => str (.ofString s)
  | .arr xs => arr (ofJsonList xs)
  | .obj kvs => obj (ofJsonFields kvs)

def ofJsonList : List Json → List PyJson
  | [] => []
  | x :: xs => ofJson x :: ofJsonList xs

def ofJsonFields : List (String × Json) → List (PyStr × PyJson)
  | [] => []
  | (k, v) :: kvs => (.ofString k, ofJson v) :: ofJsonFields kvs

end

end PyJson

namespace PyStr

/-- The string with U+FFFD in the place of its surrogates. -/
def replaced (s : PyStr) : String :=
  String.ofList (s.map fun
    | .scalar c => c
    | .surrogate _ => '\ufffd')

end PyStr

namespace PyJson

mutual

/-- The value with its surrogates replaced. -/
def toJson : PyJson → Json
  | null => .null
  | bool b => .bool b
  | int i => .int i
  | float f => .float f
  | str s => .str s.replaced
  | arr xs => .arr (toJsonList xs)
  | obj kvs => .obj (toJsonFields kvs)

def toJsonList : List PyJson → List Json
  | [] => []
  | x :: xs => toJson x :: toJsonList xs

def toJsonFields : List (PyStr × PyJson) → List (String × Json)
  | [] => []
  | (k, v) :: kvs => (k.replaced, toJson v) :: toJsonFields kvs

end

end PyJson

/-- The limits that an interpreter has when nothing else is said. -/
def usualInterpreter : Interpreter := ⟨1000, 4300, fun _ => Loads.nan⟩

end Konoha
