/-
Base/Dumps.lean

`json.dumps` with `ensure_ascii=False`, in the three layouts the runtime uses,
and the record of the standard-library functions the model takes as given: every
result of the development holds for all of them.
-/
import Mathlib.Data.List.Sort
import Mathlib.Data.String.Basic
import KonohaRuntime.Base.Loads

namespace Konoha

/-- Standard-library functions of which nothing but the type is used. -/
structure Stdlib where
  /-- `hashlib.sha256(s.encode("utf-8")).hexdigest()` -/
  sha256 : String → Digest
  /-- the JSON text of a float -/
  floatRepr : PyFloat → String
  /-- `str.lower()` -/
  lower : String → String
  /-- `str(v)`, for a value that is not a string -/
  format : Json → String
  /-- `repr(v)` -/
  repr : Json → String
  /-- what `json.loads` depends on -/
  interpreter : Interpreter

/-- An f-string field. -/
def Stdlib.str (py : Stdlib) : Json → String
  | .str s => s
  | v => py.format v

/-- `json.loads` of what a process prints; a surrogate that is escaped there is replaced. -/
def Stdlib.jsonLoads (py : Stdlib) (s : String) : Except LoadError Json :=
  (loads py.interpreter (.ofString s)).map PyJson.toJson

namespace Json

/-! ### Sorted keys -/

mutual

/-- `sort_keys=True`, at every level. -/
def sortKeys : Json → Json
  | arr xs => arr (sortKeysList xs)
  | obj kvs => obj ((sortKeysFields kvs).insertionSort fun a b => a.1 ≤ b.1)
  | v => v

def sortKeysList : List Json → List Json
  | [] => []
  | x :: xs => sortKeys x :: sortKeysList xs

def sortKeysFields : List (String × Json) → List (String × Json)
  | [] => []
  | (k, v) :: kvs => (k, sortKeys v) :: sortKeysFields kvs

end

/-! ### Text -/

/-- A layout: the separators, and the indentation of one level. -/
structure Layout where
  itemSep : String
  keySep : String
  indent : Option Nat

namespace Layout

/-- `separators=(",", ":")` -/
def compact : Layout := ⟨",", ":", none⟩

/-- the default -/
def plain : Layout := ⟨", ", ": ", none⟩

/-- `indent=2` -/
def indented : Layout := ⟨",", ": ", some 2⟩

/-- Line break and indentation before an item at `level`. -/
def newline (l : Layout) (level : Nat) : String :=
  match l.indent with
  | none => ""
  | some n => "\n" ++ String.ofList (List.replicate (n * level) ' ')

/-- The items of an array or object between its brackets. -/
def wrap (l : Layout) (level : Nat) (left right : String) (items : List String) : String :=
  if items.isEmpty then left ++ right
  else left ++ l.newline (level + 1) ++ (l.itemSep ++ l.newline (level + 1)).intercalate items
    ++ l.newline level ++ right

end Layout

def hexDigit (n : Nat) : Char := "0123456789abcdef".toList.getD n '0'

/-- One character inside a JSON string. -/
def escapeChar (c : Char) : List Char :=
  if c = '"' then ['\\', '"']
  else if c = '\\' then ['\\', '\\']
  else if c = '\n' then ['\\', 'n']
  else if c = '\r' then ['\\', 'r']
  else if c = '\t' then ['\\', 't']
  else if c.toNat = 8 then ['\\', 'b']
  else if c.toNat = 12 then ['\\', 'f']
  else if c.toNat < 32 then ['\\', 'u', '0', '0', hexDigit (c.toNat / 16), hexDigit (c.toNat % 16)]
  else [c]

def quote (s : String) : String := String.ofList ('"' :: s.toList.flatMap escapeChar ++ ['"'])

mutual

/-- `json.dumps(v, ensure_ascii=False, …)` -/
def dumps (py : Stdlib) (l : Layout) (level : Nat) : Json → String
  | null => "null"
  | bool b => if b then "true" else "false"
  | int i => toString i
  | float f => py.floatRepr f
  | str s => quote s
  | arr xs => l.wrap level "[" "]" (dumpsList py l (level + 1) xs)
  | obj kvs => l.wrap level "\x7b" "\x7d" (dumpsFields py l (level + 1) kvs)

def dumpsList (py : Stdlib) (l : Layout) (level : Nat) : List Json → List String
  | [] => []
  | x :: xs => dumps py l level x :: dumpsList py l level xs

def dumpsFields (py : Stdlib) (l : Layout) (level : Nat) : List (String × Json) → List String
  | [] => []
  | (k, v) :: kvs => (quote k ++ l.keySep ++ dumps py l level v) :: dumpsFields py l level kvs

end

/-- `json.dumps(v, sort_keys=True, ensure_ascii=False, separators=(",", ":"))` -/
def canonical (py : Stdlib) (v : Json) : String := dumps py .compact 0 (sortKeys v)

/-- The text `json.dumps` writes for a dict key that is not a string. -/
def keyText (py : Stdlib) : Json → String
  | str s => s
  | v => dumps py .plain 0 v

end Json

end Konoha
