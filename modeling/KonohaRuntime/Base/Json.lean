/-
Base/Json.lean

The values `json.loads` builds, with the operations of Python the runtime
applies to them.  `plan.json` is read without a check of the types of most of
its fields, so the model keeps those fields as `Json` and every operation says
what Python does with a value of another type (`PyExc.typeError` and the like).

A JSON object is a list of pairs.  The parser never yields one key twice, and
`get?` takes the first pair; nothing below depends on which.
-/
import KonohaRuntime.Base.Text

namespace Konoha

/-! ### Numbers -/

/-- A Python `float`, as its 64 bits. -/
structure PyFloat where
  bits : BitVec 64
  deriving DecidableEq

namespace PyFloat

def exponent (f : PyFloat) : Nat := (f.bits.toNat / 2 ^ 52) % 2 ^ 11

def mantissa (f : PyFloat) : Nat := f.bits.toNat % 2 ^ 52

def negative (f : PyFloat) : Bool := f.bits.toNat / 2 ^ 63 == 1

/-- `math.isfinite`. -/
def isFinite (f : PyFloat) : Bool := f.exponent != 2047

/-- The value of a finite float. -/
def toRat (f : PyFloat) : Rat :=
  let m : Rat :=
    if f.exponent = 0 then f.mantissa / 2 ^ 1074
    else (2 ^ 52 + f.mantissa) * 2 ^ f.exponent / 2 ^ 1075
  if f.negative then -m else m

end PyFloat

/-! ### Exceptions -/

/-- `GitStatusError.diagnostic` -/
inductive GitDiagnostic
  | timeout
  | failed
  deriving DecidableEq

def GitDiagnostic.text : GitDiagnostic → String
  | timeout => "git_status_timeout"
  | failed => "git_status_failed"

/-- The exceptions that the runtime tells apart, with the text `str(exc)` where
it is used.  `osError` is any `OSError` but the two below it; `valueError`
covers its subclasses `UnicodeError` and `JSONDecodeError`; the text of a
`providerError` comes from what the provider has printed; `exception` is any
other `Exception`, `interrupt` any other `BaseException`. -/
inductive PyExc
  | osError (text : String)
  | fileExistsError (text : String)
  | fileNotFoundError (text : String)
  | valueError (text : String)
  | typeError (text : String)
  | attributeError (text : String)
  | recursionError (text : String)
  | missionLookupError (text : String)
  | executionStateError (text : String)
  | registryError (text : String)
  | repositoryEvidenceError (text : String)
  | unknownSourceError (text : String)
  | gitStatusError (diagnostic : GitDiagnostic) (detail : String)
  | providerError (text : PyStr)
  | exception (text : String)
  | interrupt
  deriving DecidableEq

namespace PyExc

/-- `except OSError`. -/
def isOSError : PyExc → Bool
  | osError _ | fileExistsError _ | fileNotFoundError _ => true
  | _ => false

/-- `except (OSError, UnicodeError, json.JSONDecodeError)`. -/
def isReadError : PyExc → Bool
  | osError _ | fileExistsError _ | fileNotFoundError _ | valueError _ => true
  | _ => false

/-- `except Exception`. -/
def isException : PyExc → Bool
  | interrupt => false
  | _ => true

/-- `str(exc)`. -/
def text : PyExc → PyStr
  | osError t | fileExistsError t | fileNotFoundError t | valueError t | typeError t
  | attributeError t | recursionError t | missionLookupError t | executionStateError t
  | registryError t | repositoryEvidenceError t | unknownSourceError t | exception t =>
      PyStr.ofString t
  | gitStatusError diagnostic detail =>
      PyStr.ofString (if detail == "" then diagnostic.text else diagnostic.text ++ ": " ++ detail)
  | providerError t => t
  | interrupt => []

/-- `str(exc)`, of an `OSError`. -/
def osText : PyExc → String
  | osError t | fileExistsError t | fileNotFoundError t => t
  | _ => ""

end PyExc

/-- A computation that goes through, part by part. -/
theorem bind_eq_ok {ε α β : Type} {x : Except ε β} {k : β → Except ε α} {a : α} :
    (x >>= k) = .ok a ↔ ∃ b, x = .ok b ∧ k b = .ok a := by
  cases x <;> simp [bind, Except.bind]

/-! ### Values -/

inductive Json
  | null
  | bool (b : Bool)
  | int (i : Int)
  | float (f : PyFloat)
  | str (s : String)
  | arr (xs : List Json)
  | obj (fields : List (String × Json))

namespace Json

mutual

/-- Structural equality.  Python's `==` agrees with it as soon as one side is
a string or `None`, which is how the runtime compares ids and gates. -/
def beq : Json → Json → Bool
  | null, null => true
  | bool a, bool b => a == b
  | int a, int b => a == b
  | float a, float b => a == b
  | str a, str b => a == b
  | arr a, arr b => beqList a b
  | obj a, obj b => beqFields a b
  | _, _ => false

def beqList : List Json → List Json → Bool
  | [], [] => true
  | a :: as, b :: bs => beq a b && beqList as bs
  | _, _ => false

def beqFields : List (String × Json) → List (String × Json) → Bool
  | [], [] => true
  | (k, a) :: as, (l, b) :: bs => k == l && (beq a b && beqFields as bs)
  | _, _ => false

end

mutual

theorem beq_iff : ∀ a b : Json, beq a b = true ↔ a = b
  | null, b => by cases b <;> simp [beq]
  | bool _, b => by cases b <;> simp [beq]
  | int _, b => by cases b <;> simp [beq]
  | float _, b => by cases b <;> simp [beq]
  | str _, b => by cases b <;> simp [beq]
  | arr as, b => by
      cases b with
      | arr bs => simpa [beq] using beqList_iff as bs
      | _ => simp [beq]
  | obj as, b => by
      cases b with
      | obj bs => simpa [beq] using beqFields_iff as bs
      | _ => simp [beq]

theorem beqList_iff : ∀ as bs : List Json, beqList as bs = true ↔ as = bs
  | [], bs => by cases bs <;> simp [beqList]
  | a :: as, bs => by
      cases bs with
      | nil => simp [beqList]
      | cons b bs => simp [beqList, beq_iff a b, beqList_iff as bs]

theorem beqFields_iff : ∀ as bs : List (String × Json), beqFields as bs = true ↔ as = bs
  | [], bs => by cases bs <;> simp [beqFields]
  | (k, a) :: as, bs => by
      cases bs with
      | nil => simp [beqFields]
      | cons b bs =>
          obtain ⟨l, b⟩ := b
          simp [beqFields, beq_iff a b, beqFields_iff as bs, and_assoc]

end

instance : DecidableEq Json := fun a b => decidable_of_iff _ (beq_iff a b)

instance : Inhabited Json := ⟨null⟩

/-! ### Python on values -/

/-- `bool(v)`. -/
def truthy : Json → Bool
  | null => false
  | bool b => b
  | int i => i != 0
  | float f => f.bits.toNat % 2 ^ 63 != 0
  | str s => s != ""
  | arr xs => !xs.isEmpty
  | obj kvs => !kvs.isEmpty

/-- `hash(v)` is defined. -/
def hashable : Json → Bool
  | arr _ | obj _ => false
  | _ => true

def isStr : Json → Bool
  | str _ => true
  | _ => false

def isBool : Json → Bool
  | bool _ => true
  | _ => false

/-- `_non_empty_str`. -/
def nonEmptyStr : Json → Bool
  | str s => nonBlank s
  | _ => false

@[simp] theorem nonEmptyStr_str (s : String) : nonEmptyStr (str s) = nonBlank s := rfl

@[simp] theorem isStr_str (s : String) : isStr (str s) = true := rfl

theorem isStr_of_nonEmptyStr {v : Json} (h : nonEmptyStr v = true) : v.isStr = true := by
  cases v with
  | str s => rfl
  | _ => cases h

/-- The value of a key of an object. -/
def lookup (key : String) : List (String × Json) → Option Json
  | [] => none
  | (k, v) :: rest => if k = key then some v else lookup key rest

/-- `v.get(key)` on a dict; `None` for an absent key. -/
def get (key : String) : Json → Except PyExc Json
  | obj kvs => .ok ((lookup key kvs).getD null)
  | _ => .error (.attributeError "get")

/-- `set(v)` of a dict, as a test against an exact set of keys. -/
def hasKeys (keys : List String) (kvs : List (String × Json)) : Bool :=
  kvs.all (fun kv => keys.contains kv.1) && keys.all (fun k => kvs.any fun kv => kv.1 == k)

/-- The elements that `for x in v` runs through. -/
def iter : Json → Except PyExc (List Json)
  | arr xs => .ok xs
  | str s => .ok (s.toList.map fun c => str (String.singleton c))
  | obj kvs => .ok (kvs.map fun kv => str kv.1)
  | _ => .error (.typeError "object is not iterable")

/-- `None` or a string. -/
def ofOption : Option String → Json
  | none => null
  | some s => str s

@[simp] theorem lookup_cons_self (k : String) (v : Json) (rest : List (String × Json)) :
    lookup k ((k, v) :: rest) = some v := by simp [lookup]

theorem lookup_cons_ne {k l : String} (h : k ≠ l) (v : Json) (rest : List (String × Json)) :
    lookup l ((k, v) :: rest) = lookup l rest := by simp [lookup, h]

end Json

end Konoha
