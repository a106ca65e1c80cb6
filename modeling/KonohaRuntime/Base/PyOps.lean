/-
Base/PyOps.lean

Operations of Python on values that `json.loads` has built, of whatever type they are: truth,
membership in a set of strings, which is a `TypeError` for a list or a dict, and a sequence of checks that
stops at the first one that fails.
-/
import KonohaRuntime.Base.PyEq

namespace Konoha

open CodePoint

namespace PyJson

/-- `bool(v)` -/
def truthy : PyJson → Bool
  | null => false
  | bool b => b
  | int i => i ≠ 0
  | float f => f.bits.toNat % 2 ^ 63 ≠ 0
  | str s => s ≠ []
  | arr xs => !xs.isEmpty
  | obj kvs => !kvs.isEmpty

/-- `hash(v)` does not raise. -/
def hashable : PyJson → Bool
  | arr _ | obj _ => false
  | _ => true

/-- `v in names`, for a set of strings -/
def memberOf (names : List String) : PyJson → Except PyExc Bool
  | arr _ => .error (.typeError "unhashable type: 'list'")
  | obj _ => .error (.typeError "unhashable type: 'dict'")
  | v => .ok (isOneOf names v)

/-- `v == n` -/
def isInt (n : Int) (v : PyJson) : Bool := pyEq v (int n)

/-- `v == text` -/
def eqStr (text : PyStr) : PyJson → Bool
  | str s => s = text
  | _ => false

/-- The value of an `int`, also of a bool. -/
def integerValue : PyJson → Option Int
  | int i => some i
  | bool b => some (if b then 1 else 0)
  | _ => none

def isObj : PyJson → Bool
  | obj _ => true
  | _ => false

def isArr : PyJson → Bool
  | arr _ => true
  | _ => false

/-- `v.get(key) if isinstance(v, dict) else None` -/
def entry (v : PyJson) (key : String) : PyJson := field v.fields key

theorem memberOf_eq_ok_iff {names : List String} {v : PyJson} {b : Bool} :
    memberOf names v = .ok b ↔ v.hashable = true ∧ isOneOf names v = b := by
  cases v <;> simp [memberOf, hashable]

theorem eqStr_iff {text : PyStr} {v : PyJson} : v.eqStr text = true ↔ v = .str text := by
  cases v <;> simp [eqStr]

end PyJson

/-- `if not holds: raise e` -/
def check {ε : Type} (holds : Bool) (e : ε) : Except ε Unit := if holds then .ok () else .error e

theorem check_eq_ok_iff {ε : Type} {holds : Bool} {e : ε} {u : Unit} :
    check holds e = .ok u ↔ holds = true := by
  unfold check
  split_ifs with h
  · exact iff_of_true rfl h
  · exact iff_of_false (fun h => nomatch h) h

end Konoha
