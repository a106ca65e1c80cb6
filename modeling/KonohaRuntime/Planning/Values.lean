/-
Planning/Values.lean

The operators of Python that the validation of a plan applies to JSON values: `==`, which
compares numbers of all types by their values, `<=` and `in`, which raise for some types,
`repr()`, which like `==` raises for values that are nested too deep, and the attributes of an
assignment by their names.
-/
import KonohaRuntime.Base.PyDumps
import KonohaRuntime.Runtime.StateFile
import KonohaRuntime.Runtime.PlanFile

namespace Konoha

namespace Planning

open Json

/-! ### Numbers -/

/-- The value of a number of Python. -/
inductive Number
  | rat (q : Rat)
  | posInf
  | negInf
  | nan
  deriving DecidableEq

namespace Number

def ofFloat (f : PyFloat) : Number :=
  if f.isFinite then rat f.toRat
  else if f.mantissa ≠ 0 then nan
  else if f.negative then negInf
  else posInf

/-- The value of an int, a bool or a float. -/
def of? : Json → Option Number
  | .int i => some (rat i)
  | .bool b => some (rat (if b then 1 else 0))
  | .float f => some (ofFloat f)
  | _ => none

/-- `x == y` -/
def eq : Number → Number → Bool
  | rat p, rat q => p = q
  | posInf, posInf => true
  | negInf, negInf => true
  | _, _ => false

/-- `x <= y` -/
def le : Number → Number → Bool
  | nan, _ => false
  | _, nan => false
  | negInf, _ => true
  | _, posInf => true
  | rat p, rat q => p ≤ q
  | _, _ => false

end Number

/-! ### Comparisons -/

mutual

/-- `v == w` -/
def pyEq : Json → Json → Bool
  | .null, w => w = .null
  | .str s, w => w = .str s
  | .arr xs, .arr ys => pyEqList xs ys
  | .obj kvs, .obj lvs => decide (kvs.length = lvs.length) && pyEqFields kvs lvs
  | v, w =>
      match Number.of? v, Number.of? w with
      | some x, some y => x.eq y
      | _, _ => false

def pyEqList : List Json → List Json → Bool
  | [], [] => true
  | x :: xs, y :: ys => pyEq x y && pyEqList xs ys
  | _, _ => false

/-- The keys of the first dict are in the second one, with equal values. -/
def pyEqFields : List (String × Json) → List (String × Json) → Bool
  | [], _ => true
  | (k, v) :: kvs, lvs =>
      (match lookup k lvs with
        | some w => pyEq v w
        | none => false) && pyEqFields kvs lvs

end

/-- The exception of a call for which the stack has no room. -/
def tooDeep : PyExc := .recursionError "maximum recursion depth exceeded"

mutual

/-- `v == w`, on a stack that has room for `room` levels of nesting.  Lists and dicts of different
sizes are told apart without going into them. -/
def pyEqWithin : Nat → Json → Json → Except PyExc Bool
  | room, .arr xs, .arr ys =>
      if xs.length ≠ ys.length then .ok false
      else
        match room with
        | 0 => .error tooDeep
        | room + 1 => pyEqListWithin room xs ys
  | room, .obj kvs, .obj lvs =>
      if kvs.length ≠ lvs.length then .ok false
      else
        match room with
        | 0 => .error tooDeep
        | room + 1 => pyEqFieldsWithin room kvs lvs
  | _, v, w => .ok (pyEq v w)

def pyEqListWithin : Nat → List Json → List Json → Except PyExc Bool
  | room, x :: xs, y :: ys => do
      if ← pyEqWithin room x y then pyEqListWithin room xs ys else return false
  | _, xs, ys => .ok (pyEqList xs ys)

def pyEqFieldsWithin : Nat → List (String × Json) → List (String × Json) → Except PyExc Bool
  | _, [], _ => .ok true
  | room, (k, v) :: kvs, lvs =>
      match lookup k lvs with
      | none => .ok false
      | some w => do
          if ← pyEqWithin room v w then pyEqFieldsWithin room kvs lvs else return false

end

/-- `v <= n`, for an int `n` -/
def pyAtMost (v : Json) (n : Int) : Except PyExc Bool :=
  match Number.of? v with
  | some x => .ok (x.le (.rat n))
  | none => .error (.typeError "'<=' not supported between instances")

/-- `v in names`, for a set of strings -/
def memberOf (names : List String) : Json → Except PyExc Bool
  | .arr _ => .error (.typeError "unhashable type: 'list'")
  | .obj _ => .error (.typeError "unhashable type: 'dict'")
  | .str s => .ok (s ∈ names)
  | _ => .ok false

/-- `repr(v)` does not raise, on a stack that has room for `room` levels of nesting. -/
def printable (py : Stdlib) (room : Nat) (v : Json) : Bool :=
  decide ((PyJson.ofJson v).nesting ≤ room) && (PyJson.ofJson v).intsFit py.interpreter

/-- `{v!r}`, on such a stack -/
def reprWithin (py : Stdlib) (room : Nat) (v : Json) : Except PyExc String :=
  if room < (PyJson.ofJson v).nesting then .error tooDeep
  else if (PyJson.ofJson v).intsFit py.interpreter then .ok (py.repr v)
  else .error (.valueError "Exceeds the limit for integer string conversion")

/-- `text in other`, for strings -/
def occursIn (text other : String) : Bool := decide (text.toList <:+: other.toList)

theorem memberOf_eq_ok_iff {names : List String} {v : Json} :
    memberOf names v = .ok true ↔ ∃ s ∈ names, v = .str s := by
  cases v <;> simp [memberOf]

theorem memberOf_error_iff {names : List String} {v : Json} :
    (∃ e, memberOf names v = .error e) ↔ v.hashable = false := by
  cases v <;> simp [memberOf, Json.hashable]

theorem pyAtMost_error_iff {v : Json} {n : Int} :
    (∃ e, pyAtMost v n = .error e) ↔ Number.of? v = none := by
  unfold pyAtMost
  cases Number.of? v <;> simp

theorem reprWithin_error_iff {py : Stdlib} {room : Nat} {v : Json} :
    (∃ e, reprWithin py room v = .error e) ↔ printable py room v = false := by
  unfold reprWithin printable
  split_ifs with hdeep hints
  · simp [not_le.mpr hdeep]
  · simp [not_lt.mp hdeep, hints]
  · simp [hints]

theorem pyEqList_length : ∀ {xs ys : List Json}, pyEqList xs ys = true → xs.length = ys.length
  | [], [], _ => rfl
  | [], _ :: _, h | _ :: _, [], h => by cases h
  | x :: xs, y :: ys, h => by
      rw [pyEqList, Bool.and_eq_true] at h
      exact congrArg (· + 1) (pyEqList_length h.2)

mutual

/-- A comparison that does not raise is the comparison. -/
theorem pyEq_of_within : ∀ {v w : Json} {room : Nat} {b : Bool},
    pyEqWithin room v w = .ok b → pyEq v w = b
  | .arr xs, .arr ys, room, b, h => by
      unfold pyEqWithin at h
      rw [pyEq]
      split_ifs at h with hlength
      · cases h
        exact Bool.eq_false_iff.mpr fun heq => hlength (pyEqList_length heq)
      · cases room with
        | zero => cases h
        | succ room => exact pyEqList_of_within h
  | .obj kvs, .obj lvs, room, b, h => by
      unfold pyEqWithin at h
      rw [pyEq]
      split_ifs at h with hlength
      · cases h
        simp [hlength]
      · cases room with
        | zero => cases h
        | succ room =>
            rw [decide_eq_true (not_not.mp hlength), Bool.true_and]
            exact pyEqFields_of_within h
  | .arr _, .null, _, _, h | .arr _, .bool _, _, _, h | .arr _, .int _, _, _, h
  | .arr _, .float _, _, _, h | .arr _, .str _, _, _, h | .arr _, .obj _, _, _, h
  | .obj _, .null, _, _, h | .obj _, .bool _, _, _, h | .obj _, .int _, _, _, h
  | .obj _, .float _, _, _, h | .obj _, .str _, _, _, h | .obj _, .arr _, _, _, h
  | .null, _, _, _, h | .bool _, _, _, _, h | .int _, _, _, _, h | .float _, _, _, _, h
  | .str _, _, _, _, h => Except.ok.inj h

theorem pyEqList_of_within : ∀ {xs ys : List Json} {room : Nat} {b : Bool},
    pyEqListWithin room xs ys = .ok b → pyEqList xs ys = b
  | [], _, _, _, h => Except.ok.inj h
  | _ :: _, [], _, _, h => Except.ok.inj h
  | x :: xs, y :: ys, room, b, h => by
      rw [pyEqListWithin] at h
      obtain ⟨same, hsame, h⟩ := bind_eq_ok.mp h
      rw [pyEqList, pyEq_of_within hsame]
      cases same with
      | false => exact Except.ok.inj h
      | true => exact pyEqList_of_within h

theorem pyEqFields_of_within : ∀ {kvs lvs : List (String × Json)} {room : Nat} {b : Bool},
    pyEqFieldsWithin room kvs lvs = .ok b → pyEqFields kvs lvs = b
  | [], _, _, _, h => Except.ok.inj h
  | (k, v) :: kvs, lvs, room, b, h => by
      rw [pyEqFieldsWithin] at h
      rw [pyEqFields]
      cases hlookup : lookup k lvs with
      | none =>
          rw [hlookup] at h
          exact Except.ok.inj h
      | some w =>
          rw [hlookup] at h
          obtain ⟨same, hsame, h⟩ := bind_eq_ok.mp h
          dsimp only
          rw [pyEq_of_within hsame]
          cases same with
          | false => exact Except.ok.inj h
          | true => exact pyEqFields_of_within h

end

/-! ### Attributes -/

/-- `getattr(assignment, name)`, for the name of a field -/
def getattr (a : AgentAssignment) (name : String) : Json := (lookup name a.asdict).getD null

end Planning

end Konoha
