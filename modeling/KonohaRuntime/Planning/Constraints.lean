/-
Planning/Constraints.lean

`_validate_mission_constraints`: the manifest of structural constraints, checked one entry
after the other against the plan and against the texts of the human.

An entry is identified first, then resolved (`resolveConstraint`), and what comes of that is
compared with the plan.  Tests of membership, readings of the plan, comparisons and the texts of
some complaints raise for values that JSON can hold.
-/
import KonohaRuntime.Effects.Verdict
import KonohaRuntime.Planning.Values

namespace Konoha

namespace Planning

open Effects Json

/-! ### The tables -/

/-- `_CONSTRAINT_PLAN_FIELDS` -/
def constraintPlanFields : List String :=
  ["assignment_count", "maximum_total_tokens", "replanning_reserve_tokens"]

/-- `_CONSTRAINT_ASSIGNMENT_FIELDS` -/
def constraintAssignmentFields : List String :=
  ["task_id", "family", "provider", "model", "network", "mutation", "private_context",
   "execution_gate", "fallback", "dependencies", "estimated_input_tokens",
   "estimated_output_tokens", "estimated_total_tokens"]

/-- `_CONSTRAINT_FIELDS` -/
def constraintFields : List String := constraintPlanFields ++ constraintAssignmentFields

/-- `_CONSTRAINT_OPERATORS` -/
def constraintOperators : List String := ["equals", "at_most"]

/-- `_CONSTRAINT_AT_MOST_FIELDS` -/
def constraintAtMostFields : List String :=
  ["assignment_count", "maximum_total_tokens", "replanning_reserve_tokens",
   "estimated_input_tokens", "estimated_output_tokens", "estimated_total_tokens"]

/-- `_CONSTRAINT_BOOL_FIELDS` -/
def constraintBoolFields : List String := ["network", "mutation", "private_context"]

/-- `_CONSTRAINT_STR_FIELDS` -/
def constraintStrFields : List String :=
  ["task_id", "family", "provider", "model", "execution_gate", "fallback"]

/-- `_CONSTRAINT_LIST_INT_FIELDS` -/
def constraintListIntFields : List String := ["dependencies"]

/-- `_CONSTRAINT_EXPECTED_KEYS` -/
def constraintExpectedKeys : List String :=
  ["constraint_id", "source_text", "scope", "assignment_index", "field", "operator", "value"]

def constraintScopes : List String := ["plan", "assignment"]

/-! ### One entry -/

/-- `_is_strict_int` -/
def isStrictInt : Json → Bool
  | .int _ => true
  | _ => false

def asObject : Json → Option (List (String × Json))
  | .obj kvs => some kvs
  | _ => none

/-- A string that is not blank. -/
def asNonBlank : Json → Option String
  | .str s => if nonBlank s then some s else none
  | _ => none

/-- A string that is not empty. -/
def asNonEmpty : Json → Option String
  | .str s => if s = "" then none else some s
  | _ => none

/-- `sorted(keys)`, as it is printed. -/
def printedKeys (py : Stdlib) (keys : List String) : String :=
  py.repr (.arr ((keys.insertionSort (· ≤ ·)).map .str))

/-- The complaint about an entry of the manifest, named by its index or its id. -/
def invalidConstraint (name text : String) : String :=
  "mission_constraint_invalid: " ++ name ++ text

/-- The fields and the id of an entry. -/
def identified (py : Stdlib) (seen : List String) (index : Nat) (raw : Json) :
    Verdict PyExc String (List (String × Json) × String) := do
  let label := "mission_constraints[" ++ toString index ++ "]"
  let kvs ← Verdict.demandSome (asObject raw) (invalidConstraint label " no es un objeto.")
  let missing := constraintExpectedKeys.filter fun k => !(kvs.any fun kv => kv.1 == k)
  let unknown := (kvs.map (·.1)).filter fun k => !constraintExpectedKeys.contains k
  Verdict.demand (hasKeys constraintExpectedKeys kvs) (invalidConstraint label
    (": " ++ ("campos incorrectos (faltantes=" ++ printedKeys py missing ++ " desconocidos=" ++
      printedKeys py unknown ++ ").")))
  let id ← Verdict.demandSome (asNonBlank (fieldOf kvs "constraint_id"))
    (invalidConstraint label (": " ++ "constraint_id vacío o inválido."))
  Verdict.demand (!seen.contains id) (invalidConstraint id (": " ++ "constraint_id duplicado."))
  return (kvs, id)

/-- The scope of a field. -/
def scopeOf (field : String) : String :=
  if field ∈ constraintPlanFields then "plan" else "assignment"

/-- The position of an assignment. -/
def positionOf (plan : MissionPlan) : Json → Option AgentAssignment
  | .int i => if i < 0 then none else plan.assignments[i.toNat]?
  | _ => none

/-- Whether `assignment_index` fits the scope. -/
def indexFits (plan : MissionPlan) (scope : String) (index : Json) : Bool :=
  if scope = "plan" then index = .null else (positionOf plan index).isSome

/-- A list of positions. -/
def isPositions : Json → Bool
  | .arr xs => xs.all isStrictInt
  | _ => false

/-- The assignments at a list of positions. -/
def assignmentsAt (plan : MissionPlan) : Json → Option (List AgentAssignment)
  | .arr xs => xs.mapM (positionOf plan)
  | _ => none

/-- The value that the plan is compared with: the one of the entry, or the ids of the
assignments at its positions. -/
def expectedValue (plan : MissionPlan) (id field : String) (value : Json) :
    Verdict PyExc String Json := do
  let invalid := fun text => invalidConstraint id (": " ++ text)
  if field ∈ constraintAtMostFields then
    Verdict.demand (isStrictInt value)
      (invalid ("value debe ser integer para field '" ++ field ++ "'."))
    return value
  else if field ∈ constraintBoolFields then
    Verdict.demand value.isBool (invalid ("value debe ser boolean para field '" ++ field ++ "'."))
    return value
  else if field ∈ constraintStrFields then
    Verdict.demand value.isStr (invalid ("value debe ser string para field '" ++ field ++ "'."))
    return value
  else if field ∈ constraintListIntFields then
    Verdict.demand (isPositions value)
      (invalid ("value debe ser un array de integers para field '" ++ field ++ "'."))
    let targets ← Verdict.demandSome (assignmentsAt plan value)
      (invalid "value contiene una posición de assignment fuera de rango.")
    return .arr (targets.map (·.taskId))
  else .refused (invalid "field sin tipo de value soportado.")

/-- An entry that has been resolved against the plan. -/
structure Constraint where
  constraintId : String
  sourceText : String
  scope : String
  index : Json
  field : String
  operator : String
  value : Json
  expected : Json

/-- A complaint with the `repr` of a value in it. -/
def toldOf (py : Stdlib) (room : Nat) (id before : String) (v : Json) (after : String) :
    Except PyExc String :=
  (reprWithin py room v).map fun shown => invalidConstraint id (": " ++ (before ++ shown ++ after))

/-- The shape of an entry, in the order of the checks. -/
def resolveConstraint (py : Stdlib) (room : Nat) (plan : MissionPlan)
    (kvs : List (String × Json)) (id : String) : Verdict PyExc String Constraint := do
  let invalid := fun text => invalidConstraint id (": " ++ text)
  let told := toldOf py room id
  let source ← Verdict.demandSome (asNonEmpty (fieldOf kvs "source_text"))
    (invalid "source_text vacío o inválido.")
  let scope := fieldOf kvs "scope"
  Verdict.demandOk (memberOf constraintScopes scope) (told "scope inválido: " scope ".")
  let name := fieldOf kvs "field"
  Verdict.demandOk (memberOf constraintFields name) (told "field inválido: " name ".")
  Verdict.demand (scopeOf (asText name) = asText scope)
    (invalid ("field " ++ py.repr name ++ " no pertenece a scope " ++ py.repr scope ++ "."))
  let index := fieldOf kvs "assignment_index"
  Verdict.demandTold (indexFits plan (asText scope) index)
    (if asText scope = "plan" then
      .ok (invalid "assignment_index debe ser null cuando scope=plan.")
    else told "assignment_index " index " no resuelve a un assignment existente.")
  let operator := fieldOf kvs "operator"
  Verdict.demandOk (memberOf constraintOperators operator) (told "operator inválido: " operator ".")
  Verdict.demand (operator ≠ .str "at_most" || asText name ∈ constraintAtMostFields)
    (invalid ("operator at_most no soportado para field " ++ py.repr name ++ "."))
  let expected ← expectedValue plan id (asText name) (fieldOf kvs "value")
  return {
    constraintId := id
    sourceText := source
    scope := asText scope
    index := index
    field := asText name
    operator := asText operator
    value := fieldOf kvs "value"
    expected := expected }

/-- What the plan has in the place of a field. -/
def actualValue (plan : MissionPlan) (scope : String) (index : Json) (field : String) :
    Except PyExc Json :=
  if scope = "plan" then
    if field = "assignment_count" then .ok (.int plan.assignments.length)
    else plan.budget.get field
  else
    match positionOf plan index with
    | none => .error (.exception "assignment")
    | some a =>
        if field = "dependencies" then a.dependencies.iter.map .arr else .ok (getattr a field)

/-- `(actual <= expected) if operator == "at_most" else (actual == expected)` -/
def compares (room : Nat) (operator : String) (actual expected : Json) : Except PyExc Bool :=
  if operator = "at_most" then
    match expected with
    | .int n => pyAtMost actual n
    | _ => .error (.typeError "'<=' not supported between instances")
  else pyEqWithin room actual expected

/-- `target`; an index that fits is printed as its `repr` is. -/
def targetOf (py : Stdlib) (room : Nat) (c : Constraint) : Except PyExc String :=
  if c.scope = "plan" then .ok ("plan." ++ c.field)
  else (reprWithin py room c.index).map fun index => "assignment[" ++ index ++ "]." ++ c.field

/-- The complaint that the plan has something else. -/
def mismatchOf (py : Stdlib) (room : Nat) (c : Constraint) (actual : Json) :
    Except PyExc String := do
  let target ← targetOf py room c
  let value ← reprWithin py room c.value
  let actual ← reprWithin py room actual
  return "mission_constraint_mismatch: " ++ c.constraintId ++ (": " ++ (target ++ " " ++ c.operator ++
    " " ++ value ++ " pero el plan tiene " ++ actual ++ "."))

/-- `if not matches: problems.append(…)` -/
def mismatches (py : Stdlib) (room : Nat) (c : Constraint) (actual : Json) (holds : Bool) :
    Except PyExc (List String) :=
  if holds then .ok [] else (mismatchOf py room c actual).map ([·])

/-- The complaints about an entry that has been resolved. -/
def judgeConstraint (py : Stdlib) (room : Nat) (plan : MissionPlan) (texts : Option (List String))
    (c : Constraint) : Except PyExc (List String) := do
  let unauthorized := match texts with
    | some texts => !texts.any (occursIn c.sourceText)
    | none => false
  let actual ← actualValue plan c.scope c.index c.field
  let holds ← compares room c.operator actual c.expected
  let mismatch ← mismatches py room c actual holds
  return (if unauthorized then
      ["mission_constraint_source_not_authorized: " ++ c.constraintId ++
        (": " ++ "source_text no aparece verbatim en ninguna fuente humana autorizada.")] else []) ++
    mismatch

/-- One round of the loop: the complaints about an entry, and the ids seen after it. -/
def checkConstraint (py : Stdlib) (room : Nat) (plan : MissionPlan) (texts : Option (List String))
    (seen : List String) (index : Nat) (raw : Json) : Except PyExc (List String × List String) :=
  match identified py seen index raw with
  | .raised e => .error e
  | .refused p => .ok ([p], seen)
  | .passed (kvs, id) =>
      match resolveConstraint py room plan kvs id with
      | .raised e => .error e
      | .refused p => .ok ([p], id :: seen)
      | .passed c => (judgeConstraint py room plan texts c).map fun ps => (ps, id :: seen)

/-- The loop, with the complaints about each entry by themselves. -/
def checkConstraints (py : Stdlib) (room : Nat) (plan : MissionPlan) (texts : Option (List String)) :
    List String → Nat → List Json → Except PyExc (List (List String))
  | _, _, [] => .ok []
  | seen, index, raw :: rest => do
      let (problems, seen) ← checkConstraint py room plan texts seen index raw
      let more ← checkConstraints py room plan texts seen (index + 1) rest
      return problems :: more

/-- `_validate_mission_constraints`, on a stack that has room for `room` levels of nesting -/
def validateMissionConstraints (py : Stdlib) (room : Nat) (plan : MissionPlan)
    (texts : Option (List String)) : Except PyExc (List String) :=
  match plan.missionConstraints with
  | .null => .ok []
  | .arr constraints => do
      let problems ← checkConstraints py room plan texts [] 0 constraints
      return (if texts = none then
        ["mission_constraint_source_not_authorized: no se proveyó mission_authority_texts; " ++
          "no se puede validar la procedencia humana de mission_constraints."] else []) ++
        problems.flatten
  | _ => .ok ["mission_constraint_invalid: mission_constraints debe ser una lista."]

end Planning

end Konoha
