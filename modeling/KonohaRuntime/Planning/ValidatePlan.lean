/-
Planning/ValidatePlan.lean

`validate_plan`: the complaints about a plan before a human sees it.

The figures of a plan are any numbers of JSON.  Sums of ints are exact; what a sum with a float is,
is up to `addFloat`.  `Accepted.budget` says what a plan without complaints has got right.
-/
import KonohaRuntime.Planning.Constraints

namespace Konoha.Planning

open Json

/-! ### Values -/

/-- What the validation takes from Python and from the registry. -/
structure Validator where
  py : Stdlib
  /-- how many levels of nesting the stack has room for -/
  room : Nat
  /-- `registry.agent_family(name)` -/
  agentFamily : Json → Except PyExc Json
  /-- `registry.model_allowed(provider, model, family)` -/
  modelAllowed : Json → Json → Json → Except PyExc Bool
  /-- `v + w`, for numbers of which one is a float -/
  addFloat : Json → Json → Except PyExc PyFloat
  /-- `int(s)`, for a string -/
  intOfText : String → Except PyExc Int

/-- `d.get(key, default)` -/
def getOr (key : String) (default : Json) : Json → Except PyExc Json
  | .obj kvs => .ok ((lookup key kvs).getD default)
  | _ => .error (.attributeError "object has no attribute 'get'")

/-- `item[key]`, for a string -/
def subscript (key : String) : Json → Except PyExc Json
  | .obj kvs =>
      match lookup key kvs with
      | some v => .ok v
      | none => .error (.exception ("'" ++ key ++ "'"))
  | _ => .error (.typeError "indices must be integers")

/-- The value of an int or a bool. -/
def integer? : Json → Option Int
  | .int i => some i
  | .bool b => some (if b then 1 else 0)
  | _ => none

/-- `v + w` -/
def add (env : Validator) : Json → Json → Except PyExc Json
  | .str s, .str t => .ok (.str (s ++ t))
  | .arr xs, .arr ys => .ok (.arr (xs ++ ys))
  | v, w =>
      match integer? v, integer? w with
      | some i, some j => .ok (.int (i + j))
      | _, _ =>
          match Number.of? v, Number.of? w with
          | some _, some _ => (env.addFloat v w).map .float
          | _, _ => .error (.typeError "unsupported operand type(s) for +")

/-- `v < 0` -/
def isNegative (v : Json) : Except PyExc Bool :=
  match Number.of? v with
  | some x => .ok (!(Number.rat 0).le x && x.le (.rat 0))
  | none => .error (.typeError "'<' not supported between instances")

/-- `int(v)` -/
def toInt (env : Validator) : Json → Except PyExc Int
  | .int i => .ok i
  | .bool b => .ok (if b then 1 else 0)
  | .str s => env.intOfText s
  | .float f =>
      match Number.ofFloat f with
      | .rat q => .ok (q.num.tdiv q.den)
      | .nan => .error (.valueError "cannot convert float NaN to integer")
      | _ => .error (.exception "cannot convert float infinity to integer")
  | _ => .error (.typeError "int() argument must be a string or a real number")

/-- `text in v` -/
def hasText (text : String) : Json → Except PyExc Bool
  | .arr xs => .ok (xs.any (pyEq (.str text)))
  | .str s => .ok (occursIn text s)
  | .obj kvs => .ok (kvs.any fun kv => kv.1 = text)
  | _ => .error (.typeError "argument is not iterable")

/-- `sep.join(v)` -/
def joinTexts (sep : String) (v : Json) : Except PyExc String := do
  let items ← v.iter
  let texts ← items.mapM fun
    | .str s => .ok s
    | _ => .error (PyExc.typeError "sequence item: expected str instance")
  return sep.intercalate texts

/-- A dict whose keys are values of the plan. -/
abbrev Totals := List (Json × Json)

/-- A value can be a key. -/
def checkKey (key : Json) : Except PyExc Unit :=
  if key.hashable then .ok () else .error (.typeError "unhashable type")

/-- `d.get(key)` -/
def Totals.get (d : Totals) (key : Json) : Option Json :=
  (d.find? fun kv => pyEq kv.1 key).map (·.2)

/-- `d[key] = v` -/
def Totals.put (d : Totals) (key v : Json) : Totals :=
  match d with
  | [] => [(key, v)]
  | kv :: rest => if pyEq kv.1 key then (kv.1, v) :: rest else kv :: Totals.put rest key v

/-- `d == e` -/
def Totals.eq (d e : Totals) : Bool :=
  decide (d.length = e.length) && d.all fun kv => (e.get kv.1).any fun w => pyEq kv.2 w

/-! ### The plan by itself -/

/-- The complaints for which the test holds. -/
def noted (complaints : List (Bool × String)) : List String :=
  (complaints.filter (·.1)).map (·.2)

/-- Missing context is named. -/
def missingComplaint (plan : MissionPlan) : Except PyExc (List String) :=
  if plan.missingContext.truthy then
    (joinTexts "; " plan.missingContext).map fun text => ["Falta contexto explícito: " ++ text]
  else .ok []

/-- `{"conductor": "codex", "constitutional_authority": "hokage"}` -/
def separateGovernance : Json :=
  .obj [("conductor", .str "codex"), ("constitutional_authority", .str "hokage")]

/-- A teachback that is required for no reason that is given. -/
def unjustified (env : Validator) (plan : MissionPlan) : Except PyExc Bool :=
  if pyEq plan.teachbackPolicy (.str "required") then
    match plan.rationale with
    | .str rationale =>
      .ok ! (["formación", "training", "constitucional", "safety contract",
        "solicitud explícita"].any fun token => occursIn token (env.py.lower rationale))
    | _ => .error (.attributeError "object has no attribute 'lower'")
  else .ok false

/-- The complaints before the loop. -/
def headerComplaints (env : Validator) (plan : MissionPlan) : Except PyExc (List String) := do
  let missing ← missingComplaint plan
  let policy ← memberOf ["disabled", "optional", "required"] plan.teachbackPolicy
  let unjustified ← unjustified env plan
  let mutation ← getOr "workspace_mutation_allowed" .null plan.workspacePolicy
  let privateState ← getOr "private_runtime_state_allowed" (.bool false) plan.workspacePolicy
  let status ← getOr "status" .null plan.approval
  return missing ++ noted
    [(!pyEq plan.governance separateGovernance, "Gobernanza inválida: Codex debe conducir y " ++
        "Hokage debe ser autoridad constitucional separada."),
      (!policy, "teachback_policy inválida."),
      (unjustified, "Teachback requerido sin justificación explícita."),
      (mutation ≠ .bool false, "El workspace auditado debe permanecer read-only."),
      (!privateState.truthy,
        "El plan debe distinguir persistencia privada de mutación del workspace."),
      (!pyEq status (.str "pending"), "Todo plan nuevo debe iniciar con aprobación pending.")]

/-! ### The assignments -/

/-- `EXECUTION_GATES` -/
def executionGates : List String := ["plan_approval", "separate_human_approval"]

/-- What the loop over the assignments has come to. -/
structure Tally where
  problems : List String
  seen : List Json
  providerTotals : Totals
  familyTotals : Totals
  taskTotal : Json

/-- `provider_readiness.get(provider)`, if it says that the provider is available -/
def isReady (readiness : Option (List (String × Json))) (provider : Json) : Except PyExc Bool :=
  match readiness with
  | none => .ok true
  | some entries => do
      checkKey provider
      return match provider with
        | .str name =>
            match lookup name entries with
            | some (.obj kvs) => (lookup "available" kvs).getD .null = .bool true
            | _ => false
        | _ => false

/-- Hokage in a task of the conductor. -/
def mixesHokage (env : Validator) (a : AgentAssignment) : Except PyExc Bool :=
  if pyEq a.family (.str "mission-conductor") then
    match a.taskId, a.objective with
    | .str taskId, .str objective => .ok (occursIn "hokage" (env.py.lower (taskId ++ " " ++ objective)))
    | _, _ => .error (.typeError "can only concatenate str")
  else .ok false

/-- `flag and boundary not in plan.approval_boundaries` -/
def lacksBoundary (plan : MissionPlan) (flag : Json) (boundary : String) : Except PyExc Bool :=
  if flag.truthy then (hasText boundary plan.approvalBoundaries).map (!·) else .ok false

/-- `totals[key] = totals.get(key, 0) + v` -/
def addTo (env : Validator) (totals : Totals) (key v : Json) : Except PyExc Totals := do
  checkKey key
  let sum ← add env ((totals.get key).getD (.int 0)) v
  return totals.put key sum

/-- The rest of a round, for a family that is known. -/
def checkFigures (env : Validator) (readiness : Option (List (String × Json))) (plan : MissionPlan)
    (s : Tally) (a : AgentAssignment) (family : Json) : Except PyExc Tally := do
  let allowed ← env.modelAllowed a.provider a.model a.family
  let ready ← isReady readiness a.provider
  let network ← lacksBoundary plan a.network "network"
  let privateContext ← lacksBoundary plan a.privateContext "private_context"
  let gate ← memberOf executionGates a.executionGate
  let patterns ← getOr "allowed_task_patterns" .null family
  let sum ← add env a.estimatedInputTokens a.estimatedOutputTokens
  let negative ← isNegative a.estimatedTotalTokens
  let taskTotal ← add env s.taskTotal a.estimatedTotalTokens
  let providerTotals ← addTo env s.providerTotals a.provider a.estimatedTotalTokens
  let familyTotals ← addTo env s.familyTotals a.family a.estimatedTotalTokens
  let text := env.py.str
  return {
    problems := s.problems ++ noted
      [(!allowed, "Modelo no autorizado: " ++ text a.provider ++ "/" ++ text a.model ++ " para " ++
          text a.family),
        (!ready, text a.taskId ++ ": provider_not_ready: " ++ text a.provider),
        (a.mutation.truthy, text a.taskId ++ ": mutation_runtime_not_supported (el runtime de " ++
          "worktree aislado para mutación todavía no existe)."),
        (network, text a.taskId ++ " usa red sin boundary network"),
        (privateContext, text a.taskId ++ " usa contexto privado sin boundary private_context"),
        (!gate, text a.taskId ++ ": execution_gate inválido: " ++ env.py.repr a.executionGate ++
          ". Valores permitidos: " ++ printedKeys env.py executionGates ++ "."),
        (!patterns.truthy, "Familia sin allowed_task_patterns: " ++ text a.family),
        (!pyEq a.estimatedTotalTokens sum, "Presupuesto inconsistente en " ++ text a.taskId ++ "."),
        (negative, "Presupuesto negativo en " ++ text a.taskId ++ ".")]
    seen := s.seen
    providerTotals := providerTotals
    familyTotals := familyTotals
    taskTotal := taskTotal }

/-- One round of the loop. -/
def checkAssignment (env : Validator) (readiness : Option (List (String × Json)))
    (plan : MissionPlan) (s : Tally) (a : AgentAssignment) : Except PyExc Tally := do
  checkKey a.taskId
  let mixes ← mixesHokage env a
  let s := { s with
    problems := s.problems ++ noted
      [(s.seen.any (pyEq a.taskId), "task_id duplicado: " ++ env.py.str a.taskId),
        (mixes, env.py.str a.taskId ++ " mezcla Hokage con una tarea operativa de Codex.")]
    seen := a.taskId :: s.seen }
  match env.agentFamily a.family with
  | .error (.registryError text) => .ok { s with problems := s.problems ++ [text] }
  | .error e => .error e
  | .ok family => checkFigures env readiness plan s a family

/-! ### The budget -/

/-- `{item[name]: item["total_tokens"] for item in budget.get(key, [])}` -/
def declaredTotals (plan : MissionPlan) (key name : String) : Except PyExc Totals := do
  let listed ← getOr key (.arr []) plan.budget
  let items ← listed.iter
  items.foldlM (fun (d : Totals) item => do
    let key ← subscript name item
    checkKey key
    let total ← subscript "total_tokens" item
    return d.put key total) []

/-- `int(plan.budget.get(key, 0))` -/
def budgetInt (env : Validator) (plan : MissionPlan) (key : String) : Except PyExc Int := do
  let v ← getOr key (.int 0) plan.budget
  toInt env v

/-- The complaints after the loop. -/
def budgetComplaints (env : Validator) (plan : MissionPlan) (s : Tally) :
    Except PyExc (List String) := do
  let reserve ← budgetInt env plan "replanning_reserve_tokens"
  let maximum ← budgetInt env plan "maximum_total_tokens"
  let declaredProviderTotals ← declaredTotals plan "provider_totals" "provider"
  let declaredFamilyTotals ← declaredTotals plan "family_totals" "family"
  let expected ← add env s.taskTotal (.int reserve)
  return noted
    [(!declaredProviderTotals.eq s.providerTotals,
        "budget.provider_totals no coincide con las tareas."),
      (!declaredFamilyTotals.eq s.familyTotals, "budget.family_totals no coincide con las tareas."),
      (!pyEq (.int maximum) expected, "budget.maximum_total_tokens debe ser tareas + reserva."),
      (!pyEq plan.estimatedTokens (.int maximum),
        "estimated_tokens debe coincidir con budget.maximum_total_tokens.")]

/-- The loop over the assignments. -/
def tallyOf (env : Validator) (readiness : Option (List (String × Json))) (plan : MissionPlan)
    (problems : List String) : Except PyExc Tally :=
  plan.assignments.foldlM (checkAssignment env readiness plan) ⟨problems, [], [], [], .int 0⟩

/-- `validate_plan` -/
def validatePlan (env : Validator) (readiness : Option (List (String × Json)))
    (texts : Option (List String)) (plan : MissionPlan) : Except PyExc (List String) := do
  let constraints ← validateMissionConstraints env.py env.room plan texts
  let header ← headerComplaints env plan
  let tally ← tallyOf env readiness plan (constraints ++ header)
  let budget ← budgetComplaints env plan tally
  return tally.problems ++ budget

end Konoha.Planning
