/-
Runtime/PlanFile.lean

`plan.json`: what `load_persisted_plan` makes of a parsed file, and the identity
of a plan, the hash of everything in it but its approval and its own hash.
-/
import KonohaRuntime.Runtime.Models

namespace Konoha

open Json

/-! ### Assignments -/

namespace AgentAssignment

/-- `asdict(assignment)`, in the order of the dataclass. -/
def asdict (a : AgentAssignment) : List (String × Json) :=
  [("task_id", a.taskId), ("family", a.family), ("provider", a.provider), ("model", a.model),
   ("objective", a.objective), ("inputs", a.inputs), ("expected_output", a.expectedOutput),
   ("dependencies", a.dependencies), ("private_context", a.privateContext),
   ("network", a.network), ("mutation", a.mutation),
   ("estimated_input_tokens", a.estimatedInputTokens),
   ("estimated_output_tokens", a.estimatedOutputTokens),
   ("estimated_total_tokens", a.estimatedTotalTokens), ("cost_class", a.costClass),
   ("fallback", a.fallback), ("stop_condition", a.stopCondition),
   ("execution_gate", a.executionGate)]

/-- `{f.name for f in fields(AgentAssignment)}` -/
def fieldNames : List String :=
  ["task_id", "family", "provider", "model", "objective", "inputs", "expected_output",
   "dependencies", "private_context", "network", "mutation", "estimated_input_tokens",
   "estimated_output_tokens", "estimated_total_tokens", "cost_class", "fallback",
   "stop_condition", "execution_gate"]

/-- `AgentAssignment(**item)`, for an `item` with exactly the field names. -/
def ofFields (kvs : List (String × Json)) : AgentAssignment :=
  let field := fun key => (lookup key kvs).getD null
  { taskId := field "task_id", family := field "family", provider := field "provider",
    model := field "model", objective := field "objective", inputs := field "inputs",
    expectedOutput := field "expected_output", dependencies := field "dependencies",
    privateContext := field "private_context", network := field "network",
    mutation := field "mutation", estimatedInputTokens := field "estimated_input_tokens",
    estimatedOutputTokens := field "estimated_output_tokens",
    estimatedTotalTokens := field "estimated_total_tokens", costClass := field "cost_class",
    fallback := field "fallback", stopCondition := field "stop_condition",
    executionGate := field "execution_gate" }

end AgentAssignment

/-! ### Plans -/

namespace MissionPlan

/-- `asdict(plan)`, in the order of the dataclass. -/
def asdict (p : MissionPlan) : List (String × Json) :=
  [("mission_id", .str p.missionId), ("understanding", p.understanding),
   ("explicit_facts", p.explicitFacts), ("missing_context", p.missingContext),
   ("assumptions_prohibited", p.assumptionsProhibited), ("complexity", p.complexity),
   ("assignments", .arr (p.assignments.map fun a => .obj a.asdict)),
   ("acceptance_criteria", p.acceptanceCriteria),
   ("approval_boundaries", p.approvalBoundaries), ("estimated_tokens", p.estimatedTokens),
   ("estimated_cost_class", p.estimatedCostClass), ("rationale", p.rationale),
   ("approval", p.approval), ("teachback_policy", p.teachbackPolicy),
   ("workspace_policy", p.workspacePolicy), ("budget", p.budget),
   ("governance", p.governance), ("plan_hash", p.planHash),
   ("mission_constraints", p.missionConstraints),
   ("repository_evidence", p.repositoryEvidence)]

/-- `plan_fields - optional_fields` of the loader. -/
def mandatoryNames : List String :=
  ["mission_id", "understanding", "explicit_facts", "missing_context",
   "assumptions_prohibited", "complexity", "assignments", "acceptance_criteria",
   "approval_boundaries", "estimated_tokens", "estimated_cost_class", "rationale", "approval",
   "teachback_policy", "workspace_policy", "budget", "governance", "plan_hash"]

/-- `optional_fields` of the loader. -/
def optionalNames : List String := ["mission_constraints", "repository_evidence"]

/-- `MissionPlan(**kwargs)` with the assignments already built. -/
def ofFields (missionId : String) (kvs : List (String × Json))
    (assignments : List AgentAssignment) : MissionPlan :=
  let field := fun key => (lookup key kvs).getD null
  { missionId := missionId, understanding := field "understanding",
    explicitFacts := field "explicit_facts", missingContext := field "missing_context",
    assumptionsProhibited := field "assumptions_prohibited", complexity := field "complexity",
    assignments := assignments, acceptanceCriteria := field "acceptance_criteria",
    approvalBoundaries := field "approval_boundaries",
    estimatedTokens := field "estimated_tokens",
    estimatedCostClass := field "estimated_cost_class", rationale := field "rationale",
    approval := field "approval", teachbackPolicy := field "teachback_policy",
    workspacePolicy := field "workspace_policy", budget := field "budget",
    governance := field "governance", planHash := field "plan_hash",
    missionConstraints := field "mission_constraints",
    repositoryEvidence := field "repository_evidence" }

end MissionPlan

/-- One entry of `"assignments"`. -/
def parseAssignment (py : Stdlib) (missionId : String) : Json → Except PyExc AgentAssignment
  | .obj kvs =>
      if hasKeys AgentAssignment.fieldNames kvs then .ok (AgentAssignment.ofFields kvs)
      else .error (.missionLookupError
        ("plan.json con assignment incompatible con AgentAssignment para "
          ++ py.repr (.str missionId)))
  | _ => .error (.missionLookupError
      ("plan.json con assignment incompatible con AgentAssignment para "
        ++ py.repr (.str missionId)))

/-- The fields of a parsed `plan.json` are those of `MissionPlan`, where the
optional ones may be missing. -/
def planFieldsMatch (kvs : List (String × Json)) : Bool :=
  kvs.all (fun kv => (MissionPlan.mandatoryNames ++ MissionPlan.optionalNames).contains kv.1) &&
    MissionPlan.mandatoryNames.all fun k => kvs.any fun kv => kv.1 == k

/-- `load_persisted_plan`, from the parsed file on. -/
def parsePlan (py : Stdlib) (missionId : String) : Json → Except PyExc MissionPlan
  | .obj kvs =>
      if planFieldsMatch kvs then
        match (lookup "assignments" kvs).getD null with
        | .arr items => do
            let assignments ← items.mapM (parseAssignment py missionId)
            if (lookup "mission_id" kvs).getD null = .str missionId then
              return MissionPlan.ofFields missionId kvs assignments
            else throw (.missionLookupError
              ("plan.json mission_id=" ++ py.repr ((lookup "mission_id" kvs).getD null)
                ++ " no coincide con " ++ py.repr (.str missionId)))
        | _ => .error (.missionLookupError
            ("plan.json 'assignments' no es una lista para " ++ py.repr (.str missionId)))
      else .error (.missionLookupError
        ("plan.json con campos incompatibles con MissionPlan para " ++ py.repr (.str missionId)))
  | _ => .error (.missionLookupError
      ("plan.json no es un objeto para " ++ py.repr (.str missionId)))

/-- The loader returns no plan of another mission. -/
theorem parsePlan_missionId {py : Stdlib} {missionId : String} {raw : Json} {p : MissionPlan}
    (h : parsePlan py missionId raw = .ok p) : p.missionId = missionId := by
  unfold parsePlan at h
  split at h
  · split at h
    · split at h
      · rename_i items _
        cases hm : items.mapM (parseAssignment py missionId) with
        | error e => simp [hm, bind, Except.bind] at h
        | ok assignments =>
            simp only [hm, bind, Except.bind] at h
            split at h
            · cases h
              rfl
            · cases h
      · cases h
    · cases h
  · cases h

theorem parseAssignment_asdict (py : Stdlib) (missionId : String) (a : AgentAssignment) :
    parseAssignment py missionId (.obj a.asdict) = .ok a := rfl

/-- The loader gives back the plan that was written. -/
theorem parsePlan_asdict (py : Stdlib) (p : MissionPlan) :
    parsePlan py p.missionId (.obj p.asdict) = .ok p := by
  have hmapM : ∀ as : List AgentAssignment,
      (as.map fun a => Json.obj a.asdict).mapM (parseAssignment py p.missionId) = .ok as := by
    intro as
    induction as with
    | nil => rfl
    | cons a as ih =>
        rw [List.map_cons, List.mapM_cons, parseAssignment_asdict, ih]
        rfl
  have hfields : planFieldsMatch p.asdict = true := rfl
  have hassignments : (lookup "assignments" p.asdict).getD null =
      .arr (p.assignments.map fun a => .obj a.asdict) := rfl
  have hid : (lookup "mission_id" p.asdict).getD null = .str p.missionId := rfl
  simp only [parsePlan, hfields, if_true, hassignments, hmapM, hid, bind, Except.bind]
  rfl

/-! ### Identity -/

/-- The fields of a plan that its identity covers. -/
def MissionPlan.operativeFields (p : MissionPlan) : List (String × Json) :=
  p.asdict.filter fun kv =>
    !(kv.1 == "approval" || kv.1 == "plan_hash" ||
      (kv.1 == "repository_evidence" && p.repositoryEvidence = null) ||
      (kv.1 == "mission_constraints" && p.missionConstraints = null))

/-- `plan_identity` -/
def planIdentity (py : Stdlib) (p : MissionPlan) : Digest :=
  py.sha256 (canonical py (.obj p.operativeFields))

/-- Approving, rejecting or resealing a plan leaves its identity as it is. -/
theorem planIdentity_approval (py : Stdlib) (p : MissionPlan) (approval planHash : Json) :
    planIdentity py { p with approval := approval, planHash := planHash } = planIdentity py p := by
  simp [planIdentity, MissionPlan.operativeFields, MissionPlan.asdict]

end Konoha
