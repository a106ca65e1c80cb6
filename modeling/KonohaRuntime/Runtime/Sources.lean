/-
Runtime/Sources.lean

The required sources of an agent family.  Each canonical source has one
resolver; the executor resolves all of them before it calls a provider
(`enforcing`), and stops unless every one is available with material.

Three resolvers read files of the repository (`failure_logs`, the sources given
as task inputs, `repository_state`); what they find there is answered by the
host.  The others are pure.
-/
import KonohaRuntime.Runtime.Host
import KonohaRuntime.Runtime.Result

namespace Konoha

open Effects Json

/-! ### Bounded material -/

def maxMaterialListItems : Nat := 10
def maxMaterialTextChars : Nat := 2000
def maxPersistedOutputBytes : Nat := 200000

/-- `s[:n]` -/
def takeChars (n : Nat) (s : String) : String := String.ofList (s.toList.take n)

/-- `bounded_text` -/
def boundedText (s : String) : Json :=
  .obj [("text", .str (takeChars maxMaterialTextChars s)), ("total_chars", .int s.length),
    ("truncated", .bool (maxMaterialTextChars < s.length))]

/-- A list with its total, cut after ten items. -/
def boundedItems (items : List Json) (total : Nat) : Json :=
  .obj [("total", .int total), ("included", .int items.length),
    ("truncated", .bool (items.length < total)), ("items", .arr items)]

/-- `d[k] = v` on a JSON object. -/
def setField (k : String) (v : Json) : List (String × Json) → List (String × Json)
  | [] => [(k, v)]
  | (l, u) :: rest => if l = k then (k, v) :: rest else (l, u) :: setField k v rest

theorem lookup_setField_ne {k l : String} (h : l ≠ k) (v : Json) (kvs : List (String × Json)) :
    lookup l (setField k v kvs) = lookup l kvs := by
  induction kvs with
  | nil => exact lookup_cons_ne (Ne.symm h) v []
  | cons kv rest ih =>
      obtain ⟨j, u⟩ := kv
      by_cases hj : j = k
      · subst hj
        rw [setField, if_pos rfl, lookup_cons_ne (Ne.symm h), lookup_cons_ne (Ne.symm h)]
      · rw [setField, if_neg hj]
        by_cases hl : j = l
        · subst hl
          rw [lookup_cons_self, lookup_cons_self]
        · rw [lookup_cons_ne hl, lookup_cons_ne hl]
          exact ih

theorem lookup_setField_self (k : String) (v : Json) (kvs : List (String × Json)) :
    lookup k (setField k v kvs) = some v := by
  induction kvs with
  | nil => exact lookup_cons_self k v []
  | cons kv rest ih =>
      obtain ⟨j, x⟩ := kv
      by_cases hj : j = k
      · subst hj
        rw [setField, if_pos rfl, lookup_cons_self]
      · rw [setField, if_neg hj, lookup_cons_ne hj]
        exact ih

/-- `bounded_value`; `room` is the number of levels left, seven at the top. -/
def boundedValue : Nat → Json → Json
  | 0, _ => .obj [("omitted", .str "depth_limit")]
  | _ + 1, .str s => boundedText s
  | room + 1, .arr xs =>
      boundedItems ((xs.take maxMaterialListItems).map (boundedValue room)) xs.length
  | room + 1, .obj kvs =>
      let kept := kvs.take maxMaterialListItems
      let fields := kept.foldl (fun acc kv =>
        setField (takeChars maxMaterialTextChars kv.1) (boundedValue room kv.2) acc) []
      .obj [("fields", .obj fields), ("total_fields", .int kvs.length),
        ("truncated", .bool (kept.length < kvs.length))]
  | _ + 1, v => v

/-- `bounded_list` -/
def boundedList (xs : List Json) : Json :=
  boundedItems ((xs.take maxMaterialListItems).map (boundedValue 7)) xs.length

/-- `xs[:n]` -/
def slice (n : Nat) : Json → Except PyExc (List Json)
  | .arr xs => .ok (xs.take n)
  | .str s => .ok ((s.toList.take n).map fun c => .str (String.singleton c))
  | _ => .error (.typeError "object is not subscriptable")

/-! ### Retained outputs -/

/-- `_record_payload` -/
def recordPayload (py : Stdlib) (record : EvidenceRecord) :
    Except PyExc (Option (List (String × Json))) :=
  if record.status ≠ .completed ∨ maxPersistedOutputBytes < record.output.length ∨
      maxPersistedOutputBytes < record.output.utf8ByteSize then .ok none
  else match parseAssignmentResultText py.interpreter record.output with
    | .ok (.obj kvs) => .ok (some (PyJson.toJsonFields kvs))
    | .ok _ => .ok none
    | .error (.valueError _) | .error (.typeError _) | .error (.recursionError _) => .ok none
    | .error e => .error e

/-! ### The vocabulary -/

inductive SourceKind
  | planScope
  | assignmentProduced
  | structuralDependency
  deriving DecidableEq

/-- `SOURCE_VOCABULARY`, without the descriptions. -/
def sourceVocabulary : List (String × SourceKind) :=
  [("mission_plan", .planScope), ("acceptance_criteria", .planScope),
   ("user_mission_request", .planScope), ("repository_state", .planScope),
   ("capability_registry", .planScope), ("failure_logs", .planScope),
   ("python_coding_rules", .planScope), ("python_source_files", .planScope),
   ("approved_checklist", .planScope), ("authorized_local_source", .planScope),
   ("approved_style_statute", .planScope), ("target_journal_rules", .planScope),
   ("target_assignment_evidence", .structuralDependency),
   ("dependency_evidence_bundle", .structuralDependency),
   ("implementation_diff", .assignmentProduced), ("test_evidence", .assignmentProduced),
   ("review_evidence", .assignmentProduced), ("source_fact_cards", .assignmentProduced)]

/-- `SOURCE_VOCABULARY.get(canonical_id)` -/
def sourceKind (id : String) : Option SourceKind :=
  (sourceVocabulary.find? fun kv => kv.1 == id).map (·.2)

/-! ### The context -/

/-- The last value of a key, as in a dict built from the pairs. -/
def dictGet {β : Type} (k : Json) (d : List (Json × β)) : Option β :=
  (d.reverse.find? fun kv => kv.1 = k).map (·.2)

structure ResolutionContext where
  planApprovalStatus : Json
  planAcceptanceCriteria : List Json
  userMissionRequest : Option String
  repoEvidencePack : Option RepositoryEvidencePack
  familyContracts : List (Json × Json)
  taskFamilyById : List (Json × Json)
  evidenceByTaskId : List (Json × EvidenceRecord)
  missionPlan : List (String × Json)
  excludedPaths : List Json
  capabilityRegistry : Json

def available (id : String) (material : List (String × Json)) : SourceResolution :=
  ⟨id, .available, none, [], .obj material⟩

def missing (id reason : String) : SourceResolution := ⟨id, .missing, some reason, [], null⟩

/-! ### Pure resolvers -/

section Resolvers

variable (py : Stdlib) (id : String) (task : AgentAssignment) (ctx : ResolutionContext)

/-- `_resolve_mission_plan` -/
def resolveMissionPlan : SourceResolution :=
  if ctx.planApprovalStatus ≠ .str "approved" then missing "mission_plan" "plan_not_yet_approved"
  else if ctx.missionPlan = [] then missing "mission_plan" "mission_plan_material_unavailable"
  else available "mission_plan" [("mission_plan", boundedValue 7 (.obj ctx.missionPlan))]

/-- `_resolve_acceptance_criteria` -/
def resolveAcceptanceCriteria : SourceResolution :=
  if ctx.planAcceptanceCriteria ≠ [] ∧ ctx.planAcceptanceCriteria.all nonEmptyStr then
    available "acceptance_criteria"
      [("acceptance_criteria", boundedList ctx.planAcceptanceCriteria)]
  else missing "acceptance_criteria" "plan_acceptance_criteria_empty"

/-- `_resolve_user_mission_request` -/
def resolveUserMissionRequest : SourceResolution :=
  match ctx.userMissionRequest with
  | some raw =>
      if nonBlank raw then
        if maxMaterialTextChars < raw.length then
          missing "user_mission_request" "original_request_exceeds_material_bound"
        else available "user_mission_request"
          [("text", .str raw), ("original", .bool true), ("truncated", .bool false)]
      else missing "user_mission_request" "user_mission_request_empty"
  | none => missing "user_mission_request" "user_mission_request_empty"

/-- `_resolve_capability_registry` -/
def resolveCapabilityRegistry : SourceResolution :=
  match dictGet task.family ctx.familyContracts with
  | some (.obj (kv :: kvs)) =>
      available "capability_registry"
        [("family", task.family), ("contract", boundedValue 7 (.obj (kv :: kvs))),
          ("capabilities", boundedValue 7 ctx.capabilityRegistry)]
  | _ => missing "capability_registry" "family_contract_unavailable"

/-- One dependency of `_resolve_structural_dependency`, or `none` for
`dependency_material_unavailable`. -/
def structuralItem (dep : Json) (record : EvidenceRecord) : Except PyExc (Option Json) := do
  let payload ← recordPayload py record
  match payload with
  | none => return none
  | some payload =>
      let isRow : Json → Bool
        | .obj kvs => (fieldOf kvs "source").isStr && (fieldOf kvs "observation").isStr
        | _ => false
      match fieldOf payload "summary", fieldOf payload "evidence" with
      | .str summary, .arr rows =>
          if nonBlank summary && rows.all isRow then
            return some (.obj
              [("task_id", dep), ("evidence_id", .str record.evidenceId.1),
               ("summary", boundedText summary), ("evidence", boundedList rows),
               ("authority", .str "provider_claim_only")])
          else return none
      | _, _ => return none

/-- The items of all dependencies, or `none` when one of them has none. -/
def structuralItems : List Json → Except PyExc (Option (List Json))
  | [] => .ok (some [])
  | dep :: deps => do
      match dictGet dep ctx.evidenceByTaskId with
      | none => .error (.exception "KeyError")
      | some record =>
          match ← structuralItem py dep record with
          | none => return none
          | some item =>
              match ← structuralItems deps with
              | none => return none
              | some items => return some (item :: items)

/-- `_resolve_structural_dependency`, for a task with dependencies. -/
def resolveDependencies (enforcing : Bool) (deps : List Json) : Except PyExc SourceResolution :=
  let notYetRun := deps.filter fun t => (dictGet t ctx.evidenceByTaskId).isNone
  if ¬ deps.all hashable then .error (.typeError "unhashable type")
  else if notYetRun ≠ [] then
    if enforcing then
      .ok ⟨id, .missing, some "dependency_not_yet_run_at_enforcement", notYetRun, null⟩
    else .ok ⟨id, .pendingProducer, some "scheduled_dependency_not_yet_run", notYetRun, null⟩
  else if deps.any fun dep =>
      (dictGet dep ctx.evidenceByTaskId).any fun r => r.status ≠ .completed then
    .ok (missing id "dependency_not_completed")
  else do
    match ← structuralItems py ctx (← slice maxMaterialListItems task.dependencies) with
    | none => return missing id "dependency_material_unavailable"
    | some items =>
        return ⟨id, .available, none, deps,
          .obj [("dependencies", boundedItems items deps.length)]⟩

/-- `_resolve_structural_dependency` -/
def resolveStructuralDependency (enforcing : Bool) : Except PyExc SourceResolution :=
  if ¬ task.dependencies.truthy then .ok (missing id "no_dependencies_declared")
  else do resolveDependencies py id task ctx enforcing (← task.dependencies.iter)

/-! ### Sources produced by assignments -/

/-- `str.split("|")` on characters. -/
def splitBar : List Char → List (List Char)
  | [] => [[]]
  | c :: cs =>
      if c = '|' then [] :: splitBar cs
      else match splitBar cs with
        | part :: parts => (c :: part) :: parts
        | [] => [[c]]

/-- `_parse_kv_observation` -/
def parseKvObservation (observation : String) : List (String × String) :=
  (splitBar observation.toList).foldl (fun acc part =>
    let text := (strip (String.ofList part)).toList
    if '=' ∈ text then
      let key := strip (String.ofList (text.takeWhile (· ≠ '=')))
      let value := strip (String.ofList ((text.dropWhile (· ≠ '=')).drop 1))
      if key = "" then acc else (acc.filter fun kv => kv.1 ≠ key) ++ [(key, value)]
    else acc) []

def kvGet (key : String) (kvs : List (String × String)) : Option String :=
  (kvs.find? fun kv => kv.1 = key).map (·.2)

/-- The rows of the `evidence` array whose source is `tag`, parsed. -/
def taggedRows (py : Stdlib) (tag : String) (record : EvidenceRecord) :
    Except PyExc (List (List (String × String))) := do
  match ← recordPayload py record with
  | none => return []
  | some payload =>
      match fieldOf payload "evidence" with
      | .arr rows =>
          return rows.filterMap fun row =>
            match row with
            | .obj kvs =>
                match fieldOf kvs "source", fieldOf kvs "observation" with
                | .str source, .str observation =>
                    if source = tag then some (parseKvObservation observation) else none
                | _, _ => none
            | _ => none
      | _ => return []

/-- `canonical_id in extract_produced_source_ids(record)` -/
def marksSource (record : EvidenceRecord) : Except PyExc Bool := do
  let rows ← taggedRows py "produced_source" record
  return rows.any fun kvs => kvGet "source_id" kvs = some id && (sourceKind id).isSome

/-- `_material_rows_for` -/
def materialRowsFor (record : EvidenceRecord) : Except PyExc (List (List (String × String))) := do
  let rows ← taggedRows py ("material:" ++ id) record
  return (rows.map fun kvs =>
    (kvs.filter fun kv => ["locator", "command", "result", "verdict", "fact"].contains kv.1).map
      fun kv => (kv.1, takeChars maxMaterialTextChars kv.2)).take maxMaterialListItems

/-- `kv.get(key, "").strip()` -/
def hasText (key : String) (kvs : List (String × String)) : Bool :=
  nonBlank ((kvGet key kvs).getD "")

/-- `evaluate_produced_source_material`: `_MATERIAL_VALIDATORS` on the rows. -/
def materialSuffices (rows : List (List (String × String))) : Bool :=
  match id with
  | "implementation_diff" => rows.any (hasText "locator")
  | "test_evidence" => rows.any fun kvs => hasText "command" kvs && hasText "result" kvs
  | "review_evidence" => rows.any (hasText "verdict")
  | "source_fact_cards" => rows.any fun kvs => hasText "fact" kvs && hasText "locator" kvs
  | _ => false

/-- The loop of `_resolve_assignment_produced` over the producers that have
run; `bare` are those that marked the source without material. -/
def resolveProducers (all : List Json) : List Json → List Json → Except PyExc SourceResolution
  | [], bare =>
      if bare ≠ [] then
        .ok ⟨id, .missing, some "produced_source_evidence_missing", bare, null⟩
      else .ok ⟨id, .missing, some "declared_producer_did_not_produce_source", all, null⟩
  | producer :: rest, bare => do
      match dictGet producer ctx.evidenceByTaskId with
      | none => .error (.exception "KeyError")
      | some record =>
          if ← marksSource py id record then
            let rows ← materialRowsFor py id record
            if materialSuffices id rows then
              return ⟨id, .available, none, [producer],
                .obj [("source_id", .str id), ("producer_task_id", producer),
                  ("evidence_id", .str record.evidenceId.1),
                  ("material", .arr (rows.map fun kvs =>
                    .obj (kvs.map fun kv => (kv.1, .str kv.2)))),
                  ("bounded", .bool true), ("authority", .str "provider_claim_only")]⟩
            else resolveProducers all rest (bare ++ [producer])
          else resolveProducers all rest bare

/-- `canonical_id in (contract.get("produces_sources") or [])` -/
def declares (contract : Json) : Except PyExc Bool := do
  let produces ← contract.get "produces_sources"
  if produces.truthy then
    match produces with
    | .arr xs => return xs.contains (.str id)
    | .obj kvs => return kvs.any fun kv => kv.1 == id
    | .str s => return decide (id.toList <:+: s.toList)
    | _ => throw (.typeError "argument is not iterable")
  else return false

/-- The dependencies whose family declares the source. -/
def declaredProducers : List Json → Except PyExc (List Json)
  | [] => .ok []
  | dep :: deps => do
      if ¬ dep.hashable then throw (.typeError "unhashable type")
      let here ← match dictGet dep ctx.taskFamilyById with
        | none | some null => pure false
        | some family =>
            declares id ((dictGet family ctx.familyContracts).getD (.obj []))
      let rest ← declaredProducers deps
      return if here then dep :: rest else rest

/-- `_resolve_assignment_produced` -/
def resolveAssignmentProduced (enforcing : Bool) : Except PyExc SourceResolution := do
  let producers ← declaredProducers id ctx (← task.dependencies.iter)
  let notYetRun := producers.filter fun t => (dictGet t ctx.evidenceByTaskId).isNone
  if producers = [] then .ok (missing id "no_declared_producer_in_dependencies")
  else if notYetRun ≠ [] then
    if enforcing then
      .ok ⟨id, .missing, some "producer_not_yet_run_at_enforcement", notYetRun, null⟩
    else .ok ⟨id, .pendingProducer, some "scheduled_producer_not_yet_run", notYetRun, null⟩
  else resolveProducers py id ctx producers producers []

end Resolvers

end Konoha
