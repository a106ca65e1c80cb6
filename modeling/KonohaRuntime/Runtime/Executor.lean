/-
Runtime/Executor.lean

`execute_or_resume_plan` and everything it does to the host, as programs.  Each
definition follows the source function of its name, in the source's order;
`_execute_or_resume_plan_locked` is cut into `resume` (dispatch on the loaded
state), `startTask` (mutation and gates), `prepare` (family, sources, readiness,
git) and `execute` (from the persisted `executing` on).

A Python `try` is a `match` on an `attempt`, with the exceptions its clauses name
and the others raised again.
-/
import KonohaRuntime.Runtime.Prompt

namespace Konoha

open Effects Json

variable (py : Stdlib)

/-! ### Files -/

/-- `load_persisted_plan` -/
def loadPersistedPlan (m : String) : Run MissionPlan := do
  missionDir py m
  let isFile ← perform (.isFile m .plan)
  if isFile then
    match ← Prog.attempt (perform (.readJson m .plan)) with
    | .error e =>
        if e.isReadError then
          .raise (.missionLookupError ("plan.json ilegible o corrupto para " ++ py.repr (.str m)))
        else .raise e
    | .ok raw => lift (parsePlan py m raw)
  else .raise (.missionLookupError ("No existe plan persistido para " ++ py.repr (.str m)))

/-- `_load_execution_state` -/
def loadExecutionState (m : String) : Run (Option ExecutionState) := do
  missionDir py m
  let isFile ← perform (.isFile m .state)
  if isFile then
    match ← Prog.attempt (perform (.readJson m .state)) with
    | .error e =>
        if e.isReadError then
          .raise (.executionStateError "execution_state.json ilegible o con JSON inválido")
        else .raise e
    | .ok raw => do
        let state ← lift (parseExecutionState py m raw)
        return some state
  else return none

/-- `_save_execution_state` -/
def saveExecutionState (frame : Frame) (state : ExecutionState) : Run Unit := do
  missionDir py state.missionId
  perform (.mkdirMission state.missionId)
  perform (.writeTmp state.missionId (state.asdict py))
  perform (.replaceState state.missionId frame state)

/-- `_try_save_execution_state` -/
def trySaveExecutionState (frame : Frame) (state : ExecutionState) : Run Bool := do
  match ← Prog.attempt (saveExecutionState py frame state) with
  | .ok _ => return true
  | .error e => if e.isOSError then return false else .raise e

/-- `_persist` -/
def persist (record : EvidenceRecord) : Run Unit := do
  perform (.mkdirEvidence record.missionId)
  perform (.writeEvidence record.missionId record.evidenceId record.asdict)

/-- `_try_persist_evidence` -/
def tryPersistEvidence (record : EvidenceRecord) : Run Bool := do
  match ← Prog.attempt (persist record) with
  | .ok _ => return true
  | .error e => if e.isOSError then return false else .raise e

/-! ### Evidence of the completed tasks -/

/-- One round of `_verify_completed_evidence`; `none` is
`missing_or_corrupt_completed_evidence`. -/
def verifyEvidenceFile (m : String) (taskId : Json) (id : EvidenceId) :
    Run (Option EvidenceRecord) := do
  let confined ← perform (.evidenceFileConfined m id)
  if confined then
    let isFile ← perform (.isFile m (.evidence id))
    if isFile then
      match ← Prog.attempt (perform (.readJson m (.evidence id))) with
      | .error e => if e.isReadError then return none else .raise e
      | .ok raw => return parseEvidence py m taskId id raw
    else return none
  else return none

/-- The loop of `_verify_completed_evidence`. -/
def verifyEvidenceFiles (m : String) (evidenceIdsByTask : List (Json × EvidenceId)) :
    List Json → Run (Option (List EvidenceRecord))
  | [] => return some []
  | taskId :: rest =>
      match dictGet taskId evidenceIdsByTask with
      | none => return none
      | some id => do
          match ← verifyEvidenceFile py m taskId id with
          | none => return none
          | some record =>
              match ← verifyEvidenceFiles m evidenceIdsByTask rest with
              | none => return none
              | some records => return some (record :: records)

/-- `_verify_completed_evidence` -/
def verifyCompletedEvidence (plan : MissionPlan) (state : ExecutionState) :
    Run (Option (List EvidenceRecord)) := do
  missionDir py plan.missionId
  let confined ← perform (.evidenceDirConfined plan.missionId)
  if confined then
    verifyEvidenceFiles py plan.missionId state.evidenceIdsByTask state.completedTaskIds
  else return none

/-! ### One assignment -/

/-- `_readiness_diagnostic` -/
def readinessDiagnostic (task : AgentAssignment) : Run (Option String) := do
  let readiness ← perform (.probeProvider task.provider)
  if ¬ readiness.available then return some ("provider_not_ready:" ++ py.str task.provider)
  else if task.provider = .str "ollama" ∧ task.model ∉ readiness.models.map Json.str then
    return some ("model_not_ready:ollama/" ++ py.str task.model)
  else return none

/-- What `_run_assignment` carries from the provider call to the record. -/
structure Outcome where
  status : EvidenceStatus
  diagnostic : String
  output : PyStr
  usage : Json
  command : Json
  deriving DecidableEq

/-- The outcome of a call that raised. -/
def processError (text : PyStr) : Outcome :=
  ⟨.failed, "process_error", text, .obj [], .arr []⟩

/-- The `try` of `_run_assignment` around the provider. -/
def callProvider (frame : Frame) (invocation : Invocation) (bundle : List (String × Json)) :
    Run Outcome :=
  let task := invocation.task
  match taskPrompt py frame.plan task invocation.family bundle with
  | .error e => .ret (processError e.text)
  | .ok prompt => do
      match ← Prog.attempt (perform
        (.invoke frame.plan.missionId task.provider prompt task.model frame invocation)) with
      | .error e => if e.isException then return processError e.text else .raise e
      | .ok result =>
          let (status, diagnostic) ←
            lift (assignmentOutcome py.interpreter result.text task.family)
          return ⟨status, diagnostic, result.text, result.usage, result.command⟩

/-- The check of `_run_assignment` that the workspace is as it was. -/
def checkWorkspace (baseline : String) (outcome : Outcome) : Run Outcome := do
  match ← Prog.attempt (perform .gitStatus) with
  | .error (.gitStatusError diagnostic _) =>
      return { outcome with
        status := .failed
        diagnostic := diagnostic.text
        output := .ofString
          (diagnostic.text ++ ": la verificación Git posterior a la ejecución falló.") }
  | .error e => .raise e
  | .ok after =>
      if after = baseline then return outcome
      else return { outcome with
        status := .failed
        diagnostic := "workspace_mutation_detected"
        output := .ofString ("El estado Git cambió durante una tarea read-only. " ++
          "La ejecución fue detenida.\n\nANTES:\n" ++ baseline ++ "\nDESPUÉS:\n" ++ after) }

/-- `_run_assignment` -/
def runAssignment (frame : Frame) (invocation : Invocation) (baseline : String)
    (bundle : List (String × Json)) : Run (EvidenceRecord × String) := do
  let started ← perform .time
  let called ← callProvider py frame invocation bundle
  let outcome ← checkWorkspace baseline called
  let finished ← perform .time
  let id ← perform .evidenceId
  -- `EvidenceRecord.build` hashes the output, and raises where it cannot be encoded
  let output ← lift outcome.output.encode
  return ({
    evidenceId := id
    missionId := frame.plan.missionId
    taskId := invocation.task.taskId
    provider := invocation.task.provider
    model := invocation.task.model
    status := outcome.status
    output := output
    tokenUsage := outcome.usage
    command := outcome.command
    startedAt := .float started
    finishedAt := .float finished
    outputHash := py.sha256 output }, outcome.diagnostic)

/-! ### The locked step -/

/-- The attempt of a call that leaves the state it found. -/
def unchanged (frame : Frame) (diagnostic : String) : ExecutionAttempt :=
  ⟨some frame.state, [], diagnostic⟩

/-- Persist a transition; its diagnostic, or that of the failed write. -/
def settle (frame : Frame) (written : ExecutionState) (diagnostic onFailure : String) :
    Run ExecutionAttempt := do
  if ← trySaveExecutionState py frame written then return ⟨some written, [], diagnostic⟩
  else return unchanged frame onFailure

/-- `_recover` -/
def recover (now : Timestamp) (frame : Frame) (diagnostic : String) : Run ExecutionAttempt :=
  settle py frame (recoveryResult frame.state diagnostic now.1) diagnostic
    "recovery_persist_failed"

/-- `_fail_before_execution` -/
def failBeforeExecution (now : Timestamp) (frame : Frame) (task : AgentAssignment)
    (diagnostic : String) (consumed : Option Digest) : Run ExecutionAttempt :=
  settle py frame (transitionToFailedBeforeExecution frame.state task diagnostic consumed now.1)
    diagnostic "failed_before_execution_persist_failed"

/-- `_block_before_execution` -/
def blockBeforeExecution (now : Timestamp) (frame : Frame) (task : AgentAssignment)
    (diagnostic : String) : Run ExecutionAttempt :=
  settle py frame (transitionToBlocked frame.state task diagnostic now.1) diagnostic
    "blocked_before_execution_persist_failed"

/-- The transition that an evidence record calls for. -/
def transitionAfterAssignment (executing : ExecutionState) (plan : MissionPlan)
    (task : AgentAssignment) (evidence : EvidenceRecord) (approvalIdToConsume : Option Digest)
    (diagnostic updatedAt : String) : ExecutionState :=
  match evidence.status with
  | .completed =>
      transitionAfterCompletedAssignment executing plan task evidence approvalIdToConsume updatedAt
  | .blocked =>
      transitionAfterBlockedAssignment executing task approvalIdToConsume diagnostic updatedAt
  | .failed =>
      transitionAfterFailedAssignment executing task approvalIdToConsume diagnostic updatedAt

/-- From the persisted `executing` to the final transition. -/
def execute (now : Timestamp) (frame : Frame) (task : AgentAssignment) (family : Json)
    (records : List EvidenceRecord) (bundle : List (String × Json)) (baseline : String)
    (approvalIdToConsume : Option Digest) : Run ExecutionAttempt := do
  let executing := transitionToExecuting frame.state task approvalIdToConsume now.1
  if ← trySaveExecutionState py frame executing then
    let (evidence, diagnostic) ←
      runAssignment py frame ⟨task, family, records, executing⟩ baseline bundle
    if ← tryPersistEvidence evidence then
      let finishedAt ← perform .utcNow
      let written := transitionAfterAssignment executing frame.plan task evidence
        approvalIdToConsume diagnostic finishedAt.1
      if ← trySaveExecutionState py frame written then
        return ⟨some written, [evidence], diagnostic⟩
      else return ⟨some executing, [evidence], "final_transition_persist_failed"⟩
    else return ⟨some executing, [], "evidence_persist_failed"⟩
  else return unchanged frame "executing_persist_failed"

/-- Family, sources, readiness and git, once the gate of the task is open. -/
def prepare (now : Timestamp) (frame : Frame) (task : AgentAssignment)
    (records : List EvidenceRecord) (approvalIdToConsume : Option Digest) :
    Run ExecutionAttempt := do
  match ← Prog.attempt (perform (.agentFamily task.family)) with
  | .error (.registryError _) =>
      failBeforeExecution py now frame task "unknown_agent_family" approvalIdToConsume
  | .error e => .raise e
  | .ok family =>
      let gate ← requiredSourcesGate py frame.plan task family records
      match gate.diagnostic with
      | some diagnostic => return unchanged frame diagnostic
      | none =>
          match ← readinessDiagnostic py task with
          | some diagnostic => return unchanged frame diagnostic
          | none =>
              match ← Prog.attempt (perform .gitStatus) with
              | .error (.gitStatusError diagnostic _) =>
                  failBeforeExecution py now frame task diagnostic.text none
              | .error e => .raise e
              | .ok baseline =>
                  execute py now frame task family records gate.resolvedSourceBundle baseline
                    approvalIdToConsume

/-- The separate gate: ask for an approval, or check the one supplied. -/
def separateGate (now : Timestamp) (frame : Frame) (task : AgentAssignment)
    (records : List EvidenceRecord) : Run ExecutionAttempt := do
  if frame.state.status ≠ .waitingForApproval then
    let nonce ← perform (.tokenHex frame.plan.missionId)
    settle py frame
      (transitionToWaiting frame.state task nonce "esperando aprobación humana" now.1)
      "waiting_for_approval" "waiting_persist_failed"
  else if frame.approval = .absent then return unchanged frame "waiting_for_approval"
  else match validateAssignmentApproval py frame.approval frame.plan frame.state task with
    | .rejected _ reason => return unchanged frame reason
    | .valid approvalId => prepare py now frame task records (some approvalId)

/-- Mutation and gates of the current task. -/
def startTask (now : Timestamp) (frame : Frame) (task : AgentAssignment)
    (records : List EvidenceRecord) : Run ExecutionAttempt :=
  if task.mutation.truthy then
    blockBeforeExecution py now frame task "mutation_runtime_not_supported"
  else if task.executionGate = planApproval then do
    let status ← lift (frame.plan.approval.get "status")
    if status = .str "approved" then prepare py now frame task records none
    else return unchanged frame "plan_approval_not_satisfied"
  else if task.executionGate = separateHumanApproval then separateGate py now frame task records
  else failBeforeExecution py now frame task "unknown_execution_gate" none

/-- The dispatch on the loaded state. -/
def resume (now : Timestamp) (frame : Frame) : Run ExecutionAttempt := do
  match ← lift (validateExecutionStateInvariants py frame.plan frame.state) with
  | some diagnostic => recover py now frame diagnostic
  | none =>
      if frame.state.status.nonResumable then
        return unchanged frame ("non_resumable_status:" ++ frame.state.status.text)
      else if frame.state.status = .executing then
        recover py now frame "interrupted_while_executing"
      else
        match ← verifyCompletedEvidence py frame.plan frame.state with
        | none => recover py now frame "missing_or_corrupt_completed_evidence"
        | some records =>
            match frame.plan.currentTask frame.state with
            | none => recover py now frame "cursor_exhausted_without_completed_status"
            | some task => startTask py now frame task records

/-- `_execute_or_resume_plan_locked` -/
def executeOrResumePlanLocked (m : String) (approval : ApprovalArg) : Run ExecutionAttempt := do
  let now ← perform .utcNow
  match ← Prog.attempt (loadPersistedPlan py m) with
  | .error (.missionLookupError _) => return ⟨none, [], "plan_load_error"⟩
  | .error e => .raise e
  | .ok plan =>
      if plan.assignments = [] then return ⟨none, [], "empty_plan_assignments"⟩
      else
        match ← Prog.attempt (loadExecutionState py m) with
        | .error (.executionStateError _) => return ⟨none, [], "state_load_error"⟩
        | .error e => .raise e
        | .ok existing =>
            resume py now ⟨plan, existing.getD (newExecutionState py plan now.1), approval⟩

/-! ### The mission lock -/

/-- `_MissionLock.acquire` -/
def acquire (m : String) : Run Bool := do
  match ← Prog.attempt (perform (.mkdirMission m)) with
  | .error e =>
      if e.isOSError then
        .raise (.executionStateError
          ("No se pudo preparar el directorio de execution.lock: " ++ e.osText))
      else .raise e
  | .ok _ =>
      match ← Prog.attempt (perform (.createLock m)) with
      | .error (.fileExistsError _) => return false
      | .error e =>
          if e.isOSError then
            .raise (.executionStateError ("No se pudo crear execution.lock: " ++ e.osText))
          else .raise e
      | .ok _ =>
          match ← Prog.attempt (perform (.closeLock m)) with
          | .ok _ => return true
          | .error e =>
              if e.isOSError then
                match ← Prog.attempt (perform (.unlinkLock m)) with
                | .error u =>
                    if u.isOSError then
                      .raise (.executionStateError
                        ("No se pudo finalizar execution.lock: " ++ e.osText))
                    else .raise u
                | .ok _ =>
                    .raise (.executionStateError
                      ("No se pudo finalizar execution.lock: " ++ e.osText))
              else .raise e

/-- `_MissionLock.release`, for a lock that is held. -/
def release (m : String) : Run Unit := do
  match ← Prog.attempt (perform (.unlinkLock m)) with
  | .ok _ => return ()
  | .error (.fileNotFoundError _) => return ()
  | .error e =>
      if e.isOSError then
        .raise (.executionStateError ("No se pudo liberar execution.lock: " ++ e.osText))
      else .raise e

/-- `execute_or_resume_plan` -/
def executeOrResumePlan (m : String) (approval : ApprovalArg) : Run ExecutionAttempt :=
  if ¬ isMissionId m then .ret ⟨none, [], "unsafe_mission_id"⟩
  else do
    missionDir py m
    match ← Prog.attempt (acquire m) with
    | .error (.executionStateError _) => return ⟨none, [], "lock_acquire_error"⟩
    | .error e => .raise e
    | .ok false => return ⟨none, [], "lock_busy"⟩
    | .ok true =>
        match ← Prog.attempt (executeOrResumePlanLocked py m approval) with
        | .error body =>
            match ← Prog.attempt (release m) with
            | .ok _ => .raise body
            | .error (.executionStateError _) => .raise body
            | .error e => .raise e
        | .ok attempt =>
            match ← Prog.attempt (release m) with
            | .ok _ => return attempt
            | .error (.executionStateError _) =>
                return { attempt with diagnostic := "lock_release_error" }
            | .error e => .raise e

end Konoha
