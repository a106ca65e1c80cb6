/-
Runtime/Models.lean

The dataclasses of the resumable runtime.

`load_persisted_plan` checks which fields `plan.json` has and nothing about
their values, so a field of a plan or an assignment is any JSON value here; the
one exception is `mission_id`, which must be the string that was asked for.
What an execution state copies from the plan (task ids and gates) is therefore
`Json` too.
-/
import KonohaRuntime.Base.Dumps

namespace Konoha

/-! ### Plans -/

structure AgentAssignment where
  taskId : Json
  family : Json
  provider : Json
  model : Json
  objective : Json
  inputs : Json
  expectedOutput : Json
  dependencies : Json
  privateContext : Json
  network : Json
  mutation : Json
  estimatedInputTokens : Json
  estimatedOutputTokens : Json
  estimatedTotalTokens : Json
  costClass : Json
  fallback : Json
  stopCondition : Json
  executionGate : Json
  deriving DecidableEq, Inhabited

structure MissionPlan where
  missionId : String
  understanding : Json
  explicitFacts : Json
  missingContext : Json
  assumptionsProhibited : Json
  complexity : Json
  assignments : List AgentAssignment
  acceptanceCriteria : Json
  approvalBoundaries : Json
  estimatedTokens : Json
  estimatedCostClass : Json
  rationale : Json
  approval : Json
  teachbackPolicy : Json
  workspacePolicy : Json
  budget : Json
  governance : Json
  planHash : Json
  /-- `null` for a plan of before v4.0.1 -/
  missionConstraints : Json
  /-- `null` for a plan without repository evidence -/
  repositoryEvidence : Json
  deriving DecidableEq

/-! ### Evidence -/

inductive EvidenceStatus
  | completed
  | blocked
  | failed
  deriving DecidableEq

def EvidenceStatus.text : EvidenceStatus → String
  | completed => "completed"
  | blocked => "blocked"
  | failed => "failed"

structure EvidenceRecord where
  evidenceId : EvidenceId
  missionId : String
  taskId : Json
  provider : Json
  model : Json
  status : EvidenceStatus
  output : String
  tokenUsage : Json
  command : Json
  startedAt : Json
  finishedAt : Json
  outputHash : Digest
  deriving DecidableEq

/-! ### Execution states -/

/-- `EXECUTION_STATUSES` -/
inductive ExecutionStatus
  | inProgress
  | waitingForApproval
  | executing
  | completed
  | failed
  | blocked
  | recoveryRequired
  deriving DecidableEq

namespace ExecutionStatus

def text : ExecutionStatus → String
  | inProgress => "in_progress"
  | waitingForApproval => "waiting_for_approval"
  | executing => "executing"
  | completed => "completed"
  | failed => "failed"
  | blocked => "blocked"
  | recoveryRequired => "recovery_required"

def all : List ExecutionStatus :=
  [inProgress, waitingForApproval, executing, completed, failed, blocked, recoveryRequired]

/-- The status with a given text. -/
def parse (s : String) : Option ExecutionStatus := all.find? fun st => st.text == s

@[simp] theorem parse_text (st : ExecutionStatus) : parse st.text = some st := by
  cases st <;> decide

/-- `NON_RESUMABLE_EXECUTION_STATUSES` -/
def nonResumable : ExecutionStatus → Bool
  | completed | failed | blocked | recoveryRequired => true
  | inProgress | waitingForApproval | executing => false

end ExecutionStatus

/-- Persisted progress of one mission.  `schema_version` is the constant
`"1.0"` in every value built or loaded, so it is no field. -/
structure ExecutionState where
  missionId : String
  planIdentity : Digest
  status : ExecutionStatus
  nextAssignmentIndex : Nat
  completedTaskIds : List Json
  pendingTaskId : Json
  pendingExecutionGate : Json
  approvalNonce : Option String
  activeApprovalId : Option Digest
  consumedApprovalIds : List Digest
  evidenceIdsByTask : List (Json × EvidenceId)
  executingTaskId : Json
  pauseReason : Option String
  diagnostic : Option String
  updatedAt : String
  deriving DecidableEq

/-! ### Approvals -/

structure AssignmentApproval where
  missionId : String
  taskId : String
  executionGate : String
  planIdentity : String
  approvalNonce : String
  approvalText : String
  approvalSource : String
  approvedAt : String
  deriving DecidableEq

/-- What a caller may pass as `approval`: `None`, an object of another class,
an `AssignmentApproval` one of whose fields is no string, or a proper one. -/
inductive ApprovalArg
  | absent
  | foreign
  | illTyped
  | given (a : AssignmentApproval)
  deriving DecidableEq

/-! ### Attempts -/

/-- The result of one call of `execute_or_resume_plan`. -/
structure ExecutionAttempt where
  state : Option ExecutionState
  evidence : List EvidenceRecord
  diagnostic : String
  deriving DecidableEq

end Konoha
