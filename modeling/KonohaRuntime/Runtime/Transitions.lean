/-
Runtime/Transitions.lean

The pure transitions of the resumable runtime.  Each takes the timestamp it
stamps and returns a new state; the clock and the random numbers live in
`execute_or_resume_plan` only.
-/
import KonohaRuntime.Runtime.PlanFile

namespace Konoha

open Json

/-- The two gates that the runtime knows: `EXECUTION_GATES`. -/
def planApproval : Json := .str "plan_approval"

def separateHumanApproval : Json := .str "separate_human_approval"

/-- `_new_execution_state` -/
def newExecutionState (py : Stdlib) (plan : MissionPlan) (updatedAt : String) :
    ExecutionState where
  missionId := plan.missionId
  planIdentity := planIdentity py plan
  status := .inProgress
  nextAssignmentIndex := 0
  completedTaskIds := []
  pendingTaskId := null
  pendingExecutionGate := null
  approvalNonce := none
  activeApprovalId := none
  consumedApprovalIds := []
  evidenceIdsByTask := []
  executingTaskId := null
  pauseReason := none
  diagnostic := none
  updatedAt := updatedAt

/-- `d[k] = v` on a dict kept as a list of pairs. -/
def setKey (k : Json) (v : EvidenceId) :
    List (Json × EvidenceId) → List (Json × EvidenceId)
  | [] => [(k, v)]
  | (l, u) :: rest => if l = k then (k, v) :: rest else (l, u) :: setKey k v rest

/-- Append an approval to the consumed ones, once. -/
def consume (id : Option Digest) (consumed : List Digest) : List Digest :=
  match id with
  | some id => if id ∈ consumed then consumed else consumed ++ [id]
  | none => consumed

variable (state : ExecutionState) (plan : MissionPlan) (task : AgentAssignment)

/-- `_transition_to_blocked` -/
def transitionToBlocked (reason updatedAt : String) : ExecutionState :=
  { state with
    status := .blocked
    pendingTaskId := task.taskId
    pendingExecutionGate := task.executionGate
    approvalNonce := none
    activeApprovalId := none
    executingTaskId := null
    pauseReason := some reason
    diagnostic := some reason
    updatedAt := updatedAt }

/-- `_transition_to_waiting` -/
def transitionToWaiting (nonce : Nonce) (pauseReason updatedAt : String) : ExecutionState :=
  { state with
    status := .waitingForApproval
    pendingTaskId := task.taskId
    pendingExecutionGate := task.executionGate
    approvalNonce := some nonce.1
    activeApprovalId := none
    executingTaskId := null
    pauseReason := some pauseReason
    diagnostic := none
    updatedAt := updatedAt }

/-- `_transition_to_executing`: the nonce and the approval stay only under the
separate gate. -/
def transitionToExecuting (activeApprovalId : Option Digest) (updatedAt : String) :
    ExecutionState :=
  { state with
    status := .executing
    pendingTaskId := task.taskId
    pendingExecutionGate := task.executionGate
    executingTaskId := task.taskId
    approvalNonce := if task.executionGate = separateHumanApproval then state.approvalNonce else none
    activeApprovalId := if task.executionGate = separateHumanApproval then activeApprovalId else none
    pauseReason := none
    diagnostic := none
    updatedAt := updatedAt }

/-- `_transition_after_completed_assignment` -/
def transitionAfterCompletedAssignment (evidence : EvidenceRecord)
    (approvalIdToConsume : Option Digest) (updatedAt : String) : ExecutionState :=
  { state with
    status := if plan.assignments.length ≤ state.nextAssignmentIndex + 1 then .completed
      else .inProgress
    nextAssignmentIndex := state.nextAssignmentIndex + 1
    completedTaskIds := state.completedTaskIds ++ [task.taskId]
    pendingTaskId := null
    pendingExecutionGate := null
    approvalNonce := none
    activeApprovalId := none
    executingTaskId := null
    pauseReason := none
    diagnostic := none
    evidenceIdsByTask := setKey task.taskId evidence.evidenceId state.evidenceIdsByTask
    consumedApprovalIds := consume approvalIdToConsume state.consumedApprovalIds
    updatedAt := updatedAt }

/-- The common part of the three ways to stop at a task: `failed` and `blocked`
keep the cursor and the completed tasks. -/
def stopAt (status : ExecutionStatus) (pauseReason : Option String)
    (approvalIdToConsume : Option Digest) (diagnostic updatedAt : String) : ExecutionState :=
  { state with
    status := status
    pendingTaskId := task.taskId
    pendingExecutionGate := task.executionGate
    executingTaskId := null
    activeApprovalId := none
    approvalNonce := none
    pauseReason := pauseReason
    diagnostic := some diagnostic
    consumedApprovalIds := consume approvalIdToConsume state.consumedApprovalIds
    updatedAt := updatedAt }

/-- `_transition_after_failed_assignment` -/
def transitionAfterFailedAssignment (approvalIdToConsume : Option Digest)
    (diagnostic updatedAt : String) : ExecutionState :=
  stopAt state task .failed none approvalIdToConsume diagnostic updatedAt

/-- `_transition_after_blocked_assignment` -/
def transitionAfterBlockedAssignment (approvalIdToConsume : Option Digest)
    (diagnostic updatedAt : String) : ExecutionState :=
  stopAt state task .blocked (some diagnostic) approvalIdToConsume diagnostic updatedAt

/-- `_transition_to_failed_before_execution` -/
def transitionToFailedBeforeExecution (diagnostic : String)
    (approvalIdToConsume : Option Digest) (updatedAt : String) : ExecutionState :=
  stopAt state task .failed none approvalIdToConsume diagnostic updatedAt

/-- `_recovery_result` -/
def recoveryResult (diagnostic updatedAt : String) : ExecutionState :=
  { state with
    status := .recoveryRequired
    diagnostic := some diagnostic
    updatedAt := updatedAt }

/-! ### The evidence map and the consumed approvals -/

/-- Writing a key adds it to the keys, at the end if it is new. -/
theorem map_fst_setKey (k : Json) (v : EvidenceId) (kvs : List (Json × EvidenceId)) :
    (setKey k v kvs).map (·.1) =
      if k ∈ kvs.map (·.1) then kvs.map (·.1) else kvs.map (·.1) ++ [k] := by
  induction kvs with
  | nil => simp [setKey]
  | cons kv kvs ih =>
      obtain ⟨l, u⟩ := kv
      by_cases hl : l = k
      · simp [setKey, hl]
      · have hl' : ¬ k = l := fun h => hl h.symm
        simp only [setKey, hl, if_false, List.map_cons, ih, List.mem_cons, hl', false_or]
        split <;> rfl

theorem mem_map_fst_setKey {k l : Json} {v : EvidenceId} {kvs : List (Json × EvidenceId)}
    (h : l ∈ (setKey k v kvs).map (·.1)) : l ∈ kvs.map (·.1) ∨ l = k := by
  rw [map_fst_setKey] at h
  split at h
  · exact .inl h
  · simpa using h

theorem consume_nodup {id : Option Digest} {consumed : List Digest} (h : consumed.Nodup) :
    (consume id consumed).Nodup := by
  unfold consume
  split
  · split
    · exact h
    · rename_i hn
      exact List.nodup_append.mpr ⟨h, by simp, by
        rintro a ha b hb rfl
        exact hn (by simpa using List.mem_singleton.mp hb ▸ ha)⟩
  · exact h

theorem prefix_consume (id : Option Digest) (consumed : List Digest) :
    consumed <+: consume id consumed := by
  unfold consume
  split
  · split
    · exact List.prefix_rfl
    · exact List.prefix_append _ _
  · exact List.prefix_rfl

end Konoha
