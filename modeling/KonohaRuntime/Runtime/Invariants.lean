/-
Runtime/Invariants.lean

`_validate_execution_state_invariants`, and `Coherent`, the property it decides.
-/
import KonohaRuntime.Runtime.Transitions

namespace Konoha

open Json

/-- The task ids of a plan, in order. -/
def MissionPlan.taskIds (plan : MissionPlan) : List Json := plan.assignments.map (·.taskId)

/-- The diagnostic, unless the property holds. -/
def unlessHolds (p : Prop) [Decidable p] (diagnostic : String) : Option String :=
  if p then none else some diagnostic

@[simp] theorem unlessHolds_eq_none {p : Prop} [Decidable p] {d : String} :
    unlessHolds p d = none ↔ p := by
  simp [unlessHolds]

/-! ### The checks -/

/-- `_verify_prefix`.  The ids in a state can be hashed: they come from a string
in the file or passed the set of `validateExecutionStateInvariants`. -/
def verifyPrefix (plan : MissionPlan) (state : ExecutionState) : Option String :=
  if ¬ state.completedTaskIds.Nodup then some "completed_task_ids_duplicated"
  else if plan.taskIds.take state.completedTaskIds.length ≠ state.completedTaskIds then
    some "completed_task_ids_not_a_prefix"
  else if state.nextAssignmentIndex ≠ state.completedTaskIds.length then
    some "cursor_index_mismatch"
  else none

/-- `referenced_task_ids`, without the `None`s. -/
def ExecutionState.referencedTaskIds (state : ExecutionState) : List Json :=
  (state.pendingTaskId :: state.executingTaskId :: state.evidenceIdsByTask.map (·.1)).filter
    fun id => id ≠ null

/-- The task a cursor points at. -/
def MissionPlan.currentTask (plan : MissionPlan) (state : ExecutionState) :
    Option AgentAssignment :=
  plan.assignments[state.nextAssignmentIndex]?

/-- No field of an episode is set. -/
def ExecutionState.Idle (state : ExecutionState) : Prop :=
  state.pendingTaskId = null ∧ state.pendingExecutionGate = null ∧ state.approvalNonce = none ∧
    state.activeApprovalId = none ∧ state.executingTaskId = null

instance (state : ExecutionState) : Decidable state.Idle := by
  unfold ExecutionState.Idle; infer_instance

/-- The fields of a waiting state, at its current task. -/
def ExecutionState.WaitsFor (state : ExecutionState) (task : AgentAssignment) : Prop :=
  task.executionGate = separateHumanApproval ∧ state.pendingTaskId = task.taskId ∧
    state.pendingExecutionGate = separateHumanApproval ∧ state.approvalNonce ≠ none ∧
    state.activeApprovalId = none ∧ state.executingTaskId = null ∧
    nonEmptyStr (ofOption state.pauseReason) = true

instance (state : ExecutionState) (task : AgentAssignment) : Decidable (state.WaitsFor task) := by
  unfold ExecutionState.WaitsFor; infer_instance

/-- The test for a consumed id is lawful. -/
theorem lawfulBEq_digest : LawfulBEq Digest := inferInstance

attribute [local instance] lawfulBEq_digest

/-- The approval fields of an executing state, by the gate of its task. -/
def ExecutionState.CarriesApproval (state : ExecutionState) (task : AgentAssignment) : Prop :=
  (task.executionGate = separateHumanApproval ∧ state.approvalNonce ≠ none ∧
      ∃ id ∈ state.activeApprovalId, id ∉ state.consumedApprovalIds) ∨
    (task.executionGate = planApproval ∧ state.approvalNonce = none ∧
      state.activeApprovalId = none)

instance (state : ExecutionState) (task : AgentAssignment) :
    Decidable (state.CarriesApproval task) := by
  unfold ExecutionState.CarriesApproval; infer_instance

/-- The fields of an executing state, at its current task. -/
def ExecutionState.Executes (state : ExecutionState) (task : AgentAssignment) : Prop :=
  state.executingTaskId = task.taskId ∧ state.pendingTaskId = task.taskId ∧
    state.pendingExecutionGate = task.executionGate ∧ state.CarriesApproval task

instance (state : ExecutionState) (task : AgentAssignment) : Decidable (state.Executes task) := by
  unfold ExecutionState.Executes; infer_instance

/-- The fields of a failed or blocked state, at its current task; `reason` is
the text that must be there. -/
def ExecutionState.StoppedAt (state : ExecutionState) (task : AgentAssignment)
    (reason : Option String) : Prop :=
  state.pendingTaskId = task.taskId ∧ state.pendingExecutionGate = task.executionGate ∧
    state.executingTaskId = null ∧ state.activeApprovalId = none ∧ state.approvalNonce = none ∧
    nonEmptyStr (ofOption reason) = true

instance (state : ExecutionState) (task : AgentAssignment) (reason : Option String) :
    Decidable (state.StoppedAt task reason) := by
  unfold ExecutionState.StoppedAt; infer_instance

/-- The part of `_validate_execution_state_invariants` that depends on the
status.  The status is one of seven by its type. -/
def statusError (plan : MissionPlan) (state : ExecutionState) : Option String :=
  match state.status with
  | .inProgress => unlessHolds state.Idle "invalid_state_for_in_progress"
  | .waitingForApproval =>
      unlessHolds (∃ task ∈ plan.currentTask state, state.WaitsFor task)
        "invalid_state_for_waiting_for_approval"
  | .executing =>
      unlessHolds (∃ task ∈ plan.currentTask state, state.Executes task)
        "invalid_state_for_executing"
  | .completed =>
      unlessHolds (state.nextAssignmentIndex = plan.assignments.length ∧
        state.completedTaskIds = plan.taskIds ∧ state.Idle) "invalid_state_for_completed"
  | .failed =>
      unlessHolds (∃ task ∈ plan.currentTask state, state.StoppedAt task state.diagnostic)
        "invalid_state_for_failed"
  | .blocked =>
      unlessHolds (∃ task ∈ plan.currentTask state, state.StoppedAt task state.pauseReason)
        "invalid_state_for_blocked"
  | .recoveryRequired =>
      unlessHolds (nonEmptyStr (ofOption state.diagnostic) = true)
        "invalid_state_for_recovery_required"

/-- `_validate_execution_state_invariants`.  Building the set of the plan's task
ids raises `TypeError` when one of them is a list or an object.  The format of
`active_approval_id` is checked by its type. -/
def validateExecutionStateInvariants (py : Stdlib) (plan : MissionPlan)
    (state : ExecutionState) : Except PyExc (Option String) :=
  if state.missionId ≠ plan.missionId then .ok (some "mission_id_mismatch")
  else if state.planIdentity ≠ planIdentity py plan then .ok (some "plan_drift")
  else if plan.assignments = [] then .ok (some "empty_plan_assignments")
  else if plan.assignments.length < state.nextAssignmentIndex then
    .ok (some "cursor_out_of_range")
  else match verifyPrefix plan state with
    | some diagnostic => .ok (some diagnostic)
    | none =>
        if ¬ plan.taskIds.all hashable then .error (.typeError "unhashable type")
        else if ¬ ∀ id ∈ state.referencedTaskIds, id ∈ plan.taskIds then
          .ok (some "unknown_referenced_task")
        else if ¬ ∀ n ∈ state.approvalNonce, isHex 32 n.toList = true then
          .ok (some "invalid_approval_nonce")
        else if ∃ id ∈ state.activeApprovalId, id ∈ state.consumedApprovalIds then
          .ok (some "active_approval_id_already_consumed")
        else .ok (statusError plan state)

/-! ### What the checks decide -/

/-- A state that fits a plan and its own status. -/
structure Coherent (py : Stdlib) (plan : MissionPlan) (s : ExecutionState) : Prop where
  missionId : s.missionId = plan.missionId
  planIdentity : s.planIdentity = planIdentity py plan
  nonempty : plan.assignments ≠ []
  nodup : s.completedTaskIds.Nodup
  isPrefix : plan.taskIds.take s.completedTaskIds.length = s.completedTaskIds
  cursor : s.nextAssignmentIndex = s.completedTaskIds.length
  hashable : plan.taskIds.all Json.hashable = true
  referenced : ∀ id ∈ s.referencedTaskIds, id ∈ plan.taskIds
  nonce : ∀ n ∈ s.approvalNonce, isHex 32 n.toList = true
  active : ∀ id ∈ s.activeApprovalId, id ∉ s.consumedApprovalIds
  status : statusError plan s = none

theorem Coherent.cursor_le {py : Stdlib} {plan : MissionPlan} {s : ExecutionState}
    (h : Coherent py plan s) : s.nextAssignmentIndex ≤ plan.assignments.length := by
  have hlen := congrArg List.length h.isPrefix
  rw [List.length_take, MissionPlan.taskIds, List.length_map] at hlen
  rw [h.cursor]
  omega

theorem verifyPrefix_eq_none {plan : MissionPlan} {s : ExecutionState} :
    verifyPrefix plan s = none ↔ s.completedTaskIds.Nodup ∧
      plan.taskIds.take s.completedTaskIds.length = s.completedTaskIds ∧
      s.nextAssignmentIndex = s.completedTaskIds.length := by
  unfold verifyPrefix
  split_ifs <;> simp_all

/-- **The checks decide coherence.** -/
theorem validate_eq_none_iff {py : Stdlib} {plan : MissionPlan} {s : ExecutionState} :
    validateExecutionStateInvariants py plan s = .ok none ↔ Coherent py plan s := by
  constructor
  · intro h
    unfold validateExecutionStateInvariants at h
    split at h
    · cases h
    split at h
    · cases h
    split at h
    · cases h
    split at h
    · cases h
    split at h
    · cases h
    rename_i hm hi hne hc _ hv
    obtain ⟨hnd, hpre, hcur⟩ := verifyPrefix_eq_none.mp hv
    split at h
    · cases h
    split at h
    · cases h
    split at h
    · cases h
    split at h
    · cases h
    rename_i hh hr hn ha
    exact ⟨not_not.mp hm, not_not.mp hi, hne, hnd, hpre, hcur, not_not.mp hh, not_not.mp hr,
      not_not.mp hn, fun id hid hmem => ha ⟨id, hid, hmem⟩, Except.ok.inj h⟩
  · intro h
    have hv : verifyPrefix plan s = none :=
      verifyPrefix_eq_none.mpr ⟨h.nodup, h.isPrefix, h.cursor⟩
    have ha : ¬ ∃ id ∈ s.activeApprovalId, id ∈ s.consumedApprovalIds :=
      fun ⟨id, hid, hmem⟩ => h.active id hid hmem
    unfold validateExecutionStateInvariants
    rw [if_neg (not_not.mpr h.missionId), if_neg (not_not.mpr h.planIdentity),
      if_neg h.nonempty, if_neg (not_lt.mpr h.cursor_le), hv]
    dsimp only
    rw [if_neg (not_not.mpr h.hashable), if_neg (not_not.mpr h.referenced),
      if_neg (not_not.mpr h.nonce), if_neg ha, h.status]

end Konoha
