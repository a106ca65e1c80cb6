/-
Runtime/Approval.lean

Single-use approvals of an assignment: their identity, the command a human has
to type, and `_validate_assignment_approval`.

`Authorizes` is what a valid approval amounts to, and
`expectedApprovalCommand_injective` says that the command names one mission,
one task, one plan and one nonce.
-/
import KonohaRuntime.Base.Lists
import KonohaRuntime.Runtime.Invariants

namespace Konoha

open Json

/-- `_approval_id` -/
def approvalId (py : Stdlib) (a : AssignmentApproval) : Digest :=
  py.sha256 (canonical py (.obj
    [("mission_id", .str a.missionId), ("task_id", .str a.taskId),
     ("execution_gate", .str a.executionGate), ("plan_identity", .str a.planIdentity),
     ("approval_nonce", .str a.approvalNonce), ("approval_text", .str a.approvalText),
     ("approval_source", .str a.approvalSource)]))

/-- `expected_approval_command` -/
def expectedApprovalCommand (missionId taskId planIdentityValue approvalNonce : String) : String :=
  ":aprobar-assignment " ++ missionId ++ " " ++ taskId ++ " separate_human_approval " ++
    planIdentityValue ++ " " ++ approvalNonce

/-- The values of `asdict(approval)`. -/
def AssignmentApproval.values (a : AssignmentApproval) : List String :=
  [a.missionId, a.taskId, a.executionGate, a.planIdentity, a.approvalNonce, a.approvalText,
   a.approvalSource, a.approvedAt]

/-- The triple `(valid, approval_id, reason)`: there is no reason when it is
valid, and always one when it is not. -/
inductive ApprovalVerdict
  | valid (approvalId : Digest)
  | rejected (approvalId : Option Digest) (reason : String)
  deriving DecidableEq

attribute [local instance] lawfulBEq_digest

/-- `_validate_assignment_approval` -/
def validateAssignmentApproval (py : Stdlib) (approval : ApprovalArg) (plan : MissionPlan)
    (state : ExecutionState) (task : AgentAssignment) : ApprovalVerdict :=
  match approval with
  | .absent | .foreign => .rejected none "no_approval_provided"
  | .illTyped => .rejected none "approval_missing_fields"
  | .given a =>
      if ¬ ∀ v ∈ a.values, nonBlank v = true then .rejected none "approval_missing_fields"
      else if a.approvalSource ≠ "interactive_terminal" then
        .rejected none "approval_source_mismatch"
      else if a.missionId ≠ plan.missionId ∨ a.missionId ≠ state.missionId then
        .rejected none "mission_id_mismatch"
      else if .str a.taskId ≠ task.taskId ∨ .str a.taskId ≠ state.pendingTaskId then
        .rejected none "task_id_mismatch"
      else if state.status ≠ .waitingForApproval then .rejected none "no_pending_approval"
      else if .str a.executionGate ≠ separateHumanApproval ∨
          task.executionGate ≠ separateHumanApproval ∨
          state.pendingExecutionGate ≠ separateHumanApproval then
        .rejected none "gate_mismatch"
      else if a.planIdentity ≠ (planIdentity py plan).1 ∨
          state.planIdentity ≠ planIdentity py plan then
        .rejected none "plan_identity_mismatch"
      else if some a.approvalNonce ≠ state.approvalNonce then .rejected none "nonce_mismatch"
      else if a.approvalText ≠ expectedApprovalCommand a.missionId a.taskId a.planIdentity
          a.approvalNonce then
        .rejected none "unexpected_command_text"
      else if approvalId py a ∈ state.consumedApprovalIds then
        .rejected (some (approvalId py a)) "approval_already_consumed"
      else .valid (approvalId py a)

/-- An approval that authorises the current task of a waiting state. -/
structure Authorizes (py : Stdlib) (a : AssignmentApproval) (plan : MissionPlan)
    (state : ExecutionState) (task : AgentAssignment) : Prop where
  values : ∀ v ∈ a.values, nonBlank v = true
  source : a.approvalSource = "interactive_terminal"
  missionId : a.missionId = plan.missionId ∧ a.missionId = state.missionId
  taskId : .str a.taskId = task.taskId ∧ .str a.taskId = state.pendingTaskId
  status : state.status = .waitingForApproval
  gate : .str a.executionGate = separateHumanApproval ∧
    task.executionGate = separateHumanApproval ∧
    state.pendingExecutionGate = separateHumanApproval
  planIdentity : a.planIdentity = (planIdentity py plan).1 ∧
    state.planIdentity = planIdentity py plan
  nonce : some a.approvalNonce = state.approvalNonce
  text : a.approvalText = expectedApprovalCommand a.missionId a.taskId a.planIdentity
    a.approvalNonce
  fresh : approvalId py a ∉ state.consumedApprovalIds

/-- A check that rejects is passed when the verdict is valid. -/
theorem ite_rejected_eq_valid {p : Prop} [Decidable p] {id : Option Digest} {reason : String}
    {v : ApprovalVerdict} {d : Digest} :
    (if p then .rejected id reason else v) = ApprovalVerdict.valid d ↔ ¬ p ∧ v = .valid d := by
  split <;> simp_all

/-- **The validation decides authorisation.** -/
theorem validateAssignmentApproval_eq_valid_iff {py : Stdlib} {approval : ApprovalArg}
    {plan : MissionPlan} {state : ExecutionState} {task : AgentAssignment} {id : Digest} :
    validateAssignmentApproval py approval plan state task = .valid id ↔
      ∃ a, approval = .given a ∧ id = approvalId py a ∧ Authorizes py a plan state task := by
  cases approval with
  | given a =>
      simp only [validateAssignmentApproval, ite_rejected_eq_valid, not_or, not_not,
        ApprovalVerdict.valid.injEq, ApprovalArg.given.injEq, exists_eq_left']
      constructor
      · rintro ⟨hv, hs, hm, ht, hst, hg, hi, hn, hx, hc, rfl⟩
        exact ⟨rfl, hv, hs, hm, ht, hst, hg, hi, hn, hx, hc⟩
      · rintro ⟨rfl, h⟩
        exact ⟨h.values, h.source, h.missionId, h.taskId, h.status, h.gate, h.planIdentity,
          h.nonce, h.text, h.fresh, rfl⟩
  | _ => simp [validateAssignmentApproval]

/-- The approval text is the command for the mission, the task, the plan and
the persisted nonce. -/
theorem Authorizes.command {py : Stdlib} {a : AssignmentApproval} {plan : MissionPlan}
    {state : ExecutionState} {task : AgentAssignment} (h : Authorizes py a plan state task) :
    ∃ taskId nonce, task.taskId = .str taskId ∧ state.pendingTaskId = .str taskId ∧
      state.approvalNonce = some nonce ∧
      a.approvalText =
        expectedApprovalCommand plan.missionId taskId (Konoha.planIdentity py plan).1 nonce := by
  refine ⟨a.taskId, a.approvalNonce, h.taskId.1.symm, h.taskId.2.symm, h.nonce.symm, ?_⟩
  rw [h.text, h.missionId.1, h.planIdentity.1]

/-! ### The command names what it authorises -/

/-- No mission id contains a blank. -/
theorem isMissionId_no_space {m : String} (h : isMissionId m = true) : ' ' ∉ m.toList := by
  unfold isMissionId afterPrefix at h
  split at h
  · rename_i hp
    obtain ⟨cs, hcs⟩ := List.isPrefixOf_iff_prefix.mp hp
    simp only [← hcs, List.drop_left, Option.any_some, Bool.and_eq_true, List.all_eq_true] at h
    rw [← hcs, List.mem_append, not_or]
    refine ⟨by decide, fun hmem => ?_⟩
    exact absurd (h.2 ' ' hmem) (by decide)
  · simp at h

theorem HexString.length_toList {k : Nat} (x : HexString k) : x.1.toList.length = k := by
  obtain ⟨x, hx⟩ := x
  simp only [isHex, Bool.and_eq_true, beq_iff_eq] at hx
  exact hx.1

theorem toList_expectedApprovalCommand (m t d n : String) :
    (expectedApprovalCommand m t d n).toList =
      ":aprobar-assignment ".toList ++ m.toList ++ " ".toList ++ t.toList ++
        " separate_human_approval ".toList ++ d.toList ++ " ".toList ++ n.toList := by
  unfold expectedApprovalCommand
  repeat rw [String.toList_append]

/-- The command ends in its nonce. -/
theorem expectedApprovalCommand_nonce {m m' t t' d d' : String} {n n' : Nonce}
    (h : expectedApprovalCommand m t d n.1 = expectedApprovalCommand m' t' d' n'.1) : n = n' := by
  have hl := congrArg String.toList h
  rw [toList_expectedApprovalCommand, toList_expectedApprovalCommand] at hl
  obtain ⟨-, hn⟩ := List.append_inj' hl (by rw [n.length_toList, n'.length_toList])
  exact Subtype.ext (String.toList_inj.mp hn)

/-- **The command names one mission, one task, one plan and one nonce**, for
mission ids of the accepted form. -/
theorem expectedApprovalCommand_injective {m m' t t' : String} {d d' : Digest} {n n' : Nonce}
    (hm : isMissionId m = true) (hm' : isMissionId m' = true)
    (h : expectedApprovalCommand m t d.1 n.1 = expectedApprovalCommand m' t' d'.1 n'.1) :
    m = m' ∧ t = t' ∧ d = d' ∧ n = n' := by
  have hblank : " ".toList = [' '] := by decide
  have hl := congrArg String.toList h
  rw [toList_expectedApprovalCommand, toList_expectedApprovalCommand, hblank] at hl
  -- the nonce and the identity have fixed lengths: peel them off from the right
  obtain ⟨hl, hn⟩ := List.append_inj' hl (by rw [n.length_toList, n'.length_toList])
  obtain ⟨hl, -⟩ := List.append_inj' hl rfl
  obtain ⟨hl, hd⟩ := List.append_inj' hl (by rw [d.length_toList, d'.length_toList])
  obtain ⟨hl, -⟩ := List.append_inj' hl rfl
  -- the mission id ends at the first blank after the command word
  rw [List.append_assoc, List.append_assoc, List.append_assoc, List.append_assoc] at hl
  obtain ⟨hmt, ht⟩ := List.parted_at_first (isMissionId_no_space hm)
    (isMissionId_no_space hm') (List.append_cancel_left hl)
  exact ⟨String.toList_inj.mp hmt, String.toList_inj.mp ht,
    Subtype.ext (String.toList_inj.mp hd), Subtype.ext (String.toList_inj.mp hn)⟩

end Konoha
