/-
Runtime/Preservation.lean

The transitions keep `Coherent`, each from the states in which the runtime
applies it.  They differ in the fields of the episode only, so all but the
completed transition go through `Coherent.stay`.

`Healthy` is what is true of a state written under an unchanged plan beyond
coherence, and `Grows` how one written state extends another.
-/
import KonohaRuntime.Runtime.Approval
import KonohaRuntime.Runtime.Evidence

namespace Konoha

open Json

variable {py : Stdlib} {plan : MissionPlan} {s s' : ExecutionState} {task : AgentAssignment}

/-! ### The task ids a state refers to -/

theorem mem_referencedTaskIds {id : Json} :
    id ∈ s.referencedTaskIds ↔ (id = s.pendingTaskId ∨ id = s.executingTaskId ∨
      id ∈ s.evidenceIdsByTask.map (·.1)) ∧ id ≠ null := by
  simp [ExecutionState.referencedTaskIds]

theorem taskId_mem_taskIds (hcur : plan.currentTask s = some task) :
    task.taskId ∈ plan.taskIds :=
  List.mem_map_of_mem (List.mem_of_getElem? hcur)

/-! ### Staying at the cursor -/

/-- The fields that only the completed transition changes. -/
structure SameProgress (s s' : ExecutionState) : Prop where
  missionId : s'.missionId = s.missionId
  planIdentity : s'.planIdentity = s.planIdentity
  completed : s'.completedTaskIds = s.completedTaskIds
  cursor : s'.nextAssignmentIndex = s.nextAssignmentIndex
  evidence : s'.evidenceIdsByTask = s.evidenceIdsByTask

/-- A new episode at the same cursor is coherent when its own fields are. -/
theorem Coherent.stay (h : Coherent py plan s) (hsame : SameProgress s s')
    (hpending : s'.pendingTaskId = null ∨ s'.pendingTaskId ∈ plan.taskIds)
    (hexecuting : s'.executingTaskId = null ∨ s'.executingTaskId ∈ plan.taskIds)
    (hnonce : ∀ n ∈ s'.approvalNonce, isHex 32 n.toList = true)
    (hactive : ∀ id ∈ s'.activeApprovalId, id ∉ s'.consumedApprovalIds)
    (hstatus : statusError plan s' = none) : Coherent py plan s' where
  missionId := hsame.missionId.trans h.missionId
  planIdentity := hsame.planIdentity.trans h.planIdentity
  nonempty := h.nonempty
  nodup := by
    rw [hsame.completed]
    exact h.nodup
  isPrefix := by
    rw [hsame.completed]
    exact h.isPrefix
  cursor := by
    rw [hsame.completed, hsame.cursor]
    exact h.cursor
  hashable := h.hashable
  referenced := by
    intro id hid
    obtain ⟨hid, hne⟩ := mem_referencedTaskIds.mp hid
    rw [hsame.evidence] at hid
    rcases hid with rfl | rfl | hid
    · exact hpending.resolve_left hne
    · exact hexecuting.resolve_left hne
    · exact h.referenced id (mem_referencedTaskIds.mpr ⟨.inr (.inr hid), hne⟩)
  nonce := hnonce
  active := hactive
  status := hstatus

/-! ### The transitions -/

theorem coherent_newExecutionState (hne : plan.assignments ≠ [])
    (hhash : plan.taskIds.all Json.hashable = true) (updatedAt : String) :
    Coherent py plan (newExecutionState py plan updatedAt) where
  missionId := rfl
  planIdentity := rfl
  nonempty := hne
  nodup := List.nodup_nil
  isPrefix := rfl
  cursor := rfl
  hashable := hhash
  referenced := by simp [ExecutionState.referencedTaskIds, newExecutionState]
  nonce := by simp [newExecutionState]
  active := by simp [newExecutionState]
  status := by simp [statusError, newExecutionState, ExecutionState.Idle]

/-- The checks report nothing about a new state: at most the plan's task ids
cannot be hashed. -/
theorem validate_newExecutionState (hne : plan.assignments ≠ []) (updatedAt diagnostic : String) :
    validateExecutionStateInvariants py plan (newExecutionState py plan updatedAt) ≠
      .ok (some diagnostic) := by
  intro hv
  by_cases hhash : plan.taskIds.all Json.hashable = true
  · rw [validate_eq_none_iff.mpr (coherent_newExecutionState hne hhash updatedAt)] at hv
    cases hv
  · simp [validateExecutionStateInvariants, newExecutionState, hne, verifyPrefix, hhash] at hv

theorem Coherent.waiting (h : Coherent py plan s) (hcur : plan.currentTask s = some task)
    (hgate : task.executionGate = separateHumanApproval) (nonce : Nonce) {reason updatedAt : String}
    (hreason : nonBlank reason = true) :
    Coherent py plan (transitionToWaiting s task nonce reason updatedAt) := by
  refine h.stay ⟨rfl, rfl, rfl, rfl, rfl⟩ (.inr (taskId_mem_taskIds hcur)) (.inl rfl) ?_ ?_ ?_
  · rintro _ ⟨⟩
    exact nonce.2
  · rintro _ ⟨⟩
  · refine unlessHolds_eq_none.mpr ⟨task, hcur, hgate, rfl, hgate, ?_, rfl, rfl, hreason⟩
    exact Option.some_ne_none _

theorem Coherent.executingByPlan (h : Coherent py plan s) (hcur : plan.currentTask s = some task)
    (hgate : task.executionGate = planApproval) (updatedAt : String) :
    Coherent py plan (transitionToExecuting s task none updatedAt) := by
  have hother : task.executionGate ≠ separateHumanApproval := by
    rw [hgate]
    decide
  refine h.stay ⟨rfl, rfl, rfl, rfl, rfl⟩ (.inr (taskId_mem_taskIds hcur))
    (.inr (taskId_mem_taskIds hcur)) ?_ ?_ ?_
  · simp [transitionToExecuting, hother]
  · simp [transitionToExecuting, hother]
  · refine unlessHolds_eq_none.mpr ⟨task, hcur, rfl, rfl, rfl, .inr ⟨hgate, ?_, ?_⟩⟩
    · simp [transitionToExecuting, hother]
    · simp [transitionToExecuting, hother]

theorem Coherent.executingByHuman (h : Coherent py plan s) (hcur : plan.currentTask s = some task)
    {a : AssignmentApproval} (ha : Authorizes py a plan s task) (updatedAt : String) :
    Coherent py plan (transitionToExecuting s task (some (approvalId py a)) updatedAt) := by
  have hgate := ha.gate.2.1
  have hnonce : (transitionToExecuting s task (some (approvalId py a)) updatedAt).approvalNonce =
      s.approvalNonce := by simp [transitionToExecuting, hgate]
  have hactive : (transitionToExecuting s task (some (approvalId py a)) updatedAt).activeApprovalId
      = some (approvalId py a) := by simp [transitionToExecuting, hgate]
  refine h.stay ⟨rfl, rfl, rfl, rfl, rfl⟩ (.inr (taskId_mem_taskIds hcur))
    (.inr (taskId_mem_taskIds hcur)) ?_ ?_ ?_
  · rw [hnonce]
    exact h.nonce
  · rw [hactive]
    rintro _ ⟨⟩
    exact ha.fresh
  · refine unlessHolds_eq_none.mpr ⟨task, hcur, rfl, rfl, rfl, .inl ⟨hgate, ?_, ?_⟩⟩
    · rw [hnonce, ← ha.nonce]
      exact Option.some_ne_none _
    · exact ⟨approvalId py a, hactive, ha.fresh⟩

theorem Coherent.blocked (h : Coherent py plan s) (hcur : plan.currentTask s = some task)
    {reason updatedAt : String} (hreason : nonBlank reason = true) :
    Coherent py plan (transitionToBlocked s task reason updatedAt) := by
  refine h.stay ⟨rfl, rfl, rfl, rfl, rfl⟩ (.inr (taskId_mem_taskIds hcur)) (.inl rfl) ?_ ?_ ?_
  · rintro _ ⟨⟩
  · rintro _ ⟨⟩
  · exact unlessHolds_eq_none.mpr ⟨task, hcur, rfl, rfl, rfl, rfl, rfl, hreason⟩

theorem Coherent.failed (h : Coherent py plan s) (hcur : plan.currentTask s = some task)
    (consumed : Option Digest) {diagnostic updatedAt : String} (hd : nonBlank diagnostic = true) :
    Coherent py plan (transitionAfterFailedAssignment s task consumed diagnostic updatedAt) := by
  refine h.stay ⟨rfl, rfl, rfl, rfl, rfl⟩ (.inr (taskId_mem_taskIds hcur)) (.inl rfl) ?_ ?_ ?_
  · rintro _ ⟨⟩
  · rintro _ ⟨⟩
  · exact unlessHolds_eq_none.mpr ⟨task, hcur, rfl, rfl, rfl, rfl, rfl, hd⟩

theorem Coherent.blockedAfter (h : Coherent py plan s) (hcur : plan.currentTask s = some task)
    (consumed : Option Digest) {diagnostic updatedAt : String} (hd : nonBlank diagnostic = true) :
    Coherent py plan (transitionAfterBlockedAssignment s task consumed diagnostic updatedAt) := by
  refine h.stay ⟨rfl, rfl, rfl, rfl, rfl⟩ (.inr (taskId_mem_taskIds hcur)) (.inl rfl) ?_ ?_ ?_
  · rintro _ ⟨⟩
  · rintro _ ⟨⟩
  · exact unlessHolds_eq_none.mpr ⟨task, hcur, rfl, rfl, rfl, rfl, rfl, hd⟩

/-- A recovery keeps the fields of the state it recovers. -/
theorem Coherent.recovery (h : Coherent py plan s) {diagnostic : String} (updatedAt : String)
    (hd : nonBlank diagnostic = true) : Coherent py plan (recoveryResult s diagnostic updatedAt) :=
  ⟨h.missionId, h.planIdentity, h.nonempty, h.nodup, h.isPrefix, h.cursor, h.hashable,
    h.referenced, h.nonce, h.active, unlessHolds_eq_none.mpr hd⟩

/-- The completed tasks together with the current one are a prefix again. -/
theorem Coherent.isPrefix_succ (h : Coherent py plan s) (hcur : plan.currentTask s = some task) :
    plan.taskIds.take (s.completedTaskIds.length + 1) = s.completedTaskIds ++ [task.taskId] := by
  have hget : plan.taskIds[s.completedTaskIds.length]? = some task.taskId := by
    rw [← h.cursor, MissionPlan.taskIds, List.getElem?_map]
    exact congrArg (Option.map (·.taskId)) hcur
  rw [List.take_add_one, hget, h.isPrefix]
  rfl

/-- The current task of a plan with distinct ids has not been completed. -/
theorem Coherent.notMem_completed (h : Coherent py plan s) (hids : plan.taskIds.Nodup)
    (hcur : plan.currentTask s = some task) : task.taskId ∉ s.completedTaskIds := by
  have hnodup : (plan.taskIds.take (s.completedTaskIds.length + 1)).Nodup :=
    hids.sublist (List.take_sublist _ _)
  rw [h.isPrefix_succ hcur, List.nodup_append] at hnodup
  exact fun hmem => hnodup.2.2 _ hmem _ (List.mem_singleton_self _) rfl

theorem Coherent.completed (h : Coherent py plan s) (hids : plan.taskIds.Nodup)
    (hcur : plan.currentTask s = some task) (evidence : EvidenceRecord)
    (consumed : Option Digest) (updatedAt : String) :
    Coherent py plan
      (transitionAfterCompletedAssignment s plan task evidence consumed updatedAt) where
  missionId := h.missionId
  planIdentity := h.planIdentity
  nonempty := h.nonempty
  nodup := by
    refine List.nodup_append.mpr ⟨h.nodup, by simp, ?_⟩
    rintro a ha b hb rfl
    exact h.notMem_completed hids hcur (List.mem_singleton.mp hb ▸ ha)
  isPrefix := by
    dsimp only [transitionAfterCompletedAssignment]
    rw [List.length_append]
    exact h.isPrefix_succ hcur
  cursor := by simp [transitionAfterCompletedAssignment, h.cursor]
  hashable := h.hashable
  referenced := by
    intro id hid
    obtain ⟨hid, hne⟩ := mem_referencedTaskIds.mp hid
    dsimp only [transitionAfterCompletedAssignment] at hid
    rcases hid with rfl | rfl | hid
    · exact absurd rfl hne
    · exact absurd rfl hne
    rcases mem_map_fst_setKey hid with hold | rfl
    · exact h.referenced id (mem_referencedTaskIds.mpr ⟨.inr (.inr hold), hne⟩)
    · exact taskId_mem_taskIds hcur
  nonce := by rintro _ ⟨⟩
  active := by rintro _ ⟨⟩
  status := by
    have hlt : s.nextAssignmentIndex < plan.assignments.length :=
      (List.getElem?_eq_some_iff.mp hcur).1
    by_cases hlast : plan.assignments.length ≤ s.nextAssignmentIndex + 1
    · have hall : plan.taskIds.length ≤ s.completedTaskIds.length + 1 := by
        rw [← h.cursor, MissionPlan.taskIds, List.length_map]
        exact hlast
      simp only [statusError, transitionAfterCompletedAssignment, hlast, if_true,
        unlessHolds_eq_none]
      refine ⟨by omega, ?_, rfl, rfl, rfl, rfl, rfl⟩
      rw [← h.isPrefix_succ hcur, List.take_of_length_le hall]
    · simp [statusError, transitionAfterCompletedAssignment, hlast, ExecutionState.Idle]

/-! ### Healthy states -/

/-- A coherent state whose status, evidence and consumed approvals agree with
its progress. -/
structure Healthy (py : Stdlib) (plan : MissionPlan) (s : ExecutionState) : Prop where
  coherent : Coherent py plan s
  completed_iff : s.status = .completed ↔ s.nextAssignmentIndex = plan.assignments.length
  keys : s.evidenceIdsByTask.map (·.1) = s.completedTaskIds
  consumed : s.consumedApprovalIds.Nodup

/-- `new` extends the progress of `old`, by at most one task. -/
structure Grows (old new : ExecutionState) : Prop where
  completed : old.completedTaskIds <+: new.completedTaskIds
  consumed : old.consumedApprovalIds <+: new.consumedApprovalIds
  cursor_le : old.nextAssignmentIndex ≤ new.nextAssignmentIndex
  cursor_succ : new.nextAssignmentIndex ≤ old.nextAssignmentIndex + 1

theorem healthy_newExecutionState {updatedAt : String}
    (h : Coherent py plan (newExecutionState py plan updatedAt)) :
    Healthy py plan (newExecutionState py plan updatedAt) where
  coherent := h
  completed_iff := by
    have hpos : 0 < plan.assignments.length := List.length_pos_iff.mpr h.nonempty
    simp only [newExecutionState, reduceCtorEq, false_iff]
    omega
  keys := rfl
  consumed := List.nodup_nil

/-- A state that is not final leaves a task to run. -/
theorem Healthy.cursor_ne (h : Healthy py plan s) (hs : s.status ≠ .completed) :
    s.nextAssignmentIndex ≠ plan.assignments.length :=
  fun hc => hs (h.completed_iff.mpr hc)

/-- Staying at the cursor without completing the mission. -/
theorem Healthy.stay (h : Healthy py plan s) (hsame : SameProgress s s')
    (hcoh : Coherent py plan s') (hs : s.status ≠ .completed) (hs' : s'.status ≠ .completed)
    (hconsumed : s'.consumedApprovalIds.Nodup) : Healthy py plan s' where
  coherent := hcoh
  completed_iff := by
    rw [hsame.cursor]
    exact ⟨fun hc => absurd hc hs', fun hc => absurd hc (h.cursor_ne hs)⟩
  keys := by
    rw [hsame.evidence, hsame.completed]
    exact h.keys
  consumed := hconsumed

theorem SameProgress.grows (hsame : SameProgress s s')
    (hconsumed : s.consumedApprovalIds <+: s'.consumedApprovalIds) : Grows s s' where
  completed := hsame.completed ▸ List.prefix_rfl
  consumed := hconsumed
  cursor_le := hsame.cursor.ge
  cursor_succ := hsame.cursor.le.trans (Nat.le_succ _)

theorem Healthy.completed (h : Healthy py plan s) (hids : plan.taskIds.Nodup)
    (hcur : plan.currentTask s = some task) (evidence : EvidenceRecord)
    (consumed : Option Digest) (updatedAt : String) :
    Healthy py plan
      (transitionAfterCompletedAssignment s plan task evidence consumed updatedAt) where
  coherent := h.coherent.completed hids hcur evidence consumed updatedAt
  completed_iff := by
    have hlt : s.nextAssignmentIndex < plan.assignments.length :=
      (List.getElem?_eq_some_iff.mp hcur).1
    by_cases hlast : plan.assignments.length ≤ s.nextAssignmentIndex + 1
    · simp only [transitionAfterCompletedAssignment, hlast, if_true, true_iff]
      omega
    · simp only [transitionAfterCompletedAssignment, hlast, if_false, reduceCtorEq, false_iff]
      omega
  keys := by
    have hnew := h.coherent.notMem_completed hids hcur
    dsimp only [transitionAfterCompletedAssignment]
    rw [map_fst_setKey, h.keys, if_neg hnew]
  consumed := consume_nodup h.consumed

theorem grows_completed (evidence : EvidenceRecord) (consumed : Option Digest)
    (updatedAt : String) :
    Grows s (transitionAfterCompletedAssignment s plan task evidence consumed updatedAt) where
  completed := List.prefix_append _ _
  consumed := prefix_consume _ _
  cursor_le := Nat.le_succ _
  cursor_succ := Nat.le_refl _

end Konoha
