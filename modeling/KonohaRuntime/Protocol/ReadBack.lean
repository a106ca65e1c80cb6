/-
Protocol/ReadBack.lean

What the runtime writes and what it can read.  The loader refuses a blank
`task_id` or gate that the transitions copy from the plan without a check; apart
from that, every state the runtime writes is read back as it was written
(`written_states_read_back`).
-/
import KonohaRuntime.Protocol.History
import KonohaRuntime.Protocol.Replay

namespace Konoha

open Effects Json

/-- The id and the gate of an assignment are strings that are not blank. -/
structure Named (task : AgentAssignment) : Prop where
  taskId : nonEmptyStr task.taskId = true
  gate : nonEmptyStr task.executionGate = true

variable {py : Stdlib} {m : String} {P : Tid → Frame → Prop} {f₀ f : File} {h : List Event}
variable {t : Tid} {fr : Frame} {inv : Invocation} {id : Option Digest} {s : ExecutionState}
variable {task : AgentAssignment}

/-! ### Each transition -/

theorem readable_newExecutionState {plan : MissionPlan} (hm : plan.missionId = m)
    (now : Timestamp) : Readable m (newExecutionState py plan now.1) where
  missionId := hm
  completed := by simp [newExecutionState]
  consumed := List.nodup_nil
  evidence := by simp [newExecutionState]
  pendingTaskId := .inl rfl
  pendingExecutionGate := .inl rfl
  approvalNonce := by rintro _ ⟨⟩
  executingTaskId := .inl rfl
  pauseReason := by rintro _ ⟨⟩
  diagnostic := by rintro _ ⟨⟩
  updatedAt := now.2

theorem Readable.recovery (hr : Readable m s) {d : String} (hd : nonBlank d = true)
    (now : Timestamp) : Readable m (recoveryResult s d now.1) :=
  { hr with
    diagnostic := by
      rintro _ ⟨⟩
      exact hd
    updatedAt := now.2 }

theorem Readable.blocked (hr : Readable m s) (hn : Named task) {reason : String}
    (hd : nonBlank reason = true) (now : Timestamp) :
    Readable m (transitionToBlocked s task reason now.1) :=
  { hr with
    pendingTaskId := .inr hn.taskId
    pendingExecutionGate := .inr hn.gate
    approvalNonce := by rintro _ ⟨⟩
    executingTaskId := .inl rfl
    pauseReason := by
      rintro _ ⟨⟩
      exact hd
    diagnostic := by
      rintro _ ⟨⟩
      exact hd
    updatedAt := now.2 }

theorem Readable.waiting (hr : Readable m s) (hn : Named task) (nonce : Nonce) {reason : String}
    (hd : nonBlank reason = true) (now : Timestamp) :
    Readable m (transitionToWaiting s task nonce reason now.1) :=
  { hr with
    pendingTaskId := .inr hn.taskId
    pendingExecutionGate := .inr hn.gate
    approvalNonce := by
      rintro _ ⟨⟩
      exact nonce.nonBlank
    executingTaskId := .inl rfl
    pauseReason := by
      rintro _ ⟨⟩
      exact hd
    diagnostic := by rintro _ ⟨⟩
    updatedAt := now.2 }

theorem Readable.executing (hr : Readable m s) (hn : Named task) (id : Option Digest)
    (now : Timestamp) : Readable m (transitionToExecuting s task id now.1) :=
  { hr with
    pendingTaskId := .inr hn.taskId
    pendingExecutionGate := .inr hn.gate
    approvalNonce := by
      intro n hnonce
      dsimp only [transitionToExecuting] at hnonce
      split at hnonce
      · exact hr.approvalNonce n hnonce
      · cases hnonce
    executingTaskId := .inr hn.taskId
    pauseReason := by rintro _ ⟨⟩
    diagnostic := by rintro _ ⟨⟩
    updatedAt := now.2 }

theorem Readable.stopAt (hr : Readable m s) (hn : Named task) (status : ExecutionStatus)
    {reason : Option String} (hreason : ∀ r, reason = some r → nonBlank r = true)
    (id : Option Digest) {d : String} (hd : nonBlank d = true) (now : Timestamp) :
    Readable m (stopAt s task status reason id d now.1) :=
  { hr with
    consumed := consume_nodup hr.consumed
    pendingTaskId := .inr hn.taskId
    pendingExecutionGate := .inr hn.gate
    approvalNonce := by rintro _ ⟨⟩
    executingTaskId := .inl rfl
    pauseReason := hreason
    diagnostic := by
      rintro _ ⟨⟩
      exact hd
    updatedAt := now.2 }

theorem Readable.afterCompleted (hr : Readable m s) (hn : Named task) (plan : MissionPlan)
    (evidence : EvidenceRecord) (id : Option Digest) (now : Timestamp) :
    Readable m (transitionAfterCompletedAssignment s plan task evidence id now.1) where
  missionId := hr.missionId
  completed := by
    intro x hx
    rcases List.mem_append.mp hx with hx | hx
    · exact hr.completed x hx
    · exact List.mem_singleton.mp hx ▸ hn.taskId
  consumed := consume_nodup hr.consumed
  evidence := by
    intro kv hkv
    have hkey : kv.1 ∈ (setKey task.taskId evidence.evidenceId s.evidenceIdsByTask).map (·.1) :=
      List.mem_map_of_mem hkv
    rcases mem_map_fst_setKey hkey with hold | hnew
    · obtain ⟨kv', hkv', hk⟩ := List.mem_map.mp hold
      exact hk ▸ hr.evidence kv' hkv'
    · exact hnew ▸ hn.taskId
  pendingTaskId := .inl rfl
  pendingExecutionGate := .inl rfl
  approvalNonce := by rintro _ ⟨⟩
  executingTaskId := .inl rfl
  pauseReason := by rintro _ ⟨⟩
  diagnostic := by rintro _ ⟨⟩
  updatedAt := now.2

/-! ### The run -/

theorem Loads.readable (hf : Loads py m f fr) (hm : fr.plan.missionId = m) :
    Readable m fr.state := by
  rcases hf with ⟨-, now, hs⟩ | ⟨v, -, hv⟩
  · rw [hs]
    exact readable_newExecutionState hm now
  · exact readable_of_parse hv

theorem Move.readable (hmove : Move py fr s) (hr : Readable m fr.state)
    (hn : ∀ task, Ready py fr task → Named task) : Readable m s := by
  cases hmove with
  | recover diagnostic now hd hneeds => exact hr.recovery hd now
  | block task now hready => exact hr.blocked (hn task hready) (by decide) now
  | fail task diagnostic consumed now hready hd =>
      exact hr.stopAt (hn task hready) _ (by rintro _ ⟨⟩) consumed hd now

theorem Finish.readable (hs : Finish fr inv id s) (hr : Readable m inv.executing)
    (hn : Named inv.task) : Readable m s := by
  obtain ⟨evidence, diagnostic, finishedAt, hd⟩ := hs
  have hreason : ∀ r, some diagnostic = some r → nonBlank r = true := by
    rintro _ ⟨⟩
    exact hd
  unfold transitionAfterAssignment
  split
  · exact hr.afterCompleted hn fr.plan evidence id finishedAt
  · exact hr.stopAt hn _ hreason id hd finishedAt
  · exact hr.stopAt hn _ (by rintro _ ⟨⟩) id hd finishedAt

/-- A call that writes has only arrived at an assignment with a name. -/
def NamesTasks (py : Stdlib) (h : List Event) : Prop :=
  ∀ t fr s, .persisted t fr s ∈ h → ∀ task, Ready py fr task → Named task

theorem Legal.readable (hl : Legal py m P f₀ h f) (hP : ∀ t fr, P t fr → fr.plan.missionId = m)
    (hn : NamesTasks py h) : ∀ s ∈ writtenStates h, Readable m s := by
  have htail : ∀ {e : Event} {h : List Event}, NamesTasks py (e :: h) → NamesTasks py h :=
    fun hn t fr s hs => hn t fr s (List.mem_cons_of_mem _ hs)
  induction hl with
  | start => simp
  | draw n hl ih => exact ih (htail hn)
  | move hl hp hf hm ih =>
      refine List.forall_mem_cons.mpr ⟨?_, ih (htail hn)⟩
      exact hm.readable (hf.readable (hP _ _ hp)) (hn _ _ _ List.mem_cons_self)
  | wait hl hp hf hr hs hg now ih =>
      refine List.forall_mem_cons.mpr ⟨?_, ih (htail hn)⟩
      exact (hf.readable (hP _ _ hp)).waiting (hn _ _ _ List.mem_cons_self _ hr) _ (by decide) now
  | begin hl hp hf hc ih =>
      refine List.forall_mem_cons.mpr ⟨?_, ih (htail hn)⟩
      obtain ⟨now, hnow⟩ := hc.executing
      rw [hnow]
      exact (hf.readable (hP _ _ hp)).executing (hn _ _ _ List.mem_cons_self _ hc.ready) _ now
  | invoke hl hp hc ih => exact ih (htail hn)
  | finish hl hu hp hc hs ih =>
      refine List.forall_mem_cons.mpr ⟨?_, ih (htail hn)⟩
      obtain ⟨rest, hrest⟩ := hu.writtenStates hl
      exact hs.readable (ih (htail hn) _ (by simp [hrest]))
        (hn _ _ _ List.mem_cons_self _ hc.ready)

/-- **Read back**: in every run in which no call that writes has arrived at an
assignment whose id or gate is blank, `execution_state.json` holds the last state
written, and each state written is read back as it was. -/
theorem written_states_read_back {py : Stdlib} {calls : Tid → Call}
    {allowed : String → File → Prop} {f₀ : String → File} {w : World}
    (h : Reaches py calls allowed f₀ w) (m : String) (hn : NamesTasks py (w m).events) :
    (∀ s ∈ writtenStates (w m).events, parseExecutionState py m (s.asdict py) = .ok s) ∧
      ∀ s rest, writtenStates (w m).events = s :: rest → (w m).state = .json (s.asdict py) := by
  have hl := runtime_legal h m
  have hP : ∀ t fr, Permits py calls allowed m t fr → fr.plan.missionId = m := by
    rintro t fr ⟨⟨v, -, hv⟩, -⟩
    exact parsePlan_missionId hv
  constructor
  · intro s hs
    have hr := hl.readable hP hn s hs
    exact (parseExecutionState_asdict hr.isStr).mpr ⟨hr, rfl⟩
  · intro s rest hw
    rcases hl.file with ⟨hnil, -⟩ | ⟨s', rest', hw', hf⟩
    · simp [hw] at hnil
    · obtain ⟨rfl, rfl⟩ := List.cons.inj (hw.symm.trans hw')
      exact hf

/-- A run names its tasks when all plans that can be read do. -/
theorem namesTasks_of_plans {py : Stdlib} {calls : Tid → Call} {allowed : String → File → Prop}
    {f₀ : String → File} {w : World} (h : Reaches py calls allowed f₀ w) (m : String)
    (hplans : ∀ v plan, allowed m (.json v) → parsePlan py m v = .ok plan →
      ∀ task ∈ plan.assignments, Named task) : NamesTasks py (w m).events := by
  intro t fr s hs task hr
  obtain ⟨⟨v, hv, hp⟩, -⟩ := (runtime_legal h m).permitted hs
  exact hplans v fr.plan hv hp task (List.mem_of_getElem? hr.current)

/-- The sample mission names its task: its three states are read back. -/
theorem gatedRun_read_back :
    (writtenStates (gatedRun "mission-a").events).length = 3 ∧
      ∀ s ∈ writtenStates (gatedRun "mission-a").events,
        parseExecutionState gatedStdlib "mission-a" (s.asdict gatedStdlib) = .ok s := by
  have hreach := reaches_sample gatedStdlib gatedCalls sampleHost gatedPlan 2
  refine ⟨?_, (written_states_read_back hreach "mission-a" (namesTasks_of_plans hreach _ ?_)).1⟩
  · obtain ⟨_, _, _, _, _, _, _, _, _, _, _, _, hevents, -⟩ := gatedRun_events
    rw [hevents]
    rfl
  intro v plan hv hp task htask
  obtain rfl := Except.ok.inj (hp.symm.trans (parsePlan_unedited hv))
  obtain rfl := List.mem_singleton.mp htask
  exact ⟨by decide, by decide⟩

/-! ### A blank id -/

/-- An approved plan whose one assignment has a blank id. -/
def blankPlan : MissionPlan := samplePlan "approved" [sampleAssignment " " "plan_approval"]

def blankStdlib : Stdlib :=
  sampleStdlib
    ⟨"c3b6d17368f2748517051f522d5325feca1cd77dbd0a4fb628f8ada5c49b9c7a",
        isHex_ofList (by decide +kernel)⟩
    outputDigest

def blankCalls : Tid → Call := fun _ => ⟨"mission-a", .absent⟩

/-- One call: it runs the assignment. -/
def blankRun : World := replay blankStdlib blankCalls sampleHost (sampleWorld blankPlan) 1

/-- The states of the run carry the blank id, and none of them can be read. -/
theorem blankRun_not_read_back :
    Reaches blankStdlib blankCalls (unedited blankPlan) (fun _ => .absent) blankRun ∧
      (∀ a ∈ blankPlan.assignments, a.taskId.isStr = true ∧ a.executionGate.isStr = true) ∧
      ∃ s ∈ writtenStates (blankRun "mission-a").events, ∀ s',
        parseExecutionState blankStdlib "mission-a" (s.asdict blankStdlib) ≠ .ok s' := by
  refine ⟨reaches_sample blankStdlib blankCalls sampleHost blankPlan 1, by decide, ?_⟩
  have hany : (writtenStates (blankRun "mission-a").events).any (fun s =>
      !(parseExecutionState blankStdlib "mission-a" (s.asdict blankStdlib)).isOk) = true := by
    decide +kernel
  obtain ⟨s, hs, hbad⟩ := List.any_eq_true.mp hany
  refine ⟨s, hs, fun s' hs' => ?_⟩
  rw [hs'] at hbad
  cases hbad

end Konoha
