/-
Protocol/History.lean

What a legal history says as a whole.

* A call that loads `execution_state.json` after the runtime has written it
  gets the last written state, or fails (`Legal.loads_eq`).
* Two consecutive written states are one step of the `Ledger` (`Legal.trace`).
* A provider call stands right after the begin it belongs to
  (`Legal.invoked_begin`).
-/
import KonohaRuntime.Protocol.Legal

namespace Konoha

open Effects Json

/-! ### Reading a history -/

/-- The state that an event writes. -/
def Event.written : Event → Option ExecutionState
  | .persisted _ _ s => some s
  | .drew _ => none
  | .invoked _ _ _ => none

/-- The states written in a history, newest first. -/
def writtenStates (h : List Event) : List ExecutionState := h.filterMap Event.written

@[simp] theorem writtenStates_nil : writtenStates [] = [] := rfl

@[simp] theorem writtenStates_drew (n : Nonce) (h : List Event) :
    writtenStates (.drew n :: h) = writtenStates h := rfl

@[simp] theorem writtenStates_persisted (t : Tid) (fr : Frame) (s : ExecutionState)
    (h : List Event) : writtenStates (.persisted t fr s :: h) = s :: writtenStates h := rfl

theorem mem_writtenStates {s : ExecutionState} {h : List Event} :
    s ∈ writtenStates h ↔ ∃ t fr, .persisted t fr s ∈ h := by
  rw [writtenStates, List.mem_filterMap]
  constructor
  · rintro ⟨e, he, hs⟩
    cases e with
    | persisted t fr s' =>
        obtain rfl := Option.some.inj hs
        exact ⟨t, fr, he⟩
    | drew n => cases hs
    | invoked t fr inv => cases hs
  · rintro ⟨t, fr, he⟩
    exact ⟨_, he, rfl⟩

/-- The ledger that a state stands for; it asks with its nonce. -/
def ExecutionState.ledger (s : ExecutionState) : Ledger (Option String) where
  cursor := s.nextAssignmentIndex
  phase := match s.status with
    | .inProgress => .ready
    | .waitingForApproval => .asking s.approvalNonce
    | .executing => .running
    | .completed | .failed | .blocked | .recoveryRequired => .halted

theorem ledger_running {s : ExecutionState} :
    s.ledger.phase = .running ↔ s.status = .executing := by
  cases hs : s.status <;> simp [ExecutionState.ledger, hs]

variable {py : Stdlib} {m : String} {P : Tid → Frame → Prop} {f₀ f : File} {h : List Event}
variable {t : Tid} {fr : Frame} {inv : Invocation} {id : Option Digest} {s : ExecutionState}

/-! ### Histories are built from the end -/

theorem Legal.tail {e : Event} (hl : Legal py m P f₀ (e :: h) f) : ∃ f', Legal py m P f₀ h f' := by
  cases hl with
  | draw n hl => exact ⟨_, hl⟩
  | move hl hp hf hm => exact ⟨_, hl⟩
  | wait hl hp hf hr hs hg now => exact ⟨_, hl⟩
  | begin hl hp hf hc => exact ⟨_, hl⟩
  | invoke hl hp hc => exact ⟨_, hl⟩
  | finish hl hu hp hc hs => exact ⟨_, hl⟩

theorem Legal.suffix {h' : List Event} (hl : Legal py m P f₀ (h' ++ h) f) :
    ∃ f', Legal py m P f₀ h f' := by
  induction h' generalizing f with
  | nil => exact ⟨f, hl⟩
  | cons e h' ih =>
      obtain ⟨f', hl'⟩ := hl.tail
      exact ih hl'

/-- The begin of a run is the last written state when it finishes. -/
theorem Underway.writtenStates {h : List Event} (hl : Legal py m P f₀ h f)
    (hu : Underway t fr inv h) : ∃ rest, Konoha.writtenStates h = inv.executing :: rest := by
  rcases hu with ⟨h', rfl⟩ | ⟨h', rfl⟩
  · exact ⟨_, rfl⟩
  · cases hl with
    | invoke hl hp hc => exact ⟨_, rfl⟩

/-! ### The file holds the last written state -/

theorem Legal.file (hl : Legal py m P f₀ h f) :
    (writtenStates h = [] ∧ f = f₀) ∨
      ∃ s rest, writtenStates h = s :: rest ∧ f = .json (s.asdict py) := by
  induction hl with
  | start => exact .inl ⟨rfl, rfl⟩
  | draw n hl ih => exact ih
  | move hl hp hf hm ih => exact .inr ⟨_, _, rfl, rfl⟩
  | wait hl hp hf hr hs hg now ih => exact .inr ⟨_, _, rfl, rfl⟩
  | begin hl hp hf hc ih => exact .inr ⟨_, _, rfl, rfl⟩
  | invoke hl hp hc ih => exact .inr ⟨_, _, rfl, rfl⟩
  | finish hl hu hp hc hs ih => exact .inr ⟨_, _, rfl, rfl⟩

/-- Every key of the evidence map is a string or belongs to a completed task:
what the loader checks of the latter then decides about the former. -/
def EvidenceKeys (s : ExecutionState) : Prop :=
  ∀ kv ∈ s.evidenceIdsByTask, kv.1.isStr = true ∨ kv.1 ∈ s.completedTaskIds

theorem Loads.isStr (hf : Loads py m f fr) :
    ∀ kv ∈ fr.state.evidenceIdsByTask, kv.1.isStr = true := by
  rcases hf with ⟨-, now, hs⟩ | ⟨v, -, hv⟩
  · simp [hs, newExecutionState]
  · exact (readable_of_parse hv).isStr

/-- No move touches the completed tasks and their evidence. -/
theorem Move.completed (hm : Move py fr s) :
    s.completedTaskIds = fr.state.completedTaskIds ∧
      s.evidenceIdsByTask = fr.state.evidenceIdsByTask := by
  cases hm <;> exact ⟨rfl, rfl⟩

theorem EvidenceKeys.finish (hk : EvidenceKeys inv.executing) (hs : Finish fr inv id s) :
    EvidenceKeys s := by
  obtain ⟨evidence, diagnostic, finishedAt, hd⟩ := hs
  unfold transitionAfterAssignment
  split
  · intro kv hkv
    have hkey : kv.1 ∈ (setKey inv.task.taskId evidence.evidenceId
        inv.executing.evidenceIdsByTask).map (·.1) := List.mem_map_of_mem hkv
    rcases mem_map_fst_setKey hkey with hold | hnew
    · obtain ⟨kv', hkv', hk'⟩ := List.mem_map.mp hold
      rw [← hk']
      exact (hk kv' hkv').imp_right fun hc => List.mem_append_left _ hc
    · exact .inr (List.mem_append_right _ (by simp [hnew]))
  · exact hk
  · exact hk

theorem Legal.evidenceKeys (hl : Legal py m P f₀ h f) : ∀ s ∈ writtenStates h, EvidenceKeys s := by
  induction hl with
  | start => simp
  | draw n hl ih => exact ih
  | move hl hp hf hm ih =>
      refine List.forall_mem_cons.mpr ⟨fun kv hkv => .inl ?_, ih⟩
      exact hf.isStr kv (hm.completed.2 ▸ hkv)
  | wait hl hp hf hr hs hg now ih =>
      exact List.forall_mem_cons.mpr ⟨fun kv hkv => .inl (hf.isStr kv hkv), ih⟩
  | begin hl hp hf hc ih =>
      obtain ⟨now, hnow⟩ := hc.executing
      refine List.forall_mem_cons.mpr ⟨fun kv hkv => .inl (hf.isStr kv ?_), ih⟩
      rw [hnow] at hkv
      exact hkv
  | invoke hl hp hc ih => exact ih
  | finish hl hu hp hc hs ih =>
      obtain ⟨rest, hrest⟩ := hu.writtenStates hl
      refine List.forall_mem_cons.mpr ⟨EvidenceKeys.finish ?_ hs, ih⟩
      exact ih _ (by simp [hrest])

/-- The strict reader gives back the state that was written, if anything. -/
theorem EvidenceKeys.parse {s' : ExecutionState} (hk : EvidenceKeys s) :
    parseExecutionState py m (s.asdict py) = .ok s' ↔ Readable m s ∧ s' = s := by
  have hstr : (∀ x ∈ s.completedTaskIds, nonEmptyStr x = true) →
      ∀ kv ∈ s.evidenceIdsByTask, kv.1.isStr = true := by
    intro hc kv hkv
    exact (hk kv hkv).elim (fun hstr => hstr) fun hmem => isStr_of_nonEmptyStr (hc _ hmem)
  constructor
  · intro hp
    exact (parseExecutionState_asdict (hstr (nonEmptyStr_of_parse_asdict hp))).mp hp
  · intro hr
    exact (parseExecutionState_asdict (hstr hr.1.completed)).mpr hr

/-- **A call works with the last written state.** -/
theorem Legal.loads_eq (hl : Legal py m P f₀ h f) (hf : Loads py m f fr)
    {rest : List ExecutionState} (hw : writtenStates h = s :: rest) :
    fr.state = s ∧ Readable m s := by
  rcases hl.file with ⟨hnil, -⟩ | ⟨s', rest', hw', rfl⟩
  · simp [hw] at hnil
  obtain ⟨rfl, rfl⟩ := List.cons.inj (hw.symm.trans hw')
  rcases hf with ⟨hf, -⟩ | ⟨v, hv, hp⟩
  · cases hf
  · obtain rfl := File.json.inj hv
    have hk := hl.evidenceKeys s (by simp [hw])
    obtain ⟨hr, hs⟩ := hk.parse.mp hp
    exact ⟨hs, hr⟩

/-- Without a state file at first, a call works with a new state until one has
been written. -/
theorem Legal.loaded (hl : Legal py m P .absent h f) (hf : Loads py m f fr) :
    (writtenStates h = [] ∧ ∃ now : Timestamp, fr.state = newExecutionState py fr.plan now.1) ∨
      (writtenStates h).head? = some fr.state := by
  cases hw : writtenStates h with
  | nil =>
      rcases hl.file with ⟨-, rfl⟩ | ⟨s, rest, hw', -⟩
      · rcases hf with ⟨-, hnew⟩ | ⟨v, hv, -⟩
        · exact .inl ⟨rfl, hnew⟩
        · cases hv
      · simp [hw] at hw'
  | cons s rest => exact .inr (congrArg some (hl.loads_eq hf hw).1.symm)

/-! ### Written states are a trace of the ledger -/

theorem Move.halted (hm : Move py fr s) : s.ledger.phase = .halted := by
  cases hm <;> rfl

theorem Finish.settled (hs : Finish fr inv id s) :
    s.ledger.phase = .ready ∨ s.ledger.phase = .halted := by
  obtain ⟨evidence, diagnostic, finishedAt, hd⟩ := hs
  unfold transitionAfterAssignment
  split
  · by_cases hlast : fr.plan.assignments.length ≤ inv.executing.nextAssignmentIndex + 1
    · exact .inr (by simp [transitionAfterCompletedAssignment, ExecutionState.ledger, hlast])
    · exact .inl (by simp [transitionAfterCompletedAssignment, ExecutionState.ledger, hlast])
  · exact .inr rfl
  · exact .inr rfl

theorem Move.step (hm : Move py fr s) : Ledger.Step fr.state.ledger s.ledger := by
  cases hm <;> exact Ledger.Step.halt _ _

theorem Cleared.step (hc : Cleared py fr inv id) :
    Ledger.Step fr.state.ledger inv.executing.ledger := by
  obtain ⟨now, hnow⟩ := hc.executing
  rw [hnow]
  rcases hc.ready.resumable with hs | hs
  · have hl : fr.state.ledger = ⟨fr.state.nextAssignmentIndex, .ready⟩ := by
      simp [ExecutionState.ledger, hs]
    rw [hl]
    exact Ledger.Step.begin _
  · have hl : fr.state.ledger =
        ⟨fr.state.nextAssignmentIndex, .asking fr.state.approvalNonce⟩ := by
      simp [ExecutionState.ledger, hs]
    rw [hl]
    exact Ledger.Step.beginAsked _ _

theorem Cleared.executing_status (hc : Cleared py fr inv id) : inv.executing.status = .executing := by
  obtain ⟨now, hnow⟩ := hc.executing
  rw [hnow]
  rfl

theorem Finish.step (hs : Finish fr inv id s) (he : inv.executing.status = .executing) :
    Ledger.Step inv.executing.ledger s.ledger := by
  have hl : inv.executing.ledger = ⟨inv.executing.nextAssignmentIndex, .running⟩ := by
    simp [ExecutionState.ledger, he]
  have hsettled := hs.settled
  obtain ⟨evidence, diagnostic, finishedAt, hd⟩ := hs
  rw [hl]
  unfold transitionAfterAssignment at hsettled ⊢
  split
  · rename_i hcompleted
    rw [hcompleted] at hsettled
    exact Ledger.Step.pass _ _ hsettled
  · exact Ledger.Step.halt _ _
  · exact Ledger.Step.halt _ _

/-- **Each written state is one step of the ledger after the one before it.** -/
theorem Legal.trace (hl : Legal py m P f₀ h f) :
    Ledger.Trace ((writtenStates h).map ExecutionState.ledger) := by
  have hcons : ∀ {h : List Event} {f : File} {fr : Frame} {s : ExecutionState},
      Legal py m P f₀ h f → Loads py m f fr → Ledger.Step fr.state.ledger s.ledger →
      Ledger.Trace ((writtenStates h).map ExecutionState.ledger) →
      Ledger.Trace ((s :: writtenStates h).map ExecutionState.ledger) := by
    intro h f fr s hl hf hstep ih
    cases hw : writtenStates h with
    | nil => exact List.isChain_singleton _
    | cons s' rest =>
        obtain ⟨heq, -⟩ := hl.loads_eq hf hw
        rw [hw] at ih
        exact List.isChain_cons_cons.mpr ⟨heq ▸ hstep, ih⟩
  induction hl with
  | start => exact List.isChain_nil
  | draw n hl ih => exact ih
  | move hl hp hf hm ih => exact hcons hl hf hm.step ih
  | wait hl hp hf hr hs hg now ih =>
      refine hcons hl hf ?_ ih
      rename_i h f t fr task n
      have hready : fr.state.ledger = ⟨fr.state.nextAssignmentIndex, .ready⟩ := by
        simp [ExecutionState.ledger, hs]
      rw [hready]
      exact Ledger.Step.ask _ _
  | begin hl hp hf hc ih => exact hcons hl hf hc.step ih
  | invoke hl hp hc ih => exact ih
  | finish hl hu hp hc hs ih =>
      obtain ⟨rest, hrest⟩ := hu.writtenStates hl
      rw [writtenStates_persisted, hrest]
      rw [hrest] at ih
      exact List.isChain_cons_cons.mpr ⟨hs.step hc.executing_status, ih⟩

/-! ### Begins and provider calls -/

/-- Every state is written from a frame its call can work with. -/
theorem Legal.permitted (hl : Legal py m P f₀ h f) (hs : .persisted t fr s ∈ h) : P t fr := by
  obtain ⟨newer, older, rfl⟩ := List.append_of_mem hs
  obtain ⟨f', hl'⟩ := hl.suffix
  cases hl' with
  | move hl hp hf hm => exact hp
  | wait hl hp hf hr hi hg now => exact hp
  | begin hl hp hf hc => exact hp
  | finish hl hu hp hc hfin => exact hp

/-- An `executing` state is persisted by a begin, from the state it loaded. -/
theorem Legal.executing_begin (hl : Legal py m P f₀ (.persisted t fr s :: h) f)
    (hs : s.status = .executing) :
    ∃ f', Legal py m P f₀ h f' ∧ Loads py m f' fr := by
  have hrun := ledger_running.mpr hs
  cases hl with
  | move hl hp hf hm => simp [hm.halted] at hrun
  | wait hl hp hf hr hi hg now => cases hs
  | begin hl hp hf hc => exact ⟨_, hl, hf⟩
  | finish hl hu hp hc hfin => rcases hfin.settled with hq | hq <;> simp [hq] at hrun

/-- A provider call stands right after the begin it belongs to, in the same
call. -/
theorem Legal.invoked_begin (hl : Legal py m P f₀ (.invoked t fr inv :: h) f) :
    ∃ h' id, h = .persisted t fr inv.executing :: h' ∧ Cleared py fr inv id ∧ P t fr := by
  cases hl with
  | invoke hl hp hc => exact ⟨_, _, rfl, hc, hp⟩

end Konoha
