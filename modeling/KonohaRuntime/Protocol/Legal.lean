/-
Protocol/Legal.lean

The events of one mission that the runtime can cause, as a protocol of its own:
no programs and no threads, only what is drawn, persisted and invoked, and what
`execution_state.json` holds after it.

`Move` lists what one call may persist after it has read the disk, `Finish`
what it may persist after it ran the assignment, and `Legal` puts them
together.  `Legal.trace` reads two consecutive written states as a step of the
`Ledger`, which is all the at-most-once argument needs.
-/
import KonohaRuntime.Protocol.Ledger
import KonohaRuntime.Runtime.Executor

namespace Konoha

open Effects Json

variable (py : Stdlib)

/-! ### What one call may persist -/

/-- The state a call works with is what it read from `execution_state.json`. -/
def Loads (m : String) (f : File) (fr : Frame) : Prop :=
  (f = .absent ∧ ∃ now : Timestamp, fr.state = newExecutionState py fr.plan now.1) ∨
    ∃ v, f = .json v ∧ parseExecutionState py m v = .ok fr.state

/-- A call has passed the checks of its state and arrived at its current task. -/
structure Ready (fr : Frame) (task : AgentAssignment) : Prop where
  coherent : Coherent py fr.plan fr.state
  resumable : fr.state.status = .inProgress ∨ fr.state.status = .waitingForApproval
  current : fr.plan.currentTask fr.state = some task

/-- The gate of the current task is open; `id` is the approval it took. -/
inductive Opened (fr : Frame) (task : AgentAssignment) : Option Digest → Prop
  | byPlan (hgate : task.executionGate = planApproval)
      (happroved : fr.plan.approval.get "status" = .ok (.str "approved")) : Opened fr task none
  | byHuman (a : AssignmentApproval) (hgiven : fr.approval = .given a)
      (ha : Authorizes py a fr.plan fr.state task) : Opened fr task (some (approvalId py a))

/-- The assignment may be run: its gate is open and its sources are there. -/
structure Cleared (fr : Frame) (inv : Invocation) (id : Option Digest) : Prop where
  ready : Ready py fr inv.task
  immutable : inv.task.mutation.truthy = false
  opened : Opened py fr inv.task id
  records : inv.records.map (·.taskId) = fr.state.completedTaskIds
  sources : GatePassed fr.plan inv.task inv.family inv.records
  executing : ∃ now : Timestamp,
    inv.executing = transitionToExecuting fr.state inv.task id now.1

/-- A call has found that it cannot go on from its state: the checks fail, or the
state passes them and is not final. -/
def NeedsRecovery (fr : Frame) (diagnostic : String) : Prop :=
  validateExecutionStateInvariants py fr.plan fr.state = .ok (some diagnostic) ∨
    Coherent py fr.plan fr.state ∧ fr.state.status.nonResumable = false

/-- What a call may persist without running anything, but a waiting state. -/
inductive Move (fr : Frame) : ExecutionState → Prop
  | recover (diagnostic : String) (now : Timestamp) (hd : nonBlank diagnostic = true)
      (hn : NeedsRecovery py fr diagnostic) :
      Move fr (recoveryResult fr.state diagnostic now.1)
  | block (task : AgentAssignment) (now : Timestamp) (hr : Ready py fr task) :
      Move fr (transitionToBlocked fr.state task "mutation_runtime_not_supported" now.1)
  | fail (task : AgentAssignment) (diagnostic : String) (consumed : Option Digest)
      (now : Timestamp) (hr : Ready py fr task) (hd : nonBlank diagnostic = true) :
      Move fr (transitionToFailedBeforeExecution fr.state task diagnostic consumed now.1)

/-- What a call may persist after the assignment has run. -/
inductive Finish (fr : Frame) (inv : Invocation) (id : Option Digest) : ExecutionState → Prop
  | mk (evidence : EvidenceRecord) (diagnostic : String) (finishedAt : Timestamp)
      (hd : nonBlank diagnostic = true) :
      Finish fr inv id (transitionAfterAssignment inv.executing fr.plan inv.task evidence id
        diagnostic finishedAt.1)

/-! ### Legal histories -/

/-- The last event is the begin of this run, or its provider call. -/
def Underway (t : Tid) (fr : Frame) (inv : Invocation) (h : List Event) : Prop :=
  (∃ h', h = .persisted t fr inv.executing :: h') ∨ ∃ h', h = .invoked t fr inv :: h'

/-- The histories (newest event first) of mission `m`, with the content of its
`execution_state.json`, when every call `t` works with frames that satisfy `P t`
and the file held `f₀` at first. -/
inductive Legal (m : String) (P : Tid → Frame → Prop) (f₀ : File) : List Event → File → Prop
  | start : Legal m P f₀ [] f₀
  | draw {h : List Event} {f : File} (n : Nonce) (hl : Legal m P f₀ h f) :
      Legal m P f₀ (.drew n :: h) f
  | move {h : List Event} {f : File} {t : Tid} {fr : Frame} {s : ExecutionState}
      (hl : Legal m P f₀ h f) (hp : P t fr) (hf : Loads py m f fr) (hm : Move py fr s) :
      Legal m P f₀ (.persisted t fr s :: h) (.json (s.asdict py))
  | wait {h : List Event} {f : File} {t : Tid} {fr : Frame} {task : AgentAssignment} {n : Nonce}
      (hl : Legal m P f₀ (.drew n :: h) f) (hp : P t fr) (hf : Loads py m f fr)
      (hr : Ready py fr task) (hs : fr.state.status = .inProgress)
      (hg : task.executionGate = separateHumanApproval) (now : Timestamp) :
      Legal m P f₀
        (.persisted t fr
          (transitionToWaiting fr.state task n "esperando aprobación humana" now.1) ::
            .drew n :: h)
        (.json ((transitionToWaiting fr.state task n "esperando aprobación humana" now.1).asdict
          py))
  | begin {h : List Event} {f : File} {t : Tid} {fr : Frame} {inv : Invocation}
      {id : Option Digest} (hl : Legal m P f₀ h f) (hp : P t fr) (hf : Loads py m f fr)
      (hc : Cleared py fr inv id) :
      Legal m P f₀ (.persisted t fr inv.executing :: h) (.json (inv.executing.asdict py))
  | invoke {h : List Event} {t : Tid} {fr : Frame} {inv : Invocation} {id : Option Digest}
      (hl : Legal m P f₀ (.persisted t fr inv.executing :: h) (.json (inv.executing.asdict py)))
      (hp : P t fr) (hc : Cleared py fr inv id) :
      Legal m P f₀ (.invoked t fr inv :: .persisted t fr inv.executing :: h)
        (.json (inv.executing.asdict py))
  | finish {h : List Event} {t : Tid} {fr : Frame} {inv : Invocation} {id : Option Digest}
      {s : ExecutionState} (hl : Legal m P f₀ h (.json (inv.executing.asdict py)))
      (hu : Underway t fr inv h) (hp : P t fr) (hc : Cleared py fr inv id)
      (hs : Finish fr inv id s) :
      Legal m P f₀ (.persisted t fr s :: h) (.json (s.asdict py))

end Konoha
