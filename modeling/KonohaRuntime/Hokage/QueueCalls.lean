/-
Hokage/QueueCalls.lean

Any number of calls of `ActionQueue` on one mission, as a concurrent system.

What is assumed of the machine: a lock has one holder and goes when the holder dies;
an exclusive create succeeds for one caller; a rename is atomic.  Everything else may
go wrong.  An operation that raises may have been performed all the same, a write may
stop anywhere in its text, a dispatch may answer anything, and a call may die between
any two operations.
-/
import KonohaRuntime.Hokage.History

namespace Konoha.Hokage

open Effects Json

/-! ### What operations do -/

/-- The operation answers `v` and makes the directory `done`; when it raises it may have
done so or not. -/
def Performs {α : Type} (r : Except AuthorityExc α) (v : α) (d done d' : QueueDir) : Prop :=
  match r with
  | .ok a => a = v ∧ d' = done
  | .error _ => d' = d ∨ d' = done

namespace QueueDir

variable (d : QueueDir) (t : Tid)

/-- The holder of a lock once `t` has given it up. -/
def without (holder : Option Tid) : Option Tid := if holder = some t then none else holder

def createClaim (id : String) : QueueDir :=
  { d with
    claim := Function.update d.claim id emptyFile
    creator := Function.update d.creator id (some t) }

def writeClaim (id : String) (c : Content) : QueueDir :=
  { d with claim := Function.update d.claim id c }

/-- `temporary.replace(path)`, where the temporary file holds `q` -/
def persist (q : Queue) : QueueDir :=
  { d with queue := some q, tmp := none, events := .persisted q :: d.events }

def setLease (id : String) (holder : Option Tid) : QueueDir :=
  { d with lease := Function.update d.lease id holder }

/-- `t` has died. -/
def afterDeath : QueueDir :=
  { d with lock := without t d.lock, lease := fun id => without t (d.lease id) }

end QueueDir

/-- `queueStep t d o r d'`: performed by thread `t` in `d`, operation `o` may answer `r`
and leave `d'`. -/
def queueStep (t : Tid) (d : QueueDir) : (o : QueueOp) → o.Ans → QueueDir → Prop
  | .lock, r, d' =>
      match d.lock with
      | none => Performs r () d { d with lock := some t } d'
      | some _ => d' = d ∧ ∃ e, r = .error e
  | .unlock, r, d' => Performs r () d { d with lock := QueueDir.without t d.lock } d'
  | .queueExists, r, d' => d' = d ∧ ∀ found, r = .ok found → found = d.queue.isSome
  | .readQueue, r, d' => d' = d ∧ ∀ q, r = .ok q → d.queue = some q
  | .readAuthority, r, d' => d' = d ∧ ∀ files, r = .ok files → files = d.authority
  | .writeTmp q, r, d' => ∃ tmp, d' = { d with tmp := tmp } ∧ (r = .ok () → tmp = some q)
  | .replaceQueue, r, d' =>
      match d.tmp with
      | some q => Performs r () d (d.persist q) d'
      | none => d' = d ∧ ∃ e, r = .error e
  | .claimExists id, r, d' => d' = d ∧ ∀ found, r = .ok found → found = (d.claim id).isFile
  | .readClaim id, r, d' => d' = d ∧ ∀ c, r = .ok c → c = d.claim id
  | .createClaim id, r, d' =>
      if (d.claim id).isFile then d' = d ∧ ∃ e, r = .error e
      else Performs r () d (d.createClaim t id) d'
  -- no part of the text of a JSON object is one
  | .writeClaim id payload, _, d' =>
      ∃ c, c.isFile ∧ ((∀ v, c ≠ .json v) ∨ c = .json (.obj payload)) ∧ d' = d.writeClaim id c
  | .flockLease id, r, d' =>
      match d.lease id with
      | none => Performs r () d (d.setLease id (some t)) d'
      | some _ => d' = d ∧ ∃ e, r = .error e
  | .unlockLease id, r, d' =>
      Performs r () d (d.setLease id (QueueDir.without t (d.lease id))) d'
  | .dispatch action, _, d' => d' = { d with events := .dispatched t action :: d.events }
  | _, _, d' => d' = d

/-- What a healthy machine answers at time `now`, whose dispatches return nothing. -/
def queueAnswer (now : Timestamp) (t : Tid) (d : QueueDir) : (o : QueueOp) → o.Ans × QueueDir
  | .lock =>
      match d.lock with
      | none => (.ok (), { d with lock := some t })
      | some _ => (.error (.binding .actionQueueLockTimeout ""), d)
  | .unlock => (.ok (), { d with lock := QueueDir.without t d.lock })
  | .queueExists => (.ok d.queue.isSome, d)
  | .readQueue =>
      match d.queue with
      | some q => (.ok q, d)
      | none => (.error (.python (.fileNotFoundError "")), d)
  | .readAuthority => (.ok d.authority, d)
  | .writeTmp q => (.ok (), { d with tmp := some q })
  | .replaceQueue =>
      match d.tmp with
      | some q => (.ok (), d.persist q)
      | none => (.error (.python (.fileNotFoundError "")), d)
  | .claimExists id => (.ok (d.claim id).isFile, d)
  | .readClaim id => (.ok (d.claim id), d)
  | .createClaim id =>
      if (d.claim id).isFile then (.error (.python (.fileExistsError "")), d)
      else (.ok (), d.createClaim t id)
  | .writeClaim id payload => (.ok (), d.writeClaim id (.json (.obj payload)))
  | .flockLease id =>
      match d.lease id with
      | none => (.ok (), d.setLease id (some t))
      | some _ => (.error (.python (.osError "")), d)
  | .unlockLease id => (.ok (), d.setLease id (QueueDir.without t (d.lease id)))
  | .dispatch action => (.ok .null, { d with events := .dispatched t action :: d.events })
  | .utcNow => (.ok now, d)
  | .mkdir => (.ok (), d)
  | .openLock => (.ok (), d)
  | .fsyncClaim _ => (.ok (), d)
  | .closeClaim _ => (.ok (), d)
  | .openLease _ => (.ok (), d)

/-- A healthy machine does what operations may do. -/
theorem queueAnswer_step (now : Timestamp) (t : Tid) (d : QueueDir) (o : QueueOp) :
    queueStep t d o (queueAnswer now t d o).1 (queueAnswer now t d o).2 := by
  cases o with
  | lock =>
      rcases e : d.lock with - | t'
      · simp [queueStep, queueAnswer, e, Performs]
      · simp [queueStep, queueAnswer, e]
  | unlock => exact ⟨rfl, rfl⟩
  | queueExists => exact ⟨rfl, by rintro _ ⟨⟩; rfl⟩
  | readQueue =>
      rcases e : d.queue with - | q
      · simp [queueStep, queueAnswer, e]
      · simp [queueStep, queueAnswer, e]
  | readAuthority => exact ⟨rfl, by rintro _ ⟨⟩; rfl⟩
  | writeTmp q => exact ⟨some q, rfl, fun _ => rfl⟩
  | replaceQueue =>
      rcases e : d.tmp with - | q
      · simp [queueStep, queueAnswer, e]
      · simp [queueStep, queueAnswer, e, Performs]
  | claimExists id => exact ⟨rfl, by rintro _ ⟨⟩; rfl⟩
  | readClaim id => exact ⟨rfl, by rintro _ ⟨⟩; rfl⟩
  | createClaim id =>
      rcases e : (d.claim id).isFile with - | -
      · simp [queueStep, queueAnswer, e, Performs]
      · simp [queueStep, queueAnswer, e]
  | writeClaim id payload => exact ⟨_, rfl, .inr rfl, rfl⟩
  | flockLease id =>
      rcases e : d.lease id with - | t'
      · simp [queueStep, queueAnswer, e, Performs]
      · simp [queueStep, queueAnswer, e]
  | unlockLease id => exact ⟨rfl, rfl⟩
  | dispatch action => rfl
  | utcNow => rfl
  | mkdir => rfl
  | openLock => rfl
  | fsyncClaim id => rfl
  | closeClaim id => rfl
  | openLease id => rfl

/-! ### The system -/

/-- One call of an operation of `ActionQueue`. -/
inductive QueueCall
  | init (missionId planId : String)
  | append (missionId planId skillId : String) (extraArguments : Dict)
  | approve (id phrase approvedBy : String)
  | reject (id phrase expectedHash : String)
  | recover
  | block (id phrase expectedHash reason : String)
  | restore

/-- What a call runs; what it returns is left out. -/
def QueueCall.run (py : Stdlib) (dir : MissionPath) : QueueCall → QueueRun Unit
  | init missionId planId => discard (initializeQueue py dir missionId planId)
  | append missionId planId skillId extra =>
      discard (appendActionChecked py dir missionId planId skillId extra)
  | approve id phrase approvedBy => discard (approveAndDispatch py dir id phrase approvedBy)
  | reject id phrase expectedHash => discard (rejectActionChecked py dir id phrase expectedHash)
  | recover => discard (findRecoveryCandidates dir)
  | block id phrase expectedHash reason =>
      discard (blockInterruptedActionChecked py dir id phrase expectedHash reason)
  | restore => discard (Hokage.restore py dir)

/-- Any number of calls on one mission; nobody else touches its directory.  A call made
by a dispatch is a call like any other. -/
def queueCalls (py : Stdlib) (dir : MissionPath) :
    System QueueDir QueueCall QueueOp.Ans AuthorityExc Unit where
  call := fun _ c => c.run py dir
  step := queueStep
  die := fun t d d' => d' = d.afterDeath t
  env := fun _ d d' => d' = d

/-- A mission directory without a queue; what stands in its other files does not
matter. -/
def QueueDir.init (authority : AuthorityFiles) (claim : String → Content) : QueueDir where
  authority := authority
  queue := none
  tmp := none
  claim := claim
  lock := none
  lease := fun _ => none
  creator := fun _ => none
  events := []

end Konoha.Hokage
