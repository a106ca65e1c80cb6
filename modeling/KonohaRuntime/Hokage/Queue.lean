/-
Hokage/Queue.lean

The action queue of an approved mission: the operations of `ActionQueue` as programs
on the directory of the mission, and any number of such calls as a concurrent system.

Three things keep calls apart, over different spans: the lock on the queue file, taken
around every load and write; the execution claim of an action, created exclusively
and never removed; and the execution lease of an action, held while it is dispatched,
when the queue lock is not.  Locks and leases of a process go when it dies.

The queue file is only ever written by these calls, so it holds a `Queue` and not any
JSON value.  The polling of the queue lock is one operation that succeeds when the
lock is free or fails.
-/
import KonohaRuntime.Effects.Fallible
import KonohaRuntime.Effects.Deliver
import KonohaRuntime.Effects.Schedule
import KonohaRuntime.Runtime.Host
import KonohaRuntime.Hokage.Action

namespace Konoha.Hokage

open Effects Json

/-! ### The directory -/

/-- What `action_queue.json` holds; a queue that has never been written has no ids. -/
structure Queue where
  missionId : Option String
  planId : Option String
  actions : List Dict
  updatedAt : Option String
  deriving DecidableEq

/-- What `load` returns when there is no file. -/
def Queue.empty : Queue := ⟨none, none, [], none⟩

inductive QueueEvent
  | persisted (q : Queue)
  | dispatched (t : Tid) (action : Dict)
  deriving DecidableEq

/-- The directory of a mission, with the events so far, newest first. -/
structure QueueDir where
  authority : AuthorityFiles
  queue : Option Queue
  tmp : Option Queue
  claim : String → Content
  /-- the holder of `action_queue.lock` -/
  lock : Option Tid
  /-- the holders of `action_leases/*.lock` -/
  lease : String → Option Tid
  /-- who has created a claim file -/
  creator : String → Option Tid
  events : List QueueEvent

/-- The operations of a call. -/
inductive QueueOp
  | utcNow
  | mkdir
  /-- open `action_queue.lock`, and read the clock -/
  | openLock
  /-- `flock(fd, LOCK_EX | LOCK_NB)` until it succeeds or the time is over -/
  | lock
  /-- `flock(fd, LOCK_UN)` and `os.close(fd)` -/
  | unlock
  /-- `self.path.exists()` -/
  | queueExists
  | readQueue
  /-- the authoritative files, as one validation reads them -/
  | readAuthority
  /-- `write_text` of `action_queue.json.tmp` -/
  | writeTmp (q : Queue)
  /-- `temporary.replace(path)` -/
  | replaceQueue
  /-- the claim file of an action is there -/
  | claimExists (id : String)
  | readClaim (id : String)
  /-- `os.open(path, O_CREAT | O_EXCL | O_WRONLY)` -/
  | createClaim (id : String)
  /-- `os.write` of a claim, which may stop anywhere in its text -/
  | writeClaim (id : String) (payload : Dict)
  | fsyncClaim (id : String)
  | closeClaim (id : String)
  | openLease (id : String)
  /-- `flock(fd, LOCK_EX | LOCK_NB)` on a lease file -/
  | flockLease (id : String)
  /-- `flock(fd, LOCK_UN)` and `os.close(fd)` on a lease file -/
  | unlockLease (id : String)
  /-- `dispatch(action)` -/
  | dispatch (action : Dict)

abbrev QueueOp.Value : QueueOp → Type
  | .utcNow => Timestamp
  | .queueExists => Bool
  | .readQueue => Queue
  | .readAuthority => AuthorityFiles
  | .claimExists _ => Bool
  | .readClaim _ => Content
  | .dispatch _ => Json
  | _ => Unit

abbrev QueueOp.Ans (o : QueueOp) : Type := Except AuthorityExc o.Value

abbrev QueueRun (α : Type) := Prog QueueOp.Ans AuthorityExc α

open Prog (ofExcept)

/-- Perform an operation on the directory of the mission. -/
abbrev onQueue (o : QueueOp) : QueueRun o.Value := Prog.ask o

/-! ### Actions in a queue -/

/-- `action["action_id"]` -/
def actionId (action : Dict) : String := textOf (fieldOf action "action_id")

/-- `action.get("status")`, as a text -/
def status (action : Dict) : String := textOf (fieldOf action "status")

/-- The action of an id, the first one. -/
def Queue.find (q : Queue) (id : String) : Option Dict := q.actions.find? fun a => actionId a == id

/-- The first action with the id of `action` becomes `action`. -/
def replaceFirst (action : Dict) : List Dict → List Dict
  | [] => []
  | a :: rest => if actionId a = actionId action then action :: rest else a :: replaceFirst action rest

/-- `_find_locked` -/
def findLocked (py : Stdlib) (q : Queue) (id : String) : Except AuthorityExc Dict :=
  match q.find id with
  | some action => .ok action
  | none => .error (.python (.exception (py.repr (.str id))))

/-! ### Locks -/

/-- `with _QueueLock(self.mission_dir): body` -/
def withQueueLock {α : Type} (body : QueueRun α) : QueueRun α := do
  onQueue .openLock
  onQueue .lock
  let r ← Prog.attempt body
  onQueue .unlock
  ofExcept r

/-- `_ExecutionLease.acquire` -/
def acquireLease (dir : MissionPath) (id : String) : QueueRun Unit := do
  onQueue .mkdir
  onQueue (.openLease id)
  match ← Prog.attempt (onQueue (.flockLease id)) with
  | .ok _ => return ()
  | .error (.python e) =>
      if e.isOSError then
        .raise (.binding .executionStillActive
          ("execution lease already held for this action: " ++ dir.path ++ "/action_leases/" ++
            id ++ ".lock"))
      else .raise (.python e)
  | .error e => .raise e

/-- `_ExecutionLease.release` -/
def releaseLease (id : String) : QueueRun Unit := onQueue (.unlockLease id)

/-- `_lease_is_held` -/
def leaseIsHeld (id : String) : QueueRun Bool := do
  onQueue .mkdir
  onQueue (.openLease id)
  match ← Prog.attempt (onQueue (.flockLease id)) with
  | .ok _ => do
      onQueue (.unlockLease id)
      return false
  | .error (.python e) => if e.isOSError then return true else .raise (.python e)
  | .error e => .raise e

/-! ### Reading -/

/-- `load` -/
def load : QueueRun Queue := do
  if ← onQueue .queueExists then onQueue .readQueue else return Queue.empty

/-- `load_authoritative_state` -/
def loadAuthority (py : Stdlib) (dir : MissionPath) : QueueRun (Dict × Dict) := do
  let files ← onQueue .readAuthority
  ofExcept (loadAuthoritativeState py dir files)

/-- `validate_action_authority` -/
def validateAuthority (py : Stdlib) (dir : MissionPath) (action : Dict) (phase : Phase) :
    QueueRun Unit := do
  ofExcept (validateActionIdentity py action phase)
  let (charter, decision) ← loadAuthority py dir
  ofExcept (validateActionBinding py action charter decision)

/-! ### Claims -/

/-- `_CLAIM_REQUIRED_KEYS` -/
def claimKeys : List String :=
  ["schema_version", "report_type", "mission_id", "plan_id", "action_id", "arguments_hash",
   "approved_by", "approved_at", "claimed_at"]

/-- `_CLAIM_BINDING_FIELDS` -/
def claimBindingFields : List String := ["mission_id", "plan_id", "action_id", "arguments_hash"]

/-- The claim of an action. -/
def claimOf (action : Dict) (approvedBy approvedAt claimedAt : String) : Dict :=
  [("schema_version", .str "1.1.0"), ("report_type", .str "conversational_execution_claim"),
   ("mission_id", fieldOf action "mission_id"), ("plan_id", fieldOf action "plan_id"),
   ("action_id", fieldOf action "action_id"), ("arguments_hash", fieldOf action "arguments_hash"),
   ("approved_by", .str approvedBy), ("approved_at", .str approvedAt),
   ("claimed_at", .str claimedAt)]

/-- The shape of a claim: its keys, its version and its type. -/
def validateClaimShape (claim : Dict) : Except AuthorityExc Unit := do
  require (hasKeys claimKeys claim) .executionClaimInvalid "execution claim has an unexpected shape"
  require (fieldOf claim "schema_version" = .str "1.1.0" ∧
      fieldOf claim "report_type" = .str "conversational_execution_claim") .executionClaimInvalid
    "execution claim schema_version/report_type mismatch"

/-- The checks of `_publish_execution_claim` on what has been published. -/
def validatePublishedClaim (claim payload : Dict) : Except AuthorityExc Unit := do
  validateClaimShape claim
  require (∀ key ∈ claimBindingFields, fieldOf claim key = fieldOf payload key)
    .executionClaimBindingMismatch
    "an execution claim already exists for this action_id with different binding"

/-- The checks of `verify_execution_claim` on a claim that has been read. -/
def validateClaim (claim action : Dict) : Except AuthorityExc Unit := do
  validateClaimShape claim
  require (∀ key ∈ claimBindingFields, fieldOf claim key = fieldOf action key)
    .executionClaimBindingMismatch
    "execution claim does not match this action's identity/arguments_hash"
  let evidence := fieldOf action "evidence"
  require (isDict evidence → ∀ key ∈ ["approved_by", "approved_at", "arguments_hash"],
      fieldOf claim key = fieldOf (dictOf evidence) key) .executionClaimBindingMismatch
    "execution claim does not match action.evidence"

def claimPath (dir : MissionPath) (id : String) : String :=
  dir.path ++ "/action_claims/" ++ id ++ ".json"

/-- `json.loads(path.read_text(encoding="utf-8"))` of a claim, in
`verify_execution_claim`. -/
def parseClaim (content : Content) : Except AuthorityExc Dict :=
  match content with
  | .absent => .error (.binding .executionClaimInvalid "execution claim unreadable: file missing")
  | .unreadable text | .malformed text =>
      .error (.binding .executionClaimInvalid ("execution claim unreadable: " ++ text))
  | .undecodable text => .error (.python (.valueError text))
  | .unloadable e => .error (.python e)
  | .json (.obj claim) => .ok claim
  | .json _ => .error (.binding .executionClaimInvalid "execution claim has an unexpected shape")

/-- `verify_execution_claim` -/
def verifyExecutionClaim (dir : MissionPath) (action : Dict) : QueueRun Unit := do
  if ← onQueue (.claimExists (actionId action)) then do
    let content ← onQueue (.readClaim (actionId action))
    let claim ← ofExcept (parseClaim content)
    ofExcept (validateClaim claim action)
  else
    .raise (.binding .executionClaimMissing
      ("no execution claim at " ++ claimPath dir (actionId action)))

/-- `_publish_execution_claim` -/
def publishExecutionClaim (dir : MissionPath) (action : Dict) (approvedBy approvedAt : String) :
    QueueRun Unit := do
  let id := actionId action
  let now ← onQueue .utcNow
  let payload := claimOf action approvedBy approvedAt now.1
  onQueue .mkdir
  match ← Prog.attempt (onQueue (.createClaim id)) with
  | .error (.python (.fileExistsError _)) => do
      let content ← onQueue (.readClaim id)
      let existing ← ofExcept
        (readAuthoritativeJson (claimPath dir id) content .executionClaimInvalid)
      ofExcept (validatePublishedClaim existing payload)
      .raise (.binding .executionAlreadyClaimed
        ("an execution claim already exists for this action; recover it via " ++
          "find_recovery_candidates()/block_interrupted_action_checked(), never by re-approving"))
  | .error e => .raise (osErrorAs .executionClaimInvalid ("could not create " ++ claimPath dir id) e)
  | .ok _ => do
      let written ← Prog.attempt (do
        onQueue (.writeClaim id payload)
        onQueue (.fsyncClaim id))
      onQueue (.closeClaim id)
      match written with
      | .error e =>
          .raise (osErrorAs .executionClaimInvalid ("could not write " ++ claimPath dir id) e)
      | .ok _ => ofExcept (validatePublishedClaim payload payload)

/-! ### Writing -/

/-- `_write_locked`, with the queue as it is afterwards. -/
def writeLocked (q : Queue) : QueueRun Queue := do
  let now ← onQueue .utcNow
  let q := { q with updatedAt := some now.1 }
  onQueue .mkdir
  onQueue (.writeTmp q)
  onQueue .replaceQueue
  return q

/-- The checks of a compare-and-set on an action. -/
def compareAction (action : Dict) (expectedStatus : String) (expectedHash : Json) :
    Except AuthorityExc Unit := do
  require (fieldOf action "status" = .str expectedStatus) .approvalBindingMismatch
    ("expected status '" ++ expectedStatus ++ "', found '" ++ status action ++ "'")
  require (fieldOf action "arguments_hash" = expectedHash) .argumentsHashMismatch
    "expected_arguments_hash does not match the current action"

/-- `_transition_locked` -/
def transitionLocked (py : Stdlib) (dir : MissionPath) (payload : Queue) (id expectedStatus : String)
    (expectedHash : Json) (newStatus : String) (evidence : Dict) : QueueRun (Queue × Dict) := do
  let action ← ofExcept (findLocked py payload id)
  ofExcept (compareAction action expectedStatus expectedHash)
  verifyExecutionClaim dir action
  let now ← onQueue .utcNow
  let action := setField "evidence" (.obj evidence)
    (setField "updated_at" (.str now.1) (setField "status" (.str newStatus) action))
  let payload ← writeLocked { payload with actions := replaceFirst action payload.actions }
  return (payload, action)

/-- `_mark_blocked_locked` -/
def markBlockedLocked (py : Stdlib) (dir : MissionPath) (payload : Queue)
    (id expectedStatus : String) (expectedHash : Json) (reason : String) : QueueRun Dict := do
  let action ← ofExcept (findLocked py payload id)
  ofExcept (compareAction action expectedStatus expectedHash)
  verifyExecutionClaim dir action
  validateAuthority py dir action .restore
  let now ← onQueue .utcNow
  let action := setField "blocked_reason" (.str reason)
    (setField "updated_at" (.str now.1) (setField "status" (.str "blocked") action))
  let _ ← writeLocked { payload with actions := replaceFirst action payload.actions }
  return action

/-! ### The operations of `ActionQueue` -/

/-- `_restore_locked` -/
def restoreLocked (py : Stdlib) (dir : MissionPath) (payload : Queue) : QueueRun Queue := do
  payload.actions.forM fun action => do
    validateAuthority py dir action .restore
    if fieldOf action "status" = .str "running" then verifyExecutionClaim dir action else return ()
  return payload

/-- `restore` -/
def restore (py : Stdlib) (dir : MissionPath) : QueueRun Queue :=
  withQueueLock do
    let payload ← load
    restoreLocked py dir payload

/-- `_build_action`, which reads the clock at its end. -/
def proposeAction (py : Stdlib) (missionId planId tier : String) (charter decision extra : Dict)
    (skillId : String) : QueueRun Dict := do
  let now ← onQueue .utcNow
  ofExcept (buildAction py missionId planId skillId tier charter decision extra now.1)

/-- `initialize`, where there is no queue file yet -/
def initializeLocked (py : Stdlib) (dir : MissionPath) (missionId planId : String) :
    QueueRun Queue := do
  let (charter, decision) ← loadAuthority py dir
  ofExcept (require (fieldOf charter "mission_id" = .str missionId) .missionBindingMismatch
    "initialize() mission_id does not match the approved charter")
  let actions ← (skillsOf charter "proposed_skills").mapM
    (proposeAction py missionId planId "initial" charter decision [])
  actions.forM fun action => validateAuthority py dir action .queueInit
  writeLocked ⟨some missionId, some planId, actions, none⟩

/-- `initialize` -/
def initializeQueue (py : Stdlib) (dir : MissionPath) (missionId planId : String) : QueueRun Queue :=
  withQueueLock do
    if ← onQueue .queueExists then do
      let payload ← load
      restoreLocked py dir payload
    else initializeLocked py dir missionId planId

/-- The fields that `append_action_checked` compares with an action of the same id; key
order is no difference. -/
def sameProposal (existing candidate : Dict) : Bool :=
  (["arguments_hash", "mission_id", "plan_id", "skill_id", "tier"].all fun key =>
    fieldOf existing key == fieldOf candidate key) &&
  sortKeys (fieldOf existing "arguments") == sortKeys (fieldOf candidate "arguments")

/-- `append_action_checked` -/
def appendActionChecked (py : Stdlib) (dir : MissionPath) (missionId planId skillId : String)
    (extraArguments : Dict) : QueueRun Dict :=
  withQueueLock do
    let payload ← load
    ofExcept (require (payload.missionId = some missionId) .missionBindingMismatch
      "append_action_checked() mission_id does not match the queue")
    let (charter, decision) ← loadAuthority py dir
    let candidate ← proposeAction py missionId planId "followup" charter decision extraArguments
      skillId
    match payload.find (actionId candidate) with
    | some existing => do
        ofExcept (require (sameProposal existing candidate) .argumentsHashMismatch
          ("action_id " ++ actionId candidate ++ " already exists with different content"))
        validateAuthority py dir existing .restore
        return existing
    | none => do
        validateAuthority py dir candidate .followupAppend
        let _ ← writeLocked { payload with actions := payload.actions ++ [candidate] }
        return candidate

/-- The approval evidence of an action. -/
def evidenceOf (approvedBy approvedAt : String) (argumentsHash : Json) : Dict :=
  [("approved_by", .str approvedBy), ("approved_at", .str approvedAt),
   ("arguments_hash", argumentsHash)]

/-- The compare-and-set to `running` and the checks after it, under the queue lock and
the lease. -/
def startLocked (py : Stdlib) (dir : MissionPath) (payload : Queue) (id : String)
    (argumentsHash : Json) (evidence : Dict) : QueueRun Dict := do
  let (payload, action) ← transitionLocked py dir payload id "proposed" argumentsHash "running"
    evidence
  match ← Prog.attempt (do
      validateAuthority py dir action .preDispatch
      verifyExecutionClaim dir action) with
  | .ok _ => return action
  | .error e =>
      if e.isException then do
        let _ ← markBlockedLocked py dir payload id "running" argumentsHash
          "authority or claim check failed after claim and before dispatch"
        .raise e
      else .raise e

/-- The first part of `approve_and_dispatch`, under the queue lock: it ends with the
lease held. -/
def approveLocked (py : Stdlib) (dir : MissionPath) (id phrase approvedBy approvedAt : String) :
    QueueRun (Dict × Json) := do
  let payload ← load
  let proposal ← ofExcept (findLocked py payload id)
  validateAuthority py dir proposal .restore
  ofExcept (require (fieldOf proposal "status" = .str "proposed") .approvalBindingMismatch
    ("only a proposed action can be dispatched, found '" ++ status proposal ++ "'"))
  ofExcept (require (fieldOf proposal "approval_phrase" = .str (strip phrase))
    .approvalBindingMismatch "approval phrase does not match action.approval_phrase")
  ofExcept (require (approvedBy ≠ "") .approvalBindingMismatch
    "approved_by must be a non-empty string")
  let hash := fieldOf proposal "arguments_hash"
  publishExecutionClaim dir proposal approvedBy approvedAt
  acquireLease dir id
  match ← Prog.attempt (startLocked py dir payload id hash (evidenceOf approvedBy approvedAt hash)) with
  | .ok action => return (action, hash)
  | .error e =>
      if e.isException then do
        releaseLease id
        .raise e
      else .raise e

/-- The last part of `approve_and_dispatch`, under the queue lock again. -/
def finishLocked (py : Stdlib) (dir : MissionPath) (id : String) (hash : Json) (newStatus : String)
    (evidence : Dict) : QueueRun Dict :=
  withQueueLock do
    let payload ← load
    let (_, action) ← transitionLocked py dir payload id "running" hash newStatus evidence
    return action

/-- `try: body finally: lease.release()` -/
def releasing {α : Type} (id : String) (body : QueueRun α) : QueueRun α := do
  let r ← Prog.attempt body
  releaseLease id
  ofExcept r

/-- `approve_and_dispatch`; what `dispatch` does is answered by the surroundings. -/
def approveAndDispatch (py : Stdlib) (dir : MissionPath) (id phrase approvedBy : String) :
    QueueRun Dict := do
  let approvedAt ← onQueue .utcNow
  let (action, hash) ← withQueueLock (approveLocked py dir id phrase approvedBy approvedAt.1)
  let evidence := evidenceOf approvedBy approvedAt.1 hash
  releasing id do
    match ← Prog.attempt (onQueue (.dispatch action)) with
    | .error e =>
        if e.isException then do
          let _ ← finishLocked py dir id hash "failed" (setField "result" .null evidence)
          .raise e
        else .raise e
    | .ok result => finishLocked py dir id hash "completed" (setField "result" result evidence)

/-- `reject_action_checked` -/
def rejectActionChecked (py : Stdlib) (dir : MissionPath) (id phrase expectedHash : String) :
    QueueRun Dict :=
  withQueueLock do
    let payload ← load
    let action ← ofExcept (findLocked py payload id)
    ofExcept (require (fieldOf action "status" = .str "proposed") .approvalBindingMismatch
      ("only a proposed action can be rejected, found '" ++ status action ++ "'"))
    ofExcept (require (fieldOf action "arguments_hash" = .str expectedHash) .argumentsHashMismatch
      "expected_arguments_hash does not match the current action")
    if ← onQueue (.claimExists id) then do
      verifyExecutionClaim dir action
      .raise (.binding .executionAlreadyClaimed
        "a claimed action cannot be rejected directly; use recovery")
    else do
      validateAuthority py dir action .restore
      ofExcept (require (fieldOf action "rejection_phrase" = .str (strip phrase))
        .approvalBindingMismatch "rejection phrase does not match action.rejection_phrase")
      let now ← onQueue .utcNow
      let action := setField "updated_at" (.str now.1) (setField "status" (.str "rejected") action)
      let _ ← writeLocked { payload with actions := replaceFirst action payload.actions }
      return action

/-- `recovery_status` -/
inductive RecoveryStatus
  | normalPending
  | interruptedClaimed
  | activeRunning
  | interruptedRunning
  deriving DecidableEq

structure RecoveryCandidate where
  actionId : String
  status : String
  recoveryStatus : RecoveryStatus
  deriving DecidableEq

/-- The classification of one action that is not terminal. -/
def classify (dir : MissionPath) (action : Dict) : QueueRun RecoveryCandidate := do
  let id := actionId action
  let hasClaim ← onQueue (.claimExists id)
  if fieldOf action "status" = .str "proposed" then
    if hasClaim then do
      verifyExecutionClaim dir action
      return ⟨id, "proposed", .interruptedClaimed⟩
    else return ⟨id, "proposed", .normalPending⟩
  else if hasClaim then do
    verifyExecutionClaim dir action
    let held ← leaseIsHeld id
    return ⟨id, "running", if held then .activeRunning else .interruptedRunning⟩
  else
    .raise (.binding .executionClaimMissing
      ("running action " ++ id ++ " has no execution claim; " ++
        "this is corruption, not a recoverable state"))

/-- The actions that recovery looks at. -/
def isPending (action : Dict) : Bool :=
  fieldOf action "status" == .str "proposed" || fieldOf action "status" == .str "running"

/-- `find_recovery_candidates` -/
def findRecoveryCandidates (dir : MissionPath) : QueueRun (List RecoveryCandidate) :=
  withQueueLock do
    let payload ← load
    (payload.actions.filter isPending).mapM (classify dir)

/-- `interrupted_recovery_phrase` -/
def interruptedRecoveryPhrase (id : String) : String :=
  "BLOQUEAR INTERRUMPIDA-" ++
    String.ofList ((id.toList.drop "action-".toList.length).map Char.toUpper)

/-- `block_interrupted_action_checked` -/
def blockInterruptedActionChecked (py : Stdlib) (dir : MissionPath)
    (id phrase expectedHash reason : String) : QueueRun Dict :=
  withQueueLock do
    let payload ← load
    let action ← ofExcept (findLocked py payload id)
    ofExcept (require (isPending action) .approvalBindingMismatch
      ("only a proposed or running action can be recovered, found '" ++ status action ++ "'"))
    ofExcept (require (fieldOf action "arguments_hash" = .str expectedHash) .argumentsHashMismatch
      "expected_arguments_hash does not match the current action")
    ofExcept (require (strip phrase = interruptedRecoveryPhrase id) .approvalBindingMismatch
      "recovery phrase does not match interrupted_recovery_phrase(action_id)")
    verifyExecutionClaim dir action
    validateAuthority py dir action .restore
    acquireLease dir id
    releasing id do
      verifyExecutionClaim dir action
      markBlockedLocked py dir payload id (status action) (.str expectedHash) reason

end Konoha.Hokage
