/-
Release/Status.lean

The status of a supervised release: what `inspect_release_status` finds out without
changing anything, and the recovery state that `derive_recovery_state` makes of it.
-/
import KonohaRuntime.Release.Guard

namespace Konoha.Release

open Effects Prog

variable (plan : Plan)

/-! ### Commands of the workflow -/

/-- `require_command` -/
def requireCommand {α : Type} (label : String) : Result α → Except ReleaseExc α
  | .ok out => .ok out
  | .failed returncode _ detail =>
      .error (.workflowError (label ++ " failed with RC=" ++ toString returncode ++ ": " ++
        if detail = "" then "no output" else detail))

/-- `require_command(self.runner(…), label)` -/
def required {α : Type} (label : String) (answer : Run (Result α)) : Run α := do
  let result ← answer
  ofExcept (requireCommand label result)

/-- `git_stdout` of the workflow -/
def gitStdout {α : Type} (c : Cmd) (answer : Run (Result α)) : Run α :=
  required ("git " ++ " ".intercalate (c.arguments plan)) answer

/-- The strings sorted, each once. -/
def sortedSet (lines : List String) : List String :=
  (lines.mergeSort fun a b => decide (a ≤ b)).dedup

/-- `collect_scope` -/
def collectScope : Run (List String) := do
  let changed ← gitStdout plan .diffNames (run .diffNames)
  let untracked ← gitStdout plan .untracked (run .untracked)
  return sortedSet (changed ++ untracked)

/-- `collect_commit_paths` -/
def collectCommitPaths (c : Oid) : Run (List String) := do
  let paths ← gitStdout plan (.diffTree c) (run (.diffTree c))
  return paths.mergeSort fun a b => decide (a ≤ b)

/-- `HEAD` is the commit that the plan describes. -/
def alignedCommit (parent : Oid) (subject : String) (paths : List String) : Bool :=
  parent = plan.expectedBaseCommit ∧ subject = plan.commitMessage ∧ paths = plan.publicPaths

/-! ### The snapshot -/

structure LocalTagStatus where
  exists' : Bool
  object : Option Oid
  annotated : Bool
  targetMatchesHead : Bool

structure RemoteTagStatus where
  exists' : Bool
  targetMatchesHead : Bool
  objectMatchesLocal : Bool

structure ReleaseStatus where
  exists' : Bool
  tagMatches : Bool
  titleMatches : Bool
  draft : Option Bool
  prerelease : Option Bool
  latest : Bool

/-- What the remote and GitHub say. -/
structure RemoteStatus where
  branchHead : Option Oid
  tag : RemoteTagStatus
  release : ReleaseStatus

structure Snapshot where
  branch : String
  head : Oid
  workingTreeClean : Bool
  scopeMatches : Bool
  releaseCommitAligned : Bool
  tracking : Option (Nat × Nat)
  networkRequested : Bool
  localTag : LocalTagStatus
  remote : RemoteStatus

/-! ### The recovery state -/

inductive RecoveryCode
  | blockedBranchMismatch
  | needsPackageApply
  | blockedScopeMismatch
  | needsGitDelivery
  | blockedCommitDivergence
  | blockedWorkingTree
  | blockedTrackingUnknown
  | blockedBranchDivergence
  | needsBranchPush
  | needsRemoteInspection
  | blockedRemoteBranchDivergence
  | needsTagCreation
  | blockedLocalTagDivergence
  | needsTagPublication
  | blockedRemoteTagDivergence
  | needsReleasePublication
  | blockedReleaseDivergence
  | needsLatestPromotion
  | releaseClosed
  | blockedRemoteInspection
  deriving DecidableEq

namespace RecoveryCode

def text : RecoveryCode → String
  | blockedBranchMismatch => "BLOCKED_BRANCH_MISMATCH"
  | needsPackageApply => "NEEDS_PACKAGE_APPLY"
  | blockedScopeMismatch => "BLOCKED_SCOPE_MISMATCH"
  | needsGitDelivery => "NEEDS_GIT_DELIVERY"
  | blockedCommitDivergence => "BLOCKED_COMMIT_DIVERGENCE"
  | blockedWorkingTree => "BLOCKED_WORKING_TREE"
  | blockedTrackingUnknown => "BLOCKED_TRACKING_UNKNOWN"
  | blockedBranchDivergence => "BLOCKED_BRANCH_DIVERGENCE"
  | needsBranchPush => "NEEDS_BRANCH_PUSH"
  | needsRemoteInspection => "NEEDS_REMOTE_INSPECTION"
  | blockedRemoteBranchDivergence => "BLOCKED_REMOTE_BRANCH_DIVERGENCE"
  | needsTagCreation => "NEEDS_TAG_CREATION"
  | blockedLocalTagDivergence => "BLOCKED_LOCAL_TAG_DIVERGENCE"
  | needsTagPublication => "NEEDS_TAG_PUBLICATION"
  | blockedRemoteTagDivergence => "BLOCKED_REMOTE_TAG_DIVERGENCE"
  | needsReleasePublication => "NEEDS_RELEASE_PUBLICATION"
  | blockedReleaseDivergence => "BLOCKED_RELEASE_DIVERGENCE"
  | needsLatestPromotion => "NEEDS_LATEST_PROMOTION"
  | releaseClosed => "RELEASE_CLOSED"
  | blockedRemoteInspection => "BLOCKED_REMOTE_INSPECTION"

/-- `blocked` -/
def blocked : RecoveryCode → Bool
  | blockedBranchMismatch | blockedScopeMismatch | blockedCommitDivergence | blockedWorkingTree
  | blockedTrackingUnknown | blockedBranchDivergence | blockedRemoteBranchDivergence
  | blockedLocalTagDivergence | blockedRemoteTagDivergence | blockedReleaseDivergence
  | blockedRemoteInspection => true
  | _ => false

end RecoveryCode

/-- `derive_recovery_state` -/
def deriveRecoveryState (s : Snapshot) : RecoveryCode :=
  if s.branch ≠ plan.expectedBranch then .blockedBranchMismatch
  else if s.head = plan.expectedBaseCommit then
    if s.workingTreeClean then .needsPackageApply
    else if ¬ s.scopeMatches then .blockedScopeMismatch
    else .needsGitDelivery
  else if ¬ s.releaseCommitAligned then .blockedCommitDivergence
  else if ¬ s.workingTreeClean then .blockedWorkingTree
  else match s.tracking with
    | none => .blockedTrackingUnknown
    | some (behind, ahead) =>
        if ¬ s.networkRequested then
          if behind > 0 ∨ ahead > 1 then .blockedBranchDivergence
          else if ahead = 1 then .needsBranchPush
          else .needsRemoteInspection
        else if s.remote.branchHead = some plan.expectedBaseCommit then .needsBranchPush
        else if s.remote.branchHead ≠ some s.head then .blockedRemoteBranchDivergence
        else if ¬ s.localTag.exists' then .needsTagCreation
        else if ¬ s.localTag.annotated ∨ ¬ s.localTag.targetMatchesHead then
          .blockedLocalTagDivergence
        else if ¬ s.remote.tag.exists' then .needsTagPublication
        else if ¬ s.remote.tag.targetMatchesHead ∨ ¬ s.remote.tag.objectMatchesLocal then
          .blockedRemoteTagDivergence
        else if ¬ s.remote.release.exists' then .needsReleasePublication
        else if ¬ s.remote.release.tagMatches ∨ ¬ s.remote.release.titleMatches ∨
            s.remote.release.draft ≠ some false ∨ s.remote.release.prerelease ≠ some false then
          .blockedReleaseDivergence
        else if ¬ s.remote.release.latest then .needsLatestPromotion
        else .releaseClosed

/-- `safe_to_resume` -/
def RecoveryCode.safeToResume : RecoveryCode → Bool
  | needsGitDelivery | needsBranchPush | needsRemoteInspection | needsTagCreation
  | needsTagPublication | needsReleasePublication | needsLatestPromotion | releaseClosed => true
  | _ => false

/-! ### Closure reports -/

/-- `load_closure_report`, on what the file holds -/
def ReportFile.load : ReportFile → Except ReleaseExc ClosureReport
  | absent => .error (.workflowError "closure report not found")
  | corrupt => .error (.workflowError "closure report type mismatch")
  | undecodable e => .error (.python e)
  | report r => .ok r

/-- `load_closure_report` -/
def loadClosureReport (path : ReportPath) : Run ClosureReport := do
  let file ← run (.readReport path)
  ofExcept file.load

/-- `validate_test_summary`: the summary, when the canonical tests have passed as expected. -/
def validateTestSummary (r : ClosureReport) : Except ReleaseExc TestSummary :=
  if r.testGate.summary ≠ plan.wantedSummary then
    .error (.workflowError "canonical test summary mismatch")
  else if ¬ r.testGate.passed then
    .error (.workflowError "closure report says canonical test gate failed")
  else if ¬ r.testGate.headUnchanged then
    .error (.workflowError "canonical test gate changed HEAD")
  else .ok r.testGate.summary

/-- `state` of the cached evidence; `reusable` is that it is valid. -/
inductive CachedEvidence
  | absent
  | corrupt
  | stale
  | valid
  deriving DecidableEq

/-- `except (WorkflowError, json.JSONDecodeError, OSError)` -/
def ReleaseExc.isReadError : ReleaseExc → Bool
  | workflowError _ | jsonDecodeError _ => true
  | python e => e.isOSError
  | _ => false

/-- `inspect_cached_test_evidence`, on what the file holds -/
def cachedEvidence (file : ReportFile) (head : Oid) : Except ReleaseExc CachedEvidence :=
  if file = .absent then .ok .absent
  else
    let checked := do
      let r ← file.load
      let _ ← validateTestSummary plan r
      return r
    match checked with
    | .error e => if e.isReadError then .ok .corrupt else .error e
    | .ok r => do
        let found ← r.git.getHeadOr
        if found ≠ some head ∨ r.testGate.headAfter ≠ head then return .stale else return .valid

/-- `inspect_cached_test_evidence` -/
def inspectCachedTestEvidence (head : Oid) : Run CachedEvidence := do
  let file ← run (.readReport .closureTests)
  ofExcept (cachedEvidence plan file head)

/-! ### The inspection -/

/-- Run `body`; a `WorkflowError` in it gives `otherwise`. -/
def orOnWorkflowError {α : Type} (otherwise : α) (body : Run α) : Run α := do
  match ← Prog.attempt body with
  | .ok a => return a
  | .error (.workflowError _) => return otherwise
  | .error e => .raise e

/-- `tracking` -/
def inspectTracking : Run (Option (Nat × Nat)) :=
  orOnWorkflowError none do
    let counts ← gitStdout plan .leftRight (run .leftRight)
    return some counts

/-- `release_commit_aligned` -/
def inspectCommit (head : Oid) : Run Bool :=
  if head = plan.expectedBaseCommit then return false
  else orOnWorkflowError false do
    let parent ← gitStdout plan (.revParse (.parent head)) (run (.revParse (.parent head)))
    let subject ← gitStdout plan .subject (run .subject)
    let paths ← collectCommitPaths plan head
    return alignedCommit plan parent subject paths

/-- `local_tag` -/
def inspectLocalTag (head : Oid) : Run LocalTagStatus := do
  match ← run .showRef with
  | .ok _ => do
      let object ← gitStdout plan (.revParse .tag) (run (.revParse .tag))
      let target ← gitStdout plan (.revParse .peeledTag) (run (.revParse .peeledTag))
      let type ← gitStdout plan .catFile (run .catFile)
      return ⟨true, some object, type = "tag", target = head⟩
  | .failed 1 _ _ => return ⟨false, none, false, false⟩
  | .failed _ _ _ => .raise (.workflowError "unable to inspect local target tag")

/-- The release that `gh release view` shows, compared with the plan and the list. -/
def inspectRelease : Run ReleaseStatus := do
  match ← run .ghView with
  | .ok view => do
      let listing ← required "GitHub Release list status" (run .ghList)
      let matching := listing.filter fun item => item.tagName = plan.targetVersion
      return { exists' := true
               tagMatches := view.tagName = plan.targetVersion
               titleMatches := view.name = plan.releaseTitle
               draft := some view.isDraft
               prerelease := some view.isPrerelease
               latest := matching.length = 1 ∧ matching.head?.any (·.isLatest) }
  | .failed 1 _ _ => return ⟨false, false, false, none, none, false⟩
  | .failed returncode _ _ =>
      .raise (.workflowError ("GitHub Release inspection failed with RC=" ++ toString returncode))

/-- What `--allow-network` adds. -/
def inspectRemote (head : Oid) (localTagObject : Option Oid) : Run RemoteStatus := do
  let _ ← required "GitHub authentication status" (run .ghAuth)
  let branch ← required "remote branch status" (run (.lsRemote [.branch]))
  let refs ← required "remote tag status" (run (.lsRemote [.tag, .peeledTag]))
  let object := lookupRef .tag refs
  let release ← inspectRelease plan
  return ⟨branch.head?.map (·.2),
    { exists' := object.isSome
      targetMatchesHead := lookupRef .peeledTag refs = some head
      objectMatchesLocal := localTagObject.isSome ∧ object = localTagObject },
    release⟩

/-- What is known of the remote when it is not asked. -/
def unknownRemote : RemoteStatus :=
  ⟨none, ⟨false, false, false⟩, ⟨false, false, false, none, none, false⟩⟩

/-- The remote inspection: what it finds, or that it has failed. -/
def tryInspectRemote (head : Oid) (localTagObject : Option Oid) : Run (Option RemoteStatus) := do
  match ← Prog.attempt (inspectRemote plan head localTagObject) with
  | .ok remote => return some remote
  | .error (.workflowError _) | .error (.jsonDecodeError _) | .error .indexError => return none
  | .error e => .raise e

/-- `inspect_release_status`, as far as its status code goes. -/
def inspectReleaseStatus (allowNetwork : Bool) : Run RecoveryCode := do
  let branch ← gitStdout plan .currentBranch (run .currentBranch)
  let head ← gitStdout plan (.revParse .head) (run (.revParse .head))
  let status ← gitStdout plan .status (run .status)
  let tracking ← inspectTracking plan
  let scope ← collectScope plan
  let aligned ← inspectCommit plan head
  let localTag ← inspectLocalTag plan head
  let remote ←
    if allowNetwork then tryInspectRemote plan head localTag.object else pure (some unknownRemote)
  let _ ← inspectCachedTestEvidence plan head
  match remote with
  | none => return .blockedRemoteInspection
  | some remote =>
      return deriveRecoveryState plan
        ⟨branch, head, status = [], scope = plan.publicPaths, aligned, tracking, allowNetwork,
          localTag, remote⟩

end Konoha.Release
