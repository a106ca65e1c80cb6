/-
Release/Guard.lean

The closure guard: what it collects about the repository, the remote and GitHub, and the
status that it decides on.
-/
import KonohaRuntime.Release.Commands

namespace Konoha.Release

open Effects Prog

variable (plan : Plan)

/-! ### Collecting -/

/-- `git_stdout` of the guard -/
def guardStdout {α : Type} (c : Cmd) (answer : Run (Result α)) : Run α := do
  match ← answer with
  | .ok out => return out
  | .failed _ _ detail =>
      .raise (.closureGuardError ("git " ++ " ".intercalate (c.arguments plan) ++ " failed: " ++
        if detail = "" then "unknown error" else detail))

/-- The local tag, with the object and the target that Git gives for it. -/
structure LocalTag where
  object : Oid
  target : Oid
  deriving DecidableEq

/-- What `collect_local_git` returns, as far as `decide_status` reads it. -/
structure LocalGit where
  head : Oid
  branch : String
  expectedBranch : String
  status : List String
  /-- `behind` and `ahead`, when there is a tracking ref -/
  tracking : Option (Nat × Nat)
  localTag : Option LocalTag

namespace LocalGit

def branchMatches (g : LocalGit) : Bool := g.branch = g.expectedBranch

def workingTreeClean (g : LocalGit) : Bool := g.status = []

def trackingSynced (g : LocalGit) : Bool := g.tracking = some (0, 0)

end LocalGit

/-- `behind` and `ahead`, where there is a tracking ref. -/
def trackingCounts : Run (Option (Nat × Nat)) := do
  match ← run (.revParse .tracking) with
  | .failed _ _ _ => return none
  | .ok _ => do
      let counts ← guardStdout plan .leftRight (run .leftRight)
      return some counts

/-- The object and the target of the local tag, where there is one. -/
def collectLocalTag : Run (Option LocalTag) := do
  match ← run .verifyTag with
  | .failed _ _ _ => return none
  | .ok object => do
      let target ← guardStdout plan (.revParse .peeledTag) (run (.revParse .peeledTag))
      return some ⟨object, target⟩

/-- `collect_local_git` -/
def collectLocalGit : Run LocalGit := do
  let inside ← guardStdout plan .insideWorkTree (run .insideWorkTree)
  if inside ≠ "true" then
    .raise (.closureGuardError "repo root is not inside a Git worktree")
  else
    let head ← guardStdout plan (.revParse .head) (run (.revParse .head))
    let branch ← guardStdout plan .currentBranch (run .currentBranch)
    let status ← guardStdout plan .status (run .status)
    let tracking ← trackingCounts plan
    let localTag ← collectLocalTag plan
    return ⟨head, branch, plan.expectedBranch, status, tracking, localTag⟩

/-- What `collect_remote_git` returns. -/
structure RemoteGit where
  passed : Bool
  branchHead : Option Oid
  tagObject : Option Oid
  tagTarget : Option Oid

/-- The last line for a ref, as a dict keeps it. -/
def lookupRef (r : Ref) (refs : List (Ref × Oid)) : Option Oid :=
  (refs.reverse.find? fun line => line.1 = r).map (·.2)

/-- `collect_remote_git` -/
def collectRemoteGit : Run RemoteGit := do
  match ← run (.lsRemote [.branch, .tag, .peeledTag]) with
  | .failed _ _ _ => return ⟨false, none, none, none⟩
  | .ok refs => return ⟨true, lookupRef .branch refs, lookupRef .tag refs, lookupRef .peeledTag refs⟩

/-- What `collect_github_release` returns. -/
structure GithubRelease where
  ghAvailable : Bool
  authenticated : Bool
  queryPassed : Bool
  release : Option Published

/-- `collect_github_release` -/
def collectGithubRelease : Run GithubRelease := do
  if ← run (.which "gh") then
    match ← run .ghAuth with
    | .failed _ _ _ => return ⟨true, false, false, none⟩
    | .ok _ =>
        match ← run .ghList with
        | .failed _ _ _ => return ⟨true, true, false, none⟩
        | .ok releases =>
            return ⟨true, true, true, releases.find? fun r => r.tagName = plan.targetVersion⟩
  else return ⟨false, false, false, none⟩

/-! ### Deciding -/

/-- `decide_status`, from the point where only the release is left. -/
def decideRelease (github : GithubRelease) : GuardStatus :=
  if ¬ github.ghAvailable then .blockedGhCliMissing
  else if ¬ github.authenticated then .blockedGhAuth
  else if ¬ github.queryPassed then .blockedGhAuth
  else match github.release with
    | none => .needsReleasePublication
    | some release =>
        if release.isDraft then .blockedReleaseDraft
        else if release.isPrerelease then .blockedReleasePrerelease
        else if ¬ release.isLatest then .needsLatestPromotion
        else .releaseClosed

/-- `decide_status`; the remote and GitHub are looked at only with `--allow-network`. -/
def decideStatus (git : LocalGit) (testGate : TestGate)
    (network : Option (RemoteGit × GithubRelease)) : GuardStatus :=
  if ¬ git.workingTreeClean then .blockedDirtyWorktree
  else if ¬ git.branchMatches then .blockedBranchMismatch
  else if ¬ testGate.passed then
    if testGate.reused then .blockedTestEvidenceStale else .blockedTestGateFailed
  else if ¬ git.trackingSynced then .blockedBranchNotSynced
  else match git.localTag with
    | none => .needsTagCreation
    | some tag =>
        if tag.target ≠ git.head then .blockedLocalTagTargetMismatch
        else match network with
          | none => .needsNetworkVerification
          | some (remote, github) =>
              if ¬ remote.passed then .blockedRemoteBranchMismatch
              else if remote.branchHead ≠ some git.head then .blockedRemoteBranchMismatch
              else if remote.tagObject.isNone then .needsTagPublication
              else if remote.tagTarget ≠ some git.head then .blockedRemoteTagTargetMismatch
              else decideRelease github

/-! ### The test gate -/

/-- `run_canonical_tests` -/
def runCanonicalTests : Run TestGate := do
  let before ← guardStdout plan (.revParse .head) (run (.revParse .head))
  let _ ← guardStdout plan .status (run .status)
  let result ← run .canonicalTests
  let after ← guardStdout plan (.revParse .head) (run (.revParse .head))
  let _ ← guardStdout plan .status (run .status)
  match result with
  | .ok summary =>
      return { reused := false
               passed := summary.failedSuiteCount = 0 ∧ before = after
               headUnchanged := before = after
               headAfter := after
               summary := summary }
  | .failed _ _ _ => return ⟨false, false, before = after, after, ⟨0, 0, 0, 0, 0, 0, 0, 0⟩⟩

/-- `load_test_evidence` -/
def loadTestEvidence (path : ReportPath) (head : Oid) : Run TestGate := do
  match ← run (.readReport path) with
  | .absent => .raise (.closureGuardError "test evidence does not exist")
  | .corrupt =>
      .raise (.closureGuardError "test evidence must be a prior release closure guard report")
  | .undecodable e => .raise (.python e)
  | .report prior => do
      let found ← Prog.ofExcept prior.git.getHead
      return { prior.testGate with
        reused := true
        passed := prior.testGate.passed ∧ prior.testGate.headUnchanged ∧ found = head ∧
          prior.testGate.headAfter = head }

/-- `--run-tests`, or `--test-evidence` -/
def testGateOf (prior : Option ReportPath) (head : Oid) : Run TestGate :=
  match prior with
  | none => runCanonicalTests plan
  | some path => loadTestEvidence path head

/-- `build_report` of the guard, with the network allowed. -/
def buildClosureReport (prior : Option ReportPath) : Run ClosureReport := do
  let git ← collectLocalGit plan
  let testGate ← testGateOf plan prior git.head
  let remote ← collectRemoteGit
  let github ← collectGithubRelease plan
  return ⟨decideStatus git testGate (some (remote, github)), .object git.head, testGate⟩

end Konoha.Release
