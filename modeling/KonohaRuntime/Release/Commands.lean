/-
Release/Commands.lean

A release as its tools see it: a repository with a remote, GitHub, and the files of a
workflow below `sandbox/`, together with the commands that the closure guard and the
supervised workflow run on them.

What a command prints is modelled by what its callers read of it: an object id, lines, a
pair of counts, the fields of a release.  Only one tag matters, that of the target
version, and one remote branch, that of the plan.
-/
import KonohaRuntime.Effects.Eval
import KonohaRuntime.Base.Dumps

namespace Konoha.Release

open Effects

/-! ### The plan -/

/-- The name of a Git object. -/
abbrev Oid := String

/-- `expected_test_gate`, as far as it is compared. -/
structure ExpectedTestGate where
  suiteCount : Nat
  testCount : Nat
  deriving DecidableEq

/-- A release plan that `validate_plan` has accepted. -/
structure Plan where
  workflowId : String
  expectedBaseCommit : Oid
  expectedBranch : String
  remote : String
  githubRepo : String
  targetVersion : String
  previousVersion : String
  commitMessage : String
  releaseTitle : String
  releaseNotesPath : String
  releaseNotesSha256 : Digest
  /-- sorted, without duplicates -/
  publicPaths : List String
  expectedTestGate : ExpectedTestGate
  /-- `int(plan.get("max_transitions", 8))` -/
  maxTransitions : Int

/-! ### What there is -/

/-- What the workflow looks at of a commit. -/
structure Commit where
  parent : Option Oid
  subject : String
  /-- `git diff-tree --no-commit-id --name-only -r` -/
  paths : List String
  deriving DecidableEq

/-- The tag of the target version, locally or remotely. -/
inductive Tag
  | lightweight (commit : Oid)
  | annotated (tagObject commit : Oid)
  deriving DecidableEq

namespace Tag

/-- `git rev-parse v` -/
def object : Tag → Oid
  | lightweight commit => commit
  | annotated tagObject _ => tagObject

/-- `git rev-parse v^{}` -/
def target : Tag → Oid
  | lightweight commit => commit
  | annotated _ commit => commit

/-- The peeled ref of the tag, where `git ls-remote` has one. -/
def peeled : Tag → Option Oid
  | lightweight _ => none
  | annotated _ commit => some commit

/-- `git cat-file -t v` -/
def type : Tag → String
  | lightweight _ => "commit"
  | annotated _ _ => "tag"

end Tag

/-- A GitHub Release. -/
structure Published where
  tagName : String
  name : String
  isDraft : Bool
  isPrerelease : Bool
  isLatest : Bool
  deriving DecidableEq

/-- The numbers of a canonical test summary. -/
structure TestSummary where
  discoveredSuiteCount : Nat
  selectedSuiteCount : Nat
  passedSuiteCount : Nat
  failedSuiteCount : Nat
  testCount : Nat
  failureCount : Nat
  errorCount : Nat
  timeoutCount : Nat
  deriving DecidableEq

/-- The summary that `validate_test_summary` requires. -/
def Plan.wantedSummary (plan : Plan) : TestSummary :=
  let expected := plan.expectedTestGate
  ⟨expected.suiteCount, expected.suiteCount, expected.suiteCount, 0, expected.testCount, 0, 0, 0⟩

/-- `test_gate` of a closure report. -/
structure TestGate where
  /-- `source == "reused_guard_report"` -/
  reused : Bool
  passed : Bool
  headUnchanged : Bool
  headAfter : Oid
  summary : TestSummary
  deriving DecidableEq

/-- The status codes of `decide_status`. -/
inductive GuardStatus
  | blockedDirtyWorktree
  | blockedBranchMismatch
  | blockedTestEvidenceStale
  | blockedTestGateFailed
  | blockedBranchNotSynced
  | needsTagCreation
  | blockedLocalTagTargetMismatch
  | needsNetworkVerification
  | blockedRemoteBranchMismatch
  | needsTagPublication
  | blockedRemoteTagTargetMismatch
  | blockedGhAuth
  | blockedGhCliMissing
  | needsReleasePublication
  | blockedReleaseDraft
  | blockedReleasePrerelease
  | needsLatestPromotion
  | releaseClosed
  deriving DecidableEq

def GuardStatus.text : GuardStatus → String
  | blockedDirtyWorktree => "BLOCKED_DIRTY_WORKTREE"
  | blockedBranchMismatch => "BLOCKED_BRANCH_MISMATCH"
  | blockedTestEvidenceStale => "BLOCKED_TEST_EVIDENCE_STALE"
  | blockedTestGateFailed => "BLOCKED_TEST_GATE_FAILED"
  | blockedBranchNotSynced => "BLOCKED_BRANCH_NOT_SYNCED"
  | needsTagCreation => "NEEDS_TAG_CREATION"
  | blockedLocalTagTargetMismatch => "BLOCKED_LOCAL_TAG_TARGET_MISMATCH"
  | needsNetworkVerification => "NEEDS_NETWORK_VERIFICATION"
  | blockedRemoteBranchMismatch => "BLOCKED_REMOTE_BRANCH_MISMATCH"
  | needsTagPublication => "NEEDS_TAG_PUBLICATION"
  | blockedRemoteTagTargetMismatch => "BLOCKED_REMOTE_TAG_TARGET_MISMATCH"
  | blockedGhAuth => "BLOCKED_GH_AUTH"
  | blockedGhCliMissing => "BLOCKED_GH_CLI_MISSING"
  | needsReleasePublication => "NEEDS_RELEASE_PUBLICATION"
  | blockedReleaseDraft => "BLOCKED_RELEASE_DRAFT"
  | blockedReleasePrerelease => "BLOCKED_RELEASE_PRERELEASE"
  | needsLatestPromotion => "NEEDS_LATEST_PROMOTION"
  | releaseClosed => "RELEASE_CLOSED"

/-- `git` of a closure report. -/
inductive GitPart
  | object (head : Oid)
  /-- a value of that type that is no object, and counts as false -/
  | falsy (type : String)
  /-- a value of that type that is no object, and counts as true -/
  | other (type : String)
  deriving DecidableEq

/-- A closure report, as far as it is read again. -/
structure ClosureReport where
  statusCode : GuardStatus
  git : GitPart
  testGate : TestGate
  deriving DecidableEq

/-- `release_closed` -/
def ClosureReport.releaseClosed (r : ClosureReport) : Bool := r.statusCode = .releaseClosed

/-- The file of a closure report; `corrupt` is whatever `load_closure_report` refuses, and
`undecodable` what makes it raise something else: no UTF-8, a number with too many digits, values
nested too deep. -/
inductive ReportFile
  | absent
  | corrupt
  | undecodable (e : PyExc)
  | report (r : ClosureReport)
  deriving DecidableEq

/-! ### Commands -/

/-- What `git rev-parse` is asked for. -/
inductive Rev
  | head
  | headParent
  | parent (c : Oid)
  | tracking
  | tag
  | peeledTag
  | peeledPrevious

/-- What `git ls-remote` is asked for. -/
inductive Ref
  | branch
  | tag
  | peeledTag
  deriving DecidableEq

/-- The reports that the workflow has the guard write. -/
inductive ReportPath
  | closureTests
  | transition (step : Nat)
  deriving DecidableEq

/-- The commands, with the operations on files. -/
inductive Cmd
  -- questions about the repository
  | insideWorkTree
  | revParse (r : Rev)
  | currentBranch
  | status
  | leftRight
  /-- `git rev-parse --verify refs/tags/v` -/
  | verifyTag
  /-- `git show-ref --verify --quiet refs/tags/v` -/
  | showRef
  | catFile
  | diffNames
  | untracked
  | diffCheck
  | stagedNames
  | stagedCheck
  | subject
  | diffTree (c : Oid)
  -- questions about the remote and GitHub
  | lsRemote (refs : List Ref)
  | ghAuth
  | ghView
  | ghList
  -- changes
  | fetch
  | gitPlan
  | gitStage
  | gitCommit
  | gitPush
  | tagCreate (c : Oid)
  | tagPush
  | releaseCreate
  | releaseLatest
  /-- the canonical tests, as the closure guard runs them -/
  | canonicalTests
  /-- `check_release_closure.py`, which runs the tests or reuses a report -/
  | closureGuard (prior : Option ReportPath) (output : ReportPath)
  -- tools and files
  | which (tool : String)
  | component (path : String)
  /-- `resolve_repo_file` of the release notes: the path from the root of the repository -/
  | resolveNotes
  /-- `sha256_file` of the release notes -/
  | hashNotes
  | betaPlanExists
  | readReport (path : ReportPath)

/-- How a process ends. -/
inductive Result (α : Type)
  | ok (out : α)
  /-- with another return code, or too late; `detail` is what it printed -/
  | failed (returncode : Int) (timedOut : Bool) (detail : String)

namespace Cmd

/-- What is read of the output of a command that has succeeded. -/
abbrev Out : Cmd → Type
  | insideWorkTree => String
  | revParse _ => Oid
  | currentBranch => String
  | status => List String
  | leftRight => Nat × Nat
  | verifyTag => Oid
  | catFile => String
  | diffNames | untracked | stagedNames => List String
  | subject => String
  | diffTree _ => List String
  | lsRemote _ => List (Ref × Oid)
  | ghView => Published
  | ghList => List Published
  | canonicalTests => TestSummary
  | _ => Unit

/-- The answer of a command or of an operation on files. -/
abbrev Value : Cmd → Type
  | which _ => Bool
  | component _ => Bool
  | resolveNotes => String
  | hashNotes => Digest
  | betaPlanExists => Bool
  | readReport _ => ReportFile
  | c => Result c.Out

end Cmd

/-- The exceptions of the guard and the workflow. -/
inductive ReleaseExc
  | closureGuardError (text : String)
  | workflowError (text : String)
  | jsonDecodeError (text : String)
  | indexError
  | python (e : PyExc)
  deriving DecidableEq

abbrev Cmd.Ans (c : Cmd) : Type := Except ReleaseExc c.Value

/-- `value.get`, of a value of that type -/
def noGet (type : String) : ReleaseExc :=
  .python (.attributeError ("'" ++ type ++ "' object has no attribute 'get'"))

namespace GitPart

/-- `git.get("head")` -/
def getHead : GitPart → Except ReleaseExc Oid
  | object head => .ok head
  | falsy type | other type => .error (noGet type)

/-- `(git or {}).get("head")` -/
def getHeadOr : GitPart → Except ReleaseExc (Option Oid)
  | object head => .ok (some head)
  | falsy _ => .ok none
  | other type => .error (noGet type)

end GitPart

/-- The names of refs, as Git is given them. -/
def Plan.trackingRef (plan : Plan) : String := plan.remote ++ "/" ++ plan.expectedBranch

def Rev.text (plan : Plan) : Rev → String
  | head => "HEAD"
  | headParent => "HEAD^"
  | parent c => c ++ "^"
  | tracking => plan.trackingRef
  | tag => plan.targetVersion
  | peeledTag => plan.targetVersion ++ "^\x7b\x7d"
  | peeledPrevious => plan.previousVersion ++ "^\x7b\x7d"

/-- The arguments of `git`, for the commands whose failure is reported with them. -/
def Cmd.arguments (plan : Plan) : Cmd → List String
  | insideWorkTree => ["rev-parse", "--is-inside-work-tree"]
  | revParse .tracking => ["rev-parse", "--verify", plan.trackingRef]
  | revParse r => ["rev-parse", r.text plan]
  | currentBranch => ["branch", "--show-current"]
  | status => ["status", "--porcelain=v1", "--untracked-files=normal"]
  | leftRight => ["rev-list", "--left-right", "--count", plan.trackingRef ++ "...HEAD"]
  | catFile => ["cat-file", "-t", plan.targetVersion]
  | diffNames => ["diff", "--name-only"]
  | untracked => ["ls-files", "--others", "--exclude-standard"]
  | diffCheck => ["diff", "--check"]
  | stagedNames => ["diff", "--cached", "--name-only"]
  | stagedCheck => ["diff", "--cached", "--check"]
  | subject => ["log", "-1", "--format=%s"]
  | diffTree c => ["diff-tree", "--no-commit-id", "--name-only", "-r", c]
  | _ => []

/-- Programs that run commands. -/
abbrev Run (α : Type) := Prog Cmd.Ans ReleaseExc α

/-- Run a command. -/
abbrev run (c : Cmd) : Run c.Value := Prog.ask c

end Konoha.Release
