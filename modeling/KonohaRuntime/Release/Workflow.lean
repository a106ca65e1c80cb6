/-
Release/Workflow.lean

The supervised release workflow: tokens, preflight, the release commit, and the loop in
which the closure guard names a state and the workflow performs the action for it.

What the workflow remembers between its steps (`current_head`, `test_summary` and the
transitions) is passed from one to the next.
-/
import KonohaRuntime.Release.Status

namespace Konoha.Release

open Effects Prog

variable (plan : Plan)

/-! ### Tokens -/

/-- The arguments of a run. -/
structure Args where
  workflowToken : String
  gitPlanToken : String
  gitStageToken : String
  gitCommitToken : String
  gitPushToken : String
  tagCreateToken : String
  tagPushToken : String
  releasePublishToken : String
  latestPromotionToken : String
  confirmRun : Bool
  allowNetwork : Bool

/-- The tokens that are given, each with the one that is required. -/
def Args.tokens (args : Args) : List (String × String × String) :=
  [("git_commit_token", args.gitCommitToken, "APPROVE_BETA_GIT_COMMIT"),
    ("git_plan_token", args.gitPlanToken, "PLAN_BETA_GIT_OPERATION"),
    ("git_push_token", args.gitPushToken, "APPROVE_BETA_GIT_PUSH"),
    ("git_stage_token", args.gitStageToken, "APPROVE_BETA_GIT_STAGE"),
    ("latest_promotion_token", args.latestPromotionToken, "APPROVE_SUPERVISED_RELEASE_LATEST"),
    ("release_publish_token", args.releasePublishToken, "APPROVE_SUPERVISED_RELEASE_PUBLISH"),
    ("tag_create_token", args.tagCreateToken, "APPROVE_SUPERVISED_RELEASE_TAG_CREATE"),
    ("tag_push_token", args.tagPushToken, "APPROVE_SUPERVISED_RELEASE_TAG_PUSH"),
    ("workflow_token", args.workflowToken, "RUN_SUPERVISED_RELEASE_WORKFLOW")]

/-- `validate_tokens` -/
def validateTokens (args : Args) : Except ReleaseExc Unit :=
  let mismatches := (args.tokens.filter fun token => token.2.1 ≠ token.2.2).map (·.1)
  if mismatches ≠ [] then
    .error (.workflowError ("missing or invalid explicit approval tokens: " ++
      ", ".intercalate mismatches))
  else if ¬ args.confirmRun then .error (.workflowError "--confirm-run is required")
  else if ¬ args.allowNetwork then
    .error (.workflowError "--allow-network is required for unified delivery")
  else .ok ()

/-! ### Commands -/

/-- `run_logged` -/
def runLogged {α : Type} (label : String) (answer : Run (Result α)) : Run α := do
  match ← answer with
  | .ok out => return out
  | .failed returncode _ _ =>
      .raise (.workflowError (label ++ " returned RC=" ++ toString returncode))

/-- `run_logged` of the closure guard, which may end with 0 or 1. -/
def runGuard (label : String) (prior : Option ReportPath) (output : ReportPath) : Run Int := do
  match ← run (.closureGuard prior output) with
  | .ok _ => return 0
  | .failed returncode timedOut _ =>
      if timedOut ∨ returncode ∉ [0, 1] then
        .raise (.workflowError (label ++ " returned RC=" ++ toString returncode))
      else return returncode

/-- `shutil.which(tool) is None` -/
def requireTool (tool text : String) : Run PUnit := do
  if ← run (.which tool) then return ⟨⟩
  else .raise (.workflowError text)

/-! ### Preflight -/

/-- What `preflight` returns. -/
inductive Preflight
  | needsCommit
  | resumeCommitted (head : Oid)

/-- `preflight` on a branch whose `HEAD` is the base commit. -/
def preflightBase (tracked : Oid) (counts : Nat × Nat) : Run Preflight := do
  if tracked ≠ plan.expectedBaseCommit ∨ counts ≠ (0, 0) then
    .raise (.workflowError "expected base is not synchronized with remote tracking")
  else
    required "git diff --check" (run .diffCheck)
    let scope ← collectScope plan
    if scope ≠ plan.publicPaths then .raise (.workflowError "public scope mismatch")
    else return .needsCommit

/-- `preflight` on any other `HEAD`. -/
def preflightCommitted (head tracked : Oid) (counts : Nat × Nat) : Run Preflight := do
  let parent ← gitStdout plan (.revParse (.parent head)) (run (.revParse (.parent head)))
  let subject ← gitStdout plan .subject (run .subject)
  let paths ← collectCommitPaths plan head
  let status ← gitStdout plan .status (run .status)
  if alignedCommit plan parent subject paths ∧ status = [] ∧ counts.1 = 0 ∧ counts.2 ∈ [0, 1] ∧
      tracked ∈ [plan.expectedBaseCommit, head] then
    return .resumeCommitted head
  else .raise (.workflowError "HEAD is neither expected base nor aligned release commit")

/-- The components that `preflight` requires. -/
def requiredComponents : List String :=
  ["tools/beta_runtime/run_konoha_beta.py", "tools/release_closure/check_release_closure.py",
    "tools/release_testing/run_release_tests.py"]

/-- A required component. -/
def checkComponent (path : String) : Run PUnit := do
  if ← run (.component path) then return ⟨⟩
  else .raise (.workflowError ("required component missing: " ++ path))

/-- The release notes are the planned ones. -/
def checkNotes : Run PUnit := do
  let relative ← run .resolveNotes
  if ¬ "sandbox/".toList.isPrefixOf relative.toList then
    .raise (.workflowError "release notes must stay under sandbox/")
  else
    let hash ← run .hashNotes
    if hash ≠ plan.releaseNotesSha256 then .raise (.workflowError "release notes SHA-256 mismatch")
    else return ⟨⟩

/-- `preflight` -/
def preflight : Run Preflight := do
  requireTool "git" "git is required"
  requiredComponents.forM checkComponent
  let branch ← gitStdout plan .currentBranch (run .currentBranch)
  if branch ≠ plan.expectedBranch then
    .raise (.workflowError ("expected branch " ++ plan.expectedBranch ++ ", found " ++ branch))
  else
    let head ← gitStdout plan (.revParse .head) (run (.revParse .head))
    let tracked ← gitStdout plan (.revParse .tracking) (run (.revParse .tracking))
    let counts ← gitStdout plan .leftRight (run .leftRight)
    let previous ← gitStdout plan (.revParse .peeledPrevious) (run (.revParse .peeledPrevious))
    if previous ≠ plan.expectedBaseCommit then
      .raise (.workflowError "previous version does not target expected base")
    else
      checkNotes plan
      if head = plan.expectedBaseCommit then preflightBase plan tracked counts
      else preflightCommitted plan head tracked counts

/-! ### The release commit -/

/-- What `create_commit` checks of the commit that it has made. -/
def checkCommit : Run Oid := do
  let head ← gitStdout plan (.revParse .head) (run (.revParse .head))
  let parent ← gitStdout plan (.revParse .headParent) (run (.revParse .headParent))
  let subject ← gitStdout plan .subject (run .subject)
  let paths ← collectCommitPaths plan head
  if parent ≠ plan.expectedBaseCommit then .raise (.workflowError "release commit parent mismatch")
  else if subject ≠ plan.commitMessage then
    .raise (.workflowError "release commit subject mismatch")
  else if paths ≠ plan.publicPaths then .raise (.workflowError "release commit scope mismatch")
  else
    let status ← gitStdout plan .status (run .status)
    if status ≠ [] then .raise (.workflowError "working tree not clean after commit")
    else return head

/-- `create_commit`: the new `current_head`. -/
def createCommit : Run Oid := do
  runLogged "git-plan" (run .gitPlan)
  runLogged "git-stage" (run .gitStage)
  let staged ← gitStdout plan .stagedNames (run .stagedNames)
  if (staged.mergeSort fun a b => decide (a ≤ b)) ≠ plan.publicPaths then
    .raise (.workflowError "staged scope differs from plan")
  else
    required "git diff --cached --check" (run .stagedCheck)
    runLogged "git-commit" (run .gitCommit)
    checkCommit plan

/-! ### The closure guard -/

/-- The actions of the workflow. -/
inductive Action
  | pushMain
  | createTag
  | pushTag
  | publishRelease
  | promoteLatest
  | complete
  deriving DecidableEq

/-- `expected_action`; `EXPECTED_STATES` are the statuses that have one. -/
def GuardStatus.action : GuardStatus → Option Action
  | blockedBranchNotSynced => some .pushMain
  | needsTagCreation => some .createTag
  | needsTagPublication => some .pushTag
  | needsReleasePublication => some .publishRelease
  | needsLatestPromotion => some .promoteLatest
  | releaseClosed => some .complete
  | _ => none

def expectedAction (status : GuardStatus) : Except ReleaseExc Action :=
  match status.action with
  | some action => .ok action
  | none => .error (.workflowError ("unexpected closure status: " ++ status.text))

/-- `validate_closure_rc_status` -/
def validateClosureRcStatus (r : ClosureReport) (returncode : Int) : Except ReleaseExc Unit :=
  if r.statusCode = .releaseClosed then
    if returncode ≠ 0 then
      .error (.workflowError "RELEASE_CLOSED requires RC=0 and release_closed=true")
    else .ok ()
  else if r.statusCode.action.isNone then
    .error (.workflowError ("unexpected closure status: " ++ r.statusCode.text))
  else if returncode ≠ 1 then
    .error (.workflowError (r.statusCode.text ++ " requires RC=1 and release_closed=false"))
  else .ok ()

/-- A closure report, its summary, and where it is. -/
structure Evidence where
  report : ClosureReport
  summary : TestSummary
  path : ReportPath

/-- Run the guard, and check what it reports. -/
def runClosureGuard (label mismatch : String) (prior : Option ReportPath) (output : ReportPath)
    (head : Oid) : Run Evidence := do
  let returncode ← runGuard label prior output
  let report ← loadClosureReport output
  ofExcept (validateClosureRcStatus report returncode)
  let summary ← ofExcept (validateTestSummary plan report)
  let found ← ofExcept report.git.getHead
  if found ≠ head then .raise (.workflowError mismatch)
  else return ⟨report, summary, output⟩

/-- `run_reused_closure_guard` -/
def runReusedClosureGuard (prior : ReportPath) (step : Nat) (head : Oid) : Run Evidence :=
  runClosureGuard plan ("closure-transition-" ++ toString step) "transition guard HEAD mismatch"
    (some prior) (.transition step) head

/-- The report of earlier tests, when it can be reused. -/
def reuseEvidence (file : ReportFile) (head : Oid) : Run Evidence := do
  let existing ← ofExcept file.load
  let summary ← ofExcept (validateTestSummary plan existing)
  let found ← ofExcept existing.git.getHead
  if found ≠ head then .raise (.workflowError "existing closure test evidence HEAD mismatch")
  else if existing.testGate.headAfter ≠ head then
    .raise (.workflowError "existing closure test evidence is stale")
  else
    let refreshed ← runReusedClosureGuard plan .closureTests 0 head
    -- the summary that is remembered is that of the file
    return { refreshed with summary := summary }

/-- The reused evidence, or else that of the tests. -/
def orTests (tests : Run Evidence) : Except ReleaseExc Evidence → Run Evidence
  | .ok evidence => return evidence
  | .error (.workflowError _) | .error (.jsonDecodeError _) => tests
  | .error e => .raise e

/-- `run_initial_closure_guard` -/
def runInitialClosureGuard (head : Oid) : Run Evidence := do
  let tests : Run Evidence :=
    runClosureGuard plan "closure-tests" "closure test evidence HEAD mismatch" none .closureTests
      head
  match ← run (.readReport .closureTests) with
  | .absent => tests
  | file => do
      let reused ← Prog.attempt (reuseEvidence plan file head)
      orTests tests reused

/-! ### The actions -/

/-- `ensure_beta_plan` -/
def ensureBetaPlan : Run PUnit := do
  if ← run .betaPlanExists then return ⟨⟩
  else runLogged "git-plan-resume" (run .gitPlan)

/-- `push_main` -/
def pushMain : Run PUnit := do
  ensureBetaPlan
  let counts ← gitStdout plan .leftRight (run .leftRight)
  if counts ≠ (0, 1) then
    .raise (.workflowError ("push_main requires behind=0 ahead=1, found " ++
      toString counts.1 ++ "/" ++ toString counts.2))
  else
    runLogged "git-push" (run .gitPush)
    runLogged "git-fetch-main" (run .fetch)

/-- `create_tag` -/
def createTag (head : Oid) : Run PUnit := do
  match ← run .showRef with
  | .ok _ => do
      let target ← gitStdout plan (.revParse .peeledTag) (run (.revParse .peeledTag))
      let type ← gitStdout plan .catFile (run .catFile)
      if target ≠ head ∨ type ≠ "tag" then
        .raise (.workflowError "existing local tag is not aligned annotated tag")
      else return ⟨⟩
  | .failed returncode _ _ =>
      if returncode ≠ 1 then .raise (.workflowError "unable to inspect local tag")
      else runLogged "tag-create" (run (.tagCreate head))

/-- `push_tag` -/
def pushTag : Run PUnit := runLogged "tag-push" (run .tagPush)

/-- `publish_release` -/
def publishRelease : Run PUnit := do
  let _ ← run .resolveNotes
  runLogged "release-publish" (run .releaseCreate)

/-- `promote_latest` -/
def promoteLatest : Run PUnit := runLogged "release-latest" (run .releaseLatest)

/-! ### The final verification -/

/-- What `verify_final` returns. -/
structure FinalVerification where
  head : Oid
  remoteHead : Option Oid
  localTagObject : Oid
  remoteTagObject : Option Oid
  localTagTarget : Oid
  remoteTagTarget : Option Oid
  release : Published

/-- What `verify_final` has asked for. -/
structure Observed extends FinalVerification where
  listing : List Published
  status : List String

/-- `checks`: the names, and whether they hold. -/
def Observed.checks (o : Observed) (head : Oid) : List (String × Bool) :=
  let matching := o.listing.filter fun item => item.tagName = plan.targetVersion
  [("head_matches", o.head = head),
    ("local_tag_target_matches", o.localTagTarget = head),
    ("release_entry_unique", matching.length = 1),
    ("release_latest", matching.head?.any (·.isLatest)),
    ("release_not_draft", !o.release.isDraft),
    ("release_not_prerelease", !o.release.isPrerelease),
    ("release_tag_matches", o.release.tagName = plan.targetVersion),
    ("release_title_matches", o.release.name = plan.releaseTitle),
    ("remote_head_matches", o.remoteHead = some head),
    ("remote_tag_target_matches", o.remoteTagTarget = some head),
    ("tag_object_matches", o.remoteTagObject = some o.localTagObject),
    ("working_tree_clean", o.status = [])]

/-- What `verify_final` asks for. -/
def observe : Run Observed := do
  let head ← gitStdout plan (.revParse .head) (run (.revParse .head))
  let branch ← required "remote branch verification" (run (.lsRemote [.branch]))
  let localTagObject ← gitStdout plan (.revParse .tag) (run (.revParse .tag))
  let localTagTarget ← gitStdout plan (.revParse .peeledTag) (run (.revParse .peeledTag))
  let refs ← required "remote tag verification" (run (.lsRemote [.tag, .peeledTag]))
  let release ← runLogged "release-view" (run .ghView)
  let listing ← runLogged "release-list" (run .ghList)
  let status ← gitStdout plan .status (run .status)
  return ⟨⟨head, branch.head?.map (·.2), localTagObject, lookupRef .tag refs, localTagTarget,
    lookupRef .peeledTag refs, release⟩, listing, status⟩

/-- `verify_final` -/
def verifyFinal (r : ClosureReport) (head : Oid) : Run FinalVerification := do
  if r.statusCode ≠ .releaseClosed then
    .raise (.workflowError "final guard did not report RELEASE_CLOSED")
  else
    let observed ← observe plan
    let failed := ((observed.checks plan head).filter fun check => !check.2).map (·.1)
    if failed ≠ [] then
      .raise (.workflowError ("final direct verification failed: " ++ ", ".intercalate failed))
    else
      let counts ← gitStdout plan .leftRight (run .leftRight)
      if counts ≠ (0, 0) then .raise (.workflowError "final tracking is not synchronized")
      else return observed.toFinalVerification

/-! ### The workflow -/

/-- A recorded transition. -/
structure Transition where
  statusCode : GuardStatus
  action : Action
  evidencePath : ReportPath
  head : Oid

/-- The report of a run that has passed: `RELEASE_CLOSED`. -/
structure ReleaseReport where
  head : Oid
  summary : TestSummary
  transitions : List Transition
  finalVerification : FinalVerification

/-- The action for a state. -/
def perform (head : Oid) : Action → Run PUnit
  | .pushMain => pushMain plan
  | .createTag => createTag plan head
  | .pushTag => pushTag
  | .publishRelease => publishRelease
  | .promoteLatest => promoteLatest
  | .complete => return ⟨⟩

/-- The loop of `execute`, for `fuel` more rounds; `summary` is that of the first guard. -/
def transitionsLoop (head : Oid) (summary : TestSummary) :
    Nat → Nat → List Transition → Evidence → Run ReleaseReport
  | 0, _, _, _ => .raise (.workflowError "maximum supervised transitions exceeded")
  | fuel + 1, step, transitions, evidence => do
      let status := evidence.report.statusCode
      let action ← ofExcept (expectedAction status)
      let transitions := transitions ++ [⟨status, action, evidence.path, head⟩]
      if action = .complete then
        let final ← verifyFinal plan evidence.report head
        return ⟨head, summary, transitions, final⟩
      else
        perform plan head action
        let evidence ← runReusedClosureGuard plan evidence.path (step + 1) head
        transitionsLoop head summary fuel (step + 1) transitions evidence

/-- The commit that is released: the one of `preflight`, or a new one. -/
def currentHead : Preflight → Run Oid
  | .needsCommit => createCommit plan
  | .resumeCommitted head => return head

/-- `execute` -/
def execute (args : Args) : Run ReleaseReport := do
  ofExcept (validateTokens args)
  requireTool "git" "git is required"
  requireTool "gh" "GitHub CLI is required"
  runLogged "git-fetch-preflight" (run .fetch)
  runLogged "gh-auth" (run .ghAuth)
  let mode ← preflight plan
  let head ← currentHead plan mode
  let evidence ← runInitialClosureGuard plan head
  transitionsLoop plan head evidence.summary (plan.maxTransitions + 1).toNat 0 [] evidence

end Konoha.Release
