/-
Release/Continuation.lean

The status inspection and `preflight`, on one fixed state.  The status asks the remote and GitHub
and does not look at what the tracking ref says; `preflight` looks at the tracking ref and at
whitespace, and asks nobody.

`preflight_iff_status` says what the answer of each tells of the other.
-/
import KonohaRuntime.Release.Agreement
import KonohaRuntime.Release.Workflow

namespace Konoha.Release

open Effects Prog

variable {git : Objects} {plan : Plan} {w : World} {checked : Bool}

/-- The codes of a release that can go on. -/
def RecoveryCode.continues : RecoveryCode → Bool
  | needsGitDelivery | needsBranchPush | needsTagCreation | needsTagPublication
  | needsReleasePublication | needsLatestPromotion | releaseClosed => true
  | _ => false

/-- The blocks for which the remote, a tag or the GitHub Release is to blame. -/
def RecoveryCode.blockedByRelease : RecoveryCode → Bool
  | blockedRemoteBranchDivergence | blockedLocalTagDivergence | blockedRemoteTagDivergence
  | blockedReleaseDivergence => true
  | _ => false

theorem safeToResume_of_continues {code : RecoveryCode} (h : code.continues) :
    code.safeToResume := by
  cases code <;> first | rfl | cases h

/-- What a machine answers on which `git diff --check` passes, or finds something. -/
def lookAt (git : Objects) (plan : Plan) (checked : Bool) (w : World) : (c : Cmd) → c.Ans
  | .diffCheck => .ok (if checked then .ok () else .failed 2 false "")
  | c => look git plan w c

/-- In `w`, program `m` only looks, and what it returns or raises is `x`. -/
abbrev FindsAt (git : Objects) (plan : Plan) (checked : Bool) (w : World) {α : Type} (m : Run α)
    (x : Except ReleaseExc α) : Prop :=
  Computes (fun w c => (lookAt git plan checked w c, w)) w m x

/-- The notes are below `sandbox/` and have the planned hash, and the previous version is the
expected base; the plan, as it has been accepted, names a file. -/
structure Prepared (plan : Plan) (w : World) : Prop where
  notes : w.notes = some plan.releaseNotesSha256
  below : "sandbox/".toList.isPrefixOf plan.releaseNotesPath.toList = true
  previous : w.previous = some plan.expectedBaseCommit
  paths : plan.publicPaths ≠ []

/-- The cached closure report, where there is one, can be read. -/
def World.ReadsCached (plan : Plan) (w : World) : Prop :=
  ∃ state, cachedEvidence plan (w.report .closureTests) w.head = .ok state

/-- `collect_scope` finds the planned files. -/
def World.HasScope (plan : Plan) (w : World) : Prop :=
  sortedSet (w.modified ++ w.untracked) = plan.publicPaths

/-- The tracking ref is where `preflight` wants it: at the base, or at the release commit. -/
def Synchronized (git : Objects) (plan : Plan) (w : World) : Prop :=
  ∃ t, w.tracking = some t ∧
    if w.head = plan.expectedBaseCommit then
      t = plan.expectedBaseCommit ∧ git.counts t w.head = (0, 0)
    else
      (git.counts t w.head).1 = 0 ∧ (git.counts t w.head).2 ∈ [0, 1] ∧
        t ∈ [plan.expectedBaseCommit, w.head]

/-! ### What preflight finds -/

/-- The state from which `preflight` returns a mode. -/
def Returns (git : Objects) (plan : Plan) (checked : Bool) (w : World) : Preflight → Prop
  | .needsCommit => w.branch = plan.expectedBranch ∧ w.head = plan.expectedBaseCommit ∧
      Synchronized git plan w ∧ checked ∧ w.HasScope plan
  | .resumeCommitted head => w.branch = plan.expectedBranch ∧ head = w.head ∧
      git.Aligned plan w.head ∧ w.changes = [] ∧ Synchronized git plan w

theorem findsAt_run (c : Cmd) : FindsAt git plan checked w (run c) (lookAt git plan checked w c) :=
  eval_ask c w

theorem findsAt_gitStdout {α : Type} {c : Cmd} {answer : Run (Result α)} {out : α}
    (h : FindsAt git plan checked w answer (.ok (.ok out))) :
    FindsAt git plan checked w (gitStdout plan c answer) (.ok out) :=
  h.after rfl

/-- A failing command ends the computation, whatever comes after it. -/
theorem findsAt_failed {α β : Type} {label : String} {answer : Run (Result α)} {f : α → Run β}
    {P : β → Prop} {returncode : Int} {timedOut : Bool} {detail : String}
    (h : FindsAt git plan checked w answer (.ok (.failed returncode timedOut detail)))
    (hP : ∀ b, ¬ P b) :
    ∃ x, FindsAt git plan checked w (required label answer >>= f) x ∧ ∀ b, x = .ok b ↔ P b :=
  ⟨_, eval_bind_error (h.after rfl), fun b => iff_of_false (fun h => nomatch h) (hP b)⟩

/-- So does an exception. -/
theorem findsAt_raise {β : Type} {P : β → Prop} {e : ReleaseExc} (hP : ∀ b, ¬ P b) :
    ∃ x, FindsAt git plan checked w (.raise e : Run β) x ∧ ∀ b, x = .ok b ↔ P b :=
  ⟨.error e, rfl, fun b => iff_of_false (fun h => nomatch h) (hP b)⟩

theorem findsAt_ret {β : Type} {P : β → Prop} {b : β} (hP : ∀ b', P b' ↔ b' = b) :
    ∃ x, FindsAt git plan checked w (.ret b : Run β) x ∧ ∀ b', x = .ok b' ↔ P b' := by
  refine ⟨.ok b, rfl, fun b' => ?_⟩
  rw [hP, Except.ok.injEq, eq_comm]

/-- Going on after a first part. -/
theorem findsAt_after {α β : Type} {m : Run α} {f : α → Run β} {P : β → Prop} {a : α}
    (hm : FindsAt git plan checked w m (.ok a))
    (hf : ∃ x, FindsAt git plan checked w (f a) x ∧ ∀ b, x = .ok b ↔ P b) :
    ∃ x, FindsAt git plan checked w (m >>= f) x ∧ ∀ b, x = .ok b ↔ P b := by
  obtain ⟨x, hx, hiff⟩ := hf
  exact ⟨x, hm.after hx, hiff⟩

theorem findsAt_checkNotes (h : Prepared plan w) :
    FindsAt git plan checked w (checkNotes plan) (.ok ⟨⟩) := by
  have hresolve : lookAt git plan checked w .resolveNotes = .ok plan.releaseNotesPath :=
    if_pos (by rw [h.notes]; rfl)
  have hhash : lookAt git plan checked w .hashNotes = .ok plan.releaseNotesSha256 := by
    simp only [lookAt, look, h.notes]
  refine (hresolve ▸ findsAt_run .resolveNotes).after ?_
  rw [if_neg (not_not_intro h.below)]
  refine (hhash ▸ findsAt_run .hashNotes).after ?_
  rw [if_neg (not_not_intro rfl)]
  rfl

theorem findsAt_collectScope : FindsAt git plan checked w (collectScope plan)
    (.ok (sortedSet (w.modified ++ w.untracked))) := by
  have hchanged : FindsAt git plan checked w (run .diffNames) (.ok (.ok w.modified)) := rfl
  have huntracked : FindsAt git plan checked w (run .untracked) (.ok (.ok w.untracked)) := rfl
  exact (findsAt_gitStdout hchanged).after ((findsAt_gitStdout huntracked).after rfl)

theorem findsAt_preflightBase {t : Oid} (hbranch : w.branch = plan.expectedBranch)
    (hbase : w.head = plan.expectedBaseCommit) (ht : w.tracking = some t) :
    ∃ x, FindsAt git plan checked w (preflightBase plan t (git.counts t w.head)) x ∧
      ∀ mode, x = .ok mode ↔ Returns git plan checked w mode := by
  have hsynced : Synchronized git plan w ↔
      t = plan.expectedBaseCommit ∧ git.counts t w.head = (0, 0) := by
    simp only [Synchronized, ht, Option.some.injEq, exists_eq_left', if_pos hbase]
  have hcommitted (c : Oid) : ¬ Returns git plan checked w (.resumeCommitted c) :=
    fun h => h.2.2.1.ne_base hbase
  have hneeds : Returns git plan checked w .needsCommit ↔
      (t = plan.expectedBaseCommit ∧ git.counts t w.head = (0, 0)) ∧ checked ∧ w.HasScope plan := by
    rw [← hsynced]
    exact ⟨fun h => h.2.2, fun h => ⟨hbranch, hbase, h⟩⟩
  unfold preflightBase
  by_cases hcounts : t ≠ plan.expectedBaseCommit ∨ git.counts t w.head ≠ (0, 0)
  · rw [if_pos hcounts]
    refine findsAt_raise fun mode h => ?_
    rcases mode with - | c
    · exact (hneeds.mp h).1.elim fun ht' hc => hcounts.elim (· ht') (· hc)
    · exact hcommitted c h
  · rw [if_neg hcounts]
    obtain ⟨hbase', hzero⟩ := not_or.mp hcounts
    by_cases hchecked : checked = true
    · have hcheck : lookAt git plan checked w .diffCheck = .ok (.ok ()) :=
        congrArg Except.ok (if_pos hchecked)
      refine findsAt_after ((hcheck ▸ findsAt_run .diffCheck).after rfl) ?_
      refine findsAt_after findsAt_collectScope ?_
      by_cases hscope : sortedSet (w.modified ++ w.untracked) = plan.publicPaths
      · rw [if_neg (not_not_intro hscope)]
        refine findsAt_ret fun mode => ?_
        rcases mode with - | c
        · exact iff_of_true (hneeds.mpr ⟨⟨not_not.mp hbase', not_not.mp hzero⟩, hchecked, hscope⟩) rfl
        · exact iff_of_false (hcommitted c) fun h => nomatch h
      · rw [if_pos hscope]
        refine findsAt_raise fun mode h => ?_
        rcases mode with - | c
        · exact hscope (hneeds.mp h).2.2
        · exact hcommitted c h
    · have hcheck : lookAt git plan checked w .diffCheck = .ok (.failed 2 false "") :=
        congrArg Except.ok (if_neg hchecked)
      refine findsAt_failed (hcheck ▸ findsAt_run .diffCheck) fun mode h => ?_
      rcases mode with - | c
      · exact hchecked (hneeds.mp h).2.1
      · exact hcommitted c h

theorem findsAt_preflightCommitted {t : Oid} (hbranch : w.branch = plan.expectedBranch)
    (hbase : w.head ≠ plan.expectedBaseCommit) (ht : w.tracking = some t) :
    ∃ x, FindsAt git plan checked w (preflightCommitted plan w.head t (git.counts t w.head)) x ∧
      ∀ mode, x = .ok mode ↔ Returns git plan checked w mode := by
  have hsynced : Synchronized git plan w ↔ (git.counts t w.head).1 = 0 ∧
      (git.counts t w.head).2 ∈ [0, 1] ∧ t ∈ [plan.expectedBaseCommit, w.head] := by
    simp only [Synchronized, ht, Option.some.injEq, exists_eq_left', if_neg hbase]
  have hneeds : ¬ Returns git plan checked w .needsCommit := fun h => hbase h.2.1
  have hcommitted (c : Oid) : Returns git plan checked w (.resumeCommitted c) ↔
      c = w.head ∧ git.Aligned plan w.head ∧ w.changes = [] ∧ (git.counts t w.head).1 = 0 ∧
        (git.counts t w.head).2 ∈ [0, 1] ∧ t ∈ [plan.expectedBaseCommit, w.head] := by
    rw [← hsynced]
    exact ⟨fun h => h.2, fun h => ⟨hbranch, h⟩⟩
  have hparent : FindsAt git plan checked w (run (.revParse (.parent w.head)))
      (.ok (printed 128 (git.commit w.head).parent)) := rfl
  have hsubject : FindsAt git plan checked w (run .subject)
      (.ok (.ok (git.commit w.head).subject)) := rfl
  have hpaths : FindsAt git plan checked w (run (.diffTree w.head))
      (.ok (.ok (git.commit w.head).paths)) := rfl
  have hstatus : FindsAt git plan checked w (run .status) (.ok (.ok w.changes)) := rfl
  unfold preflightCommitted
  rcases e : (git.commit w.head).parent with - | parent
  · rw [e] at hparent
    refine findsAt_failed hparent fun mode h => ?_
    rcases mode with - | c
    · exact hneeds h
    · have haligned := ((hcommitted c).mp h).2.1.1
      rw [e] at haligned
      exact nomatch haligned
  · rw [e] at hparent
    refine findsAt_after (findsAt_gitStdout hparent) ?_
    refine findsAt_after (findsAt_gitStdout hsubject) ?_
    refine findsAt_after ((findsAt_gitStdout hpaths).after rfl) ?_
    refine findsAt_after (findsAt_gitStdout hstatus) ?_
    rw [alignedCommit_eq e]
    split_ifs with hall
    · refine findsAt_ret fun mode => ?_
      rcases mode with - | c
      · exact iff_of_false hneeds fun h => nomatch h
      · rw [hcommitted, Preflight.resumeCommitted.injEq]
        exact and_iff_left ⟨of_decide_eq_true hall.1, hall.2⟩
    · refine findsAt_raise fun mode h => ?_
      rcases mode with - | c
      · exact hneeds h
      · obtain ⟨-, haligned, hrest⟩ := (hcommitted c).mp h
        exact hall ⟨decide_eq_true haligned, hrest⟩

/-- What `preflight` finds. -/
theorem findsAt_preflight (h : Prepared plan w) :
    ∃ x, FindsAt git plan checked w (preflight plan) x ∧
      ∀ mode, x = .ok mode ↔ Returns git plan checked w mode := by
  have hbranch : FindsAt git plan checked w (run .currentBranch) (.ok (.ok w.branch)) := rfl
  have hhead : FindsAt git plan checked w (run (.revParse .head)) (.ok (.ok w.head)) := rfl
  have htracking : FindsAt git plan checked w (run (.revParse .tracking))
      (.ok (printed 128 w.tracking)) := rfl
  have hcounts : FindsAt git plan checked w (run .leftRight)
      (.ok (printed 128 (w.tracking.map fun t => git.counts t w.head))) := rfl
  have hprevious : FindsAt git plan checked w (run (.revParse .peeledPrevious))
      (.ok (printed 128 w.previous)) := rfl
  have hgit : FindsAt git plan checked w (requireTool "git" "git is required") (.ok ⟨⟩) := rfl
  have hcomponents : FindsAt git plan checked w (requiredComponents.forM checkComponent)
      (.ok ⟨⟩) := rfl
  refine findsAt_after hgit (findsAt_after hcomponents ?_)
  refine findsAt_after (findsAt_gitStdout hbranch) ?_
  by_cases hb : w.branch = plan.expectedBranch
  · rw [if_neg (not_not_intro hb)]
    refine findsAt_after (findsAt_gitStdout hhead) ?_
    rcases e : w.tracking with - | t
    · rw [e] at htracking
      refine findsAt_failed htracking fun mode h => ?_
      have hsynced : Synchronized git plan w := by
        rcases mode with - | c
        · exact h.2.2.1
        · exact h.2.2.2.2
      obtain ⟨t, ht, -⟩ := hsynced
      rw [e] at ht
      exact nomatch ht
    · rw [e] at htracking hcounts
      rw [h.previous] at hprevious
      refine findsAt_after (findsAt_gitStdout htracking) ?_
      refine findsAt_after (findsAt_gitStdout hcounts) ?_
      refine findsAt_after (findsAt_gitStdout hprevious) ?_
      rw [if_neg (not_not_intro rfl)]
      refine findsAt_after (findsAt_checkNotes h) ?_
      split_ifs with hbase
      · exact findsAt_preflightBase hb hbase e
      · exact findsAt_preflightCommitted hb hbase e
  · rw [if_pos hb]
    refine findsAt_raise fun mode h => ?_
    rcases mode with - | c
    · exact hb h.1
    · exact hb h.1

/-! ### What the status finds -/

/-- The program performs none but these commands. -/
abbrev Only (P : Cmd → Prop) {α : Type} (m : Run α) : Prop :=
  m.Always P (fun _ => True) fun _ => True

section Only

variable {P : Cmd → Prop} {α β : Type}

theorem only_run {c : Cmd} (hc : P c) : Only P (run c) :=
  ⟨hc, fun r => by cases r <;> trivial⟩

theorem only_bind {m : Run α} {f : α → Run β} (hm : Only P m) (hf : ∀ a, Only P (f a)) :
    Only P (m >>= f) :=
  Always.bind hm fun a _ => hf a

theorem only_required {label : String} {answer : Run (Result α)} (h : Only P answer) :
    Only P (required label answer) := by
  refine only_bind h fun r => ?_
  cases r <;> trivial

theorem only_ofExcept {x : Except ReleaseExc α} : Only P (Prog.ofExcept x : Run α) := by
  cases x <;> trivial

theorem only_attempt {m : Run α} (hm : Only P m) : Only P (Prog.attempt m : Run _) :=
  Always.attempt hm (fun _ _ => trivial) fun _ _ => trivial

theorem only_orOnWorkflowError {otherwise : α} {body : Run α} (h : Only P body) :
    Only P (orOnWorkflowError otherwise body) := by
  refine only_bind (only_attempt h) fun r => ?_
  rcases r with e | a
  · cases e <;> trivial
  · trivial

variable (hP : ∀ c, c ≠ .diffCheck → P c)
include hP

theorem only_inspectLocalTag (head : Oid) : Only P (inspectLocalTag plan head) := by
  refine only_bind (only_run (hP _ nofun)) fun r => ?_
  rcases r with - | ⟨returncode, _, _⟩
  · refine only_bind (only_required (only_run (hP _ nofun))) fun _ => ?_
    refine only_bind (only_required (only_run (hP _ nofun))) fun _ => ?_
    exact only_bind (only_required (only_run (hP _ nofun))) fun _ => trivial
  · split <;> trivial

theorem only_inspectRelease : Only P (inspectRelease plan) := by
  refine only_bind (only_run (hP _ nofun)) fun r => ?_
  rcases r with - | ⟨returncode, _, _⟩
  · exact only_bind (only_required (only_run (hP _ nofun))) fun _ => trivial
  · split <;> trivial

theorem only_tryInspectRemote (head : Oid) (object : Option Oid) :
    Only P (tryInspectRemote plan head object) := by
  refine only_bind (only_attempt ?_) fun r => ?_
  · refine only_bind (only_required (only_run (hP _ nofun))) fun _ => ?_
    refine only_bind (only_required (only_run (hP _ nofun))) fun _ => ?_
    refine only_bind (only_required (only_run (hP _ nofun))) fun _ => ?_
    exact only_bind (only_inspectRelease hP) fun _ => trivial
  · rcases r with e | remote
    · cases e <;> trivial
    · trivial

theorem only_inspectCommit (head : Oid) : Only P (inspectCommit plan head) := by
  unfold inspectCommit
  split
  · trivial
  · refine only_orOnWorkflowError ?_
    refine only_bind (only_required (only_run (hP _ nofun))) fun _ => ?_
    refine only_bind (only_required (only_run (hP _ nofun))) fun _ => ?_
    refine only_bind ?_ fun _ => trivial
    exact only_bind (only_required (only_run (hP _ nofun))) fun _ => trivial

/-- The status inspection never looks for whitespace. -/
theorem only_inspectReleaseStatus : Only P (inspectReleaseStatus plan true) := by
  refine only_bind (only_required (only_run (hP _ nofun))) fun _ => ?_
  refine only_bind (only_required (only_run (hP _ nofun))) fun _ => ?_
  refine only_bind (only_required (only_run (hP _ nofun))) fun _ => ?_
  refine only_bind (only_orOnWorkflowError ?_) fun _ => ?_
  · exact only_bind (only_required (only_run (hP _ nofun))) fun _ => trivial
  refine only_bind ?_ fun _ => ?_
  · refine only_bind (only_required (only_run (hP _ nofun))) fun _ => ?_
    exact only_bind (only_required (only_run (hP _ nofun))) fun _ => trivial
  refine only_bind (only_inspectCommit hP _) fun _ => ?_
  refine only_bind (only_inspectLocalTag hP _) fun _ => ?_
  rw [if_pos rfl]
  refine only_bind (only_tryInspectRemote hP _ _) fun r => only_bind ?_ fun _ => ?_
  · exact only_bind (only_run (hP _ nofun)) fun file => only_ofExcept
  · cases r <;> trivial

end Only

theorem lookAt_of_ne {c : Cmd} (hc : c ≠ .diffCheck) :
    lookAt git plan checked w c = look git plan w c := by
  cases c <;> first | rfl | exact absurd rfl hc

/-- The status code of a state. -/
def recoveryCode (git : Objects) (plan : Plan) (w : World) : RecoveryCode :=
  if w.reachable ∧ w.authenticated then
    deriveRecoveryState plan
      ⟨w.branch, w.head, w.changes = [], sortedSet (w.modified ++ w.untracked) = plan.publicPaths,
        git.Aligned plan w.head, w.tracking.map fun t => git.counts t w.head, true,
        localTagFound w, remoteStatusFound plan w⟩
  else .blockedRemoteInspection

theorem findsAt_status {state : CachedEvidence}
    (hcached : cachedEvidence plan (w.report .closureTests) w.head = .ok state) :
    FindsAt git plan checked w (inspectReleaseStatus plan true)
      (.ok (recoveryCode git plan w)) := by
  have hsame (w : World) (c : Cmd) (hc : c ≠ .diffCheck) :
      (lookAt git plan checked w c, w) = ask git plan w c := Prod.ext (lookAt_of_ne hc) rfl
  refine (eval_congr (only_inspectReleaseStatus fun c hc => hc) hsame w).trans ?_
  show Finds git plan w (inspectReleaseStatus plan true) (.ok (recoveryCode git plan w))
  have hbranch : Finds git plan w (run .currentBranch) (.ok (.ok w.branch)) := rfl
  have hhead : Finds git plan w (run (.revParse .head)) (.ok (.ok w.head)) := rfl
  have hstatus : Finds git plan w (run .status) (.ok (.ok w.changes)) := rfl
  refine (finds_gitStdout hbranch).after ((finds_gitStdout hhead).after ?_)
  refine (finds_gitStdout hstatus).after (finds_inspectTracking.after (finds_collectScope.after ?_))
  refine finds_inspectCommit.after (finds_inspectLocalTag.after ?_)
  rw [if_pos rfl]
  refine finds_tryInspectRemote.after ((finds_inspectCachedTestEvidence hcached).after ?_)
  unfold recoveryCode
  split_ifs with hasked
  · rfl
  · rfl

/-- The local facts that the status wants. -/
def Reviewed (git : Objects) (plan : Plan) (w : World) : Prop :=
  w.branch = plan.expectedBranch ∧
    if w.head = plan.expectedBaseCommit then w.changes ≠ [] ∧ w.HasScope plan
    else git.Aligned plan w.head ∧ w.changes = [] ∧ w.tracking ≠ none

/-- The state is past the delivery to git: it continues or is blocked there. -/
def RecoveryCode.Delivered (code : RecoveryCode) : Prop :=
  code ≠ .needsGitDelivery ∧ (code.continues ∨ code.blockedByRelease)

/-- Both branches have the property. -/
theorem of_ite {α : Type} {P : α → Prop} {c : Prop} [Decidable c] {a b : α} (ha : P a) (hb : P b) :
    P (if c then a else b) := by
  split
  · exact ha
  · exact hb

/-- What the status makes of a reviewed state, whatever the remote says. -/
theorem recoveryCode_reviewed (hasked : w.reachable ∧ w.authenticated)
    (h : Reviewed git plan w) :
    if w.head = plan.expectedBaseCommit then recoveryCode git plan w = .needsGitDelivery
    else recoveryCode git plan w ≠ .needsGitDelivery ∧
      ((recoveryCode git plan w).continues ∨ (recoveryCode git plan w).blockedByRelease) := by
  obtain ⟨hbranch, hlocal⟩ := h
  rw [recoveryCode, if_pos hasked, deriveRecoveryState, if_neg (not_not_intro hbranch)]
  by_cases hbase : w.head = plan.expectedBaseCommit
  · rw [if_pos hbase] at hlocal
    have hscope : sortedSet (w.modified ++ w.untracked) = plan.publicPaths := hlocal.2
    rw [if_pos hbase, if_pos hbase]
    simp [hlocal.1, hscope]
  · rw [if_neg hbase] at hlocal
    obtain ⟨haligned, hclean, htracking⟩ := hlocal
    obtain ⟨t, ht⟩ := Option.ne_none_iff_exists'.mp htracking
    rw [if_neg hbase, if_neg hbase, ht]
    simp only [haligned, hclean, Option.map_some, decide_true, not_true_eq_false, if_false]
    -- each of the remaining answers depends on the remote, the tags or the release
    show RecoveryCode.Delivered _
    repeat' apply of_ite (P := RecoveryCode.Delivered)
    all_goals exact ⟨by decide, by decide⟩

/-- A state that is not reviewed is blocked for a local reason, or has no changes yet. -/
theorem recoveryCode_unreviewed (hasked : w.reachable ∧ w.authenticated)
    (h : ¬ Reviewed git plan w) :
    (recoveryCode git plan w).continues = false ∧
      (recoveryCode git plan w).blockedByRelease = false := by
  rw [recoveryCode, if_pos hasked, deriveRecoveryState]
  by_cases hbranch : w.branch = plan.expectedBranch
  · rw [if_neg (not_not_intro hbranch)]
    by_cases hbase : w.head = plan.expectedBaseCommit
    · rw [Reviewed, if_pos hbase] at h
      rw [if_pos hbase]
      by_cases hclean : w.changes = []
      · simp [hclean, RecoveryCode.continues, RecoveryCode.blockedByRelease]
      · have hscope : sortedSet (w.modified ++ w.untracked) ≠ plan.publicPaths :=
          fun hscope => h ⟨hbranch, hclean, hscope⟩
        simp [hclean, hscope, RecoveryCode.continues, RecoveryCode.blockedByRelease]
    · rw [Reviewed, if_neg hbase] at h
      rw [if_neg hbase]
      by_cases haligned : git.Aligned plan w.head
      · by_cases hclean : w.changes = []
        · have htracking : w.tracking = none := by
            by_contra htracking
            exact h ⟨hbranch, haligned, hclean, htracking⟩
          simp [haligned, hclean, htracking, RecoveryCode.continues, RecoveryCode.blockedByRelease]
        · simp [haligned, hclean, RecoveryCode.continues, RecoveryCode.blockedByRelease]
      · simp [haligned, RecoveryCode.continues, RecoveryCode.blockedByRelease]
  · rw [if_pos hbranch]
    exact ⟨rfl, rfl⟩

/-! ### What each tells of the other -/

/-- `preflight` returns a mode from a reviewed state that is synchronized and, before the commit,
free of whitespace errors. -/
theorem exists_returns_iff (h : Prepared plan w) :
    (∃ mode, Returns git plan checked w mode) ↔ Reviewed git plan w ∧ Synchronized git plan w ∧
      (w.head = plan.expectedBaseCommit → checked) := by
  constructor
  · rintro ⟨mode, hmode⟩
    rcases mode with - | c
    · obtain ⟨hbranch, hbase, hsynced, hchecked, hscope⟩ := hmode
      have hchanges : w.changes ≠ [] := fun hnil => by
        have hnone : w.modified ++ w.untracked = [] := by
          simp only [World.changes, List.append_eq_nil_iff] at hnil
          rw [hnil.1.2, hnil.2]
          rfl
        rw [World.HasScope, hnone] at hscope
        exact h.paths (hscope.symm.trans (by rw [sortedSet, List.mergeSort_nil]; rfl))
      refine ⟨⟨hbranch, ?_⟩, hsynced, fun _ => hchecked⟩
      rw [if_pos hbase]
      exact ⟨hchanges, hscope⟩
    · obtain ⟨hbranch, -, haligned, hclean, hsynced⟩ := hmode
      have hbase := haligned.ne_base
      obtain ⟨t, ht, -⟩ := id hsynced
      refine ⟨⟨hbranch, ?_⟩, hsynced, fun hbase' => absurd hbase' hbase⟩
      rw [if_neg hbase, ht]
      exact ⟨haligned, hclean, nofun⟩
  · rintro ⟨⟨hbranch, hlocal⟩, hsynced, hchecked⟩
    by_cases hbase : w.head = plan.expectedBaseCommit
    · rw [if_pos hbase] at hlocal
      exact ⟨.needsCommit, hbranch, hbase, hsynced, hchecked hbase, hlocal.2⟩
    · rw [if_neg hbase] at hlocal
      exact ⟨.resumeCommitted w.head, hbranch, rfl, hlocal.1, hlocal.2.1, hsynced⟩

/-- The status code and the answer of `preflight` belong together. -/
structure Corresponds (git : Objects) (plan : Plan) (checked : Bool) (w : World)
    (code : RecoveryCode) (x : Except ReleaseExc Preflight) : Prop where
  unasked : ¬ (w.reachable ∧ w.authenticated) → code = .blockedRemoteInspection
  mode : w.reachable ∧ w.authenticated → ((∃ mode, x = .ok mode) ↔
    (code.safeToResume ∧ code.continues ∨ code.blockedByRelease) ∧ Synchronized git plan w ∧
      (code = .needsGitDelivery → checked))
  commit : w.reachable ∧ w.authenticated → ∀ mode, x = .ok mode →
    (mode = .needsCommit ↔ code = .needsGitDelivery)

/-- The status goes on, or is blocked by the remote, a tag or the release, where `preflight` returns
a mode, up to the tracking ref and to whitespace errors; they agree on whether a commit is needed. -/
theorem preflight_iff_status (h : Prepared plan w) (hreads : w.ReadsCached plan) :
    ∃ code x, FindsAt git plan checked w (inspectReleaseStatus plan true) (.ok code) ∧
      FindsAt git plan checked w (preflight plan) x ∧ Corresponds git plan checked w code x := by
  obtain ⟨state, hcached⟩ := hreads
  obtain ⟨x, hx, hiff⟩ := @findsAt_preflight git plan w checked h
  have hsafe (code : RecoveryCode) : code.safeToResume ∧ code.continues ↔ code.continues :=
    and_iff_right_of_imp safeToResume_of_continues
  have hreturns : (∃ mode, x = .ok mode) ↔ Reviewed git plan w ∧ Synchronized git plan w ∧
      (w.head = plan.expectedBaseCommit → checked) := by
    rw [← exists_returns_iff h]
    exact exists_congr hiff
  refine ⟨_, x, findsAt_status hcached, hx, fun hasked => if_neg hasked, fun hasked => ?_,
    fun hasked => ?_⟩
  · rw [hreturns, hsafe]
    by_cases hreviewed : Reviewed git plan w
    · have hcode := recoveryCode_reviewed hasked hreviewed
      by_cases hbase : w.head = plan.expectedBaseCommit
      · rw [if_pos hbase] at hcode
        rw [hcode]
        simp [hreviewed, hbase, RecoveryCode.continues]
      · rw [if_neg hbase] at hcode
        simp [hreviewed, hbase, hcode.1, hcode.2]
    · have hcode := recoveryCode_unreviewed hasked hreviewed
      simp [hreviewed, hcode.1, hcode.2]
  · intro mode hmode
    have hreviewed := (hreturns.mp ⟨mode, hmode⟩).1
    have hcode := recoveryCode_reviewed hasked hreviewed
    have hat := (hiff mode).mp hmode
    rcases mode with - | c
    · rw [if_pos hat.2.1] at hcode
      exact iff_of_true rfl hcode
    · rw [if_neg hat.2.2.1.ne_base] at hcode
      exact iff_of_false nofun hcode.1

/-! ### A tag that is not annotated -/

theorem prepared_sampleWorld (tag : Tag) : Prepared samplePlan (sampleWorld tag) where
  notes := rfl
  below := by decide
  previous := rfl
  paths := by decide

theorem readsCached_sampleWorld (tag : Tag) : (sampleWorld tag).ReadsCached samplePlan :=
  ⟨.valid, cached_sampleWorld tag⟩

/-- With an annotated tag, `preflight` resumes and the status asks for the tag to be published. -/
theorem annotatedTag_continues :
    ∃ code x, FindsAt sampleObjects samplePlan true (sampleWorld annotatedTag)
        (inspectReleaseStatus samplePlan true) (.ok code) ∧
      FindsAt sampleObjects samplePlan true (sampleWorld annotatedTag) (preflight samplePlan) x ∧
      Corresponds sampleObjects samplePlan true (sampleWorld annotatedTag) code x :=
  preflight_iff_status (prepared_sampleWorld annotatedTag) (readsCached_sampleWorld annotatedTag)

theorem synchronized_sampleWorld (tag : Tag) :
    Synchronized sampleObjects samplePlan (sampleWorld tag) := by
  refine ⟨sampleCommit, rfl, ?_⟩
  have hbase : (sampleWorld tag).head ≠ samplePlan.expectedBaseCommit :=
    show sampleCommit ≠ samplePlan.expectedBaseCommit by decide
  rw [if_neg hbase]
  show (sampleObjects.counts sampleCommit sampleCommit).1 = 0 ∧
    (sampleObjects.counts sampleCommit sampleCommit).2 ∈ [0, 1] ∧
      sampleCommit ∈ [samplePlan.expectedBaseCommit, sampleCommit]
  decide

/-- With a lightweight tag, `preflight` resumes all the same, and the status is blocked. -/
theorem lightweightTag_resumes_blocked :
    ¬ ∀ git plan checked w, Prepared plan w → w.ReadsCached plan →
      ∃ code x, FindsAt git plan checked w (inspectReleaseStatus plan true) (.ok code) ∧
        FindsAt git plan checked w (preflight plan) x ∧
          (code.safeToResume ∧ code.continues ↔ ∃ mode, x = .ok mode) ∧
            (x = .ok .needsCommit ↔ code = .needsGitDelivery) := by
  intro h
  obtain ⟨code, x, hcode, hx, hiff, -⟩ :=
    h sampleObjects samplePlan true (sampleWorld (.lightweight sampleCommit))
      (prepared_sampleWorld _) (readsCached_sampleWorld _)
  obtain ⟨state, hcached⟩ := readsCached_sampleWorld (.lightweight sampleCommit)
  obtain rfl := Except.ok.inj (Prod.mk.inj (hcode.symm.trans (findsAt_status hcached))).1
  obtain ⟨x', hx', hmode⟩ := @findsAt_preflight sampleObjects _ _ true
    (prepared_sampleWorld (.lightweight sampleCommit))
  obtain rfl := (Prod.mk.inj (hx.symm.trans hx')).1
  have hblocked : (recoveryCode sampleObjects samplePlan
      (sampleWorld (.lightweight sampleCommit))).continues = false := by
    decide +kernel
  have hresumes : x = .ok (.resumeCommitted sampleCommit) :=
    (hmode _).mpr ⟨rfl, rfl, aligned_sampleCommit, rfl, synchronized_sampleWorld _⟩
  rw [(hiff.mpr ⟨_, hresumes⟩).2] at hblocked
  cases hblocked

end Konoha.Release
