/-
Release/Findings.lean

What the closure guard and the status inspection find on a healthy machine: each collector
reads the world that it looks at, and leaves it as it is.
-/
import KonohaRuntime.Release.World

namespace Konoha.Release

open Effects Prog

variable {git : Objects} {plan : Plan} {w : World}

/-! ### What the collectors find -/

theorem finds_run (c : Cmd) : Finds git plan w (run c) (look git plan w c) :=
  eval_ask c w

theorem finds_guardStdout {α : Type} {c : Cmd} {answer : Run (Result α)} {out : α}
    (h : Finds git plan w answer (.ok (.ok out))) :
    Finds git plan w (guardStdout plan c answer) (.ok out) :=
  h.after rfl

theorem finds_required {α : Type} {label : String} {answer : Run (Result α)} {out : α}
    (h : Finds git plan w answer (.ok (.ok out))) :
    Finds git plan w (required label answer) (.ok out) :=
  h.after rfl

theorem finds_gitStdout {α : Type} {c : Cmd} {answer : Run (Result α)} {out : α}
    (h : Finds git plan w answer (.ok (.ok out))) :
    Finds git plan w (gitStdout plan c answer) (.ok out) :=
  finds_required h

theorem finds_trackingCounts : Finds git plan w (trackingCounts plan)
    (.ok (w.tracking.map fun t => git.counts t w.head)) := by
  have hverify : Finds git plan w (run (.revParse .tracking)) (.ok (printed 128 w.tracking)) := rfl
  have hcounts : Finds git plan w (run .leftRight)
      (.ok (printed 128 (w.tracking.map fun t => git.counts t w.head))) := rfl
  refine hverify.after ?_
  rcases e : w.tracking with - | t
  · rfl
  · rw [e] at hcounts
    exact (finds_guardStdout hcounts).after rfl

theorem finds_collectLocalTag : Finds git plan w (collectLocalTag plan)
    (.ok (w.tag.map fun tag => ⟨tag.object, tag.target⟩)) := by
  have hverify : Finds git plan w (run .verifyTag) (.ok (printed 128 (w.tag.map (·.object)))) := rfl
  have htarget : Finds git plan w (run (.revParse .peeledTag))
      (.ok (printed 128 (w.tag.map (·.target)))) := rfl
  refine hverify.after ?_
  rcases e : w.tag with - | tag
  · rfl
  · rw [e] at htarget
    exact (finds_guardStdout htarget).after rfl

/-- What `collect_local_git` finds. -/
def localGitFound (git : Objects) (plan : Plan) (w : World) : LocalGit :=
  ⟨w.head, w.branch, plan.expectedBranch, w.changes, w.tracking.map fun t => git.counts t w.head,
    w.tag.map fun tag => ⟨tag.object, tag.target⟩⟩

theorem finds_collectLocalGit :
    Finds git plan w (collectLocalGit plan) (.ok (localGitFound git plan w)) := by
  have hinside : Finds git plan w (run .insideWorkTree) (.ok (.ok "true")) := rfl
  have hhead : Finds git plan w (run (.revParse .head)) (.ok (.ok w.head)) := rfl
  have hbranch : Finds git plan w (run .currentBranch) (.ok (.ok w.branch)) := rfl
  have hstatus : Finds git plan w (run .status) (.ok (.ok w.changes)) := rfl
  refine (finds_guardStdout hinside).after ?_
  rw [if_neg (by decide)]
  refine (finds_guardStdout hhead).after ((finds_guardStdout hbranch).after ?_)
  refine (finds_guardStdout hstatus).after (finds_trackingCounts.after ?_)
  exact finds_collectLocalTag.after rfl

/-- What `collect_remote_git` finds. -/
def remoteFound (w : World) : RemoteGit :=
  if w.reachable then
    ⟨true, w.remoteBranch, w.remoteTag.map (·.object), w.remoteTag.bind Tag.peeled⟩
  else ⟨false, none, none, none⟩

theorem finds_collectRemoteGit : Finds git plan w collectRemoteGit (.ok (remoteFound w)) := by
  obtain ⟨hbranch, htag, hpeeled⟩ := lookupRef_remoteRefs w
  have hls : Finds git plan w (run (.lsRemote [.branch, .tag, .peeledTag]))
      (.ok (if w.reachable then .ok w.remoteRefs else .failed 128 false "")) := by
    rw [← filter_allRefs w]
    rfl
  rcases e : w.reachable with - | -
  · rw [e] at hls
    refine hls.after ?_
    rw [remoteFound, e]
    rfl
  · rw [e, if_pos rfl] at hls
    refine hls.after ?_
    rw [remoteFound, e, if_pos rfl, ← hbranch, ← htag, ← hpeeled]
    rfl

/-- What `collect_github_release` finds. -/
def githubFound (plan : Plan) (w : World) : GithubRelease :=
  if w.authenticated then
    ⟨true, true, true, w.listed.find? fun r => r.tagName = plan.targetVersion⟩
  else ⟨true, false, false, none⟩

theorem finds_collectGithubRelease :
    Finds git plan w (collectGithubRelease plan) (.ok (githubFound plan w)) := by
  have hwhich : Finds git plan w (run (.which "gh")) (.ok true) := rfl
  have hauth : Finds git plan w (run .ghAuth)
      (.ok (if w.authenticated then .ok () else .failed 1 false "")) := rfl
  have hlist : Finds git plan w (run .ghList)
      (.ok (if w.authenticated then .ok w.listed else .failed 4 false "")) := rfl
  refine hwhich.after ?_
  rw [if_pos rfl]
  refine hauth.after ?_
  unfold githubFound
  rcases e : w.authenticated with - | -
  · rfl
  · rw [e] at hlist
    exact hlist.after rfl

/-! ### What the inspection finds -/

theorem finds_gitStdout_failed {α : Type} {c : Cmd} {answer : Run (Result α)} {returncode : Int}
    {timedOut : Bool} {detail : String}
    (h : Finds git plan w answer (.ok (.failed returncode timedOut detail))) :
    ∃ text, Finds git plan w (gitStdout plan c answer) (.error (.workflowError text)) :=
  ⟨_, h.after rfl⟩

theorem finds_orOnWorkflowError_ok {α : Type} {otherwise a : α} {body : Run α}
    (h : Finds git plan w body (.ok a)) :
    Finds git plan w (orOnWorkflowError otherwise body) (.ok a) := by
  have hbody := eval_attempt (h := ask git plan) body w
  rw [show body.eval (ask git plan) w = (.ok a, w) from h] at hbody
  exact (eval_bind_ok hbody).trans rfl

theorem finds_orOnWorkflowError_failed {α : Type} {otherwise : α} {body : Run α} {text : String}
    (h : Finds git plan w body (.error (.workflowError text))) :
    Finds git plan w (orOnWorkflowError otherwise body) (.ok otherwise) := by
  have hbody := eval_attempt (h := ask git plan) body w
  rw [show body.eval (ask git plan) w = (.error (.workflowError text), w) from h] at hbody
  exact (eval_bind_ok hbody).trans rfl

theorem finds_inspectTracking : Finds git plan w (inspectTracking plan)
    (.ok (w.tracking.map fun t => git.counts t w.head)) := by
  have hcounts : Finds git plan w (run .leftRight)
      (.ok (printed 128 (w.tracking.map fun t => git.counts t w.head))) := rfl
  rcases e : w.tracking with - | t
  · rw [e] at hcounts
    obtain ⟨text, hfail⟩ := finds_gitStdout_failed (c := .leftRight) hcounts
    exact finds_orOnWorkflowError_failed (eval_bind_error hfail)
  · rw [e] at hcounts
    exact finds_orOnWorkflowError_ok ((finds_gitStdout hcounts).after rfl)

theorem finds_collectScope :
    Finds git plan w (collectScope plan) (.ok (sortedSet (w.modified ++ w.untracked))) := by
  have hchanged : Finds git plan w (run .diffNames) (.ok (.ok w.modified)) := rfl
  have huntracked : Finds git plan w (run .untracked) (.ok (.ok w.untracked)) := rfl
  exact (finds_gitStdout hchanged).after ((finds_gitStdout huntracked).after rfl)

theorem alignedCommit_eq {parent c : Oid} (h : (git.commit c).parent = some parent) :
    alignedCommit plan parent (git.commit c).subject
      ((git.commit c).paths.mergeSort fun a b => decide (a ≤ b)) =
        decide (git.Aligned plan c) := by
  have : parent = plan.expectedBaseCommit ↔ (git.commit c).parent = some plan.expectedBaseCommit := by
    rw [h, Option.some.injEq]
  exact decide_eq_decide.mpr (and_congr this Iff.rfl)

theorem finds_collectCommitPaths {c : Oid} : Finds git plan w (collectCommitPaths plan c)
    (.ok ((git.commit c).paths.mergeSort fun a b => decide (a ≤ b))) := by
  have hpaths : Finds git plan w (run (.diffTree c)) (.ok (.ok (git.commit c).paths)) := rfl
  exact (finds_gitStdout hpaths).after rfl

theorem finds_inspectCommit : Finds git plan w (inspectCommit plan w.head)
    (.ok (decide (git.Aligned plan w.head))) := by
  have hparent : Finds git plan w (run (.revParse (.parent w.head)))
      (.ok (printed 128 (git.commit w.head).parent)) := rfl
  have hsubject : Finds git plan w (run .subject) (.ok (.ok (git.commit w.head).subject)) := rfl
  unfold inspectCommit
  by_cases hbase : w.head = plan.expectedBaseCommit
  · have hnot : ¬ git.Aligned plan w.head := fun h => h.ne_base hbase
    rw [if_pos hbase, decide_eq_false hnot]
    rfl
  · rw [if_neg hbase]
    rcases e : (git.commit w.head).parent with - | parent
    · have hnot : ¬ git.Aligned plan w.head := fun h => by
        rw [Objects.Aligned, e] at h
        exact nomatch h.1
      rw [e] at hparent
      obtain ⟨text, hfail⟩ := finds_gitStdout_failed (c := .revParse (.parent w.head)) hparent
      rw [decide_eq_false hnot]
      exact finds_orOnWorkflowError_failed (eval_bind_error hfail)
    · rw [e] at hparent
      rw [← alignedCommit_eq e]
      refine finds_orOnWorkflowError_ok ((finds_gitStdout hparent).after ?_)
      exact (finds_gitStdout hsubject).after (finds_collectCommitPaths.after rfl)

/-- What the inspection finds of the local tag. -/
def localTagFound (w : World) : LocalTagStatus :=
  match w.tag with
  | none => ⟨false, none, false, false⟩
  | some tag => ⟨true, some tag.object, tag.type = "tag", tag.target = w.head⟩

theorem finds_inspectLocalTag :
    Finds git plan w (inspectLocalTag plan w.head) (.ok (localTagFound w)) := by
  have hshow : Finds git plan w (run .showRef) (.ok (printed 1 (w.tag.map fun _ => ()))) := rfl
  have hobject : Finds git plan w (run (.revParse .tag))
      (.ok (printed 128 (w.tag.map (·.object)))) := rfl
  have htarget : Finds git plan w (run (.revParse .peeledTag))
      (.ok (printed 128 (w.tag.map (·.target)))) := rfl
  have htype : Finds git plan w (run .catFile) (.ok (printed 128 (w.tag.map (·.type)))) := rfl
  refine hshow.after ?_
  unfold localTagFound
  rcases e : w.tag with - | tag
  · rfl
  · rw [e] at hobject htarget htype
    refine (finds_gitStdout hobject).after ((finds_gitStdout htarget).after ?_)
    exact (finds_gitStdout htype).after rfl

/-- What the inspection finds of the release, when `gh` is logged in. -/
def releaseFound (plan : Plan) (w : World) : ReleaseStatus :=
  match w.shown plan with
  | none => ⟨false, false, false, none, none, false⟩
  | some view =>
      ⟨true, view.tagName = plan.targetVersion, view.name = plan.releaseTitle, some view.isDraft,
        some view.isPrerelease,
        (w.listedOwn plan).length = 1 ∧ (w.listedOwn plan).head?.any (·.isLatest)⟩

theorem finds_inspectRelease (hauth : w.authenticated) :
    Finds git plan w (inspectRelease plan) (.ok (releaseFound plan w)) := by
  have hview : look git plan w .ghView = .ok (printed 1 (w.shown plan)) :=
    congrArg Except.ok (if_pos hauth)
  have hlist : look git plan w .ghList = .ok (.ok w.listed) := congrArg Except.ok (if_pos hauth)
  refine (hview ▸ finds_run .ghView).after ?_
  unfold releaseFound
  rcases w.shown plan with - | view
  · rfl
  · exact (finds_required (hlist ▸ finds_run .ghList)).after rfl

/-- What the inspection finds of the remote, when it can be asked. -/
def remoteStatusFound (plan : Plan) (w : World) : RemoteStatus :=
  ⟨w.remoteBranch,
    { exists' := (remoteFound w).tagObject.isSome
      targetMatchesHead := (remoteFound w).tagTarget = some w.head
      objectMatchesLocal := (localTagFound w).object.isSome ∧
        (remoteFound w).tagObject = (localTagFound w).object },
    releaseFound plan w⟩

theorem finds_inspectRemote (hreach : w.reachable) (hauth : w.authenticated) :
    Finds git plan w (inspectRemote plan w.head (localTagFound w).object)
      (.ok (remoteStatusFound plan w)) := by
  obtain ⟨hbranch, hrefs⟩ := filter_remoteRefs w
  obtain ⟨-, htag, hpeeled⟩ := lookupRef_remoteRefs w
  have hlogin : look git plan w .ghAuth = .ok (.ok ()) := congrArg Except.ok (if_pos hauth)
  have hls : ∀ refs, look git plan w (.lsRemote refs) =
      .ok (.ok (w.remoteRefs.filter fun line => line.1 ∈ refs)) :=
    fun refs => congrArg Except.ok (if_pos hreach)
  refine (finds_required (hlogin ▸ finds_run .ghAuth)).after ?_
  refine (finds_required (hls [.branch] ▸ finds_run (.lsRemote [.branch]))).after ?_
  refine (finds_required (hls [.tag, .peeledTag] ▸ finds_run (.lsRemote [.tag, .peeledTag]))).after ?_
  refine (finds_inspectRelease hauth).after ?_
  rw [hbranch, hrefs .tag (by decide), hrefs .peeledTag (by decide), htag, hpeeled,
    remoteStatusFound, remoteFound, if_pos hreach]
  rfl

/-- The remote inspection succeeds where the remote and GitHub can be asked. -/
theorem finds_tryInspectRemote :
    Finds git plan w (tryInspectRemote plan w.head (localTagFound w).object)
      (.ok (if w.reachable ∧ w.authenticated then some (remoteStatusFound plan w) else none)) := by
  have htry : ∀ x, Finds git plan w (inspectRemote plan w.head (localTagFound w).object) x →
      Finds git plan w (Prog.attempt (inspectRemote plan w.head (localTagFound w).object))
        (.ok x) := by
    intro x hx
    have := eval_attempt (h := ask git plan)
      (inspectRemote plan w.head (localTagFound w).object) w
    rwa [show _ = (x, w) from hx] at this
  by_cases hauth : w.authenticated
  · by_cases hreach : w.reachable
    · rw [if_pos ⟨hreach, hauth⟩]
      exact (htry _ (finds_inspectRemote hreach hauth)).after rfl
    · -- the remote cannot be reached
      have hlogin : look git plan w .ghAuth = .ok (.ok ()) := congrArg Except.ok (if_pos hauth)
      have hls : look git plan w (.lsRemote [.branch]) = .ok (.failed 128 false "") :=
        congrArg Except.ok (if_neg hreach)
      have hfail : Finds git plan w (required "remote branch status" (run (.lsRemote [.branch])))
          (.error _) := (hls ▸ finds_run (.lsRemote [.branch])).after rfl
      have hraise : Finds git plan w (inspectRemote plan w.head (localTagFound w).object)
          (.error _) :=
        (finds_required (hlogin ▸ finds_run .ghAuth)).after (eval_bind_error hfail)
      rw [if_neg fun h => hreach h.1]
      exact (htry _ hraise).after rfl
  · -- `gh` is not logged in
    have hlogin : look git plan w .ghAuth = .ok (.failed 1 false "") :=
      congrArg Except.ok (if_neg hauth)
    have hfail : Finds git plan w (required "GitHub authentication status" (run .ghAuth))
        (.error _) := (hlogin ▸ finds_run .ghAuth).after rfl
    rw [if_neg fun h => hauth h.2]
    exact (htry _ (eval_bind_error hfail)).after rfl

/-- The cached report is read as it is. -/
theorem finds_inspectCachedTestEvidence {state : CachedEvidence}
    (h : cachedEvidence plan (w.report .closureTests) w.head = .ok state) :
    Finds git plan w (inspectCachedTestEvidence plan w.head) (.ok state) := by
  have hread : look git plan w (.readReport .closureTests) = .ok (w.report .closureTests) := rfl
  exact (hread ▸ finds_run (.readReport .closureTests)).after (h ▸ Computes.ofExcept)

end Konoha.Release
