/-
Release/Answers.lean

What the code of a release may conclude from the answers to its questions, when each of
them is answered with what there is or fails.  The first section has the rules; the others
have what the guard has seen when it asks for the tag to be pushed, and what the workflow
has seen of a commit and of a closed release.
-/
import KonohaRuntime.Release.Environment

namespace Konoha.Release

open Effects Prog

variable {git : Objects} {plan : Plan} {w : World} {α β : Type}

/-- In `w`, whatever fails, a value that `m` returns satisfies `Q`. -/
def Sees (git : Objects) (plan : Plan) (w : World) (m : Run α) (Q : α → Prop) : Prop :=
  Triple (Rules.alone (Asked git plan)) (· = w) m (fun a w' => Q a ∧ w' = w) fun _ w' => w' = w

namespace Sees

variable {m : Run α} {Q Q' : α → Prop}

theorem ret {a : α} (h : Q a) : Sees git plan w (Prog.ret a) Q :=
  Triple.ret fun _ hw => ⟨h, hw⟩

theorem raise {e : ReleaseExc} : Sees git plan w (Prog.raise e : Run α) Q :=
  Triple.raise fun _ hw => hw

theorem bind {B : β → Prop} {f : α → Run β} (h : Sees git plan w m Q)
    (hf : ∀ a, Q a → Sees git plan w (f a) B) : Sees git plan w (m >>= f) B :=
  Triple.bind h fun a => Triple.of_pure (hf a)

theorem mono (h : Sees git plan w m Q) (hQ : ∀ a, Q a → Q' a) : Sees git plan w m Q' :=
  h.conseq (fun _ hw => hw) (fun a _ ha => ⟨hQ a ha.1, ha.2⟩) fun _ _ he => he

theorem ite {p : Prop} [Decidable p] {m' : Run α} (h : p → Sees git plan w m Q)
    (h' : ¬ p → Sees git plan w m' Q) : Sees git plan w (if p then m else m') Q := by
  split
  · exact h ‹_›
  · exact h' ‹_›

/-- A question. -/
theorem run (c : Cmd) : Sees git plan w (run c)
    fun v => look git plan w c = .ok v ∨ Fails c (.ok v) := by
  refine triple_ask (fun _ _ h hr => hr ▸ h) fun w₁ r w' h _ hs => ?_
  obtain ⟨rfl, hr⟩ := hs
  refine ⟨trivial, trivial, ?_, fun _ _ => h⟩
  rintro v rfl
  exact ⟨h ▸ hr.imp Eq.symm id, h⟩

theorem ofExcept {x : Except ReleaseExc α} : Sees git plan w (Prog.ofExcept x) fun a => x = .ok a :=
  triple_ofExcept.conseq (fun _ h => h) (fun _ _ h => h) fun _ _ h => h.2

/-- A command whose failure is an error. -/
theorem guardStdout {c : Cmd} {answer : Run (Result α)}
    (h : Sees git plan w answer fun r => ∀ out, r = .ok out → Q out) :
    Sees git plan w (guardStdout plan c answer) Q := by
  refine h.bind fun r hr => ?_
  cases r with
  | ok out => exact ret (hr out rfl)
  | failed _ _ _ => exact raise

theorem required {label : String} {answer : Run (Result α)}
    (h : Sees git plan w answer fun r => ∀ out, r = .ok out → Q out) :
    Sees git plan w (required label answer) Q := by
  refine h.bind fun r hr => ofExcept.mono fun a ha => ?_
  cases r with
  | ok out => exact hr a (congrArg Result.ok (Except.ok.inj ha))
  | failed _ _ _ => exact nomatch ha

theorem gitStdout {c : Cmd} {answer : Run (Result α)}
    (h : Sees git plan w answer fun r => ∀ out, r = .ok out → Q out) :
    Sees git plan w (gitStdout plan c answer) Q :=
  required h

/-- A question whose answer does not matter. -/
theorem anyRun (c : Cmd) : Sees git plan w (Release.run c) fun _ => True :=
  (run c).mono fun _ _ => trivial

theorem guardAny {c : Cmd} {answer : Run (Result α)} (h : Sees git plan w answer fun _ => True) :
    Sees git plan w (Release.guardStdout plan c answer) fun _ => True :=
  guardStdout (h.mono fun _ _ _ _ => trivial)

end Sees

/-! ### What the guard has seen -/

/-- A question that has not failed has been answered with what there is. -/
theorem eq_of_seen {x : α} {r : Result α} {y : Result α}
    (h : (.ok y : Except ReleaseExc (Result α)) = .ok r ∨
      ∃ returncode timedOut detail, r = .failed returncode timedOut detail)
    (hr : r = .ok x) : y = .ok x := by
  rcases h with h | ⟨_, _, _, h⟩
  · exact (Except.ok.inj h).trans hr
  · rw [hr] at h
    exact nomatch h

theorem printed_eq_ok_iff {returncode : Int} {o : Option α} {a : α} :
    printed returncode o = .ok a ↔ o = some a := by
  cases o with
  | none => exact ⟨nofun, nofun⟩
  | some b => simp [printed]

theorem sees_head : Sees git plan w (guardStdout plan (.revParse .head) (run (.revParse .head)))
    fun head => head = w.head :=
  Sees.guardStdout ((Sees.run _).mono fun _ hr out hout => by
    have := eq_of_seen hr hout
    exact (Result.ok.inj this).symm)

theorem sees_collectLocalTag : Sees git plan w (collectLocalTag plan)
    fun o => ∀ t, o = some t → ∃ tag, w.tag = some tag ∧ t.target = tag.target := by
  refine (Sees.run .verifyTag).bind fun r _ => ?_
  cases r with
  | failed _ _ _ => exact Sees.ret nofun
  | ok object =>
      have htarget : Sees git plan w (guardStdout plan (.revParse .peeledTag)
          (run (.revParse .peeledTag))) fun t => ∃ tag, w.tag = some tag ∧ t = tag.target := by
        refine Sees.guardStdout ((Sees.run _).mono fun _ hr out hout => ?_)
        have := printed_eq_ok_iff.mp (eq_of_seen hr hout)
        obtain ⟨tag, htag, rfl⟩ := Option.map_eq_some_iff.mp this
        exact ⟨tag, htag, rfl⟩
      refine htarget.bind fun t ht => Sees.ret ?_
      rintro _ ⟨⟩
      exact ht

theorem sees_collectLocalGit : Sees git plan w (collectLocalGit plan) fun g => g.head = w.head ∧
    ∀ t, g.localTag = some t → ∃ tag, w.tag = some tag ∧ t.target = tag.target := by
  refine (Sees.guardAny (Sees.anyRun _)).bind fun _ _ => Sees.ite (fun _ => Sees.raise) fun _ => ?_
  refine sees_head.bind fun head hhead => (Sees.guardAny (Sees.anyRun _)).bind fun branch _ => ?_
  refine (Sees.guardAny (Sees.anyRun _)).bind fun status _ => ?_
  have htracking : Sees git plan w (trackingCounts plan) fun _ => True := by
    refine (Sees.anyRun _).bind fun r _ => ?_
    cases r with
    | failed _ _ _ => exact Sees.ret trivial
    | ok _ => exact (Sees.guardAny (Sees.anyRun _)).bind fun _ _ => Sees.ret trivial
  exact htracking.bind fun _ _ => sees_collectLocalTag.bind fun t ht => Sees.ret ⟨hhead, ht⟩

/-- A listing of the remote refs is the one that there is. -/
theorem seen_lsRemote {refs : List Ref} {r : Cmd.Value (.lsRemote refs)}
    (h : look git plan w (.lsRemote refs) = .ok r ∨ Fails (.lsRemote refs) (.ok r)) {out : List (Ref × Oid)}
    (hout : r = .ok out) : w.reachable ∧ out = w.remoteRefs.filter fun line => line.1 ∈ refs := by
  by_cases hreach : w.reachable
  · have hlook : look git plan w (.lsRemote refs) =
        .ok (.ok (w.remoteRefs.filter fun line => line.1 ∈ refs)) :=
      congrArg Except.ok (if_pos hreach)
    rw [hlook] at h
    exact ⟨hreach, (Result.ok.inj (eq_of_seen h hout)).symm⟩
  · have hlook : look git plan w (.lsRemote refs) = .ok (.failed 128 false "") :=
      congrArg Except.ok (if_neg hreach)
    rw [hlook] at h
    exact nomatch eq_of_seen h hout

theorem sees_collectRemoteGit : Sees git plan w collectRemoteGit fun g => g.passed →
    g.branchHead = w.remoteBranch ∧ g.tagObject = w.remoteTag.map (·.object) := by
  refine (Sees.run (.lsRemote [.branch, .tag, .peeledTag])).bind fun r hr => ?_
  cases r with
  | failed _ _ _ => exact Sees.ret nofun
  | ok refs =>
      obtain ⟨-, rfl⟩ := seen_lsRemote hr rfl
      obtain ⟨hbranch, htag, -⟩ := lookupRef_remoteRefs w
      refine Sees.ret fun _ => ?_
      rw [filter_allRefs]
      exact ⟨hbranch, htag⟩

theorem sees_testGateOf {prior : Option ReportPath} (head : Oid) :
    Sees git plan w (testGateOf plan prior head) fun _ => True := by
  cases prior with
  | none =>
      refine (Sees.guardAny (Sees.anyRun _)).bind fun _ _ => ?_
      refine (Sees.guardAny (Sees.anyRun _)).bind fun _ _ => (Sees.anyRun _).bind fun r _ => ?_
      refine (Sees.guardAny (Sees.anyRun _)).bind fun _ _ => ?_
      refine (Sees.guardAny (Sees.anyRun _)).bind fun _ _ => ?_
      cases r <;> exact Sees.ret trivial
  | some path =>
      refine (Sees.anyRun _).bind fun file _ => ?_
      cases file with
      | absent => exact Sees.raise
      | corrupt => exact Sees.raise
      | undecodable _ => exact Sees.raise
      | report _ => exact Sees.ofExcept.bind fun _ _ => Sees.ret trivial

theorem sees_collectGithubRelease :
    Sees git plan w (collectGithubRelease plan) fun _ => True := by
  refine (Sees.anyRun _).bind fun found _ => Sees.ite (fun _ => ?_) fun _ => Sees.ret trivial
  refine (Sees.anyRun _).bind fun r _ => ?_
  cases r with
  | failed _ _ _ => exact Sees.ret trivial
  | ok _ =>
      refine (Sees.anyRun _).bind fun r _ => ?_
      cases r <;> exact Sees.ret trivial

theorem decideRelease_ne (github : GithubRelease) :
    decideRelease github ≠ .needsTagPublication := by
  unfold decideRelease
  grind

/-- When the guard asks for the tag to be pushed. -/
theorem decideStatus_eq_needsTagPublication {g : LocalGit} {gate : TestGate} {remote : RemoteGit}
    {github : GithubRelease}
    (h : decideStatus g gate (some (remote, github)) = .needsTagPublication) :
    ∃ t, g.localTag = some t ∧ t.target = g.head ∧ remote.passed ∧
      remote.branchHead = some g.head ∧ remote.tagObject = none := by
  unfold decideStatus at h
  grind [Option.isNone_iff_eq_none, decideRelease_ne]

/-- **What a report tells**: the commit at `HEAD`; and where it asks for the tag to be
pushed, there is one, at `HEAD`, and the remote has the branch there and no tag. -/
theorem reports_spec {prior : Option ReportPath} {report : ClosureReport}
    (h : Reports git plan prior w report) : report.git = .object w.head ∧
      (report.statusCode = .needsTagPublication → ∃ tag, w.tag = some tag ∧
        tag.target = w.head ∧ w.remoteBranch = some w.head ∧ w.remoteTag = none) := by
  have hsees : Sees git plan w (buildClosureReport plan prior) fun report =>
      report.git = .object w.head ∧ (report.statusCode = .needsTagPublication → ∃ tag, w.tag = some tag ∧
        tag.target = w.head ∧ w.remoteBranch = some w.head ∧ w.remoteTag = none) := by
    refine sees_collectLocalGit.bind fun g hg => (sees_testGateOf _).bind fun gate _ => ?_
    refine sees_collectRemoteGit.bind fun remote hremote => ?_
    refine sees_collectGithubRelease.bind fun github _ => Sees.ret ⟨congrArg _ hg.1, fun h => ?_⟩
    obtain ⟨t, ht, htarget, hpassed, hbranch, htag⟩ := decideStatus_eq_needsTagPublication h
    obtain ⟨tag, hw, heq⟩ := hg.2 t ht
    obtain ⟨hb, ho⟩ := hremote hpassed
    refine ⟨tag, hw, heq.symm.trans (htarget.trans hg.1), ?_, ?_⟩
    · rw [← hb, hbranch, hg.1]
    · rw [htag] at ho
      exact Option.map_eq_none_iff.mp ho.symm
  obtain ⟨w', hexec⟩ := h
  exact (hexec.sound (hsees w rfl)).1

/-! ### What the workflow has seen of a commit -/

/-- A command whose output is told by the world. -/
theorem sees_gitStdout {c : Cmd} {answer : Run (Result α)} {r : Result α} {Q : α → Prop}
    (h : Sees git plan w answer fun v =>
      (.ok r : Except ReleaseExc (Result α)) = .ok v ∨
        ∃ returncode timedOut detail, v = .failed returncode timedOut detail)
    (hQ : ∀ out, r = .ok out → Q out) : Sees git plan w (gitStdout plan c answer) Q :=
  Sees.gitStdout (h.mono fun _ hv out hout => hQ out (eq_of_seen hv hout))

theorem sees_revParseHead :
    Sees git plan w (gitStdout plan (.revParse .head) (run (.revParse .head)))
      fun head => head = w.head :=
  sees_gitStdout (Sees.run _) fun _ h => (Result.ok.inj h).symm

theorem sees_subject : Sees git plan w (gitStdout plan .subject (run .subject))
    fun subject => subject = (git.commit w.head).subject :=
  sees_gitStdout (Sees.run _) fun _ h => (Result.ok.inj h).symm

theorem sees_status : Sees git plan w (gitStdout plan .status (run .status))
    fun status => status = w.changes :=
  sees_gitStdout (Sees.run _) fun _ h => (Result.ok.inj h).symm

theorem sees_commitPaths (c : Oid) : Sees git plan w (collectCommitPaths plan c)
    fun paths => paths = (git.commit c).paths.mergeSort fun a b => decide (a ≤ b) := by
  have hpaths : Sees git plan w (gitStdout plan (.diffTree c) (run (.diffTree c)))
      fun paths => paths = (git.commit c).paths :=
    sees_gitStdout (Sees.run _) fun _ h => (Result.ok.inj h).symm
  refine hpaths.bind fun paths h => Sees.ret ?_
  rw [h]

/-- `create_commit` returns only a commit that is the planned one. -/
theorem sees_checkCommit :
    Sees git plan w (checkCommit plan) fun head => head = w.head ∧ git.Aligned plan head := by
  have hparent : Sees git plan w (gitStdout plan (.revParse .headParent)
      (run (.revParse .headParent))) fun parent => (git.commit w.head).parent = some parent :=
    sees_gitStdout (Sees.run _) fun _ h => printed_eq_ok_iff.mp h
  refine sees_revParseHead.bind ?_
  rintro _ rfl
  refine hparent.bind fun parent hparent => sees_subject.bind fun subject hsubject => ?_
  refine (sees_commitPaths _).bind fun paths hpaths => ?_
  refine Sees.ite (fun _ => Sees.raise) fun hp => Sees.ite (fun _ => Sees.raise) fun hs => ?_
  refine Sees.ite (fun _ => Sees.raise) fun hl => sees_status.bind fun status _ => ?_
  refine Sees.ite (fun _ => Sees.raise) fun _ => Sees.ret ⟨rfl, ?_, ?_, ?_⟩
  · rw [hparent, not_not.mp hp]
  · exact hsubject.symm.trans (not_not.mp hs)
  · exact hpaths.symm.trans (not_not.mp hl)

/-- `preflight` resumes only a commit that is the planned one. -/
theorem sees_preflightCommitted (tracked : Oid) (counts : Nat × Nat) :
    Sees git plan w (preflightCommitted plan w.head tracked counts)
      fun mode => mode = .resumeCommitted w.head ∧ git.Aligned plan w.head := by
  have hparent : Sees git plan w (gitStdout plan (.revParse (.parent w.head))
      (run (.revParse (.parent w.head)))) fun parent => (git.commit w.head).parent = some parent :=
    sees_gitStdout (Sees.run _) fun _ h => printed_eq_ok_iff.mp h
  refine hparent.bind fun parent hparent => sees_subject.bind fun subject hsubject => ?_
  refine (sees_commitPaths _).bind fun paths hpaths => sees_status.bind fun status _ => ?_
  refine Sees.ite (fun h => Sees.ret ⟨rfl, ?_⟩) fun _ => Sees.raise
  have haligned := of_decide_eq_true h.1
  exact ⟨by rw [hparent, haligned.1], hsubject.symm.trans haligned.2.1,
    hpaths.symm.trans haligned.2.2⟩

/-! ### What the workflow has seen of a closed release -/

/-- The checks of `verify_final` hold of commit `c`. -/
structure Verified (git : Objects) (plan : Plan) (w : World) (c : Oid) : Prop where
  head : w.head = c
  remoteHead : w.remoteBranch = some c
  localTag : ∃ tag, w.tag = some tag ∧ tag.target = c ∧
    w.remoteTag.map (·.object) = some tag.object
  remoteTag : w.remoteTag.bind Tag.peeled = some c
  release : ∃ r, w.shown plan = some r ∧ r.tagName = plan.targetVersion ∧
    r.name = plan.releaseTitle ∧ ¬ r.isDraft ∧ ¬ r.isPrerelease
  listed : (w.listedOwn plan).length = 1 ∧ (w.listedOwn plan).head?.any (·.isLatest)
  clean : w.changes = []
  synced : (w.tracking.map fun t => git.counts t w.head) = some (0, 0)

theorem Sees.runLogged {label : String} {answer : Run (Result α)} {Q : α → Prop}
    (h : Sees git plan w answer fun r => ∀ out, r = .ok out → Q out) :
    Sees git plan w (runLogged label answer) Q := by
  refine h.bind fun r hr => ?_
  cases r with
  | ok out => exact Sees.ret (hr out rfl)
  | failed _ _ _ => exact Sees.raise

theorem sees_counts : Sees git plan w (gitStdout plan .leftRight (run .leftRight))
    fun counts => (w.tracking.map fun t => git.counts t w.head) = some counts :=
  sees_gitStdout (Sees.run _) fun _ h => printed_eq_ok_iff.mp h

theorem sees_lsRemote (label : String) (refs : List Ref) :
    Sees git plan w (required label (run (.lsRemote refs)))
      fun lines => lines = w.remoteRefs.filter fun line => line.1 ∈ refs :=
  Sees.required ((Sees.run _).mono fun _ hr _ hout => (seen_lsRemote hr hout).2)

theorem sees_view : Sees git plan w (runLogged "release-view" (run .ghView))
    fun r => w.shown plan = some r := by
  refine Sees.runLogged ((Sees.run _).mono fun r hr out hout => ?_)
  by_cases hauth : w.authenticated
  · have hlook : look git plan w .ghView = .ok (printed 1 (w.shown plan)) :=
      congrArg Except.ok (if_pos hauth)
    rw [hlook] at hr
    exact printed_eq_ok_iff.mp (eq_of_seen hr hout)
  · have hlook : look git plan w .ghView = .ok (.failed 4 false "") :=
      congrArg Except.ok (if_neg hauth)
    rw [hlook] at hr
    exact nomatch eq_of_seen hr hout

theorem sees_list : Sees git plan w (runLogged "release-list" (run .ghList))
    fun l => l = w.listed := by
  refine Sees.runLogged ((Sees.run _).mono fun r hr out hout => ?_)
  by_cases hauth : w.authenticated
  · have hlook : look git plan w .ghList = .ok (.ok w.listed) := congrArg Except.ok (if_pos hauth)
    rw [hlook] at hr
    exact (Result.ok.inj (eq_of_seen hr hout)).symm
  · have hlook : look git plan w .ghList = .ok (.failed 4 false "") :=
      congrArg Except.ok (if_neg hauth)
    rw [hlook] at hr
    exact nomatch eq_of_seen hr hout

/-- What `verify_final` observes is there. -/
structure Observed.Of (o : Observed) (plan : Plan) (w : World) : Prop where
  head : o.head = w.head
  remoteHead : o.remoteHead = w.remoteBranch
  localTag : ∃ tag, w.tag = some tag ∧ o.localTagObject = tag.object ∧
    o.localTagTarget = tag.target
  remoteTagObject : o.remoteTagObject = w.remoteTag.map (·.object)
  remoteTagTarget : o.remoteTagTarget = w.remoteTag.bind Tag.peeled
  release : w.shown plan = some o.release
  listing : o.listing = w.listed
  status : o.status = w.changes

theorem sees_observe : Sees git plan w (observe plan) fun o => o.Of plan w := by
  obtain ⟨hbranch, hrefs⟩ := filter_remoteRefs w
  obtain ⟨-, htag, hpeeled⟩ := lookupRef_remoteRefs w
  have hobject : Sees git plan w (gitStdout plan (.revParse .tag) (run (.revParse .tag)))
      fun o => w.tag.map (·.object) = some o :=
    sees_gitStdout (Sees.run _) fun _ h => printed_eq_ok_iff.mp h
  have htarget : Sees git plan w (gitStdout plan (.revParse .peeledTag)
      (run (.revParse .peeledTag))) fun t => w.tag.map (·.target) = some t :=
    sees_gitStdout (Sees.run _) fun _ h => printed_eq_ok_iff.mp h
  refine sees_revParseHead.bind fun head hhead => (sees_lsRemote _ _).bind ?_
  rintro _ rfl
  refine hobject.bind fun object hobject => htarget.bind fun target htarget => ?_
  refine (sees_lsRemote _ _).bind ?_
  rintro _ rfl
  refine sees_view.bind fun release hrelease => sees_list.bind fun listing hlisting => ?_
  refine sees_status.bind fun status hstatus => Sees.ret ?_
  obtain ⟨tag, hw, rfl⟩ := Option.map_eq_some_iff.mp hobject
  rw [hw] at htarget
  exact
    { head := hhead
      remoteHead := hbranch
      localTag := ⟨tag, hw, rfl, (Option.some.inj htarget).symm⟩
      remoteTagObject := (hrefs .tag (by decide)).trans htag
      remoteTagTarget := (hrefs .peeledTag (by decide)).trans hpeeled
      release := hrelease
      listing := hlisting
      status := hstatus }

/-- When no check has failed. -/
theorem checks_passed {o : Observed} {head : Oid}
    (h : ((o.checks plan head).filter fun check => !check.2).map (·.1) = []) :
    ∀ check ∈ o.checks plan head, check.2 = true := by
  intro check hcheck
  have hnone := List.filter_eq_nil_iff.mp (List.map_eq_nil_iff.mp h) check hcheck
  simpa using hnone

/-- `verify_final` succeeds only where its checks hold. -/
theorem sees_verifyFinal (r : ClosureReport) (head : Oid) :
    Sees git plan w (verifyFinal plan r head) fun _ => Verified git plan w head := by
  refine Sees.ite (fun _ => Sees.raise) fun _ => sees_observe.bind fun o ho => ?_
  refine Sees.ite (fun _ => Sees.raise) fun hfailed => sees_counts.bind fun counts hcounts => ?_
  refine Sees.ite (fun _ => Sees.raise) fun hsynced => Sees.ret ?_
  have hchecks := checks_passed (not_not.mp hfailed)
  simp only [Observed.checks, List.forall_mem_cons, decide_eq_true_eq, Bool.not_eq_true'] at hchecks
  obtain ⟨h₁, h₂, h₃, h₄, h₅, h₆, h₇, h₈, h₉, h₁₀, h₁₁, h₁₂, -⟩ := hchecks
  obtain ⟨tag, htag, hobject, htarget⟩ := ho.localTag
  exact
    { head := ho.head.symm.trans h₁
      remoteHead := ho.remoteHead.symm.trans h₉
      localTag := ⟨tag, htag, htarget.symm.trans h₂,
        ho.remoteTagObject.symm.trans (h₁₁.trans (congrArg some hobject))⟩
      remoteTag := ho.remoteTagTarget.symm.trans h₁₀
      release := ⟨o.release, ho.release, h₇, h₈, by simp [h₅], by simp [h₆]⟩
      listed := by
        rw [ho.listing] at h₃ h₄
        exact ⟨h₃, h₄⟩
      clean := ho.status.symm.trans h₁₂
      synced := hcounts.trans (congrArg some (not_not.mp hsynced)) }

theorem sees_report (path : ReportPath) : Sees git plan w (loadClosureReport path)
    fun r => w.report path = .report r := by
  refine (Sees.run (.readReport path)).bind fun file hfile => Sees.ofExcept.mono fun r hr => ?_
  have hread : w.report path = file := by
    rcases hfile with h | h
    · exact Except.ok.inj h
    · exact h.elim
  rw [hread]
  cases file with
  | report _ => exact congrArg _ (Except.ok.inj hr)
  | _ => cases hr

end Konoha.Release
