/-
Release/Agreement.lean

The closure guard and the status inspection, on one fixed state.  Each decides the next
step of a release from facts of its own: the guard from where the tags point and from the
first hundred releases, the status also from the objects of the tags, the title of the
release and the base commit.

`guard_and_status_agree_iff` says on which states of a release commit that is committed,
tracked and tested the two name the same step.
-/
import KonohaRuntime.Release.Findings

namespace Konoha.Release

open Effects Prog

variable {git : Objects} {plan : Plan} {w : World} {path : ReportPath}

/-- The guard asks for something to be repaired first. -/
def GuardStatus.blocked : GuardStatus → Bool
  | needsTagCreation | needsNetworkVerification | needsTagPublication
  | needsReleasePublication | needsLatestPromotion | releaseClosed => false
  | _ => true

/-- The steps of a release that is committed and tested. -/
def nextSteps : List String :=
  ["NEEDS_TAG_CREATION", "NEEDS_TAG_PUBLICATION", "NEEDS_RELEASE_PUBLICATION",
    "NEEDS_LATEST_PROMOTION", "RELEASE_CLOSED"]

/-- The guard and the status name the same next step, or both are blocked. -/
def Agree (g : GuardStatus) (s : RecoveryCode) : Prop :=
  (g.text = s.text ∧ g.text ∈ nextSteps) ∨ (g.blocked ∧ s.blocked)

instance (g : GuardStatus) (s : RecoveryCode) : Decidable (Agree g s) :=
  inferInstanceAs (Decidable (_ ∨ _))

/-- A clean tree on the branch, the release commit at `HEAD` and in the tracking ref, and
a report at `path` in which its tests have passed. -/
structure Settled (git : Objects) (plan : Plan) (path : ReportPath) (w : World) : Prop where
  clean : w.changes = []
  branch : w.branch = plan.expectedBranch
  aligned : git.Aligned plan w.head
  synced : (w.tracking.map fun t => git.counts t w.head) = some (0, 0)
  evidence : ∃ r, w.report path = .report r ∧ r.testGate.passed ∧ r.testGate.headUnchanged ∧
    r.git = .object w.head ∧ r.testGate.headAfter = w.head
  /-- The cached report, which the status looks at, can be read. -/
  cached : ∃ state, cachedEvidence plan (w.report .closureTests) w.head = .ok state

/-! ### The two decisions -/

/-- What the guard makes of the first listed release. -/
def listedDecision : Option Published → GuardStatus
  | none => .needsReleasePublication
  | some r =>
      if r.isDraft then .blockedReleaseDraft
      else if r.isPrerelease then .blockedReleasePrerelease
      else if ¬ r.isLatest then .needsLatestPromotion
      else .releaseClosed

/-- What the status makes of the release that is shown. -/
def shownDecision (plan : Plan) (w : World) : RecoveryCode :=
  match w.shown plan with
  | none => .needsReleasePublication
  | some r =>
      if r.name ≠ plan.releaseTitle ∨ r.isDraft ∨ r.isPrerelease then .blockedReleaseDivergence
      else if ¬ ((w.listedOwn plan).length = 1 ∧ (w.listedOwn plan).head?.any (·.isLatest)) then
        .needsLatestPromotion
      else .releaseClosed

/-- What the guard goes by once the local facts are settled. -/
def guardDecision (plan : Plan) (w : World) : GuardStatus :=
  match w.tag with
  | none => .needsTagCreation
  | some tag =>
      if tag.target ≠ w.head then .blockedLocalTagTargetMismatch
      else if ¬ w.reachable then .blockedRemoteBranchMismatch
      else if w.remoteBranch ≠ some w.head then .blockedRemoteBranchMismatch
      else match w.remoteTag with
        | none => .needsTagPublication
        | some (.lightweight _) => .blockedRemoteTagTargetMismatch
        | some (.annotated _ c) =>
            if c ≠ w.head then .blockedRemoteTagTargetMismatch
            else if ¬ w.authenticated then .blockedGhAuth
            else listedDecision (w.listedOwn plan).head?

/-- What the status goes by once the local facts are settled. -/
def statusDecision (plan : Plan) (w : World) : RecoveryCode :=
  if ¬ (w.reachable ∧ w.authenticated) then .blockedRemoteInspection
  else if w.remoteBranch = some plan.expectedBaseCommit then .needsBranchPush
  else if w.remoteBranch ≠ some w.head then .blockedRemoteBranchDivergence
  else match w.tag with
    | none => .needsTagCreation
    | some (.lightweight _) => .blockedLocalTagDivergence
    | some (.annotated o c) =>
        if c ≠ w.head then .blockedLocalTagDivergence
        else match w.remoteTag with
          | none => .needsTagPublication
          | some tag =>
              if tag ≠ .annotated o w.head then .blockedRemoteTagDivergence
              else shownDecision plan w

/-- Reusing the report of settled tests passes the gate. -/
theorem finds_testGateOf (h : Settled git plan path w) :
    ∃ gate, gate.passed = true ∧
      Finds git plan w (testGateOf plan (some path) w.head) (.ok gate) := by
  obtain ⟨r, hr, hpassed, hunchanged, hhead, hafter⟩ := h.evidence
  have hread : look git plan w (.readReport path) = .ok (.report r) := congrArg Except.ok hr
  have hfound : Finds git plan w (Prog.ofExcept r.git.getHead) (.ok w.head) := by
    rw [hhead]
    rfl
  refine ⟨{ r.testGate with reused := true, passed := _ }, ?_,
    (hread ▸ finds_run (.readReport path)).after (hfound.after rfl)⟩
  exact decide_eq_true ⟨hpassed, hunchanged, rfl, hafter⟩

/-- The guard looks for the first listed release of the version. -/
theorem find_listed : (w.listed.find? fun r => r.tagName = plan.targetVersion) =
    (w.listedOwn plan).head? :=
  (List.head?_filter).symm

/-- `decide_status` on what is found of a settled state. -/
theorem decideStatus_found {gate : TestGate} (h : Settled git plan path w)
    (hpassed : gate.passed = true) :
    decideStatus (localGitFound git plan w) gate
      (some (remoteFound w, githubFound plan w)) = guardDecision plan w := by
  have hclean : (localGitFound git plan w).workingTreeClean := decide_eq_true h.clean
  have hbranch : (localGitFound git plan w).branchMatches := decide_eq_true h.branch
  have hsynced : (localGitFound git plan w).trackingSynced := decide_eq_true h.synced
  rw [decideStatus, if_neg (not_not_intro hclean), if_neg (not_not_intro hbranch),
    if_neg (not_not_intro hpassed), if_neg (not_not_intro hsynced), guardDecision, localGitFound]
  rcases w.tag with - | tag
  · rfl
  · simp only [Option.map_some]
    by_cases htarget : tag.target = w.head
    · by_cases hreach : w.reachable
      · by_cases hremote : w.remoteBranch = some w.head
        · rcases e : w.remoteTag with - | (c | ⟨o, c⟩)
          · simp [remoteFound, *]
          · simp [remoteFound, Tag.object, Tag.peeled, *]
          · by_cases hauth : w.authenticated
            · rcases e' : (w.listedOwn plan).head? with - | r <;>
                simp [remoteFound, githubFound, Tag.object, Tag.peeled, decideRelease, find_listed,
                  listedDecision, *]
            · simp [remoteFound, githubFound, Tag.object, Tag.peeled, decideRelease, *]
        · simp [remoteFound, *]
      · simp [remoteFound, *]
    · simp [*]

/-- The guard finds `guardDecision`. -/
theorem finds_buildClosureReport (h : Settled git plan path w) :
    ∃ report, report.statusCode = guardDecision plan w ∧
      Finds git plan w (buildClosureReport plan (some path)) (.ok report) := by
  obtain ⟨gate, hpassed, hgate⟩ := finds_testGateOf h
  exact ⟨_, decideStatus_found h hpassed, finds_collectLocalGit.after (hgate.after
    (finds_collectRemoteGit.after (finds_collectGithubRelease.after rfl)))⟩

theorem mem_ownReleases_of_shown {r : Published} (h : w.shown plan = some r) :
    r ∈ w.ownReleases plan := by
  rcases Option.or_eq_some_iff.mp h with hfind | ⟨-, hhead⟩
  · exact List.mem_of_find?_eq_some hfind
  · exact List.mem_of_mem_head? hhead

theorem tagName_of_shown {r : Published} (h : w.shown plan = some r) :
    r.tagName = plan.targetVersion :=
  of_decide_eq_true (List.mem_filter.mp (mem_ownReleases_of_shown h)).2

/-- `derive_recovery_state` on what is found of a settled state. -/
theorem deriveRecoveryState_found {scope : Bool} (h : Settled git plan path w)
    (hreach : w.reachable) (hauth : w.authenticated) :
    deriveRecoveryState plan ⟨w.branch, w.head, true, scope, true, some (0, 0), true,
      localTagFound w, remoteStatusFound plan w⟩ = statusDecision plan w := by
  have hbase := h.aligned.ne_base
  have hlocal := h.branch
  by_cases hpushed : w.remoteBranch = some plan.expectedBaseCommit
  · simp [deriveRecoveryState, statusDecision, remoteStatusFound, *]
  · by_cases hremote : w.remoteBranch = some w.head
    · rcases e : w.tag with - | (c | ⟨o, c⟩)
      · simp [deriveRecoveryState, statusDecision, remoteStatusFound, localTagFound, *]
      · simp [deriveRecoveryState, statusDecision, remoteStatusFound, localTagFound, Tag.type, *]
      · by_cases hc : c = w.head
        · rcases e' : w.remoteTag with - | (c' | ⟨o', c'⟩)
          · simp [deriveRecoveryState, statusDecision, remoteStatusFound, localTagFound,
              remoteFound, Tag.type, Tag.target, *]
          · simp [deriveRecoveryState, statusDecision, remoteStatusFound, localTagFound,
              remoteFound, Tag.type, Tag.target, Tag.object, Tag.peeled, *]
          · by_cases hsame : c' = w.head ∧ o' = o
            · rcases e'' : w.shown plan with - | r
              · simp [deriveRecoveryState, statusDecision, shownDecision, remoteStatusFound,
                  localTagFound, remoteFound, releaseFound, Tag.type, Tag.target, Tag.object, Tag.peeled, *]
              · have hname := tagName_of_shown e''
                simp [deriveRecoveryState, statusDecision, shownDecision, remoteStatusFound,
                  localTagFound, remoteFound, releaseFound, Tag.type, Tag.target, Tag.object, Tag.peeled, *]
            · have hdiffers : ¬ c' = w.head ∨ ¬ o' = o := not_and_or.mp hsame
              simp [deriveRecoveryState, statusDecision, remoteStatusFound, localTagFound,
                remoteFound, Tag.type, Tag.target, Tag.object, Tag.peeled, *]
              exact fun ho hc' => absurd ⟨hc', ho⟩ hsame
        · simp [deriveRecoveryState, statusDecision, remoteStatusFound, localTagFound, Tag.type,
            Tag.target, *]
    · simp [deriveRecoveryState, statusDecision, remoteStatusFound, *]

/-- The inspection finds `statusDecision`. -/
theorem finds_inspectReleaseStatus (h : Settled git plan path w) :
    Finds git plan w (inspectReleaseStatus plan true) (.ok (statusDecision plan w)) := by
  obtain ⟨state, hcached⟩ := h.cached
  have hbranch : Finds git plan w (run .currentBranch) (.ok (.ok w.branch)) := rfl
  have hhead : Finds git plan w (run (.revParse .head)) (.ok (.ok w.head)) := rfl
  have hstatus : Finds git plan w (run .status) (.ok (.ok w.changes)) := rfl
  refine (finds_gitStdout hbranch).after ((finds_gitStdout hhead).after ?_)
  refine (finds_gitStdout hstatus).after (finds_inspectTracking.after (finds_collectScope.after ?_))
  refine finds_inspectCommit.after (finds_inspectLocalTag.after ?_)
  rw [if_pos rfl]
  refine finds_tryInspectRemote.after ((finds_inspectCachedTestEvidence hcached).after ?_)
  by_cases hasked : w.reachable ∧ w.authenticated
  · rw [if_pos hasked, h.synced, decide_eq_true h.clean, decide_eq_true h.aligned]
    exact congrArg (fun code => (Except.ok code, w)) (deriveRecoveryState_found h hasked.1 hasked.2)
  · rw [if_neg hasked, statusDecision, if_pos hasked]
    rfl

/-! ### Where they agree -/

/-- A release that `derive_recovery_state` calls divergent. -/
def Diverges (plan : Plan) (r : Published) : Prop :=
  r.name ≠ plan.releaseTitle ∨ r.isDraft ∨ r.isPrerelease

/-- The releases of the target version say the same to both: there is none; or the one that
is shown and the first that is listed are both to be repaired; or neither is, and the one
that is Latest is the only one listed. -/
def ReleasesAgree (plan : Plan) (w : World) : Prop :=
  w.ownReleases plan = [] ∨ ∃ v, w.shown plan = some v ∧ ∃ r, (w.listedOwn plan).head? = some r ∧
    ((Diverges plan v ∧ (r.isDraft ∨ r.isPrerelease)) ∨
      (¬ Diverges plan v ∧ ¬ (r.isDraft ∨ r.isPrerelease) ∧
        (r.isLatest → (w.listedOwn plan).length = 1)))

/-- The states on which the guard and the status agree. -/
def Agreeable (plan : Plan) (w : World) : Prop :=
  match w.tag with
  | none => w.reachable ∧ w.authenticated ∧ w.remoteBranch = some w.head
  | some tag =>
      if ¬ (w.reachable ∧ w.authenticated) then
        ¬ (tag.target = w.head ∧ w.reachable ∧ w.remoteBranch = some w.head ∧ w.remoteTag = none)
      else if ¬ (tag.target = w.head ∧ w.remoteBranch = some w.head) then
        w.remoteBranch ≠ some plan.expectedBaseCommit
      else match w.remoteTag with
        | none => tag = .annotated tag.object w.head
        | some (.lightweight _) => True
        | some (.annotated o c) => c = w.head →
            if tag = .annotated o w.head then ReleasesAgree plan w
            else ∃ r, (w.listedOwn plan).head? = some r ∧ (r.isDraft ∨ r.isPrerelease)

theorem shown_eq_none_iff : w.shown plan = none ↔ w.ownReleases plan = [] := by
  rw [World.shown, Option.or_eq_none_iff, List.head?_eq_none_iff]
  exact ⟨And.right, fun h => ⟨by rw [h]; rfl, h⟩⟩

theorem listedOwn_eq_nil (h : w.ownReleases plan = []) : w.listedOwn plan = [] := by
  refine List.filter_eq_nil_iff.mpr fun r hr => ?_
  exact List.filter_eq_nil_iff.mp h r (List.mem_of_mem_take hr)

/-- No tag. -/
theorem agree_untagged_iff (hbase : w.head ≠ plan.expectedBaseCommit) (e : w.tag = none) :
    Agree (guardDecision plan w) (statusDecision plan w) ↔ Agreeable plan w := by
  have hguard : guardDecision plan w = .needsTagCreation := by rw [guardDecision, e]
  by_cases hasked : w.reachable ∧ w.authenticated
  · by_cases hpushed : w.remoteBranch = some plan.expectedBaseCommit
    · have hstatus : statusDecision plan w = .needsBranchPush := by simp [statusDecision, *]
      have hnot : ¬ Agreeable plan w := by simp [Agreeable, hbase.symm, *]
      rw [hguard, hstatus]
      exact iff_of_false (by decide) hnot
    · by_cases hremote : w.remoteBranch = some w.head
      · have hstatus : statusDecision plan w = .needsTagCreation := by simp [statusDecision, *]
        have hagree : Agreeable plan w := by simp [Agreeable, *]
        rw [hguard, hstatus]
        exact iff_of_true (by decide) hagree
      · have hstatus : statusDecision plan w = .blockedRemoteBranchDivergence := by
          simp [statusDecision, *]
        have hnot : ¬ Agreeable plan w := by simp [Agreeable, *]
        rw [hguard, hstatus]
        exact iff_of_false (by decide) hnot
  · have hstatus : statusDecision plan w = .blockedRemoteInspection := by
      rw [statusDecision, if_pos hasked]
    have hnot : ¬ Agreeable plan w := by
      rw [Agreeable, e]
      exact fun h => hasked ⟨h.1, h.2.1⟩
    rw [hguard, hstatus]
    exact iff_of_false (by decide) hnot

/-- The guard is blocked unless the tag and the remote branch are at `HEAD`. -/
theorem guardDecision_blocked {tag : Tag} (e : w.tag = some tag)
    (h : ¬ (tag.target = w.head ∧ w.reachable ∧ w.remoteBranch = some w.head)) :
    (guardDecision plan w).blocked := by
  by_cases htarget : tag.target = w.head
  · by_cases hreach : w.reachable
    · have hremote : w.remoteBranch ≠ some w.head := fun hr => h ⟨htarget, hreach, hr⟩
      simp [guardDecision, GuardStatus.blocked, *]
    · simp [guardDecision, GuardStatus.blocked, *]
  · simp [guardDecision, GuardStatus.blocked, *]

theorem agree_iff_of_blocked {g : GuardStatus} {s : RecoveryCode} (h : g.blocked) :
    Agree g s ↔ s.blocked := by
  cases g <;> first | exact absurd h (by decide) | cases s <;> decide

theorem agree_iff_of_status_blocked {g : GuardStatus} {s : RecoveryCode} (h : s.blocked) :
    Agree g s ↔ g.blocked := by
  cases s <;> first | exact absurd h (by decide) | cases g <;> decide

/-- A tag, and a remote or GitHub that cannot be asked. -/
theorem agree_unasked_iff {tag : Tag} (e : w.tag = some tag)
    (hasked : ¬ (w.reachable ∧ w.authenticated)) :
    Agree (guardDecision plan w) (statusDecision plan w) ↔ Agreeable plan w := by
  have hstatus : (statusDecision plan w).blocked := by
    rw [statusDecision, if_pos hasked]
    rfl
  rw [agree_iff_of_status_blocked hstatus]
  by_cases haligned : tag.target = w.head ∧ w.reachable ∧ w.remoteBranch = some w.head
  · have hauth : ¬ w.authenticated := fun h => hasked ⟨haligned.2.1, h⟩
    rcases e' : w.remoteTag with - | (c | ⟨o, c⟩)
    · simp [guardDecision, Agreeable, GuardStatus.blocked, *]
    · simp [guardDecision, Agreeable, GuardStatus.blocked, *]
    · by_cases hc : c = w.head <;> simp [guardDecision, Agreeable, GuardStatus.blocked, *]
  · have hagree : Agreeable plan w := by
      simp only [Agreeable, e, if_pos hasked]
      exact fun h => haligned ⟨h.1, h.2.1, h.2.2.1⟩
    exact iff_of_true (guardDecision_blocked e haligned) hagree

/-- A tag elsewhere, or a branch that is not pushed. -/
theorem agree_unaligned_iff {tag : Tag} (e : w.tag = some tag)
    (hasked : w.reachable ∧ w.authenticated)
    (haligned : ¬ (tag.target = w.head ∧ w.remoteBranch = some w.head)) :
    Agree (guardDecision plan w) (statusDecision plan w) ↔ Agreeable plan w := by
  have hguard : (guardDecision plan w).blocked :=
    guardDecision_blocked e fun h => haligned ⟨h.1, h.2.2⟩
  have hagreeable : Agreeable plan w ↔ w.remoteBranch ≠ some plan.expectedBaseCommit := by
    simp only [Agreeable, e, if_neg (not_not_intro hasked), if_pos haligned]
  rw [agree_iff_of_blocked hguard, hagreeable]
  by_cases hpushed : w.remoteBranch = some plan.expectedBaseCommit
  · simp [statusDecision, RecoveryCode.blocked, *]
  · by_cases hremote : w.remoteBranch = some w.head
    · have htarget : tag.target ≠ w.head := fun h => haligned ⟨h, hremote⟩
      have hbase : w.head ≠ plan.expectedBaseCommit := fun h => hpushed (h ▸ hremote)
      rcases tag with c | ⟨o, c⟩
      · simp [statusDecision, RecoveryCode.blocked, *]
      · have hc : c ≠ w.head := htarget
        simp [statusDecision, RecoveryCode.blocked, *]
    · simp [statusDecision, RecoveryCode.blocked, *]

theorem listedDecision_blocked_iff {o : Option Published} :
    (listedDecision o).blocked ↔ ∃ r, o = some r ∧ (r.isDraft ∨ r.isPrerelease) := by
  rcases o with - | r
  · simp [listedDecision, GuardStatus.blocked]
  · rcases hd : r.isDraft with - | - <;> rcases hp : r.isPrerelease with - | - <;>
      rcases hl : r.isLatest with - | - <;> simp [listedDecision, GuardStatus.blocked, *]

theorem listedDecision_of_ready {r : Published} (h : ¬ (r.isDraft ∨ r.isPrerelease)) :
    listedDecision (some r) = if ¬ r.isLatest then .needsLatestPromotion else .releaseClosed := by
  rw [listedDecision, if_neg fun hd => h (.inl hd), if_neg fun hp => h (.inr hp)]

/-- What both make of the releases. -/
theorem agree_releases_iff :
    Agree (listedDecision (w.listedOwn plan).head?) (shownDecision plan w) ↔
      ReleasesAgree plan w := by
  rcases e : w.shown plan with - | v
  · have hnone := shown_eq_none_iff.mp e
    have hstatus : shownDecision plan w = .needsReleasePublication := by rw [shownDecision, e]
    rw [hstatus, listedOwn_eq_nil hnone]
    exact iff_of_true (by decide) (.inl hnone)
  · have hsome : w.ownReleases plan ≠ [] := fun h => by
      rw [shown_eq_none_iff.mpr h] at e
      exact nomatch e
    have hagree : ReleasesAgree plan w ↔ ∃ r, (w.listedOwn plan).head? = some r ∧
        ((Diverges plan v ∧ (r.isDraft ∨ r.isPrerelease)) ∨
          (¬ Diverges plan v ∧ ¬ (r.isDraft ∨ r.isPrerelease) ∧
            (r.isLatest → (w.listedOwn plan).length = 1))) := by
      simp [ReleasesAgree, e, hsome]
    rw [hagree]
    by_cases hv : Diverges plan v
    · have hstatus : shownDecision plan w = .blockedReleaseDivergence := by
        simp only [shownDecision, e]
        exact if_pos hv
      rw [hstatus, agree_iff_of_status_blocked rfl, listedDecision_blocked_iff]
      simp [hv]
    · have hstatus : shownDecision plan w = if ¬ ((w.listedOwn plan).length = 1 ∧
          (w.listedOwn plan).head?.any (·.isLatest)) then .needsLatestPromotion
          else .releaseClosed := by
        simp only [shownDecision, e]
        exact if_neg hv
      rw [hstatus]
      rcases e' : (w.listedOwn plan).head? with - | r
      · simp only [Option.any_none, Bool.false_eq_true, and_false, not_false_eq_true, if_true]
        exact iff_of_false (by decide) (by simp)
      · simp only [Option.some.injEq, exists_eq_left', hv, false_and, false_or, not_false_eq_true,
          true_and, Option.any_some]
        by_cases hr : r.isDraft ∨ r.isPrerelease
        · rw [agree_iff_of_blocked (listedDecision_blocked_iff.mpr ⟨r, rfl, hr⟩)]
          refine iff_of_false ?_ fun h => h.1 hr
          split <;> decide
        · rw [listedDecision_of_ready hr]
          by_cases hlatest : r.isLatest
          · by_cases hlength : (w.listedOwn plan).length = 1
            · rw [if_neg (not_not_intro hlatest), if_neg (not_not_intro ⟨hlength, hlatest⟩)]
              exact iff_of_true (by decide) ⟨hr, fun _ => hlength⟩
            · rw [if_neg (not_not_intro hlatest), if_pos fun h => hlength h.1]
              exact iff_of_false (by decide) fun h => hlength (h.2 hlatest)
          · rw [if_pos hlatest, if_pos fun h => hlatest h.2]
            exact iff_of_true (by decide) ⟨hr, fun h => absurd h hlatest⟩

/-- A lightweight tag at `HEAD`. -/
theorem agree_lightweight_iff {c : Oid} (hbase : w.head ≠ plan.expectedBaseCommit)
    (e : w.tag = some (.lightweight c)) (hasked : w.reachable ∧ w.authenticated)
    (htarget : c = w.head) (hremote : w.remoteBranch = some w.head) :
    Agree (guardDecision plan w) (statusDecision plan w) ↔ Agreeable plan w := by
  have hstatus : (statusDecision plan w).blocked := by
    simp [statusDecision, RecoveryCode.blocked, *]
  rw [agree_iff_of_status_blocked hstatus]
  rcases e' : w.remoteTag with - | (c' | ⟨o', c'⟩)
  · simp [guardDecision, GuardStatus.blocked, Agreeable, Tag.target, *]
  · simp [guardDecision, GuardStatus.blocked, Agreeable, Tag.target, *]
  · by_cases hc : c' = w.head
    · simp [guardDecision, Agreeable, Tag.target, listedDecision_blocked_iff, *]
    · simp [guardDecision, GuardStatus.blocked, Agreeable, Tag.target, *]

/-- An annotated tag at `HEAD`. -/
theorem agree_annotated_iff {o : Oid} (hbase : w.head ≠ plan.expectedBaseCommit)
    (e : w.tag = some (.annotated o w.head)) (hasked : w.reachable ∧ w.authenticated)
    (hremote : w.remoteBranch = some w.head) :
    Agree (guardDecision plan w) (statusDecision plan w) ↔ Agreeable plan w := by
  rcases e' : w.remoteTag with - | (c' | ⟨o', c'⟩)
  · have hguard : guardDecision plan w = .needsTagPublication := by
      simp [guardDecision, Tag.target, *]
    have hstatus : statusDecision plan w = .needsTagPublication := by simp [statusDecision, *]
    have hagree : Agreeable plan w := by simp [Agreeable, Tag.target, Tag.object, *]
    rw [hguard, hstatus]
    exact iff_of_true (by decide) hagree
  · have hguard : (guardDecision plan w).blocked := by
      simp [guardDecision, GuardStatus.blocked, Tag.target, *]
    rw [agree_iff_of_blocked hguard]
    simp [statusDecision, RecoveryCode.blocked, Agreeable, Tag.target, *]
  · by_cases hc : c' = w.head
    · by_cases ho : o' = o
      · have hguard : guardDecision plan w = listedDecision (w.listedOwn plan).head? := by
          simp [guardDecision, Tag.target, *]
        have hstatus : statusDecision plan w = shownDecision plan w := by
          simp [statusDecision, *]
        have hagreeable : Agreeable plan w ↔ ReleasesAgree plan w := by
          simp [Agreeable, Tag.target, *]
        rw [hguard, hstatus, hagreeable]
        exact agree_releases_iff
      · have hstatus : (statusDecision plan w).blocked := by
          simp [statusDecision, RecoveryCode.blocked, *]
        have ho' : ¬ o = o' := fun h => ho h.symm
        rw [agree_iff_of_status_blocked hstatus]
        simp [guardDecision, Agreeable, Tag.target, listedDecision_blocked_iff, *]
    · have hguard : (guardDecision plan w).blocked := by
        simp [guardDecision, GuardStatus.blocked, Tag.target, *]
      rw [agree_iff_of_blocked hguard]
      simp [statusDecision, RecoveryCode.blocked, Agreeable, Tag.target, *]

theorem agree_decisions_iff (h : git.Aligned plan w.head) :
    Agree (guardDecision plan w) (statusDecision plan w) ↔ Agreeable plan w := by
  rcases e : w.tag with - | tag
  · exact agree_untagged_iff h.ne_base e
  · by_cases hasked : w.reachable ∧ w.authenticated
    · by_cases haligned : tag.target = w.head ∧ w.remoteBranch = some w.head
      · obtain ⟨htarget, hremote⟩ := haligned
        rcases tag with c | ⟨o, c⟩
        · exact agree_lightweight_iff h.ne_base e hasked htarget hremote
        · rw [show c = w.head from htarget] at e
          exact agree_annotated_iff h.ne_base e hasked hremote
      · exact agree_unaligned_iff e hasked haligned
    · exact agree_unasked_iff e hasked

/-- On a settled state the guard and the status inspection name the same next step, or are
both blocked, exactly when the state is `Agreeable`. -/
theorem guard_and_status_agree_iff (h : Settled git plan path w) :
    ∃ report s, Finds git plan w (buildClosureReport plan (some path)) (.ok report) ∧
      Finds git plan w (inspectReleaseStatus plan true) (.ok s) ∧
        (Agree report.statusCode s ↔ Agreeable plan w) := by
  obtain ⟨report, hreport, hfinds⟩ := finds_buildClosureReport h
  refine ⟨report, _, hfinds, finds_inspectReleaseStatus h, ?_⟩
  rw [hreport]
  exact agree_decisions_iff h.aligned

/-! ### Two tags -/

theorem cached_sampleWorld (tag : Tag) : cachedEvidence samplePlan
    ((sampleWorld tag).report .closureTests) (sampleWorld tag).head = .ok .valid := by
  show cachedEvidence samplePlan (.report sampleReport) sampleCommit = .ok .valid
  decide +kernel

theorem settled_sampleWorld (tag : Tag) :
    Settled sampleObjects samplePlan .closureTests (sampleWorld tag) where
  clean := rfl
  branch := rfl
  aligned := aligned_sampleCommit
  synced := rfl
  evidence := ⟨sampleReport, rfl, rfl, rfl, rfl, rfl⟩
  cached := ⟨.valid, cached_sampleWorld tag⟩

/-- With an annotated tag both ask for it to be published. -/
theorem annotatedTag_agree :
    ∃ report s, Finds sampleObjects samplePlan
        (sampleWorld annotatedTag)
        (buildClosureReport samplePlan (some .closureTests)) (.ok report) ∧
      Finds sampleObjects samplePlan
        (sampleWorld annotatedTag)
        (inspectReleaseStatus samplePlan true) (.ok s) ∧ Agree report.statusCode s := by
  obtain ⟨report, s, hguard, hstatus, hiff⟩ := guard_and_status_agree_iff
    (settled_sampleWorld annotatedTag)
  exact ⟨report, s, hguard, hstatus, hiff.mpr rfl⟩

/-- With a lightweight tag the guard asks for it to be pushed, and the status is blocked. -/
theorem lightweightTag_disagrees :
    ¬ ∀ git plan path w, Settled git plan path w →
      ∃ report s, Finds git plan w (buildClosureReport plan (some path)) (.ok report) ∧
        Finds git plan w (inspectReleaseStatus plan true) (.ok s) ∧
          Agree report.statusCode s := by
  intro h
  have hsettled := settled_sampleWorld (.lightweight sampleCommit)
  obtain ⟨report, s, hguard, hstatus, hagree⟩ := h _ _ _ _ hsettled
  obtain ⟨report', hreport, hguard'⟩ := finds_buildClosureReport hsettled
  obtain rfl : report = report' := Except.ok.inj (Prod.mk.inj (hguard.symm.trans hguard')).1
  obtain rfl := Except.ok.inj
    (Prod.mk.inj (hstatus.symm.trans (finds_inspectReleaseStatus hsettled))).1
  rw [hreport] at hagree
  revert hagree
  decide +kernel

end Konoha.Release
