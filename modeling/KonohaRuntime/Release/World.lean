/-
Release/World.lean

The state that a release moves: the local repository, the remote, GitHub and the files of
the workflow; and what a healthy machine answers to questions about it.
-/
import KonohaRuntime.Release.Status

namespace Konoha.Release

open Effects Prog

/-- The objects of a repository.  They are named by their content and never change. -/
structure Objects where
  commit : Oid → Commit
  /-- `git rev-list --left-right --count a...b` -/
  counts : Oid → Oid → Nat × Nat
  /-- No commit is its own parent. -/
  parent_ne (c : Oid) : (commit c).parent ≠ some c

/-- A commit is the one that the plan describes. -/
def Objects.Aligned (git : Objects) (plan : Plan) (c : Oid) : Prop :=
  (git.commit c).parent = some plan.expectedBaseCommit ∧
    (git.commit c).subject = plan.commitMessage ∧
      ((git.commit c).paths.mergeSort fun a b => decide (a ≤ b)) = plan.publicPaths

instance (git : Objects) (plan : Plan) (c : Oid) : Decidable (git.Aligned plan c) :=
  inferInstanceAs (Decidable (_ ∧ _ ∧ _))

theorem Objects.Aligned.ne_base {git : Objects} {plan : Plan} {c : Oid}
    (h : git.Aligned plan c) : c ≠ plan.expectedBaseCommit := by
  rintro rfl
  exact git.parent_ne _ h.1

/-- The local repository, the remote, GitHub and the files below `sandbox/`. -/
structure World where
  branch : String
  head : Oid
  /-- tracked files that differ from the index -/
  modified : List String
  untracked : List String
  /-- files in the index that differ from `HEAD` -/
  staged : List String
  /-- the tracking ref of the release branch -/
  tracking : Option Oid
  tag : Option Tag
  /-- what the tag of the previous version points to -/
  previous : Option Oid
  /-- the remote can be reached -/
  reachable : Bool
  remoteBranch : Option Oid
  remoteTag : Option Tag
  /-- `gh` is logged in -/
  authenticated : Bool
  /-- the releases on GitHub, as `gh release list` lists them -/
  releases : List Published
  /-- the SHA-256 of the release notes, where there is such a file -/
  notes : Option Digest
  betaPlan : Bool
  report : ReportPath → ReportFile

namespace World

variable (w : World) (plan : Plan)

/-- `git status --porcelain` -/
def changes : List String := w.staged ++ w.modified ++ w.untracked

/-- The refs that `git ls-remote` knows; only an annotated tag has a peeled one. -/
def remoteRefs : List (Ref × Oid) :=
  (w.remoteBranch.map fun c => (Ref.branch, c)).toList ++
    match w.remoteTag with
    | none => []
    | some (.lightweight c) => [(.tag, c)]
    | some (.annotated o c) => [(.tag, o), (.peeledTag, c)]

/-- The releases of the target version. -/
def ownReleases : List Published := w.releases.filter fun r => r.tagName = plan.targetVersion

/-- What `gh release view` shows: a published release before a draft. -/
def shown : Option Published :=
  ((w.ownReleases plan).find? fun r => !r.isDraft).or (w.ownReleases plan).head?

/-- What `gh release list --limit 100` lists. -/
def listed : List Published := w.releases.take 100

/-- The listed releases of the target version. -/
def listedOwn : List Published := w.listed.filter fun r => r.tagName = plan.targetVersion

end World

theorem lookupRef_remoteRefs (w : World) :
    lookupRef .branch w.remoteRefs = w.remoteBranch ∧
      lookupRef .tag w.remoteRefs = w.remoteTag.map (·.object) ∧
      lookupRef .peeledTag w.remoteRefs = w.remoteTag.bind Tag.peeled := by
  rcases w with ⟨_, _, _, _, _, _, _, _, _, remoteBranch, remoteTag, _, _, _, _, _⟩
  cases remoteBranch <;> rcases remoteTag with - | (_ | _) <;> exact ⟨rfl, rfl, rfl⟩

theorem filter_allRefs (w : World) :
    (w.remoteRefs.filter fun line => line.1 ∈ [Ref.branch, .tag, .peeledTag]) = w.remoteRefs := by
  refine List.filter_eq_self.mpr fun line _ => ?_
  rcases line with ⟨_ | _ | _, _⟩ <;> rfl

theorem filter_remoteRefs (w : World) :
    (((w.remoteRefs.filter fun line => line.1 ∈ [Ref.branch]).head?).map (·.2) = w.remoteBranch) ∧
      ∀ r ≠ Ref.branch, lookupRef r
        (w.remoteRefs.filter fun line => line.1 ∈ [Ref.tag, Ref.peeledTag]) =
          lookupRef r w.remoteRefs := by
  rcases w with ⟨_, _, _, _, _, _, _, _, _, remoteBranch, remoteTag, _, _, _, _, _⟩
  constructor
  · cases remoteBranch <;> rcases remoteTag with - | (_ | _) <;> rfl
  · intro r hr
    cases r <;> cases remoteBranch <;> rcases remoteTag with - | (_ | _) <;>
      first | rfl | exact absurd rfl hr

/-- What a command prints when there is something to print. -/
def printed {α : Type} (returncode : Int) : Option α → Result α
  | some out => .ok out
  | none => .failed returncode false ""

/-- What a healthy machine answers to a question; there, the canonical tests pass. -/
def look (git : Objects) (plan : Plan) (w : World) : (c : Cmd) → c.Ans
  | .insideWorkTree => .ok (.ok "true")
  | .revParse .head => .ok (.ok w.head)
  | .revParse .headParent => .ok (printed 128 (git.commit w.head).parent)
  | .revParse (.parent c) => .ok (printed 128 (git.commit c).parent)
  | .revParse .tracking => .ok (printed 128 w.tracking)
  | .revParse .tag => .ok (printed 128 (w.tag.map (·.object)))
  | .revParse .peeledTag => .ok (printed 128 (w.tag.map (·.target)))
  | .revParse .peeledPrevious => .ok (printed 128 w.previous)
  | .currentBranch => .ok (.ok w.branch)
  | .status => .ok (.ok w.changes)
  | .leftRight => .ok (printed 128 (w.tracking.map fun t => git.counts t w.head))
  | .verifyTag => .ok (printed 128 (w.tag.map (·.object)))
  | .showRef => .ok (printed 1 (w.tag.map fun _ => ()))
  | .catFile => .ok (printed 128 (w.tag.map (·.type)))
  | .diffNames => .ok (.ok w.modified)
  | .untracked => .ok (.ok w.untracked)
  | .stagedNames => .ok (.ok w.staged)
  | .diffCheck => .ok (.ok ())
  | .stagedCheck => .ok (.ok ())
  | .subject => .ok (.ok (git.commit w.head).subject)
  | .diffTree c => .ok (.ok (git.commit c).paths)
  | .lsRemote refs =>
      .ok (if w.reachable then .ok (w.remoteRefs.filter fun line => line.1 ∈ refs)
        else .failed 128 false "")
  | .ghAuth => .ok (if w.authenticated then .ok () else .failed 1 false "")
  | .ghView => .ok (if w.authenticated then printed 1 (w.shown plan) else .failed 4 false "")
  | .ghList => .ok (if w.authenticated then .ok w.listed else .failed 4 false "")
  | .canonicalTests => .ok (.ok plan.wantedSummary)
  | .which _ => .ok true
  | .component _ => .ok true
  | .resolveNotes =>
      if w.notes.isSome then .ok plan.releaseNotesPath
      else .error (.workflowError ("release_notes_path file not found: " ++ plan.releaseNotesPath))
  | .hashNotes =>
      match w.notes with
      | some hash => .ok hash
      | none => .error (.python (.fileNotFoundError ""))
  | .betaPlanExists => .ok w.betaPlan
  | .readReport path => .ok (w.report path)
  | _ => .error (.python .interrupt)

/-- The answer to a question, which changes nothing. -/
def ask (git : Objects) (plan : Plan) (w : World) (c : Cmd) : c.Ans × World := (look git plan w c, w)

/-- In `w`, program `m` only looks, and what it returns or raises is `x`. -/
abbrev Finds (git : Objects) (plan : Plan) (w : World) {α : Type} (m : Run α)
    (x : Except ReleaseExc α) : Prop :=
  Computes (ask git plan) w m x

/-! ### A release -/

/-- A release of one file. -/
def samplePlan : Plan where
  workflowId := "release-v1-1-0"
  expectedBaseCommit := "aaaaaaaaaaaaaaaaaaaaaaaaaaaaaaaaaaaaaaaa"
  expectedBranch := "main"
  remote := "origin"
  githubRepo := "academy/konoha"
  targetVersion := "v1.1.0"
  previousVersion := "v1.0.0"
  commitMessage := "release: v1.1.0"
  releaseTitle := "Konoha v1.1.0"
  releaseNotesPath := "sandbox/release-notes-v1.1.0.md"
  releaseNotesSha256 :=
    ⟨"4444444444444444444444444444444444444444444444444444444444444444", by decide⟩
  publicPaths := ["README.md"]
  expectedTestGate := ⟨1, 1⟩
  maxTransitions := 8

/-- The release commit. -/
def sampleCommit : Oid := "bbbbbbbbbbbbbbbbbbbbbbbbbbbbbbbbbbbbbbbb"

/-- An annotated tag of it. -/
def annotatedTag : Tag := .annotated "cccccccccccccccccccccccccccccccccccccccc" sampleCommit

/-- A repository in which the release commit is the only one with a parent. -/
def sampleObjects : Objects where
  commit := fun c =>
    if c = sampleCommit then
      ⟨some samplePlan.expectedBaseCommit, samplePlan.commitMessage, ["README.md"]⟩
    else ⟨none, "", []⟩
  counts := fun a b => if a = b then (0, 0) else (0, 1)
  parent_ne := fun c => by
    by_cases hc : c = sampleCommit
    · rw [if_pos hc, hc]
      decide
    · rw [if_neg hc]
      exact nofun

/-- The report of a run of all tests on the release commit. -/
def sampleReport : ClosureReport :=
  ⟨.needsTagCreation, .object sampleCommit, ⟨false, true, true, sampleCommit, ⟨1, 1, 1, 0, 1, 0, 0, 0⟩⟩⟩

/-- The release commit, pushed and tested, with a local tag and no remote one. -/
def sampleWorld (tag : Tag) : World where
  branch := "main"
  head := sampleCommit
  modified := []
  untracked := []
  staged := []
  tracking := some sampleCommit
  tag := some tag
  previous := some samplePlan.expectedBaseCommit
  reachable := true
  remoteBranch := some sampleCommit
  remoteTag := none
  authenticated := true
  releases := []
  notes := some samplePlan.releaseNotesSha256
  betaPlan := false
  report := fun
    | .closureTests => .report sampleReport
    | .transition _ => .absent

theorem aligned_sampleCommit : sampleObjects.Aligned samplePlan sampleCommit := by
  decide +kernel

end Konoha.Release
