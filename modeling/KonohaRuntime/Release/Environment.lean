/-
Release/Environment.lean

Everything that the commands of a release may do.  A question is answered with what there
is, or fails.  A change takes place or does not, whatever the command then answers.  The
closure guard runs on its own answers; it may also end without having written a report.
-/
import KonohaRuntime.Effects.Lone
import KonohaRuntime.Effects.Schedule
import KonohaRuntime.Release.World
import KonohaRuntime.Release.Workflow

namespace Konoha.Release

open Effects Prog

variable (git : Objects) (plan : Plan)

/-- The commands that change the repository, the remote or GitHub. -/
def Cmd.mutates : Cmd → Bool
  | fetch | gitStage | gitCommit | gitPush | tagCreate _ | tagPush | releaseCreate
  | releaseLatest => true
  | _ => false

/-- The command asks, and changes nothing. -/
def Cmd.asks : Cmd → Bool
  | gitPlan | closureGuard _ _ => false
  | c => !c.mutates

/-- A question fails: the process does, or cannot be started, or a tool is missing. -/
def Fails : (c : Cmd) → c.Ans → Prop
  | _, .error _ => True
  | .which _, .ok found | .component _, .ok found => found = false
  | .insideWorkTree, .ok r | .revParse _, .ok r | .currentBranch, .ok r | .status, .ok r
  | .leftRight, .ok r | .verifyTag, .ok r | .showRef, .ok r | .catFile, .ok r
  | .diffNames, .ok r | .untracked, .ok r | .diffCheck, .ok r | .stagedNames, .ok r
  | .stagedCheck, .ok r | .subject, .ok r | .diffTree _, .ok r | .lsRemote _, .ok r
  | .ghAuth, .ok r | .ghView, .ok r | .ghList, .ok r =>
      ∃ returncode timedOut detail, r = .failed returncode timedOut detail
  | .canonicalTests, .ok _ => True
  | _, .ok _ => False

/-- A question, as it may be answered; the canonical tests may end in any way. -/
def Asked (w : World) (c : Cmd) (r : c.Ans) (w' : World) : Prop :=
  w' = w ∧ (r = look git plan w c ∨ Fails c r)

/-- The guard may report `report`. -/
def Reports (prior : Option ReportPath) (w : World) (report : ClosureReport) : Prop :=
  ∃ w', Exec (Asked git plan) (buildClosureReport plan prior) w (.ok report) w'

/-- The guard has written its report. -/
def World.withReport (w : World) (output : ReportPath) (report : ClosureReport) : World :=
  { w with report := Function.update w.report output (.report report) }

/-- What a command may change. -/
def Changes (w : World) : Cmd → World → Prop
  | .fetch, w' => w' = { w with tracking := w.remoteBranch }
  | .gitPlan, w' => w' = { w with betaPlan := true }
  | .gitStage, w' => ∃ modified untracked staged,
      w' = { w with modified := modified, untracked := untracked, staged := staged }
  | .gitCommit, w' => ∃ c modified untracked staged,
      w' = { w with head := c, modified := modified, untracked := untracked, staged := staged }
  | .gitPush, w' => w' = { w with remoteBranch := some w.head, tracking := some w.head }
  | .tagCreate c, w' => w.tag = none ∧ ∃ tagObject, w' = { w with tag := some (.annotated tagObject c) }
  | .tagPush, w' => w' = { w with remoteTag := w.tag }
  | .releaseCreate, w' => ∃ releases, w' = { w with releases := releases }
  | .releaseLatest, w' => ∃ releases, w' = { w with releases := releases }
  | .closureGuard prior output, w' =>
      ∃ report, Reports git plan prior w report ∧ w' = w.withReport output report
  | _, _ => False

/-- A command, as it may end. -/
def Step (w : World) (c : Cmd) (r : c.Ans) (w' : World) : Prop :=
  if c.asks then Asked git plan w c r w' else w' = w ∨ Changes git plan w c w'

/-- The notes may be edited. -/
def Edits (w w' : World) : Prop := ∃ notes, w' = { w with notes := notes }

/-- A run of the workflow, with every outcome of every command and every edit of the notes. -/
def unsupervised : Scene World Cmd.Ans where
  step := fun l => Step git plan l.world
  env := fun l => Edits l.world

/-! ### A healthy machine -/

/-- The release that `gh release create` makes, with the others no longer Latest. -/
def created (plan : Plan) (releases : List Published) : List Published :=
  ⟨plan.targetVersion, plan.releaseTitle, false, false, true⟩ ::
    releases.map fun r => { r with isLatest := false }

/-- What `gh release edit --latest` makes of the releases. -/
def promoted (plan : Plan) (releases : List Published) : List Published :=
  releases.map fun r => { r with isLatest := r.tagName = plan.targetVersion }

/-- What a healthy machine does: the next commit is `commit`, the next tag object `tagObject`. -/
def healthy (commit tagObject : Oid) (w : World) : (c : Cmd) → c.Ans × World
  | .fetch => (.ok (.ok ()), { w with tracking := w.remoteBranch })
  | .gitPlan => (.ok (.ok ()), { w with betaPlan := true })
  | .gitStage =>
      (.ok (.ok ()), { w with modified := [], untracked := [], staged := w.modified ++ w.untracked })
  | .gitCommit => (.ok (.ok ()), { w with head := commit, staged := [] })
  | .gitPush =>
      (.ok (.ok ()), { w with remoteBranch := some w.head, tracking := some w.head })
  | .tagCreate c =>
      if w.tag = none then (.ok (.ok ()), { w with tag := some (.annotated tagObject c) })
      else (.ok (.failed 128 false ""), w)
  | .tagPush =>
      if w.tag = none then (.ok (.failed 1 false ""), w)
      else (.ok (.ok ()), { w with remoteTag := w.tag })
  | .releaseCreate => (.ok (.ok ()), { w with releases := created plan w.releases })
  | .releaseLatest => (.ok (.ok ()), { w with releases := promoted plan w.releases })
  | .closureGuard prior output =>
      match (buildClosureReport plan prior).eval (ask git plan) w with
      | (.ok report, _) =>
          (.ok (if report.releaseClosed then .ok () else .failed 1 false ""),
            w.withReport output report)
      | (.error _, _) => (.ok (.failed 2 false ""), w)
  | c => (look git plan w c, w)

variable {git plan}

/-- What is asked of a healthy machine, it may answer. -/
theorem asked_look (w : World) (c : Cmd) : Asked git plan w c (look git plan w c) w :=
  ⟨rfl, .inl rfl⟩

/-- The guard of a healthy machine reports what it has found. -/
theorem healthy_closureGuard (commit tagObject : Oid) (w : World) (prior : Option ReportPath)
    (output : ReportPath) :
    healthy git plan commit tagObject w (.closureGuard prior output) =
        (.ok (.failed 2 false ""), w) ∨
      ∃ report, Reports git plan prior w report ∧
        (healthy git plan commit tagObject w (.closureGuard prior output)).2 =
          w.withReport output report := by
  have hexec : Exec (Asked git plan) (buildClosureReport plan prior) w
      ((buildClosureReport plan prior).eval (ask git plan) w).1
      ((buildClosureReport plan prior).eval (ask git plan) w).2 := exec_eval asked_look _ w
  rw [healthy]
  rcases e : (buildClosureReport plan prior).eval (ask git plan) w with ⟨_ | report, w'⟩
  · exact .inl rfl
  · rw [e] at hexec
    exact .inr ⟨report, ⟨w', hexec⟩, rfl⟩

/-- What a healthy machine does, it may do. -/
theorem step_healthy (commit tagObject : Oid) (w : World) (c : Cmd) :
    Step git plan w c (healthy git plan commit tagObject w c).1
      (healthy git plan commit tagObject w c).2 := by
  by_cases hc : c.asks
  · rw [Step, if_pos hc]
    cases c <;> first | exact absurd hc Bool.false_ne_true | exact asked_look _ _
  · rw [Step, if_neg hc]
    cases c with
    | fetch => exact .inr rfl
    | gitPlan => exact .inr rfl
    | gitStage => exact .inr ⟨_, _, _, rfl⟩
    | gitCommit => exact .inr ⟨_, _, _, _, rfl⟩
    | gitPush => exact .inr rfl
    | tagCreate c =>
        rw [healthy]
        split
        · exact .inr ⟨‹_›, _, rfl⟩
        · exact .inl rfl
    | tagPush =>
        rw [healthy]
        split
        · exact .inl rfl
        · exact .inr rfl
    | releaseCreate => exact .inr ⟨_, rfl⟩
    | releaseLatest => exact .inr ⟨_, rfl⟩
    | closureGuard prior output =>
        exact (healthy_closureGuard _ _ _ _ _).imp (congrArg Prod.snd) id
    | _ => exact absurd rfl hc

end Konoha.Release
