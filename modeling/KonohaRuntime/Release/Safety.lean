/-
Release/Safety.lean

What the workflow does to the world: the branch is pushed only at the planned commit, the
tag only when it is annotated and at that commit, the release is created only with the
planned notes, nothing at all happens without the tokens, and a release that is reported
closed has passed the checks of `verify_final`.

Two things are needed of a run.  The notes must not be edited once `preflight` has hashed
them, because `publish_release` does not look at them again.  And the guard must not ask for
a tag to be pushed that is lightweight, or ask for it in a report that it has not written in
this run, because `push_tag` does not look at the tag.  `Guarded` says so for one step.
-/
import KonohaRuntime.Release.Answers

namespace Konoha.Release

open Effects Prog Scene

variable (git : Objects) (plan : Plan)

/-! ### What is to be shown -/

/-- `validate_tokens` accepts: all nine tokens are exact, and the run is confirmed. -/
def Args.Exact (args : Args) : Prop :=
  (∀ token ∈ args.tokens, token.2.1 = token.2.2) ∧ args.confirmRun ∧ args.allowNetwork

/-- Where the workflow may perform a command. -/
def Sanctioned (args : Args) (w : World) : Cmd → Prop
  | .gitPush => args.Exact ∧ git.Aligned plan w.head
  | .tagPush => args.Exact ∧ git.Aligned plan w.head ∧ ∃ o, w.tag = some (.annotated o w.head)
  | .releaseCreate => args.Exact ∧ w.notes = some plan.releaseNotesSha256
  | c => c.mutates → args.Exact

/-! ### The runs -/

/-- The notes have been hashed. -/
def Hashed (l : Logged World Cmd) : Prop := ∃ w, (w, Cmd.hashNotes) ∈ l.log

/-- `run_logged` goes on after this answer of the guard. -/
def Accepted : Except ReleaseExc (Result Unit) → Prop
  | .ok (.ok _) => True
  | .ok (.failed returncode timedOut _) => ¬ (timedOut ∨ returncode ∉ [0, 1])
  | .error _ => False

/-- The guard, where the run goes on, does not have a tag pushed that is not annotated: a
report of its own is not about a lightweight tag that the remote lacks, and a report that it
has found does not ask for a tag to be pushed that is not annotated. -/
def Guarded (w : World) : (c : Cmd) → c.Ans → World → Prop
  | .closureGuard prior output, r, w' => Accepted r →
      ((∃ report, Reports git plan prior w report ∧ w' = w.withReport output report) ∧
        ¬ (w.tag = some (.lightweight w.head) ∧ w.remoteBranch = some w.head ∧
          w.remoteTag = none)) ∨
      (w' = w ∧ ∀ report, w.report output = .report report →
        report.statusCode = .needsTagPublication → ∃ o, w.tag = some (.annotated o w.head))
  | _, _, _ => True

/-- The runs in which the notes stay as they were hashed, and the guard is `Guarded`. -/
def supervised : Scene World Cmd.Ans where
  step := fun l c r w => Step git plan l.world c r w ∧ Guarded git plan l.world c r w
  env := fun l w => ¬ Hashed l ∧ Edits l.world w

variable {git plan} {args : Args} {α : Type} {m : Run α}

/-! ### After the notes have been hashed -/

/-- The planned notes have been hashed, and `F` holds. -/
def Late (plan : Plan) (F : World → Prop) (l : Logged World Cmd) : Prop :=
  Hashed l ∧ l.world.notes = some plan.releaseNotesSha256 ∧ F l.world

variable {F G : World → Prop}

theorem Late.mono {l : Logged World Cmd} (h : Late plan F l) (hF : ∀ w, F w → G w) :
    Late plan G l :=
  ⟨h.1, h.2.1, hF _ h.2.2⟩

theorem Hashed.performed {l : Logged World Cmd} (h : Hashed l) (c : Cmd) (w : World) :
    Hashed (l.performed c w) := by
  obtain ⟨w₀, hw₀⟩ := h
  exact ⟨w₀, Logged.mem_log_performed.mpr (.inl hw₀)⟩

/-- Nobody disturbs the workflow any more. -/
theorem Late.undisturbed : Undisturbed (supervised git plan) (Late plan F) :=
  fun _ _ h he => absurd h.1 he.1

theorem sanctioned_of_asks {w : World} {c : Cmd} (hc : c.asks) : Sanctioned git plan args w c := by
  cases c <;> first
    | exact absurd hc Bool.false_ne_true
    | exact fun h => absurd h Bool.false_ne_true

/-- The code only asks. -/
abbrev Asks (m : Run α) : Prop := m.Always (fun c => c.asks) (fun _ => True) fun _ => True

/-- Code that only asks, about whatever it concludes from the answers. -/
theorem late_of_sees {Q : World → α → Prop}
    (hm : Asks m)
    (h : ∀ w, F w → Sees git plan w m (Q w)) :
    (supervised git plan).Audited (Sanctioned git plan args) (Late plan F) m
      (fun a => Late plan fun w => F w ∧ Q w a) fun _ => Late plan F := by
  induction m generalizing F Q with
  | ret a =>
      refine Audited.ret fun l hl => hl.mono fun w hw => ⟨hw, (h w hw w rfl).1⟩
  | raise e => exact Audited.raise fun l hl => hl
  | op c k ih =>
      obtain ⟨hc, hk⟩ := hm
      have hc : c.asks := hc
      refine Triple.op (B := fun r => Late plan fun w => F w ∧ Asked git plan w c r w)
        Late.undisturbed.stable ?_ fun r => ?_
      · rintro l r l' hl hi ⟨w, ⟨hs, -⟩, rfl⟩
        rw [Step, if_pos hc] at hs
        obtain rfl := hs.1
        refine ⟨fun e he => ?_, trivial, hl.1.performed _ _, hl.2.1, hl.2.2, hs⟩
        rcases Logged.mem_log_performed.mp he with he | rfl
        · exact hi e he
        · exact sanctioned_of_asks hc
      · refine Audited.conseq (ih r (hk r) (Q := Q) ?_) (fun _ hl => hl)
          (fun _ _ hl => hl.mono fun w hw => ⟨hw.1.1, hw.2⟩) fun _ _ hl => hl.mono fun w hw => hw.1
        rintro w ⟨hw, hasked⟩ _ rfl
        exact ((h _ hw) _ rfl _ rfl trivial r _ hasked).2.2

theorem sees_any (w : World) (m : Run α) : Sees git plan w m fun _ => True := by
  induction m with
  | ret a => exact Sees.ret trivial
  | raise e => exact Sees.raise
  | op c k ih =>
      rintro w₁ rfl w₂ rfl - r w' ⟨rfl, -⟩
      exact ⟨trivial, trivial, ih r _ rfl⟩

/-- Code that only asks. -/
theorem late_asks (hm : Asks m) :
    (supervised git plan).Audited (Sanctioned git plan args) (Late plan F) m
      (fun _ => Late plan F) fun _ => Late plan F :=
  (late_of_sees hm fun w _ => sees_any w m).conseq (fun _ hl => hl)
    (fun _ _ hl => hl.mono fun _ hw => hw.1) fun _ _ hl => hl

theorem notes_of_changes {w w' : World} {c : Cmd} (h : w' = w ∨ Changes git plan w c w') :
    w'.notes = w.notes := by
  rcases h with rfl | h
  · rfl
  · cases c <;> simp only [Changes] at h <;> grind [World.withReport]

/-- A command that changes something. -/
theorem late_change {c : Cmd} {K : c.Ans → World → Prop} (hc : c.asks = false)
    (hP : ∀ w, F w → w.notes = some plan.releaseNotesSha256 → Sanctioned git plan args w c)
    (hF : ∀ w r w', F w → w' = w ∨ Changes git plan w c w' → Guarded git plan w c r w' → K r w') :
    (supervised git plan).Audited (Sanctioned git plan args) (Late plan F) (run c)
      (fun v => Late plan (K (.ok v))) fun e => Late plan (K (.error e)) := by
  have hstep : ∀ l r w, Late plan F l → (supervised git plan).step l c r w →
      Late plan (K r) (l.performed c w) := by
    rintro l r w hl ⟨hs, hguard⟩
    rw [Step, if_neg (by simp [hc])] at hs
    exact ⟨hl.1.performed _ _, (notes_of_changes hs).trans hl.2.1, hF _ _ _ hl.2.2 hs hguard⟩
  exact Audited.ask Late.undisturbed (fun l hl => hP _ hl.2.2 hl.2.1)
    (fun l v w hl hs => hstep l _ w hl hs) fun l e w hl hs => hstep l _ w hl hs

/-- A command that keeps what is needed, whatever it answers. -/
theorem late_keep {c : Cmd} (hc : c.asks = false)
    (hP : ∀ w, F w → w.notes = some plan.releaseNotesSha256 → Sanctioned git plan args w c)
    (hF : ∀ w w', F w → w' = w ∨ Changes git plan w c w' → G w') :
    (supervised git plan).Audited (Sanctioned git plan args) (Late plan F) (run c)
      (fun _ => Late plan G) fun _ => Late plan G :=
  late_change hc hP fun w _ w' hw hs _ => hF w w' hw hs

theorem late_runLogged {label : String} {answer : Run (Result α)}
    (h : (supervised git plan).Audited (Sanctioned git plan args) (Late plan F) answer
      (fun _ => Late plan G) fun _ => Late plan G) :
    (supervised git plan).Audited (Sanctioned git plan args) (Late plan F)
      (runLogged label answer) (fun _ => Late plan G) fun _ => Late plan G := by
  refine h.bind fun r => ?_
  cases r with
  | ok out => exact Audited.ret fun _ hl => hl
  | failed _ _ _ => exact Audited.raise fun _ hl => hl

/-! ### Code that only asks -/

section Asks

variable {answer : Run (Result α)}

theorem asks_run (c : Cmd) (hc : c.asks = true) : Asks (run c) :=
  ⟨hc, fun r => by cases r <;> trivial⟩

theorem asks_required {label : String} (h : Asks answer) : Asks (required label answer) := by
  refine h.bind fun r _ => ?_
  cases r <;> trivial

theorem asks_gitStdout {c : Cmd} (h : Asks answer) : Asks (gitStdout plan c answer) :=
  asks_required h

theorem asks_runLogged {label : String} (h : Asks answer) : Asks (runLogged label answer) := by
  refine h.bind fun r _ => ?_
  cases r <;> trivial

theorem asks_ite {p : Prop} [Decidable p] {m m' : Run α} (h : Asks m) (h' : Asks m') :
    Asks (if p then m else m') := by
  split
  · exact h
  · exact h'

theorem asks_git {c : Cmd} {answer : Run (Result α)} (h : Asks answer) {β : Type} {f : α → Run β}
    (hf : ∀ a, Asks (f a)) : Asks (gitStdout plan c answer >>= f) :=
  (asks_gitStdout h).bind fun a _ => hf a

end Asks

theorem asks_collectCommitPaths (c : Oid) : Asks (collectCommitPaths plan c) :=
  asks_git (asks_run _ rfl) fun _ => trivial

theorem asks_checkCommit : Asks (checkCommit plan) := by
  refine asks_git (asks_run _ rfl) fun _ => asks_git (asks_run _ rfl) fun _ => ?_
  refine asks_git (asks_run _ rfl) fun _ => (asks_collectCommitPaths _).bind fun _ _ => ?_
  refine asks_ite trivial (asks_ite trivial (asks_ite trivial ?_))
  exact asks_git (asks_run _ rfl) fun _ => asks_ite trivial trivial

theorem asks_preflightCommitted (head tracked : Oid) (counts : Nat × Nat) :
    Asks (preflightCommitted plan head tracked counts) := by
  refine asks_git (asks_run _ rfl) fun _ => asks_git (asks_run _ rfl) fun _ => ?_
  refine (asks_collectCommitPaths _).bind fun _ _ => ?_
  exact asks_git (asks_run _ rfl) fun _ => asks_ite trivial trivial

theorem asks_preflightBase (tracked : Oid) (counts : Nat × Nat) :
    Asks (preflightBase plan tracked counts) := by
  have hscope : Asks (collectScope plan) :=
    asks_git (asks_run _ rfl) fun _ => asks_git (asks_run _ rfl) fun _ => trivial
  refine asks_ite trivial ((asks_required (asks_run _ rfl)).bind fun _ _ => ?_)
  exact hscope.bind fun _ _ => asks_ite trivial trivial

theorem asks_verifyFinal (r : ClosureReport) (head : Oid) : Asks (verifyFinal plan r head) := by
  have hobserve : Asks (observe plan) := by
    refine asks_git (asks_run _ rfl) fun _ => (asks_required (asks_run _ rfl)).bind fun _ _ => ?_
    refine asks_git (asks_run _ rfl) fun _ => asks_git (asks_run _ rfl) fun _ => ?_
    refine (asks_required (asks_run _ rfl)).bind fun _ _ => ?_
    refine (asks_runLogged (asks_run _ rfl)).bind fun _ _ => ?_
    refine (asks_runLogged (asks_run _ rfl)).bind fun _ _ => ?_
    exact asks_git (asks_run _ rfl) fun _ => trivial
  refine asks_ite trivial (hobserve.bind fun _ _ => asks_ite trivial ?_)
  exact asks_git (asks_run _ rfl) fun _ => asks_ite trivial trivial

theorem asks_ofExcept {β : Type} (x : Except ReleaseExc β) : Asks (Prog.ofExcept x : Run β) := by
  cases x <;> trivial

theorem asks_loadClosureReport (path : ReportPath) : Asks (loadClosureReport path) :=
  (asks_run _ rfl).bind fun _ _ => asks_ofExcept _

/-! ### The guard -/

/-- A report that asks for the tag to be pushed is about an annotated tag at `HEAD`. -/
def Trusted (w : World) (report : ClosureReport) : Prop :=
  report.statusCode = .needsTagPublication → ∃ o, w.tag = some (.annotated o w.head)

/-- The guard leaves the commit; where the run goes on, what it leaves at `output` can be
trusted. -/
theorem trusted_of_guarded {w w' : World} {prior : Option ReportPath} {output : ReportPath}
    {r : Cmd.Ans (.closureGuard prior output)}
    (h : Guarded git plan w (.closureGuard prior output) r w') (hr : Accepted r)
    {report : ClosureReport} (hreport : w'.report output = .report report) :
    Trusted w' report := by
  rcases h hr with ⟨⟨report', hreports, rfl⟩, hlightweight⟩ | ⟨rfl, htrusted⟩
  · have hupdate : (w.withReport output report').report output = .report report' :=
      Function.update_self ..
    obtain rfl : report' = report := ReportFile.report.inj (hupdate.symm.trans hreport)
    intro hneeds
    obtain ⟨tag, htag, htarget, hbranch, hremote⟩ := (reports_spec hreports).2 hneeds
    rcases tag with c | ⟨o, c⟩
    · rw [show c = w.head from htarget] at htag
      exact absurd ⟨htag, hbranch, hremote⟩ hlightweight
    · rw [show c = w.head from htarget] at htag
      exact ⟨o, htag⟩
  · exact htrusted report hreport

theorem late_runGuard (label : String) (prior : Option ReportPath) (output : ReportPath)
    (head : Oid) (hexact : args.Exact) :
    (supervised git plan).Audited (Sanctioned git plan args) (Late plan (·.head = head))
      (runGuard label prior output)
      (fun _ => Late plan fun w => w.head = head ∧
        ∀ report, w.report output = .report report → Trusted w report)
      fun _ => Late plan (·.head = head) := by
  have hguard : (supervised git plan).Audited (Sanctioned git plan args)
      (Late plan (·.head = head)) (run (.closureGuard prior output))
      (fun v => Late plan fun w => w.head = head ∧ (Accepted (.ok v) →
        ∀ report, w.report output = .report report → Trusted w report))
      fun e => Late plan fun w => w.head = head ∧ (Accepted (.error e) →
        ∀ report, w.report output = .report report → Trusted w report) := by
    refine late_change (c := .closureGuard prior output) (K := fun r w => w.head = head ∧
      (Accepted r → ∀ report, w.report output = .report report → Trusted w report))
      rfl (fun _ _ _ _ => hexact) ?_
    intro w r w' hw hs hg
    refine ⟨?_, fun hr report hreport => trusted_of_guarded hg hr hreport⟩
    rcases hs with rfl | ⟨_, _, rfl⟩ <;> exact hw
  refine (hguard.conseq (fun _ h => h) (fun _ _ h => h) fun _ l h => h.mono fun w hw => hw.1).bind
    fun r => ?_
  cases r with
  | ok _ => exact Audited.ret fun _ hl => hl.mono fun w hw => ⟨hw.1, hw.2 trivial⟩
  | failed returncode timedOut _ =>
      show Audited _ _ _ (if _ then _ else _) _ _
      split
      · exact Audited.raise fun l hl => hl.mono fun w hw => hw.1
      · rename_i hgoes
        exact Audited.ret fun _ hl => hl.mono fun w hw => ⟨hw.1, hw.2 hgoes⟩

/-- `run_initial_closure_guard` and `run_reused_closure_guard`, run from `head`. -/
theorem late_runClosureGuard (label mismatch : String) (prior : Option ReportPath)
    (output : ReportPath) (head : Oid) (hexact : args.Exact) :
    (supervised git plan).Audited (Sanctioned git plan args) (Late plan (·.head = head))
      (runClosureGuard plan label mismatch prior output head)
      (fun evidence => Late plan fun w => w.head = head ∧ Trusted w evidence.report)
      fun _ => Late plan (·.head = head) := by
  refine (late_runGuard label prior output head hexact).bind fun returncode => ?_
  have hload : (supervised git plan).Audited (Sanctioned git plan args)
      (Late plan fun w => w.head = head ∧
        ∀ report, w.report output = .report report → Trusted w report)
      (loadClosureReport output)
      (fun report => Late plan fun w => w.head = head ∧ Trusted w report)
      fun _ => Late plan (·.head = head) :=
    (late_of_sees (asks_loadClosureReport output) fun w _ => sees_report output).conseq
      (fun _ h => h) (fun report l hl => hl.mono fun w hw => ⟨hw.1.1, hw.1.2 report hw.2⟩)
      fun _ _ hl => hl.mono fun w hw => hw.1
  refine hload.bind fun report => ?_
  have hweak : ∀ l, Late plan (fun w => w.head = head ∧ Trusted w report) l →
      Late plan (·.head = head) l := fun l hl => hl.mono fun w hw => hw.1
  have hcheck : ∀ {β : Type} (x : Except ReleaseExc β), (supervised git plan).Audited
      (Sanctioned git plan args) (Late plan fun w => w.head = head ∧ Trusted w report)
      (Prog.ofExcept x) (fun _ => Late plan fun w => w.head = head ∧ Trusted w report)
      fun _ => Late plan (·.head = head) := fun x =>
    Audited.ofExcept.conseq (fun _ h => h) (fun _ _ h => h.2) fun _ l h => hweak l h.2
  refine (hcheck _).bind fun _ => (hcheck _).bind fun summary => (hcheck _).bind fun found => ?_
  split
  · exact Audited.raise hweak
  · exact Audited.ret fun _ hl => hl

/-- `run_initial_closure_guard` -/
theorem late_runInitialClosureGuard (head : Oid) (hexact : args.Exact) :
    (supervised git plan).Audited (Sanctioned git plan args) (Late plan (·.head = head))
      (runInitialClosureGuard plan head)
      (fun evidence => Late plan fun w => w.head = head ∧ Trusted w evidence.report)
      fun _ => Late plan (·.head = head) := by
  have htests : (supervised git plan).Audited (Sanctioned git plan args)
      (Late plan (·.head = head)) (runClosureGuard plan "closure-tests"
        "closure test evidence HEAD mismatch" none .closureTests head)
      (fun evidence => Late plan fun w => w.head = head ∧ Trusted w evidence.report)
      fun _ => Late plan (·.head = head) :=
    late_runClosureGuard _ _ _ _ head hexact
  have hreuse : ∀ file, (supervised git plan).Audited (Sanctioned git plan args)
      (Late plan (·.head = head)) (reuseEvidence plan file head)
      (fun evidence => Late plan fun w => w.head = head ∧ Trusted w evidence.report)
      fun _ => Late plan (·.head = head) := by
    intro file
    refine (late_asks (asks_ofExcept _)).bind fun existing => ?_
    refine (late_asks (asks_ofExcept _)).bind fun summary => ?_
    refine (late_asks (asks_ofExcept _)).bind fun found => ?_
    split
    · exact Audited.raise fun _ hl => hl
    · split
      · exact Audited.raise fun _ hl => hl
      · exact (late_runClosureGuard _ _ _ _ head hexact).bind fun evidence =>
          Audited.ret fun _ hl => hl
  refine (late_asks (asks_run (.readReport .closureTests) rfl)).bind fun file => ?_
  have horTests : ∀ file, (supervised git plan).Audited (Sanctioned git plan args)
      (Late plan (·.head = head))
      ((reuseEvidence plan file head).attempt >>= orTests (runClosureGuard plan "closure-tests"
        "closure test evidence HEAD mismatch" none .closureTests head))
      (fun evidence => Late plan fun w => w.head = head ∧ Trusted w evidence.report)
      fun _ => Late plan (·.head = head) := by
    intro file
    refine Audited.bind (Q := fun r l =>
      (∀ e, r = .ok e → Late plan (fun w => w.head = head ∧ Trusted w e.report) l) ∧
        Late plan (·.head = head) l) ?_ fun r => ?_
    · refine (hreuse file).attempt (fun e l hl => ⟨?_, hl.mono fun w hw => hw.1⟩)
        fun e l hl => ⟨nofun, hl⟩
      rintro _ ⟨⟩
      exact hl
    · rcases r with e | evidence
      · have hraise : ∀ l, (∀ x, (.error e : Except ReleaseExc Evidence) = .ok x →
            Late plan (fun w => w.head = head ∧ Trusted w x.report) l) ∧
            Late plan (·.head = head) l → Late plan (·.head = head) l := fun l hl => hl.2
        cases e with
        | workflowError _ => exact htests.conseq hraise (fun _ _ h => h) fun _ _ h => h
        | jsonDecodeError _ => exact htests.conseq hraise (fun _ _ h => h) fun _ _ h => h
        | closureGuardError _ => exact Audited.raise hraise
        | indexError => exact Audited.raise hraise
        | python _ => exact Audited.raise hraise
      · exact Audited.ret fun l hl => hl.1 evidence rfl
  cases file with
  | absent => exact htests
  | corrupt => exact horTests _
  | undecodable _ => exact horTests _
  | report r => exact horTests _

/-! ### The actions -/

theorem late_pushMain (head : Oid) (hexact : args.Exact) (haligned : git.Aligned plan head) :
    (supervised git plan).Audited (Sanctioned git plan args) (Late plan (·.head = head))
      (pushMain plan) (fun _ => Late plan (·.head = head)) fun _ => Late plan (·.head = head) := by
  have hbeta : (supervised git plan).Audited (Sanctioned git plan args)
      (Late plan (·.head = head)) (ensureBetaPlan)
      (fun _ => Late plan (·.head = head)) fun _ => Late plan (·.head = head) := by
    refine (late_asks (asks_run .betaPlanExists rfl)).bind fun found => ?_
    show Audited _ _ _ (if _ then _ else _) _ _
    split
    · exact Audited.ret fun _ hl => hl
    · refine late_runLogged (late_keep rfl (fun _ _ _ h => absurd h Bool.false_ne_true) ?_)
      rintro w _ rfl (rfl | rfl) <;> rfl
  refine hbeta.bind fun _ => ?_
  refine (late_asks (asks_gitStdout (asks_run .leftRight rfl))).bind fun counts => ?_
  split
  · exact Audited.raise fun _ hl => hl
  · refine (late_runLogged (late_keep rfl ?_ ?_)).bind fun _ =>
      late_runLogged (late_keep rfl (fun _ _ _ _ => hexact) ?_)
    · rintro w rfl -
      exact ⟨hexact, haligned⟩
    · rintro w _ rfl (rfl | rfl) <;> rfl
    · rintro w _ rfl (rfl | rfl) <;> rfl

theorem late_createTag (head : Oid) (hexact : args.Exact) :
    (supervised git plan).Audited (Sanctioned git plan args) (Late plan (·.head = head))
      (createTag plan head) (fun _ => Late plan (·.head = head))
      fun _ => Late plan (·.head = head) := by
  refine (late_asks (asks_run .showRef rfl)).bind fun r => ?_
  have hcreate : (supervised git plan).Audited (Sanctioned git plan args)
      (Late plan (·.head = head)) (runLogged "tag-create" (run (.tagCreate head)))
      (fun _ => Late plan (·.head = head)) fun _ => Late plan (·.head = head) := by
    refine late_runLogged (late_keep rfl (fun _ _ _ _ => hexact) ?_)
    rintro w _ rfl (rfl | ⟨-, o, rfl⟩) <;> rfl
  cases r with
  | ok _ =>
      refine late_asks (asks_git (asks_run _ rfl) fun _ => asks_git (asks_run _ rfl) fun _ => ?_)
      exact asks_ite trivial trivial
  | failed returncode _ _ =>
      show Audited _ _ _ (if _ then _ else _) _ _
      split
      · exact Audited.raise fun _ hl => hl
      · exact hcreate

theorem late_perform (head : Oid) (action : Action) (hexact : args.Exact)
    (haligned : git.Aligned plan head) :
    (supervised git plan).Audited (Sanctioned git plan args)
      (Late plan fun w => w.head = head ∧
        (action = .pushTag → ∃ o, w.tag = some (.annotated o w.head)))
      (perform plan head action) (fun _ => Late plan (·.head = head))
      fun _ => Late plan (·.head = head) := by
  have hweak : ∀ l, Late plan (fun w => w.head = head ∧
      (action = .pushTag → ∃ o, w.tag = some (.annotated o w.head))) l →
      Late plan (·.head = head) l := fun l hl => hl.mono fun w hw => hw.1
  cases action with
  | pushMain => exact (late_pushMain head hexact haligned).conseq hweak (fun _ _ h => h) fun _ _ h => h
  | createTag => exact (late_createTag head hexact).conseq hweak (fun _ _ h => h) fun _ _ h => h
  | pushTag =>
      refine late_runLogged (late_keep rfl ?_ ?_)
      · rintro w ⟨rfl, htag⟩ -
        exact ⟨hexact, haligned, htag rfl⟩
      · rintro w _ ⟨rfl, -⟩ (rfl | rfl) <;> rfl
  | publishRelease =>
      refine Audited.conseq ?_ hweak (fun _ _ h => h) fun _ _ h => h
      refine (late_asks (asks_run .resolveNotes rfl)).bind fun _ => ?_
      refine late_runLogged (late_keep rfl (fun w _ hnotes => ⟨hexact, hnotes⟩) ?_)
      rintro w _ rfl (rfl | ⟨_, rfl⟩) <;> rfl
  | promoteLatest =>
      refine late_runLogged (late_keep rfl (fun _ _ _ _ => hexact) ?_)
      rintro w _ ⟨rfl, -⟩ (rfl | ⟨_, rfl⟩) <;> rfl
  | complete => exact Audited.ret hweak

theorem action_eq_pushTag {status : GuardStatus} (h : expectedAction status = .ok .pushTag) :
    status = .needsTagPublication := by
  cases status <;> first | rfl | exact nomatch h

/-- The loop keeps the commit, and ends only with a release that has been verified. -/
theorem late_transitionsLoop (head : Oid) (summary : TestSummary) (hexact : args.Exact)
    (haligned : git.Aligned plan head) (fuel step : Nat) (transitions : List Transition)
    (evidence : Evidence) :
    (supervised git plan).Audited (Sanctioned git plan args)
      (Late plan fun w => w.head = head ∧ Trusted w evidence.report)
      (transitionsLoop plan head summary fuel step transitions evidence)
      (fun report => Late plan fun w => report.head = head ∧ Verified git plan w head)
      fun _ => Late plan (·.head = head) := by
  have hweak : ∀ (p : World → Prop) l, Late plan (fun w => w.head = head ∧ p w) l →
      Late plan (·.head = head) l := fun p l hl => hl.mono fun w hw => hw.1
  induction fuel generalizing step transitions evidence with
  | zero => exact Audited.raise (hweak _)
  | succ fuel ih =>
      refine Audited.bind (Audited.ofExcept.conseq (fun _ h => h) (fun _ _ h => h)
        fun _ l h => hweak _ l h.2) fun action => Audited.of_pure fun haction => ?_
      split
      · refine ((late_of_sees (asks_verifyFinal _ _) fun w _ => sees_verifyFinal _ _).conseq
          (fun _ h => h) (fun _ _ h => h) fun _ l h => hweak _ l h).bind fun final => ?_
        exact Audited.ret fun l hl => hl.mono fun w hw => ⟨rfl, hw.2⟩
      · have htag : ∀ l, Late plan (fun w => w.head = head ∧ Trusted w evidence.report) l →
            Late plan (fun w => w.head = head ∧
              (action = .pushTag → ∃ o, w.tag = some (.annotated o w.head))) l := by
          refine fun l hl => hl.mono fun w hw => ⟨hw.1, ?_⟩
          rintro rfl
          exact hw.2 (action_eq_pushTag haction)
        refine ((late_perform head action hexact haligned).conseq htag (fun _ _ h => h)
          fun _ _ h => h).bind fun _ => ?_
        exact (late_runClosureGuard _ _ _ _ head hexact).bind fun evidence' => ih _ _ evidence'

/-! ### The beginning -/

theorem early_undisturbed {head : Oid} :
    Undisturbed (supervised git plan) fun l => l.world.head = head := by
  rintro l _ hl ⟨-, _, rfl⟩
  exact hl

/-- Code that only asks, before the notes have been hashed. -/
theorem early_asks {head : Oid} (hm : Asks m) :
    (supervised git plan).Audited (Sanctioned git plan args) (fun l => l.world.head = head) m
      (fun _ l => l.world.head = head) fun _ _ => True := by
  refine (Audited.of_always hm early_undisturbed (fun _ hc _ _ => sanctioned_of_asks hc) ?_).conseq
    (fun _ h => h) (fun _ _ h => h.2) fun _ _ _ => trivial
  rintro c hc l r w hl ⟨hs, -⟩
  rw [Step, if_pos hc] at hs
  exact hs.1 ▸ hl

/-- The notes are the planned ones, and will be. -/
theorem audited_checkNotes (head : Oid) :
    (supervised git plan).Audited (Sanctioned git plan args) (fun l => l.world.head = head)
      (checkNotes plan) (fun _ => Late plan (·.head = head)) fun _ _ => True := by
  have hhash : (supervised git plan).Audited (Sanctioned git plan args)
      (fun l => l.world.head = head) (run .hashNotes)
      (fun hash l => Hashed l ∧ l.world.notes = some hash ∧ l.world.head = head)
      fun _ _ => True := by
    refine Audited.ask early_undisturbed (fun _ _ => sanctioned_of_asks rfl) ?_
      fun _ _ _ _ _ => trivial
    rintro l hash w hl ⟨⟨rfl, hlook | hfails⟩, -⟩
    · refine ⟨⟨l.world, Logged.mem_log_performed.mpr (.inr rfl)⟩, ?_, hl⟩
      rcases e : l.world.notes with - | notes
      · rw [look, e] at hlook
        exact nomatch hlook
      · rw [look, e] at hlook
        exact e.trans (congrArg some (Except.ok.inj hlook).symm)
    · exact hfails.elim
  refine (early_asks (asks_run .resolveNotes rfl)).bind fun relative => ?_
  split
  · exact Audited.raise fun _ _ => trivial
  · refine hhash.bind fun hash => ?_
    split
    · exact Audited.raise fun _ _ => trivial
    · rename_i hequal
      exact Audited.ret fun l hl => ⟨hl.1, hl.2.1.trans (congrArg some (not_not.mp hequal)), hl.2.2⟩

theorem audited_readHead :
    (supervised git plan).Audited (Sanctioned git plan args) (fun _ => True)
      (gitStdout plan (.revParse .head) (run (.revParse .head)))
      (fun head l => l.world.head = head) fun _ _ => True := by
  have hrun : (supervised git plan).Audited (Sanctioned git plan args) (fun _ => True)
      (run (.revParse .head)) (fun r l => ∀ head, r = .ok head → l.world.head = head)
      fun _ _ => True := by
    refine Audited.ask (fun _ _ _ _ => trivial) (fun _ _ => sanctioned_of_asks rfl) ?_
      fun _ _ _ _ _ => trivial
    rintro l r w - ⟨⟨rfl, hr⟩, -⟩ head hhead
    exact Result.ok.inj (eq_of_seen (hr.imp Eq.symm id) hhead)
  refine hrun.bind fun r => ?_
  cases r with
  | ok head => exact Audited.ret fun l hl => hl head rfl
  | failed _ _ _ => exact Audited.raise fun _ _ => trivial

theorem audited_asks (hm : Asks m) :
    (supervised git plan).Audited (Sanctioned git plan args) (fun _ => True) m
      (fun _ _ => True) fun _ _ => True :=
  (Audited.of_always hm (fun _ _ _ _ => trivial) (fun _ hc _ _ => sanctioned_of_asks hc)
    fun _ _ _ _ _ _ _ => trivial).conseq (fun _ h => h) (fun _ _ _ => trivial)
    fun _ _ _ => trivial

theorem asks_requireTool (tool text : String) : Asks (requireTool tool text) :=
  (asks_run (.which tool) rfl).bind fun _ _ => asks_ite trivial trivial

theorem sees_preflightBase {w : World} (tracked : Oid) (counts : Nat × Nat) :
    Sees git plan w (preflightBase plan tracked counts) (· = .needsCommit) := by
  refine Sees.ite (fun _ => Sees.raise) fun _ => (sees_any w _).bind fun _ _ => ?_
  exact (sees_any w _).bind fun _ _ => Sees.ite (fun _ => Sees.raise) fun _ => Sees.ret rfl

/-- What `preflight` leaves: the planned notes hashed, and the planned commit if it resumes. -/
def AfterPreflight (git : Objects) (plan : Plan) : Preflight → Logged World Cmd → Prop
  | .needsCommit => Late plan fun _ => True
  | .resumeCommitted head => Late plan fun w => git.Aligned plan head ∧ w.head = head

/-- `preflight` ends with the planned notes hashed, and resumes only the planned commit. -/
theorem audited_preflight :
    (supervised git plan).Audited (Sanctioned git plan args) (fun _ => True) (preflight plan)
      (AfterPreflight git plan) fun _ _ => True := by
  have hcomponents : Asks (requiredComponents.forM checkComponent) :=
    Always.forM fun path _ =>
      (asks_run (.component path) rfl).bind fun _ _ => asks_ite trivial trivial
  refine (audited_asks (asks_requireTool _ _)).bind fun _ => ?_
  refine (audited_asks hcomponents).bind fun _ => ?_
  refine (audited_asks (asks_gitStdout (asks_run .currentBranch rfl))).bind fun branch => ?_
  split
  · exact Audited.raise fun _ _ => trivial
  · refine audited_readHead.bind fun head => ?_
    refine (early_asks (asks_gitStdout (asks_run _ rfl))).bind fun tracked => ?_
    refine (early_asks (asks_gitStdout (asks_run _ rfl))).bind fun counts => ?_
    refine (early_asks (asks_gitStdout (asks_run _ rfl))).bind fun previous => ?_
    split
    · exact Audited.raise fun _ _ => trivial
    · refine (audited_checkNotes head).bind fun _ => ?_
      split
      · refine (late_of_sees (asks_preflightBase _ _) fun w _ => sees_preflightBase _ _).conseq
          (fun _ h => h) ?_ fun _ _ _ => trivial
        rintro mode l hl
        obtain rfl : mode = .needsCommit := hl.2.2.2
        exact hl.mono fun _ _ => trivial
      · have hsees : ∀ w, w.head = head → Sees git plan w (preflightCommitted plan head tracked counts)
            fun mode => mode = .resumeCommitted head ∧ git.Aligned plan head := by
          rintro w rfl
          exact sees_preflightCommitted _ _
        refine (late_of_sees (asks_preflightCommitted _ _ _) hsees).conseq (fun _ h => h) ?_
          fun _ _ _ => trivial
        rintro mode l hl
        obtain rfl : mode = .resumeCommitted head := hl.2.2.2.1
        exact Late.mono hl fun w hw => (⟨hw.2.2, hw.1⟩ : git.Aligned plan head ∧ w.head = head)

/-- `create_commit` ends with the planned commit at `HEAD`. -/
theorem late_createCommit (hexact : args.Exact) :
    (supervised git plan).Audited (Sanctioned git plan args) (Late plan fun _ => True)
      (createCommit plan) (fun head => Late plan fun w => git.Aligned plan head ∧ w.head = head)
      fun _ _ => True := by
  have hchange : ∀ c, c.asks = false → (∀ w, Sanctioned git plan args w c) →
      (supervised git plan).Audited (Sanctioned git plan args) (Late plan fun _ => True) (run c)
        (fun _ => Late plan fun _ => True) fun _ => Late plan fun _ => True :=
    fun c hc hP => late_keep hc (fun w _ _ => hP w) fun _ _ _ _ => trivial
  refine Audited.conseq (E := fun _ => Late plan fun _ => True) ?_ (fun _ h => h) (fun _ _ h => h)
    fun _ _ _ => trivial
  refine (late_runLogged (hchange .gitPlan rfl fun _ h => absurd h Bool.false_ne_true)).bind
    fun _ => ?_
  refine (late_runLogged (hchange .gitStage rfl fun _ _ => hexact)).bind fun _ => ?_
  refine (late_asks (asks_gitStdout (asks_run .stagedNames rfl))).bind fun staged => ?_
  split
  · exact Audited.raise fun _ hl => hl
  · refine (late_asks (asks_required (asks_run .stagedCheck rfl))).bind fun _ => ?_
    refine (late_runLogged (hchange .gitCommit rfl fun _ _ => hexact)).bind fun _ => ?_
    refine (late_of_sees asks_checkCommit fun w _ => sees_checkCommit).conseq (fun _ h => h) ?_
      fun _ _ h => h
    exact fun head l hl => hl.mono fun w hw => ⟨hw.2.2, hw.2.1.symm⟩

/-! ### The whole run -/

theorem exact_of_validateTokens (h : validateTokens args = .ok ()) : args.Exact := by
  rw [validateTokens] at h
  split at h
  · exact nomatch h
  · rename_i hnone
    split at h
    · exact nomatch h
    · rename_i hconfirm
      split at h
      · exact nomatch h
      · rename_i hnetwork
        refine ⟨fun token htoken => ?_, not_not.mp hconfirm, not_not.mp hnetwork⟩
        have := List.filter_eq_nil_iff.mp (List.map_eq_nil_iff.mp (not_not.mp hnone)) token htoken
        simpa using this

/-- `execute` performs only what is sanctioned, and reports only releases that are verified. -/
theorem audited_execute :
    (supervised git plan).Audited (Sanctioned git plan args) (fun _ => True) (execute plan args)
      (fun report => Late plan fun w =>
        git.Aligned plan report.head ∧ Verified git plan w report.head)
      fun _ _ => True := by
  refine Audited.bind (Audited.ofExcept.conseq (fun _ h => h) (fun _ _ h => h)
    fun _ _ _ => trivial) fun _ => Audited.of_pure fun hvalid => ?_
  have hexact := exact_of_validateTokens hvalid
  have hfetch : (supervised git plan).Audited (Sanctioned git plan args) (fun _ => True)
      (runLogged "git-fetch-preflight" (run .fetch)) (fun _ _ => True) fun _ _ => True := by
    refine (Audited.ask (B := fun _ _ => True) (fun _ _ _ _ => trivial) (fun _ _ _ => hexact)
      (fun _ _ _ _ _ => trivial) fun _ _ _ _ _ => trivial).bind fun r => ?_
    cases r with
    | ok _ => exact Audited.ret fun _ _ => trivial
    | failed _ _ _ => exact Audited.raise fun _ _ => trivial
  refine (audited_asks (asks_requireTool _ _)).bind fun _ => ?_
  refine (audited_asks (asks_requireTool _ _)).bind fun _ => hfetch.bind fun _ => ?_
  refine (audited_asks (asks_runLogged (asks_run .ghAuth rfl))).bind fun _ => ?_
  refine audited_preflight.bind fun mode => ?_
  have hhead : (supervised git plan).Audited (Sanctioned git plan args)
      (AfterPreflight git plan mode) (currentHead plan mode)
      (fun head => Late plan fun w => git.Aligned plan head ∧ w.head = head) fun _ _ => True := by
    cases mode with
    | needsCommit => exact late_createCommit hexact
    | resumeCommitted head => exact Audited.ret fun _ hl => hl
  refine hhead.bind fun head => ?_
  intro l hl
  have haligned := hl.2.2.1
  have hloop : (supervised git plan).Audited (Sanctioned git plan args)
      (Late plan (·.head = head))
      (runInitialClosureGuard plan head >>= fun evidence =>
        transitionsLoop plan head evidence.summary (plan.maxTransitions + 1).toNat 0 [] evidence)
      (fun report => Late plan fun w =>
        git.Aligned plan report.head ∧ Verified git plan w report.head) fun _ _ => True := by
    refine ((late_runInitialClosureGuard head hexact).bind fun evidence =>
      late_transitionsLoop head _ hexact haligned _ _ _ _).conseq (fun _ h => h) ?_
      fun _ _ _ => trivial
    rintro report l hl
    refine hl.mono fun w hw => ?_
    rw [hw.1]
    exact ⟨haligned, hw.2⟩
  exact hloop l (hl.mono fun w hw => hw.2)

/-- **A supervised release is safe.**  In a run of `execute`, up to any point, with any
outcome of its commands: every command has been performed only where it is `Sanctioned`, and
a release that is reported closed has passed the checks of `verify_final` at the planned
commit. -/
theorem execute_safe {w : World} {m : Run ReleaseReport} {l : Logged World Cmd}
    (h : (supervised git plan).Runs (execute plan args) (.init w) m l) :
    (∀ e ∈ l.log, Sanctioned git plan args e.1 e.2) ∧
      ∀ report, m = .ret report →
        git.Aligned plan report.head ∧ Verified git plan l.world report.head := by
  obtain ⟨hlog, hreport⟩ := audited_execute.sound trivial
    (fun e he => absurd he List.not_mem_nil) h
  exact ⟨hlog, fun report hm => (hreport report hm Late.undisturbed).2.2⟩

/-! ### Two runs -/

/-- The tokens of a run. -/
def sampleArgs : Args where
  workflowToken := "RUN_SUPERVISED_RELEASE_WORKFLOW"
  gitPlanToken := "PLAN_BETA_GIT_OPERATION"
  gitStageToken := "APPROVE_BETA_GIT_STAGE"
  gitCommitToken := "APPROVE_BETA_GIT_COMMIT"
  gitPushToken := "APPROVE_BETA_GIT_PUSH"
  tagCreateToken := "APPROVE_SUPERVISED_RELEASE_TAG_CREATE"
  tagPushToken := "APPROVE_SUPERVISED_RELEASE_TAG_PUSH"
  releasePublishToken := "APPROVE_SUPERVISED_RELEASE_PUBLISH"
  latestPromotionToken := "APPROVE_SUPERVISED_RELEASE_LATEST"
  confirmRun := true
  allowNetwork := true

/-- The answers of a healthy machine, on which the guard fails for a lightweight tag. -/
def carefulAnswer (l : Logged World Cmd) : (c : Cmd) → c.Ans × World
  | .closureGuard prior output =>
      if l.world.tag.all fun tag => tag.type = "tag" then
        healthy sampleObjects samplePlan sampleCommit sampleCommit l.world (.closureGuard prior output)
      else (.ok (.failed 2 false ""), l.world)
  | c => healthy sampleObjects samplePlan sampleCommit sampleCommit l.world c

theorem not_accepted : ¬ Accepted (.ok (.failed 2 false "")) :=
  fun h => h (.inr (by decide))

theorem supervised_carefulAnswer (l : Logged World Cmd) (c : Cmd) :
    (supervised sampleObjects samplePlan).step l c (carefulAnswer l c).1 (carefulAnswer l c).2 := by
  cases c with
  | closureGuard prior output =>
      rw [carefulAnswer]
      split
      · rename_i hannotated
        refine ⟨step_healthy _ _ _ _, fun haccepted => ?_⟩
        rcases healthy_closureGuard sampleCommit sampleCommit l.world prior
          output with h | ⟨report, hreports, hleft⟩
        · rw [h] at haccepted
          exact absurd haccepted not_accepted
        · refine .inl ⟨⟨report, hreports, hleft⟩, fun h => ?_⟩
          simp [h.1, Tag.type] at hannotated
      · exact ⟨.inl rfl, fun h => absurd h not_accepted⟩
  | _ => exact ⟨step_healthy sampleCommit sampleCommit _ _, trivial⟩

/-- The program has returned. -/
def returns : Run α → Bool
  | .ret _ => true
  | _ => false

/-- With an annotated tag the run ends with a release that is closed. -/
theorem sampleRun_closed :
    ∃ report l, (supervised sampleObjects samplePlan).Runs (execute samplePlan sampleArgs)
      (.init (sampleWorld annotatedTag)) (.ret report) l ∧
        sampleObjects.Aligned samplePlan report.head ∧
          Verified sampleObjects samplePlan l.world report.head := by
  have hrun := runs_play supervised_carefulAnswer 38
    (execute samplePlan sampleArgs, .init (sampleWorld annotatedTag))
  have hreturns : returns (play carefulAnswer 38 (execute samplePlan sampleArgs,
      Logged.init (sampleWorld annotatedTag))).1 := by
    decide +kernel
  rcases e : play carefulAnswer 38 (execute samplePlan sampleArgs,
    .init (sampleWorld annotatedTag)) with ⟨m, l⟩
  rw [e] at hrun hreturns
  cases m with
  | ret report => exact ⟨report, l, hrun, (execute_safe hrun).2 report rfl⟩
  | raise _ => exact absurd hreturns Bool.false_ne_true
  | op _ _ => exact absurd hreturns Bool.false_ne_true

/-- The command pushes the tag. -/
def Cmd.isTagPush : Cmd → Bool
  | tagPush => true
  | _ => false

/-- A healthy run pushes a lightweight tag. -/
theorem lightweightTag_pushed :
    ¬ ∀ git plan args w (m : Run ReleaseReport) l,
      (unsupervised git plan).Runs (execute plan args) (.init w) m l →
        ∀ e ∈ l.log, Sanctioned git plan args e.1 e.2 := by
  intro h
  have hrun := runs_play (S := unsupervised sampleObjects samplePlan)
    (fun l c => step_healthy sampleCommit sampleCommit l.world c) 23
    (execute samplePlan sampleArgs, .init (sampleWorld (.lightweight sampleCommit)))
  have hpushed : ((play (fun l => healthy sampleObjects samplePlan sampleCommit sampleCommit l.world)
      23 (execute samplePlan sampleArgs, .init (sampleWorld
        (.lightweight sampleCommit)))).2.log.any fun e =>
      e.2.isTagPush ∧ e.1.tag = some (.lightweight sampleCommit)) := by
    decide +kernel
  obtain ⟨e, he, hpush⟩ := List.any_eq_true.mp hpushed
  obtain ⟨hcommand, htag⟩ := of_decide_eq_true hpush
  have hsanctioned := h _ _ _ _ _ _ hrun e he
  rcases e with ⟨w, c⟩
  cases c with
  | tagPush =>
      obtain ⟨o, ho⟩ := hsanctioned.2.2
      rw [ho] at htag
      exact nomatch htag
  | _ => exact absurd hcommand Bool.false_ne_true

end Konoha.Release
