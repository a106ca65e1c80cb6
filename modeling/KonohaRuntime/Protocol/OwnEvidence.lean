/-
Protocol/OwnEvidence.lean

The runtime's own evidence.  `_run_assignment` takes a usage from the provider and two
readings of the wall clock into its record; `_verify_completed_evidence` wants counts
that are natural numbers and readings in order.

`own_evidence_verified_iff`: files that nobody has touched are taken back, as the
records they were, exactly when every one of their assignments had such a usage and such
readings.
-/
import KonohaRuntime.Effects.Eval
import KonohaRuntime.Runtime.Adapters
import KonohaRuntime.Protocol.Replay

namespace Konoha

open Effects Json Prog

variable {py : Stdlib}

/-! ### Running an assignment -/

/-- What one assignment finds: the clock before and after it, the provider, git. -/
structure Surroundings where
  started : PyFloat
  finished : PyFloat
  cli : CliHost
  cwd : String
  gitStatus : Except PyExc String
  evidenceId : EvidenceId

/-- Its answers; the number counts how often the clock has been read. -/
def Surroundings.answer (py : Stdlib) (s : Surroundings) (n : Nat) : (o : Op) → o.Ans × Nat
  | .time => (.ok (if n = 0 then s.started else s.finished), n + 1)
  | .gitStatus => (s.gitStatus, n)
  | .evidenceId => (.ok s.evidenceId, n)
  | .invoke _ provider prompt model _ _ => (invoke py s.cli provider prompt s.cwd model, n)
  | _ => (.error .interrupt, n)

/-- An assignment that has been completed, with the usage that its provider printed. -/
structure OwnRun (py : Stdlib) (m : String) where
  frame : Frame
  invocation : Invocation
  baseline : String
  bundle : List (String × Json)
  surroundings : Surroundings
  usage : List (String × Json)
  record : EvidenceRecord
  diagnostic : String
  mission : frame.plan.missionId = m
  ran : ((runAssignment py frame invocation baseline bundle).eval (surroundings.answer py) 0).1 =
    .ok (record, diagnostic)
  completed : record.status = .completed
  printed : record.tokenUsage = .obj (normalizeUsage usage)

/-- What the verifier asks of the inputs of an assignment. -/
structure OwnRun.Sound {m : String} (r : OwnRun py m) : Prop where
  counts : Countable r.usage
  finite : r.surroundings.started.isFinite = true ∧ r.surroundings.finished.isFinite = true
  ordered : r.surroundings.started.toRat ≤ r.surroundings.finished.toRat
  named : nonEmptyStr r.invocation.task.taskId = true

theorem eval_perform {W : Type} {h : W → (o : Op) → o.Ans × W} {o : Op} {w : W} :
    (perform o).eval h w = h w o := by
  rcases hres : h w o with ⟨e | v, w'⟩ <;> simp [perform, Prog.eval, hres]

theorem eval_lift {W α : Type} {h : W → (o : Op) → o.Ans × W} {x : Except PyExc α} {w : W} :
    (lift x).eval h w = (x, w) := by
  cases x <;> rfl

section Record

variable {s : Surroundings} {frame : Frame} {invocation : Invocation} {baseline : String}
variable {bundle : List (String × Json)}

/-- The provider has been called, and its usage and command are those of the outcome. -/
def Called (py : Stdlib) (s : Surroundings) (task : AgentAssignment) (outcome : Outcome) : Prop :=
  ∃ prompt text, invoke py s.cli task.provider prompt s.cwd task.model =
    .ok ⟨text, outcome.usage, outcome.command⟩

theorem eval_callProvider {outcome : Outcome} {n n' : Nat}
    (h : (callProvider py frame invocation bundle).eval (s.answer py) n = (.ok outcome, n'))
    (hcompleted : outcome.status = .completed) : n' = n ∧ Called py s invocation.task outcome := by
  unfold callProvider at h
  dsimp only at h
  split at h
  · cases h
    cases hcompleted
  · rename_i prompt _
    obtain ⟨called, n₁, hcalled, h⟩ := eval_bind_eq_ok.mp h
    rw [eval_attempt, eval_perform] at hcalled
    cases hcalled
    split at h
    · split at h
      · cases h
        cases hcompleted
      · cases h
    · rename_i result hresult
      obtain ⟨⟨status, diagnostic⟩, n₂, hlift, h⟩ := eval_bind_eq_ok.mp h
      rw [eval_lift] at hlift
      obtain ⟨-, rfl⟩ := Prod.mk.inj hlift
      cases h
      exact ⟨rfl, prompt, result.text, hresult⟩

theorem eval_callProvider_of {prompt : String} {text : PyStr} {usage command : Json}
    {status : EvidenceStatus} {diagnostic : String} {n : Nat}
    (hprompt : taskPrompt py frame.plan invocation.task invocation.family bundle = .ok prompt)
    (hinvoke : invoke py s.cli invocation.task.provider prompt s.cwd invocation.task.model =
      .ok ⟨text, usage, command⟩)
    (houtcome : assignmentOutcome py.interpreter text invocation.task.family =
      .ok (status, diagnostic)) :
    (callProvider py frame invocation bundle).eval (s.answer py) n =
      (.ok ⟨status, diagnostic, text, usage, command⟩, n) := by
  have hanswer : (Prog.attempt (perform (.invoke frame.plan.missionId invocation.task.provider
      prompt invocation.task.model frame invocation))).eval (s.answer py) n =
      (.ok (.ok ⟨text, usage, command⟩), n) := by
    rw [eval_attempt, eval_perform]
    exact Prod.ext (congrArg Except.ok hinvoke) rfl
  have hlift : (lift (assignmentOutcome py.interpreter text invocation.task.family)).eval
      (s.answer py) n = (.ok (status, diagnostic), n) := by
    rw [eval_lift, houtcome]
  unfold callProvider
  dsimp only
  rw [hprompt]
  exact (eval_bind_ok hanswer).trans (eval_bind_ok hlift)

theorem eval_checkWorkspace {called outcome : Outcome} {n n' : Nat}
    (h : (checkWorkspace baseline called).eval (s.answer py) n = (.ok outcome, n'))
    (hcompleted : outcome.status = .completed) : n' = n ∧ outcome = called := by
  unfold checkWorkspace at h
  obtain ⟨after, n₁, hafter, h⟩ := eval_bind_eq_ok.mp h
  rw [eval_attempt, eval_perform] at hafter
  cases hafter
  split at h
  · cases h
    cases hcompleted
  · cases h
  · split at h
    · cases h
      exact ⟨rfl, rfl⟩
    · cases h
      cases hcompleted

/-- The record of a completed assignment. -/
theorem eval_runAssignment {record : EvidenceRecord} {diagnostic : String}
    (h : ((runAssignment py frame invocation baseline bundle).eval (s.answer py) 0).1 =
      .ok (record, diagnostic)) (hcompleted : record.status = .completed) :
    ∃ outcome output, Called py s invocation.task outcome ∧ record =
      { evidenceId := s.evidenceId
        missionId := frame.plan.missionId
        taskId := invocation.task.taskId
        provider := invocation.task.provider
        model := invocation.task.model
        status := .completed
        output := output
        tokenUsage := outcome.usage
        command := outcome.command
        startedAt := .float s.started
        finishedAt := .float s.finished
        outputHash := py.sha256 output } := by
  obtain ⟨n', h⟩ : ∃ n', (runAssignment py frame invocation baseline bundle).eval (s.answer py) 0 =
      (.ok (record, diagnostic), n') := ⟨_, Prod.ext h rfl⟩
  unfold runAssignment at h
  obtain ⟨started, n₁, hstarted, h⟩ := eval_bind_eq_ok.mp h
  rw [eval_perform] at hstarted
  cases hstarted
  obtain ⟨called, n₂, hcalled, h⟩ := eval_bind_eq_ok.mp h
  obtain ⟨outcome, n₃, houtcome, h⟩ := eval_bind_eq_ok.mp h
  obtain ⟨finished, n₄, hfinished, h⟩ := eval_bind_eq_ok.mp h
  rw [eval_perform] at hfinished
  obtain ⟨id, n₅, hid, h⟩ := eval_bind_eq_ok.mp h
  rw [eval_perform] at hid
  cases hid
  obtain ⟨output, n₆, hencode, h⟩ := eval_bind_eq_ok.mp h
  rw [eval_lift] at hencode
  obtain ⟨-, rfl⟩ := Prod.mk.inj hencode
  cases h
  replace hcompleted : outcome.status = .completed := hcompleted
  obtain ⟨rfl, rfl⟩ := eval_checkWorkspace houtcome hcompleted
  obtain ⟨rfl, hcall⟩ := eval_callProvider hcalled hcompleted
  cases hfinished
  exact ⟨outcome, output, hcall, by rw [hcompleted]; rfl⟩

/-- The record of a call that the workspace has stood. -/
theorem eval_runAssignment_of {status : EvidenceStatus} {diagnostic output : String}
    {usage command : Json}
    (hcalled : (callProvider py frame invocation bundle).eval (s.answer py) 1 =
      (.ok ⟨status, diagnostic, output, usage, command⟩, 1))
    (hgit : s.gitStatus = .ok baseline) :
    ((runAssignment py frame invocation baseline bundle).eval (s.answer py) 0).1 =
      .ok ({ evidenceId := s.evidenceId
             missionId := frame.plan.missionId
             taskId := invocation.task.taskId
             provider := invocation.task.provider
             model := invocation.task.model
             status := status
             output := output
             tokenUsage := usage
             command := command
             startedAt := .float s.started
             finishedAt := .float s.finished
             outputHash := py.sha256 output }, diagnostic) := by
  have hworkspace : (checkWorkspace baseline ⟨status, diagnostic, output, usage, command⟩).eval
      (s.answer py) 1 = (.ok ⟨status, diagnostic, output, usage, command⟩, 1) := by
    have hstatus : (Prog.attempt (perform .gitStatus)).eval (s.answer py) 1 =
        (.ok (.ok baseline), 1) := by
      rw [eval_attempt, eval_perform]
      exact Prod.ext (congrArg Except.ok hgit) rfl
    refine (eval_bind_ok hstatus).trans ?_
    dsimp only
    rw [if_pos rfl]
    rfl
  have hencode : (lift (PyStr.encode output)).eval (s.answer py) 2 = (.ok output, 2) := by
    rw [eval_lift, PyStr.encode_ofString]
  unfold runAssignment
  rw [eval_bind_ok (eval_perform (o := .time)), eval_bind_ok hcalled, eval_bind_ok hworkspace,
    eval_bind_ok (eval_perform (o := .time)), eval_bind_ok (eval_perform (o := .evidenceId)),
    eval_bind_ok hencode]
  rfl

end Record

/-! ### Verifying it later -/

theorem nonBlank_of_isMissionId {m : String} (h : isMissionId m = true) : nonBlank m = true := by
  unfold isMissionId afterPrefix at h
  split at h
  · rename_i hstarts
    have hmem : 'm' ∈ m.toList :=
      (List.isPrefixOf_iff_prefix.mp hstarts).subset (by decide : 'm' ∈ "mission-".toList)
    exact nonBlank_iff.mpr ⟨'m', hmem, by decide⟩
  · cases h

namespace OwnRun

variable {m : String}

/-- The verifier takes the record back exactly under the conditions on the inputs. -/
theorem verifiable_iff (r : OwnRun py m) (hm : isMissionId m = true) :
    Verifiable py m r.record ↔ r.Sound := by
  obtain ⟨outcome, output, ⟨prompt, text, hinvoke⟩, hrecord⟩ := eval_runAssignment r.ran r.completed
  obtain ⟨raw, hdelivered⟩ := delivered_invoke hinvoke
  have hprinted : outcome.usage = .obj (normalizeUsage r.usage) := by
    rw [← r.printed, hrecord]
  have hprovider : nonEmptyStr r.invocation.task.provider = true := by
    have h := hdelivered.provider
    simp only [List.mem_cons, List.not_mem_nil, or_false] at h
    rcases h with h | h | h <;> rw [h] <;> decide
  rw [hrecord]
  constructor
  · intro h
    refine ⟨?_, ⟨h.startedAt, h.finishedAt⟩, h.ordered, h.taskId⟩
    exact isTokenUsage_normalizeUsage.mp (hprinted ▸ h.tokenUsage)
  · intro h
    exact {
      missionId := ⟨r.mission, nonBlank_of_isMissionId hm⟩
      taskId := h.named
      provider := hprovider
      model := hdelivered.model
      status := rfl
      tokenUsage := hprinted ▸ isTokenUsage_normalizeUsage.mpr h.counts
      command := hdelivered.command
      startedAt := h.finite.1
      finishedAt := h.finite.2
      ordered := h.ordered
      outputHash := rfl }

end OwnRun

section Verify

variable {m : String} {host : Host} {t : Tid} {w : World}

theorem eval_missionDir (hm : isMissionId m = true) :
    (missionDir py m).eval (host.answer t) w = (.ok (), w) := by
  unfold missionDir
  rw [if_neg (by simp [hm])]
  rfl

theorem eval_verifyEvidenceFile {taskId v : Json} {id : EvidenceId}
    (h : (w m).evidence id = .json v) :
    (verifyEvidenceFile py m taskId id).eval (host.answer t) w =
      (.ok (parseEvidence py m taskId id v), w) := by
  have hconfined : (perform (.evidenceFileConfined m id)).eval (host.answer t) w = (.ok true, w) :=
    eval_perform
  have hisFile : (perform (.isFile m (.evidence id))).eval (host.answer t) w = (.ok true, w) := by
    rw [eval_perform]
    show (Except.ok (decide ((w m).evidence id ≠ .absent)), w) = _
    rw [h]
    rfl
  have hread : (perform (.readJson m (.evidence id))).attempt.eval (host.answer t) w =
      (.ok (.ok v), w) := by
    rw [eval_attempt, eval_perform]
    show (Except.ok ((w m).evidence id).read, w) = _
    rw [h]
    rfl
  exact (eval_bind_ok hconfined).trans ((eval_bind_ok hisFile).trans ((eval_bind_ok hread).trans rfl))

/-- A file that is taken back, and then the others. -/
theorem eval_verifyEvidenceFiles_some {ids : List (Json × EvidenceId)} {taskId : Json}
    {rest : List Json} {id : EvidenceId} {record : EvidenceRecord}
    {found : Option (List EvidenceRecord)} (hget : dictGet taskId ids = some id)
    (hfile : (verifyEvidenceFile py m taskId id).eval (host.answer t) w = (.ok (some record), w))
    (hrest : (verifyEvidenceFiles py m ids rest).eval (host.answer t) w = (.ok found, w)) :
    (verifyEvidenceFiles py m ids (taskId :: rest)).eval (host.answer t) w =
      (.ok (found.map (record :: ·)), w) := by
  rw [verifyEvidenceFiles, hget]
  refine (eval_bind_ok hfile).trans ((eval_bind_ok hrest).trans ?_)
  cases found <;> rfl

/-- A file that is not ends the loop. -/
theorem eval_verifyEvidenceFiles_none {ids : List (Json × EvidenceId)} {taskId : Json}
    {rest : List Json} {id : EvidenceId} (hget : dictGet taskId ids = some id)
    (hfile : (verifyEvidenceFile py m taskId id).eval (host.answer t) w = (.ok none, w)) :
    (verifyEvidenceFiles py m ids (taskId :: rest)).eval (host.answer t) w = (.ok none, w) := by
  rw [verifyEvidenceFiles, hget]
  exact (eval_bind_ok hfile).trans rfl

theorem eval_verifyEvidenceFiles (hm : isMissionId m = true) {ids : List (Json × EvidenceId)}
    {runs : List (OwnRun py m)}
    (hget : ∀ r ∈ runs, dictGet r.record.taskId ids = some r.record.evidenceId)
    (hfiles : ∀ r ∈ runs, (w m).evidence r.record.evidenceId = .json r.record.asdict) :
    ∃ found, (verifyEvidenceFiles py m ids (runs.map fun r => r.record.taskId)).eval
        (host.answer t) w = (.ok found, w) ∧
      (found = some (runs.map OwnRun.record) ↔ ∀ r ∈ runs, r.Sound) := by
  induction runs with
  | nil => exact ⟨some [], rfl, by simp⟩
  | cons r rest ih =>
      obtain ⟨found, hrest, hiff⟩ := ih (fun r' h => hget r' (List.mem_cons_of_mem _ h))
        (fun r' h => hfiles r' (List.mem_cons_of_mem _ h))
      have hparse : ∀ r', parseEvidence py m r.record.taskId r.record.evidenceId r.record.asdict =
          some r' ↔ Verifiable py m r.record ∧ r' = r.record := fun r' => parseEvidence_asdict
      have hfile : (verifyEvidenceFile py m r.record.taskId r.record.evidenceId).eval
          (host.answer t) w = (.ok (parseEvidence py m r.record.taskId r.record.evidenceId
            r.record.asdict), w) := eval_verifyEvidenceFile (hfiles r List.mem_cons_self)
      by_cases hsound : r.Sound
      · rw [(hparse r.record).mpr ⟨(r.verifiable_iff hm).mpr hsound, rfl⟩] at hfile
        refine ⟨_, eval_verifyEvidenceFiles_some (hget r List.mem_cons_self) hfile hrest, ?_⟩
        rw [List.forall_mem_cons, ← hiff, and_iff_right hsound]
        cases found <;> simp
      · have hnone : parseEvidence py m r.record.taskId r.record.evidenceId r.record.asdict = none := by
          rcases e : parseEvidence py m r.record.taskId r.record.evidenceId r.record.asdict with - | r'
          · rfl
          · exact absurd ((r.verifiable_iff hm).mp ((hparse r').mp e).1) hsound
        rw [hnone] at hfile
        exact ⟨none, eval_verifyEvidenceFiles_none (hget r List.mem_cons_self) hfile,
          by simp [hsound]⟩

/-- **The runtime takes its own evidence back**, for inputs that are sound: in a later
call the files of completed assignments, untouched, are verified as the records they were
if and only if every provider printed natural numbers as its counts and every clock went
forward. -/
theorem own_evidence_verified_iff (hm : isMissionId m = true) {plan : MissionPlan}
    {state : ExecutionState} {runs : List (OwnRun py m)} (hplan : plan.missionId = m)
    (hids : state.completedTaskIds = runs.map fun r => r.record.taskId)
    (hget : ∀ r ∈ runs,
      dictGet r.record.taskId state.evidenceIdsByTask = some r.record.evidenceId)
    (hfiles : ∀ r ∈ runs, (w m).evidence r.record.evidenceId = .json r.record.asdict) :
    (verifyCompletedEvidence py plan state).eval (host.answer t) w =
      (.ok (some (runs.map OwnRun.record)), w) ↔ ∀ r ∈ runs, r.Sound := by
  obtain ⟨found, hfound, hiff⟩ :
      ∃ found, (verifyEvidenceFiles py m state.evidenceIdsByTask
          (runs.map fun r => r.record.taskId)).eval (host.answer t) w = (.ok found, w) ∧
        (found = some (runs.map OwnRun.record) ↔ ∀ r ∈ runs, r.Sound) :=
    eval_verifyEvidenceFiles hm hget hfiles
  have hconfined : (perform (.evidenceDirConfined m)).eval (host.answer t) w = (.ok true, w) :=
    eval_perform
  have heval : (verifyCompletedEvidence py plan state).eval (host.answer t) w = (.ok found, w) := by
    unfold verifyCompletedEvidence
    rw [hplan, hids]
    exact (eval_bind_ok (eval_missionDir hm)).trans ((eval_bind_ok hconfined).trans hfound)
  rw [heval, ← hiff]
  simp

end Verify

/-! ### A sample assignment -/

/-- The library functions on the sample. -/
def completedStdlib : Stdlib where
  sha256 _ := outputDigest
  floatRepr _ := "0.0"
  lower s := s
  format _ := "None"
  repr _ := "'mission-a'"
  interpreter := usualInterpreter

/-- What Ollama prints. -/
def completedText : String :=
  "\x7b\"outcome\":\"completed\",\"objective_satisfied\":true,\"summary\":\"leído\"," ++
    "\"diagnostic\":null,\"evidence\":[],\"review_outcome\":null\x7d"

/-- Ollama ends well, and the clock reads `started` before and `finished` after. -/
def ollamaSurroundings (started finished : PyFloat) : Surroundings where
  started := started
  finished := finished
  cli :=
    { which := fun _ => some "/usr/bin/ollama"
      schemaPath := .ok "/schema.json"
      transportSchema := ""
      run := fun _ _ => .ok ⟨0, completedText, ""⟩ }
  cwd := "/"
  gitStatus := .ok ""
  evidenceId := sampleHost.evidenceId

def ollamaTask : AgentAssignment :=
  { sampleAssignment "t1" "plan_approval" with provider := .str "ollama" }

def ollamaFrame : Frame where
  plan := samplePlan "approved" [ollamaTask]
  state := newExecutionState completedStdlib (samplePlan "approved" [ollamaTask])
    "2026-01-01T00:00:00+00:00"
  approval := .absent

def ollamaRecord (started finished : PyFloat) : EvidenceRecord where
  evidenceId := sampleHost.evidenceId
  missionId := "mission-a"
  taskId := .str "t1"
  provider := .str "ollama"
  model := .str "m"
  status := .completed
  output := completedText
  tokenUsage := .obj []
  command := .arr [.str "/usr/bin/ollama", .str "run", .str "--nowordwrap", .str "--format",
    .str "json", .str "m"]
  startedAt := .float started
  finishedAt := .float finished
  outputHash := outputDigest

/-- The text of Ollama counts as completed; nothing in it depends on the clock. -/
theorem completedText_evaluates :
    assignmentOutcome completedStdlib.interpreter completedText ollamaTask.family =
      .ok (.completed, "completed") ∧
    strip completedText = completedText ∧ completedText ≠ "" ∧
    (taskPrompt completedStdlib ollamaFrame.plan ollamaTask (.obj []) []).isOk = true := by
  refine ⟨?_, ?_, ?_, ?_⟩
  all_goals decide +kernel

theorem invokeOllama_of {host : CliHost} {prompt exe schema : String} {model : Json}
    {cp : CompletedProcess} (hwhich : host.which "ollama" = some exe)
    (hschema : host.schemaPath = .ok schema)
    (hrun : runCli host [.str exe, .str "run", .str "--nowordwrap", .str "--format", .str "json",
      model] (some prompt) = .ok cp) (hcode : cp.returncode = 0)
    {text : String} (hstrip : strip cp.stdout = text) (htext : text ≠ "") :
    invokeOllama py host prompt model = .ok ⟨text, .obj [], .arr [.str exe, .str "run",
      .str "--nowordwrap", .str "--format", .str "json", model]⟩ := by
  unfold invokeOllama
  have hbind {α β : Type} (a : α) (f : α → Except PyExc β) : (Except.ok a >>= f) = f a := rfl
  simp only [hwhich, hschema, hbind, hrun, hcode, hstrip, htext, ne_eq, not_true_eq_false, if_false]
  rfl

theorem invoke_ollama (started finished : PyFloat) (prompt : String) :
    invoke completedStdlib (ollamaSurroundings started finished).cli ollamaTask.provider prompt "/"
      ollamaTask.model =
      .ok ⟨completedText, .obj [], (ollamaRecord started finished).command⟩ := by
  have hcodex : ollamaTask.provider ≠ .str "codex" := by decide
  have hclaude : ollamaTask.provider ≠ .str "claude" := by decide
  have hollama : ollamaTask.provider = .str "ollama" := by decide
  have hmodel : ollamaTask.model ≠ .str "provider_default" := by decide
  obtain ⟨-, hstrip, hblank, -⟩ := completedText_evaluates
  unfold invoke
  rw [if_neg hcodex, if_neg hclaude, if_pos hollama, if_neg hmodel]
  have hrun : runCli (ollamaSurroundings started finished).cli [.str "/usr/bin/ollama", .str "run",
      .str "--nowordwrap", .str "--format", .str "json", ollamaTask.model] (some prompt) =
      .ok ⟨0, completedText, ""⟩ := rfl
  exact invokeOllama_of rfl rfl hrun rfl hstrip hblank

theorem eval_ollama (started finished : PyFloat) :
    ((runAssignment completedStdlib ollamaFrame ⟨ollamaTask, .obj [], [], ollamaFrame.state⟩ ""
      []).eval ((ollamaSurroundings started finished).answer completedStdlib) 0).1 =
      .ok (ollamaRecord started finished, "completed") := by
  obtain ⟨prompt, hprompt⟩ : ∃ prompt,
      taskPrompt completedStdlib ollamaFrame.plan ollamaTask (.obj []) [] = .ok prompt := by
    have hok := completedText_evaluates.2.2.2
    rcases e : taskPrompt completedStdlib ollamaFrame.plan ollamaTask (.obj []) [] with _ | prompt
    · rw [e] at hok
      cases hok
    · exact ⟨prompt, rfl⟩
  have hcalled : (callProvider completedStdlib ollamaFrame
      ⟨ollamaTask, .obj [], [], ollamaFrame.state⟩ []).eval
      ((ollamaSurroundings started finished).answer completedStdlib) 1 =
      (.ok ⟨.completed, "completed", completedText, .obj [], (ollamaRecord started finished).command⟩, 1) := by
    exact eval_callProvider_of hprompt (invoke_ollama started finished prompt) completedText_evaluates.1
  exact eval_runAssignment_of hcalled rfl

def ollamaRun (started finished : PyFloat) : OwnRun completedStdlib "mission-a" where
  frame := ollamaFrame
  invocation := ⟨ollamaTask, .obj [], [], ollamaFrame.state⟩
  baseline := ""
  bundle := []
  surroundings := ollamaSurroundings started finished
  usage := []
  record := ollamaRecord started finished
  diagnostic := "completed"
  mission := rfl
  ran := eval_ollama started finished
  completed := rfl
  printed := rfl

/-- A later state in which the sample task has been completed. -/
def ollamaState : ExecutionState :=
  { ollamaFrame.state with
    completedTaskIds := [.str "t1"]
    evidenceIdsByTask := [(.str "t1", sampleHost.evidenceId)] }

/-- The disk with the record of the sample. -/
def ollamaWorld (started finished : PyFloat) : World := fun m =>
  { sampleWorld ollamaFrame.plan m with
    evidence := fun _ => .json (ollamaRecord started finished).asdict }

/-- 1.0 and 2.0 -/
def firstReading : PyFloat := ⟨0x3ff0000000000000⟩
def secondReading : PyFloat := ⟨0x4000000000000000⟩

/-- With a clock that goes forward the record is taken back. -/
theorem ollamaRun_verified :
    (verifyCompletedEvidence completedStdlib ollamaFrame.plan ollamaState).eval
      (sampleHost.answer 0) (ollamaWorld firstReading secondReading) =
      (.ok (some [ollamaRecord firstReading secondReading]),
        ollamaWorld firstReading secondReading) := by
  have hids : ollamaState.completedTaskIds =
      [ollamaRun firstReading secondReading].map fun r => r.record.taskId := rfl
  have hm : isMissionId "mission-a" = true := by decide
  refine (own_evidence_verified_iff hm rfl hids ?_ ?_).mpr ?_
  · intro r hr
    obtain rfl := List.mem_singleton.mp hr
    rfl
  · intro r hr
    obtain rfl := List.mem_singleton.mp hr
    rfl
  · intro r hr
    obtain rfl := List.mem_singleton.mp hr
    exact ⟨isTokenUsage_normalizeUsage.mp (by decide), by decide, by decide +kernel, by decide⟩

/-- **A clock that is set back** between the two readings makes the runtime's own record
missing or corrupt. -/
theorem setBackRun_refused :
    ∃ r : OwnRun completedStdlib "mission-a",
      r.record = ollamaRecord secondReading firstReading ∧
      ((verifyCompletedEvidence completedStdlib ollamaFrame.plan ollamaState).eval
        (sampleHost.answer 0) (ollamaWorld secondReading firstReading)).1 = .ok none := by
  refine ⟨ollamaRun secondReading firstReading, rfl, ?_⟩
  decide +kernel

end Konoha
