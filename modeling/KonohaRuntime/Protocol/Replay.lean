/-
Protocol/Replay.lean

Runs that can be computed.  A `Host` answers every operation by a function, as a
healthy machine does: files are there or not, writes succeed, the lock is taken
when it is free.  Calls made one after the other against such a host are a run
of the system (`reaches_replay`), so a concrete run is found by evaluation.
-/
import KonohaRuntime.Protocol.Calls

namespace Effects

open Prog

namespace System

variable {W Arg : Type} {Op : Type} {Ans : Op → Type} {ε α : Type} {S : System W Arg Ans ε α}

/-- A thread that runs to its end against answers the system allows. -/
theorem run_thread {answer : W → (o : Op) → Ans o × W} {t : Tid}
    (ha : ∀ w o, S.step t w o (answer w o).1 (answer w o).2) (m : Prog Ans ε α)
    (c : Conf W Ans ε α) (ht : c.thread t = some m) :
    ∃ c', Relation.ReflTransGen S.Step c c' ∧ c'.world = (m.eval answer c.world).2 ∧
      c'.next = c.next := by
  induction m generalizing c with
  | ret a => exact ⟨c, .refl, rfl, rfl⟩
  | raise e => exact ⟨c, .refl, rfl, rfl⟩
  | op o k ih =>
      obtain ⟨c', hc', hw, hn⟩ := ih (answer c.world o).1
        { c with
          world := (answer c.world o).2
          thread := Function.update c.thread t (some (k (answer c.world o).1)) }
        (Function.update_self _ _ _)
      exact ⟨c', .head (.perform c ht (ha c.world o)) hc', hw, hn⟩

/-- The next call, run to its end. -/
theorem run_call {answer : Tid → W → (o : Op) → Ans o × W}
    (ha : ∀ t w o, S.step t w o (answer t w o).1 (answer t w o).2) (x : Arg)
    (c : Conf W Ans ε α) :
    ∃ c', Relation.ReflTransGen S.Step c c' ∧
      c'.world = ((S.call c.next x).eval (answer c.next) c.world).2 ∧ c'.next = c.next + 1 := by
  obtain ⟨c', hc', hw, hn⟩ := S.run_thread (ha c.next) (S.call c.next x)
    { c with
      thread := Function.update c.thread c.next (some (S.call c.next x))
      next := c.next + 1 } (Function.update_self _ _ _)
  exact ⟨c', .head (.spawn c x) hc', hw, hn⟩

end System

end Effects

namespace Konoha

open Effects Json

/-- What a healthy machine answers. -/
structure Host where
  now : Timestamp
  clock : PyFloat
  nonce : Nonce
  evidenceId : EvidenceId
  agentFamily : Json → Except PyExc Json
  registryData : Json
  pack : RepositoryEvidencePack
  repoRoot : String
  fileSource : SourceResolution
  readiness : ProviderReadiness
  provider : AgentAssignment → Except PyExc ProviderResult

/-- The result of a file operation on a file with this content. -/
def File.read : File → Except PyExc Json
  | .absent => .error (.fileNotFoundError "")
  | .garbage => .error (.valueError "")
  | .json v => .ok v

/-- The answers of a host to thread `t`. -/
def Host.answer (host : Host) (t : Tid) (w : World) : (o : Op) → o.Ans × World
  | .utcNow => (.ok host.now, w)
  | .time => (.ok host.clock, w)
  | .tokenHex m =>
      (.ok host.nonce, w.modify m fun d => { d with events := .drew host.nonce :: d.events })
  | .evidenceId => (.ok host.evidenceId, w)
  | .missionDirConfined _ => (.ok true, w)
  | .mkdirMission _ => (.ok (), w)
  | .isFile m f => (.ok (decide ((w m).file f ≠ .absent)), w)
  | .readJson m f => (((w m).file f).read, w)
  | .evidenceDirConfined _ => (.ok true, w)
  | .evidenceFileConfined _ _ => (.ok true, w)
  | .writeTmp m v => (.ok (), w.modify m fun d => { d with tmp := .json v })
  | .replaceState m frame written => (.ok (), w.commit t m frame written)
  | .mkdirEvidence _ => (.ok (), w)
  | .writeEvidence m id v =>
      (.ok (), w.modify m fun d =>
        { d with evidence := fun i => if i = id then .json v else d.evidence i })
  | .createLock m =>
      if (w m).lock = none then (.ok (), w.setLock m (some t))
      else (.error (.fileExistsError ""), w)
  | .closeLock _ => (.ok (), w)
  | .unlinkLock m => (.ok (), w.setLock m none)
  | .agentFamily name => (host.agentFamily name, w)
  | .registryData => (.ok host.registryData, w)
  | .loadEvidencePack _ _ => (.ok host.pack, w)
  | .repoRoot => (.ok host.repoRoot, w)
  | .isEvidenceCurrent _ => (.ok true, w)
  | .readContinuity _ => (.ok none, w)
  | .resolveFileSource _ _ _ => (.ok host.fileSource, w)
  | .probeProvider _ => (.ok host.readiness, w)
  | .gitStatus => (.ok "", w)
  | .invoke m _ _ _ frame invocation =>
      (host.provider invocation.task, w.modify m fun d =>
        { d with events := .invoked t frame invocation :: d.events })

/-- A host answers as the operations allow. -/
theorem Host.answer_step (host : Host) (t : Tid) (w : World) (o : Op) :
    step t w o (host.answer t w o).1 (host.answer t w o).2 := by
  cases o
  case isFile m f => exact ⟨rfl, fun b hb => by simp [← Except.ok.inj hb]⟩
  case readJson m f =>
    refine ⟨rfl, fun v hv => ?_⟩
    cases hf : (w m).file f <;> simp_all [Host.answer, File.read]
  case writeTmp m v => exact ⟨.json v, rfl, fun _ _ => rfl⟩
  case writeEvidence m id v => exact ⟨.json v, rfl, fun _ _ => rfl⟩
  case createLock m =>
    by_cases hl : (w m).lock = none
    · exact .inl ⟨hl, by simp [Host.answer, hl, Takes]⟩
    · exact .inr ⟨hl, by simp [Host.answer, hl]⟩
  all_goals rfl

/-- The world after the first `n` calls, made one after the other. -/
def replay (py : Stdlib) (calls : Tid → Call) (host : Host) (w₀ : World) : Nat → World
  | 0 => w₀
  | n + 1 =>
      ((executeOrResumePlan py (calls n).missionId (calls n).approval).eval (host.answer n)
        (replay py calls host w₀ n)).2

/-- **Replays are runs.** -/
theorem reaches_replay {py : Stdlib} {calls : Tid → Call} {allowed : String → File → Prop}
    {f₀ : String → File} {w₀ : World} (host : Host) (hinit : Initial allowed f₀ w₀) (n : Nat) :
    Reaches py calls allowed f₀ (replay py calls host w₀ n) := by
  have hrun : ∃ c, (runtime py calls allowed).Reachable w₀ c ∧
      c.world = replay py calls host w₀ n ∧ c.next = n := by
    induction n with
    | zero => exact ⟨Conf.init w₀, .refl, rfl, rfl⟩
    | succ n ih =>
        obtain ⟨c, hc, hw, hn⟩ := ih
        obtain ⟨c', hc', hw', hn'⟩ :=
          (runtime py calls allowed).run_call (fun t w o => host.answer_step t w o) () c
        refine ⟨c', hc.trans hc', ?_, by rw [hn', hn]⟩
        rw [hw', hw, hn]
        rfl
  obtain ⟨c, hc, hw, -⟩ := hrun
  exact ⟨w₀, c, hinit, hc, hw⟩

/-! ### What a replay leaves alone -/

/-- The operation changes no mission but `m`. -/
def Op.within (m : String) : Op → Bool
  | .tokenHex m' | .writeTmp m' _ | .replaceState m' _ _ | .writeEvidence m' _ _ | .createLock m'
  | .unlinkLock m' | .invoke m' _ _ _ _ _ => m' == m
  | _ => true

theorem Host.answer_of_ne {host : Host} {t : Tid} {w : World} {o : Op} {m m' : String}
    (ho : o.within m = true) (hm : m' ≠ m) : (host.answer t w o).2 m' = w m' := by
  cases o
  case createLock x =>
    obtain rfl : x = m := by simpa [Op.within] using ho
    by_cases hl : (w x).lock = none
    · simp [Host.answer, hl, World.setLock, World.modify_of_ne hm]
    · simp [Host.answer, hl]
  all_goals first
    | rfl
    | obtain rfl := eq_of_beq ho
      simp [Host.answer, World.commit, World.setLock, World.modify_of_ne hm]

/-- All operations of the evaluation are within `m`. -/
def Prog.evalWithin {α : Type} (host : Host) (t : Tid) (m : String) : Run α → World → Bool
  | .ret _, _ => true
  | .raise _, _ => true
  | .op o k, w =>
      o.within m && Prog.evalWithin host t m (k (host.answer t w o).1) (host.answer t w o).2

theorem eval_of_ne {α : Type} {host : Host} {t : Tid} {m m' : String} (hm : m' ≠ m) :
    ∀ {p : Run α} {w : World}, Prog.evalWithin host t m p w = true →
      (p.eval (host.answer t) w).2 m' = w m'
  | .ret _, _, _ => rfl
  | .raise _, _, _ => rfl
  | .op o k, w, h => by
      obtain ⟨ho, hk⟩ := Bool.and_eq_true_iff.mp h
      exact (eval_of_ne hm hk).trans (Host.answer_of_ne ho hm)

/-- A replay leaves the missions alone that its calls do not touch. -/
theorem replay_of_ne {py : Stdlib} {calls : Tid → Call} {host : Host} {w₀ : World}
    {m m' : String} (hm : m' ≠ m) (n : Nat)
    (h : ∀ k < n, Prog.evalWithin host k m
      (executeOrResumePlan py (calls k).missionId (calls k).approval)
      (replay py calls host w₀ k) = true) : replay py calls host w₀ n m' = w₀ m' := by
  induction n with
  | zero => rfl
  | succ n ih =>
      exact (eval_of_ne hm (h n (Nat.lt_succ_self n))).trans
        (ih fun k hk => h k (Nat.lt_succ_of_lt hk))

/-! ### A sample mission -/

/-- SHA-256 of the output of the sample provider, which is no JSON. -/
def outputDigest : Digest :=
  ⟨"2689367b205c16ce32ed4200942b8b8b1e262dfc70d9bc9fbc77c49699a4f1df",
      isHex_ofList (by decide +kernel)⟩

/-- The library functions on the texts of a sample, given the SHA-256 digests of
its plan and of its approval. -/
def sampleStdlib (plan approval : Digest) : Stdlib where
  sha256 text :=
    match text.toUTF8.data.toList.take 4 with
    | [0x7b, 0x22, 0x61, 0x63] => plan
    | [0x7b, 0x22, 0x61, 0x70] => approval
    | _ => outputDigest
  floatRepr _ := "0.0"
  lower s := s
  format _ := "None"
  repr _ := "'mission-a'"
  interpreter := usualInterpreter

def sampleAssignment (taskId gate : String) : AgentAssignment where
  taskId := .str taskId
  family := .str "genin"
  provider := .str "openai"
  model := .str "m"
  objective := .str "leer"
  inputs := .arr []
  expectedOutput := .str "resumen"
  dependencies := .arr []
  privateContext := .bool false
  network := .bool false
  mutation := .bool false
  estimatedInputTokens := .int 1
  estimatedOutputTokens := .int 1
  estimatedTotalTokens := .int 2
  costClass := .str "low"
  fallback := .null
  stopCondition := .str "fin"
  executionGate := .str gate

def samplePlan (status : String) (assignments : List AgentAssignment) : MissionPlan where
  missionId := "mission-a"
  understanding := .str "u"
  explicitFacts := .arr []
  missingContext := .arr []
  assumptionsProhibited := .arr []
  complexity := .str "low"
  assignments := assignments
  acceptanceCriteria := .arr []
  approvalBoundaries := .arr []
  estimatedTokens := .int 2
  estimatedCostClass := .str "low"
  rationale := .str "r"
  approval := .obj [("status", .str status)]
  teachbackPolicy := .obj []
  workspacePolicy := .obj []
  budget := .obj []
  governance := .obj []
  planHash := .str ""
  missionConstraints := null
  repositoryEvidence := null

def sampleHost : Host where
  now := newYear
  clock := ⟨0⟩
  nonce := ⟨"00000000000000000000000000000000", isHex_ofList (by decide)⟩
  evidenceId := ⟨"evidence-000000000000", by decide +kernel⟩
  agentFamily := fun _ => .ok (.obj [])
  registryData := .obj []
  pack := ⟨null, [], null⟩
  repoRoot := "/"
  fileSource := ⟨"", .missing, none, [], null⟩
  readiness := ⟨true, []⟩
  provider := fun _ => .ok ⟨"ok", .obj [], .arr []⟩

/-- The mission directory before the first call. -/
def sampleWorld (plan : MissionPlan) : World := fun m =>
  { plan := if m = plan.missionId then .json (.obj plan.asdict) else .absent
    state := .absent
    tmp := .absent
    evidence := fun _ => .absent
    lock := none
    events := [] }

/-- Nobody edits the plans of the sample. -/
def unedited (plan : MissionPlan) (m : String) (f : File) : Prop := f = (sampleWorld plan m).plan

theorem initial_sampleWorld (plan : MissionPlan) {allowed : String → File → Prop}
    (h : ∀ m, allowed m (sampleWorld plan m).plan) :
    Initial allowed (fun _ => .absent) (sampleWorld plan) :=
  ⟨h, fun _ => rfl, fun _ => rfl, fun _ => rfl⟩

/-- The only plan to be read is the one of the sample. -/
theorem parsePlan_unedited {py : Stdlib} {plan : MissionPlan} {m : String} {v : Json}
    (h : unedited plan m (.json v)) : parsePlan py m v = .ok plan := by
  simp only [unedited, sampleWorld] at h
  split at h
  · rename_i hm
    obtain rfl := File.json.inj h
    subst hm
    exact parsePlan_asdict py plan
  · cases h

/-- Calls one after the other on the sample mission. -/
theorem reaches_sample (py : Stdlib) (calls : Tid → Call) (host : Host) (plan : MissionPlan)
    (n : Nat) :
    Reaches py calls (unedited plan) (fun _ => .absent)
      (replay py calls host (sampleWorld plan) n) := by
  have hinit : Initial (unedited plan) (fun _ => .absent) (sampleWorld plan) :=
    initial_sampleWorld plan fun _ => rfl
  exact reaches_replay host hinit n

/-- One separately gated assignment under an approved plan. -/
def gatedPlan : MissionPlan :=
  samplePlan "approved" [sampleAssignment "t1" "separate_human_approval"]

def gatedPlanDigest : Digest :=
  ⟨"64d42fd3e7f6cf635e41a6100327950bbd97a0a9b1f6f542a7a9bef8f5a88928",
      isHex_ofList (by decide +kernel)⟩

def gatedStdlib : Stdlib :=
  sampleStdlib gatedPlanDigest
    ⟨"3799be7c251fd593a90de48a8f3eff890cb794ba81d469437fde96d83a25e177",
        isHex_ofList (by decide +kernel)⟩

/-- The approval that the waiting state of the sample asks for. -/
def gatedApproval : AssignmentApproval where
  missionId := "mission-a"
  taskId := "t1"
  executionGate := "separate_human_approval"
  planIdentity := gatedPlanDigest.1
  approvalNonce := sampleHost.nonce.1
  approvalText :=
    ":aprobar-assignment mission-a t1 separate_human_approval 64d42fd3e7f6cf635e41a6100327950bbd97a0a9b1f6f542a7a9bef8f5a88928 00000000000000000000000000000000"
  approvalSource := "interactive_terminal"
  approvedAt := "2026-01-01T00:00:00+00:00"

/-- A first call without an approval, all others with it. -/
def gatedCalls : Tid → Call
  | 0 => ⟨"mission-a", .absent⟩
  | _ => ⟨"mission-a", .given gatedApproval⟩

/-- The two calls that run the sample: its provider does not answer in JSON. -/
def gatedRun : World := replay gatedStdlib gatedCalls sampleHost (sampleWorld gatedPlan) 2

/-- The history of the sample, newest first: the nonce, the state that waits with it, the state that
executes, the provider call and the state that fails. -/
def gatedHistory : List Event → Bool
  | [.persisted _ _ _, .invoked _ fr inv, .persisted _ _ _, .persisted _ _ _, .drew n] =>
      (match fr.approval with
        | .given a => decide (a = gatedApproval)
        | _ => false) && inv.executing.nextAssignmentIndex == 0 &&
        inv.task.executionGate == separateHumanApproval && n == sampleHost.nonce
  | _ => false

/-- One evaluation of the sample, of its history and of the missions it touches. -/
theorem gatedRun_evaluates :
    gatedHistory (gatedRun "mission-a").events = true ∧ ∀ k < 2,
      Prog.evalWithin sampleHost k "mission-a"
        (executeOrResumePlan gatedStdlib (gatedCalls k).missionId (gatedCalls k).approval)
        (replay gatedStdlib gatedCalls sampleHost (sampleWorld gatedPlan) k) = true := by
  decide +kernel

/-- The events of the sample, newest first. -/
theorem gatedRun_events : ∃ t fr inv t₁ fr₁ s₁ t₂ fr₂ s₂ t₃ fr₃ s₃,
    (gatedRun "mission-a").events =
        [.persisted t₃ fr₃ s₃, .invoked t fr inv, .persisted t₂ fr₂ s₂, .persisted t₁ fr₁ s₁,
          .drew sampleHost.nonce] ∧
      fr.approval = .given gatedApproval ∧ inv.executing.nextAssignmentIndex = 0 ∧
      inv.task.executionGate = separateHumanApproval := by
  have h := gatedRun_evaluates.1
  rw [gatedHistory.eq_def] at h
  split at h
  · rename_i t₃ fr₃ s₃ t fr inv t₂ fr₂ s₂ t₁ fr₁ s₁ n hevents
    simp only [Bool.and_eq_true, beq_iff_eq] at h
    obtain ⟨⟨⟨happroval, hindex⟩, hgate⟩, rfl⟩ := h
    refine ⟨t, fr, inv, t₁, fr₁, s₁, t₂, fr₂, s₂, t₃, fr₃, s₃, hevents, ?_, hindex, hgate⟩
    split at happroval
    · rename_i a ha
      rw [ha, of_decide_eq_true happroval]
    · cases happroval
  · cases h

/-- The sample calls touch no other mission. -/
theorem gatedRun_of_ne {m : String} (hm : m ≠ "mission-a") :
    gatedRun m = sampleWorld gatedPlan m :=
  replay_of_ne hm 2 gatedRun_evaluates.2

end Konoha
