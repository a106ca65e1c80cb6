/-
Protocol/Calls.lean

The proof that one call of `execute_or_resume_plan` keeps the protocol, one
specification for each function of the executor.  `Holds t m h f` carries the
events and the state file from operation to operation; what a function persists
is justified where it is persisted, by the constructor of `Legal` it stands for.

The result is `runtime_legal`.
-/
import KonohaRuntime.Protocol.Refinement

namespace Konoha

open Effects Json

variable {py : Stdlib} {calls : Tid → Call} {allowed : String → File → Prop}
variable {f₀ : String → File}
variable {t : Tid} {m : String} {h : List Event} {f : File}

/-! ### Reading the plan and the state -/

section Loading

variable {R : Prog.Rules World Op.Ans} [ht : OfThread R t] {A : World → Prop}

include ht in
/-- A plan is read from a content that `plan.json` can have. -/
theorem triple_loadPersistedPlan {G : File → Prop} (hA : Prog.Stable R A)
    (hG : ∀ w, A w → R.inv w → G (w m).plan) :
    Prog.Triple R A (loadPersistedPlan py m)
      (fun plan w => ((∃ v, G (.json v) ∧ parsePlan py m v = .ok plan) ∧ plan.missionId = m) ∧ A w)
      (fun _ => A) := by
  have hread : Prog.Triple R A (perform (.readJson m .plan))
      (fun raw w => G (.json raw) ∧ A w) (fun _ => A) := by
    refine triple_observe _ rfl hA fun w v hw hi hst => ?_
    rw [← show (w m).plan = .json v from hst.2 v rfl]
    exact hG w hw hi
  refine ((triple_reading (reading_missionDir py m) hA).conseq (fun _ h => h)
    (fun _ _ h => h.2) fun _ _ h => h.2).bind fun _ => ?_
  refine (triple_read _ rfl hA).bind fun isFile => ?_
  split
  · refine ((triple_caught hread).conseq (fun _ h => h) (fun _ _ h => h)
      fun _ _ h => h.elim).bind fun r => ?_
    cases r with
    | error e =>
        dsimp only
        split <;> exact Prog.Triple.raise fun w hw => hw.2 e rfl
    | ok raw =>
        intro w hw
        obtain ⟨hraw, hw⟩ := hw.1 raw rfl
        dsimp only
        cases hp : parsePlan py m raw with
        | error e => exact hw
        | ok plan => exact ⟨⟨⟨raw, hraw, hp⟩, parsePlan_missionId hp⟩, hw⟩
  · exact Prog.Triple.raise fun w hw => hw

/-- What `_load_execution_state` returned is what the file holds. -/
def LoadsOption (py : Stdlib) (m : String) (f : File) (existing : Option ExecutionState) : Prop :=
  (existing = none ∧ f = .absent) ∨
    ∃ s v, existing = some s ∧ f = .json v ∧ parseExecutionState py m v = .ok s

theorem LoadsOption.loads {existing : Option ExecutionState} (hl : LoadsOption py m f existing)
    (plan : MissionPlan) (approval : ApprovalArg) (now : Timestamp) :
    Loads py m f ⟨plan, existing.getD (newExecutionState py plan now.1), approval⟩ := by
  rcases hl with ⟨rfl, rfl⟩ | ⟨s, v, rfl, rfl, hv⟩
  · exact .inl ⟨rfl, now, rfl⟩
  · exact .inr ⟨v, rfl, hv⟩

include ht in
theorem triple_loadExecutionState (hA : Prog.Stable R A) (hf : ∀ w, A w → (w m).state = f) :
    Prog.Triple R A (loadExecutionState py m)
      (fun existing w => LoadsOption py m f existing ∧ A w) (fun _ => A) := by
  have hfile : Prog.Triple R A (perform (.isFile m .state))
      (fun b w => (b = true ↔ f ≠ .absent) ∧ A w) (fun _ => A) :=
    triple_observe _ rfl hA fun w b hw _ hst => hf w hw ▸ hst.2 b rfl
  have hread : Prog.Triple R A (perform (.readJson m .state))
      (fun raw w => f = .json raw ∧ A w) (fun _ => A) :=
    triple_observe _ rfl hA fun w v hw _ hst => hf w hw ▸ hst.2 v rfl
  refine ((triple_reading (reading_missionDir py m) hA).conseq (fun _ h => h)
    (fun _ _ h => h.2) fun _ _ h => h.2).bind fun _ => ?_
  refine hfile.bind fun isFile => ?_
  cases isFile with
  | false =>
      refine Prog.Triple.ret fun w hw => ⟨.inl ⟨rfl, ?_⟩, hw.2⟩
      simpa using hw.1
  | true =>
      refine ((triple_caught (hread.conseq (fun _ h => h.2) (fun _ _ h => h)
        fun _ _ h => h)).conseq (fun _ h => h) (fun _ _ h => h) fun _ _ h => h.elim).bind
          fun r => ?_
      cases r with
      | error e =>
          dsimp only
          split <;> exact Prog.Triple.raise fun w hw => hw.2 e rfl
      | ok raw =>
          intro w hw
          obtain ⟨hraw, hw⟩ := hw.1 raw rfl
          dsimp only
          cases hp : parseExecutionState py m raw with
          | error e => exact hw
          | ok s => exact ⟨.inr ⟨s, raw, rfl, hraw, hp⟩, hw⟩

end Loading

/-! ### Persisting a state -/

/-- Persisting `s` is a step of the protocol. -/
def MayPersist (py : Stdlib) (calls : Tid → Call) (allowed : String → File → Prop)
    (f₀ : String → File) (t : Tid) (m : String) (h : List Event) (f : File) (frame : Frame)
    (s : ExecutionState) : Prop :=
  s.missionId = m ∧ (Legal py m (Permits py calls allowed m) (f₀ m) h f →
    Legal py m (Permits py calls allowed m) (f₀ m) (.persisted t frame s :: h) (.json (s.asdict py)))

theorem triple_saveExecutionState {frame : Frame} {s : ExecutionState}
    (hs : MayPersist py calls allowed f₀ t m h f frame s) :
    Prog.Triple (callRules py calls allowed f₀ t) (Holds t m h f) (saveExecutionState py frame s)
      (fun _ => Holds t m (.persisted t frame s :: h) (.json (s.asdict py)))
      (fun _ => Held t m) := by
  obtain ⟨rfl, hlegal⟩ := hs
  refine ((triple_reading (reading_missionDir py _) stable_holds).conseq (fun _ h => h)
    (fun _ _ h => h.2) fun _ _ h => h.2.held).bind fun _ => ?_
  refine ((triple_read _ rfl stable_holds).conseq (fun _ h => h) (fun _ _ h => h)
    fun _ _ h => h.held).bind fun _ => ?_
  have hwrite : Prog.Triple (callRules py calls allowed f₀ t) (Holds t s.missionId h f)
      (perform (.writeTmp s.missionId (s.asdict py)))
      (fun _ => Staged t s.missionId h f (.json (s.asdict py))) (fun _ => Held t s.missionId) := by
    refine triple_perform stable_holds ?_
    rintro w r w' hw hsound ⟨content, rfl, hr⟩
    obtain ⟨hl, he, hst⟩ := hw
    refine ⟨sound_modify hsound rfl (hsound _).2, guarantees_modify hl (.inl hl), ?_, ?_⟩
    · intro v hv
      refine ⟨⟨?_, ?_, ?_⟩, ?_⟩ <;> simp only [World.modify_same]
      · exact hl
      · exact he
      · exact hst
      · exact hr v hv
    · intro e _
      simpa [Held] using hl
  refine hwrite.bind fun _ => triple_perform stable_staged ?_
  rintro w r w' ⟨⟨hl, he, hst⟩, htmp⟩ hsound hstep
  have hlegal' := hlegal (he ▸ hst ▸ (hsound s.missionId).2)
  have hdone : Sound py calls allowed f₀ (w.commit t s.missionId frame s) ∧
      Guarantees t w (w.commit t s.missionId frame s) ∧
      Holds t s.missionId (.persisted t frame s :: h) (.json (s.asdict py))
        (w.commit t s.missionId frame s) := by
    refine ⟨sound_modify hsound rfl ?_, guarantees_modify hl (.inl hl), ?_⟩
    · simpa only [htmp, he] using hlegal'
    · exact ⟨by simpa [World.commit] using hl, by simp [World.commit, he],
        by simpa [World.commit] using htmp⟩
  cases r with
  | ok v =>
      obtain rfl : w' = w.commit t s.missionId frame s := hstep
      exact ⟨hdone.1, hdone.2.1, fun _ _ => hdone.2.2, by rintro _ ⟨⟩⟩
  | error e =>
      rcases hstep with rfl | ⟨-, rfl⟩
      · exact ⟨hsound, Guarantees.refl t _, by rintro _ ⟨⟩, fun _ _ => hl⟩
      · exact ⟨hdone.1, hdone.2.1, by rintro _ ⟨⟩, fun _ _ => hdone.2.2.held⟩

/-- A successful write is on disk; after any other the lock is still held. -/
theorem triple_trySaveExecutionState {frame : Frame} {s : ExecutionState}
    (hs : MayPersist py calls allowed f₀ t m h f frame s) :
    Prog.Triple (callRules py calls allowed f₀ t) (Holds t m h f) (trySaveExecutionState py frame s)
      (fun ok w => Held t m w ∧
        (ok = true → Holds t m (.persisted t frame s :: h) (.json (s.asdict py)) w))
      (fun _ => Held t m) := by
  refine ((triple_caught (triple_saveExecutionState hs)).conseq (fun _ h => h) (fun _ _ h => h)
    fun _ _ h => h.elim).bind fun r => ?_
  cases r with
  | ok u => exact Prog.Triple.ret fun w hw => ⟨(hw.1 u rfl).held, fun _ => hw.1 u rfl⟩
  | error e =>
      dsimp only
      split
      · exact Prog.Triple.ret fun w hw => ⟨hw.2 e rfl, by rintro ⟨⟩⟩
      · exact Prog.Triple.raise fun w hw => hw.2 e rfl

theorem triple_settle {frame : Frame} {s : ExecutionState} {d onFailure : String}
    (hs : MayPersist py calls allowed f₀ t m h f frame s) :
    Prog.Triple (callRules py calls allowed f₀ t) (Holds t m h f) (settle py frame s d onFailure)
      (fun _ => Held t m) (fun _ => Held t m) := by
  refine (triple_trySaveExecutionState hs).bind fun ok => ?_
  split <;> exact Prog.Triple.ret fun w hw => hw.1

/-! ### Code that only reads -/

theorem reading_verifyEvidenceFile (py : Stdlib) (m : String) (taskId : Json) (id : EvidenceId) :
    Reading (fun r => ∀ record, r = some record → record.taskId = taskId) (fun _ => True)
      (verifyEvidenceFile py m taskId id) := by
  unfold verifyEvidenceFile
  refine (reading_perform _ rfl).seq fun confined _ => ?_
  split
  · refine (reading_perform _ rfl).seq fun isFile _ => ?_
    split
    · refine (reading_perform (.readJson m (.evidence id)) rfl).caught.seq fun r _ => ?_
      split
      · split
        · rintro _ ⟨⟩
        · trivial
      · exact fun record hr => (parseEvidence_some hr).1
    · rintro _ ⟨⟩
  · rintro _ ⟨⟩

theorem reading_verifyEvidenceFiles (py : Stdlib) (m : String) (ids : List (Json × EvidenceId))
    (tasks : List Json) :
    Reading (fun r => ∀ records, r = some records → records.map (·.taskId) = tasks)
      (fun _ => True) (verifyEvidenceFiles py m ids tasks) := by
  induction tasks with
  | nil =>
      rintro _ ⟨⟩
      rfl
  | cons taskId rest ih =>
      unfold verifyEvidenceFiles
      split
      · rintro _ ⟨⟩
      · refine (reading_verifyEvidenceFile py m taskId _).seq fun r hr => ?_
        split
        · rintro _ ⟨⟩
        · refine ih.seq fun rs hrs => ?_
          split
          · rintro _ ⟨⟩
          · rintro _ ⟨⟩
            simp [hr _ rfl, hrs _ rfl]

/-- The records of `_verify_completed_evidence` are those of the completed
tasks, in order. -/
theorem reading_verifyCompletedEvidence (py : Stdlib) (plan : MissionPlan)
    (state : ExecutionState) :
    Reading (fun r => ∀ records, r = some records →
        records.map (·.taskId) = state.completedTaskIds)
      (fun _ => True) (verifyCompletedEvidence py plan state) := by
  unfold verifyCompletedEvidence
  refine (reading_missionDir py _).seq fun _ _ => (reading_perform _ rfl).seq fun confined _ => ?_
  split
  · exact reading_verifyEvidenceFiles py _ _ _
  · rintro _ ⟨⟩

theorem reading_readinessDiagnostic (py : Stdlib) (task : AgentAssignment) :
    Reading (fun _ => True) (fun _ => True) (readinessDiagnostic py task) := by
  refine (reading_perform (.probeProvider task.provider) rfl).seq fun readiness _ => ?_
  split
  · trivial
  · split <;> trivial

/-! ### Running the assignment -/

/-- The run of `inv` is under way: `executing` is on disk, and the last event is
its begin or its provider call. -/
def Running (py : Stdlib) (t : Tid) (m : String) (fr : Frame) (inv : Invocation) (w : World) :
    Prop :=
  ∃ h, Underway t fr inv h ∧ Holds t m h (.json (inv.executing.asdict py)) w

theorem stable_running {fr : Frame} {inv : Invocation} :
    Prog.Stable (callRules py calls allowed f₀ t) (Running py t m fr inv) := by
  rintro w w' ⟨h, hu, hw⟩ hr
  exact ⟨h, hu, stable_holds w w' hw hr⟩

theorem Running.held {fr : Frame} {inv : Invocation} {w : World}
    (hw : Running py t m fr inv w) : Held t m w := by
  obtain ⟨h, -, hw⟩ := hw
  exact hw.held

/-- No reason code is blank. -/
theorem nonBlank_of_mem_outcomeCodes {r : EvidenceStatus × String} (h : r ∈ outcomeCodes) :
    nonBlank r.2 = true := by
  simp only [outcomeCodes, List.mem_cons, List.not_mem_nil, or_false] at h
  rcases h with rfl | rfl | rfl | rfl | rfl | rfl | rfl <;> exact nonBlank_ofList_cons rfl

theorem nonBlank_processError (text : PyStr) :
    nonBlank (processError text).diagnostic = true :=
  nonBlank_ofList_cons rfl

theorem triple_callProvider {fr : Frame} {inv : Invocation} {id : Option Digest}
    {bundle : List (String × Json)} (hm : fr.plan.missionId = m)
    (hp : Permits py calls allowed m t fr) (hc : Cleared py fr inv id) :
    Prog.Triple (callRules py calls allowed f₀ t)
      (Holds t m (.persisted t fr inv.executing :: h) (.json (inv.executing.asdict py)))
      (callProvider py fr inv bundle)
      (fun o w => nonBlank o.diagnostic = true ∧ Running py t m fr inv w)
      (fun _ => Held t m) := by
  have hinvoke : ∀ prompt, Prog.Triple (callRules py calls allowed f₀ t)
      (Holds t m (.persisted t fr inv.executing :: h) (.json (inv.executing.asdict py)))
      (perform (.invoke fr.plan.missionId inv.task.provider prompt inv.task.model fr inv))
      (fun _ => Running py t m fr inv) (fun _ => Running py t m fr inv) := by
    subst hm
    refine fun prompt => triple_perform stable_holds ?_
    rintro w r w' ⟨hl, he, hs⟩ hsound rfl
    have hrun : Running py t fr.plan.missionId fr inv
        (w.modify fr.plan.missionId fun d => { d with events := .invoked t fr inv :: d.events }) :=
      ⟨.invoked t fr inv :: .persisted t fr inv.executing :: h, .inr ⟨_, rfl⟩, by
        simp [Holds, hl, he, hs]⟩
    refine ⟨sound_modify hsound rfl ?_, guarantees_modify hl (.inl hl), fun _ _ => hrun,
      fun _ _ => hrun⟩
    have hlegal := (hsound fr.plan.missionId).2
    rw [he, hs] at hlegal ⊢
    exact Legal.invoke hlegal hp hc
  unfold callProvider
  dsimp only
  split
  · exact Prog.Triple.ret fun w hw => ⟨nonBlank_processError _, _, .inl ⟨h, rfl⟩, hw⟩
  · rename_i prompt _
    refine ((triple_caught (hinvoke prompt)).conseq (fun _ h => h) (fun _ _ h => h)
      fun _ _ h => h.elim).bind fun r => ?_
    cases r with
    | error e =>
        dsimp only
        split
        · exact Prog.Triple.ret fun w hw => ⟨nonBlank_processError _, hw.2 e rfl⟩
        · exact Prog.Triple.raise fun w hw => (hw.2 e rfl).held
    | ok result =>
        intro w hw
        have hw := hw.1 result rfl
        dsimp only
        cases ho : assignmentOutcome py.interpreter result.text inv.task.family with
        | error e => exact hw.held
        | ok o => exact ⟨nonBlank_of_mem_outcomeCodes (assignmentOutcome_mem ho), hw⟩

theorem nonBlank_gitDiagnostic (d : GitDiagnostic) : nonBlank d.text = true := by
  cases d <;> exact nonBlank_ofList_cons rfl

theorem reading_checkWorkspace (baseline : String) (outcome : Outcome)
    (ho : nonBlank outcome.diagnostic = true) :
    Reading (fun o => nonBlank o.diagnostic = true) (fun _ => True)
      (checkWorkspace baseline outcome) := by
  refine (reading_perform .gitStatus rfl).caught.seq fun r _ => ?_
  split
  · exact nonBlank_gitDiagnostic _
  · trivial
  · split
    · exact ho
    · exact (by decide : nonBlank "workspace_mutation_detected" = true)

theorem triple_runAssignment {fr : Frame} {inv : Invocation} {id : Option Digest}
    {baseline : String} {bundle : List (String × Json)} (hm : fr.plan.missionId = m)
    (hp : Permits py calls allowed m t fr) (hc : Cleared py fr inv id) :
    Prog.Triple (callRules py calls allowed f₀ t)
      (Holds t m (.persisted t fr inv.executing :: h) (.json (inv.executing.asdict py)))
      (runAssignment py fr inv baseline bundle)
      (fun r w => (r.1.missionId = m ∧ nonBlank r.2 = true) ∧ Running py t m fr inv w)
      (fun _ => Held t m) := by
  refine ((triple_read .time rfl stable_holds).conseq (fun _ h => h) (fun _ _ h => h)
    fun _ _ h => h.held).bind fun started => ?_
  refine (triple_callProvider hm hp hc).bind fun called => Prog.Triple.of_pure fun hd => ?_
  refine ((triple_reading (reading_checkWorkspace baseline called hd) stable_running).conseq
    (fun _ h => h) (fun _ _ h => h) fun _ _ h => h.2.held).bind fun outcome =>
      Prog.Triple.of_pure fun hd => ?_
  refine ((triple_read .time rfl stable_running).conseq (fun _ h => h) (fun _ _ h => h)
    fun _ _ h => h.held).bind fun finished => ?_
  refine ((triple_read .evidenceId rfl stable_running).conseq (fun _ h => h) (fun _ _ h => h)
    fun _ _ h => h.held).bind fun id => ?_
  intro w hw
  cases outcome.output.encode with
  | error e => exact hw.held
  | ok output => exact ⟨⟨hm, hd⟩, hw⟩

theorem triple_tryPersistEvidence {fr : Frame} {inv : Invocation} {record : EvidenceRecord}
    (hm : record.missionId = m) :
    Prog.Triple (callRules py calls allowed f₀ t) (Running py t m fr inv) (tryPersistEvidence record)
      (fun _ => Running py t m fr inv) (fun _ => Held t m) := by
  subst hm
  have hwrite : Prog.Triple (callRules py calls allowed f₀ t) (Running py t record.missionId fr inv)
      (perform (.writeEvidence record.missionId record.evidenceId record.asdict))
      (fun _ => Running py t record.missionId fr inv)
      (fun _ => Running py t record.missionId fr inv) := by
    refine triple_perform stable_running ?_
    rintro w r w' ⟨h, hu, hl, he, hs⟩ hsound ⟨content, rfl, -⟩
    have hrun : Running py t record.missionId fr inv (w.modify record.missionId fun d =>
        { d with evidence := fun i => if i = record.evidenceId then content else d.evidence i }) :=
      ⟨h, hu, by simpa [Holds] using ⟨hl, he, hs⟩⟩
    exact ⟨sound_modify hsound rfl (hsound _).2, guarantees_modify hl (.inl hl),
      fun _ _ => hrun, fun _ _ => hrun⟩
  have hpersist : Prog.Triple (callRules py calls allowed f₀ t) (Running py t record.missionId fr inv)
      (persist record) (fun _ => Running py t record.missionId fr inv)
      (fun _ => Running py t record.missionId fr inv) :=
    (triple_read _ rfl stable_running).bind fun _ => hwrite
  refine ((triple_caught hpersist).conseq (fun _ h => h) (fun _ _ h => h)
    fun _ _ h => h.elim).bind fun r => ?_
  cases r with
  | ok u => exact Prog.Triple.ret fun w hw => hw.1 u rfl
  | error e =>
      dsimp only
      split
      · exact Prog.Triple.ret fun w hw => hw.2 e rfl
      · exact Prog.Triple.raise fun w hw => (hw.2 e rfl).held

/-! ### The locked step -/

theorem Loads.missionId {fr : Frame} (hf : Loads py m f fr) (hm : fr.plan.missionId = m) :
    fr.state.missionId = m := by
  rcases hf with ⟨-, now, hs⟩ | ⟨v, -, hv⟩
  · rw [hs]
    exact hm
  · exact (readable_of_parse hv).missionId

theorem transitionAfterAssignment_missionId (executing : ExecutionState) (plan : MissionPlan)
    (task : AgentAssignment) (evidence : EvidenceRecord) (id : Option Digest) (d u : String) :
    (transitionAfterAssignment executing plan task evidence id d u).missionId =
      executing.missionId := by
  unfold transitionAfterAssignment
  split <;> rfl

/-- What a call has established once it has read plan and state. -/
structure Working (py : Stdlib) (calls : Tid → Call) (allowed : String → File → Prop) (t : Tid)
    (m : String) (f : File) (fr : Frame) : Prop where
  permits : Permits py calls allowed m t fr
  missionId : fr.plan.missionId = m
  loads : Loads py m f fr

variable {fr : Frame} {task : AgentAssignment} {records : List EvidenceRecord}
variable {id : Option Digest} {now : Timestamp}

theorem Working.move (hw : Working py calls allowed t m f fr) {s : ExecutionState} (hs : Move py fr s)
    (hm : s.missionId = fr.state.missionId) : MayPersist py calls allowed f₀ t m h f fr s :=
  ⟨hm.trans (hw.loads.missionId hw.missionId), fun hl => Legal.move hl hw.permits hw.loads hs⟩

theorem triple_recover (hw : Working py calls allowed t m f fr) {diagnostic : String}
    (hd : nonBlank diagnostic = true) (hn : NeedsRecovery py fr diagnostic) :
    Prog.Triple (callRules py calls allowed f₀ t) (Holds t m h f) (recover py now fr diagnostic)
      (fun _ => Held t m) (fun _ => Held t m) :=
  triple_settle (hw.move (.recover diagnostic now hd hn) rfl)

theorem triple_failBeforeExecution (hw : Working py calls allowed t m f fr) (hr : Ready py fr task)
    {diagnostic : String} (hd : nonBlank diagnostic = true) :
    Prog.Triple (callRules py calls allowed f₀ t) (Holds t m h f)
      (failBeforeExecution py now fr task diagnostic id)
      (fun _ => Held t m) (fun _ => Held t m) :=
  triple_settle (hw.move (.fail task diagnostic id now hr hd) rfl)

theorem triple_unchanged {d : String} :
    Prog.Triple (callRules py calls allowed f₀ t) (Holds t m h f)
      (Prog.ret (unchanged fr d) : Run ExecutionAttempt) (fun _ => Held t m) (fun _ => Held t m) :=
  Prog.Triple.ret fun _ hw => hw.held

theorem triple_raise {e : PyExc} :
    Prog.Triple (callRules py calls allowed f₀ t) (Holds t m h f)
      (Prog.raise e : Run ExecutionAttempt) (fun _ => Held t m) (fun _ => Held t m) :=
  Prog.Triple.raise fun _ hw => hw.held

/-- Reading, and going on in the same state with what was read. -/
theorem triple_reading_bind {α : Type} {r : Run α} {Q : α → Prop} {E : PyExc → Prop}
    {k : α → Run ExecutionAttempt} (hr : Reading Q E r)
    (hk : ∀ a, Q a → Prog.Triple (callRules py calls allowed f₀ t) (Holds t m h f) (k a)
      (fun _ => Held t m) (fun _ => Held t m)) :
    Prog.Triple (callRules py calls allowed f₀ t) (Holds t m h f) (r >>= k)
      (fun _ => Held t m) (fun _ => Held t m) :=
  ((triple_reading hr stable_holds).conseq (fun _ h => h) (fun _ _ h => h)
    fun _ _ h => h.2.held).bind fun a => Prog.Triple.of_pure (hk a)

theorem triple_execute (hw : Working py calls allowed t m f fr) {family : Json}
    {bundle : List (String × Json)} {baseline : String}
    (hc : Cleared py fr ⟨task, family, records, transitionToExecuting fr.state task id now.1⟩ id) :
    Prog.Triple (callRules py calls allowed f₀ t) (Holds t m h f)
      (execute py now fr task family records bundle baseline id)
      (fun _ => Held t m) (fun _ => Held t m) := by
  have hid := hw.loads.missionId hw.missionId
  have hbegin : MayPersist py calls allowed f₀ t m h f fr
      (transitionToExecuting fr.state task id now.1) :=
    ⟨hid, fun hl => Legal.begin hl hw.permits hw.loads hc⟩
  refine (triple_trySaveExecutionState hbegin).bind fun ok => ?_
  cases ok with
  | false => exact Prog.Triple.ret fun w hw => hw.1
  | true =>
      refine Prog.Triple.conseq ?_ (fun w hw => hw.2 rfl) (fun _ _ h => h) fun _ _ h => h
      refine (triple_runAssignment hw.missionId hw.permits hc).bind fun r =>
        Prog.Triple.of_pure fun hr => ?_
      obtain ⟨evidence, diagnostic⟩ := r
      refine (triple_tryPersistEvidence hr.1).bind fun ok => ?_
      cases ok with
      | false => exact Prog.Triple.ret fun w hw => hw.held
      | true =>
          refine ((triple_read .utcNow rfl stable_running).conseq (fun _ h => h) (fun _ _ h => h)
            fun _ _ h => h.held).bind fun finishedAt => ?_
          refine Prog.Triple.of_exists fun h' => Prog.Triple.of_pure fun hu => ?_
          have hfinish : MayPersist py calls allowed f₀ t m h'
              (.json ((transitionToExecuting fr.state task id now.1).asdict py)) fr
              (transitionAfterAssignment (transitionToExecuting fr.state task id now.1) fr.plan
                task evidence id diagnostic finishedAt.1) :=
            ⟨(transitionAfterAssignment_missionId ..).trans hid,
              fun hl => Legal.finish hl hu hw.permits hc ⟨evidence, diagnostic, finishedAt, hr.2⟩⟩
          refine (triple_trySaveExecutionState hfinish).bind fun ok => ?_
          split <;> exact Prog.Triple.ret fun w hw => hw.1

theorem triple_prepare (hw : Working py calls allowed t m f fr) (hr : Ready py fr task)
    (himm : task.mutation.truthy = false) (hopen : Opened py fr task id)
    (hrec : records.map (·.taskId) = fr.state.completedTaskIds) :
    Prog.Triple (callRules py calls allowed f₀ t) (Holds t m h f)
      (prepare py now fr task records id) (fun _ => Held t m) (fun _ => Held t m) := by
  refine triple_reading_bind (reading_perform (.agentFamily task.family) rfl).caught fun r _ => ?_
  split
  · exact triple_failBeforeExecution hw hr (nonBlank_ofList_cons rfl)
  · exact triple_raise
  · rename_i family _
    refine triple_reading_bind (reading_requiredSourcesGate py fr.plan task family records)
      fun gate hgate => ?_
    split
    · exact triple_unchanged
    rename_i hnone
    refine triple_reading_bind (reading_readinessDiagnostic py task) fun readiness _ => ?_
    split
    · exact triple_unchanged
    refine triple_reading_bind (reading_perform .gitStatus rfl).caught fun status _ => ?_
    split
    · exact triple_failBeforeExecution hw hr (nonBlank_gitDiagnostic _)
    · exact triple_raise
    · exact triple_execute hw ⟨hr, himm, hopen, hrec, hgate hnone, now, rfl⟩

/-- Asking for an approval: a nonce is drawn and the waiting state persisted. -/
theorem triple_ask (hw : Working py calls allowed t m f fr) (hr : Ready py fr task)
    (hs : fr.state.status = .inProgress) (hg : task.executionGate = separateHumanApproval)
    {d onFailure : String} :
    Prog.Triple (callRules py calls allowed f₀ t) (Holds t m h f)
      (perform (.tokenHex m) >>= fun n =>
        settle py fr (transitionToWaiting fr.state task n "esperando aprobación humana" now.1)
          d onFailure)
      (fun _ => Held t m) (fun _ => Held t m) := by
  have hdraw : Prog.Triple (callRules py calls allowed f₀ t) (Holds t m h f) (perform (.tokenHex m))
      (fun n => Holds t m (.drew n :: h) f) (fun _ => Held t m) := by
    refine triple_perform stable_holds ?_
    rintro w r w' ⟨hl, he, hst⟩ hsound hstep
    cases r with
    | error e =>
        obtain rfl := hstep
        exact ⟨hsound, Guarantees.refl t _, by rintro _ ⟨⟩, fun _ _ => hl⟩
    | ok n =>
        obtain rfl := hstep
        refine ⟨sound_modify hsound rfl (.draw n (hsound m).2), guarantees_modify hl (.inl hl),
          ?_, by rintro _ ⟨⟩⟩
        rintro _ ⟨⟩
        simpa [Holds] using ⟨hl, he, hst⟩
  refine hdraw.bind fun n => triple_settle ⟨hw.loads.missionId hw.missionId, fun hl => ?_⟩
  exact Legal.wait hl hw.permits hw.loads hr hs hg now

theorem triple_separateGate (hw : Working py calls allowed t m f fr) (hr : Ready py fr task)
    (himm : task.mutation.truthy = false) (hg : task.executionGate = separateHumanApproval)
    (hrec : records.map (·.taskId) = fr.state.completedTaskIds) :
    Prog.Triple (callRules py calls allowed f₀ t) (Holds t m h f)
      (separateGate py now fr task records) (fun _ => Held t m) (fun _ => Held t m) := by
  unfold separateGate
  split
  · rename_i hs
    rw [hw.missionId]
    exact triple_ask hw hr (hr.resumable.resolve_right hs) hg
  · split
    · exact triple_unchanged
    split
    · exact triple_unchanged
    · rename_i hv
      obtain ⟨a, ha, rfl, hauth⟩ := validateAssignmentApproval_eq_valid_iff.mp hv
      exact triple_prepare hw hr himm (.byHuman a ha hauth) hrec

theorem triple_startTask (hw : Working py calls allowed t m f fr) (hr : Ready py fr task)
    (hrec : records.map (·.taskId) = fr.state.completedTaskIds) :
    Prog.Triple (callRules py calls allowed f₀ t) (Holds t m h f)
      (startTask py now fr task records) (fun _ => Held t m) (fun _ => Held t m) := by
  unfold startTask
  split
  · exact triple_settle (hw.move (.block task now hr) rfl)
  rename_i himm
  have himm : task.mutation.truthy = false := by simpa using himm
  split
  · rename_i hg
    refine triple_reading_bind (reading_lift _) fun status hstatus => ?_
    split
    · rename_i happroved
      exact triple_prepare hw hr himm (.byPlan hg (hstatus.trans (by rw [happroved]))) hrec
    · exact triple_unchanged
  split
  · rename_i hg
    exact triple_separateGate hw hr himm hg hrec
  · exact triple_failBeforeExecution hw hr (nonBlank_ofList_cons rfl)

/-- No diagnostic of the state checks is blank. -/
theorem nonBlank_of_validate {plan : MissionPlan} {s : ExecutionState} {d : String}
    (h : validateExecutionStateInvariants py plan s = .ok (some d)) : nonBlank d = true := by
  have hstarts : ∀ {d}, verifyPrefix plan s = some d → nonBlank d = true := by
    intro d hd
    unfold verifyPrefix at hd
    split_ifs at hd <;> cases hd <;> exact nonBlank_ofList_cons rfl
  have hstatus : ∀ {d}, statusError plan s = some d → nonBlank d = true := by
    intro d hd
    unfold statusError unlessHolds at hd
    split at hd <;> split at hd <;> cases hd <;> exact nonBlank_ofList_cons rfl
  unfold validateExecutionStateInvariants at h
  cases hv : verifyPrefix plan s with
  | some d' =>
      rw [hv] at h
      split_ifs at h <;> cases h <;> first
        | exact hstarts hv
        | exact nonBlank_ofList_cons rfl
  | none =>
      rw [hv] at h
      dsimp only at h
      split_ifs at h
      case neg => exact hstatus (Except.ok.inj h)
      all_goals cases h
      all_goals exact nonBlank_ofList_cons rfl

theorem triple_resume (hw : Working py calls allowed t m f fr) :
    Prog.Triple (callRules py calls allowed f₀ t) (Holds t m h f) (resume py now fr)
      (fun _ => Held t m) (fun _ => Held t m) := by
  unfold resume
  refine triple_reading_bind (reading_lift _) fun verdict hverdict => ?_
  split
  · exact triple_recover hw (nonBlank_of_validate hverdict) (.inl hverdict)
  have hcoh := validate_eq_none_iff.mp hverdict
  split
  · exact triple_unchanged
  rename_i hres
  have hres : fr.state.status.nonResumable = false := by simpa using hres
  split
  · exact triple_recover hw (nonBlank_ofList_cons rfl) (.inr ⟨hcoh, hres⟩)
  rename_i hexec
  have hresumable : fr.state.status = .inProgress ∨ fr.state.status = .waitingForApproval := by
    cases hst : fr.state.status <;> simp_all [ExecutionStatus.nonResumable]
  refine triple_reading_bind (reading_verifyCompletedEvidence py fr.plan fr.state)
    fun verified hverified => ?_
  split
  · exact triple_recover hw (nonBlank_ofList_cons rfl) (.inr ⟨hcoh, hres⟩)
  split
  · exact triple_recover hw (nonBlank_ofList_cons rfl) (.inr ⟨hcoh, hres⟩)
  · rename_i hcur
    exact triple_startTask hw ⟨hcoh, hresumable, hcur⟩ (hverified _ rfl)

theorem triple_executeOrResumePlanLocked {approval : ApprovalArg}
    (ha : approval = (calls t).approval) :
    Prog.Triple (callRules py calls allowed f₀ t) (Holds t m h f)
      (executeOrResumePlanLocked py m approval) (fun _ => Held t m) (fun _ => Held t m) := by
  refine triple_reading_bind (reading_perform .utcNow rfl) fun now _ => ?_
  have hplan : Prog.Triple (callRules py calls allowed f₀ t) (Holds t m h f)
      (loadPersistedPlan py m)
      (fun plan w => (PlanAllowed py allowed m plan ∧ plan.missionId = m) ∧ Holds t m h f w)
      (fun _ => Holds t m h f) :=
    triple_loadPersistedPlan stable_holds fun w _ hi => (hi m).1
  refine ((triple_caught hplan).conseq (fun _ h => h) (fun _ _ h => h)
    fun _ _ h => h.elim).bind fun r => ?_
  cases r with
  | error e =>
      intro w hw
      split
      · exact (hw.2 _ rfl).held
      · exact (hw.2 _ rfl).held
      · contradiction
  | ok plan =>
      dsimp only
      refine Prog.Triple.conseq ?_ (fun w hw => hw.1 plan rfl) (fun _ _ h => h) fun _ _ h => h
      refine Prog.Triple.of_pure fun hplan => ?_
      split
      · exact Prog.Triple.ret fun w hw => hw.held
      refine ((triple_caught (triple_loadExecutionState stable_holds fun w hw => hw.2.2)).conseq
        (fun _ h => h) (fun _ _ h => h) fun _ _ h => h.elim).bind fun r => ?_
      cases r with
      | error e =>
          intro w hw
          split
          · exact (hw.2 _ rfl).held
          · exact (hw.2 _ rfl).held
          · contradiction
      | ok existing =>
          dsimp only
          refine Prog.Triple.conseq ?_ (fun w hw => hw.1 existing rfl) (fun _ _ h => h)
            fun _ _ h => h
          refine Prog.Triple.of_pure fun hloads => triple_resume ?_
          exact ⟨⟨hplan.1, ha⟩, hplan.2, hloads.loads plan approval now⟩

/-! ### The mission lock -/

/-- Thread `t` does not own the lock of `m`. -/
def NotHeld (t : Tid) (m : String) (w : World) : Prop := (w m).lock ≠ some t

theorem triple_unlinkLock :
    Prog.Triple (callRules py calls allowed f₀ t) (Held t m) (perform (.unlinkLock m))
      (fun _ _ => True) (fun _ _ => True) := by
  refine triple_perform stable_held ?_
  rintro w r w' hl hsound htakes
  have hdone : Sound py calls allowed f₀ (w.setLock m none) ∧ Guarantees t w (w.setLock m none) :=
    ⟨sound_modify hsound rfl (hsound m).2, guarantees_modify hl (.inr rfl)⟩
  cases r with
  | ok v =>
      obtain rfl := htakes
      exact ⟨hdone.1, hdone.2, fun _ _ => trivial, fun _ _ => trivial⟩
  | error e =>
      rcases htakes with rfl | ⟨-, rfl⟩
      · exact ⟨hsound, Guarantees.refl t _, fun _ _ => trivial, fun _ _ => trivial⟩
      · exact ⟨hdone.1, hdone.2, fun _ _ => trivial, fun _ _ => trivial⟩

/-- Nothing is known of the lock once it may have been removed. -/
theorem triple_unlink_bind {β : Type} {k : Except PyExc Unit → Run β} {Q : β → World → Prop}
    {E : PyExc → World → Prop}
    (hk : ∀ r, Prog.Triple (callRules py calls allowed f₀ t) (fun _ => True) (k r) Q E) :
    Prog.Triple (callRules py calls allowed f₀ t) (Held t m)
      ((perform (.unlinkLock m)).attempt >>= k) Q E :=
  (triple_unlinkLock.attempt (fun _ _ _ => trivial) fun _ _ _ => trivial).bind hk

/-- A call that returns `true` owns the lock; one that returns `false` does not. -/
theorem triple_acquire :
    Prog.Triple (callRules py calls allowed f₀ t) (NotHeld t m) (acquire m)
      (fun owned w => owned = true → Held t m w) (fun _ _ => True) := by
  have hcreate : Prog.Triple (callRules py calls allowed f₀ t) (NotHeld t m) (perform (.createLock m))
      (fun _ => Held t m) (fun _ _ => True) := by
    refine triple_perform stable_notOwner ?_
    have hset : ∀ {w : World}, Sound py calls allowed f₀ w → (w m).lock = none →
        Sound py calls allowed f₀ (w.setLock m (some t)) ∧ Guarantees t w (w.setLock m (some t)) := by
      intro w hsound hnone
      refine ⟨sound_modify hsound rfl (hsound m).2, fun t' hne m' => ?_⟩
      by_cases hm : m' = m
      · subst hm
        simp [World.setLock, hnone, hne]
      · rw [World.setLock, World.modify_of_ne hm]
        exact ⟨fun _ => ⟨rfl, rfl, rfl, rfl⟩, id⟩
    rintro w r w' - hsound (⟨hnone, htakes⟩ | ⟨-, rfl, e, rfl⟩)
    · cases r with
      | ok v =>
          obtain rfl := htakes
          exact ⟨(hset hsound hnone).1, (hset hsound hnone).2,
            fun _ _ => by simp [Held, World.setLock], fun _ _ => trivial⟩
      | error e =>
          rcases htakes with rfl | ⟨-, rfl⟩
          · exact ⟨hsound, Guarantees.refl t _, by rintro _ ⟨⟩, fun _ _ => trivial⟩
          · exact ⟨(hset hsound hnone).1, (hset hsound hnone).2, by rintro _ ⟨⟩,
              fun _ _ => trivial⟩
    · exact ⟨hsound, Guarantees.refl t _, by rintro _ ⟨⟩, fun _ _ => trivial⟩
  refine ((triple_reading (reading_perform (.mkdirMission m) rfl).caught stable_notOwner).conseq
    (fun _ h => h) (fun _ _ h => h.2) fun _ _ _ => trivial).bind fun r => ?_
  split
  · split <;> exact Prog.Triple.raise fun _ _ => trivial
  refine ((triple_caught hcreate).conseq (fun _ h => h) (fun _ _ h => h)
    fun _ _ _ => trivial).bind fun r => ?_
  cases r with
  | error e =>
      split
      · exact Prog.Triple.ret fun _ _ h => by cases h
      · split <;> exact Prog.Triple.raise fun _ _ => trivial
      · contradiction
  | ok u =>
      refine Prog.Triple.conseq ?_ (fun w hw => hw.1 u rfl) (fun _ _ h => h) fun _ _ h => h
      refine ((triple_reading (reading_perform (.closeLock m) rfl).caught stable_held).conseq
        (fun _ h => h) (fun _ _ h => h.2) fun _ _ _ => trivial).bind fun r => ?_
      split
      · exact Prog.Triple.ret fun _ hw _ => hw
      split
      · refine triple_unlink_bind fun u => ?_
        split
        · split <;> exact Prog.Triple.raise fun _ _ => trivial
        · exact Prog.Triple.raise fun _ _ => trivial
      · exact Prog.Triple.raise fun _ _ => trivial

theorem triple_release :
    Prog.Triple (callRules py calls allowed f₀ t) (Held t m) (release m) (fun _ _ => True)
      (fun _ _ => True) := by
  refine triple_unlink_bind fun r => ?_
  split
  · exact Prog.Triple.ret fun _ _ => trivial
  · exact Prog.Triple.ret fun _ _ => trivial
  · split <;> exact Prog.Triple.raise fun _ _ => trivial

/-- Whoever holds the lock of a mission knows its events and its state file. -/
theorem Held.holds {w : World} (hw : Held t m w) : ∃ h f, Holds t m h f w := ⟨_, _, hw, rfl, rfl⟩

theorem triple_executeOrResumePlan {approval : ApprovalArg}
    (ha : approval = (calls t).approval) :
    Prog.Triple (callRules py calls allowed f₀ t) (NotHeld t m) (executeOrResumePlan py m approval)
      (fun _ _ => True) (fun _ _ => True) := by
  unfold executeOrResumePlan
  split
  · exact Prog.Triple.ret fun _ _ => trivial
  refine ((triple_reading (reading_missionDir py m) stable_notOwner).conseq (fun _ h => h)
    (fun _ _ h => h.2) fun _ _ _ => trivial).bind fun _ => ?_
  refine ((triple_caught triple_acquire).conseq (fun _ h => h) (fun _ _ h => h)
    fun _ _ _ => trivial).bind fun r => ?_
  split
  · exact Prog.Triple.ret fun _ _ => trivial
  · exact Prog.Triple.raise fun _ _ => trivial
  · exact Prog.Triple.ret fun _ _ => trivial
  refine Prog.Triple.conseq ?_ (fun w hw => (hw.1 true rfl rfl).holds) (fun _ _ h => h)
    fun _ _ h => h
  refine Prog.Triple.of_exists fun h => Prog.Triple.of_exists fun f => ?_
  refine ((triple_executeOrResumePlanLocked ha).attempt (B := fun _ => Held t m) (fun _ _ h => h)
    fun _ _ h => h).bind fun r => ?_
  cases r with
  | error body =>
      refine (triple_release.attempt (B := fun _ _ => True) (fun _ _ h => h)
        fun _ _ h => h).bind fun r => ?_
      split <;> exact Prog.Triple.raise fun _ _ => trivial
  | ok attempt =>
      refine (triple_release.attempt (B := fun _ _ => True) (fun _ _ h => h)
        fun _ _ h => h).bind fun r => ?_
      split
      · exact Prog.Triple.ret fun _ _ => trivial
      · exact Prog.Triple.ret fun _ _ => trivial
      · exact Prog.Triple.raise fun _ _ => trivial

/-! ### The system -/

/-- The calls fit together: what one guarantees the others rely on, the death
of a call changes nothing, and the surroundings keep to `Outside`. -/
def runtimeOutline (py : Stdlib) (calls : Tid → Call) (allowed : String → File → Prop)
    (f₀ : String → File) : (runtime py calls allowed).Outline where
  inv := Sound py calls allowed f₀
  rely := Relies
  guar := Guarantees
  start := Fresh
  rely_refl := Relies.refl
  rely_trans := Relies.trans
  start_stable := fun hst hr m => (hr m).2 (hst m)
  guar_rely := fun hne hg => hg _ hne
  die_inv := by
    rintro t w w' hi rfl
    exact hi
  die_rely := by
    rintro t t' w w' - rfl
    exact Relies.refl _ _
  env_inv := by
    intro live w w' hi he m
    rw [(he m).state, (he m).events]
    exact ⟨(he m).plan (hi m).1, (hi m).2⟩
  env_rely := by
    intro live t w w' he ht m
    refine ⟨fun hl => ⟨(he m).state, (he m).tmp, (he m).events, ?_⟩, fun hl => ?_⟩
    · rcases (he m).lock with hk | ⟨t', ht', hdead, -⟩
      · exact hk
      · obtain rfl : t = t' := Option.some.inj (hl.symm.trans ht')
        exact absurd hl (ht.resolve_left hdead m)
    · rcases (he m).lock with hk | ⟨-, -, -, hk⟩
      · rwa [hk]
      · simp [hk]
  call_ok := fun t _ =>
    (triple_executeOrResumePlan rfl).conseq (fun _ h => h.2 (calls t).missionId)
      (fun _ _ _ => trivial) fun _ _ _ => trivial

/-- A world before the first call: no lock, no event, and permitted plans. -/
structure Initial (allowed : String → File → Prop) (f₀ : String → File) (w : World) : Prop where
  plan : ∀ m, allowed m (w m).plan
  state : ∀ m, (w m).state = f₀ m
  lock : ∀ m, (w m).lock = none
  events : ∀ m, (w m).events = []

/-- The configurations that the runtime reaches from an initial world. -/
def Reaches (py : Stdlib) (calls : Tid → Call) (allowed : String → File → Prop)
    (f₀ : String → File) (w : World) : Prop :=
  ∃ w₀ c, Initial allowed f₀ w₀ ∧ (runtime py calls allowed).Reachable w₀ c ∧ c.world = w

/-- **The runtime keeps the protocol**: whatever the calls and however they are
interleaved, the events of every mission are legal. -/
theorem runtime_legal {w : World} (h : Reaches py calls allowed f₀ w) (m : String) :
    Legal py m (Permits py calls allowed m) (f₀ m) (w m).events (w m).state := by
  obtain ⟨w₀, c, hinit, hreach, rfl⟩ := h
  have hsound : Sound py calls allowed f₀ w₀ := fun m => ⟨hinit.plan m, by
    rw [hinit.events, hinit.state]
    exact .start⟩
  have hfresh : ∀ t, Fresh t w₀ := fun t m => by simp [hinit.lock]
  exact ((runtimeOutline py calls allowed f₀).reachable hsound hfresh hreach m).2

end Konoha
