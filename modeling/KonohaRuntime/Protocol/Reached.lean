/-
Protocol/Reached.lean

Where a call of `execute_or_resume_plan` calls the provider.  Everything before the check
of the workspace performs other operations, so a run with a provider call in it is, from
that check on, a run of `checkAndExecute` (`reached_checkAndExecute`); behind it comes
only the release of the lock.
-/
import KonohaRuntime.Effects.Traces
import KonohaRuntime.Protocol.Calls

namespace Konoha

open Effects Json Prog

variable {py : Stdlib} {m : String}

/-! ### Taking operations apart -/

section Perform

variable {W : Type} {step : W → (o : Op) → o.Ans → W → Prop} {w w' : W}
variable {tr : List (Reply Op.Ans)}

theorem Traced.of_perform {o : Op} {out : Except PyExc o.Value}
    (h : Traced step (perform o) w tr out w') : tr = [⟨o, out⟩] ∧ step w o out w' := by
  cases h with
  | @op _ _ _ _ _ r _ _ hs hk =>
      cases r with
      | ok v =>
          obtain ⟨rfl, rfl, rfl⟩ := Traced.of_ret hk
          exact ⟨rfl, hs⟩
      | error e =>
          obtain ⟨rfl, rfl, rfl⟩ := Traced.of_raise hk
          exact ⟨rfl, hs⟩

theorem Traced.of_lift {α : Type} {x out : Except PyExc α} (h : Traced step (lift x) w tr out w') :
    tr = [] ∧ out = x ∧ w' = w := by
  cases x with
  | ok a => exact h.of_ret
  | error e => exact h.of_raise

/-- An operation, and what follows its answer. -/
theorem Traced.of_perform_bind {α : Type} {o : Op} {f : o.Value → Run α} {out : Except PyExc α}
    (h : Traced step (perform o >>= f) w tr out w') :
    ∃ r w₁ tr₁, step w o r w₁ ∧ tr = ⟨o, r⟩ :: tr₁ ∧
      ((∃ v, r = .ok v ∧ Traced step (f v) w₁ tr₁ out w') ∨
        ∃ e, r = .error e ∧ tr₁ = [] ∧ out = .error e ∧ w' = w₁) := by
  rcases h.of_bind with ⟨e, he, rfl⟩ | ⟨v, tr₁, w₁, tr₂, hv, hf, rfl⟩
  · obtain ⟨rfl, hs⟩ := Traced.of_perform he
    exact ⟨_, _, [], hs, rfl, .inr ⟨e, rfl, rfl, rfl, rfl⟩⟩
  · obtain ⟨rfl, hs⟩ := Traced.of_perform hv
    exact ⟨_, _, tr₂, hs, rfl, .inl ⟨v, rfl, hf⟩⟩

/-- An operation whose exception is caught, and what follows. -/
theorem Traced.of_caught_bind {α : Type} {o : Op} {f : Except PyExc o.Value → Run α}
    {out : Except PyExc α} (h : Traced step (Prog.attempt (perform o) >>= f) w tr out w') :
    ∃ r w₁ tr₁, step w o r w₁ ∧ tr = ⟨o, r⟩ :: tr₁ ∧ Traced step (f r) w₁ tr₁ out w' := by
  obtain ⟨r, tr₁, w₁, tr₂, hr, hf, rfl⟩ := h.of_attempt_bind
  obtain ⟨rfl, hs⟩ := Traced.of_perform hr
  exact ⟨r, w₁, tr₂, hs, rfl, hf⟩

end Perform

/-! ### Before the check -/

/-- The operation calls no provider. -/
def Op.silent : Op → Bool
  | .invoke _ _ _ _ _ _ => false
  | _ => true

theorem silent_of_reads {o : Op} (h : o.reads = true) : o.silent = true := by
  cases o <;> first | rfl | cases h

/-- A program that calls no provider. -/
abbrev Silent {α : Type} (m : Run α) : Prop :=
  m.Always (fun o => o.silent = true) (fun _ => True) fun _ => True

section Silent

variable {α β : Type} {f : α → Run β}

theorem Silent.seq {m : Run α} (h : Silent m) (hf : ∀ a, Silent (f a)) : Silent (m >>= f) :=
  h.bind fun a _ => hf a

theorem Silent.caught {m : Run α} (h : Silent m) : Silent m.attempt :=
  h.attempt (fun _ _ => trivial) fun _ _ => trivial

theorem silent_perform {o : Op} (ho : o.silent = true) : Silent (perform o) := by
  refine ⟨ho, fun r => ?_⟩
  cases r <;> trivial

theorem silent_of_reading {m : Run α} {Q : α → Prop} {E : PyExc → Prop} (h : Reading Q E m) :
    Silent m :=
  (h.mono (fun _ _ => trivial) fun _ _ => trivial).weaken fun _ => silent_of_reads

end Silent

theorem silent_saveExecutionState (frame : Frame) (s : ExecutionState) :
    Silent (saveExecutionState py frame s) :=
  (silent_of_reading (reading_missionDir py _)).seq fun _ =>
    (silent_perform rfl).seq fun _ => (silent_perform rfl).seq fun _ => silent_perform rfl

theorem silent_trySaveExecutionState (frame : Frame) (s : ExecutionState) :
    Silent (trySaveExecutionState py frame s) := by
  refine (silent_saveExecutionState frame s).caught.seq fun r => ?_
  cases r with
  | ok _ => trivial
  | error e =>
      dsimp only
      split <;> trivial

theorem silent_settle (frame : Frame) (s : ExecutionState) (d onFailure : String) :
    Silent (settle py frame s d onFailure) := by
  refine (silent_trySaveExecutionState frame s).seq fun ok => ?_
  cases ok <;> trivial

theorem silent_tryPersistEvidence (record : EvidenceRecord) :
    Silent (tryPersistEvidence record) := by
  have hpersist : Silent (persist record) :=
    (silent_perform rfl).seq fun _ => silent_perform rfl
  refine hpersist.caught.seq fun r => ?_
  cases r with
  | ok _ => trivial
  | error e =>
      dsimp only
      split <;> trivial

theorem silent_acquire (m : String) : Silent (acquire m) := by
  refine (silent_perform rfl).caught.seq fun made => ?_
  cases made with
  | error e =>
      dsimp only
      split <;> trivial
  | ok _ =>
      refine (silent_perform rfl).caught.seq fun created => ?_
      rcases created with (_ | _ | _ | _ | _ | _ | _ | _ | _ | _ | _ | _ | _ | _ | _) | _
      case ok =>
        refine (silent_perform rfl).caught.seq fun closed => ?_
        cases closed with
        | ok _ => trivial
        | error e =>
            dsimp only
            split
            · refine (silent_perform rfl).caught.seq fun unlinked => ?_
              cases unlinked with
              | ok _ => trivial
              | error u =>
                  dsimp only
                  split <;> trivial
            · trivial
      all_goals trivial

theorem silent_release (m : String) : Silent (release m) := by
  refine (silent_perform rfl).caught.seq fun r => ?_
  rcases r with (_ | _ | _ | _ | _ | _ | _ | _ | _ | _ | _ | _ | _ | _ | _) | _
  all_goals trivial

/-! ### To the check -/

/-- `prepare` from its check of the workspace on. -/
def checkAndExecute (py : Stdlib) (now : Timestamp) (frame : Frame) (task : AgentAssignment)
    (family : Json) (records : List EvidenceRecord) (bundle : List (String × Json))
    (approvalIdToConsume : Option Digest) : Run ExecutionAttempt := do
  match ← Prog.attempt (perform .gitStatus) with
  | .error (.gitStatusError diagnostic _) =>
      failBeforeExecution py now frame task diagnostic.text none
  | .error e => .raise e
  | .ok baseline => execute py now frame task family records bundle baseline approvalIdToConsume

/-- The last part of a call for mission `m` that calls the provider. -/
def Checks (py : Stdlib) (m : String) (p : Run ExecutionAttempt) : Prop :=
  ∃ now frame task family records bundle id, frame.plan.missionId = m ∧ frame.state.missionId = m ∧
    p = checkAndExecute py now frame task family records bundle id

/-- Nothing but the last part calls the provider. -/
abbrev Leads (py : Stdlib) (m : String) : Run ExecutionAttempt → Prop :=
  LeadsTo (fun o => o.silent = true) (Checks py m)

section Leads

variable {frame : Frame} {now : Timestamp} {task : AgentAssignment} {records : List EvidenceRecord}

theorem leads_of_silent {p : Run ExecutionAttempt} (h : Silent p) : Leads py m p := .stops h

theorem leads_reading {α : Type} {r : Run α} {Q : α → Prop} {E : PyExc → Prop}
    {k : α → Run ExecutionAttempt} (hr : Reading Q E r) (hk : ∀ a, Q a → Leads py m (k a)) :
    Leads py m (r >>= k) :=
  LeadsTo.bind (hr.weaken fun _ => silent_of_reads) hk

theorem leads_prepare (hp : frame.plan.missionId = m) (hs : frame.state.missionId = m)
    (id : Option Digest) : Leads py m (prepare py now frame task records id) := by
  refine leads_reading (reading_perform (.agentFamily task.family) rfl).caught fun r _ => ?_
  split
  · exact leads_of_silent (silent_settle _ _ _ _)
  · exact leads_of_silent trivial
  · rename_i family _
    refine leads_reading (reading_requiredSourcesGate py frame.plan task family records)
      fun gate _ => ?_
    split
    · exact leads_of_silent trivial
    · refine leads_reading (reading_readinessDiagnostic py task) fun readiness _ => ?_
      split
      · exact leads_of_silent trivial
      · exact .goes ⟨now, frame, task, family, records, _, id, hp, hs, rfl⟩

theorem leads_startTask (hp : frame.plan.missionId = m) (hs : frame.state.missionId = m) :
    Leads py m (startTask py now frame task records) := by
  unfold startTask
  split
  · exact leads_of_silent (silent_settle _ _ _ _)
  · split
    · refine leads_reading (reading_lift _) fun status _ => ?_
      split
      · exact leads_prepare hp hs none
      · exact leads_of_silent trivial
    · split
      · unfold separateGate
        split
        · exact leads_of_silent ((silent_perform rfl).seq fun _ => silent_settle _ _ _ _)
        · split
          · exact leads_of_silent trivial
          · split
            · exact leads_of_silent trivial
            · exact leads_prepare hp hs _
      · exact leads_of_silent (silent_settle _ _ _ _)

theorem leads_resume (hp : frame.plan.missionId = m) (hs : frame.state.missionId = m) :
    Leads py m (resume py now frame) := by
  refine leads_reading (reading_lift _) fun invariant _ => ?_
  split
  · exact leads_of_silent (silent_settle _ _ _ _)
  · split
    · exact leads_of_silent trivial
    · split
      · exact leads_of_silent (silent_settle _ _ _ _)
      · refine leads_reading (reading_verifyCompletedEvidence py _ _) fun found _ => ?_
        split
        · exact leads_of_silent (silent_settle _ _ _ _)
        · split
          · exact leads_of_silent (silent_settle _ _ _ _)
          · exact leads_startTask hp hs

theorem reading_loadPersistedPlan (py : Stdlib) (m : String) :
    Reading (fun plan => plan.missionId = m) (fun _ => True) (loadPersistedPlan py m) := by
  refine (reading_missionDir py m).seq fun _ _ => (reading_perform _ rfl).seq fun isFile _ => ?_
  split
  · refine (reading_perform _ rfl).caught.seq fun raw _ => ?_
    split
    · split <;> trivial
    · refine (reading_lift _).mono (fun plan h => ?_) fun _ _ => trivial
      exact parsePlan_missionId h
  · trivial

theorem reading_loadExecutionState (py : Stdlib) (m : String) :
    Reading (fun existing => ∀ s, existing = some s → s.missionId = m) (fun _ => True)
      (loadExecutionState py m) := by
  refine (reading_missionDir py m).seq fun _ _ => (reading_perform _ rfl).seq fun isFile _ => ?_
  split
  · refine (reading_perform _ rfl).caught.seq fun raw _ => ?_
    split
    · split <;> trivial
    · refine (reading_lift _).seq fun state h => ?_
      rintro _ ⟨⟩
      exact (readable_of_parse h).missionId
  · rintro _ ⟨⟩

theorem leads_executeOrResumePlanLocked (approval : ApprovalArg) :
    Leads py m (executeOrResumePlanLocked py m approval) := by
  refine leads_reading (reading_perform .utcNow rfl) fun now _ => ?_
  refine leads_reading (reading_loadPersistedPlan py m).caught fun loaded hloaded => ?_
  split
  · exact leads_of_silent trivial
  · exact leads_of_silent trivial
  · rename_i plan
    split
    · exact leads_of_silent trivial
    · refine leads_reading (reading_loadExecutionState py m).caught fun found hfound => ?_
      split
      · exact leads_of_silent trivial
      · exact leads_of_silent trivial
      · rename_i existing
        have hplan : plan.missionId = m := hloaded.1 plan rfl
        refine leads_resume hplan ?_
        cases existing with
        | none => exact hplan
        | some s => exact hfound.1 _ rfl s rfl

end Leads

/-! ### The whole call -/

/-- What `execute_or_resume_plan` returns, from what its locked part and the release of the
lock have returned. -/
def released (body : Except PyExc ExecutionAttempt) (release : Except PyExc Unit) :
    Except PyExc ExecutionAttempt :=
  match body, release with
  | .error body, .ok _ => .error body
  | .error body, .error (.executionStateError _) => .error body
  | .error _, .error e => .error e
  | .ok attempt, .ok _ => .ok attempt
  | .ok attempt, .error (.executionStateError _) =>
      .ok { attempt with diagnostic := "lock_release_error" }
  | .ok _, .error e => .error e

variable {step : World → (o : Op) → o.Ans → World → Prop} {w w' : World}
variable {tr : List (Reply Op.Ans)}

/-- The parts of a run: up to the check of the workspace, from there to the end of the locked
part, and the release of the lock. -/
structure Parts (py : Stdlib) (step : World → (o : Op) → o.Ans → World → Prop) (m : String)
    (tr : List (Reply Op.Ans)) (out : Except PyExc ExecutionAttempt) (w' : World) where
  now : Timestamp
  frame : Frame
  task : AgentAssignment
  family : Json
  records : List EvidenceRecord
  bundle : List (String × Json)
  id : Option Digest
  start : World
  done : World
  before : List (Reply Op.Ans)
  during : List (Reply Op.Ans)
  after : List (Reply Op.Ans)
  body : Except PyExc ExecutionAttempt
  release : Except PyExc Unit
  missionId : isMissionId m = true
  plan : frame.plan.missionId = m
  state : frame.state.missionId = m
  silent : ∀ x ∈ before, x.1.silent = true
  checked : Traced step (checkAndExecute py now frame task family records bundle id) start during
    body done
  unlocked : Traced step (Konoha.release m) done after release w'
  replies : tr = before ++ during ++ after
  result : out = released body release

theorem not_silent_of_append {xs ys : List (Reply Op.Ans)} (hx : ∃ x ∈ xs ++ ys, ¬ x.1.silent = true)
    (h : ∀ x ∈ xs, x.1.silent = true) : ∃ x ∈ ys, ¬ x.1.silent = true := by
  obtain ⟨x, hx, hs⟩ := hx
  rcases List.mem_append.mp hx with hx | hx
  · exact absurd (h x hx) hs
  · exact ⟨x, hx, hs⟩

theorem traced_released {body out : Except PyExc ExecutionAttempt}
    (h : Traced step (match body with
      | .error body => do
          match ← Prog.attempt (release m) with
          | .ok _ => .raise body
          | .error (.executionStateError _) => .raise body
          | .error e => .raise e
      | .ok attempt => do
          match ← Prog.attempt (release m) with
          | .ok _ => return attempt
          | .error (.executionStateError _) =>
              return { attempt with diagnostic := "lock_release_error" }
          | .error e => .raise e) w tr out w') :
    ∃ r, Traced step (release m) w tr r w' ∧ out = released body r := by
  cases body with
  | error body =>
      obtain ⟨r, tr₁, w₁, tr₂, hr, hk, rfl⟩ := h.of_attempt_bind
      refine ⟨r, ?_⟩
      split at hk
      all_goals
        obtain ⟨rfl, rfl, rfl⟩ := hk.of_raise
        rw [List.append_nil]
        refine ⟨hr, ?_⟩
      · rfl
      · rfl
      · unfold released
        split <;> simp_all
  | ok attempt =>
      obtain ⟨r, tr₁, w₁, tr₂, hr, hk, rfl⟩ := h.of_attempt_bind
      refine ⟨r, ?_⟩
      split at hk
      · obtain ⟨rfl, rfl, rfl⟩ := hk.of_ret
        rw [List.append_nil]
        exact ⟨hr, rfl⟩
      · obtain ⟨rfl, rfl, rfl⟩ := hk.of_ret
        rw [List.append_nil]
        exact ⟨hr, rfl⟩
      · obtain ⟨rfl, rfl, rfl⟩ := hk.of_raise
        rw [List.append_nil]
        refine ⟨hr, ?_⟩
        unfold released
        split <;> simp_all

/-- **A call that calls the provider** is taken apart around its last part. -/
theorem reached_checkAndExecute {approval : ApprovalArg} {out : Except PyExc ExecutionAttempt}
    (h : Traced step (executeOrResumePlan py m approval) w tr out w')
    (hx : ∃ x ∈ tr, ¬ x.1.silent = true) : Nonempty (Parts py step m tr out w') := by
  unfold executeOrResumePlan at h
  split at h
  · obtain ⟨rfl, -, -⟩ := h.of_ret
    simp at hx
  · rename_i hm
    have hm : isMissionId m = true := by simpa using hm
    have hdir := silent_of_reading (reading_missionDir py m)
    rcases h.of_bind with ⟨e, he, rfl⟩ | ⟨_, tr₁, w₁, tr₂, h₁, h₂, rfl⟩
    · obtain ⟨x, hx, hs⟩ := hx
      exact absurd ((hdir.traced he).1 x hx) hs
    have htr₁ := (hdir.traced h₁).1
    replace hx := not_silent_of_append hx htr₁
    obtain ⟨got, tr₃, w₂, tr₄, h₃, h₄, rfl⟩ := h₂.of_attempt_bind
    have htr₃ := ((silent_acquire m).traced h₃).1
    replace hx := not_silent_of_append hx htr₃
    -- only with the lock something more is done
    split at h₄
    · obtain ⟨rfl, -, -⟩ := h₄.of_ret
      simp at hx
    · obtain ⟨rfl, -, -⟩ := h₄.of_raise
      simp at hx
    · obtain ⟨rfl, -, -⟩ := h₄.of_ret
      simp at hx
    · obtain ⟨body, tr₅, w₃, tr₆, hbody, h₅, rfl⟩ := h₄.of_attempt_bind
      obtain ⟨r, hr, rfl⟩ := traced_released h₅
      have hx' : ∃ x ∈ tr₅, ¬ x.1.silent = true := by
        obtain ⟨x, hx, hs⟩ := hx
        rcases List.mem_append.mp hx with hx | hx
        · exact ⟨x, hx, hs⟩
        · exact absurd (((silent_release m).traced hr).1 x hx) hs
      obtain ⟨p, tr₇, w₄, tr₈, hp, hrun, rfl, htr₇⟩ :=
        (leads_executeOrResumePlanLocked approval).sound hbody hx'
      obtain ⟨now, frame, task, family, records, bundle, id, hplan, hstate, rfl⟩ := hp
      exact ⟨{
        now := now
        frame := frame
        task := task
        family := family
        records := records
        bundle := bundle
        id := id
        start := w₄
        done := w₃
        before := tr₁ ++ tr₃ ++ tr₇
        during := tr₈
        after := tr₆
        body := body
        release := r
        missionId := hm
        plan := hplan
        state := hstate
        silent := by
          simp only [List.forall_mem_append]
          exact ⟨⟨htr₁, htr₃⟩, htr₇⟩
        checked := hrun
        unlocked := hr
        replies := by simp only [List.append_assoc]
        result := rfl }⟩

end Konoha
