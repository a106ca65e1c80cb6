/-
Protocol/Stages.lean

The parts of a call that has called the provider: up to the write of `executing`, the run of
the assignment, and what is done with its record (`Stages`, `stages_of_call`).  For each of
them it is said what is on disk afterwards and what has to succeed for it.
-/
import KonohaRuntime.Protocol.Outcome

namespace Konoha

open Effects Json Prog

variable {py : Stdlib} {m : String} {t : Tid}
variable {frame : Frame} {inv : Invocation} {baseline : String} {bundle : List (String × Json)}
variable {w w' : World} {tr : List (Reply Op.Ans)}

/-! ### The writes -/

/-- Git answers, and what is written is written; clock and identifiers are there. -/
def Succeeds : (o : Op) → o.Ans → Prop
  | .gitStatus, r => ∃ s, r = .ok s
  | .utcNow, r => ∃ v, r = .ok v
  | .time, r => ∃ v, r = .ok v
  | .evidenceId, r => ∃ v, r = .ok v
  | .missionDirConfined _, r => r = .ok true
  | .mkdirMission _, r => r = .ok ()
  | .writeTmp _ _, r => r = .ok ()
  | .replaceState _ _ _, r => r = .ok ()
  | .mkdirEvidence _, r => r = .ok ()
  | .writeEvidence _ _ _, r => r = .ok ()
  | .unlinkLock _, r => r = .ok ()
  | _, _ => True

/-- Every reply of a run is such. -/
abbrev AllSucceed (tr : List (Reply Op.Ans)) : Prop := ∀ x ∈ tr, Succeeds x.1 x.2

theorem answered_of_succeeds {tr : List (Reply Op.Ans)} (h : AllSucceed tr) : AllAnswered tr := by
  rintro ⟨o, r⟩ hx
  have hs := h _ hx
  cases o
  case time => exact hs
  case evidenceId => exact hs
  case gitStatus => exact .inl hs
  all_goals trivial

/-- A state has been put in place. -/
def Placed (tr : List (Reply Op.Ans)) : Prop :=
  ∃ m frame s, ⟨.replaceState m frame s, .ok ()⟩ ∈ tr

section Writes

variable {s : ExecutionState} {record : EvidenceRecord}

theorem traced_missionDir {out : Except PyExc Unit} (hid : isMissionId m = true)
    (h : Traced (step t) (missionDir py m) w tr out w') :
    ∃ r, tr = [⟨.missionDirConfined m, r⟩] ∧ w' = w ∧
      (r = .ok true ∧ out = .ok () ∨ r ≠ .ok true ∧ ∃ e, out = .error e) := by
  unfold missionDir at h
  rw [if_neg (not_not_intro hid)] at h
  obtain ⟨r, w₁, tr₁, hs, rfl, hk⟩ := Traced.of_perform_bind h
  obtain rfl := step_of_reads (by rfl) hs
  rcases hk with ⟨confined, rfl, hk⟩ | ⟨e, rfl, rfl, rfl, rfl⟩
  · cases confined with
    | true =>
        obtain ⟨rfl, rfl, rfl⟩ := Traced.of_ret hk
        exact ⟨_, rfl, rfl, .inl ⟨rfl, rfl⟩⟩
    | false =>
        obtain ⟨rfl, rfl, rfl⟩ := Traced.of_raise hk
        exact ⟨_, rfl, rfl, .inr ⟨by simp, _, rfl⟩⟩
  · exact ⟨_, rfl, rfl, .inr ⟨by simp, e, rfl⟩⟩

/-- A state is in its file, or something has failed. -/
theorem traced_saveExecutionState {out : Except PyExc Unit} (hid : isMissionId s.missionId = true)
    (h : Traced (step t) (saveExecutionState py frame s) w tr out w') :
    (out = .ok () ∧ Placed tr ∧ statuses tr = [] ∧
      (w' s.missionId).state = .json (s.asdict py) ∧
      (w' s.missionId).evidence = (w s.missionId).evidence) ∨
    (∃ e, out = .error e) ∧ ¬ Placed tr ∧ ¬ AllSucceed tr := by
  -- the first operation that fails is the last
  have hfail : ∀ {o : Op} {r : o.Ans} {tr' : List (Reply Op.Ans)},
      (⟨o, r⟩ : Reply Op.Ans) ∈ tr' → ¬ Succeeds o r → ¬ AllSucceed tr' :=
    fun hmem hno hall => hno (hall _ hmem)
  rcases h.of_bind with ⟨e, he, rfl⟩ | ⟨_, tr₁, w₁, tr₂, h₁, h₂, rfl⟩
  · obtain ⟨r, rfl, -, hr⟩ := traced_missionDir hid he
    rcases hr with ⟨-, hout⟩ | ⟨hr, -⟩
    · cases hout
    · exact .inr ⟨⟨e, rfl⟩, by simp [Placed], hfail List.mem_cons_self hr⟩
  obtain ⟨r, rfl, rfl, hr⟩ := traced_missionDir hid h₁
  obtain ⟨rfl, -⟩ : r = .ok true ∧ _ := hr.resolve_right (by rintro ⟨-, e, he⟩; cases he)
  obtain ⟨r₂, w₂, tr₃, hs₂, rfl, h₃⟩ := Traced.of_perform_bind h₂
  obtain rfl := step_of_reads (by rfl) hs₂
  rcases h₃ with ⟨_, rfl, h₃⟩ | ⟨e, rfl, rfl, rfl, rfl⟩
  swap
  · exact .inr ⟨⟨e, rfl⟩, by simp [Placed], hfail (List.mem_cons_of_mem _ List.mem_cons_self)
      (by simp [Succeeds])⟩
  obtain ⟨r₃, w₃, tr₄, ⟨content, rfl, hcontent⟩, rfl, h₄⟩ := Traced.of_perform_bind h₃
  rcases h₄ with ⟨_, rfl, h₄⟩ | ⟨e, rfl, rfl, rfl, rfl⟩
  swap
  · exact .inr ⟨⟨e, rfl⟩, by simp [Placed], hfail (o := .writeTmp s.missionId (s.asdict py)) (r := .error e)
      (by simp) (by simp [Succeeds])⟩
  obtain rfl := hcontent _ rfl
  obtain ⟨rfl, hs₄⟩ := Traced.of_perform h₄
  rcases out with e | u
  · exact .inr ⟨⟨e, rfl⟩, by simp [Placed], hfail (o := .replaceState s.missionId frame s) (r := .error e)
      (by simp) (by simp [Succeeds])⟩
  · obtain rfl : w' = _ := hs₄
    refine .inl ⟨rfl, ⟨s.missionId, frame, s, by simp⟩, rfl, ?_, ?_⟩
    · simp [World.commit]
    · simp [World.commit]

theorem traced_trySaveExecutionState {out : Except PyExc Bool}
    (hid : isMissionId s.missionId = true)
    (h : Traced (step t) (trySaveExecutionState py frame s) w tr out w') :
    (out = .ok true ∧ Placed tr ∧ statuses tr = [] ∧
      (w' s.missionId).state = .json (s.asdict py) ∧
      (w' s.missionId).evidence = (w s.missionId).evidence) ∨
    (out = .ok false ∨ ∃ e, out = .error e) ∧ ¬ Placed tr ∧ ¬ AllSucceed tr := by
  obtain ⟨r, tr₁, w₁, tr₂, h₁, h₂, rfl⟩ := Traced.of_attempt_bind h
  rcases traced_saveExecutionState hid h₁ with ⟨rfl, hsaved⟩ | ⟨⟨e, rfl⟩, hplaced, hall⟩
  · obtain ⟨rfl, rfl, rfl⟩ := Traced.of_ret h₂
    rw [List.append_nil]
    exact .inl ⟨rfl, hsaved⟩
  · dsimp only at h₂
    split at h₂
    · obtain ⟨rfl, rfl, rfl⟩ := Traced.of_ret h₂
      rw [List.append_nil]
      exact .inr ⟨.inl rfl, hplaced, hall⟩
    · obtain ⟨rfl, rfl, rfl⟩ := Traced.of_raise h₂
      rw [List.append_nil]
      exact .inr ⟨.inr ⟨e, rfl⟩, hplaced, hall⟩

/-- A record is in its file, or something has failed. -/
theorem traced_tryPersistEvidence {out : Except PyExc Bool}
    (h : Traced (step t) (tryPersistEvidence record) w tr out w') :
    (out = .ok true ∧
      ⟨.writeEvidence record.missionId record.evidenceId record.asdict, .ok ()⟩ ∈ tr ∧
      ¬ Placed tr ∧
      (w' record.missionId).evidence record.evidenceId = .json record.asdict) ∨
    (out = .ok false ∨ ∃ e, out = .error e) ∧
      ⟨.writeEvidence record.missionId record.evidenceId record.asdict, .ok ()⟩ ∉ tr ∧
      ¬ AllSucceed tr := by
  have hfail : ∀ {o : Op} {r : o.Ans} {tr' : List (Reply Op.Ans)},
      (⟨o, r⟩ : Reply Op.Ans) ∈ tr' → ¬ Succeeds o r → ¬ AllSucceed tr' :=
    fun hmem hno hall => hno (hall _ hmem)
  have hpersist : ∀ {tr₁ w₁} {r : Except PyExc Unit}, Traced (step t) (persist record) w tr₁ r w₁ →
      (r = .ok () ∧
        ⟨.writeEvidence record.missionId record.evidenceId record.asdict, .ok ()⟩ ∈ tr₁ ∧
        ¬ Placed tr₁ ∧
        (w₁ record.missionId).evidence record.evidenceId = .json record.asdict) ∨
      (∃ e, r = .error e) ∧
        ⟨.writeEvidence record.missionId record.evidenceId record.asdict, .ok ()⟩ ∉ tr₁ ∧
        ¬ AllSucceed tr₁ := by
    intro tr₁ w₁ r hp
    obtain ⟨r₂, w₂, tr₂, hs₂, rfl, h₂⟩ := Traced.of_perform_bind hp
    rcases h₂ with ⟨_, rfl, h₂⟩ | ⟨e, rfl, rfl, rfl, rfl⟩
    swap
    · exact .inr ⟨⟨e, rfl⟩, by simp, hfail List.mem_cons_self (by simp [Succeeds])⟩
    obtain ⟨rfl, content, rfl, hcontent⟩ := Traced.of_perform h₂
    rcases r with e | u
    · exact .inr ⟨⟨e, rfl⟩, by simp, hfail
        (o := .writeEvidence record.missionId record.evidenceId record.asdict) (r := .error e)
        (by simp) (by simp [Succeeds])⟩
    · obtain rfl := hcontent _ rfl
      exact .inl ⟨rfl, by simp, by simp [Placed], by simp⟩
  obtain ⟨r, tr₁, w₁, tr₂, h₁, h₂, rfl⟩ := Traced.of_attempt_bind h
  rcases hpersist h₁ with ⟨rfl, hsaved⟩ | ⟨⟨e, rfl⟩, hno, hall⟩
  · obtain ⟨rfl, rfl, rfl⟩ := Traced.of_ret h₂
    rw [List.append_nil]
    exact .inl ⟨rfl, hsaved⟩
  · dsimp only at h₂
    split at h₂
    · obtain ⟨rfl, rfl, rfl⟩ := Traced.of_ret h₂
      rw [List.append_nil]
      exact .inr ⟨.inl rfl, hno, hall⟩
    · obtain ⟨rfl, rfl, rfl⟩ := Traced.of_raise h₂
      rw [List.append_nil]
      exact .inr ⟨.inr ⟨e, rfl⟩, hno, hall⟩

end Writes

/-! ### From `executing` to the final transition -/

/-- `execute` from the record on. -/
def conclude (py : Stdlib) (frame : Frame) (inv : Invocation) (id : Option Digest)
    (evidence : EvidenceRecord) (diagnostic : String) : Run ExecutionAttempt := do
  if ← tryPersistEvidence evidence then
    let finishedAt ← perform .utcNow
    let written := transitionAfterAssignment inv.executing frame.plan inv.task evidence id
      diagnostic finishedAt.1
    if ← trySaveExecutionState py frame written then
      return ⟨some written, [evidence], diagnostic⟩
    else return ⟨some inv.executing, [evidence], "final_transition_persist_failed"⟩
  else return ⟨some inv.executing, [], "evidence_persist_failed"⟩

theorem silent_conclude (py : Stdlib) (frame : Frame) (inv : Invocation) (id : Option Digest)
    (evidence : EvidenceRecord) (diagnostic : String) :
    Silent (conclude py frame inv id evidence diagnostic) := by
  refine (silent_tryPersistEvidence evidence).seq fun ok => ?_
  split
  · refine (silent_perform rfl).seq fun finishedAt => ?_
    refine (silent_trySaveExecutionState _ _).seq fun ok => ?_
    split <;> trivial
  · trivial

/-- The parts of a run that calls the provider: up to the run of the assignment, that run,
and what is done with its record. -/
structure Stages (py : Stdlib) (t : Tid) (frame : Frame) (inv : Invocation) (baseline : String)
    (bundle : List (String × Json)) (id : Option Digest) (tr : List (Reply Op.Ans))
    (out : Except PyExc ExecutionAttempt) (w' : World) where
  begun : World
  ended : World
  before : List (Reply Op.Ans)
  during : List (Reply Op.Ans)
  after : List (Reply Op.Ans)
  record : Except PyExc (EvidenceRecord × String)
  cursor : inv.executing.nextAssignmentIndex = frame.state.nextAssignmentIndex
  missionId : inv.executing.missionId = frame.state.missionId
  status : inv.executing.status = .executing
  executing : (begun frame.state.missionId).state = .json (inv.executing.asdict py)
  before_silent : ∀ x ∈ before, x.1.silent = true
  before_statuses : statuses before = []
  ran : Traced (step t) (runAssignment py frame inv baseline bundle) begun during record ended
  concluded : (∃ e, record = .error e ∧ out = .error e ∧ after = [] ∧ w' = ended) ∨
    ∃ r d, record = .ok (r, d) ∧
      Traced (step t) (conclude py frame inv id r d) ended after out w'
  replies : tr = before ++ during ++ after

theorem Stages.after_silent {id : Option Digest} {out : Except PyExc ExecutionAttempt}
    (S : Stages py t frame inv baseline bundle id tr out w') : ∀ x ∈ S.after, x.1.silent = true := by
  rcases S.concluded with ⟨e, -, -, hnil, -⟩ | ⟨r, d, -, h⟩
  · simp [hnil]
  · exact ((silent_conclude py frame inv id r d).traced h).1

theorem stages_of_execute {now : Timestamp} {task : AgentAssignment} {family : Json}
    {records : List EvidenceRecord} {id : Option Digest} {out : Except PyExc ExecutionAttempt}
    (hid : isMissionId frame.state.missionId = true)
    (h : Traced (step t) (execute py now frame task family records bundle baseline id) w tr out w')
    (hx : ∃ x ∈ tr, ¬ x.1.silent = true) :
    Nonempty (Stages py t frame
      ⟨task, family, records, transitionToExecuting frame.state task id now.1⟩ baseline bundle id
      tr out w') := by
  have hsave : Silent (trySaveExecutionState py frame
      (transitionToExecuting frame.state task id now.1)) := silent_trySaveExecutionState frame _
  unfold execute at h
  rcases h.of_bind with ⟨e, he, rfl⟩ | ⟨ok, tr₁, w₁, tr₂, h₁, h₂, rfl⟩
  · obtain ⟨x, hx, hs⟩ := hx
    exact absurd ((hsave.traced he).1 x hx) hs
  have htr₁ := (hsave.traced h₁).1
  replace hx := not_silent_of_append hx htr₁
  cases ok with
  | false =>
      obtain ⟨rfl, -, -⟩ := Traced.of_ret h₂
      simp at hx
  | true =>
      have hid' : isMissionId (transitionToExecuting frame.state task id now.1).missionId = true := hid
      rcases traced_trySaveExecutionState hid' h₁ with ⟨-, -, hstat, hstate, -⟩ | ⟨hout, -⟩
      swap
      · rcases hout with hout | ⟨_, hout⟩ <;> cases hout
      rcases Traced.of_bind h₂ with ⟨e, he, rfl⟩ | ⟨⟨r, d⟩, tr₃, w₂, tr₄, h₃, h₄, rfl⟩
      · exact ⟨{
          begun := w₁
          ended := w'
          before := tr₁
          during := tr₂
          after := []
          record := .error e
          cursor := rfl
          missionId := rfl
          status := rfl
          executing := hstate
          before_silent := htr₁
          before_statuses := hstat
          ran := he
          concluded := .inl ⟨e, rfl, rfl, rfl, rfl⟩
          replies := by rw [List.append_nil] }⟩
      · exact ⟨{
          begun := w₁
          ended := w₂
          before := tr₁
          during := tr₃
          after := tr₄
          record := .ok (r, d)
          cursor := rfl
          missionId := rfl
          status := rfl
          executing := hstate
          before_silent := htr₁
          before_statuses := hstat
          ran := h₃
          concluded := .inr ⟨r, d, rfl, h₄⟩
          replies := by rw [List.append_assoc] }⟩

theorem stages_of_checkAndExecute {now : Timestamp} {task : AgentAssignment} {family : Json}
    {records : List EvidenceRecord} {id : Option Digest} {out : Except PyExc ExecutionAttempt}
    (hid : isMissionId frame.state.missionId = true)
    (h : Traced (step t) (checkAndExecute py now frame task family records bundle id) w tr out w')
    (hx : ∃ x ∈ tr, ¬ x.1.silent = true) :
    ∃ baseline tr', tr = ⟨.gitStatus, .ok baseline⟩ :: tr' ∧
      Nonempty (Stages py t frame
        ⟨task, family, records, transitionToExecuting frame.state task id now.1⟩ baseline bundle id
        tr' out w') := by
  obtain ⟨r, w₁, tr₁, -, rfl, hk⟩ := Traced.of_caught_bind h
  have hx₀ : ∃ x ∈ [⟨.gitStatus, r⟩] ++ tr₁, ¬ x.1.silent = true := hx
  have hx₁ : ∃ x ∈ tr₁, ¬ x.1.silent = true :=
    not_silent_of_append hx₀ fun x hx => by
      obtain rfl := List.mem_singleton.mp hx
      rfl
  have hsilent : ∀ {p : Run ExecutionAttempt}, Silent p → ¬ Traced (step t) p w₁ tr₁ out w' := by
    intro p hp hrun
    obtain ⟨x, hx, hs⟩ := hx₁
    exact hs ((hp.traced hrun).1 x hx)
  split at hk
  · exact absurd hk (hsilent (silent_settle _ _ _ _))
  · exact absurd hk (hsilent trivial)
  · rename_i baseline
    exact ⟨baseline, tr₁, rfl, stages_of_execute hid hk hx₁⟩

/-- The states in which an assignment ends. -/
def finalStatuses : List ExecutionStatus := [.inProgress, .completed, .blocked, .failed]

theorem status_transitionAfterAssignment (executing : ExecutionState) (plan : MissionPlan)
    (task : AgentAssignment) (evidence : EvidenceRecord) (id : Option Digest) (d u : String) :
    (transitionAfterAssignment executing plan task evidence id d u).status ∈ finalStatuses := by
  unfold transitionAfterAssignment
  split
  · unfold transitionAfterCompletedAssignment
    dsimp only
    split <;> decide
  · exact (by decide : ExecutionStatus.blocked ∈ finalStatuses)
  · exact (by decide : ExecutionStatus.failed ∈ finalStatuses)

theorem cursor_transitionAfterAssignment (executing : ExecutionState) (plan : MissionPlan)
    (task : AgentAssignment) (evidence : EvidenceRecord) (id : Option Digest) (d u : String) :
    (transitionAfterAssignment executing plan task evidence id d u).nextAssignmentIndex =
      executing.nextAssignmentIndex + 1 ↔ evidence.status = .completed := by
  unfold transitionAfterAssignment
  split
  · simp [transitionAfterCompletedAssignment, *]
  · simp [transitionAfterBlockedAssignment, stopAt, *]
  · simp [transitionAfterFailedAssignment, stopAt, *]

/-- The attempt has moved the cursor on, and so has the file. -/
def Advanced (py : Stdlib) (frame : Frame) (attempt : ExecutionAttempt) (w' : World) : Prop :=
  ∃ s, attempt.state = some s ∧ s.nextAssignmentIndex = frame.state.nextAssignmentIndex + 1 ∧
    (w' frame.state.missionId).state = .json (s.asdict py)

section Conclude

variable {id : Option Digest} {record : EvidenceRecord} {d : String}

/-- The ends of a run from the record on. -/
theorem traced_conclude {out : Except PyExc ExecutionAttempt}
    (hid : isMissionId inv.executing.missionId = true)
    (h : Traced (step t) (conclude py frame inv id record d) w tr out w') :
    ((∃ u, out = .ok ⟨some (transitionAfterAssignment inv.executing frame.plan inv.task record id d
          u), [record], d⟩ ∧
        (w' inv.executing.missionId).state = .json ((transitionAfterAssignment inv.executing
          frame.plan inv.task record id d u).asdict py)) ∧
      ⟨.writeEvidence record.missionId record.evidenceId record.asdict, .ok ()⟩ ∈ tr ∧ Placed tr ∧
      (record.missionId = inv.executing.missionId →
        (w' record.missionId).evidence record.evidenceId = .json record.asdict)) ∨
    ((∃ evidence d', out = .ok ⟨some inv.executing, evidence, d'⟩) ∨ ∃ e, out = .error e) ∧
      (¬ ⟨.writeEvidence record.missionId record.evidenceId record.asdict, .ok ()⟩ ∈ tr ∨
        ¬ Placed tr) ∧ ¬ AllSucceed tr := by
  have hleft : ∀ {xs ys : List (Reply Op.Ans)}, ¬ AllSucceed xs → ¬ AllSucceed (xs ++ ys) :=
    fun hno hall => hno fun x hx => hall x (List.mem_append_left _ hx)
  have hright : ∀ {xs ys : List (Reply Op.Ans)}, ¬ AllSucceed ys → ¬ AllSucceed (xs ++ ys) :=
    fun hno hall => hno fun x hx => hall x (List.mem_append_right _ hx)
  unfold conclude at h
  rcases Traced.of_bind h with ⟨e, he, rfl⟩ | ⟨ok, tr₁, w₁, tr₂, h₁, h₂, rfl⟩
  · rcases traced_tryPersistEvidence he with ⟨hout, -⟩ | ⟨-, hno, hall⟩
    · cases hout
    · exact .inr ⟨.inr ⟨e, rfl⟩, .inl hno, hall⟩
  rcases traced_tryPersistEvidence h₁ with ⟨hout, hwritten, hplaced, hevidence⟩ | ⟨hout, hno, hall⟩
  swap
  · -- the record has not been written
    obtain rfl : ok = false := by
      rcases hout with hout | ⟨_, hout⟩
      · exact Except.ok.inj hout
      · cases hout
    obtain ⟨rfl, rfl, rfl⟩ := Traced.of_ret h₂
    rw [List.append_nil]
    exact .inr ⟨.inl ⟨_, _, rfl⟩, .inl hno, hall⟩
  obtain rfl := Except.ok.inj hout
  obtain ⟨r, w₂, tr₃, hs, rfl, h₃⟩ := Traced.of_perform_bind h₂
  obtain rfl := step_of_reads (by rfl) hs
  rcases h₃ with ⟨finishedAt, rfl, h₃⟩ | ⟨e, rfl, rfl, rfl, rfl⟩
  swap
  · refine .inr ⟨.inr ⟨e, rfl⟩, .inr ?_, hright fun hall => ?_⟩
    · rintro ⟨m, fr, s, hmem⟩
      rcases List.mem_append.mp hmem with hmem | hmem
      · exact hplaced ⟨m, fr, s, hmem⟩
      · simp at hmem
    · obtain ⟨v, hv⟩ := hall _ List.mem_cons_self
      cases hv
  have hmission := transitionAfterAssignment_missionId inv.executing frame.plan inv.task record id d
    finishedAt.1
  have hid' : isMissionId (transitionAfterAssignment inv.executing frame.plan inv.task record id d
      finishedAt.1).missionId = true := by rw [hmission]; exact hid
  -- what is written behind the clock is the final state
  have hunplaced : ∀ {tr₄ : List (Reply Op.Ans)}, ¬ Placed tr₄ →
      ¬ Placed (tr₁ ++ ⟨.utcNow, .ok finishedAt⟩ :: tr₄) := by
    rintro tr₄ hno ⟨m, fr, s, hmem⟩
    rcases List.mem_append.mp hmem with hmem | hmem
    · exact hplaced ⟨m, fr, s, hmem⟩
    · exact hno ⟨m, fr, s, (List.mem_cons.mp hmem).resolve_left (by rintro ⟨⟩)⟩
  have hcons : ∀ {tr₄ : List (Reply Op.Ans)}, ¬ AllSucceed tr₄ →
      ¬ AllSucceed (⟨.utcNow, .ok finishedAt⟩ :: tr₄) :=
    fun hno hall => hno fun x hx => hall x (List.mem_cons_of_mem _ hx)
  rcases Traced.of_bind h₃ with ⟨e, he, rfl⟩ | ⟨ok, tr₄, w₃, tr₅, h₄, h₅, rfl⟩
  · rcases traced_trySaveExecutionState hid' he with ⟨hout, -⟩ | ⟨-, hno, hall⟩
    · cases hout
    · exact .inr ⟨.inr ⟨e, rfl⟩, .inr (hunplaced hno), hright (hcons hall)⟩
  rcases traced_trySaveExecutionState hid' h₄ with
    ⟨hout, hsaved, -, hstate, hkept⟩ | ⟨hout, hno, hall⟩
  · obtain rfl := Except.ok.inj hout
    obtain ⟨rfl, rfl, rfl⟩ := Traced.of_ret h₅
    rw [List.append_nil]
    rw [hmission] at hstate hkept
    refine .inl ⟨⟨finishedAt.1, rfl, hstate⟩, List.mem_append_left _ hwritten, ?_, fun hrec => ?_⟩
    · obtain ⟨m, fr, s, hmem⟩ := hsaved
      exact ⟨m, fr, s, List.mem_append_right _ (List.mem_cons_of_mem _ hmem)⟩
    · rw [hrec, hkept, ← hrec]
      exact hevidence
  · obtain rfl : ok = false := by
      rcases hout with hout | ⟨_, hout⟩
      · exact Except.ok.inj hout
      · cases hout
    obtain ⟨rfl, rfl, rfl⟩ := Traced.of_ret h₅
    rw [List.append_nil]
    exact .inr ⟨.inl ⟨_, _, rfl⟩, .inr (hunplaced hno), hright (hcons hall)⟩

end Conclude

/-! ### The whole call -/

/-- The operations of `runAssignment`: the provider is called for this invocation. -/
theorem always_runAssignment (py : Stdlib) (frame : Frame) (inv : Invocation) (baseline : String)
    (bundle : List (String × Json)) :
    (runAssignment py frame inv baseline bundle).Always
      (fun o => o.reads = true ∨ ∃ prompt, o = .invoke frame.plan.missionId inv.task.provider prompt
        inv.task.model frame inv) (fun _ => True) fun _ => True := by
  have hread : ∀ {α : Type} {r : Run α} {Q : α → Prop} {E : PyExc → Prop}, Reading Q E r →
      r.Always (fun o => o.reads = true ∨ ∃ prompt, o = .invoke frame.plan.missionId
        inv.task.provider prompt inv.task.model frame inv) (fun _ => True) fun _ => True :=
    fun h => (h.mono (fun _ _ => trivial) fun _ _ => trivial).weaken fun _ => .inl
  have hcall : (callProvider py frame inv bundle).Always
      (fun o => o.reads = true ∨ ∃ prompt, o = .invoke frame.plan.missionId inv.task.provider prompt
        inv.task.model frame inv) (fun _ => True) fun _ => True := by
    unfold callProvider
    dsimp only
    split
    · trivial
    · rename_i prompt _
      refine ⟨.inr ⟨prompt, rfl⟩, fun r => ?_⟩
      cases r with
      | error e =>
          show Always _ _ _ (if e.isException then _ else _)
          split <;> trivial
      | ok result =>
          show Always _ _ _ (lift _ >>= _)
          exact (hread (reading_lift _)).bind fun _ _ => trivial
  refine (hread (reading_perform .time rfl)).bind fun started _ => hcall.bind fun called _ => ?_
  have hworkspace : Reading (fun _ => True) (fun _ => True) (checkWorkspace baseline called) := by
    refine (reading_perform .gitStatus rfl).caught.seq fun r _ => ?_
    split
    · trivial
    · trivial
    · split <;> trivial
  exact (hread hworkspace).bind fun _ _ => (hread (reading_perform .time rfl)).bind fun _ _ =>
    (hread (reading_perform .evidenceId rfl)).bind fun _ _ =>
      (hread (reading_lift _)).bind fun _ _ => trivial

/-- An assignment leaves the state file as it is. -/
theorem state_runAssignment {f : File} {out : Except PyExc (EvidenceRecord × String)}
    (h : Traced (step t) (runAssignment py frame inv baseline bundle) w tr out w')
    (hf : (w m).state = f) : (w' m).state = f := by
  refine (always_runAssignment py frame inv baseline bundle).traced_keeps
    (I := fun w => (w m).state = f) ?_ h hf
  rintro o (ho | ⟨prompt, rfl⟩) w r w' hs hw
  · obtain rfl := step_of_reads ho hs
    exact hw
  · obtain rfl : w' = _ := hs
    by_cases hm : m = frame.plan.missionId
    · subst hm
      rw [World.modify_same]
      exact hw
    · rw [World.modify_of_ne hm]
      exact hw

/-- The release of the lock leaves everything else as it is. -/
theorem traced_release {out : Except PyExc Unit} (h : Traced (step t) (release m) w tr out w') :
    (w' m).state = (w m).state ∧ (w' m).evidence = (w m).evidence ∧ statuses tr = [] ∧
      (AllSucceed tr → out = .ok ()) := by
  obtain ⟨r, w₁, tr₁, hs, rfl, hk⟩ := Traced.of_caught_bind h
  have hlock : (w₁ m).state = (w m).state ∧ (w₁ m).evidence = (w m).evidence := by
    have hset : ((w.setLock m none) m).state = (w m).state ∧
        ((w.setLock m none) m).evidence = (w m).evidence := by simp [World.setLock]
    cases r with
    | ok _ =>
        obtain rfl : w₁ = _ := hs
        exact hset
    | error e =>
        rcases hs with rfl | ⟨-, rfl⟩
        · exact ⟨rfl, rfl⟩
        · exact hset
  split at hk
  · obtain ⟨rfl, rfl, rfl⟩ := Traced.of_ret hk
    exact ⟨hlock.1, hlock.2, rfl, fun _ => rfl⟩
  · obtain ⟨rfl, rfl, rfl⟩ := Traced.of_ret hk
    exact ⟨hlock.1, hlock.2, rfl, fun _ => rfl⟩
  · have hno : ∀ {e tr'}, ¬ AllSucceed (⟨.unlinkLock m, .error e⟩ :: tr') := fun hall => by
      cases hall _ List.mem_cons_self
    split at hk
    all_goals
      obtain ⟨rfl, rfl, rfl⟩ := Traced.of_raise hk
      exact ⟨hlock.1, hlock.2, rfl, fun hall => absurd hall hno⟩

theorem released_eq_ok {body : Except PyExc ExecutionAttempt} {r : Except PyExc Unit}
    {attempt : ExecutionAttempt} (h : released body r = .ok attempt) :
    ∃ a, body = .ok a ∧ attempt.state = a.state := by
  unfold released at h
  split at h
  all_goals first
    | (cases h; exact ⟨_, rfl, rfl⟩)
    | cases h

/-- Where one reply is not silent and all others are, there is one way to part a run there. -/
theorem parted_once {xs ys xs' ys' : List (Reply Op.Ans)} {x x' : Reply Op.Ans}
    (h : xs ++ x :: ys = xs' ++ x' :: ys') (hx : ¬ x.1.silent = true)
    (hxs : ∀ y ∈ xs', y.1.silent = true) (hys : ∀ y ∈ ys', y.1.silent = true) :
    xs = xs' ∧ x = x' ∧ ys = ys' := by
  rcases List.append_eq_append_iff.mp h with ⟨c, rfl, hc⟩ | ⟨c, rfl, hc⟩
  · cases c with
    | nil =>
        obtain ⟨rfl, rfl⟩ := List.cons.inj hc
        exact ⟨(List.append_nil _).symm, rfl, rfl⟩
    | cons y c =>
        obtain ⟨rfl, -⟩ := List.cons.inj hc
        exact absurd (hxs x (by simp)) hx
  · cases c with
    | nil =>
        obtain ⟨rfl, rfl⟩ := List.cons.inj hc
        exact ⟨List.append_nil _, rfl, rfl⟩
    | cons y c =>
        obtain ⟨-, rfl⟩ := List.cons.inj hc
        exact absurd (hys x (by simp)) hx

variable {approval : ApprovalArg} {out : Except PyExc ExecutionAttempt}

/-- A call that calls the provider, with all its parts: `P` around the check of the
workspace, `S` around the run of the assignment. -/
theorem stages_of_call (h : Traced (step t) (executeOrResumePlan py m approval) w tr out w')
    (hx : ∃ x ∈ tr, ¬ x.1.silent = true) :
    ∃ (P : Parts py (step t) m tr out w') (inv' : Invocation) (baseline : String)
      (tr' : List (Reply Op.Ans)), P.during = ⟨.gitStatus, .ok baseline⟩ :: tr' ∧
        Nonempty (Stages py t P.frame inv' baseline
          P.bundle P.id tr' P.body P.done) := by
  obtain ⟨P⟩ := reached_checkAndExecute h hx
  have hx' : ∃ x ∈ P.during, ¬ x.1.silent = true := by
    rw [P.replies, List.append_assoc] at hx
    obtain ⟨x, hx, hs⟩ := not_silent_of_append hx P.silent
    rcases List.mem_append.mp hx with hx | hx
    · exact ⟨x, hx, hs⟩
    · exact absurd (((silent_release m).traced P.unlocked).1 x hx) hs
  have hid : isMissionId P.frame.state.missionId = true := by
    rw [P.state]
    exact P.missionId
  obtain ⟨baseline, tr', hduring, hS⟩ := stages_of_checkAndExecute hid P.checked hx'
  exact ⟨P, _, baseline, tr', hduring, hS⟩

/-- The invocation that a provider call is labelled with is the one of its stages. -/
theorem Stages.label {id : Option Digest} {inv' : Invocation} {frame' : Frame}
    {m' prompt : String} {provider model : Json}
    {r : (Op.invoke m' provider prompt model frame' inv').Ans}
    (S : Stages py t frame inv baseline bundle id tr out w')
    (hmem : ⟨.invoke m' provider prompt model frame' inv', r⟩ ∈ tr) :
    ⟨.invoke m' provider prompt model frame' inv', r⟩ ∈ S.during ∧ frame' = frame ∧ inv' = inv := by
  rw [S.replies] at hmem
  rcases List.mem_append.mp hmem with hmem | hmem
  · rcases List.mem_append.mp hmem with hmem | hmem
    · exact absurd (S.before_silent _ hmem) (by simp [Op.silent])
    · refine ⟨hmem, ?_⟩
      rcases ((always_runAssignment py frame inv baseline bundle).traced S.ran).1 _ hmem with
        hread | ⟨prompt', heq⟩
      · exact absurd hread (by simp [Op.reads])
      · obtain ⟨-, -, -, -, rfl, rfl⟩ := Op.invoke.inj heq
        exact ⟨rfl, rfl⟩
  · exact absurd (S.after_silent _ hmem) (by simp [Op.silent])

theorem stages_of_invoked {m' prompt : String} {provider model : Json}
    {r : (Op.invoke m' provider prompt model frame inv).Ans}
    (h : Traced (step t) (executeOrResumePlan py m approval) w tr out w')
    (hinv : ⟨.invoke m' provider prompt model frame inv, r⟩ ∈ tr) :
    ∃ (P : Parts py (step t) m tr out w') (baseline : String) (tr' : List (Reply Op.Ans)),
      P.frame = frame ∧ P.during = ⟨.gitStatus, .ok baseline⟩ :: tr' ∧
        ∃ S : Stages py t P.frame inv baseline P.bundle P.id tr' P.body P.done,
          ⟨.invoke m' provider prompt model frame inv, r⟩ ∈ S.during := by
  obtain ⟨P, inv', baseline, tr', hduring, ⟨S⟩⟩ :=
    stages_of_call h ⟨_, hinv, by simp [Op.silent]⟩
  have hmem : ⟨.invoke m' provider prompt model frame inv, r⟩ ∈ tr' := by
    rw [P.replies, hduring] at hinv
    rcases List.mem_append.mp hinv with hinv | hinv
    · rcases List.mem_append.mp hinv with hinv | hinv
      · exact absurd (P.silent _ hinv) (by simp [Op.silent])
      · exact (List.mem_cons.mp hinv).resolve_left (by rintro ⟨⟩)
    · exact absurd (((silent_release m).traced P.unlocked).1 _ hinv) (by simp [Op.silent])
  obtain ⟨hmem', rfl, rfl⟩ := S.label hmem
  exact ⟨P, baseline, tr', rfl, hduring, S, hmem'⟩

/-- The replies of such a call, one stage after the other. -/
theorem Parts.stages (P : Parts py (step t) m tr out w') {id : Option Digest}
    {tr' : List (Reply Op.Ans)} {body : Except PyExc ExecutionAttempt} {done : World}
    (hduring : P.during = ⟨.gitStatus, .ok baseline⟩ :: tr')
    (S : Stages py t frame inv baseline bundle id tr' body done) :
    tr = P.before ++ [⟨.gitStatus, .ok baseline⟩] ++ S.before ++ S.during ++
      (S.after ++ P.after) :=
  calc tr = P.before ++ P.during ++ P.after := P.replies
    _ = P.before ++ (⟨.gitStatus, .ok baseline⟩ :: tr') ++ P.after := by rw [hduring]
    _ = P.before ++ (⟨.gitStatus, .ok baseline⟩ :: (S.before ++ S.during ++ S.after)) ++
          P.after :=
        congrArg (fun xs => P.before ++ (⟨.gitStatus, .ok baseline⟩ :: xs) ++ P.after) S.replies
    _ = P.before ++ [⟨.gitStatus, .ok baseline⟩] ++ S.before ++ S.during ++
          (S.after ++ P.after) := by
        simp only [List.append_assoc, List.nil_append, List.cons_append]

end Konoha
