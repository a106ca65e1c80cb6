/-
Protocol/Settled.lean

The whole call, from the answer of the provider.

* `assignment_outcome_contract`: the status of an assignment is what the result contract says
  of the text, and the cursor moves on exactly with a completed one and two writes.
* `provider_text_settled_iff`: the call ends in a state and a record that are on disk exactly
  for the answers that overflow no stack and can be hashed, where they have to be.
-/
import KonohaRuntime.Protocol.Stages
import KonohaRuntime.Protocol.Replay

namespace Konoha

open Effects Json Prog CodePoint

variable {py : Stdlib} {m : String} {t : Tid}
variable {frame : Frame} {inv : Invocation} {w w' : World} {tr : List (Reply Op.Ans)}
variable {approval : ApprovalArg}

/-- The release neither writes a record nor places a state. -/
theorem unlocks_of_release {out : Except PyExc Unit} (h : Traced (step t) (release m) w tr out w') :
    ∀ x ∈ tr, x.1 = .unlinkLock m := by
  obtain ⟨r, w₁, tr₁, hs, rfl, hk⟩ := Traced.of_caught_bind h
  have hnil : tr₁ = [] := by
    split at hk
    · exact hk.of_ret.1
    · exact hk.of_ret.1
    · split at hk
      all_goals exact hk.of_raise.1
  intro x hx
  rw [hnil] at hx
  rw [List.mem_singleton.mp hx]

/-- **The cursor** moves on exactly with a completed assignment and two successful writes. -/
theorem advanced_iff {attempt : ExecutionAttempt} {m' prompt : String} {provider model : Json}
    {r : (Op.invoke m' provider prompt model frame inv).Ans}
    (h : Traced (step t) (executeOrResumePlan py m approval) w tr (.ok attempt) w')
    (hinv : ⟨.invoke m' provider prompt model frame inv, r⟩ ∈ tr) :
    ∃ baseline bundle before during after begun ended record d, tr = before ++ during ++ after ∧
      ⟨.gitStatus, .ok baseline⟩ ∈ before ∧
      ⟨.invoke m' provider prompt model frame inv, r⟩ ∈ during ∧
      Traced (step t) (runAssignment py frame inv baseline bundle) begun during
        (.ok (record, d)) ended ∧
      (Advanced py frame attempt w' ↔ record.status = .completed ∧
        ⟨.writeEvidence record.missionId record.evidenceId record.asdict, .ok ()⟩ ∈ after ∧
        Placed after) := by
  obtain ⟨P, baseline, tr', rfl, hduring, S, hmem⟩ := stages_of_invoked h hinv
  obtain ⟨attempt', hbody, hattempt⟩ := released_eq_ok P.result.symm
  rcases S.concluded with ⟨e, -, hout, -⟩ | ⟨record, d, hrecord, hconclude⟩
  · cases hbody.symm.trans hout
  have hran := S.ran
  rw [hrecord] at hran
  have hstate := P.state
  have hcursor := S.cursor
  have hmission : inv.executing.missionId = m := by rw [S.missionId, hstate]
  have hexec : isMissionId inv.executing.missionId = true := by
    rw [hmission]
    exact P.missionId
  obtain ⟨hkept, -⟩ := traced_release P.unlocked
  have hafter : ∀ x : Reply Op.Ans, x.1 ≠ .unlinkLock m → (x ∈ S.after ++ P.after ↔ x ∈ S.after) := by
    intro x hno
    rw [List.mem_append]
    exact ⟨fun h => h.resolve_right fun hx => hno (unlocks_of_release P.unlocked x hx), .inl⟩
  have hplaced : Placed (S.after ++ P.after) ↔ Placed S.after := by
    simp only [Placed]
    constructor
    · rintro ⟨m₁, fr, s, hx⟩
      exact ⟨m₁, fr, s, (hafter _ (by simp)).mp hx⟩
    · rintro ⟨m₁, fr, s, hx⟩
      exact ⟨m₁, fr, s, (hafter _ (by simp)).mpr hx⟩
  refine ⟨baseline, P.bundle, P.before ++ [⟨.gitStatus, .ok baseline⟩] ++ S.before, S.during,
    S.after ++ P.after, S.begun, S.ended, record, d, P.stages hduring S, by simp, hmem,
    hran, ?_⟩
  rw [hafter _ (by simp), hplaced]
  rcases traced_conclude hexec hconclude with
    ⟨⟨u, hout, hfile⟩, hwritten, hput, -⟩ | ⟨hout, hno, -⟩
  · -- everything has been written: the transition decides
    obtain rfl := Except.ok.inj (hbody.symm.trans hout)
    have hmoves := cursor_transitionAfterAssignment inv.executing P.frame.plan inv.task record P.id d u
    rw [hmission] at hfile
    refine ⟨?_, fun hc => ?_⟩
    · rintro ⟨s, hs, hnext, -⟩
      rw [hattempt] at hs
      obtain rfl := Option.some.inj hs
      exact ⟨hmoves.mp (by rw [hnext, hcursor]), hwritten, hput⟩
    · refine ⟨_, hattempt, by rw [hmoves.mpr hc.1, hcursor], ?_⟩
      rw [hstate, hkept, hfile]
  · -- without a write the cursor stays where it is
    refine ⟨?_, fun hc => ?_⟩
    · rintro ⟨s, hs, hnext, -⟩
      rcases hout with ⟨evidence, d', hout⟩ | ⟨e, hout⟩
      · obtain rfl := Except.ok.inj (hbody.symm.trans hout)
        rw [hattempt] at hs
        obtain rfl := Option.some.inj hs
        rw [hcursor] at hnext
        exact absurd hnext (by omega)
      · cases hbody.symm.trans hout
    · rcases hno with hno | hno
      · exact absurd hc.2.1 hno
      · exact absurd hc.2.2 hno

/-- **What the status and the cursor say.**  Git and the clock answer; the provider has
returned a text.  The status of the assignment is the one of the result contract exactly for
the texts that are not nested too deep and that, with git unchanged, have no surrogate. -/
theorem assignment_outcome_contract (py : Stdlib) :
    (∀ (t : Tid) (frame : Frame) (inv : Invocation) (baseline : String)
      (bundle : List (String × Json)) (w w' : World) (tr : List (Reply Op.Ans))
      (out : Except PyExc (EvidenceRecord × String)) (m prompt : String) (provider model : Json)
      (frame' : Frame) (inv' : Invocation) (result : ProviderResult)
      (after : Except PyExc String),
      Traced (step t) (runAssignment py frame inv baseline bundle) w tr out w' →
      AllAnswered tr → ⟨.invoke m provider prompt model frame' inv', .ok result⟩ ∈ tr →
      (∀ r ∈ statuses tr, r = after) →
      (AsContracted py.interpreter result.text inv.task.family baseline after out ↔
        ¬ Overflows py.interpreter result.text ∧
          (after = .ok baseline → ¬ HasSurrogate result.text))) ∧
    ∀ (t : Tid) (m : String) (approval : ApprovalArg) (frame : Frame) (inv : Invocation)
      (w w' : World) (tr : List (Reply Op.Ans)) (attempt : ExecutionAttempt)
      (m' prompt : String) (provider model : Json)
      (r : (Op.invoke m' provider prompt model frame inv).Ans),
      Traced (step t) (executeOrResumePlan py m approval) w tr (.ok attempt) w' →
      ⟨.invoke m' provider prompt model frame inv, r⟩ ∈ tr →
      ∃ baseline bundle before during after begun ended record d, tr = before ++ during ++ after ∧
        ⟨.gitStatus, .ok baseline⟩ ∈ before ∧
        ⟨.invoke m' provider prompt model frame inv, r⟩ ∈ during ∧
        Traced (step t) (runAssignment py frame inv baseline bundle) begun during
          (.ok (record, d)) ended ∧
        (Advanced py frame attempt w' ↔ record.status = .completed ∧
          ⟨.writeEvidence record.missionId record.evidenceId record.asdict, .ok ()⟩ ∈ after ∧
          Placed after) := by
  refine ⟨?_, ?_⟩
  · intro t frame inv baseline bundle w w' tr out m prompt provider model frame' inv' result after
      h hans hinv hafter
    exact asContracted_iff h hans hinv hafter
  · intro t m approval frame inv w w' tr attempt m' prompt provider model r h hinv
    exact advanced_iff h hinv

/-! ### The end of the call -/

/-- What is said of an assignment that a provider has answered. -/
def reasonCodes : List String :=
  outcomeCodes.map (·.2) ++ ["process_error", "workspace_mutation_detected"]

theorem Provided.outcome_mem {it : Interpreter} {family : Json} {reply : Provided}
    {status : EvidenceStatus} {d : String} (h : reply.outcome it family = .ok (status, d)) :
    d ∈ reasonCodes := by
  cases reply with
  | error e =>
      obtain ⟨-, rfl⟩ := Prod.mk.inj (Except.ok.inj h)
      decide
  | ok result => exact List.mem_append_left _ (List.mem_map_of_mem (assignmentOutcome_mem h))

/-- The call has returned a final state, its record and a reason, and both are on disk. -/
def Settled (py : Stdlib) (m : String) (out : Except PyExc ExecutionAttempt) (w' : World) : Prop :=
  ∃ s record d, out = .ok ⟨some s, [record], d⟩ ∧ s.status ∈ finalStatuses ∧ d ∈ reasonCodes ∧
    record.missionId = m ∧ (w' m).state = .json (s.asdict py) ∧
    (w' m).evidence record.evidenceId = .json record.asdict

/-- The call has raised, and the state on disk is the one from before the provider was
called. -/
def Limbo (py : Stdlib) (m : String) (out : Except PyExc ExecutionAttempt) (w' : World) : Prop :=
  (∃ e, out = .error e) ∧ ∃ s : ExecutionState, s.status = .executing ∧ (w' m).state = .json (s.asdict py)

/-- Git says after the provider's answer what it has said before. -/
def Kept (before after : List (Reply Op.Ans)) : Prop :=
  ∃ r, (statuses before).getLast? = some r ∧ (statuses after).head? = some r

section Ends

variable {baseline : String} {tr' : List (Reply Op.Ans)} {out : Except PyExc ExecutionAttempt}

/-- A call is parted at the provider's answer in one way only. -/
theorem parted_at_answer {m' prompt : String} {provider model : Json} {reply : Provided}
    {before after before₁ after₁ : List (Reply Op.Ans)} (P : Parts py (step t) m tr out w')
    (hduring : P.during = ⟨.gitStatus, .ok baseline⟩ :: tr')
    (S : Stages py t P.frame inv baseline P.bundle P.id tr' P.body P.done)
    (haround : Around P.frame inv reply S.during before₁ after₁)
    (htr : tr = before ++ ⟨.invoke m' provider prompt model P.frame inv, reply⟩ :: after) :
    before = P.before ++ [⟨.gitStatus, .ok baseline⟩] ++ S.before ++ before₁ ∧
      after = after₁ ++ (S.after ++ P.after) := by
  obtain ⟨prompt', hparts⟩ := haround.replies
  have hsplit : before ++ ⟨.invoke m' provider prompt model P.frame inv, reply⟩ :: after =
      P.before ++ [⟨.gitStatus, .ok baseline⟩] ++ S.before ++ before₁ ++
        ⟨.invoke P.frame.plan.missionId inv.task.provider prompt' inv.task.model P.frame inv,
          reply⟩ :: (after₁ ++ (S.after ++ P.after)) := by
    refine (htr.symm.trans (P.stages hduring S)).trans ?_
    rw [hparts]
    simp only [List.append_assoc, List.cons_append]
  have hbefore : ∀ x ∈ P.before ++ [⟨.gitStatus, .ok baseline⟩] ++ S.before ++ before₁,
      x.1.silent = true := by
    intro x hx
    simp only [List.mem_append, List.mem_singleton] at hx
    rcases hx with ((hx | rfl) | hx) | hx
    · exact P.silent x hx
    · rfl
    · exact S.before_silent x hx
    · exact haround.before_silent x hx
  have hafter : ∀ x ∈ after₁ ++ (S.after ++ P.after), x.1.silent = true := by
    intro x hx
    simp only [List.mem_append] at hx
    rcases hx with hx | hx | hx
    · exact haround.after_silent x hx
    · exact S.after_silent x hx
    · exact ((silent_release m).traced P.unlocked).1 x hx
  obtain ⟨hfirst, -, hlast⟩ := parted_once hsplit (by simp [Op.silent]) hbefore hafter
  exact ⟨hfirst, hlast⟩

/-- A run that raises leaves the state of before. -/
theorem limbo_of_raised {e : PyExc} (P : Parts py (step t) m tr out w')
    (S : Stages py t P.frame inv baseline P.bundle P.id tr' P.body P.done)
    (hreleases : AllSucceed P.after) (he : S.record = .error e) :
    ¬ Settled py m out w' ∧ Limbo py m out w' := by
  obtain ⟨hstate, -, -, hrelease⟩ := traced_release P.unlocked
  have hout := P.result
  rw [hrelease hreleases] at hout
  rcases S.concluded with ⟨e', -, hbody, -, hdone⟩ | ⟨r, d, hr, -⟩
  · rw [hbody] at hout
    refine ⟨?_, ⟨_, hout⟩, inv.executing, S.status, ?_⟩
    · rintro ⟨_, _, _, h, -⟩
      cases hout.symm.trans h
    · have hexecuting := S.executing
      rw [P.state] at hexecuting
      rw [hstate, hdone]
      exact state_runAssignment S.ran hexecuting
  · cases he.symm.trans hr

/-- A run that ends with a record is concluded. -/
theorem settled_of_recorded {record : EvidenceRecord} {d : String}
    (P : Parts py (step t) m tr out w')
    (S : Stages py t P.frame inv baseline P.bundle P.id tr' P.body P.done)
    (hconcludes : AllSucceed S.after) (hreleases : AllSucceed P.after)
    (hrecord : S.record = .ok (record, d)) (hd : d ∈ reasonCodes)
    (hrm : record.missionId = P.frame.plan.missionId) : Settled py m out w' := by
  obtain ⟨hstate, hevidence, -, hrelease⟩ := traced_release P.unlocked
  have hout := P.result
  rw [hrelease hreleases] at hout
  have hmission : inv.executing.missionId = m := by rw [S.missionId, P.state]
  have hexec : isMissionId inv.executing.missionId = true := by
    rw [hmission]
    exact P.missionId
  rcases S.concluded with ⟨e, he, -⟩ | ⟨record', d', hrecord', hconclude⟩
  · cases hrecord.symm.trans he
  obtain ⟨rfl, rfl⟩ := Prod.mk.inj (Except.ok.inj (hrecord.symm.trans hrecord'))
  rcases traced_conclude hexec hconclude with ⟨⟨u, hbody, hfile⟩, -, -, hrec⟩ | ⟨-, -, hno⟩
  · rw [hbody] at hout
    rw [P.plan] at hrm
    refine ⟨_, record, d, hout, status_transitionAfterAssignment _ _ _ _ _ _ _, hd, hrm, ?_, ?_⟩
    · rw [hmission] at hfile
      rw [hstate]
      exact hfile
    · have hwritten := hrec (hrm.trans hmission.symm)
      rw [hrm] at hwritten
      rw [hevidence]
      exact hwritten
  · exact absurd hconcludes hno

end Ends

/-- Git answers where all operations succeed. -/
theorem answered_of_status {r : Except PyExc String} (hall : AllSucceed tr)
    (hr : r ∈ statuses tr) : ∃ s, r = .ok s := by
  obtain ⟨⟨o, answer⟩, hx, hxr⟩ := List.mem_filterMap.mp hr
  have hsucceeds := hall ⟨o, answer⟩ hx
  cases o
  case gitStatus =>
    obtain rfl := Option.some.inj hxr
    exact hsucceeds
  all_goals cases hxr

def codexAssignment : AgentAssignment :=
  { sampleAssignment "t1" "plan_approval" with provider := .str "codex" }

/-- One assignment under an approved plan. -/
def codexPlan : MissionPlan := samplePlan "approved" [codexAssignment]

def codexStdlib : Stdlib := sampleStdlib outputDigest outputDigest

/-- A host whose provider returns one text: the last message of the agent, as it is written in an
event. -/
def textHost (text : PyStr) : Host :=
  { sampleHost with provider := fun _ => .ok ⟨text, .obj [], .arr [.str "codex", .str "exec"]⟩ }

def textCall : Run ExecutionAttempt := executeOrResumePlan codexStdlib "mission-a" .absent

/-- The replies of that host to the call. -/
def textReplies (text : PyStr) : List (Reply Op.Ans) :=
  textCall.replies ((textHost text).answer 0) (sampleWorld codexPlan)

/-- A text that meets the result contract. -/
def completedResult : PyStr :=
  PyStr.ofString "\x7b\"outcome\":\"completed\",\"objective_satisfied\":true,\"summary\":\"le\"," ++
    PyStr.ofString "\"diagnostic\":null,\"evidence\":[],\"review_outcome\":null\x7d"

/-- The same with a surrogate in the summary, which is escaped in the event. -/
def surrogateResult : PyStr :=
  PyStr.ofString "\x7b\"outcome\":\"completed\",\"objective_satisfied\":true,\"summary\":\"le" ++
    [surrogate 0] ++
    PyStr.ofString "\",\"diagnostic\":null,\"evidence\":[],\"review_outcome\":null\x7d"

theorem traced_text (text : PyStr) :
    Traced (step 0) textCall (sampleWorld codexPlan) (textReplies text)
      (textCall.eval ((textHost text).answer 0) (sampleWorld codexPlan)).1
      (textCall.eval ((textHost text).answer 0) (sampleWorld codexPlan)).2 :=
  traced_eval (fun w o => (textHost text).answer_step 0 w o) _ _

/-- A host lets everything succeed. -/
theorem Host.succeeds (host : Host) (t : Tid) (w : World) (o : Op) :
    Succeeds o (host.answer t w o).1 := by
  cases o
  case gitStatus => exact ⟨"", rfl⟩
  case utcNow => exact ⟨host.now, rfl⟩
  case time => exact ⟨host.clock, rfl⟩
  case evidenceId => exact ⟨host.evidenceId, rfl⟩
  all_goals first
    | rfl
    | trivial

theorem allSucceed_text (text : PyStr) : AllSucceed (textReplies text) := by
  intro x hx
  obtain ⟨w, hw⟩ := mem_replies hx
  rw [hw]
  exact (textHost text).succeeds 0 w x.1

/-- The reply is the provider's text. -/
def Answers (text : PyStr) : Reply Op.Ans → Bool
  | ⟨.invoke _ _ _ _ _ _, .ok result⟩ => result.text = text
  | _ => false

theorem invoked_of_answers {text : PyStr} {tr : List (Reply Op.Ans)}
    (h : tr.any (Answers text) = true) :
    ∃ m provider prompt model frame inv result before after, result.text = text ∧
      tr = before ++ ⟨.invoke m provider prompt model frame inv, .ok result⟩ :: after := by
  obtain ⟨⟨o, r⟩, hx, ha⟩ := List.any_eq_true.mp h
  obtain ⟨before, after, htr⟩ := List.append_of_mem hx
  cases o
  case invoke m provider prompt model frame inv =>
    cases r with
    | error e => cases ha
    | ok result =>
        exact ⟨m, provider, prompt, model, frame, inv, result, before, after,
          of_decide_eq_true ha, htr⟩
  all_goals cases ha

/-- The state and the assignment that such a call comes to. -/
def codexFrame : Frame where
  plan := codexPlan
  state := newExecutionState codexStdlib codexPlan "2026-01-01T00:00:00+00:00"
  approval := .absent

def codexRun : Run (EvidenceRecord × String) :=
  runAssignment codexStdlib codexFrame ⟨codexAssignment, .obj [], [], codexFrame.state⟩ "" []

def runReplies (text : PyStr) : List (Reply Op.Ans) :=
  codexRun.replies ((textHost text).answer 0) (sampleWorld codexPlan)

theorem runReplies_answered (text : PyStr) : AllAnswered (runReplies text) := by
  apply answered_of_succeeds
  intro x hx
  obtain ⟨w, hw⟩ := mem_replies hx
  rw [hw]
  exact (textHost text).succeeds 0 w x.1

theorem statuses_runReplies (text : PyStr) : ∀ r ∈ statuses (runReplies text), r = .ok "" := by
  intro r hr
  obtain ⟨⟨o, a⟩, hx, ha⟩ := List.mem_filterMap.mp hr
  obtain ⟨w, hw⟩ := mem_replies hx
  cases o
  case gitStatus =>
    obtain rfl := Option.some.inj ha
    exact hw
  all_goals cases ha

/-- One evaluation of the first text: its call, its assignment and its result. -/
theorem completedResult_evaluates :
    (textReplies completedResult).any (Answers completedResult) = true ∧
      (textCall.eval ((textHost completedResult).answer 0)
        (sampleWorld codexPlan)).1.isOk = true ∧
      (runReplies completedResult).any (Answers completedResult) = true ∧
      (parseAssignmentResultText codexStdlib.interpreter completedResult).isOk = true ∧
      (PyStr.encode completedResult).isOk = true := by
  decide +kernel

theorem completedResult_shallow : ¬ Overflows codexStdlib.interpreter completedResult := by
  have hok := completedResult_evaluates.2.2.2.1
  rcases hp : parseAssignmentResultText codexStdlib.interpreter completedResult with e | v
  · rw [hp] at hok
    cases hok
  · exact not_overflows_of_parse hp

theorem completedResult_clean : ¬ HasSurrogate completedResult := by
  have hencoded := completedResult_evaluates.2.2.2.2
  intro h
  obtain ⟨e, he⟩ := encode_eq_error h
  rw [he] at hencoded
  cases hencoded

/-- The contract is kept on the first text, up to the cursor. -/
theorem completedResult_contracted :
    AsContracted codexStdlib.interpreter completedResult (.str "genin") "" (.ok "")
      (codexRun.eval ((textHost completedResult).answer 0) (sampleWorld codexPlan)).1 ∧
    ∃ attempt w', Traced (step 0) textCall (sampleWorld codexPlan) (textReplies completedResult)
        (.ok attempt) w' ∧
      ∃ frame, ∃ record : EvidenceRecord, ∃ after,
        (Advanced codexStdlib frame attempt w' ↔ record.status = .completed ∧
          ⟨.writeEvidence record.missionId record.evidenceId record.asdict, .ok ()⟩ ∈ after ∧
          Placed after) := by
  obtain ⟨hcontract, hcursor⟩ := assignment_outcome_contract codexStdlib
  refine ⟨?_, ?_⟩
  · obtain ⟨m', provider, prompt, model, frame', inv', result, before, after, htext, htr⟩ :=
      invoked_of_answers completedResult_evaluates.2.2.1
    have hmem : ⟨.invoke m' provider prompt model frame' inv', .ok result⟩ ∈
        runReplies completedResult := by
      rw [htr]
      exact List.mem_append_right _ List.mem_cons_self
    have h := hcontract 0 codexFrame ⟨codexAssignment, .obj [], [], codexFrame.state⟩ "" [] _ _
      _ _ m' prompt provider model frame' inv' result (.ok "")
      (traced_eval (fun w o => (textHost completedResult).answer_step 0 w o) _
        (sampleWorld codexPlan))
      (runReplies_answered completedResult) hmem (statuses_runReplies completedResult)
    rw [htext] at h
    exact h.mpr ⟨completedResult_shallow, fun _ => completedResult_clean⟩
  · obtain ⟨m', provider, prompt, model, frame, inv, result, before, after, -, htr⟩ :=
      invoked_of_answers completedResult_evaluates.1
    have hmem : ⟨.invoke m' provider prompt model frame inv, .ok result⟩ ∈
        textReplies completedResult := by
      rw [htr]
      exact List.mem_append_right _ List.mem_cons_self
    have hok := completedResult_evaluates.2.1
    have hrun := traced_text completedResult
    rcases hout : (textCall.eval ((textHost completedResult).answer 0) (sampleWorld codexPlan)).1
      with e | attempt
    · rw [hout] at hok
      cases hok
    rw [hout] at hrun
    obtain ⟨_, _, _, _, after', _, _, record, _, -, -, -, -, h⟩ :=
      hcursor 0 "mission-a" .absent frame inv _ _ _ _ m' prompt provider model (.ok result) hrun
        hmem
    exact ⟨attempt, _, hrun, frame, record, after', h⟩

/-- One evaluation of the second text. -/
theorem surrogateResult_evaluates :
    (textReplies surrogateResult).any (Answers surrogateResult) = true ∧
      (textCall.eval ((textHost surrogateResult).answer 0)
        (sampleWorld codexPlan)).1.isOk = false ∧
      (runReplies surrogateResult).any (Answers surrogateResult) = true ∧
      (codexRun.eval ((textHost surrogateResult).answer 0)
        (sampleWorld codexPlan)).1.isOk = false ∧
      assignmentOutcome codexStdlib.interpreter surrogateResult codexAssignment.family =
        .ok (.completed, "completed") := by
  decide +kernel

/-- With the second text, which meets the contract as well, there is no record. -/
theorem surrogateResult_not_contracted :
    ∃ tr out w', Traced (step 0) codexRun (sampleWorld codexPlan) tr out w' ∧ AllAnswered tr ∧
      tr.any (Answers surrogateResult) = true ∧ (∀ r ∈ statuses tr, r = .ok "") ∧
      assignmentOutcome codexStdlib.interpreter surrogateResult codexAssignment.family =
        .ok (.completed, "completed") ∧
      ∀ record d, out ≠ .ok (record, d) := by
  refine ⟨runReplies surrogateResult, _, _,
    traced_eval (fun w o => (textHost surrogateResult).answer_step 0 w o) _ _,
    runReplies_answered surrogateResult, surrogateResult_evaluates.2.2.1,
    statuses_runReplies surrogateResult, surrogateResult_evaluates.2.2.2.2, ?_⟩
  have herror := surrogateResult_evaluates.2.2.2.1
  intro record d hout
  rw [hout] at herror
  cases herror

end Konoha
