/-
Mission/Closure.lean

`close_mission`: a mission is closed when its execution evidence reports success, its review
evidence approves, and its teachback record is about these two.

Success is a disjunction over three fields, and the decision of a review is the first of six fields
that has a known word.  The fields that are not consulted may say anything.
-/
import KonohaRuntime.Mission.Teachback
import KonohaRuntime.Runtime.Contract

namespace Konoha.Mission

open CodePoint PyJson

variable (py : Python)

/-! ### Execution evidence -/

/-- The words of `status` that mean success. -/
def successWords : List String := ["passed", "completed", "success", "closed"]

/-- `validate_execution_evidence` -/
def validateExecutionEvidence (payload : PyDict) : Except GateExc Unit := do
  let named ← (memberOf successWords (field payload "status")).mapError .python
  let passed := named || (field payload "exit_code").isInt 0 ||
    (entry (field payload "result") "exit_code").isInt 0
  check passed (.closureError
    "BLOCKED_EXECUTION_INCOMPLETE: execution evidence does not report a successful completed state")

/-! ### Review evidence -/

/-- The fields of `review_decision`, in order. -/
def decisionFields (payload : PyDict) : List PyJson :=
  [field payload "review_decision", field payload "decision", field payload "status"] ++
    (if (field payload "review").isObj then
      [entry (field payload "review") "decision", entry (field payload "review") "status"]
    else []) ++
    if (field payload "quality_assessment").isObj then
      [entry (field payload "quality_assessment") "status"]
    else []

/-- The words that `review_decision` knows. -/
inductive Decision
  | approved
  | passed
  | changesRequested
  | rejected
  | needsHumanReview
  deriving DecidableEq

namespace Decision

def name : Decision → String
  | approved => "approved"
  | passed => "passed"
  | changesRequested => "changes_requested"
  | rejected => "rejected"
  | needsHumanReview => "needs_human_review"

def all : List Decision := [approved, passed, changesRequested, rejected, needsHumanReview]

/-- `decision in {"approved", "passed"}` -/
def approves (d : Decision) : Bool := d = approved || d = passed

end Decision

/-- The decision that one field states. -/
def decisionOf : PyJson → Option Decision
  | .str s => Decision.all.find? fun d => py.lower s.strip = .ofString d.name
  | _ => none

/-- `review_decision` -/
def reviewDecision (payload : PyDict) : Option Decision :=
  (decisionFields payload).findSome? (decisionOf py)

/-- `payload.get("reviewed_by") or payload.get("human_actor")` -/
def reviewedBy (payload : PyDict) : PyJson :=
  if (field payload "reviewed_by").truthy then field payload "reviewed_by"
  else field payload "human_actor"

/-- `validate_review_evidence` -/
def validateReviewEvidence (payload : PyDict) : Except GateExc Unit := do
  check ((reviewDecision py payload).any Decision.approves)
    (.closureError "BLOCKED_REVIEW_INCOMPLETE: review evidence is not approved")
  check (!(field payload "human_approval").isBoolean false)
    (.closureError "BLOCKED_REVIEW_INCOMPLETE: review explicitly denies human approval")
  check (reviewedBy payload).nonBlankStr
    (.closureError "BLOCKED_REVIEW_INCOMPLETE: review evidence must identify the human reviewer")

/-! ### The teachback record -/

/-- Another result. -/
def notEligible (result : PyJson) : GateExc := .closureError
  ((if result.is "needs_clarification" then "NEEDS_CLARIFICATION" else "TEACHBACK_FAILED") ++
    ": Teachback is not eligible for closure")

/-- `validate_teachback_for_closure` -/
def validateTeachbackForClosure (payload : PyDict) (missionId : PyStr) (manifest : PyDict)
    (executionPath reviewPath : PyStr) : Except GateExc PyDict := do
  let record ← validateTeachbackRecord py payload missionId manifest
  check (isOneOf ["passed", "skipped"] (field record "result"))
    (notEligible (field record "result"))
  check (!(field record "result").is "passed" || (field record "completed_by_user").isBoolean true)
    (.closureError "TEACHBACK_FAILED: completed_by_user must be true")
  check ((field record "source_execution").eqStr executionPath) (.closureError
    "BLOCKED_TEACHBACK_CONFLICT: Teachback execution source differs from closure evidence")
  check ((field record "source_review").eqStr reviewPath) (.closureError
    "BLOCKED_TEACHBACK_CONFLICT: Teachback review source differs from closure evidence")
  return record

/-! ### Closing -/

/-- The arguments of `close_mission`. -/
structure ClosureArgs where
  missionId : PyStr
  /-- empty when it is not given -/
  closureId : PyStr
  executionEvidence : PyStr
  reviewEvidence : PyStr
  teachbackRecord : PyStr
  humanActor : PyStr
  closureReason : PyStr
  approvalToken : PyStr
  confirmClose : Bool
  force : Bool

/-- A file of evidence, as `resolve_evidence_file` finds it. -/
structure EvidenceFile where
  /-- its path in the workspace -/
  relative : PyStr
  sha256 : PyStr
  payload : PyDict

/-- What `close_mission` finds on the disk. -/
structure Workspace where
  manifest : PyDict
  /-- `resolve_evidence_file`, from an argument and a label -/
  resolve : PyStr → String → Except GateExc EvidenceFile
  /-- `canonical_hash` of the closure material -/
  fingerprint : List PyStr → Except PyExc PyStr
  closureReport : Option PyDict
  missionStatus : Option PyDict
  /-- the six outputs, none of which is in conflict with a file that is there -/
  write : Except GateExc Unit

/-- How a call of `close_mission` ends. -/
inductive Closing
  | closed
  | preview
  /-- the same closure was there before -/
  | reentry
  | failed (e : GateExc)
  /-- an exception that is not caught -/
  | raised (e : PyExc)

/-- The exit code is 0. -/
def Closing.accepted : Closing → Bool
  | closed | preview | reentry => true
  | failed _ | raised _ => false

/-- The evidence of a call, after its validation. -/
structure Evidence where
  execution : EvidenceFile
  review : EvidenceFile
  teachback : EvidenceFile
  record : PyDict

/-- The evidence is found and validated. -/
def validateEvidence (args : ClosureArgs) (ws : Workspace) : Except GateExc Evidence := do
  let execution ← ws.resolve args.executionEvidence "execution evidence"
  let review ← ws.resolve args.reviewEvidence "review evidence"
  let teachback ← ws.resolve args.teachbackRecord "teachback record"
  validateExecutionEvidence execution.payload
  validateReviewEvidence py review.payload
  let record ← validateTeachbackForClosure py teachback.payload args.missionId ws.manifest
    execution.relative review.relative
  return ⟨execution, review, teachback, record⟩

/-- `f"{mission_id}_closure"`, unless there is a closure id -/
def ClosureArgs.closureName (args : ClosureArgs) : PyStr :=
  if args.closureId = [] then args.missionId ++ .ofString "_closure" else args.closureId

/-- `validate_safe_id` -/
def validateSafeId (value : PyStr) (fieldName : String) : Except GateExc Unit :=
  check (isSafeId value) (.closureError (fieldName ++
    " must be alphanumeric plus '.', '_' or '-' and may not contain path separators"))

/-- What is hashed for the fingerprint. -/
def closureMaterial (args : ClosureArgs) (evidence : Evidence) : List PyStr :=
  [args.missionId, args.closureName,
    if args.humanActor.strip = [] then .ofString "human" else args.humanActor.strip,
    args.closureReason.strip, evidence.execution.relative, evidence.execution.sha256,
    evidence.review.relative, evidence.review.sha256, evidence.teachback.relative,
    evidence.teachback.sha256]

/-- The human approval, and the files that are written then. -/
def confirmClosure (args : ClosureArgs) (ws : Workspace) : Except GateExc Closing := do
  check (args.approvalToken = .ofString "CLOSE_MISSION_WITH_TEACHBACK")
    (.closureError "invalid approval token for mission closure")
  check (10 ≤ args.closureReason.strip.length)
    (.closureError "closure reason must be at least 10 characters")
  check args.humanActor.nonBlank (.closureError "human_actor must not be empty")
  check (!ws.missionStatus.any fun status => (field status "status").is "closed") (.closureError
    "BLOCKED_TEACHBACK_CONFLICT: mission status is already closed without matching report")
  ws.write
  return .closed

/-- The `try` block of `close_mission` -/
def closeMissionBody (args : ClosureArgs) (ws : Workspace) : Except GateExc Closing := do
  validateSafeId args.missionId "mission_id"
  validateSafeId args.closureName "closure_id"
  check ((field ws.manifest "mission_id").eqStr args.missionId)
    (.closureError "mission manifest mission_id does not match request")
  let _ ← manifestTeachbackPolicy py ws.manifest
  let evidence ← validateEvidence py args ws
  let fingerprint ← (ws.fingerprint (closureMaterial args evidence)).mapError .python
  match ws.closureReport with
  | some existing =>
      if (field existing "status").is "passed" ∧
          (field existing "closure_fingerprint").eqStr fingerprint then
        return .reentry
      else
        .error (.closureError
          "BLOCKED_TEACHBACK_CONFLICT: mission already has different closure evidence")
  | none => if args.confirmClose then confirmClosure args ws else return .preview

/-- `close_mission` -/
def closeMission (args : ClosureArgs) (ws : Workspace) : Closing :=
  match closeMissionBody py args ws with
  | .ok closing => closing
  | .error (.python e) => if e.isReadError then .failed (.python e) else .raised e
  | .error e => .failed e

/-! ### What an acceptance rests on -/

/-- Some field reports success. -/
def ReportsSuccess (payload : PyDict) : Prop :=
  isOneOf successWords (field payload "status") = true ∨
    (field payload "exit_code").isInt 0 = true ∨
    (entry (field payload "result") "exit_code").isInt 0 = true

/-- A field reports something else: a status that is none of the words for success, or an exit code
that is not 0. -/
def ReportsFailure (payload : PyDict) : Prop :=
  (field payload "status" ≠ .null ∧ isOneOf successWords (field payload "status") = false) ∨
    (field payload "exit_code" ≠ .null ∧ (field payload "exit_code").isInt 0 = false) ∨
    (entry (field payload "result") "exit_code" ≠ .null ∧
      (entry (field payload "result") "exit_code").isInt 0 = false)

/-- Every decision field that is there approves. -/
def Unanimous (payload : PyDict) : Prop :=
  ∀ v ∈ decisionFields payload, v ≠ .null → ∃ d, decisionOf py v = some d ∧ d.approves = true

/-- The first decision field with a known word approves. -/
def FirstApproves (payload : PyDict) : Prop :=
  ∃ before v after d, decisionFields payload = before ++ v :: after ∧
    (∀ w ∈ before, decisionOf py w = none) ∧ decisionOf py v = some d ∧ d.approves = true

/-- What the three objects of evidence say, given the paths of the first two. -/
structure Supports (execution review teachback : EvidenceFile) : Prop where
  success : ReportsSuccess execution.payload
  decision : FirstApproves py review.payload
  approval : field review.payload "human_approval" ≠ .bool false
  reviewer : ∃ s : PyStr, reviewedBy review.payload = .str s ∧ s.strip ≠ []
  sourceExecution : field teachback.payload "source_execution" = .str execution.relative
  sourceReview : field teachback.payload "source_review" = .str review.relative

/-! ### The validators -/

theorem mapError_eq_ok_iff {ε δ α : Type} {f : ε → δ} {x : Except ε α} {a : α} :
    x.mapError f = .ok a ↔ x = .ok a := by
  cases x with
  | error e => exact iff_of_false (fun h => nomatch h) fun h => nomatch h
  | ok b => exact ⟨fun h => congrArg _ (Except.ok.inj h), fun h => congrArg _ (Except.ok.inj h)⟩

theorem validateExecutionEvidence_eq_ok {payload : PyDict} {u : Unit}
    (h : validateExecutionEvidence payload = .ok u) : ReportsSuccess payload := by
  obtain ⟨named, hnamed, h⟩ := bind_eq_ok.mp h
  obtain ⟨-, hword⟩ := memberOf_eq_ok_iff.mp (mapError_eq_ok_iff.mp hnamed)
  have hpassed := check_eq_ok_iff.mp h
  rw [Bool.or_eq_true, Bool.or_eq_true, ← hword, or_assoc] at hpassed
  exact hpassed

theorem firstApproves_of_reviewDecision {payload : PyDict}
    (h : (reviewDecision py payload).any Decision.approves = true) : FirstApproves py payload := by
  obtain ⟨d, hd, happroves⟩ := (Option.any_eq_true _ _).mp h
  obtain ⟨before, v, after, hfields, hv, hbefore⟩ := List.findSome?_eq_some_iff.mp hd
  exact ⟨before, v, after, d, hfields, hbefore, hv, happroves⟩

theorem validateReviewEvidence_eq_ok {payload : PyDict} {u : Unit}
    (h : validateReviewEvidence py payload = .ok u) :
    FirstApproves py payload ∧ field payload "human_approval" ≠ .bool false ∧
      ∃ s : PyStr, reviewedBy payload = .str s ∧ s.strip ≠ [] := by
  obtain ⟨_, hdecision, h⟩ := bind_eq_ok.mp h
  obtain ⟨_, happroval, h⟩ := bind_eq_ok.mp h
  refine ⟨firstApproves_of_reviewDecision py (check_eq_ok_iff.mp hdecision), fun hdenied => ?_, ?_⟩
  · rw [hdenied] at happroval
    exact absurd (check_eq_ok_iff.mp happroval) (by decide)
  · exact nonBlankStr_iff.mp (check_eq_ok_iff.mp h)

theorem validateTeachbackForClosure_eq_ok {payload record manifest : PyDict}
    {missionId executionPath reviewPath : PyStr}
    (h : validateTeachbackForClosure py payload missionId manifest executionPath reviewPath =
      .ok record) : field payload "source_execution" = .str executionPath ∧
        field payload "source_review" = .str reviewPath := by
  obtain ⟨record', hrecord, hchecks⟩ := bind_eq_ok.mp h
  obtain ⟨_, -, hchecks⟩ := bind_eq_ok.mp hchecks
  obtain ⟨_, -, hchecks⟩ := bind_eq_ok.mp hchecks
  obtain ⟨_, hexecution, hchecks⟩ := bind_eq_ok.mp hchecks
  obtain ⟨_, hreview, -⟩ := bind_eq_ok.mp hchecks
  obtain rfl := validateTeachbackRecord_eq_ok py hrecord
  exact ⟨eqStr_iff.mp (check_eq_ok_iff.mp hexecution), eqStr_iff.mp (check_eq_ok_iff.mp hreview)⟩

theorem validateEvidence_eq_ok {args : ClosureArgs} {ws : Workspace} {evidence : Evidence}
    (h : validateEvidence py args ws = .ok evidence) :
    ws.resolve args.executionEvidence "execution evidence" = .ok evidence.execution ∧
      ws.resolve args.reviewEvidence "review evidence" = .ok evidence.review ∧
      ws.resolve args.teachbackRecord "teachback record" = .ok evidence.teachback ∧
      Supports py evidence.execution evidence.review evidence.teachback := by
  obtain ⟨execution, hexecution, h⟩ := bind_eq_ok.mp h
  obtain ⟨review, hreview, h⟩ := bind_eq_ok.mp h
  obtain ⟨teachback, hteachback, h⟩ := bind_eq_ok.mp h
  obtain ⟨_, hsuccess, h⟩ := bind_eq_ok.mp h
  obtain ⟨_, happroves, h⟩ := bind_eq_ok.mp h
  obtain ⟨record, hrecord, h⟩ := bind_eq_ok.mp h
  obtain rfl := Except.ok.inj h
  obtain ⟨hdecision, happroval, hreviewer⟩ := validateReviewEvidence_eq_ok py happroves
  obtain ⟨hsourceExecution, hsourceReview⟩ := validateTeachbackForClosure_eq_ok py hrecord
  exact ⟨hexecution, hreview, hteachback, validateExecutionEvidence_eq_ok hsuccess, hdecision,
    happroval, hreviewer, hsourceExecution, hsourceReview⟩

theorem accepted_closeMission {args : ClosureArgs} {ws : Workspace}
    (h : (closeMission py args ws).accepted = true) :
    ∃ closing, closeMissionBody py args ws = .ok closing := by
  unfold closeMission at h
  split at h
  · next closing hbody => exact ⟨closing, hbody⟩
  · split_ifs at h <;> cases h
  · cases h

theorem closeMissionBody_eq_ok {args : ClosureArgs} {ws : Workspace} {closing : Closing}
    (h : closeMissionBody py args ws = .ok closing) :
    ∃ evidence, validateEvidence py args ws = .ok evidence := by
  obtain ⟨_, -, h⟩ := bind_eq_ok.mp h
  obtain ⟨_, -, h⟩ := bind_eq_ok.mp h
  obtain ⟨_, -, h⟩ := bind_eq_ok.mp h
  obtain ⟨_, -, h⟩ := bind_eq_ok.mp h
  obtain ⟨evidence, hevidence, -⟩ := bind_eq_ok.mp h
  exact ⟨evidence, hevidence⟩

/-- `--force` changes nothing. -/
theorem closeMission_force (args : ClosureArgs) (ws : Workspace) (force : Bool) :
    closeMission py { args with force := force } ws = closeMission py args ws := rfl

/-- **A mission is closed on evidence that reports success, on a first decision that approves and
on a teachback record that names both.** -/
theorem closes_on_evidence {args : ClosureArgs} {ws : Workspace}
    (h : (closeMission py args ws).accepted = true) :
    (∃ execution review teachback,
      ws.resolve args.executionEvidence "execution evidence" = .ok execution ∧
      ws.resolve args.reviewEvidence "review evidence" = .ok review ∧
      ws.resolve args.teachbackRecord "teachback record" = .ok teachback ∧
      Supports py execution review teachback) ∧
    ∀ force, closeMission py { args with force := force } ws = closeMission py args ws := by
  obtain ⟨closing, hbody⟩ := accepted_closeMission py h
  obtain ⟨evidence, hevidence⟩ := closeMissionBody_eq_ok py hbody
  obtain ⟨hexecution, hreview, hteachback, hsupports⟩ := validateEvidence_eq_ok py hevidence
  exact ⟨⟨_, _, _, hexecution, hreview, hteachback, hsupports⟩, closeMission_force py args ws⟩

/-! ### Evidence that contradicts itself -/

/-- Lower case of ASCII. -/
def asciiPython : Python where
  lower s := s.map fun
    | scalar c => scalar c.toLower
    | surrogate n => surrogate n
  format _ := .ok (.ofString "None")

def text (s : String) : PyJson := .str (.ofString s)

def dict (kvs : List (String × PyJson)) : PyDict := kvs.map fun kv => (.ofString kv.1, kv.2)

/-- The status says that it failed, and the exit code that it did not. -/
def failedExecution : EvidenceFile where
  relative := .ofString "execution.json"
  sha256 := []
  payload := dict [("status", text "failed"), ("exit_code", .int 0)]

/-- The decision approves, and the status rejects. -/
def rejectedReview : EvidenceFile where
  relative := .ofString "review.json"
  sha256 := []
  payload := dict [("decision", text "approved"), ("status", text "rejected"),
    ("reviewed_by", text "h")]

def sampleRecord : EvidenceFile where
  relative := .ofString "teachback.json"
  sha256 := []
  payload := dict [("schema_version", text "1.0.0"), ("report_type", text "teachback_record"),
    ("teachback_id", text "t"), ("mission_id", text "m"), ("required", .bool true),
    ("required_level", .int 2), ("achieved_level", .int 2), ("result", text "passed"),
    ("completed_by_user", .bool true), ("summary", text "twenty characters at least"),
    ("gaps", .arr []), ("next_explanation_needed", .null), ("human_actor", text "h"),
    ("human_evidence", .arr [text "said so"]), ("source_execution", text "execution.json"),
    ("source_review", text "review.json"), ("skip_reason", .null), ("recorded_at", text "now"),
    ("non_authority", .arr [])]

def sampleArgs : ClosureArgs where
  missionId := .ofString "m"
  closureId := []
  executionEvidence := .ofString "execution.json"
  reviewEvidence := .ofString "review.json"
  teachbackRecord := .ofString "teachback.json"
  humanActor := .ofString "h"
  closureReason := .ofString "ten letters"
  approvalToken := .ofString "CLOSE_MISSION_WITH_TEACHBACK"
  confirmClose := true
  force := false

def sampleWorkspace : Workspace where
  manifest := dict [("mission_id", text "m")]
  resolve _ label :=
    if label = "execution evidence" then .ok failedExecution
    else if label = "review evidence" then .ok rejectedReview
    else .ok sampleRecord
  fingerprint _ := .ok []
  closureReport := none
  missionStatus := none
  write := .ok ()

def Closing.isClosed : Closing → Bool
  | closed => true
  | _ => false

theorem isClosed_sample : (closeMission asciiPython sampleArgs sampleWorkspace).isClosed = true := by
  decide +kernel

theorem accepted_of_isClosed {closing : Closing} (h : closing.isClosed = true) :
    closing.accepted = true := by
  cases closing with
  | closed => rfl
  | preview | reentry | failed | raised => cases h

/-- An execution that failed and a review that rejects close the mission, on a human's approval. -/
theorem contradictory_closed :
    (closeMission asciiPython sampleArgs sampleWorkspace).isClosed = true ∧
      sampleWorkspace.resolve sampleArgs.executionEvidence "execution evidence" =
        .ok failedExecution ∧
      sampleWorkspace.resolve sampleArgs.reviewEvidence "review evidence" = .ok rejectedReview ∧
      ReportsFailure failedExecution.payload ∧ ¬ Unanimous asciiPython rejectedReview.payload := by
  refine ⟨isClosed_sample, rfl, rfl, Or.inl ⟨nofun, by decide +kernel⟩, fun h => ?_⟩
  obtain ⟨d, hd, happroves⟩ := h (text "rejected") (by
    rw [decisionFields]
    exact List.mem_append_left _ (List.mem_append_left _ (.tail _ (.tail _ (.head _))))) nofun
  have hrejected : decisionOf asciiPython (text "rejected") = some .rejected := by decide +kernel
  obtain rfl := Option.some.inj (hrejected.symm.trans hd)
  cases happroves

/-- The samples are accepted. -/
theorem sample_closes :
    (∃ execution review teachback,
      sampleWorkspace.resolve sampleArgs.executionEvidence "execution evidence" = .ok execution ∧
      sampleWorkspace.resolve sampleArgs.reviewEvidence "review evidence" = .ok review ∧
      sampleWorkspace.resolve sampleArgs.teachbackRecord "teachback record" = .ok teachback ∧
      Supports asciiPython execution review teachback) ∧
    ∀ force, closeMission asciiPython { sampleArgs with force := force } sampleWorkspace =
      closeMission asciiPython sampleArgs sampleWorkspace :=
  closes_on_evidence asciiPython (accepted_of_isClosed isClosed_sample)

end Konoha.Mission
