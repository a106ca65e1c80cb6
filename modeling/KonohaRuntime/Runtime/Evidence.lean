/-
Runtime/Evidence.lean

Evidence records as files: what `_persist` writes, and the strict check of
`_verify_completed_evidence` on one parsed file.  `Verifiable` says exactly when
the record that was written is the one that is read back.
-/
import KonohaRuntime.Runtime.StateFile

namespace Konoha

open Json

/-! ### Numbers -/

/-- `isinstance(v, (int, float)) and not isinstance(v, bool)`, and finite.
`math.isfinite` raises `OverflowError` for an integer that rounds beyond the
largest float, which counts as not finite. -/
def isFiniteNumber : Json → Bool
  | .int i => decide (i.natAbs < 2 ^ 1024 - 2 ^ 970)
  | .float f => f.isFinite
  | _ => false

/-- The value of a finite number. -/
def numValue : Json → Rat
  | .int i => i
  | .float f => f.toRat
  | _ => 0

/-! ### Records as objects -/

/-- `record.__dict__` -/
def EvidenceRecord.fields (r : EvidenceRecord) : List (String × Json) :=
  [("evidence_id", .str r.evidenceId.1), ("mission_id", .str r.missionId),
   ("task_id", r.taskId), ("provider", r.provider), ("model", r.model),
   ("status", .str r.status.text), ("output", .str r.output), ("token_usage", r.tokenUsage),
   ("command", r.command), ("started_at", r.startedAt), ("finished_at", r.finishedAt),
   ("output_hash", .str r.outputHash.1)]

def EvidenceRecord.asdict (r : EvidenceRecord) : Json := .obj r.fields

/-- `_EVIDENCE_REQUIRED_KEYS` -/
def evidenceRequiredKeys : List String :=
  ["evidence_id", "mission_id", "task_id", "provider", "model", "status", "output",
   "token_usage", "command", "started_at", "finished_at", "output_hash"]

/-- `dict[str, int]` of counts. -/
def isTokenUsage : Json → Bool
  | .obj kvs => kvs.all fun kv => match kv.2 with
      | .int i => decide (0 ≤ i)
      | _ => false
  | _ => false

/-- `list[str]` -/
def isCommand : Json → Bool
  | .arr xs => xs.all isStr
  | _ => false

/-- The checks of `_verify_completed_evidence` on the fields of one file. -/
def evidenceAccepted (py : Stdlib) (missionId : String) (taskId : Json)
    (evidenceId : EvidenceId) (field : String → Json) : Prop :=
  field "evidence_id" = .str evidenceId.1 ∧
  (nonEmptyStr (field "mission_id") = true ∧ field "mission_id" = .str missionId) ∧
  (nonEmptyStr (field "task_id") = true ∧ field "task_id" = taskId) ∧
  nonEmptyStr (field "provider") = true ∧
  (field "model").isStr = true ∧
  field "status" = .str "completed" ∧
  (field "output").isStr = true ∧
  nonEmptyStr (field "output_hash") = true ∧
  isTokenUsage (field "token_usage") = true ∧
  isCommand (field "command") = true ∧
  isFiniteNumber (field "started_at") = true ∧ isFiniteNumber (field "finished_at") = true ∧
  ¬ numValue (field "finished_at") < numValue (field "started_at") ∧
  field "output_hash" = .str (py.sha256 (asText (field "output"))).1

instance (py : Stdlib) (missionId : String) (taskId : Json) (evidenceId : EvidenceId)
    (field : String → Json) :
    Decidable (evidenceAccepted py missionId taskId evidenceId field) := by
  unfold evidenceAccepted; infer_instance

/-- One parsed evidence file as the record of a completed task, or `none` for
`missing_or_corrupt_completed_evidence`. -/
def parseEvidence (py : Stdlib) (missionId : String) (taskId : Json) (evidenceId : EvidenceId) :
    Json → Option EvidenceRecord
  | .obj kvs =>
      let field := fieldOf kvs
      if hasKeys evidenceRequiredKeys kvs = true ∧
          evidenceAccepted py missionId taskId evidenceId field then
        some
          { evidenceId := evidenceId
            missionId := missionId
            taskId := taskId
            provider := field "provider"
            model := field "model"
            status := .completed
            output := asText (field "output")
            tokenUsage := field "token_usage"
            command := field "command"
            startedAt := field "started_at"
            finishedAt := field "finished_at"
            outputHash := py.sha256 (asText (field "output")) }
      else none
  | _ => none

/-! ### What is read back -/

/-- The records that verification takes back under `missionId`. -/
structure Verifiable (py : Stdlib) (missionId : String) (r : EvidenceRecord) : Prop where
  missionId : r.missionId = missionId ∧ nonBlank missionId = true
  taskId : nonEmptyStr r.taskId = true
  provider : nonEmptyStr r.provider = true
  model : r.model.isStr = true
  status : r.status = .completed
  tokenUsage : isTokenUsage r.tokenUsage = true
  command : isCommand r.command = true
  startedAt : isFiniteNumber r.startedAt = true
  finishedAt : isFiniteNumber r.finishedAt = true
  ordered : numValue r.startedAt ≤ numValue r.finishedAt
  outputHash : r.outputHash = py.sha256 r.output

section Fields

variable (r : EvidenceRecord)

@[simp] theorem fieldOf_record_evidenceId :
    fieldOf r.fields "evidence_id" = .str r.evidenceId.1 := rfl

@[simp] theorem fieldOf_record_missionId :
    fieldOf r.fields "mission_id" = .str r.missionId := rfl

@[simp] theorem fieldOf_record_taskId : fieldOf r.fields "task_id" = r.taskId := rfl

@[simp] theorem fieldOf_record_provider : fieldOf r.fields "provider" = r.provider := rfl

@[simp] theorem fieldOf_record_model : fieldOf r.fields "model" = r.model := rfl

@[simp] theorem fieldOf_record_status : fieldOf r.fields "status" = .str r.status.text := rfl

@[simp] theorem fieldOf_record_output : fieldOf r.fields "output" = .str r.output := rfl

@[simp] theorem fieldOf_record_tokenUsage : fieldOf r.fields "token_usage" = r.tokenUsage := rfl

@[simp] theorem fieldOf_record_command : fieldOf r.fields "command" = r.command := rfl

@[simp] theorem fieldOf_record_startedAt : fieldOf r.fields "started_at" = r.startedAt := rfl

@[simp] theorem fieldOf_record_finishedAt : fieldOf r.fields "finished_at" = r.finishedAt := rfl

@[simp] theorem fieldOf_record_outputHash :
    fieldOf r.fields "output_hash" = .str r.outputHash.1 := rfl

theorem hasKeys_record : hasKeys evidenceRequiredKeys r.fields = true := rfl

end Fields

/-- **Evidence read back**: for its own id and task, the file of a record
passes verification exactly when the record is `Verifiable`, and then gives that
record. -/
theorem parseEvidence_asdict {py : Stdlib} {missionId : String} {r r' : EvidenceRecord} :
    parseEvidence py missionId r.taskId r.evidenceId r.asdict = some r' ↔
      Verifiable py missionId r ∧ r' = r := by
  have hcompleted : r.status.text = "completed" ↔ r.status = .completed := by
    cases r.status <;> decide
  simp only [parseEvidence, EvidenceRecord.asdict, hasKeys_record, true_and, evidenceAccepted,
    fieldOf_record_evidenceId, fieldOf_record_missionId, fieldOf_record_taskId,
    fieldOf_record_provider, fieldOf_record_model, fieldOf_record_status, fieldOf_record_output,
    fieldOf_record_tokenUsage, fieldOf_record_command, fieldOf_record_startedAt,
    fieldOf_record_finishedAt, fieldOf_record_outputHash, nonEmptyStr_str, Json.str.injEq,
    hcompleted, isStr_str, asText, Rat.not_lt, true_and, and_true, Option.ite_none_right_eq_some,
    Option.some.injEq, HexString.nonBlank]
  constructor
  · rintro ⟨⟨⟨hmb, hm⟩, ht, hp, hmo, hs, htu, hc, hst, hfi, hle, hh⟩, rfl⟩
    have hh : r.outputHash = py.sha256 r.output := Subtype.ext hh
    refine ⟨⟨⟨hm, hm ▸ hmb⟩, ht, hp, hmo, hs, htu, hc, hst, hfi, hle, hh⟩, ?_⟩
    subst hm
    rw [← hh, ← hs]
  · rintro ⟨h, rfl⟩
    refine ⟨⟨⟨h.missionId.1 ▸ h.missionId.2, h.missionId.1⟩, h.taskId, h.provider, h.model,
      h.status, h.tokenUsage, h.command, h.startedAt, h.finishedAt, h.ordered, ?_⟩, ?_⟩
    · rw [h.outputHash]
    · obtain rfl := h.missionId.1
      rw [← h.outputHash, ← h.status]

/-- A verified record is the completed record of its task. -/
theorem parseEvidence_some {py : Stdlib} {missionId : String} {taskId : Json}
    {evidenceId : EvidenceId} {raw : Json} {r : EvidenceRecord}
    (h : parseEvidence py missionId taskId evidenceId raw = some r) :
    r.taskId = taskId ∧ r.evidenceId = evidenceId ∧ r.status = .completed := by
  unfold parseEvidence at h
  split at h
  · dsimp only at h
    split at h
    · obtain rfl := Option.some.inj h
      exact ⟨rfl, rfl, rfl⟩
    · cases h
  · cases h

end Konoha
