/-
Study/Teachback.lean

The teachback record of a repository study: how it starts, what a valid one is,
and what a response does to it.  `reply` is the effect of an accepted response;
it does not depend on the study that the record was checked against.
-/
import KonohaRuntime.Runtime.Sources
import KonohaRuntime.Runtime.Result

namespace Konoha

open Json

/-- What the teachback looks at of a `RepositoryStudyRecord`. -/
structure Study where
  studyId : String
  evidenceReference : Json

/-- `start_repository_teachback` -/
def startRepositoryTeachback (study : Study) : List (String × Json) :=
  [("schema_version", .str "1.0.0"), ("report_type", .str "repository_teachback"),
   ("study_id", .str study.studyId), ("evidence_reference", study.evidenceReference),
   ("status", .str "awaiting_human"), ("completed_by_user", .bool false),
   ("human_command", null), ("clarification_count", .int 0),
   ("last_question", null), ("last_question_truncated", .bool false),
   ("non_authority",
    .str "Repository understanding is not execution approval or mission closure.")]

/-- The keys whose values never change. -/
def provenanceKeys : List String :=
  ["schema_version", "report_type", "study_id", "evidence_reference", "non_authority"]

/-- `TeachbackError` -/
def teachbackError (reason : String) : PyExc := .exception reason

/-- `question is not None and (not isinstance(question, str) or len(question) > 2000)` -/
def badQuestion : Json → Bool
  | .null => false
  | .str s => decide (2000 < s.toList.length)
  | _ => true

/-- `type(v) is not int or v < 0` -/
def badCount : Json → Bool
  | .int n => decide (n < 0)
  | _ => true

/-- `validate_repository_teachback` -/
def validateRepositoryTeachback (record : Json) (study : Study) :
    Except PyExc (List (String × Json)) :=
  let expected := startRepositoryTeachback study
  match record with
  | .obj kvs =>
      if ¬ hasKeys (expected.map (·.1)) kvs then
        .error (teachbackError "repository_teachback_invalid_fields")
      else if ∃ key ∈ provenanceKeys, fieldOf kvs key ≠ fieldOf expected key then
        .error (teachbackError "repository_teachback_provenance_mismatch")
      else if ¬ isBool (fieldOf kvs "completed_by_user") ∨
          (fieldOf kvs "status" ≠ .str "awaiting_human" ∧
            fieldOf kvs "status" ≠ .str "understood") then
        .error (teachbackError "repository_teachback_invalid_status")
      else
        let closed := decide (fieldOf kvs "status" = .str "understood")
        if fieldOf kvs "completed_by_user" ≠ .bool closed ∨
            fieldOf kvs "human_command" ≠ (if closed then .str ":entendido" else null) then
          .error (teachbackError "repository_teachback_requires_exact_human_command")
        else if badCount (fieldOf kvs "clarification_count") then
          .error (teachbackError "repository_teachback_invalid_count")
        else if badQuestion (fieldOf kvs "last_question") then
          .error (teachbackError "repository_teachback_invalid_question")
        else if ¬ isBool (fieldOf kvs "last_question_truncated") then
          .error (teachbackError "repository_teachback_invalid_question")
        else .ok kvs
  | _ => .error (teachbackError "repository_teachback_invalid_fields")

/-- The record is closed. -/
def Understood (kvs : List (String × Json)) : Prop := fieldOf kvs "status" = .str "understood"

instance (kvs : List (String × Json)) : Decidable (Understood kvs) := by
  unfold Understood; infer_instance

/-- `v + 1` on a count. -/
def increment : Json → Json
  | .int n => .int (n + 1)
  | v => v

/-- What a response does to a valid record. -/
def reply (humanInput : String) (kvs : List (String × Json)) : List (String × Json) :=
  if Understood kvs then kvs
  else if humanInput = ":entendido" then
    setField "human_command" (.str humanInput)
      (setField "completed_by_user" (.bool true) (setField "status" (.str "understood") kvs))
  else
    setField "last_question_truncated" (.bool (decide (2000 < humanInput.toList.length)))
      (setField "last_question" (.str (String.ofList (humanInput.toList.take 2000)))
        (setField "clarification_count" (increment (fieldOf kvs "clarification_count")) kvs))

/-- `respond_repository_teachback` -/
def respondRepositoryTeachback (record : Json) (study : Study) (humanInput actor : String) :
    Except PyExc (List (String × Json)) := do
  let kvs ← validateRepositoryTeachback record study
  if actor ≠ "human" then
    .error (teachbackError "repository_teachback_human_input_required")
  else .ok (reply humanInput kvs)

/-- `clarification_count` -/
def clarificationCount (kvs : List (String × Json)) : Int :=
  match fieldOf kvs "clarification_count" with
  | .int n => n
  | _ => 0

theorem validateRepositoryTeachback_ok {record : Json} {study : Study}
    {kvs : List (String × Json)} (h : validateRepositoryTeachback record study = .ok kvs) :
    record = .obj kvs := by
  unfold validateRepositoryTeachback at h
  cases record with
  | obj fields =>
      dsimp only at h
      split_ifs at h <;> rw [Except.ok.inj h]
  | _ => cases h

/-- The count of a valid record is a number. -/
theorem count_of_validateRepositoryTeachback {record : Json} {study : Study}
    {kvs : List (String × Json)} (h : validateRepositoryTeachback record study = .ok kvs) :
    ∃ n, fieldOf kvs "clarification_count" = .int n := by
  obtain rfl := validateRepositoryTeachback_ok h
  have hcount : ¬ badCount (fieldOf kvs "clarification_count") = true := by
    unfold validateRepositoryTeachback at h
    dsimp only at h
    split_ifs at h <;> assumption
  cases hv : fieldOf kvs "clarification_count" with
  | int n => exact ⟨n, rfl⟩
  | null | bool | float | str | arr | obj =>
      rw [hv] at hcount
      exact absurd rfl hcount

/-- An accepted response is a reply to the record as it was read, which was valid. -/
theorem respondRepositoryTeachback_ok {record : Json} {study : Study} {humanInput actor : String}
    {kvs : List (String × Json)}
    (h : respondRepositoryTeachback record study humanInput actor = .ok kvs) :
    ∃ fields, validateRepositoryTeachback record study = .ok fields ∧ kvs = reply humanInput fields := by
  unfold respondRepositoryTeachback at h
  cases hv : validateRepositoryTeachback record study with
  | error e =>
      rw [hv] at h
      cases h
  | ok fields =>
      rw [hv] at h
      refine ⟨fields, rfl, ?_⟩
      simp only [bind, Except.bind] at h
      split at h
      · cases h
      · exact (Except.ok.inj h).symm

/-! ### What a response does -/

theorem fieldOf_setField_self (k : String) (v : Json) (kvs : List (String × Json)) :
    fieldOf (setField k v kvs) k = v := by
  rw [fieldOf, lookup_setField_self]
  rfl

theorem fieldOf_setField_ne {k l : String} (h : l ≠ k) (v : Json) (kvs : List (String × Json)) :
    fieldOf (setField k v kvs) l = fieldOf kvs l := by
  rw [fieldOf, lookup_setField_ne h, fieldOf]

/-- The command closes the record and changes nothing else. -/
theorem fieldOf_reply_command {kvs : List (String × Json)} (h : ¬ Understood kvs) :
    Understood (reply ":entendido" kvs) ∧
      fieldOf (reply ":entendido" kvs) "human_command" = .str ":entendido" ∧
      ∀ key, key ≠ "human_command" → key ≠ "completed_by_user" → key ≠ "status" →
        fieldOf (reply ":entendido" kvs) key = fieldOf kvs key := by
  rw [reply, if_neg h, if_pos rfl]
  refine ⟨?_, fieldOf_setField_self _ _ _, fun key hcommand hcompleted hstatus => ?_⟩
  · rw [Understood, fieldOf_setField_ne (by decide), fieldOf_setField_ne (by decide),
      fieldOf_setField_self]
  · rw [fieldOf_setField_ne hcommand, fieldOf_setField_ne hcompleted, fieldOf_setField_ne hstatus]

/-- A question is counted and kept, and closes nothing. -/
theorem fieldOf_reply_question {kvs : List (String × Json)} {question : String} (h : ¬ Understood kvs)
    (hquestion : question ≠ ":entendido") :
    fieldOf (reply question kvs) "clarification_count" =
        increment (fieldOf kvs "clarification_count") ∧
      fieldOf (reply question kvs) "last_question" =
        .str (String.ofList (question.toList.take 2000)) ∧
      fieldOf (reply question kvs) "last_question_truncated" =
        .bool (decide (2000 < question.toList.length)) ∧
      ∀ key, key ≠ "last_question_truncated" → key ≠ "last_question" → key ≠ "clarification_count" →
        fieldOf (reply question kvs) key = fieldOf kvs key := by
  rw [reply, if_neg h, if_neg hquestion]
  refine ⟨?_, ?_, fieldOf_setField_self _ _ _, fun key htruncated hlast hcount => ?_⟩
  · rw [fieldOf_setField_ne (by decide), fieldOf_setField_ne (by decide), fieldOf_setField_self]
  · rw [fieldOf_setField_ne (by decide), fieldOf_setField_self]
  · rw [fieldOf_setField_ne htruncated, fieldOf_setField_ne hlast, fieldOf_setField_ne hcount]

/-! ### Closed records stay closed -/

theorem reply_of_understood {humanInput : String} {kvs : List (String × Json)}
    (h : Understood kvs) : reply humanInput kvs = kvs := if_pos h

/-- A closed record has been closed by exactly `:entendido`. -/
theorem understood_reply_iff {humanInput : String} {kvs : List (String × Json)} :
    Understood (reply humanInput kvs) ↔ Understood kvs ∨ humanInput = ":entendido" := by
  by_cases hu : Understood kvs
  · rw [reply_of_understood hu]
    exact ⟨.inl, fun _ => hu⟩
  by_cases hin : humanInput = ":entendido"
  · subst hin
    exact iff_of_true (fieldOf_reply_command hu).1 (.inr rfl)
  · refine iff_of_false ?_ (not_or.mpr ⟨hu, hin⟩)
    rw [Understood, (fieldOf_reply_question hu hin).2.2.2 _ (by decide) (by decide) (by decide)]
    exact hu

end Konoha
