/-
Runtime/Result.lean

What a provider's text says about one assignment: the text is parsed
(`parseAssignmentResultText`), its shape is checked against the result schema
(`validateAssignmentResultPayload`), its fields against each other
(`validateAssignmentResultRules`), and only then is its outcome looked up.
Free text is never searched.
-/
import KonohaRuntime.Runtime.StateFile
import KonohaRuntime.Runtime.Invariants

namespace Konoha

open Json CodePoint

/-! ### The text -/

/-- Three backquotes. -/
def fence : PyStr := PyStr.ofString "```"

/-- What follows the match of `_FENCE_HEADER_PATTERN`: three backquotes, an
optional `json`, an optional carriage return and a line feed. -/
def afterFenceHeader (stripped : PyStr) : Option PyStr :=
  if fence.isPrefixOf stripped then
    let rest := stripped.drop 3
    let rest := if (PyStr.ofString "json").isPrefixOf rest then rest.drop 4 else rest
    match rest with
    | scalar '\r' :: scalar '\n' :: body => some body
    | scalar '\n' :: body => some body
    | _ => none
  else none

/-- `s[:-len(suffix)]`, when `s` ends in `suffix`. -/
def dropSuffix? (suffix s : PyStr) : Option PyStr :=
  if suffix.isSuffixOf s then some (s.take (s.length - suffix.length)) else none

/-- `_extract_single_fenced_block` -/
def extractSingleFencedBlock (stripped : PyStr) : Except PyExc PyStr :=
  match afterFenceHeader stripped with
  | none => .error (.valueError "malformed_fence_header")
  | some rest =>
      match dropSuffix? fence rest with
      | none => .error (.valueError "incomplete_fence")
      | some body =>
          match dropSuffix? [scalar '\r', scalar '\n'] body with
          | some inner => .ok inner
          | none =>
              match dropSuffix? [scalar '\n'] body with
              | some inner => .ok inner
              | none => .error (.valueError "malformed_fence_closing")

/-- `json.loads`, with the exception it raises -/
def loadsOrRaise (it : Interpreter) (s : PyStr) : Except PyExc PyJson :=
  (loads it s).mapError LoadError.exc

/-- `_parse_assignment_result_text` -/
def parseAssignmentResultText (it : Interpreter) (text : PyStr) : Except PyExc PyJson :=
  let stripped := text.strip
  if fence.isPrefixOf stripped then do
    let body ← extractSingleFencedBlock stripped
    loadsOrRaise it body
  else loadsOrRaise it stripped

/-! ### The payload -/

/-- `_ASSIGNMENT_RESULT_REQUIRED_KEYS` -/
def assignmentResultRequiredKeys : List String :=
  ["outcome", "objective_satisfied", "summary", "diagnostic", "evidence", "review_outcome"]

/-- `ASSIGNMENT_RESULT_OUTCOMES` -/
def assignmentResultOutcomes : List String := ["completed", "blocked", "failed", "changes_requested"]

/-- `ASSIGNMENT_REVIEW_OUTCOMES` -/
def assignmentReviewOutcomes : List String :=
  ["approved", "approved_with_notes", "changes_requested", "blocked"]

namespace PyJson

/-- `set(v)` of a dict, as a test against an exact set of keys. -/
def hasKeys (keys : List String) (kvs : List (PyStr × PyJson)) : Bool :=
  kvs.all (fun kv => keys.any fun k => kv.1 = PyStr.ofString k) &&
    keys.all fun k => kvs.any fun kv => kv.1 = PyStr.ofString k

/-- The value of a key of a dict that has it. -/
def field (kvs : List (PyStr × PyJson)) (key : String) : PyJson :=
  ((kvs.find? fun kv => kv.1 = PyStr.ofString key).map (·.2)).getD .null

/-- The fields of a dict. -/
def fields : PyJson → List (PyStr × PyJson)
  | obj kvs => kvs
  | _ => []

/-- `v == text` -/
def is (text : String) : PyJson → Bool
  | str s => s = PyStr.ofString text
  | _ => false

/-- A string of an enumeration. -/
def isOneOf (names : List String) (v : PyJson) : Bool := names.any fun name => v.is name

def isNull : PyJson → Bool
  | null => true
  | _ => false

def isStr : PyJson → Bool
  | str _ => true
  | _ => false

def isBool : PyJson → Bool
  | bool _ => true
  | _ => false

/-- `v is b` -/
def isBoolean (b : Bool) : PyJson → Bool
  | bool c => b = c
  | _ => false

/-- `isinstance(v, str) and v.strip()` -/
def nonBlankStr : PyJson → Bool
  | str s => s.nonBlank
  | _ => false

theorem is_iff {v : PyJson} {text : String} : v.is text = true ↔ v = .str (.ofString text) := by
  cases v <;> simp [PyJson.is]

theorem isOneOf_iff {v : PyJson} {names : List String} :
    isOneOf names v = true ↔ ∃ name ∈ names, v = .str (.ofString name) := by
  simp [isOneOf, is_iff]

theorem isNull_iff {v : PyJson} : v.isNull = true ↔ v = .null := by
  cases v <;> simp [isNull]

theorem isStr_iff {v : PyJson} : v.isStr = true ↔ ∃ s, v = .str s := by
  cases v <;> simp [isStr]

theorem isBool_iff {v : PyJson} : v.isBool = true ↔ ∃ b, v = .bool b := by
  cases v <;> simp [isBool]

end PyJson

open PyJson in
/-- One item of the `evidence` array. -/
def isEvidenceItem : PyJson → Bool
  | .obj kvs =>
      PyJson.hasKeys ["source", "observation"] kvs && nonBlankStr (field kvs "source") &&
        nonBlankStr (field kvs "observation")
  | _ => false

def isEvidenceList : PyJson → Bool
  | .arr items => items.all isEvidenceItem
  | _ => false

open PyJson in
/-- `_validate_assignment_result_payload` -/
def validateAssignmentResultPayload : PyJson → Option String
  | .obj kvs =>
      if PyJson.hasKeys assignmentResultRequiredKeys kvs &&
          isOneOf assignmentResultOutcomes (field kvs "outcome") &&
          (field kvs "objective_satisfied").isBool &&
          nonBlankStr (field kvs "summary") &&
          ((field kvs "diagnostic").isNull || (field kvs "diagnostic").isStr) &&
          isEvidenceList (field kvs "evidence") &&
          ((field kvs "review_outcome").isNull ||
            isOneOf assignmentReviewOutcomes (field kvs "review_outcome"))
      then none else some "invalid_result_schema"
  | _ => some "invalid_result_schema"

open PyJson in
/-- `_validate_assignment_result_rules` -/
def validateAssignmentResultRules (payload : List (PyStr × PyJson)) (family : Json) :
    Option String :=
  let outcome := field payload "outcome"
  let objectiveSatisfied := field payload "objective_satisfied"
  let reviewOutcome := field payload "review_outcome"
  if outcome.is "completed" ∧ ¬ objectiveSatisfied.isBoolean true then
    some "contradictory_result_fields"
  else if ¬ outcome.is "completed" ∧ ¬ objectiveSatisfied.isBoolean false then
    some "contradictory_result_fields"
  else if family = .str "jounin-review" then
    if reviewOutcome.isNull then some "contradictory_result_fields"
    else if reviewOutcome.is "approved" ∨ reviewOutcome.is "approved_with_notes" then
      unlessHolds (outcome.is "completed" ∧ objectiveSatisfied.isBoolean true)
        "contradictory_result_fields"
    else if reviewOutcome.is "blocked" then
      unlessHolds (outcome.is "blocked" ∧ objectiveSatisfied.isBoolean false)
        "contradictory_result_fields"
    else if reviewOutcome.is "changes_requested" then
      unlessHolds (outcome.is "changes_requested" ∧ objectiveSatisfied.isBoolean false)
        "contradictory_result_fields"
    else none
  else unlessHolds reviewOutcome.isNull "contradictory_result_fields"

/-- `_ASSIGNMENT_OUTCOME_MAPPING` -/
def assignmentOutcomeMapping (outcome : PyJson) : EvidenceStatus × String :=
  if outcome.is "completed" then (.completed, "completed")
  else if outcome.is "blocked" then (.blocked, "blocked")
  else if outcome.is "changes_requested" then (.blocked, "changes_requested")
  else (.failed, "assignment_failed")

/-- Status and reason code of the text of a provider, before the check of the
workspace.  Of the exceptions of the parser only `ValueError` is caught. -/
def assignmentOutcome (it : Interpreter) (text : PyStr) (family : Json) :
    Except PyExc (EvidenceStatus × String) :=
  match parseAssignmentResultText it text with
  | .error (.valueError _) => .ok (.failed, "invalid_result_json")
  | .error e => .error e
  | .ok payload =>
      match validateAssignmentResultPayload payload with
      | some schemaError => .ok (.failed, schemaError)
      | none =>
          match validateAssignmentResultRules payload.fields family with
          | some ruleError => .ok (.failed, ruleError)
          | none => .ok (assignmentOutcomeMapping (PyJson.field payload.fields "outcome"))

/-- The reason codes of `assignmentOutcome`. -/
def outcomeCodes : List (EvidenceStatus × String) :=
  [(.failed, "invalid_result_json"), (.failed, "invalid_result_schema"),
   (.failed, "contradictory_result_fields"), (.completed, "completed"), (.blocked, "blocked"),
   (.blocked, "changes_requested"), (.failed, "assignment_failed")]

theorem validateAssignmentResultPayload_some {payload : PyJson} {d : String}
    (h : validateAssignmentResultPayload payload = some d) : d = "invalid_result_schema" := by
  unfold validateAssignmentResultPayload at h
  split at h
  · split at h
    · cases h
    · exact (Option.some.inj h).symm
  · exact (Option.some.inj h).symm

theorem validateAssignmentResultRules_some {payload : List (PyStr × PyJson)} {family : Json}
    {d : String} (h : validateAssignmentResultRules payload family = some d) :
    d = "contradictory_result_fields" := by
  simp only [validateAssignmentResultRules, unlessHolds] at h
  repeat' split at h
  all_goals first
    | exact (Option.some.inj h).symm
    | cases h

theorem assignmentOutcomeMapping_mem (outcome : PyJson) :
    assignmentOutcomeMapping outcome ∈ outcomeCodes := by
  unfold assignmentOutcomeMapping
  split_ifs <;> decide

/-- The reason code is never text of the provider. -/
theorem assignmentOutcome_mem {it : Interpreter} {text : PyStr} {family : Json}
    {r : EvidenceStatus × String} (h : assignmentOutcome it text family = .ok r) :
    r ∈ outcomeCodes := by
  unfold assignmentOutcome at h
  split at h
  · cases h
    decide
  · cases h
  · split at h
    · rename_i hp
      cases h
      rw [validateAssignmentResultPayload_some hp]
      decide
    · split at h
      · rename_i hr
        cases h
        rw [validateAssignmentResultRules_some hr]
        decide
      · cases h
        exact assignmentOutcomeMapping_mem _

end Konoha
