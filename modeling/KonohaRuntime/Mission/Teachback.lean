/-
Mission/Teachback.lean

`validate_teachback_record`: a teachback record is an object with its fields of the right types,
its result agrees with them, and the policy of the mission's manifest permits it.
-/
import KonohaRuntime.Base.PyOps

namespace Konoha.Mission

open CodePoint PyJson

abbrev PyDict := List (PyStr × PyJson)

/-- What goes wrong in the gates of a mission. -/
inductive GateExc
  /-- `TeachbackError` -/
  | teachback (text : PyStr)
  /-- `MissionClosureError` -/
  | closure (text : PyStr)
  | python (e : PyExc)
  deriving DecidableEq

def GateExc.teachbackError (text : String) : GateExc := .teachback (.ofString text)

def GateExc.closureError (text : String) : GateExc := .closure (.ofString text)

/-- What the gates take from Python. -/
structure Python where
  /-- `s.lower()` -/
  lower : PyStr → PyStr
  /-- `str(v)`, of a value that is no string -/
  format : PyJson → Except PyExc PyStr

variable (py : Python)

/-- `str(v)` -/
def strOf : PyJson → Except GateExc PyStr
  | .str s => .ok s
  | v => (py.format v).mapError .python

/-- `SAFE_ID_RE.fullmatch(value)` -/
def isSafeId (value : PyStr) : Bool :=
  value ≠ [] ∧ value.all fun
    | scalar c => c.isAlphanum ∨ c = '.' ∨ c = '_' ∨ c = '-'
    | surrogate _ => false

/-- `normalize_safe_id` -/
def normalizeSafeId (value : PyStr) (label : String) : Except GateExc PyStr := do
  check (isSafeId value) (.teachbackError (label ++
    " must be alphanumeric plus '.', '_' or '-' and may not contain path separators"))
  return value

/-! ### The policy -/

/-- `RISK_LEVELS` -/
inductive Risk
  | low
  | medium
  | high
  | critical
  deriving DecidableEq

namespace Risk

def name : Risk → String
  | low => "low"
  | medium => "medium"
  | high => "high"
  | critical => "critical"

/-- `RISK_DEFAULT_LEVEL` -/
def defaultLevel : Risk → Int
  | low => 1
  | medium => 2
  | high => 3
  | critical => 4

/-- The level of a name. -/
def ofName? (name : PyStr) : Option Risk :=
  [low, medium, high, critical].find? fun risk => name = .ofString risk.name

end Risk

/-- `manifest_risk` -/
def manifestRisk (manifest : PyDict) : Risk :=
  let candidates := [field manifest "risk_level",
    entry (field manifest "task_info") "risk_level", field manifest "risk"]
  (candidates.findSome? fun
    | .str s => Risk.ofName? (py.lower s)
    | _ => none).getD .medium

structure TeachbackPolicy where
  required : Bool
  requiredLevel : Int
  skipAllowed : Bool
  riskLevel : Risk
  deriving DecidableEq

/-- `v`, if it is a bool -/
def boolOr (default : Bool) : PyJson → Bool
  | .bool b => b
  | _ => default

/-- `manifest_teachback_policy` -/
def manifestTeachbackPolicy (manifest : PyDict) : Except GateExc TeachbackPolicy := do
  let risk := manifestRisk py manifest
  let policy := field manifest "teachback"
  let required := boolOr true (entry policy "required")
  let requiredLevel := (integerValue (entry policy "required_level")).getD risk.defaultLevel
  check (0 ≤ requiredLevel ∧ requiredLevel ≤ 4)
    (.teachbackError "mission manifest teachback.required_level must be 0..4")
  let skipAllowed := boolOr (!required && risk = .low) (entry policy "skip_allowed")
  return ⟨required, requiredLevel, skipAllowed, risk⟩

/-! ### The record -/

/-- `required_fields`, sorted -/
def requiredFields : List String :=
  ["achieved_level", "completed_by_user", "gaps", "human_actor", "human_evidence", "mission_id",
    "next_explanation_needed", "non_authority", "recorded_at", "report_type", "required",
    "required_level", "result", "schema_version", "skip_reason", "source_execution",
    "source_review", "summary", "teachback_id"]

/-- `VALID_RESULTS` -/
def validResults : List String := ["passed", "needs_clarification", "failed", "skipped"]

/-- A level from 0 to 4, also as a bool. -/
def level (v : PyJson) : Option Int :=
  (integerValue v).filter fun n => 0 ≤ n ∧ n ≤ 4

/-- A list of strings that are not blank. -/
def isTextList : PyJson → Bool
  | .arr xs => xs.all nonBlankStr
  | _ => false

def isOptionalText (v : PyJson) : Bool := v.isNull || v.isStr

/-- The number of characters of `v.strip()`. -/
def strippedLength : PyJson → Nat
  | .str s => s.strip.length
  | _ => 0

/-- The fields that every record has. -/
def checkIdentity (payload : PyDict) (expectedMissionId : PyStr) : Except GateExc Unit := do
  let missing := requiredFields.filter fun f => !payload.any fun kv => kv.1 = .ofString f
  check missing.isEmpty
    (.teachbackError ("teachback record missing fields: " ++ ", ".intercalate missing))
  check ((field payload "schema_version").is "1.0.0")
    (.teachbackError "teachback schema_version must be 1.0.0")
  check ((field payload "report_type").is "teachback_record")
    (.teachbackError "teachback report_type must be teachback_record")
  let missionId ← strOf py (field payload "mission_id")
  let missionId ← normalizeSafeId missionId "mission_id"
  let teachbackId ← strOf py (field payload "teachback_id")
  let _ ← normalizeSafeId teachbackId "teachback_id"
  check (expectedMissionId.isEmpty || missionId = expectedMissionId)
    (.teachbackError "teachback mission_id does not match closure mission")

/-- The types of the fields, and the level that is required and the one that is achieved. -/
def checkTypes (payload : PyDict) : Except GateExc (Int × Int) := do
  let known ← (memberOf validResults (field payload "result")).mapError .python
  check known
    (.teachbackError "teachback result must be passed, needs_clarification, failed or skipped")
  check (field payload "required").isBool (.teachbackError "teachback required must be boolean")
  check (field payload "completed_by_user").isBool
    (.teachbackError "teachback completed_by_user must be boolean")
  let requiredLevel ← ((level (field payload "required_level")).elim
    (.error (.teachbackError "teachback required_level must be an integer 0..4")) .ok)
  let achievedLevel ← ((level (field payload "achieved_level")).elim
    (.error (.teachbackError "teachback achieved_level must be an integer 0..4")) .ok)
  check (field payload "summary").isStr (.teachbackError "teachback summary must be text")
  check (isTextList (field payload "gaps"))
    (.teachbackError "teachback gaps must be a list of non-empty strings")
  check (isTextList (field payload "human_evidence"))
    (.teachbackError "teachback human_evidence must be a list of non-empty strings")
  check (isOptionalText (field payload "next_explanation_needed"))
    (.teachbackError "next_explanation_needed must be text or null")
  check (isOptionalText (field payload "skip_reason"))
    (.teachbackError "skip_reason must be text or null")
  return (requiredLevel, achievedLevel)

/-- What each result asks of the other fields. -/
def checkResult (payload : PyDict) (requiredLevel achievedLevel : Int) : Except GateExc Unit :=
  let result := field payload "result"
  let completed := (field payload "completed_by_user").truthy
  let gaps := (field payload "gaps").truthy
  if result.is "passed" then do
    check completed (.teachbackError "passed teachback requires completed_by_user=true")
    check (requiredLevel ≤ achievedLevel)
      (.teachbackError "passed teachback requires achieved_level at or above required_level")
    check (!gaps) (.teachbackError "passed teachback requires gaps=[]")
    check (20 ≤ strippedLength (field payload "summary"))
      (.teachbackError "passed teachback summary must be at least 20 characters")
    check (field payload "human_evidence").truthy
      (.teachbackError "passed teachback requires human_evidence")
    check (!(field payload "skip_reason").truthy)
      (.teachbackError "passed teachback cannot include skip_reason")
  else if result.is "needs_clarification" then do
    check (!completed) (.teachbackError "needs_clarification requires completed_by_user=false")
    check gaps (.teachbackError "needs_clarification requires at least one gap")
    check (field payload "next_explanation_needed").nonBlankStr
      (.teachbackError "needs_clarification requires next_explanation_needed")
  else if result.is "failed" then do
    check (!completed) (.teachbackError "failed teachback requires completed_by_user=false")
    check gaps (.teachbackError "failed teachback requires at least one gap")
  else do
    check (!(field payload "required").truthy)
      (.teachbackError "required teachback cannot be skipped")
    check (achievedLevel = 0) (.teachbackError "skipped teachback requires achieved_level=0")
    check (!gaps) (.teachbackError "skipped teachback requires gaps=[]")
    check (10 ≤ strippedLength (field payload "skip_reason"))
      (.teachbackError "skipped teachback requires a skip_reason of at least 10 characters")

/-- What the manifest asks of the record. -/
def checkPolicy (payload manifest : PyDict) (requiredLevel : Int) : Except GateExc Unit := do
  let policy ← manifestTeachbackPolicy py manifest
  check ((field payload "required").truthy = policy.required)
    (.teachbackError "teachback required flag conflicts with mission manifest")
  check (requiredLevel = policy.requiredLevel)
    (.teachbackError "teachback required_level conflicts with mission manifest")
  let skipped := (field payload "result").is "skipped"
  check (!skipped || policy.skipAllowed)
    (.teachbackError "mission manifest does not allow teachback skip")
  check (!skipped || (policy.riskLevel ≠ .high && policy.riskLevel ≠ .critical))
    (.teachbackError "high or critical risk teachback cannot be skipped")

/-- `validate_teachback_record`, with a manifest -/
def validateTeachbackRecord (payload : PyDict) (expectedMissionId : PyStr) (manifest : PyDict) :
    Except GateExc PyDict := do
  checkIdentity py payload expectedMissionId
  let levels ← checkTypes payload
  checkResult payload levels.1 levels.2
  checkPolicy py payload manifest levels.1
  return payload

/-- A record is returned as it is. -/
theorem validateTeachbackRecord_eq_ok {payload record manifest : PyDict} {expected : PyStr}
    (h : validateTeachbackRecord py payload expected manifest = .ok record) : record = payload := by
  unfold validateTeachbackRecord at h
  obtain ⟨_, -, h⟩ := bind_eq_ok.mp h
  obtain ⟨_, -, h⟩ := bind_eq_ok.mp h
  obtain ⟨_, -, h⟩ := bind_eq_ok.mp h
  obtain ⟨_, -, h⟩ := bind_eq_ok.mp h
  exact (Except.ok.inj h).symm

end Konoha.Mission
