/-
Hokage/Contract.lean

What `authority.py` demands of the three authoritative documents of a mission, a
charter, a decision and an approval receipt, before anything is decided by their
content.  A check that fails raises `AuthorityBindingError` with a code of a fixed
vocabulary.

A validator is a sequence of `require`s.  Each comes with the predicate it decides
(`CharterShape`, `DecisionShape`, …), so that the callers' proofs never look at the
order of the checks.  `OnlyBinding` says of a computation that it raises nothing but
`AuthorityBindingError`.
-/
import KonohaRuntime.Runtime.Sources
import KonohaRuntime.Runtime.Result

namespace Konoha.Hokage

open Json

/-- A Python dict with string keys. -/
abbrev Dict := List (String × Json)

/-! ### Errors -/

/-- `AuthorityBindingError.STABLE_CODES` -/
inductive BindingCode
  | charterBindingMismatch
  | decisionBindingMismatch
  | missionBindingMismatch
  | providerSelectionMismatch
  | modelSelectionMismatch
  | strategySelectionMismatch
  | selectionSourceMismatch
  | capabilityBindingMismatch
  | capabilityConstraintViolation
  | skillForbidden
  | authorityReceiptMissing
  | authorityReceiptInvalid
  | charterImmutableViolation
  | decisionImmutableViolation
  | argumentsHashMismatch
  | approvalBindingMismatch
  | charterSchemaMigrationRequired
  | executionClaimMissing
  | executionClaimInvalid
  | executionAlreadyClaimed
  | executionClaimBindingMismatch
  | actionQueueLockTimeout
  | executionStillActive
  deriving DecidableEq

/-- What the code of a mission raises: `AuthorityBindingError`, or another exception
of Python. -/
inductive AuthorityExc
  | binding (code : BindingCode) (detail : String)
  | python (e : PyExc)
  deriving DecidableEq

/-- `except AuthorityBindingError` -/
def AuthorityExc.isBinding : AuthorityExc → Bool
  | binding _ _ => true
  | python _ => false

/-- `except Exception` -/
def AuthorityExc.isException : AuthorityExc → Bool
  | binding _ _ => true
  | python e => e.isException

/-- `except OSError as exc: raise AuthorityBindingError(code, f"{text}: {exc}")` -/
def osErrorAs (code : BindingCode) (text : String) : AuthorityExc → AuthorityExc
  | .python e => if e.isOSError then .binding code (text ++ ": " ++ e.osText) else .python e
  | e => e

/-- `if not p: raise AuthorityBindingError(code, detail)` -/
def require (p : Prop) [Decidable p] (code : BindingCode) (detail : String) :
    Except AuthorityExc Unit :=
  if p then .ok () else .error (.binding code detail)

section Require

variable {α : Type} {p : Prop} [Decidable p] {code : BindingCode} {detail : String}

@[simp] theorem require_eq_ok : require p code detail = .ok () ↔ p := by
  unfold require
  split <;> simp_all

/-- One check, and then the rest. -/
theorem check_bind_eq_ok {x : Except AuthorityExc Unit} {k : Unit → Except AuthorityExc α}
    {a : α} : (x >>= k) = .ok a ↔ x = .ok () ∧ k () = .ok a := by
  rw [bind_eq_ok]
  exact ⟨fun ⟨_, h⟩ => h, fun h => ⟨(), h⟩⟩

/-- A check of each key. -/
theorem forM_eq_ok {κ : Type} {keys : List κ} {f : κ → Except AuthorityExc Unit} :
    keys.forM f = .ok () ↔ ∀ k ∈ keys, f k = .ok () := by
  induction keys with
  | nil => simp [List.forM, pure, Except.pure]
  | cons key keys ih =>
      show (f key >>= fun _ => keys.forM f) = .ok () ↔ _
      rw [check_bind_eq_ok, ih, List.forall_mem_cons]

end Require

/-- `x` raises nothing but `AuthorityBindingError`. -/
def OnlyBinding {α : Type} (x : Except AuthorityExc α) : Prop :=
  ∀ e, x = .error e → e.isBinding = true

namespace OnlyBinding

variable {α β : Type}

theorem ok (a : α) : OnlyBinding (.ok a) := by
  rintro e ⟨⟩

theorem require {p : Prop} [Decidable p] {code : BindingCode} {detail : String} :
    OnlyBinding (Hokage.require p code detail) := by
  intro e h
  unfold Hokage.require at h
  split at h
  · cases h
  · obtain rfl := Except.error.inj h
    rfl

theorem bind {x : Except AuthorityExc β} {k : β → Except AuthorityExc α} (hx : OnlyBinding x)
    (hk : ∀ b, x = .ok b → OnlyBinding (k b)) : OnlyBinding (x >>= k) := by
  intro e h
  cases x with
  | error e' =>
      obtain rfl : e' = e := Except.error.inj h
      exact hx e' rfl
  | ok b => exact hk b rfl e h

/-- The rest raises nothing else either. -/
theorem of_bind {x : Except AuthorityExc β} {k : β → Except AuthorityExc α}
    (h : OnlyBinding (x >>= k)) {b : β} (hx : x = .ok b) : OnlyBinding (k b) := by
  subst hx
  exact h

/-- What comes first raises nothing else. -/
theorem left_of_bind {x : Except AuthorityExc β} {k : β → Except AuthorityExc α}
    (h : OnlyBinding (x >>= k)) : OnlyBinding x := by
  rintro e rfl
  exact h e rfl

theorem forM {keys : List String} {f : String → Except AuthorityExc Unit}
    (h : ∀ k, OnlyBinding (f k)) : OnlyBinding (keys.forM f) := by
  induction keys with
  | nil => exact OnlyBinding.ok ()
  | cons key keys ih => exact (h key).bind fun _ _ => ih

end OnlyBinding

/-! ### Digests and keys -/

/-- `canonical_digest` -/
def canonicalDigest (py : Stdlib) (payload : Dict) : String :=
  (py.sha256 (canonical py (.obj payload))).1

def missingKeys (required : List String) (d : Dict) : List String :=
  required.filter fun key => (lookup key d).isNone

def extraKeys (allowed : List String) (d : Dict) : List String :=
  (d.map (·.1)).filter fun key => !allowed.contains key

/-- `{sorted(names)}` in a text. -/
def listed (py : Stdlib) (names : List String) : String :=
  py.repr (.arr ((names.insertionSort (· ≤ ·)).map .str))

/-- A string that is not empty. -/
def isText : Json → Bool
  | .str s => s != ""
  | _ => false

theorem isText_iff {v : Json} : isText v = true ↔ ∃ s, v = .str s ∧ s ≠ "" := by
  cases v <;> simp [isText]

/-- The text of a value that has been checked to be one. -/
def textOf : Json → String
  | .str s => s
  | _ => ""

/-- The strings of an array. -/
def textsOf : Json → List String
  | .arr xs => xs.map textOf
  | _ => []

/-- `_required` -/
def required (source : Dict) (key : String) (code : BindingCode) : Except AuthorityExc Json :=
  match lookup key source with
  | some v => .ok v
  | none => .error (.binding code ("missing required field: " ++ key))

theorem required_eq_ok {source : Dict} {key : String} {code : BindingCode} {v : Json} :
    required source key code = .ok v ↔ lookup key source = some v := by
  unfold required
  cases lookup key source <;> simp

theorem OnlyBinding.required {source : Dict} {key : String} {code : BindingCode} :
    OnlyBinding (Hokage.required source key code) := by
  intro e h
  unfold Hokage.required at h
  split at h
  · cases h
  · obtain rfl := Except.error.inj h
    rfl

/-! ### The charter -/

/-- `REQUIRED_HUMAN_CONSTRAINT_KEYS` -/
def humanConstraintKeys : List String :=
  ["mutation_forbidden", "network_blocked", "local_model_only", "private_context_restricted"]

/-- `CHARTER_REQUIRED_KEYS` -/
def charterRequiredKeys : List String :=
  ["schema_version", "report_type", "charter_id", "mission_id", "state", "human_constraints",
   "proposed_skills", "forbidden_skills", "allowed_followup_skills", "memory_write_allowed",
   "decision_id", "decision_digest", "approval_phrase"]

/-- `CHARTER_ALLOWED_KEYS` -/
def charterAllowedKeys : List String :=
  charterRequiredKeys ++
    ["created_at", "actor", "objective", "scope", "out_of_scope", "constraints", "risk_level",
     "approval_gates", "success_criteria", "authority", "rejection_phrase", "approved_at",
     "approved_by"]

/-- `isinstance(v, dict) and set(v) == set(REQUIRED_HUMAN_CONSTRAINT_KEYS)` -/
def isHumanConstraints : Json → Bool
  | .obj kvs => hasKeys humanConstraintKeys kvs
  | _ => false

/-- `charter["human_constraints"][key]` -/
def constraintOf (charter : Dict) (key : String) : Json :=
  match fieldOf charter "human_constraints" with
  | .obj kvs => fieldOf kvs key
  | _ => null

/-- `isinstance(v, list)` -/
def isArr : Json → Bool
  | .arr _ => true
  | _ => false

/-- The elements of an array. -/
def itemsOf : Json → List Json
  | .arr xs => xs
  | _ => []

/-- `_validate_skill_list` -/
def validateSkillList (charter : Dict) (key : String) : Except AuthorityExc Unit := do
  require (isArr (fieldOf charter key)) .charterBindingMismatch
    ("charter." ++ key ++ " must be a list")
  require (∀ item ∈ itemsOf (fieldOf charter key), isText item) .charterBindingMismatch
    ("charter." ++ key ++ " must contain only non-empty strings")
  require (itemsOf (fieldOf charter key)).Nodup .charterBindingMismatch
    ("charter." ++ key ++ " must not contain duplicates")

/-- The three lists of skills. -/
def skillListKeys : List String := ["proposed_skills", "forbidden_skills", "allowed_followup_skills"]

/-- The check of `charter.state`; a set is not searched for an unhashable value. -/
def validateCharterState (py : Stdlib) (state : Json) (requireApproved : Bool) :
    Except AuthorityExc Unit :=
  if requireApproved then
    require (state = .str "approved") .charterBindingMismatch "charter is not approved"
  else if state.hashable then
    require (state = .str "proposed" ∨ state = .str "approved") .charterBindingMismatch
      ("unexpected charter.state=" ++ py.repr state)
  else .error (.python (.typeError "unhashable type"))

/-- `_validate_charter_shape` -/
def validateCharterShape (py : Stdlib) (charter : Dict) (requireApproved : Bool) :
    Except AuthorityExc Unit := do
  require (fieldOf charter "report_type" = .str "conversational_mission_charter")
    .charterBindingMismatch "unexpected report_type"
  require (fieldOf charter "schema_version" = .str "1.1.0") .charterSchemaMigrationRequired
    ("charter schema_version=" ++ py.repr (fieldOf charter "schema_version"))
  require (missingKeys charterRequiredKeys charter = []) .charterBindingMismatch
    ("charter missing required keys: " ++ listed py (missingKeys charterRequiredKeys charter))
  require (extraKeys charterAllowedKeys charter = []) .charterBindingMismatch
    ("charter has unexpected keys: " ++ listed py (extraKeys charterAllowedKeys charter))
  validateCharterState py (fieldOf charter "state") requireApproved
  ["charter_id", "mission_id", "decision_id", "decision_digest", "approval_phrase"].forM fun key =>
    require (isText (fieldOf charter key)) .charterBindingMismatch
      ("charter." ++ key ++ " must be a non-empty string")
  require (isHumanConstraints (fieldOf charter "human_constraints")) .charterBindingMismatch
    "charter.human_constraints must be an object with exactly the four closed boolean keys"
  humanConstraintKeys.forM fun key =>
    require (isBool (constraintOf charter key)) .charterBindingMismatch
      ("charter.human_constraints." ++ key ++ " must be a bool")
  skillListKeys.forM fun key => validateSkillList charter key
  require (isBool (fieldOf charter "memory_write_allowed")) .charterBindingMismatch
    "charter.memory_write_allowed must be a bool"

/-- What a well-formed charter is, whatever its state. -/
structure CharterShape (charter : Dict) : Prop where
  reportType : fieldOf charter "report_type" = .str "conversational_mission_charter"
  schemaVersion : fieldOf charter "schema_version" = .str "1.1.0"
  missing : missingKeys charterRequiredKeys charter = []
  extra : extraKeys charterAllowedKeys charter = []
  texts : ∀ key ∈ ["charter_id", "mission_id", "decision_id", "decision_digest",
    "approval_phrase"], isText (fieldOf charter key) = true
  constraints : isHumanConstraints (fieldOf charter "human_constraints") = true
  constraintBools : ∀ key ∈ humanConstraintKeys, isBool (constraintOf charter key) = true
  skillLists : ∀ key ∈ skillListKeys, validateSkillList charter key = .ok ()
  memoryBool : isBool (fieldOf charter "memory_write_allowed") = true

theorem validateCharterShape_eq_ok {py : Stdlib} {charter : Dict} {requireApproved : Bool} :
    validateCharterShape py charter requireApproved = .ok () ↔
      CharterShape charter ∧
        validateCharterState py (fieldOf charter "state") requireApproved = .ok () := by
  simp only [validateCharterShape, check_bind_eq_ok, forM_eq_ok, require_eq_ok]
  constructor
  · rintro ⟨h₁, h₂, h₃, h₄, hs, h₅, h₆, h₇, h₈, h₉⟩
    exact ⟨⟨h₁, h₂, h₃, h₄, h₅, h₆, h₇, h₈, h₉⟩, hs⟩
  · rintro ⟨⟨h₁, h₂, h₃, h₄, h₅, h₆, h₇, h₈, h₉⟩, hs⟩
    exact ⟨h₁, h₂, h₃, h₄, hs, h₅, h₆, h₇, h₈, h₉⟩

/-- `_validate_charter_shape` raises nothing else; the state of a charter that may
still be proposed has to be hashable. -/
theorem onlyBinding_validateCharterShape {py : Stdlib} {charter : Dict} :
    OnlyBinding (validateCharterShape py charter true) := by
  refine .bind .require fun _ _ => .bind .require fun _ _ => .bind .require fun _ _ => ?_
  refine .bind .require fun _ _ => .bind .require fun _ _ => ?_
  refine .bind (.forM fun _ => .require) fun _ _ => .bind .require fun _ _ => ?_
  refine .bind (.forM fun _ => .require) fun _ _ => .bind (.forM fun key => ?_) fun _ _ => .require
  exact .bind .require fun _ _ => .bind .require fun _ _ => .require

theorem validateCharterState_approved {py : Stdlib} {state : Json} :
    validateCharterState py state true = .ok () ↔ state = .str "approved" := by
  simp [validateCharterState]

/-! ### The decision -/

/-- `SELECTION_REQUIRED_KEYS` -/
def selectionRequiredKeys : List String := ["provider", "model", "strategy", "selection_source"]

/-- `SELECTION_ALLOWED_KEYS` -/
def selectionAllowedKeys : List String :=
  selectionRequiredKeys ++
    ["rationale", "provider_readiness", "selection_is_proposal_only", "blocked_diagnostic"]

/-- `DECISION_REQUIRED_KEYS` -/
def decisionRequiredKeys : List String :=
  ["schema_version", "report_type", "decision_id", "mission_id", "selection"]

/-- `DECISION_ALLOWED_KEYS` -/
def decisionAllowedKeys : List String :=
  decisionRequiredKeys ++
    ["created_at", "classification", "economy", "supervision", "review_checkpoints",
     "telemetry_contract", "authority"]

/-- `decision["selection"]`, once it has been checked to be an object. -/
def selectionOf (decision : Dict) : Dict :=
  match fieldOf decision "selection" with
  | .obj kvs => kvs
  | _ => []

/-- `isinstance(v, dict)` -/
def isDict : Json → Bool
  | .obj _ => true
  | _ => false

/-- `_validate_decision_shape` -/
def validateDecisionShape (py : Stdlib) (decision : Dict) : Except AuthorityExc Unit := do
  require (fieldOf decision "report_type" = .str "hokage_mission_decision")
    .decisionBindingMismatch "unexpected report_type"
  require (fieldOf decision "schema_version" = .str "1.1.0") .charterSchemaMigrationRequired
    ("decision schema_version=" ++ py.repr (fieldOf decision "schema_version"))
  require (missingKeys decisionRequiredKeys decision = []) .decisionBindingMismatch
    ("decision missing required keys: " ++ listed py (missingKeys decisionRequiredKeys decision))
  require (extraKeys decisionAllowedKeys decision = []) .decisionBindingMismatch
    ("decision has unexpected keys: " ++ listed py (extraKeys decisionAllowedKeys decision))
  ["decision_id", "mission_id"].forM fun key =>
    require (isText (fieldOf decision key)) .decisionBindingMismatch
      ("decision." ++ key ++ " must be a non-empty string")
  require (isDict (fieldOf decision "selection")) .decisionBindingMismatch
    "decision.selection must be an object"
  require (missingKeys selectionRequiredKeys (selectionOf decision) = []) .decisionBindingMismatch
    ("decision.selection missing required keys: " ++
      listed py (missingKeys selectionRequiredKeys (selectionOf decision)))
  require (extraKeys selectionAllowedKeys (selectionOf decision) = []) .decisionBindingMismatch
    ("decision.selection has unexpected keys: " ++
      listed py (extraKeys selectionAllowedKeys (selectionOf decision)))
  selectionRequiredKeys.forM fun key =>
    require (isText (fieldOf (selectionOf decision) key)) .decisionBindingMismatch
      ("decision.selection." ++ key ++ " must be a non-empty string")

/-- What a well-formed decision is. -/
structure DecisionShape (decision : Dict) : Prop where
  reportType : fieldOf decision "report_type" = .str "hokage_mission_decision"
  schemaVersion : fieldOf decision "schema_version" = .str "1.1.0"
  missing : missingKeys decisionRequiredKeys decision = []
  extra : extraKeys decisionAllowedKeys decision = []
  texts : ∀ key ∈ ["decision_id", "mission_id"], isText (fieldOf decision key) = true
  selection : isDict (fieldOf decision "selection") = true
  selectionMissing : missingKeys selectionRequiredKeys (selectionOf decision) = []
  selectionExtra : extraKeys selectionAllowedKeys (selectionOf decision) = []
  selectionTexts : ∀ key ∈ selectionRequiredKeys,
    isText (fieldOf (selectionOf decision) key) = true

theorem validateDecisionShape_eq_ok {py : Stdlib} {decision : Dict} :
    validateDecisionShape py decision = .ok () ↔ DecisionShape decision := by
  simp only [validateDecisionShape, check_bind_eq_ok, forM_eq_ok, require_eq_ok]
  constructor
  · rintro ⟨h₁, h₂, h₃, h₄, h₅, h₆, h₇, h₈, h₉⟩
    exact ⟨h₁, h₂, h₃, h₄, h₅, h₆, h₇, h₈, h₉⟩
  · rintro ⟨h₁, h₂, h₃, h₄, h₅, h₆, h₇, h₈, h₉⟩
    exact ⟨h₁, h₂, h₃, h₄, h₅, h₆, h₇, h₈, h₉⟩

theorem onlyBinding_validateDecisionShape {py : Stdlib} {decision : Dict} :
    OnlyBinding (validateDecisionShape py decision) := by
  refine .bind .require fun _ _ => .bind .require fun _ _ => .bind .require fun _ _ => ?_
  refine .bind .require fun _ _ => .bind (.forM fun _ => .require) fun _ _ => ?_
  refine .bind .require fun _ _ => .bind .require fun _ _ => .bind .require fun _ _ => ?_
  exact .forM fun _ => .require

/-! ### The receipt -/

/-- `RECEIPT_REQUIRED_KEYS` and `RECEIPT_ALLOWED_KEYS` -/
def receiptKeys : List String :=
  ["schema_version", "report_type", "mission_id", "charter_id", "charter_digest", "decision_id",
   "decision_digest", "approved_at", "approval_phrase_hash"]

/-- `_validate_receipt_shape` -/
def validateReceiptShape (py : Stdlib) (receipt : Dict) : Except AuthorityExc Unit := do
  require (fieldOf receipt "report_type" = .str "conversational_mission_authority_receipt")
    .authorityReceiptInvalid "unexpected report_type"
  require (fieldOf receipt "schema_version" = .str "1.1.0") .charterSchemaMigrationRequired
    ("receipt schema_version=" ++ py.repr (fieldOf receipt "schema_version"))
  require (missingKeys receiptKeys receipt = []) .authorityReceiptInvalid
    ("receipt missing required keys: " ++ listed py (missingKeys receiptKeys receipt))
  require (extraKeys receiptKeys receipt = []) .authorityReceiptInvalid
    ("receipt has unexpected keys: " ++ listed py (extraKeys receiptKeys receipt))
  receiptKeys.forM fun key =>
    require (isText (fieldOf receipt key)) .authorityReceiptInvalid
      ("receipt." ++ key ++ " must be a non-empty string")

/-- What a well-formed receipt is. -/
structure ReceiptShape (receipt : Dict) : Prop where
  reportType : fieldOf receipt "report_type" = .str "conversational_mission_authority_receipt"
  schemaVersion : fieldOf receipt "schema_version" = .str "1.1.0"
  missing : missingKeys receiptKeys receipt = []
  extra : extraKeys receiptKeys receipt = []
  texts : ∀ key ∈ receiptKeys, isText (fieldOf receipt key) = true

theorem validateReceiptShape_eq_ok {py : Stdlib} {receipt : Dict} :
    validateReceiptShape py receipt = .ok () ↔ ReceiptShape receipt := by
  simp only [validateReceiptShape, check_bind_eq_ok, forM_eq_ok, require_eq_ok]
  constructor
  · rintro ⟨h₁, h₂, h₃, h₄, h₅⟩
    exact ⟨h₁, h₂, h₃, h₄, h₅⟩
  · rintro ⟨h₁, h₂, h₃, h₄, h₅⟩
    exact ⟨h₁, h₂, h₃, h₄, h₅⟩

theorem onlyBinding_validateReceiptShape {py : Stdlib} {receipt : Dict} :
    OnlyBinding (validateReceiptShape py receipt) := by
  refine .bind .require fun _ _ => .bind .require fun _ _ => .bind .require fun _ _ => ?_
  exact .bind .require fun _ _ => .forM fun _ => .require

end Konoha.Hokage
