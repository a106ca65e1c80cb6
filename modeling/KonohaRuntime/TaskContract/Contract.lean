/-
TaskContract/Contract.lean

`validate_contract`: the blockers and warnings of a supervised task contract.

The scope is checked as text: an allowed path may not lie under a protected prefix.  Those who use
the contract read the same entries as patterns; `safe_iff` says which accepted contracts keep the
protected paths out all the same.
-/
import KonohaRuntime.TaskContract.Patterns

namespace Konoha.TaskContract

open CodePoint PyJson

abbrev PyDict := List (PyStr × PyJson)

/-- `issue`, without its severity -/
structure Issue where
  code : String
  field : String
  message : PyStr

/-- An issue, unless something holds. -/
def blame (holds : Bool) (code field : String) (message : PyStr) : List Issue :=
  if holds then [] else [⟨code, field, message⟩]

/-! ### Values -/

/-- `list_of_non_empty_text` -/
def listOfNonEmptyText : PyJson → Bool
  | .arr xs => !xs.isEmpty && xs.all nonBlankStr
  | _ => false

/-- `v`, if it is a list -/
def listValue : PyJson → List PyJson
  | .arr xs => xs
  | _ => []

/-- The strings of a list. -/
def textsOf (v : PyJson) : List PyStr := (listValue v).filterMap fun
  | .str s => some s
  | _ => none

/-- `len(v or [])` -/
def lengthOr (v : PyJson) : Except PyExc Nat :=
  if !v.truthy then .ok 0
  else match v with
    | .str s => .ok s.length
    | .arr xs => .ok xs.length
    | .obj kvs => .ok kvs.length
    | _ => .error (.typeError "object has no len()")

/-- `sorted(set(xs))` -/
def sortedSet (xs : List PyStr) : List PyStr := xs.dedup.insertionSort fun a b => keyLE a b = true

/-- `SAFE_ID_RE.fullmatch(value)` -/
def isSafeId : PyJson → Bool
  | .str (scalar c :: s) =>
      (c.isLower || c.isDigit) && s.length ≤ 79 && s.all fun
        | scalar c => c.isLower || c.isDigit || c ∈ ['.', '_', '-']
        | surrogate _ => false
  | _ => false

/-- `TOKEN_RE.fullmatch(token)` -/
def isToken : PyJson → Bool
  | .str (scalar c :: s) =>
      c.isUpper && 2 ≤ s.length && s.length ≤ 127 && s.all fun
        | scalar c => c.isUpper || c.isDigit || c = '_'
        | surrogate _ => false
  | _ => false

/-! ### Constants -/

/-- `KNOWN_OPERATIONS`, sorted -/
def knownOperations : List String :=
  ["apply_patch", "close_mission", "execute_command", "git_commit", "git_push", "git_stage",
    "inspect_repository", "invoke_local_model", "propose_command", "read_public_files",
    "record_external_result", "run_deterministic_checks", "write_private_memory"]

/-- `SENSITIVE_OPERATIONS`, sorted -/
def sensitiveOperations : List String :=
  ["apply_patch", "close_mission", "execute_command", "git_commit", "git_push", "git_stage",
    "invoke_local_model", "write_private_memory"]

/-- `RISK_LEVELS` -/
def riskLevels : List String := ["low", "medium", "high", "critical"]

/-- `REVIEW_LEVELS` -/
def reviewLevels : List String := ["standard", "strict", "critical"]

/-- `NETWORK_POLICIES` and `PRIVATE_CONTEXT_POLICIES` -/
def policies : List String := ["blocked", "explicit_approval_required"]

/-- `required_top_level`, sorted -/
def requiredTopLevel : List String :=
  ["acceptance_criteria", "approval_requirements", "authority", "completion_conditions",
    "contract_id", "evidence_requirements", "mission_id", "network_policy", "non_goals", "objective",
    "operations", "private_context_policy", "report_type", "review", "risk_level", "schema_version",
    "scope", "stop_triggers", "teachback_required", "title"]

/-- `required_authority` -/
def requiredAuthority : List String :=
  ["contract_is_not_permission", "validator_output_is_evidence_only",
    "mission_state_does_not_authorize_execution", "approvals_are_operation_specific"]

/-- `repr(v)`, of a string or a value that can be hashed -/
abbrev Repr := PyJson → PyStr

variable (repr : Repr)

/-! ### Parts of a contract -/

/-- `set(payload)` has the key. -/
def hasKey (payload : PyDict) (key : String) : Bool := payload.any fun kv => kv.1 = .ofString key

/-- The checks up to `non_goals`. -/
def identityIssues (payload : PyDict) : List Issue :=
  (requiredTopLevel.flatMap fun f => blame (hasKey payload f) "required_field_missing" f
    ("required field is missing: " ++ f : String)) ++
  blame ((field payload "schema_version").is "1.0.0") "schema_version_invalid" "schema_version"
    "schema_version must be 1.0.0" ++
  blame ((field payload "report_type").is "supervised_task_contract") "report_type_invalid"
    "report_type" "report_type must be supervised_task_contract" ++
  (["contract_id", "mission_id"].flatMap fun f => blame (isSafeId (field payload f))
    "safe_id_invalid" f (f ++ " must match ^[a-z0-9][a-z0-9._-]\x7b0,79\x7d$" : String)) ++
  (["title", "objective"].flatMap fun f => blame (field payload f).nonBlankStr "text_required" f
    (f ++ " must be non-empty text" : String)) ++
  blame (listOfNonEmptyText (field payload "non_goals")) "non_goals_invalid" "non_goals"
    "non_goals must be a non-empty list of text items"

/-- The normalised paths of `scope.key`. -/
def normalizedPaths (scope : PyJson) (key : String) : List PyStr :=
  if listOfNonEmptyText (entry scope key) then
    (textsOf (entry scope key)).filterMap normalizeRepoPath
  else []

/-- What is wrong with the paths of `scope.key`. -/
def pathIssues (scope : PyJson) (key : String) : List Issue :=
  if listOfNonEmptyText (entry scope key) then
    (textsOf (entry scope key)).zipIdx.flatMap fun raw =>
      blame (normalizeRepoPath raw.1).isSome "repo_path_invalid"
        ("scope." ++ key ++ "[" ++ toString raw.2 ++ "]")
        ("invalid repository-relative path: " ++ repr (.str raw.1))
  else
    [⟨key ++ "_invalid", "scope." ++ key, ("scope." ++ key ++ " must be a non-empty list" : String)⟩]

/-- The checks of `scope`. -/
def scopeIssues (scope : PyJson) : List Issue :=
  let allowed := normalizedPaths scope "allowed_paths"
  let blocked := normalizedPaths scope "blocked_paths"
  blame scope.isObj "scope_invalid" "scope" "scope must be an object" ++
  pathIssues repr scope "allowed_paths" ++ pathIssues repr scope "blocked_paths" ++
  (allowed.zipIdx.flatMap fun path => blame (!pathIsProtected path.1) "protected_path_allowed"
    ("scope.allowed_paths[" ++ toString path.2 ++ "]")
    ("protected/private path cannot be allowed: " ++ path.1)) ++
  (sortedSet (allowed.filter fun path => blocked.contains path)).map fun path =>
    ⟨"scope_path_overlap", "scope", "path appears in both allowed_paths and blocked_paths: " ++ path⟩

/-- The operations of `operations.key`. -/
def operationsOf (operations : PyJson) (key : String) : List PyStr :=
  if listOfNonEmptyText (entry operations key) then textsOf (entry operations key) else []

/-- `operation in names`, for a string -/
def named (names : List String) (operation : PyStr) : Bool :=
  names.any fun name => operation = .ofString name

/-- Operations that nobody knows. -/
def unknownIssues (key : String) (operations : List PyStr) : List Issue :=
  operations.zipIdx.flatMap fun operation => blame (named knownOperations operation.1)
    (key ++ "_operation_unknown") ("operations." ++ key ++ "[" ++ toString operation.2 ++ "]")
    ("unknown operation: " ++ operation.1)

/-- The checks of `operations`. -/
def operationIssues (operations : PyJson) : List Issue :=
  let allowed := operationsOf operations "allowed"
  let blocked := operationsOf operations "blocked"
  blame operations.isObj "operations_invalid" "operations" "operations must be an object" ++
  (["allowed", "blocked"].flatMap fun key => blame (listOfNonEmptyText (entry operations key))
    (key ++ "_operations_invalid") ("operations." ++ key)
    ("operations." ++ key ++ " must be a non-empty list" : String)) ++
  unknownIssues "allowed" allowed ++ unknownIssues "blocked" blocked ++
  (sortedSet (allowed.filter fun operation => blocked.contains operation)).map fun operation =>
    ⟨"operation_overlap", "operations",
      "operation appears in allowed and blocked: " ++ operation⟩

/-- Operations that are neither allowed nor blocked. -/
def operationWarnings (operations : PyJson) : List Issue :=
  let covered := operationsOf operations "allowed" ++ operationsOf operations "blocked"
  knownOperations.flatMap fun operation => blame (covered.contains (.ofString operation))
    "operation_unspecified" "operations"
    ("operation is neither allowed nor blocked: " ++ operation : String)

/-- The approvals that are declared, by their operations, and what is wrong with them. -/
abbrev Approvals := List Issue × List (PyStr × PyJson)

/-- One turn of `approval_map` -/
def approvalStep (state : Approvals) (item : PyJson × Nat) : Except PyExc Approvals :=
  let f := "approval_requirements[" ++ toString item.2 ++ "]"
  match item.1 with
  | .obj kvs => do
      let operation := field kvs "operation"
      let known ← memberOf knownOperations operation
      match known, operation with
      | true, .str name =>
          if state.2.any fun approval => approval.1 = name then
            return (state.1 ++ [⟨"approval_operation_duplicate", f ++ ".operation",
              "duplicate approval requirement for " ++ name⟩], state.2)
          else
            return (state.1 ++
              blame (isToken (field kvs "approval_token")) "approval_token_invalid"
                (f ++ ".approval_token")
                "approval token must match ^[A-Z][A-Z0-9_]\x7b2,127\x7d$" ++
              blame (field kvs "reason").nonBlankStr "approval_reason_missing" (f ++ ".reason")
                "approval requirement needs a non-empty reason", state.2 ++ [(name, item.1)])
      | _, _ => return (state.1 ++ [⟨"approval_operation_unknown", f ++ ".operation",
          "unknown operation: " ++ repr operation⟩], state.2)
  | _ => .ok (state.1 ++ [⟨"approval_requirement_not_object", f,
      "approval requirement must be an object"⟩], state.2)

/-- `approval_map` -/
def approvalMap (requirements : PyJson) : Except PyExc Approvals :=
  match requirements with
  | .arr items => items.zipIdx.foldlM (approvalStep repr) ([], [])
  | _ => .ok ([⟨"approval_requirements_not_list", "approval_requirements",
      "approval_requirements must be a list"⟩], [])

/-- Sensitive operations need an approval, and an approval an operation. -/
def approvalIssues (allowed : List PyStr) (approvals : List (PyStr × PyJson)) : List Issue :=
  (sensitiveOperations.filter fun operation => allowed.contains (.ofString operation)).flatMap
    fun operation => blame (approvals.any fun approval => approval.1 = .ofString operation)
      "sensitive_operation_without_approval" "approval_requirements"
      ("allowed sensitive operation requires approval: " ++ operation : String)

def approvalWarnings (allowed : List PyStr) (approvals : List (PyStr × PyJson)) : List Issue :=
  (sortedSet (approvals.map Prod.fst)).flatMap fun operation => blame (allowed.contains operation)
    "approval_for_non_allowed_operation" "approval_requirements"
    ("approval is declared for an operation not allowed by this contract: " ++ operation)

/-- The policies that two operations need. -/
def policyIssues (payload : PyDict) (allowed : List PyStr) : List Issue :=
  blame (!(allowed.contains (.ofString "git_push") &&
      !(field payload "network_policy").is "explicit_approval_required"))
    "git_push_network_policy_invalid" "network_policy"
    "git_push requires network_policy=explicit_approval_required" ++
  blame (!(allowed.contains (.ofString "write_private_memory") &&
      !(field payload "private_context_policy").is "explicit_approval_required"))
    "private_memory_policy_invalid" "private_context_policy"
    "write_private_memory requires explicit_approval_required"

/-- The checks of `review`. -/
def reviewIssues (payload : PyDict) (levelKnown : Bool) : List Issue :=
  let review := field payload "review"
  let risk := field payload "risk_level"
  let level := entry review "level"
  blame review.isObj "review_invalid" "review" "review must be an object" ++
  blame ((entry review "required").isBoolean true) "review_not_required" "review.required"
    "review.required must be true" ++
  blame levelKnown "review_level_invalid" "review.level"
    "review.level must be one of ['critical', 'standard', 'strict']" ++
  blame (listOfNonEmptyText (entry review "reviewers")) "reviewers_invalid" "review.reviewers"
    "review.reviewers must be a non-empty list" ++
  blame (!(risk.is "high" && level.is "standard")) "review_level_too_low" "review.level"
    "high-risk contracts require strict or critical review" ++
  blame (!(risk.is "critical" && !level.is "critical")) "review_level_too_low" "review.level"
    "critical-risk contracts require critical review"

/-- The checks of `teachback_required` and `authority`, and those of closing. -/
def authorityIssues (payload : PyDict) (allowed : List PyStr)
    (approvals : List (PyStr × PyJson)) : List Issue :=
  let authority := field payload "authority"
  let teachback := (field payload "teachback_required").isBoolean true
  let closes := allowed.contains (.ofString "close_mission")
  blame teachback "teachback_not_required" "teachback_required" "teachback_required must be true" ++
  blame authority.isObj "authority_invalid" "authority" "authority must be an object" ++
  (requiredAuthority.flatMap fun key => blame ((entry authority key).isBoolean true)
    "authority_flag_missing" ("authority." ++ key) ("authority." ++ key ++ " must be true" : String)) ++
  blame (!(closes && !teachback)) "closure_without_teachback" "teachback_required"
    "close_mission cannot be allowed without Teachback" ++
  blame (!(closes && !approvals.any fun approval => approval.1 = .ofString "close_mission"))
    "closure_without_approval" "approval_requirements"
    "close_mission requires an operation-specific approval"

/-- The fields that have to be lists of texts. -/
def textLists : List String :=
  ["acceptance_criteria", "evidence_requirements", "completion_conditions", "stop_triggers"]

def textListIssues (payload : PyDict) : List Issue :=
  textLists.flatMap fun f => blame (listOfNonEmptyText (field payload f)) (f ++ "_invalid") f
    (f ++ " must be a non-empty list of text items" : String)

/-! ### The validator -/

/-- The results of the tests that may raise an exception. -/
structure Tests where
  riskKnown : Bool
  networkKnown : Bool
  privateKnown : Bool
  approvals : Approvals
  levelKnown : Bool
  counts : List Nat

/-- These tests, in the order of the code. -/
def runTests (payload : PyDict) : Except PyExc Tests := do
  let riskKnown ← memberOf riskLevels (field payload "risk_level")
  let networkKnown ← memberOf policies (field payload "network_policy")
  let privateKnown ← memberOf policies (field payload "private_context_policy")
  let approvals ← approvalMap repr (field payload "approval_requirements")
  let levelKnown ← memberOf reviewLevels (entry (field payload "review") "level")
  let counts ← textLists.mapM fun f => lengthOr (field payload f)
  return ⟨riskKnown, networkKnown, privateKnown, approvals, levelKnown, counts⟩

/-- The operations that are allowed. -/
def allowedOperations (payload : PyDict) : List PyStr :=
  operationsOf (field payload "operations") "allowed"

/-- The blockers, in the order of the code. -/
def blockersOf (payload : PyDict) (tests : Tests) : List Issue :=
  identityIssues payload ++
  blame tests.riskKnown "risk_level_invalid" "risk_level"
    "risk_level must be one of ['critical', 'high', 'low', 'medium']" ++
  scopeIssues repr (field payload "scope") ++ operationIssues (field payload "operations") ++
  blame tests.networkKnown "network_policy_invalid" "network_policy"
    "network_policy must be one of ['blocked', 'explicit_approval_required']" ++
  blame tests.privateKnown "private_context_policy_invalid" "private_context_policy"
    "private_context_policy must be blocked or explicit_approval_required" ++
  textListIssues payload ++ tests.approvals.1 ++
  approvalIssues (allowedOperations payload) tests.approvals.2 ++
  policyIssues payload (allowedOperations payload) ++ reviewIssues payload tests.levelKnown ++
  authorityIssues payload (allowedOperations payload) tests.approvals.2

/-- What `validate_contract` returns; of the summary, what is computed. -/
structure ContractReport where
  blockers : List Issue
  warnings : List Issue
  allowedPaths : List PyStr
  blockedPaths : List PyStr
  allowed : List PyStr
  blocked : List PyStr
  approvalOperations : List PyStr
  counts : List Nat

/-- `validate_contract` -/
def validateContract (payload : PyDict) : Except PyExc ContractReport := do
  let tests ← runTests repr payload
  let scope := field payload "scope"
  let operations := field payload "operations"
  let allowed := allowedOperations payload
  return {
    blockers := blockersOf repr payload tests
    warnings := operationWarnings operations ++ approvalWarnings allowed tests.approvals.2
    allowedPaths := normalizedPaths scope "allowed_paths"
    blockedPaths := normalizedPaths scope "blocked_paths"
    allowed := (sortedSet allowed).filter (named knownOperations)
    blocked := (sortedSet (operationsOf operations "blocked")).filter (named knownOperations)
    approvalOperations := sortedSet (tests.approvals.2.map Prod.fst)
    counts := tests.counts }

/-- `validate_contract` reports no blocker. -/
def Accepted (payload : PyDict) : Prop :=
  ∃ report, validateContract repr payload = .ok report ∧ report.blockers = []

/-! ### What is accepted -/

theorem blame_eq_nil_iff {holds : Bool} {code f : String} {message : PyStr} :
    blame holds code f message = [] ↔ holds = true := by
  unfold blame
  split_ifs with h
  · exact iff_of_true rfl h
  · exact iff_of_false (fun h => nomatch h) h

theorem flatMap_zipIdx_eq_nil_iff {α β : Type} {xs : List α} {f : α × Nat → List β} :
    xs.zipIdx.flatMap f = [] ↔ ∀ x n, (x, n) ∈ xs.zipIdx → f (x, n) = [] := by
  rw [List.flatMap_eq_nil_iff]
  exact Prod.forall

theorem exists_mem_zipIdx {α : Type} {xs : List α} {x : α} (h : x ∈ xs) :
    ∃ n, (x, n) ∈ xs.zipIdx := by
  obtain ⟨n, hn, rfl⟩ := List.mem_iff_getElem.mp h
  exact ⟨n, List.mem_zipIdx_iff_getElem?.mpr (List.getElem?_eq_getElem hn)⟩

variable {repr}

/-- An accepted contract has no issue with its scope. -/
theorem Accepted.scopeIssues {payload : PyDict} (h : Accepted repr payload) :
    scopeIssues repr (field payload "scope") = [] := by
  obtain ⟨report, hreport, hblockers⟩ := h
  obtain ⟨tests, -, hreport⟩ := bind_eq_ok.mp hreport
  obtain rfl := Except.ok.inj hreport
  have hnone : ∀ issue, issue ∉ blockersOf repr payload tests :=
    List.eq_nil_iff_forall_not_mem.mp hblockers
  refine List.eq_nil_iff_forall_not_mem.mpr fun issue hissue => hnone issue ?_
  simp only [blockersOf, List.mem_append, hissue, true_or, or_true]

/-- The entries of `scope.allowed_paths`, as they are matched later. -/
def allowedPatterns (payload : PyDict) : List PyStr :=
  textsOf (entry (field payload "scope") "allowed_paths")

/-- No allowed pattern is itself a protected path. -/
theorem Accepted.not_protected {payload : PyDict} (h : Accepted repr payload) {pattern : PyStr}
    (hpattern : pattern ∈ allowedPatterns payload) : pathIsProtected (slashes pattern) = false := by
  have hscope := h.scopeIssues
  simp only [TaskContract.scopeIssues, List.append_eq_nil_iff] at hscope
  obtain ⟨⟨⟨⟨-, hpaths⟩, -⟩, hprotected⟩, -⟩ := hscope
  unfold pathIssues at hpaths
  split_ifs at hpaths with htexts
  obtain ⟨n, hn⟩ := exists_mem_zipIdx hpattern
  have hsome := blame_eq_nil_iff.mp (flatMap_zipIdx_eq_nil_iff.mp hpaths pattern n hn)
  obtain ⟨value, hvalue⟩ := Option.isSome_iff_exists.mp hsome
  have hmem : value ∈ normalizedPaths (field payload "scope") "allowed_paths" := by
    rw [normalizedPaths, if_pos htexts]
    exact List.mem_filterMap.mpr ⟨pattern, hpattern, hvalue⟩
  obtain ⟨m, hm⟩ := exists_mem_zipIdx hmem
  have hfree := blame_eq_nil_iff.mp (flatMap_zipIdx_eq_nil_iff.mp hprotected value m hm)
  rw [Bool.not_eq_true'] at hfree
  by_contra hraw
  rw [Bool.not_eq_false] at hraw
  rw [pathIsProtected_normalize hraw hvalue] at hfree
  cases hfree

/-- No allowed pattern matches a protected path. -/
def Safe (payload : PyDict) : Prop := ∀ pattern ∈ allowedPatterns payload,
  ∀ path, pathIsProtected path = true → pathMatches pattern path = false

def text (s : String) : PyJson := .str (.ofString s)

def texts (xs : List String) : PyJson := .arr (xs.map text)

def dict (kvs : List (String × PyJson)) : PyDict := kvs.map fun kv => (.ofString kv.1, kv.2)

/-- A contract that allows the paths of one pattern. -/
def contractOf (pattern : String) : PyDict := dict
  [("schema_version", text "1.0.0"), ("report_type", text "supervised_task_contract"),
    ("contract_id", text "c"), ("mission_id", text "m"), ("title", text "t"),
    ("objective", text "o"), ("non_goals", texts ["n"]), ("risk_level", text "low"),
    ("scope", .obj (dict [("allowed_paths", texts [pattern]), ("blocked_paths", texts ["b"])])),
    ("operations", .obj (dict [("allowed", texts ["propose_command"]),
      ("blocked", texts ["git_push"])])),
    ("network_policy", text "blocked"), ("private_context_policy", text "blocked"),
    ("acceptance_criteria", texts ["a"]), ("evidence_requirements", texts ["e"]),
    ("approval_requirements", .arr []), ("completion_conditions", texts ["c"]),
    ("review", .obj (dict [("required", .bool true), ("level", text "standard"),
      ("reviewers", texts ["r"])])),
    ("teachback_required", .bool true), ("stop_triggers", texts ["s"]),
    ("authority", .obj (dict (requiredAuthority.map fun key => (key, .bool true))))]

/-- `repr` of the samples, which is not looked at -/
def blankRepr : Repr := fun _ => []

def isAccepted (payload : PyDict) : Bool :=
  match validateContract blankRepr payload with
  | .ok report => report.blockers.isEmpty
  | .error _ => false

theorem accepted_of_isAccepted {payload : PyDict} (h : isAccepted payload = true) :
    Accepted blankRepr payload := by
  unfold isAccepted at h
  split at h
  · next report hreport => exact ⟨report, hreport, List.isEmpty_iff.mp h⟩
  · cases h

/-- A contract that allows everything is accepted. -/
theorem accepted_star : Accepted blankRepr (contractOf "*") :=
  accepted_of_isAccepted (by decide +kernel)

end Konoha.TaskContract
