/-
LocalAudit/Audit.lean

`cmd_audit_repo`: the issues that a local model reports are merged with those of the deterministic
checks, filtered through a table of rules and made into the operations of a patch plan.

The repository is given by the texts and the file names that the checks look at.  The reply is the
JSON that the server of the model answers with; the text of the model is a field of it.  Of the
documents that are written the parts that depend on the reply are kept, as what can go wrong in
writing them does.
-/
import KonohaRuntime.Base.SplitLines
import KonohaRuntime.Base.PyDumps
import KonohaRuntime.Runtime.Result

namespace Konoha.LocalAudit

open CodePoint
open PyJson (nesting)

/-! ### Values -/

abbrev PyDict := List (PyStr × PyJson)

/-- `d.get(key)`, if it is there -/
def get? (d : PyDict) (key : String) : Option PyJson :=
  (d.find? fun kv => kv.1 = PyStr.ofString key).map (·.2)

/-- `d.get(key)` -/
def get (d : PyDict) (key : String) : PyJson := (get? d key).getD .null

/-- `bool(v)` -/
def truthy : PyJson → Bool
  | .null => false
  | .bool b => b
  | .int i => i ≠ 0
  | .float f => f.bits.toNat % 2 ^ 63 ≠ 0
  | .str s => s ≠ []
  | .arr xs => !xs.isEmpty
  | .obj kvs => !kvs.isEmpty

/-- `hash(v)` does not raise. -/
def hashable : PyJson → Bool
  | .arr _ | .obj _ => false
  | _ => true

/-- The value of a number that is whole. -/
def wholeValue : PyJson → Option Int
  | .bool b => some (if b then 1 else 0)
  | .int i => some i
  | .float f => if f.isFinite ∧ f.toRat.den = 1 then some f.toRat.num else none
  | _ => none

/-- `a` and `b` are one element of a set, of values that can be hashed and are no zeros. -/
def sameKey (a b : PyJson) : Bool :=
  match wholeValue a, wholeValue b with
  | some m, some n => m = n
  | none, none =>
      match a, b with
      | .null, .null => true
      | .str s, .str t => s = t
      | .float f, .float g => f.bits = g.bits
      | _, _ => false
  | _, _ => false

/-- What the audit takes from Python. -/
structure Python where
  interpreter : Interpreter
  /-- `str.lower()` -/
  lower : String → String
  /-- `str(v)`, of a value that is no string -/
  format : PyJson → String
  /-- `json.dumps(v, sort_keys=True)` -/
  dumps : PyDict → String
  /-- how deep a value may be nested for `str` -/
  reprDepth : Nat
  /-- and for `json.dumps` -/
  dumpsDepth : Nat
  /-- and for `json.dumps` with an indent -/
  indentDepth : Nat
  room : 9 ≤ indentDepth

variable (py : Python)

/-- `RecursionError`, of a value that is nested too deep -/
def checkDepth (limit : Nat) (v : PyJson) : Except PyExc Unit :=
  if nesting v ≤ limit then .ok () else .error (.recursionError "maximum recursion depth exceeded")

/-- `str(v)` -/
def strOf : PyJson → Except PyExc PyStr
  | .str s => .ok s
  | v => do
      checkDepth py.reprDepth v
      return .ofString (py.format v)

/-! ### Markers -/

/-- The repository, as far as the audit looks at it. -/
structure Repo where
  /-- `repo_file_inventory` -/
  files : List String
  readme : String
  changelog : String
  roadmap : String
  guides : String

/-- `text_contains_any` -/
def textContainsAny (text : String) (needles : List String) : Bool :=
  needles.any fun n => decide ((py.lower n).toList <:+: (py.lower text).toList)

/-- `marker_evidence` -/
def markerEvidence (path text : String) (needles : List String) : List PyJson :=
  ((splitLines [] text.toList).zipIdx 1).filterMap fun line =>
    (needles.find? fun n => decide ((py.lower n).toList <:+: (py.lower (.ofList line.1)).toList)).map
      fun needle => .obj
        [(.ofString "path", .str (.ofString path)), (.ofString "line", .int line.2),
         (.ofString "marker", .str (.ofString needle)),
         (.ofString "excerpt", .str (.ofString (.ofList ((stripChars line.1).take 220))))]

/-- `marker_groups` -/
def markerGroups : List (String × List String) :=
  [("beta_runtime_status",
      ["Konoha Beta", "v3.0.0", "v3.0", "Real Supervised Task Runtime", "beta runtime"]),
   ("local_model_bootstrap",
      ["v3.0.1", "Local Model Bootstrap", "Ollama", "local model", "repo consistency audit"]),
   ("beta_runtime_entrypoint",
      ["tools/beta_runtime", "run_konoha_beta.py", "Konoha Beta Runtime"]),
   ("changelog_v3_0_1",
      ["v3.0.1", "Local Model Bootstrap", "Ollama", "local model repo consistency audit"])]

/-- `evidence_by_group` -/
def evidenceByGroup (repo : Repo) : PyJson :=
  let docs := [("README.md", repo.readme), ("CHANGELOG.md", repo.changelog),
    ("docs/roadmap.md", repo.roadmap), ("docs/guides/README.md", repo.guides)]
  .obj (markerGroups.map fun group => (.ofString group.1,
    .arr (docs.flatMap fun doc => markerEvidence py doc.1 doc.2 group.2)))

/-- `coverage` -/
def coverage (repo : Repo) : List (String × Bool) :=
  [("readme_has_beta_runtime_status",
      textContainsAny py repo.readme
          ["Konoha Beta", "Real Supervised Task Runtime", "beta runtime"] &&
        textContainsAny py repo.readme ["v3.0.0", "v3.0", "v3.0.1"]),
   ("readme_has_local_model_bootstrap",
      textContainsAny py repo.readme
          ["v3.0.1", "Local Model Bootstrap", "Konoha Beta Local Model Audit"] &&
        textContainsAny py repo.readme ["Ollama", "local model"]),
   ("readme_has_beta_runtime_entrypoint",
      textContainsAny py repo.readme
        ["tools/beta_runtime", "Konoha Beta Real Supervised Task Runtime"]),
   ("changelog_has_v3_0_1",
      textContainsAny py repo.changelog ["v3.0.1"] &&
        textContainsAny py repo.changelog ["Local Model Bootstrap", "Ollama", "local model"]),
   ("guides_index_has_local_model_audit",
      textContainsAny py repo.guides
        ["local_model_bootstrap_repo_audit_and_patch_flow.md", "Local Model Bootstrap"]),
   ("roadmap_has_v3_0_1",
      textContainsAny py repo.roadmap
        ["v3.0.1 Local Model Bootstrap", "Repo Audit and Patch Flow"])]

/-- `coverage.get(key)` -/
def covers (repo : Repo) (key : String) : Bool :=
  (((coverage py repo).find? fun kv => kv.1 = key).map (·.2)).getD false

/-- `collect_deterministic_markers` -/
def deterministicMarkers (repo : Repo) : PyJson :=
  .obj [(.ofString "coverage",
      .obj ((coverage py repo).map fun kv => (.ofString kv.1, .bool kv.2))),
    (.ofString "evidence_by_group", evidenceByGroup py repo),
    (.ofString "documents_checked",
      .arr (["README.md", "CHANGELOG.md", "docs/roadmap.md", "docs/guides/README.md"].map fun doc =>
        .str (.ofString doc)))]

/-! ### Issues -/

def betaStatus : String := "readme_missing_v3_beta_status"

def localRuntime : String := "readme_missing_local_model_runtime"

def betaPath : String := "readme_missing_beta_runtime_path"

def changelogEntry : String := "changelog_missing_v3_0_1"

/-- A rule of `ISSUE_COVERAGE_RULES`. -/
structure Rule where
  id : String
  coverageKeys : List String
  reason : String
  deriving DecidableEq

/-- `ISSUE_COVERAGE_RULES` -/
def issueCoverageRules : List Rule :=
  [⟨betaStatus, ["readme_has_beta_runtime_status"],
      "README already contains beta runtime status markers."⟩,
   ⟨localRuntime, ["readme_has_local_model_bootstrap"],
      "README already contains local model/Ollama v3.0.1 markers."⟩,
   ⟨betaPath, ["readme_has_beta_runtime_entrypoint"],
      "README already surfaces the beta runtime entrypoint or status section."⟩,
   ⟨changelogEntry, ["changelog_has_v3_0_1"],
      "CHANGELOG already contains v3.0.1 local model/bootstrap markers."⟩]

/-- An issue of the checks. -/
def heuristicIssue (id severity evidence change : String) : PyDict :=
  [(.ofString "id", .str (.ofString id)), (.ofString "severity", .str (.ofString severity)),
   (.ofString "evidence", .str (.ofString evidence)),
   (.ofString "suggested_change", .str (.ofString change)),
   (.ofString "source", .str (.ofString "deterministic_heuristic"))]

/-- `any(f.startswith("tools/beta_runtime") for f in files)` -/
def hasBetaFiles (repo : Repo) : Bool :=
  repo.files.any fun f => "tools/beta_runtime".toList.isPrefixOf f.toList

/-- The checks of `heuristic_inconsistencies`: whether one fails, and its issue. -/
def heuristics (repo : Repo) : List (Bool × PyDict) :=
  [(!covers py repo "readme_has_beta_runtime_status",
      heuristicIssue betaStatus "medium"
        "README.md does not clearly mention Konoha Beta/v3.0 runtime status."
        "Add a concise current beta status section to README.md."),
   (!covers py repo "readme_has_local_model_bootstrap",
      heuristicIssue localRuntime "medium"
        "README.md does not clearly mention local model bootstrap/Ollama audit path."
        "Add v3.0.1 local model bootstrap and repo consistency audit note."),
   (hasBetaFiles repo && !covers py repo "readme_has_beta_runtime_entrypoint",
      heuristicIssue betaPath "low"
        "tools/beta_runtime exists but README.md may not surface the terminal beta runtime path."
        "Mention tools/beta_runtime as beta terminal runtime entrypoint."),
   (!covers py repo "changelog_has_v3_0_1",
      heuristicIssue changelogEntry "low"
        "CHANGELOG.md does not mention v3.0.1 local model audit patch."
        "Add v3.0.1 entry under Unreleased/Added.")]

/-- `heuristic_inconsistencies` -/
def heuristicInconsistencies (repo : Repo) : List PyDict :=
  ((heuristics py repo).filter (·.1)).map (·.2)

/-- `ident` -/
def identOf (item : PyDict) : PyJson :=
  if truthy (get item "id") then get item "id"
  else if truthy (get item "evidence") then get item "evidence"
  else .str (.ofString (py.dumps item))

/-- Only `json.dumps` may fail in it. -/
def identDepth (item : PyDict) : Except PyExc Unit :=
  if truthy (get item "id") ∨ truthy (get item "evidence") then .ok ()
  else checkDepth py.dumpsDepth (.obj item)

/-- One round of the loop of `merge_issues`: `seen` and `combined`. -/
def mergeIssue (state : List PyJson × List PyDict) (item : PyDict) :
    Except PyExc (List PyJson × List PyDict) := do
  identDepth py item
  if ! hashable (identOf py item) then .error (.typeError "unhashable type")
  else if state.1.any (sameKey (identOf py item)) then return state
  else return (identOf py item :: state.1, state.2 ++ [item])

/-- `merge_issues` -/
def mergeIssues (modelIssues heuristicIssues : List PyDict) : Except PyExc (List PyDict) := do
  let state ← (modelIssues ++ heuristicIssues).foldlM (mergeIssue py) ([], [])
  return state.2

/-- The rule that suppresses an issue; the text of an id that is no string is no key of the
table. -/
def suppression (repo : Repo) (issue : PyDict) : Option Rule :=
  match get issue "id" with
  | .str id => issueCoverageRules.find? fun rule =>
      PyStr.ofString rule.id = id ∧ rule.coverageKeys.all (covers py repo)
  | _ => none

/-- `d[key] = v` -/
def set (d : PyDict) (key : String) (v : PyJson) : PyDict := Loads.insertField d (.ofString key) v

/-- `suppressed_issue` -/
def suppressedIssue (repo : Repo) (issue : PyDict) (rule : Rule) : PyDict :=
  let issue := set issue "suppression_status" (.str (.ofString "possible_false_positive"))
  let issue := set issue "suppression_reason" (.str (.ofString rule.reason))
  let issue := set issue "deterministic_coverage_keys"
    (.arr (rule.coverageKeys.map fun key => .str (.ofString key)))
  set issue "deterministic_evidence" (evidenceByGroup py repo)

/-- `validated_issue` -/
def validatedIssue (issue : PyDict) : PyDict :=
  set issue "validation_status" (.str (.ofString "validated_or_uncovered_by_markers"))

/-- `validate_issues_against_markers` -/
def validateIssuesAgainstMarkers (repo : Repo) (issues : List PyDict) :
    List PyDict × List PyDict :=
  ((issues.filter fun issue => (suppression py repo issue).isNone).map validatedIssue,
   issues.filterMap fun issue => (suppression py repo issue).map (suppressedIssue py repo issue))

/-! ### The patch plan -/

/-- An operation `append_once`. -/
structure Operation where
  path : String
  marker : String
  content : String
  deriving DecidableEq

def readmeOperation : Operation where
  path := "README.md"
  marker := "## Konoha Beta Local Model Audit"
  content := "## Konoha Beta Local Model Audit\n\nKonoha v3.0.1 adds a local-first beta patch flow for computer profiling, Ollama local model recommendation, approved local model download, repository consistency audit, documentation patch planning, and gated Git follow-up.\n\nLocal model audits are evidence only. Model output is not permission. Repository changes, commits, and pushes still require explicit human approval."

def betaPathOperation : Operation where
  path := "README.md"
  marker := "`tools/beta_runtime/run_konoha_beta.py`"
  content := "## Konoha Beta Terminal Runtime Entrypoint\n\n- `tools/beta_runtime/run_konoha_beta.py`: terminal-first beta runtime entrypoint for supervised missions, command approvals, local/remote agent invocation evidence, token ledger, Git gates, and teachback closure."

def changelogOperation : Operation where
  path := "CHANGELOG.md"
  marker := "Added v3.0.1 Local Model Bootstrap"
  content := "## [v3.0.1] - Local Model Bootstrap, Repo Audit and Patch Flow\n\n### Added\n\n- Added v3.0.1 Local Model Bootstrap, Repo Consistency Audit and Auto-Git Patch Flow with WSL/local computer profile, Ollama recommendation, approved model download, local model repository audit, documentation patch planning, and gated Git follow-up."

def roadmapOperation : Operation where
  path := "docs/roadmap.md"
  marker := "v3.0.1 Local Model Bootstrap, Repo Audit and Patch Flow"
  content := "### v3.0.1 Local Model Bootstrap, Repo Audit and Patch Flow\n\n- Add initial local computer analysis, local model recommendation, approved Ollama model download, local model repository consistency audit, and documentation patch planning before broader v3.1 optimization patches."

/-- An id is among those of the issues. -/
def hasId (issues : List PyDict) (id : String) : Bool :=
  issues.any fun issue => (get issue "id").is id

/-- The operations of `make_patch_plan`. -/
def operationsOf (issues : List PyDict) : List Operation :=
  (if hasId issues betaStatus || hasId issues localRuntime then [readmeOperation] else []) ++
    (if hasId issues betaPath then [betaPathOperation] else []) ++
    (if hasId issues changelogEntry then [changelogOperation] else []) ++
    if issues.isEmpty then [] else [roadmapOperation]

/-- What `make_patch_plan` returns. -/
structure Plan where
  summary : PyStr
  issuesConsidered : List PyDict
  operations : List Operation
  recommendedCommitMessage : PyStr

/-- `make_patch_plan` -/
def makePatchPlan (issues : List PyDict) (modelSummary recommendedCommit : PyStr) :
    Except PyExc Plan :=
  -- the set of the ids
  if issues.any fun issue => ! hashable (get issue "id") then .error (.typeError "unhashable type")
  else
    .ok
      { summary := modelSummary
        issuesConsidered := issues
        operations := operationsOf issues
        recommendedCommitMessage :=
          if recommendedCommit ≠ [] then recommendedCommit
          else if operationsOf issues = [] then .ofString "No documentation patch recommended"
          else .ofString "Update Konoha beta local model audit documentation" }

/-! ### The reply -/

/-- The first `{` of a text and what follows it, up to the last `}`. -/
def braced (text : PyStr) : Option PyStr :=
  let rest := text.dropWhile (· ≠ scalar '{')
  if scalar '}' ∈ rest then some (rest.rdropWhile (· ≠ scalar '}')) else none

/-- `parse_jsonish` -/
def parseJsonish (text : PyStr) : PyJson :=
  let text := text.strip
  if text = [] then .null
  else
    match loads py.interpreter text with
    | .ok v => v
    | .error _ =>
        match braced text with
        | none => .null
        | some inner =>
            match loads py.interpreter inner with
            | .ok v => v
            | .error _ => .null

/-- `usage` -/
def usageOf (data : PyDict) : PyDict :=
  [(.ofString "usage_source", .str (.ofString "provider_reported")),
   (.ofString "input_tokens", get data "prompt_eval_count"),
   (.ofString "output_tokens", get data "eval_count"),
   (.ofString "total_duration", get data "total_duration"),
   (.ofString "prompt_eval_duration", get data "prompt_eval_duration"),
   (.ofString "eval_duration", get data "eval_duration")]

/-- `call_ollama`, once the answer has come: the text of the model, and the usage. -/
def callOllama : PyJson → Except PyExc (PyStr × PyDict)
  | .obj data =>
      match (get? data "response").getD (.str []) with
      | .str text => .ok (text, usageOf data)
      -- `text.strip()`
      | _ => .error (.attributeError "object has no attribute 'strip'")
  | _ => .error (.attributeError "object has no attribute 'get'")

/-- The objects of a list. -/
def dicts : PyJson → List PyDict
  | .arr xs => xs.filterMap fun
      | .obj kvs => some kvs
      | _ => none
  | _ => []

/-- `model_summary`, `model_suggested_issues` and `recommended_commit` -/
def readModel (parsed : PyJson) : Except PyExc (PyStr × List PyDict × PyStr) :=
  if ! truthy parsed then .ok ([], [], [])
  else
    match parsed with
    | .obj d => do
        let summary ← strOf py ((get? d "summary").getD (.str []))
        let commit ← strOf py ((get? d "recommended_commit_message").getD (.str []))
        return (summary, dicts (get d "inconsistencies"), commit)
    | _ => .error (.attributeError "object has no attribute 'get'")

/-! ### The documents -/

/-- `write_json`, whose text is ASCII. -/
def writeJson (doc : PyDict) : Except PyExc Unit := checkDepth py.indentDepth (.obj doc)

/-- `emit`, of the audit -/
def emit (asJson : Bool) (audit : PyDict) : Except PyExc Unit :=
  if asJson then writeJson py [(.ofString "audit", .obj audit)] else .ok ()

def arrOf (issues : List PyDict) : PyJson := .arr (issues.map .obj)

/-- `audit` -/
def auditDocument (repo : Repo) (text : PyStr) (usage : PyDict) (parsed : PyJson)
    (suggested candidates validated suppressed : List PyDict) : PyDict :=
  [(.ofString "model_raw_response", .str text),
   (.ofString "model_parsed", parsed),
   (.ofString "usage", .obj usage),
   (.ofString "deterministic_markers", deterministicMarkers py repo),
   (.ofString "model_suggested_issues", arrOf suggested),
   (.ofString "heuristic_issues", arrOf (heuristicInconsistencies py repo)),
   (.ofString "all_candidate_issues", arrOf candidates),
   (.ofString "validated_issues", arrOf validated),
   (.ofString "suppressed_issues", arrOf suppressed),
   (.ofString "inconsistencies", arrOf validated)]

/-- The patch plan, as it is written. -/
def planDocument (plan : Plan) : PyDict :=
  [(.ofString "summary", .str plan.summary),
   (.ofString "issues_considered", arrOf plan.issuesConsidered),
   (.ofString "operations", .arr (plan.operations.map fun op => .obj
      [(.ofString "operation", .str (.ofString "append_once")),
       (.ofString "path", .str (.ofString op.path)),
       (.ofString "marker", .str (.ofString op.marker)),
       (.ofString "content", .str (.ofString op.content))])),
   (.ofString "recommended_commit_message", .str plan.recommendedCommitMessage)]

/-- The line under `## Summary`, which must be a string when the lines are joined. -/
def summaryLine (parsed : PyJson) : Except PyExc PyStr :=
  let line : PyStr := .ofString "Review JSON audit for model response."
  match parsed with
  | .obj d =>
      match get? d "summary" with
      | none => .ok line
      | some (.str s) => .ok s
      | some _ => .error (.typeError "sequence item: expected str instance")
  | _ => .ok line

/-- A field of an f-string. -/
def fieldText (issue : PyDict) (key default : String) : Except PyExc PyStr :=
  match get? issue key with
  | none => .ok (.ofString default)
  | some v => strOf py v

/-- The line of a validated issue. -/
def issueLine (issue : PyDict) : Except PyExc PyStr := do
  let id ← fieldText py issue "id" "issue"
  let severity ← fieldText py issue "severity" "unknown"
  let evidence ← fieldText py issue "evidence" ""
  let change ← fieldText py issue "suggested_change" ""
  return PyStr.ofString "- **" ++ id ++ PyStr.ofString "** (" ++ severity ++
    PyStr.ofString "): " ++ evidence ++ PyStr.ofString " Proposed: " ++ change

/-- The line of a suppressed issue. -/
def suppressedLine (issue : PyDict) : Except PyExc PyStr := do
  let id ← fieldText py issue "id" "issue"
  let reason ← fieldText py issue "suppression_reason" "suppressed by deterministic evidence"
  return PyStr.ofString "- **" ++ id ++ PyStr.ofString "**: " ++ reason

/-- `audit_md.write_text`, of the lines that depend on the reply. -/
def writeMarkdown (parsed : PyJson) (validated suppressed : List PyDict) (commit : PyStr) :
    Except PyExc Unit := do
  let validatedLines ← validated.mapM (issueLine py)
  let suppressedLines ← suppressed.mapM (suppressedLine py)
  let summary ← summaryLine parsed
  let _ ← PyStr.encode ((summary :: validatedLines) ++ suppressedLines ++ [commit]).flatten
  return ()

/-- `cmd_audit_repo`, once the issues of the model are known -/
def conclude (asJson : Bool) (repo : Repo) (text : PyStr) (usage : PyDict) (parsed : PyJson)
    (modelSummary : PyStr) (suggested : List PyDict) (commit : PyStr) : Except PyExc Plan := do
  let candidates ← mergeIssues py suggested (heuristicInconsistencies py repo)
  let (validated, suppressed) := validateIssuesAgainstMarkers py repo candidates
  let plan ← makePatchPlan validated
    (if modelSummary ≠ [] then modelSummary else .ofString "Local repo consistency audit completed.")
    commit
  let audit := auditDocument py repo text usage parsed suggested candidates validated suppressed
  writeJson py audit
  writeJson py (planDocument plan)
  writeMarkdown py parsed validated suppressed plan.recommendedCommitMessage
  emit py asJson audit
  return plan

/-- `cmd_audit_repo`, with the answer of the server -/
def auditRepo (asJson : Bool) (repo : Repo) (body : PyJson) : Except PyExc Plan := do
  let (text, usage) ← callOllama body
  let (modelSummary, suggested, commit) ← readModel py (parseJsonish py text)
  conclude py asJson repo text usage (parseJsonish py text) modelSummary suggested commit

end Konoha.LocalAudit
