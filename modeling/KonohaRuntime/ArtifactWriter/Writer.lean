/-
ArtifactWriter/Writer.lean

The controlled artifact writer: one proposed artifact is written below `proposed_outputs` of a sandbox
run, and recorded in the run's apply plan.

The artifact is written before the plan is read.
-/
import KonohaRuntime.ApplyPlan.Plan
import KonohaRuntime.Base.RoundTrip

namespace Konoha.ArtifactWriter

open CodePoint FileTree
open ApplyPlan (Bytes FileTree FilePath pathParts posix suffixOf resolve ensureUnder isSafeRunId readBytes
  writeBytes)
open PyJson (field)
open TaskContract (lowerPoint)

/-- What the tool is run in, apart from the tree. -/
structure Env extends ApplyPlan.Env where
  /-- `json.loads(content)` -/
  parse : PyStr → Except PyExc PyJson
  /-- `json.dumps(plan, indent=2) + "\n"`, as it is written -/
  dumps : PyJson → Bytes

/-- The run whose artifacts are written. -/
structure Run where
  sandboxRoot : FilePath
  runId : PyStr

/-- What is asked for in one call. -/
structure Call where
  artifactPath : PyStr
  content : PyStr
  artifactKind : PyStr
  intendedRepoPath : PyStr
  force : Bool
  /-- `utc_now()` -/
  now : String

/-- `resolve_run_paths` -/
structure RunPaths where
  runDir : FilePath
  outputsRoot : FilePath
  deriving DecidableEq

variable (env : Env) (run : Run)

/-- `resolve_run_paths` -/
def resolveRunPaths (tree : FileTree) : Except PyExc RunPaths := do
  check (isSafeRunId run.runId) (.exception "Unsafe run_id.")
  let sandboxRoot ← resolve env.toEnv tree [] run.sandboxRoot
  let runsRoot ← resolve env.toEnv tree sandboxRoot [.ofString "runs"]
  let runDir ← resolve env.toEnv tree runsRoot [run.runId]
  ensureUnder sandboxRoot runsRoot "runs_root"
  ensureUnder runsRoot runDir "run_dir"
  let outputsRoot ← resolve env.toEnv tree runDir [.ofString "proposed_outputs"]
  return { runDir, outputsRoot }

/-- `ALLOWED_SUFFIXES` -/
def allowedSuffixes : List String := [".md", ".json", ".txt"]

/-- `Path(…).suffix.lower()`, of the last name -/
def lowerSuffix (names : FilePath) : PyStr := (suffixOf (names.getLast?.getD [])).map lowerPoint

/-- `resolve_artifact_path`: where the artifact is, and its names -/
def resolveArtifactPath (tree : FileTree) (outputsRoot : FilePath) (raw : PyStr) :
    Except PyExc (FilePath × FilePath) := do
  check (raw.head? ≠ some (scalar '/'))
    (.exception "artifact-path must be relative to proposed_outputs.")
  check (!(pathParts raw).contains [scalar '.', scalar '.'])
    (.exception "artifact-path must not contain empty parts or '..' traversal.")
  check (allowedSuffixes.any fun s => lowerSuffix (pathParts raw) = .ofString s)
    (.exception "Unsupported artifact extension")
  let artifactPath ← resolve env.toEnv tree outputsRoot (pathParts raw)
  ensureUnder outputsRoot artifactPath "artifact_path"
  return (artifactPath, pathParts raw)

/-- `load_json_file` -/
def loadJsonFile (tree : FileTree) (here names : FilePath) : Except PyExc PyJson := do
  let data ← readBytes env.toEnv tree here names >>= env.loads
  check data.isObj (.exception "JSON file must contain an object")
  return data

/-- `validate_manifest` -/
def validateManifest (tree : FileTree) (runDir : FilePath) : Except PyExc Unit := do
  let manifest ← loadJsonFile env tree runDir [.ofString "sandbox_run_manifest.json"]
  check ((manifest.entry "run_id").eqStr run.runId) (.exception "Manifest run_id mismatch.")
  ["execution", "git_operations", "adapter_execution", "private_context_access"].forM fun key =>
    check ((manifest.entry key).is "blocked") (.exception ("Sandbox manifest must keep " ++ key ++ " blocked."))

/-- `validate_content_for_suffix` -/
def validateContentForSuffix (content : PyStr) (artifactPath : FilePath) : Except PyExc Unit :=
  if lowerSuffix artifactPath = .ofString ".json" then do
    let parsed ← env.parse content
    check (parsed.isObj || parsed.isArr) (.exception "JSON artifact content must be an object or array.")
  else .ok ()

/-! ### The apply plan -/

def planName : FilePath := [.ofString "apply_plan.json"]

/-- `f"proposed_outputs/{artifact_rel}"` -/
def artifactText (names : FilePath) : PyStr := .ofString "proposed_outputs/" ++ posix names

def blocked : PyJson := .str (.ofString "blocked")

/-- A plan that is not there yet -/
def emptyPlan (runId : PyStr) (now : String) : PyJson := .obj [
  (.ofString "$schema", .str (.ofString "../../schemas/runtime/sandbox_apply_plan.schema.json")),
  (.ofString "schema_version", .str (.ofString "0.1")),
  (.ofString "plan_id", .str (.ofString "apply-plan-" ++ runId)),
  (.ofString "mode", .str (.ofString "dry_run")),
  (.ofString "run_id", .str runId),
  (.ofString "status", .str (.ofString "proposed")),
  (.ofString "created_at", .str (.ofString now)),
  (.ofString "updated_at", .str (.ofString now)),
  (.ofString "execution", blocked),
  (.ofString "filesystem_mutation", .str (.ofString "sandbox_only")),
  (.ofString "git_operations", blocked),
  (.ofString "adapter_execution", blocked),
  (.ofString "private_context_access", blocked),
  (.ofString "network_access", blocked),
  (.ofString "planned_changes", .arr []),
  (.ofString "notes", .arr [.str (.ofString "This apply plan is a dry-run proposal only."),
    .str (.ofString "It does not authorize applying files to the repository.")])]

/-- `read_existing_apply_plan` -/
def readExistingApplyPlan (tree : FileTree) (runDir : FilePath) (now : String) : Except PyExc PyJson := do
  let p ← resolve env.toEnv tree runDir planName
  if (tree p).isNone then .ok (emptyPlan run.runId now)
  else do
    let plan ← loadJsonFile env tree runDir planName
    check ((plan.entry "run_id").eqStr run.runId)
      (.exception "Existing apply_plan.json run_id does not match.")
    let isEditable ← PyJson.memberOf ["proposed", "draft"] (plan.entry "status")
    check isEditable (.exception "Existing apply_plan.json is not editable by this dry-run writer.")
    check (plan.entry "planned_changes").isArr
      (.exception "Existing apply_plan.json must contain planned_changes list.")
    return plan

/-- `f"{n:03d}"` -/
def threeDigits (n : Nat) : PyStr :=
  .ofString (String.ofList (List.replicate (3 - (Nat.toDigits 10 n).length) '0' ++ Nat.toDigits 10 n))

/-- `change_id` -/
def changeId (n : Nat) : PyStr := .ofString "change-" ++ threeDigits n

/-- The record of an artifact -/
def changeOf (changeId artifactKind artifact intended : PyStr) : PyJson := .obj [
  (.ofString "change_id", .str changeId),
  (.ofString "operation", .str (.ofString "propose_file")),
  (.ofString "artifact_kind", .str artifactKind),
  (.ofString "sandbox_artifact_path", .str artifact),
  (.ofString "intended_repo_path", .str intended),
  (.ofString "apply_status", .str (.ofString "not_applied")),
  (.ofString "requires_human_approval", .bool true),
  (.ofString "execution", blocked),
  (.ofString "git_operations", blocked),
  (.ofString "notes", .arr [.str (.ofString "This record proposes an artifact only."),
    .str (.ofString
      "Applying it to the repository requires a future human-approved apply plan gate.")])]

/-- `intended_repo_path or "UNASSIGNED"` -/
def intendedOf (intended : PyStr) : PyStr := if intended = [] then .ofString "UNASSIGNED" else intended

/-- The planned changes of other artifacts; an item that is no dict has no `get`. -/
def otherChanges (artifact : PyStr) (changes : List PyJson) : Except PyExc (List PyJson) := do
  check (changes.all PyJson.isObj) (.attributeError "object has no attribute 'get'")
  return changes.filter fun item => !(item.entry "sandbox_artifact_path").eqStr artifact

/-- The items of a list -/
def items : PyJson → List PyJson
  | .arr xs => xs
  | _ => []

/-- `update_apply_plan` -/
def updateApplyPlan (plan : PyJson) (names : FilePath) (call : Call) : Except PyExc PyJson := do
  let others ← otherChanges (artifactText names) (items (plan.entry "planned_changes"))
  let change := changeOf (changeId (others.length + 1)) call.artifactKind (artifactText names)
    (intendedOf call.intendedRepoPath)
  let fields := Loads.insertField plan.fields (.ofString "planned_changes") (.arr (others ++ [change]))
  return .obj (Loads.insertField fields (.ofString "updated_at") (.str (.ofString call.now)))

/-! ### A call -/

/-- What the checks before the first write give. -/
structure Prepared where
  paths : RunPaths
  artifactPath : FilePath
  names : FilePath
  deriving DecidableEq

/-- What is done before the first write. -/
def prepare (call : Call) (tree : FileTree) : Except PyExc Prepared := do
  let paths ← resolveRunPaths env run tree
  check (tree paths.runDir).isSome (.exception "Run directory does not exist")
  validateManifest env run tree paths.runDir
  let (artifactPath, names) ← resolveArtifactPath env tree paths.outputsRoot call.artifactPath
  validateContentForSuffix env call.content artifactPath
  check (env.answers artifactPath) (.osError "")
  check ((tree artifactPath).isNone || call.force) (.exception "Artifact already exists")
  return { paths, artifactPath, names }

/-- `outputs_root.mkdir(…)`, `artifact_path.parent.mkdir(…)` and `artifact_path.write_text(…)`, and the
tree after them; the file is open, and empty, when its text is encoded. -/
def writeArtifact (prepared : Prepared) (content : PyStr) (tree : FileTree) :
    Except PyExc Unit × FileTree :=
  match tree.mkdirs prepared.paths.outputsRoot with
  | none => (.error (.fileExistsError ""), tree)
  | some outer =>
      match outer.mkdirs prepared.artifactPath.dropLast with
      | none => (.error (.fileExistsError ""), outer)
      | some made =>
          if env.permits prepared.artifactPath then
            match made.write prepared.artifactPath [] with
            | none => (.error (.osError "Is a directory"), made)
            | some opened =>
                match content.encode with
                | .error e => (.error e, opened)
                | .ok text =>
                    (.ok (), Function.update opened prepared.artifactPath
                      (some (.file text.toUTF8.toList)))
          else (.error (.osError "Permission denied"), made)

def reportName : FilePath := [.ofString "artifact_write_report.json"]

/-- The plan is read, updated and written. -/
def recordArtifact (prepared : Prepared) (call : Call) (tree : FileTree) : Except PyExc FileTree := do
  let plan ← readExistingApplyPlan env run tree prepared.paths.runDir call.now
  let plan ← updateApplyPlan plan prepared.names call
  writeBytes env.toEnv tree prepared.paths.runDir planName (env.dumps plan)

/-- `write_sandbox_artifact`, and the tree after it -/
def writeSandboxArtifact (call : Call) (tree : FileTree) : Except PyExc Unit × FileTree :=
  match prepare env run call tree with
  | .error e => (.error e, tree)
  | .ok prepared =>
      match writeArtifact env prepared call.content tree with
      | (.error e, after) => (.error e, after)
      | (.ok _, after) =>
          match recordArtifact env run prepared call after with
          | .error e => (.error e, after)
          | .ok recorded =>
              match writeBytes env.toEnv recorded prepared.paths.runDir reportName env.reportText with
              | .error e => (.error e, recorded)
              | .ok reported => (.ok (), reported)

end Konoha.ArtifactWriter
