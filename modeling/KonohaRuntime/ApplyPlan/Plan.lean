/-
ApplyPlan/Plan.lean

The human-approved apply plan: proposed artifacts of a sandbox run are copied to allowlisted places of
the repository, one planned change after the other.

A path that a text names is a list of names; where it leads is looked up in the tree.
-/
import KonohaRuntime.Base.FileTree
import KonohaRuntime.Base.PyOps
import KonohaRuntime.TaskContract.Patterns

namespace Konoha.ApplyPlan

open CodePoint FileTree
open PyJson (field)
open TaskContract (lowerPoint)

abbrev Bytes := List UInt8

abbrev FileTree := Tree PyStr Bytes

abbrev FilePath := Path PyStr

/-! ### Names in a text -/

/-- `Path(raw).parts`, of a relative path -/
def pathParts (raw : PyStr) : FilePath :=
  (raw.splitOn (scalar '/')).filter fun part => part ≠ [] ∧ part ≠ [scalar '.']

/-- `path.as_posix()`, of a relative path with a name -/
def posix (names : FilePath) : PyStr := [scalar '/'].intercalate names

/-- `normalize_relative_path` -/
def normalizeRelativePath (raw : PyJson) (label : String) : Except PyExc FilePath :=
  match raw with
  | .str text =>
      if text = [] then .error (.exception (label ++ " must be a non-empty relative path."))
      else if text.head? = some (scalar '/') then
        .error (.exception (label ++ " must not be absolute."))
      else if (pathParts text).contains [scalar '.', scalar '.'] then .error (.exception
        (label ++ " must not contain empty parts, '.', or '..' traversal."))
      else .ok (pathParts text)
  | _ => .error (.exception (label ++ " must be a non-empty relative path."))

/-- `Path(…).suffix`, of a name -/
def suffixOf (name : PyStr) : PyStr :=
  match name.reverse.span (· ≠ scalar '.') with
  | (letters, dot :: front) => if letters ≠ [] ∧ front ≠ [] then dot :: letters.reverse else []
  | (_, []) => []

/-- `ALLOWED_SUFFIXES` -/
def allowedSuffixes : List String := [".md", ".json", ".txt"]

/-- `ALLOWED_DESTINATION_PREFIXES` -/
def allowedDestinationPrefixes : List String :=
  ["docs/", "examples/", "runtime/templates/", "schemas/runtime/", "scrolls/", "alliance/templates/",
    "sandbox/tmp/"]

/-- `BLOCKED_DESTINATION_PARTS` -/
def blockedDestinationParts : List String :=
  [".git", ".github", "kirigakure", "private-library", "private", "vault", "secrets", "secret",
    "credentials", "credential", "memory", ".env"]

/-- The suffix of the last name is allowed. -/
def hasAllowedSuffix (names : FilePath) : Bool :=
  allowedSuffixes.any fun s => (suffixOf (names.getLast?.getD [])).map lowerPoint = PyStr.ofString s

/-- The text begins with an allowed prefix. -/
def hasAllowedPrefix (names : FilePath) : Bool :=
  allowedDestinationPrefixes.any fun p => (PyStr.ofString p).isPrefixOf (posix names)

/-- No name is blocked. -/
def isUnblocked (names : FilePath) : Bool :=
  names.all fun name => blockedDestinationParts.all fun b => name.map lowerPoint ≠ PyStr.ofString b

/-- `validate_destination_path`, of names that are normalized; a blocked file name is also a blocked
part. -/
def validateDestinationPath (names : FilePath) : Except PyExc Unit := do
  check (hasAllowedSuffix names) (.exception "Destination suffix is not allowed.")
  check (hasAllowedPrefix names) (.exception "Destination path is outside allowlist.")
  check (isUnblocked names)
    (.exception "Destination path contains blocked private or unsafe segment(s).")

/-! ### A planned change -/

/-- What a change names: a path below `proposed_outputs`, and one in the repository. -/
structure Named where
  artifact : FilePath
  intended : FilePath

/-- `validate_change`, and the two paths that it has normalized -/
def validateChange (change : PyJson) : Except PyExc Named := do
  check change.isObj (.exception "Each planned change must be a JSON object.")
  check ((change.entry "operation").is "propose_file")
    (.exception "Only propose_file planned changes are supported.")
  check ((change.entry "requires_human_approval").isBoolean true)
    (.exception "Each planned change must require human approval.")
  let isOpen ← PyJson.memberOf ["not_applied", "blocked"] (change.entry "apply_status")
  check isOpen
    (.exception "Only not_applied or blocked planned changes can be previewed or applied.")
  let artifact ← normalizeRelativePath (change.entry "sandbox_artifact_path") "sandbox_artifact_path"
  check (artifact.head? = some (.ofString "proposed_outputs") ∧ artifact.tail ≠ [])
    (.exception "sandbox_artifact_path must start with proposed_outputs/.")
  let intended ← normalizeRelativePath (change.entry "intended_repo_path") "intended_repo_path"
  validateDestinationPath intended
  return { artifact := artifact.tail, intended }

/-! ### The run -/

/-- What the tool is run in, apart from the tree. -/
structure Env where
  /-- how many links are followed -/
  limit : Nat
  /-- The system answers when it is asked for this path. -/
  answers : FilePath → Bool
  /-- The system lets a file be written there. -/
  permits : FilePath → Bool
  /-- `json.loads(path.read_text(encoding="utf-8"))` -/
  loads : Bytes → Except PyExc PyJson
  /-- the text of the report -/
  reportText : Bytes

structure Args where
  sandboxRoot : FilePath
  repoRoot : FilePath
  runId : PyStr
  confirmApply : Bool
  approvalToken : String
  allowOverwrite : Bool
  writeReport : Bool

/-- `resolve_paths` -/
structure Paths where
  repoRoot : FilePath
  runDir : FilePath
  proposedOutputs : FilePath
  deriving DecidableEq

variable (env : Env)

/-- `path.resolve()` -/
def resolve (tree : FileTree) (here : FilePath) (names : FilePath) : Except PyExc FilePath :=
  match walk tree.links env.limit here (names.map some) with
  | some p => .ok p
  | none => .error (.exception "Symlink loop")

/-- `ensure_under` -/
def ensureUnder (parent child : FilePath) (label : String) : Except PyExc Unit :=
  check (parent.isPrefixOf child) (.exception (label ++ " escapes allowed boundary"))

/-- `SAFE_RUN_ID_RE.fullmatch(run_id)` -/
def isSafeRunId (runId : PyStr) : Bool :=
  match runId with
  | scalar c :: rest =>
      c.isAlphanum && rest.length ≤ 127 && rest.all fun
        | scalar d => d.isAlphanum || d ∈ ['.', '_', '-']
        | surrogate _ => false
  | _ => false

/-- `resolve_paths` -/
def resolvePaths (args : Args) (tree : FileTree) : Except PyExc Paths := do
  check (isSafeRunId args.runId) (.exception "Unsafe run_id.")
  let sandboxRoot ← resolve env tree [] args.sandboxRoot
  let repoRoot ← resolve env tree [] args.repoRoot
  let runsRoot ← resolve env tree sandboxRoot [.ofString "runs"]
  let runDir ← resolve env tree runsRoot [args.runId]
  let proposedOutputs ← resolve env tree runDir [.ofString "proposed_outputs"]
  ensureUnder sandboxRoot runsRoot "runs_root"
  ensureUnder runsRoot runDir "run_dir"
  ensureUnder runDir proposedOutputs "proposed_outputs"
  return { repoRoot, runDir, proposedOutputs }

/-- `path.read_text`, of a path that leads through links -/
def readBytes (tree : FileTree) (here : FilePath) (names : FilePath) : Except PyExc Bytes := do
  let p ← resolve env tree here names
  match tree.fileAt p with
  | some bytes => .ok bytes
  | none => .error (.exception "Missing apply_plan.json")

/-- `validate_plan_boundaries`, and the planned changes -/
def validatePlanBoundaries (plan : PyJson) (runId : PyStr) : Except PyExc (List PyJson) := do
  check ((plan.entry "run_id").eqStr runId) (.exception "apply_plan.json run_id mismatch.")
  check ((plan.entry "mode").is "dry_run") (.exception "apply_plan.json must keep mode as dry_run.")
  ["execution", "git_operations", "adapter_execution", "private_context_access",
    "network_access"].forM fun key =>
      check ((plan.entry key).is "blocked") (.exception ("apply_plan.json must keep " ++ key ++ " blocked."))
  match plan.entry "planned_changes" with
  | .arr (first :: rest) => .ok (first :: rest)
  | _ => .error (.exception "apply_plan.json must contain at least one planned change.")

/-- What is done before the first change. -/
def prepare (args : Args) (tree : FileTree) : Except PyExc (Paths × List PyJson) := do
  check (!args.confirmApply || args.approvalToken = "APPLY_SANDBOX_PLAN")
    (.exception "Applying requires --approval-token 'APPLY_SANDBOX_PLAN'.")
  check (!args.allowOverwrite || args.confirmApply)
    (.exception "--allow-overwrite is only valid with --confirm-apply.")
  let paths ← resolvePaths env args tree
  check (tree paths.runDir).isSome (.exception "Run directory does not exist")
  let plan ← (readBytes env tree paths.runDir [.ofString "apply_plan.json"]) >>= env.loads
  check plan.isObj (.exception "apply_plan.json must contain a JSON object.")
  let changes ← validatePlanBoundaries plan args.runId
  return (paths, changes)

/-! ### One change after the other -/

/-- Where a change reads and writes. -/
structure Placed where
  source : FilePath
  destination : FilePath
  deriving DecidableEq

/-- The two paths of a change, as they are resolved -/
def place (paths : Paths) (tree : FileTree) (change : PyJson) : Except PyExc Placed := do
  let named ← validateChange change
  let source ← resolve env tree paths.proposedOutputs named.artifact
  let destination ← resolve env tree paths.repoRoot named.intended
  ensureUnder paths.proposedOutputs source "source artifact"
  ensureUnder paths.repoRoot destination "destination path"
  check (env.answers source && env.answers destination) (.osError "")
  return { source, destination }

/-- The bytes of an artifact -/
def readSource (tree : FileTree) (source : FilePath) : Except PyExc Bytes :=
  match tree.fileAt source with
  | some bytes => .ok bytes
  | none => .error (.exception "Source artifact is missing or is not a file")

/-- `build_change_result`, up to the checksum: what is copied, and where to -/
def checkChange (args : Args) (paths : Paths) (tree : FileTree) (change : PyJson) :
    Except PyExc (Placed × Bytes) := do
  let placed ← place env paths tree change
  let bytes ← readSource tree placed.source
  check ((tree placed.destination).isNone || args.allowOverwrite)
    (.exception "Destination already exists and overwrite is not allowed")
  return (placed, bytes)

/-- `destination_path.parent.mkdir(…)` and `destination_path.write_bytes(…)`, and the tree after them -/
def copyTo (tree : FileTree) (p : FilePath) (bytes : Bytes) : Except PyExc Unit × FileTree :=
  match tree.mkdirs p.dropLast with
  | none => (.error (.fileExistsError ""), tree)
  | some made =>
      if env.permits p then
        match made.write p bytes with
        | none => (.error (.osError "Is a directory"), made)
        | some written => (.ok (), written)
      else (.error (.osError "Permission denied"), made)

/-- `build_change_result`, and the tree after it -/
def buildChangeResult (args : Args) (paths : Paths) (tree : FileTree) (change : PyJson) :
    Except PyExc Placed × FileTree :=
  match checkChange env args paths tree change with
  | .error e => (.error e, tree)
  | .ok (placed, bytes) =>
      if args.confirmApply then
        match copyTo env tree placed.destination bytes with
        | (.error e, after) => (.error e, after)
        | (.ok _, after) => (.ok placed, after)
      else (.ok placed, tree)

/-- What has been done, whether it has raised, and the tree after it. -/
structure Run where
  done : List Placed
  raised : Option PyExc
  tree : FileTree

/-- The list of `build_change_result` -/
def runChanges (args : Args) (paths : Paths) : List PyJson → FileTree → Run
  | [], tree => ⟨[], none, tree⟩
  | change :: changes, tree =>
      match buildChangeResult env args paths tree change with
      | (.error e, after) => ⟨[], some e, after⟩
      | (.ok placed, after) =>
          let rest := runChanges args paths changes after
          ⟨placed :: rest.done, rest.raised, rest.tree⟩

/-- `path.write_bytes`, of a path that leads through links, in directories that are there -/
def writeBytes (tree : FileTree) (here names : FilePath) (bytes : Bytes) : Except PyExc FileTree := do
  let p ← resolve env tree here names
  check (env.permits p) (.osError "Permission denied")
  match tree.write p bytes with
  | some after => .ok after
  | none => .error (.osError "Is a directory")

/-- The name of the report -/
def reportName : FilePath := [.ofString "human_approved_apply_report.json"]

/-- `report_path.write_text(…)` -/
def writeReport (paths : Paths) (tree : FileTree) : Except PyExc FileTree :=
  writeBytes env tree paths.runDir reportName env.reportText

/-- The report, where one is written -/
def finish (args : Args) (paths : Paths) (run : Run) : Run :=
  match run.raised with
  | some _ => run
  | none =>
      if args.writeReport then
        match writeReport env paths run.tree with
        | .error e => { run with raised := some e }
        | .ok after => { run with tree := after }
      else run

/-- `apply_sandbox_plan` -/
def applySandboxPlan (args : Args) (tree : FileTree) : Run :=
  match prepare env args tree with
  | .error e => ⟨[], some e, tree⟩
  | .ok (paths, changes) => finish env args paths (runChanges env args paths changes tree)

end Konoha.ApplyPlan
