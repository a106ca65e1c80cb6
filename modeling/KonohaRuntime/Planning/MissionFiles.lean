/-
Planning/MissionFiles.lean

Where the files of a planned mission are written.

The paths are made of the mission id of the plan as it is; `validate_plan` does not look at it.  The
files are where they should be, and the executor finds them, exactly for the ids that the executor
takes (`kept_iff`).
-/
import Mathlib.Data.List.Induction
import KonohaRuntime.Planning.ValidatePlan

namespace Konoha.Planning

open Json

/-! ### Paths -/

/-- A path from the root: names, and steps to the directory above (`none`). -/
abbrev Steps := List (Option String)

/-- The steps of the text of a path. -/
def stepsOf (text : String) : Steps :=
  (((text.toList.splitOn '/').map String.ofList).filter fun part => part ≠ "" ∧ part ≠ ".").map
    fun part => if part = ".." then none else some part

/-- `path / text` -/
def join (path : Steps) (text : String) : Steps :=
  if text.toList.head? = some '/' then stepsOf text else path ++ stepsOf text

/-- Where the steps lead, on directories without symbolic links. -/
def resolved (steps : Steps) : List String :=
  steps.foldl (fun here step => match step with
    | some name => here ++ [name]
    | none => here.dropLast) []

/-! ### The files of a mission -/

/-- `state_dir / "missions"` -/
def missionsRoot (stateDir : List String) : Steps := (stateDir ++ ["missions"]).map some

/-- `state_dir / "missions" / mission_id` -/
def missionPath (stateDir : List String) (missionId : String) : Steps :=
  join (missionsRoot stateDir) missionId

/-- The names of the files that are written before the execution: the evidence pack, the continuity
record and its temporary file, a plan that changes were requested of, and the plan. -/
def fileNames (evidence : Digest) (planHash : HexString 16) : List String :=
  ["repository-evidence-" ++ evidence.1 ++ ".json", "continuity.json", "continuity.json.tmp",
    "plan-" ++ planHash.1 ++ "-changes-requested.json", "plan.json"]

/-- `_mission_dir` of the executor accepts the id. -/
def executorTakes (stateDir : List String) (missionId : String) : Bool :=
  isMissionId missionId &&
    decide ((resolved (missionPath stateDir missionId)).dropLast = stateDir ++ ["missions"])

/-- The files of a mission, and the directories made for them, are below `missions`; the executor
takes the id. -/
structure Kept (stateDir : List String) (evidence : Digest) (planHash : HexString 16)
    (missionId : String) : Prop where
  files : ∀ name ∈ fileNames evidence planHash,
    stateDir ++ ["missions"] <+: resolved (join (missionPath stateDir missionId) name)
  /-- `mkdir(parents=True)` makes the beginnings of the path that are not there. -/
  directories : ∀ path, path <+: missionPath stateDir missionId →
    ¬ path <+: missionsRoot stateDir → stateDir ++ ["missions"] <+: resolved path
  taken : executorTakes stateDir missionId = true

/-! ### Plain names -/

/-- A text that is a name as it is. -/
structure PlainName (text : String) : Prop where
  noSlash : '/' ∉ text.toList
  nonEmpty : text ≠ ""
  noDot : text ≠ "."
  noDots : text ≠ ".."

theorem PlainName.stepsOf {text : String} (h : PlainName text) : stepsOf text = [some text] := by
  have hsplit : text.toList.splitOn '/' = [text.toList] :=
    List.splitOnP_eq_singleton fun c hc => beq_eq_false_iff_ne.mpr fun heq => h.noSlash (heq ▸ hc)
  rw [Planning.stepsOf, hsplit, List.map_singleton, String.ofList_toList]
  simp [h.nonEmpty, h.noDot, h.noDots]

theorem PlainName.join {text : String} (h : PlainName text) (path : Steps) :
    join path text = path ++ [some text] := by
  have hhead : text.toList.head? ≠ some '/' := fun hslash => by
    obtain ⟨cs, hcs⟩ := List.head?_eq_some_iff.mp hslash
    exact h.noSlash (hcs ▸ List.mem_cons_self)
  rw [Planning.join, if_neg hhead, h.stepsOf]

theorem resolved_concat (path : Steps) (name : String) :
    resolved (path ++ [some name]) = resolved path ++ [name] := by
  rw [resolved, List.foldl_append]
  rfl

theorem resolved_names (names : List String) : resolved (names.map some) = names := by
  induction names using List.reverseRecOn with
  | nil => rfl
  | append_singleton names name ih => rw [List.map_append, List.map_singleton, resolved_concat, ih]

/-- A name with letters in front and no slash. -/
theorem plainName_of_append {text : String} (front : String) (rest : List Char)
    (htext : text.toList = front.toList ++ rest) (hfront : 2 < front.toList.length)
    (hslash : '/' ∉ front.toList) (hrest : '/' ∉ rest) : PlainName text := by
  have hlength : 2 < text.toList.length := by
    rw [htext, List.length_append]
    omega
  have hne {other : String} (hother : other.toList.length ≤ 2) : text ≠ other := by
    rintro rfl
    omega
  refine ⟨?_, hne (by decide), hne (by decide), hne (by decide)⟩
  rw [htext, List.mem_append, not_or]
  exact ⟨hslash, hrest⟩

theorem notMem_hex {n : Nat} (s : HexString n) : '/' ∉ s.1.toList := fun h => by
  have hall := List.all_eq_true.mp (Bool.and_eq_true_iff.mp s.2).2 '/' h
  revert hall
  decide

theorem plainName_of_fileNames {evidence : Digest} {planHash : HexString 16} :
    ∀ name ∈ fileNames evidence planHash, PlainName name := by
  have hevidence := notMem_hex evidence
  have hhash := notMem_hex planHash
  intro name hname
  simp only [fileNames, List.mem_cons, List.not_mem_nil, or_false] at hname
  rcases hname with rfl | rfl | rfl | rfl | rfl
  · refine plainName_of_append "repository-evidence-"
      (evidence.1.toList ++ ".json".toList) ?_ (by decide) (by decide) ?_
    · rw [String.toList_append, String.toList_append, List.append_assoc]
    · rw [List.mem_append, not_or]
      exact ⟨hevidence, by decide⟩
  · exact ⟨by decide, by decide, by decide, by decide⟩
  · exact ⟨by decide, by decide, by decide, by decide⟩
  · refine plainName_of_append "plan-"
      (planHash.1.toList ++ "-changes-requested.json".toList) ?_ (by decide) (by decide) ?_
    · rw [String.toList_append, String.toList_append, List.append_assoc]
    · rw [List.mem_append, not_or]
      exact ⟨hhash, by decide⟩
  · exact ⟨by decide, by decide, by decide, by decide⟩

theorem plainName_of_isMissionId {missionId : String} (h : isMissionId missionId = true) :
    PlainName missionId := by
  rw [isMissionId, afterPrefix] at h
  split_ifs at h with hstart
  · obtain ⟨-, hall⟩ := Bool.and_eq_true_iff.mp h
    obtain ⟨rest, hrest⟩ := List.isPrefixOf_iff_prefix.mp hstart
    rw [← hrest, List.drop_left] at hall
    refine plainName_of_append _ _ hrest.symm (by decide) (by decide) fun hslash => ?_
    have hchar := List.all_eq_true.mp hall '/' hslash
    revert hchar
    decide
  · cases h

/-! ### The files are kept -/

/-- **The files of a mission are where they should be, and the mission can be executed, if and only
if its id is one of the executor's.** -/
theorem kept_iff (stateDir : List String) (evidence : Digest) (planHash : HexString 16)
    (plan : MissionPlan) :
    Kept stateDir evidence planHash plan.missionId ↔ isMissionId plan.missionId = true := by
  constructor
  · intro h
    exact (Bool.and_eq_true_iff.mp h.taken).1
  · intro h
    have hplain := plainName_of_isMissionId h
    have hpath : missionPath stateDir plan.missionId =
        missionsRoot stateDir ++ [some plan.missionId] := hplain.join _
    have hresolved : resolved (missionPath stateDir plan.missionId) =
        stateDir ++ ["missions"] ++ [plan.missionId] := by
      rw [hpath, resolved_concat, missionsRoot, resolved_names]
    refine ⟨fun name hname => ?_, fun path hprefix hnot => ?_, ?_⟩
    · rw [(plainName_of_fileNames name hname).join, resolved_concat, hresolved]
      exact (List.prefix_append _ _).trans (List.prefix_append _ _)
    · rw [hpath] at hprefix
      rcases List.prefix_concat_iff.mp hprefix with rfl | hprefix
      · rw [← hpath, hresolved]
        exact List.prefix_append _ _
      · exact absurd hprefix hnot
    · rw [executorTakes, h, hresolved, List.dropLast_concat]
      exact decide_eq_true rfl

/-! ### A plan that is accepted -/

/-- One family and one model, without floats. -/
def sampleValidator : Validator where
  py := {
    sha256 := fun _ => zeroDigest
    floatRepr := fun _ => "0.0"
    lower := fun s => s
    format := fun _ => "None"
    repr := fun _ => "''"
    interpreter := usualInterpreter }
  room := 1000
  agentFamily _ := .ok (.obj [("allowed_task_patterns", .arr [.str "audit"])])
  modelAllowed _ _ _ := .ok true
  addFloat _ _ := .error (.exception "no floats")
  intOfText _ := .error (.valueError "invalid literal for int() with base 10")

/-- A plan of one task. -/
def acceptedPlan (missionId : String) (dependencies : Json) : MissionPlan where
  missionId := missionId
  understanding := .str "u"
  explicitFacts := .arr []
  missingContext := .arr []
  assumptionsProhibited := .arr []
  complexity := .str "low"
  assignments := [{
    taskId := .str "t1"
    family := .str "source-extraction"
    provider := .str "codex"
    model := .str "provider_default"
    objective := .str "o"
    inputs := .arr []
    expectedOutput := .str "e"
    dependencies := dependencies
    privateContext := .bool false
    network := .bool false
    mutation := .bool false
    estimatedInputTokens := .int 1
    estimatedOutputTokens := .int 1
    estimatedTotalTokens := .int 2
    costClass := .str "low"
    fallback := .str "f"
    stopCondition := .str "s"
    executionGate := .str "plan_approval" }]
  acceptanceCriteria := .arr []
  approvalBoundaries := .arr []
  estimatedTokens := .int 2
  estimatedCostClass := .str "low"
  rationale := .str "r"
  approval := .obj [("status", .str "pending")]
  teachbackPolicy := .str "disabled"
  workspacePolicy := .obj [("workspace_mutation_allowed", .bool false),
    ("private_runtime_state_allowed", .bool true)]
  budget := .obj
    [("provider_totals", .arr [.obj [("provider", .str "codex"), ("total_tokens", .int 2)]]),
      ("family_totals", .arr [.obj [("family", .str "source-extraction"), ("total_tokens", .int 2)]]),
      ("replanning_reserve_tokens", .int 0), ("maximum_total_tokens", .int 2)]
  governance := separateGovernance
  planHash := .str ""
  missionConstraints := null
  repositoryEvidence := null

/-- A plan is accepted with an id that leads out of the state directory. -/
theorem outside_accepted : ¬ ∀ (env : Validator) (readiness : Option (List (String × Json)))
    (texts : Option (List String)) (plan : MissionPlan) (stateDir : List String) (evidence : Digest)
    (planHash : HexString 16), validatePlan env readiness texts plan = .ok [] →
      Kept stateDir evidence planHash plan.missionId := by
  intro h
  have hvalid : validatePlan sampleValidator none none (acceptedPlan "../../outside" (.arr [])) =
      .ok [] := by
    decide +kernel
  have htaken := (h _ _ _ _ ["state"] zeroDigest ⟨String.ofList (List.replicate 16 '0'),
    isHex_ofList (by decide +kernel)⟩ hvalid).files "plan.json" (by simp [fileNames])
  revert htaken
  decide +kernel

end Konoha.Planning
