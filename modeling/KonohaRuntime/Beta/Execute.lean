/-
Beta/Execute.lean

`execute-command` of the beta runtime: the command of a proposal is looked up, checked and run, and
its result is recorded.

The result id and the file of the record are looked at when the command has run, and a child that is
stopped or prints what is no text ends the call: `evidenced_iff` says when there is a record.

`RuntimeBridge.execute` asks for a command by its id.  What runs is the first proposal with this id,
in a file that no approval is bound to (`same_line_iff`).
-/
import KonohaRuntime.Base.PyOps
import KonohaRuntime.GitStaging.Gates

namespace Konoha.Beta

open CodePoint PyJson
open GitStaging (foldPoint occurs)

abbrev PyDict := List (PyStr × PyJson)

/-- What the runtime takes from Python. -/
structure Python where
  /-- `s.lower()` -/
  lower : PyStr → PyStr
  /-- `\w` -/
  isWord : CodePoint → Bool
  /-- `shlex.split(s)` -/
  split : PyStr → Except PyExc (List PyStr)

variable (py : Python)

/-! ### Dangerous commands -/

/-- `first\s+second\b`, and so on, at the beginning of a string -/
def matchesWords : List String → PyStr → Bool
  | [], _ => true
  | [word], s =>
      (PyStr.ofString word).isPrefixOf s && !(s.drop word.length).head?.any py.isWord
  | word :: words, s =>
      (PyStr.ofString word).isPrefixOf s && (s.drop word.length).head?.any CodePoint.isSpace &&
        matchesWords words ((s.drop word.length).dropWhile CodePoint.isSpace)

/-- `\bfirst\s+second\b` -/
def hasWords (words : List String) (s : PyStr) : Bool :=
  (List.range s.length).any fun i =>
    !(i ≠ 0 && (s[i - 1]?).any py.isWord) && matchesWords py words (s.drop i)

/-- The patterns with word boundaries in `DANGEROUS_COMMAND_PATTERNS` -/
def dangerousWords : List (List String) :=
  [["rm"], ["rmdir"], ["del"], ["erase"], ["format"], ["shutdown"], ["reboot"], ["mkfs"], ["dd"],
    ["chmod", "777"], ["chown"], ["invoke-webrequest"], ["curl"], ["wget"], ["scp"], ["rsync"],
    ["ftp"], ["sftp"], ["net", "use"], ["powershell"], ["cmd"], ["bash", "-c"], ["sh", "-c"]]

/-- The other ones -/
def dangerousTexts : List String :=
  ["|", ";", "&&", "||", ">", "<", ".env", "secret", "credential", "token", "private-library",
    "alliance/kirigakure", "alliance\\kirigakure", "`"]

/-- `command_is_dangerous` -/
def commandIsDangerous (command : PyStr) : Bool :=
  let lowered := (py.lower command).map foldPoint
  dangerousWords.any (fun words => hasWords py words lowered) ||
    dangerousTexts.any fun text => occurs text lowered

/-! ### The command of a proposal -/

/-- The arguments of `execute-command`. -/
structure ExecuteArgs where
  missionId : PyStr
  planId : PyStr
  commandId : PyStr
  /-- empty when it is not given -/
  resultId : PyStr
  confirmExecute : Bool
  approvalToken : PyStr
  allowRiskyCommand : Bool
  riskyApprovalToken : PyStr
  force : Bool

/-- `re.fullmatch(r"[A-Za-z0-9][A-Za-z0-9_.-]{1,120}", value)` -/
def isSafeId : PyStr → Bool
  | scalar c :: s => c.isAlphanum && 1 ≤ s.length && s.length ≤ 120 && s.all fun
      | scalar c => c.isAlphanum || c ∈ ['_', '.', '-']
      | surrogate _ => false
  | _ => false

/-- What iterating over a value gives. -/
def iterate : PyJson → Except PyExc (List PyJson)
  | .arr xs => .ok xs
  | .str s => .ok (s.map fun c => .str [c])
  | .obj kvs => .ok (kvs.map fun kv => .str kv.1)
  | _ => .error (.typeError "object is not iterable")

/-- `load_proposals`, of what is in the file -/
def proposalsOf : PyJson → Except PyExc (List PyJson)
  | .obj kvs => iterate ((lookup (.ofString "proposals") kvs).getD (.arr []))
  | _ => .error (.attributeError "object has no attribute 'get'")

/-- `next((p for p in proposals if p.get("command_id") == command_id), None)` -/
def findProposal (commandId : PyStr) : List PyJson → Except PyExc PyDict
  | [] => .error (.valueError "Command proposal not found")
  | .obj kvs :: proposals =>
      if (field kvs "command_id").eqStr commandId then .ok kvs else findProposal commandId proposals
  | _ :: _ => .error (.attributeError "object has no attribute 'get'")

/-- `proposal["command"]`, which has to be a string for `command.lower()` -/
def commandOf (proposal : PyDict) : Except PyExc PyStr :=
  match lookup (.ofString "command") proposal with
  | some (.str command) => .ok command
  | some _ => .error (.attributeError "object has no attribute 'lower'")
  | none => .error (.exception "'command'")

/-- `require_token` -/
def requireToken (given : PyStr) (expected : String) : Except PyExc Unit :=
  check (given = .ofString expected) (.osError "Expected approval token")

/-- How the child process ends. -/
inductive ChildOutcome
  | exits (code : Int) (stdout stderr : PyStr)
  /-- stopped after `timeout` seconds -/
  | timesOut
  /-- it exits, and its output is not text -/
  | undecodable
  /-- there is no such program -/
  | neverStarts
  deriving DecidableEq

/-- A report of a command, as far as it depends on it. -/
structure CommandRecord where
  resultId : PyStr
  missionId : PyStr
  planId : PyStr
  commandId : PyStr
  command : PyStr
  executedAt : Nat
  exitCode : Int
  stdout : PyStr
  stderr : PyStr
  deriving DecidableEq

/-- What a call finds. -/
structure World where
  /-- `plans/<plan_id>_command_proposals.json` -/
  proposals : PyStr → Except PyExc PyJson
  /-- the records in `evidence/command_results`, by their ids -/
  records : PyStr → Option CommandRecord
  /-- `safe_root(args.working_dir)` -/
  workingDir : Except PyExc Unit
  child : List PyStr → ChildOutcome
  /-- `int(time.time())`, when the child has ended -/
  now : Nat
  /-- the state of the mission, which is read and written at the end -/
  saveState : Except PyExc Unit

/-- The command that is run, and its arguments. -/
def commandToRun (world : World) (args : ExecuteArgs) : Except PyExc (PyStr × List PyStr) := do
  requireToken args.approvalToken "EXECUTE_APPROVED_COMMAND"
  let payload ← world.proposals args.planId
  let proposals ← proposalsOf payload
  let proposal ← findProposal args.commandId proposals
  let command ← commandOf proposal
  let risky := commandIsDangerous py command
  check (!risky || args.allowRiskyCommand) (.osError "Command blocked by safety pattern")
  check (!risky || args.riskyApprovalToken = .ofString "EXECUTE_RISKY_COMMAND")
    (.osError "Expected approval token")
  world.workingDir
  let argv ← py.split command
  return (command, argv)

/-! ### The record -/

/-- What a call does. -/
structure Execution where
  /-- the command line that was started -/
  started : Option (List PyStr)
  /-- the record that was written -/
  written : Option CommandRecord
  /-- the exit code of the call -/
  result : Except PyExc Int

/-- `args.result_id or f"{args.command_id}-{int(time.time())}"` -/
def resultIdOf (world : World) (args : ExecuteArgs) : PyStr :=
  if args.resultId = [] then
    args.commandId ++ .ofString ("-" ++ toString world.now)
  else args.resultId

/-- `text[-n:]` -/
def lastOf (n : Nat) (text : PyStr) : PyStr := text.drop (text.length - n)

/-- The record of a child that has exited. -/
def recordOf (world : World) (args : ExecuteArgs) (command : PyStr) (code : Int)
    (stdout stderr : PyStr) : CommandRecord where
  resultId := resultIdOf world args
  missionId := args.missionId
  planId := args.planId
  commandId := args.commandId
  command := command
  executedAt := world.now
  exitCode := code
  stdout := lastOf 20000 stdout
  stderr := lastOf 8000 stderr

/-- The exit code of a call, from that of its child. -/
def exitCode (code : Int) : Int := if code = 0 then 0 else 1

/-- `cmd_execute`, after the child has exited -/
def recordResult (world : World) (args : ExecuteArgs) (command : PyStr) (argv : List PyStr)
    (code : Int) (stdout stderr : PyStr) : Execution :=
  if !isSafeId (resultIdOf world args) then
    ⟨some argv, none, .error (.valueError "Unsafe result_id")⟩
  else if (world.records (resultIdOf world args)).isSome ∧ !args.force then
    ⟨some argv, none, .error (.fileExistsError "Refusing to overwrite existing file")⟩
  else
    ⟨some argv, some (recordOf world args command code stdout stderr),
      world.saveState.map fun _ => exitCode code⟩

/-- `cmd_execute` -/
def cmdExecute (world : World) (args : ExecuteArgs) : Execution :=
  if !isSafeId args.missionId then ⟨none, none, .error (.valueError "Unsafe mission_id")⟩
  else if !args.confirmExecute then ⟨none, none, .ok 0⟩
  else
    match commandToRun py world args with
    | .error e => ⟨none, none, .error e⟩
    | .ok (command, argv) =>
        match world.child argv with
        | .neverStarts => ⟨none, none, .error (.fileNotFoundError "No such file or directory")⟩
        | .timesOut => ⟨some argv, none, .error (.exception "TimeoutExpired")⟩
        | .undecodable => ⟨some argv, none, .error (.valueError "can't decode byte")⟩
        | .exits code stdout stderr => recordResult world args command argv code stdout stderr

/-- A command that was started has a record that names it and its outcome, and no earlier record was
overwritten without `--force`. -/
structure Evidenced (world : World) (args : ExecuteArgs) (argv : List PyStr) : Prop where
  recorded : ∃ record code stdout stderr, (cmdExecute py world args).written = some record ∧
    record.commandId = args.commandId ∧ py.split record.command = .ok argv ∧
    world.child argv = .exits code stdout stderr ∧ record.exitCode = code ∧
    record.stdout = lastOf 20000 stdout ∧ record.stderr = lastOf 8000 stderr
  kept : ∀ record, (cmdExecute py world args).written = some record →
    world.records record.resultId = none ∨ args.force = true

/-! ### What is started -/

theorem commandToRun_eq_ok {world : World} {args : ExecuteArgs} {command : PyStr}
    {argv : List PyStr} (h : commandToRun py world args = .ok (command, argv)) :
    (∃ payload proposals proposal, world.proposals args.planId = .ok payload ∧
      proposalsOf payload = .ok proposals ∧ findProposal args.commandId proposals = .ok proposal ∧
      commandOf proposal = .ok command) ∧ py.split command = .ok argv := by
  obtain ⟨_, -, h⟩ := bind_eq_ok.mp h
  obtain ⟨payload, hpayload, h⟩ := bind_eq_ok.mp h
  obtain ⟨proposals, hproposals, h⟩ := bind_eq_ok.mp h
  obtain ⟨proposal, hproposal, h⟩ := bind_eq_ok.mp h
  obtain ⟨command', hcommand, h⟩ := bind_eq_ok.mp h
  obtain ⟨_, -, h⟩ := bind_eq_ok.mp h
  obtain ⟨_, -, h⟩ := bind_eq_ok.mp h
  obtain ⟨_, -, h⟩ := bind_eq_ok.mp h
  obtain ⟨argv', hsplit, h⟩ := bind_eq_ok.mp h
  obtain ⟨rfl, rfl⟩ := Prod.mk.inj (Except.ok.inj h)
  exact ⟨⟨payload, proposals, proposal, hpayload, hproposals, hproposal, hcommand⟩, hsplit⟩

theorem started_recordResult (world : World) (args : ExecuteArgs) (command : PyStr)
    (argv : List PyStr) (code : Int) (stdout stderr : PyStr) :
    (recordResult world args command argv code stdout stderr).started = some argv := by
  unfold recordResult
  split_ifs <;> rfl

/-- A call that starts something has found its command. -/
theorem cmdExecute_of_started {world : World} {args : ExecuteArgs} {argv : List PyStr}
    (h : (cmdExecute py world args).started = some argv) : ∃ command,
      commandToRun py world args = .ok (command, argv) ∧
      cmdExecute py world args = match world.child argv with
        | .neverStarts => ⟨none, none, .error (.fileNotFoundError "No such file or directory")⟩
        | .timesOut => ⟨some argv, none, .error (.exception "TimeoutExpired")⟩
        | .undecodable => ⟨some argv, none, .error (.valueError "can't decode byte")⟩
        | .exits code stdout stderr =>
            recordResult world args command argv code stdout stderr := by
  unfold cmdExecute at h ⊢
  split_ifs at h ⊢
  rcases hrun : commandToRun py world args with e | ⟨command, argv'⟩
  · rw [hrun] at h
    cases h
  · rw [hrun] at h
    dsimp only at h ⊢
    have hsame : argv' = argv := by
      rcases hchild : world.child argv' with ⟨code, stdout, stderr⟩ | _ | _ | _ <;>
        rw [hchild] at h
      · exact Option.some.inj ((started_recordResult ..).symm.trans h)
      · exact Option.some.inj h
      · exact Option.some.inj h
      · cases h
    subst hsame
    exact ⟨command, rfl, rfl⟩

theorem written_recordResult {world : World} {args : ExecuteArgs} {command : PyStr}
    {argv : List PyStr} {code : Int} {stdout stderr : PyStr} {record : CommandRecord} :
    (recordResult world args command argv code stdout stderr).written = some record ↔
      isSafeId (resultIdOf world args) = true ∧
        (world.records (resultIdOf world args) = none ∨ args.force = true) ∧
        record = recordOf world args command code stdout stderr := by
  unfold recordResult
  split_ifs with hsafe hthere
  · refine iff_of_false (fun h => nomatch h) fun h => ?_
    rw [h.1] at hsafe
    cases hsafe
  · refine iff_of_false (fun h => nomatch h) fun h => ?_
    obtain ⟨hsome, hforce⟩ := hthere
    rcases h.2.1 with hnone | hforced
    · rw [hnone] at hsome
      cases hsome
    · rw [hforced] at hforce
      cases hforce
  · have hfree : world.records (resultIdOf world args) = none ∨ args.force = true := by
      rw [not_and_or, Bool.not_eq_true, Option.isSome_eq_false_iff, Option.isNone_iff_eq_none,
        Bool.not_eq_true, Bool.not_eq_false'] at hthere
      exact hthere
    have hid : isSafeId (resultIdOf world args) = true := by simpa using hsafe
    exact ⟨fun h => ⟨hid, hfree, (Option.some.inj h).symm⟩, fun h => congrArg some h.2.2.symm⟩

/-- **A command that was started is recorded, if and only if its result id is safe and free, and it
exits by itself with an output that is text.** -/
theorem evidenced_iff {world : World} {args : ExecuteArgs} {argv : List PyStr}
    (h : (cmdExecute py world args).started = some argv) : Evidenced py world args argv ↔
      isSafeId (resultIdOf world args) = true ∧
        (world.records (resultIdOf world args) = none ∨ args.force = true) ∧
        ∃ code stdout stderr, world.child argv = .exits code stdout stderr := by
  obtain ⟨command, hrun, hexecute⟩ := cmdExecute_of_started py h
  obtain ⟨-, hsplit⟩ := commandToRun_eq_ok py hrun
  constructor
  · rintro ⟨⟨record, code, stdout, stderr, hwritten, -, -, hchild, -⟩, -⟩
    rw [hexecute, hchild] at hwritten
    obtain ⟨hid, hfree, -⟩ := written_recordResult.mp hwritten
    exact ⟨hid, hfree, code, stdout, stderr, hchild⟩
  · rintro ⟨hid, hfree, code, stdout, stderr, hchild⟩
    rw [hchild] at hexecute
    have hwritten : (cmdExecute py world args).written =
        some (recordOf world args command code stdout stderr) := by
      rw [hexecute]
      exact written_recordResult.mpr ⟨hid, hfree, rfl⟩
    have hstdout : (recordOf world args command code stdout stderr).stdout = lastOf 20000 stdout := by
      rw [recordOf]
    have hstderr : (recordOf world args command code stdout stderr).stderr = lastOf 8000 stderr := by
      rw [recordOf]
    refine ⟨⟨recordOf world args command code stdout stderr, code, stdout, stderr, hwritten, rfl,
      hsplit, hchild, rfl, hstdout, hstderr⟩, ?_⟩
    intro record hrecord
    obtain rfl := Option.some.inj (hwritten.symm.trans hrecord)
    exact hfree

/-! ### The bridge -/

/-- What `RuntimeBridge.execute` reads of an action. -/
structure BridgeAction where
  actionId : PyStr
  missionId : PyStr
  planId : PyStr
  skillId : PyStr

/-- The command ids of the skills of kind `execute-command` -/
def commandSkills : List (String × String) :=
  [("inspect_python_runtime", "inspect-python"), ("inspect_git_status", "inspect-git-status")]

/-- `SKILLS[action["skill_id"]]["command_id"]` -/
def commandIdOf (action : BridgeAction) : Option PyStr :=
  (commandSkills.find? fun skill => action.skillId = .ofString skill.1).map fun skill =>
    .ofString skill.2

/-- The arguments with which `RuntimeBridge.execute` calls the runtime. -/
def bridgeArgs (action : BridgeAction) (commandId : PyStr) : ExecuteArgs where
  missionId := action.missionId
  planId := action.planId
  commandId := commandId
  resultId := action.actionId ++ .ofString "-result"
  confirmExecute := true
  approvalToken := .ofString "EXECUTE_APPROVED_COMMAND"
  allowRiskyCommand := false
  riskyApprovalToken := []
  force := true

/-- `RuntimeBridge.execute`: the command line that is started -/
def bridgeLine (world : World) (action : BridgeAction) : Option (List PyStr) :=
  (commandIdOf action).bind fun commandId =>
    (cmdExecute py world (bridgeArgs action commandId)).started

/-- The command of the first proposal with an id, in the file of a plan. -/
def firstCommand (world : World) (planId commandId : PyStr) : Option PyStr :=
  match world.proposals planId with
  | .ok (.obj kvs) =>
      let proposals := match field kvs "proposals" with
        | .arr xs => xs
        | _ => []
      (proposals.find? fun p => (entry p "command_id").eqStr commandId).bind fun p =>
        match entry p "command" with
        | .str command => some command
        | _ => none
  | _ => none

theorem find?_of_findProposal {commandId : PyStr} {proposals : List PyJson} {proposal : PyDict}
    (h : findProposal commandId proposals = .ok proposal) :
    (proposals.find? fun p => (entry p "command_id").eqStr commandId) = some (.obj proposal) := by
  induction proposals with
  | nil => cases h
  | cons p proposals ih =>
    cases p with
    | obj kvs =>
      rw [findProposal] at h
      split_ifs at h with hid
      · obtain rfl := Except.ok.inj h
        exact List.find?_cons_of_pos hid
      · have hother : (entry (.obj kvs) "command_id").eqStr commandId = false :=
          Bool.eq_false_iff.mpr hid
        rw [List.find?_cons, hother]
        exact ih h
    | null | bool | int | float | str | arr => cases h

theorem findProposal_texts {commandId : PyStr} {proposals : List PyJson} {proposal : PyDict}
    (htexts : ∀ p ∈ proposals, ∃ s, p = .str s) : findProposal commandId proposals ≠ .ok proposal := by
  intro h
  have hfind := List.mem_of_find?_eq_some (find?_of_findProposal h)
  obtain ⟨s, hs⟩ := htexts _ hfind
  cases hs

theorem field_eq_getD_lookup (kvs : PyDict) (key : String) :
    field kvs key = (lookup (.ofString key) kvs).getD .null := rfl

/-- What is found in the file is the first proposal with the id. -/
theorem firstCommand_eq {world : World} {planId commandId : PyStr} {payload : PyJson}
    {proposals : List PyJson} {proposal : PyDict} {command : PyStr}
    (hpayload : world.proposals planId = .ok payload) (hproposals : proposalsOf payload = .ok proposals)
    (hproposal : findProposal commandId proposals = .ok proposal)
    (hcommand : commandOf proposal = .ok command) :
    firstCommand world planId commandId = some command := by
  cases payload with
  | null | bool | int | float | str | arr => cases hproposals
  | obj kvs =>
    have hfield : field kvs "proposals" = .arr proposals := by
      rw [field_eq_getD_lookup]
      have hproposals : iterate ((lookup (.ofString "proposals") kvs).getD (.arr [])) =
        .ok proposals := hproposals
      rcases hlookup : lookup (.ofString "proposals") kvs with - | v
      · rw [hlookup] at hproposals
        obtain rfl := Except.ok.inj hproposals
        cases hproposal
      · rw [hlookup] at hproposals
        cases v with
        | arr xs => exact congrArg arr (Except.ok.inj hproposals)
        | str s =>
          obtain rfl := Except.ok.inj hproposals
          refine absurd hproposal (findProposal_texts fun p hp => ?_)
          obtain ⟨c, -, rfl⟩ := List.mem_map.mp hp
          exact ⟨_, rfl⟩
        | obj lvs =>
          obtain rfl := Except.ok.inj hproposals
          refine absurd hproposal (findProposal_texts fun p hp => ?_)
          obtain ⟨kv, -, rfl⟩ := List.mem_map.mp hp
          exact ⟨_, rfl⟩
        | null | bool | int | float => cases hproposals
    unfold firstCommand
    rw [hpayload]
    dsimp only
    rw [hfield]
    dsimp only
    rw [find?_of_findProposal hproposal, Option.bind_some]
    unfold commandOf at hcommand
    have hentry : entry (.obj proposal) "command" = .str command := by
      show field proposal "command" = _
      rw [field_eq_getD_lookup]
      split at hcommand
      · next command' hlookup =>
        rw [hlookup]
        exact congrArg str (Except.ok.inj hcommand)
      · cases hcommand
      · cases hcommand
    rw [hentry]

/-- What a bridge starts is the first command with the id of the skill. -/
theorem line_of_first {world : World} {action : BridgeAction} {line : List PyStr}
    (h : bridgeLine py world action = some line) : ∃ commandId command,
      commandIdOf action = some commandId ∧
      firstCommand world action.planId commandId = some command ∧ py.split command = .ok line := by
  obtain ⟨commandId, hid, hstarted⟩ := Option.bind_eq_some_iff.mp h
  obtain ⟨command, hrun, -⟩ := cmdExecute_of_started py hstarted
  obtain ⟨⟨payload, proposals, proposal, hpayload, hproposals, hproposal, hcommand⟩, hsplit⟩ :=
    commandToRun_eq_ok py hrun
  exact ⟨commandId, command, hid, firstCommand_eq hpayload hproposals hproposal hcommand, hsplit⟩

/-- **Two mission directories give an action the same command line, if and only if the first commands
with the id of its skill are split alike.** -/
theorem same_line_iff {world world' : World} {action : BridgeAction} {line line' : List PyStr}
    (h : bridgeLine py world action = some line) (h' : bridgeLine py world' action = some line') :
    ∃ commandId, commandIdOf action = some commandId ∧
      (line = line' ↔ (firstCommand world action.planId commandId).map py.split =
        (firstCommand world' action.planId commandId).map py.split) := by
  obtain ⟨commandId, command, hid, hfirst, hsplit⟩ := line_of_first py h
  obtain ⟨commandId', command', hid', hfirst', hsplit'⟩ := line_of_first py h'
  obtain rfl := Option.some.inj (hid.symm.trans hid')
  refine ⟨commandId, hid, ?_⟩
  rw [hfirst, hfirst', Option.map_some, Option.map_some, hsplit, hsplit']
  constructor
  · rintro rfl
    rfl
  · exact fun h => Except.ok.inj (Option.some.inj h)

/-! ### Samples -/

/-- Python for commands in ASCII without quotes. -/
def asciiPython : Python where
  lower s := s.map foldPoint
  isWord
    | scalar c => c.isAlphanum || c = '_'
    | surrogate _ => false
  split s := .ok ((s.splitOn (scalar ' ')).filter (· ≠ []))

/-- The file of a plan with one proposal. -/
def proposalFile (command : String) : PyJson :=
  .obj [(.ofString "proposals", .arr [.obj
    [(.ofString "command_id", .str (.ofString "inspect-python")),
      (.ofString "command", .str (.ofString command))]])]

def sampleWorld (command : String) (child : ChildOutcome) : World where
  proposals _ := .ok (proposalFile command)
  records _ := none
  workingDir := .ok ()
  child _ := child
  now := 1
  saveState := .ok ()

def sampleArgs (resultId : String) : ExecuteArgs where
  missionId := .ofString "m1"
  planId := .ofString "p"
  commandId := .ofString "inspect-python"
  resultId := .ofString resultId
  confirmExecute := true
  approvalToken := .ofString "EXECUTE_APPROVED_COMMAND"
  allowRiskyCommand := false
  riskyApprovalToken := []
  force := false

def sampleLine : List PyStr := [.ofString "python", .ofString "-V"]

def sampleAction : BridgeAction where
  actionId := .ofString "a1"
  missionId := .ofString "m1"
  planId := .ofString "p"
  skillId := .ofString "inspect_python_runtime"

/-- One evaluation of the samples: with an unsafe and a safe result id, and of the two lines. -/
theorem samples_evaluate :
    ((cmdExecute asciiPython (sampleWorld "python -V" (.exits 0 [] []))
        (sampleArgs "x y")).started = some sampleLine ∧
      (cmdExecute asciiPython (sampleWorld "python -V" (.exits 0 [] []))
        (sampleArgs "x y")).written = none) ∧
    (cmdExecute asciiPython (sampleWorld "python -V" (.exits 0 [] []))
      (sampleArgs "r1")).started = some sampleLine ∧
    bridgeLine asciiPython (sampleWorld "python -V" (.exits 0 [] [])) sampleAction =
      some sampleLine ∧
    bridgeLine asciiPython (sampleWorld "touch x" (.exits 0 [] [])) sampleAction =
      some [.ofString "touch", .ofString "x"] := by
  decide +kernel

theorem started_safe : (cmdExecute asciiPython (sampleWorld "python -V" (.exits 0 [] []))
    (sampleArgs "r1")).started = some sampleLine :=
  samples_evaluate.2.1

/-- A command is run although its result id is not safe, and leaves no record. -/
theorem unsafe_id_not_recorded :
    (cmdExecute asciiPython (sampleWorld "python -V" (.exits 0 [] []))
      (sampleArgs "x y")).started = some sampleLine ∧
    ¬ Evidenced asciiPython (sampleWorld "python -V" (.exits 0 [] [])) (sampleArgs "x y")
      sampleLine := by
  obtain ⟨hstarted, hnone⟩ := samples_evaluate.1
  refine ⟨hstarted, fun h => ?_⟩
  obtain ⟨record, code, stdout, stderr, hwritten, -⟩ := h.recorded
  rw [hnone] at hwritten
  cases hwritten

/-- With a safe one, it is recorded. -/
theorem safe_id_recorded : Evidenced asciiPython (sampleWorld "python -V" (.exits 0 [] []))
    (sampleArgs "r1") sampleLine :=
  (evidenced_iff asciiPython started_safe).mpr
    ⟨by decide +kernel, .inl rfl, 0, [], [], rfl⟩

theorem bridgeLine_version : bridgeLine asciiPython (sampleWorld "python -V" (.exits 0 [] []))
    sampleAction = some sampleLine :=
  samples_evaluate.2.2.1

theorem bridgeLine_other : bridgeLine asciiPython (sampleWorld "touch x" (.exits 0 [] []))
    sampleAction = some [.ofString "touch", .ofString "x"] :=
  samples_evaluate.2.2.2

/-- One approved action runs what the file of proposals says. -/
theorem proposals_decide_line :
    bridgeLine asciiPython (sampleWorld "python -V" (.exits 0 [] [])) sampleAction =
      some sampleLine ∧
    bridgeLine asciiPython
        { sampleWorld "python -V" (.exits 0 [] []) with
          proposals := fun _ => .ok (proposalFile "touch x") } sampleAction ≠ some sampleLine := by
  refine ⟨bridgeLine_version, fun h => ?_⟩
  have hother := bridgeLine_other.symm.trans h
  exact absurd hother (by decide +kernel)

theorem same_line_sample : ∃ commandId, commandIdOf sampleAction = some commandId ∧
    (sampleLine = [.ofString "touch", .ofString "x"] ↔
      (firstCommand (sampleWorld "python -V" (.exits 0 [] [])) sampleAction.planId commandId).map
          asciiPython.split =
        (firstCommand (sampleWorld "touch x" (.exits 0 [] [])) sampleAction.planId commandId).map
          asciiPython.split) :=
  same_line_iff asciiPython bridgeLine_version bridgeLine_other

end Konoha.Beta
