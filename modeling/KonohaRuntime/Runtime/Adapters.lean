/-
Runtime/Adapters.lean

The provider adapters: what `invoke` makes of the output of a command-line provider.
The programs that it starts, and the schema file, are answered by the surroundings.

`delivers` says what is true of every result whatever those print: who the provider is,
that model and command are texts, and that the usage has been normalized.
-/
import KonohaRuntime.Base.SplitLines
import KonohaRuntime.Runtime.Host

namespace Konoha

open Json

/-! ### Usage -/

/-- `isinstance(v, int)`, which a `bool` is. -/
def isInt : Json → Bool
  | .int _ | .bool _ => true
  | _ => false

/-- The value of an `int`. -/
def intValue : Json → Int
  | .int i => i
  | .bool b => if b then 1 else 0
  | _ => 0

/-- `aliases` -/
def usageAliases : List (String × List String) :=
  [("input_tokens", ["input_tokens", "input"]),
   ("cached_input_tokens", ["cached_input_tokens", "cached_input"]),
   ("output_tokens", ["output_tokens", "output"]),
   ("reasoning_output_tokens", ["reasoning_output_tokens", "reasoning_tokens"]),
   ("total_tokens", ["total_tokens", "total"])]

/-- The first of the candidates that is an `int`. -/
def firstInt (raw : List (String × Json)) (candidates : List String) : Option Json :=
  candidates.findSome? fun candidate => (lookup candidate raw).filter isInt

/-- The counts under their own names. -/
def namedCounts (raw : List (String × Json)) : List (String × Json) :=
  usageAliases.filterMap fun entry => (firstInt raw entry.2).map fun v => (entry.1, v)

/-- `_normalize_usage` -/
def normalizeUsage (raw : List (String × Json)) : List (String × Json) :=
  let normalized := namedCounts raw
  if (lookup "total_tokens" normalized).isSome then normalized
  else
    let total := intValue ((lookup "input_tokens" normalized).getD (.int 0)) +
      intValue ((lookup "output_tokens" normalized).getD (.int 0))
    if total ≠ 0 then normalized ++ [("total_tokens", .int total)] else normalized

/-- Every count that `_normalize_usage` finds is a natural number. -/
def Countable (raw : List (String × Json)) : Prop :=
  ∀ entry ∈ usageAliases, ∀ v, firstInt raw entry.2 = some v → ∃ n : Nat, v = .int n

theorem mem_namedCounts {raw : List (String × Json)} {kv : String × Json} :
    kv ∈ namedCounts raw ↔ ∃ entry ∈ usageAliases, entry.1 = kv.1 ∧ firstInt raw entry.2 = some kv.2 := by
  obtain ⟨key, v⟩ := kv
  simp only [namedCounts, List.mem_filterMap, Option.map_eq_some_iff, Prod.mk.injEq]
  constructor
  · rintro ⟨entry, hentry, v', hv, rfl, rfl⟩
    exact ⟨entry, hentry, rfl, hv⟩
  · rintro ⟨entry, hentry, rfl, hv⟩
    exact ⟨entry, hentry, v, hv, rfl, rfl⟩

theorem mem_of_lookup {key : String} {v : Json} {kvs : List (String × Json)}
    (h : lookup key kvs = some v) : (key, v) ∈ kvs := by
  induction kvs with
  | nil => cases h
  | cons kv rest ih =>
      obtain ⟨k, w⟩ := kv
      unfold lookup at h
      split at h
      · rename_i hk
        obtain rfl := Option.some.inj h
        exact hk ▸ List.mem_cons_self
      · exact List.mem_cons_of_mem _ (ih h)

theorem isTokenUsage_obj {kvs : List (String × Json)} :
    isTokenUsage (.obj kvs) = true ↔ ∀ kv ∈ kvs, ∃ n : Nat, kv.2 = .int n := by
  unfold isTokenUsage
  rw [List.all_eq_true]
  refine forall₂_congr fun kv _ => ?_
  rcases kv.2 with - | b | i | f | s | xs | fields
  case int =>
    simp only [decide_eq_true_eq, Json.int.injEq]
    exact ⟨fun h => ⟨i.toNat, (Int.toNat_of_nonneg h).symm⟩, fun ⟨n, hn⟩ => hn ▸ Int.natCast_nonneg n⟩
  all_goals simp

theorem isTokenUsage_namedCounts {raw : List (String × Json)} :
    isTokenUsage (.obj (namedCounts raw)) = true ↔ Countable raw := by
  rw [isTokenUsage_obj]
  constructor
  · intro h entry hentry v hv
    exact h (entry.1, v) (mem_namedCounts.mpr ⟨entry, hentry, rfl, hv⟩)
  · intro h kv hkv
    obtain ⟨entry, hentry, -, hv⟩ := mem_namedCounts.mp hkv
    exact h entry hentry kv.2 hv

/-- A count that is missing counts as none. -/
theorem intValue_count {kvs : List (String × Json)} (h : isTokenUsage (.obj kvs) = true)
    (key : String) : 0 ≤ intValue ((lookup key kvs).getD (.int 0)) := by
  rcases e : lookup key kvs with - | v
  · exact Int.le_refl 0
  · obtain ⟨n, hn⟩ := isTokenUsage_obj.mp h _ (mem_of_lookup e)
    show 0 ≤ intValue v
    rw [show v = .int n from hn]
    exact Int.natCast_nonneg n

/-- **The verifier takes a normalized usage** exactly when its counts are natural
numbers: the total that is added is one when they are. -/
theorem isTokenUsage_normalizeUsage {raw : List (String × Json)} :
    isTokenUsage (.obj (normalizeUsage raw)) = true ↔ Countable raw := by
  rw [← isTokenUsage_namedCounts]
  unfold normalizeUsage
  dsimp only
  split
  · rfl
  · split
    · constructor
      · intro h
        rw [isTokenUsage_obj] at h ⊢
        exact fun kv hkv => h kv (List.mem_append_left _ hkv)
      · intro h
        have hinput := intValue_count h "input_tokens"
        have houtput := intValue_count h "output_tokens"
        rw [isTokenUsage_obj] at h ⊢
        intro kv hkv
        rcases List.mem_append.mp hkv with hkv | hkv
        · exact h kv hkv
        · obtain rfl := List.mem_singleton.mp hkv
          exact ⟨_, congrArg Json.int (Int.toNat_of_nonneg (Int.add_nonneg hinput houtput)).symm⟩
    · rfl

/-! ### Processes -/

structure CompletedProcess where
  returncode : Int
  stdout : String
  stderr : String

/-- What the adapters find on the machine. -/
structure CliHost where
  /-- `shutil.which` -/
  which : String → Option String
  /-- `str(_validate_schema(schema))` -/
  schemaPath : Except PyExc String
  /-- the text of the schema file, for the command line of Claude -/
  transportSchema : String
  /-- `subprocess.run`, or what `_run` raises instead -/
  run : List Json → Option String → Except PyExc CompletedProcess

/-- `_truncate` -/
def truncate (value : String) : String :=
  let text := (strip value).toList
  if text.length ≤ 3000 then String.ofList text else String.ofList (text.drop (text.length - 3000))

/-- `str(ProviderError(…))` -/
def providerError (message stdoutSummary stderrSummary : String) : PyExc :=
  let detail := if stderrSummary ≠ "" then stderrSummary else stdoutSummary
  if detail ≠ "" ∧ ¬ detail.toList <:+: message.toList then .providerError (message ++ ": " ++ detail)
  else .providerError message

/-- `_run`: the arguments of a process are texts. -/
def runCli (host : CliHost) (command : List Json) (stdin : Option String) :
    Except PyExc CompletedProcess :=
  if command.all isStr then host.run command stdin
  else .error (.typeError "expected str, bytes or os.PathLike object")

/-- The loop over the lines of a text that are JSON. -/
def eachEvent (py : Stdlib) (raw : String) {σ : Type} (f : σ → Json → Except PyExc σ) (s : σ) :
    Except PyExc σ :=
  (splitLines [] raw.toList).foldlM
    (fun s line =>
      match py.jsonLoads (String.ofList line) with
      | .ok event => f s event
      | .error .decode => .ok s
      | .error e => .error e.exc) s

/-- `a or b` -/
def orElse (a b : Json) : Json := if a.truthy then a else b

/-- The texts of one failure event. -/
def failureTexts (py : Stdlib) (event : Json) : Except PyExc (List String) := do
  let eventType := orElse (← event.get "type") (.str "")
  if py.str eventType ∉ ["error", "turn.failed", "response.failed", "item.failed"] then return []
  else
    let candidates := [← event.get "message", ← event.get "error", ← event.get "detail",
      ← event.get "reason"]
    let candidates := candidates ++ match ← event.get "response" with
      | .obj response => [fieldOf response "error", fieldOf response "message",
          fieldOf response "status_details"]
      | _ => []
    return candidates.filterMap fun candidate =>
      let text := match candidate with
        | .obj kvs => orElse (fieldOf kvs "message") (orElse (fieldOf kvs "detail")
            (orElse (fieldOf kvs "code") (.str (dumps py .plain 0 candidate))))
        | v => v
      if text.truthy then some (strip (py.str text)) else none

/-- `_extract_jsonl_error` -/
def extractJsonlError (py : Stdlib) (raw : String) : Except PyExc String := do
  let messages ← eachEvent py raw
    (fun messages event => do return messages ++ (← failureTexts py event)) []
  return truncate (" | ".intercalate messages.eraseDups)

/-- `_provider_failure` -/
def providerFailure (py : Stdlib) (name : String) (cp : CompletedProcess) : Except PyExc PyExc := do
  let jsonlError ← extractJsonlError py cp.stdout
  return providerError (name ++ " falló")
    (if jsonlError ≠ "" then jsonlError else truncate cp.stdout) (truncate cp.stderr)

/-- `_normalize_usage`, of a value that should be a dict. -/
def usageOf : Json → Except PyExc Json
  | .obj raw => .ok (.obj (normalizeUsage raw))
  | _ => .error (.attributeError "get")

/-! ### The adapters -/

/-- `["--model", model]`, unless it is the default. -/
def modelArguments (model : Json) : List Json :=
  if model = .str "provider_default" then [] else [.str "--model", model]

/-- What `invoke_codex` keeps of the events: the messages, and the last usage. -/
def codexEvent (py : Stdlib) (seen : List String × Json) (event : Json) :
    Except PyExc (List String × Json) := do
  let item := orElse (← event.get "item") (.obj [])
  let isMessage := decide ((← item.get "type") = .str "agent_message")
  let text ← if isMessage then item.get "text" else .ok .null
  let messages := if text.truthy then seen.1 ++ [py.str text] else seen.1
  let eventType ← event.get "type"
  if ¬ eventType.hashable then .error (.typeError "unhashable type")
  else if eventType ∈ [.str "turn.completed", .str "response.completed"] then
    let usage ← event.get "usage"
    if usage.truthy then return (messages, usage)
    else
      let response := match event with
        | .obj kvs => (lookup "response" kvs).getD (.obj [])
        | v => v
      return (messages, orElse (← response.get "usage") seen.2)
  else return (messages, seen.2)

/-- `invoke_codex`, which is always given the result schema. -/
def invokeCodex (py : Stdlib) (host : CliHost) (prompt cwd : String) (model : Json) :
    Except PyExc ProviderResult :=
  match host.which "codex" with
  | none => .error (.providerError "Codex CLI no está instalado o no está en PATH.")
  | some exe => do
      let schema ← host.schemaPath
      let command := [.str exe, .str "exec", .str "--sandbox", .str "read-only", .str "--ephemeral",
        .str "--json", .str "-C", .str cwd] ++ modelArguments model ++
        [.str "--output-schema", .str schema, .str "-"]
      let cp ← runCli host command (some prompt)
      if cp.returncode ≠ 0 then .error (← providerFailure py "Codex" cp)
      else
        let failureEvent ← extractJsonlError py cp.stdout
        let (messages, usage) ← eachEvent py cp.stdout (codexEvent py) ([], .obj [])
        if failureEvent ≠ "" then
          .error (providerError "Codex reportó un evento de fallo" failureEvent (truncate cp.stderr))
        else
          let text := messages.getLast?.getD (strip cp.stdout)
          if text = "" then
            .error (providerError "Codex terminó sin producir un mensaje de agente"
              (truncate cp.stdout) (truncate cp.stderr))
          else return ⟨text, ← usageOf usage, .arr command⟩

/-- `\uXXXX` of a code unit -/
def unicodeEscape (n : Nat) : List Char :=
  ['\\', 'u', hexDigit (n / 4096 % 16), hexDigit (n / 256 % 16), hexDigit (n / 16 % 16),
    hexDigit (n % 16)]

/-- `json.dumps(v)`, which escapes what is not ASCII. -/
def dumpsAscii (py : Stdlib) (v : Json) : String :=
  String.ofList ((dumps py .plain 0 v).toList.flatMap fun c =>
    let n := c.toNat
    if n < 0x80 then [c]
    else if n < 0x10000 then unicodeEscape n
    else unicodeEscape (0xd800 + (n - 0x10000) / 0x400) ++
      unicodeEscape (0xdc00 + (n - 0x10000) % 0x400))

/-- `json.loads` of what Claude prints; `None` when it is not JSON. -/
def claudePayload (py : Stdlib) (stdout : String) : Except PyExc Json :=
  match py.jsonLoads stdout with
  | .ok v => .ok v
  | .error .decode => .ok .null
  | .error e => .error e.exc

/-- `invoke_claude`, which is always given the result schema. -/
def invokeClaude (py : Stdlib) (host : CliHost) (prompt : String) (model : Json) :
    Except PyExc ProviderResult :=
  match host.which "claude" with
  | none => .error (.providerError "Claude Code no está instalado o no está en PATH.")
  | some exe => do
      let _ ← host.schemaPath
      let command := [.str exe, .str "--print", .str "--output-format", .str "json",
        .str "--permission-mode", .str "dontAsk", .str "--tools", .str "Read,Grep,Glob",
        .str "--disallowedTools", .str "mcp__*", .str "--no-session-persistence"] ++
        modelArguments model ++ [.str "--json-schema", .str host.transportSchema]
      let cp ← runCli host (command ++ [.str prompt]) none
      if cp.returncode ≠ 0 then .error (← providerFailure py "Claude" cp)
      else
        match ← claudePayload py cp.stdout with
        | .obj kvs =>
            match fieldOf kvs "structured_output" with
            | .obj output =>
                let usage ← usageOf (orElse (fieldOf kvs "usage") (.obj []))
                return ⟨dumpsAscii py (.obj output), usage,
                  .arr (command ++ [.str "<prompt-redacted>"])⟩
            | _ => .error (providerError
                "Claude no devolvió structured_output para una invocación con schema"
                (truncate cp.stdout) (truncate cp.stderr))
        | _ => .error (providerError
            "Claude no devolvió structured_output para una invocación con schema"
            (truncate cp.stdout) (truncate cp.stderr))

/-- `invoke_ollama`, which is always given the result schema. -/
def invokeOllama (py : Stdlib) (host : CliHost) (prompt : String) (model : Json) :
    Except PyExc ProviderResult :=
  match host.which "ollama" with
  | none => .error (.providerError "Ollama no está instalado o no está en PATH.")
  | some exe => do
      let _ ← host.schemaPath
      let command := [.str exe, .str "run", .str "--nowordwrap", .str "--format", .str "json", model]
      let cp ← runCli host command (some prompt)
      if cp.returncode ≠ 0 then .error (← providerFailure py "Ollama" cp)
      else
        let text := strip cp.stdout
        if text = "" then
          .error (providerError "Ollama terminó sin producir contenido" (truncate cp.stdout)
            (truncate cp.stderr))
        else return ⟨text, .obj [], .arr command⟩

/-- `invoke` -/
def invoke (py : Stdlib) (host : CliHost) (provider : Json) (prompt cwd : String) (model : Json) :
    Except PyExc ProviderResult :=
  if provider = .str "codex" then invokeCodex py host prompt cwd model
  else if provider = .str "claude" then invokeClaude py host prompt model
  else if provider = .str "ollama" then
    if model = .str "provider_default" then
      .error (.providerError "Ollama requiere un modelo local explícito.")
    else invokeOllama py host prompt model
  else .error (.providerError ("Provider no soportado: " ++ py.str provider))

/-! ### What is delivered -/

/-- What is true of a result of `invoke`, where `raw` is the usage that the provider has
printed. -/
structure Delivered (provider model : Json) (raw : List (String × Json)) (result : ProviderResult) :
    Prop where
  provider : provider ∈ [.str "codex", .str "claude", .str "ollama"]
  model : model.isStr = true
  usage : result.usage = .obj (normalizeUsage raw)
  command : isCommand result.command = true

theorem isStr_of_modelArguments {model : Json} (h : (modelArguments model).all isStr = true) :
    model.isStr = true := by
  unfold modelArguments at h
  split at h
  · rename_i hdefault
    rw [hdefault]
    rfl
  · simpa using h

theorem runCli_eq_ok {host : CliHost} {command : List Json} {stdin : Option String}
    {cp : CompletedProcess} (h : runCli host command stdin = .ok cp) : command.all isStr = true := by
  unfold runCli at h
  split at h
  · assumption
  · cases h

theorem usageOf_eq_ok {v usage : Json} (h : usageOf v = .ok usage) :
    ∃ raw, usage = .obj (normalizeUsage raw) := by
  cases v with
  | obj raw => exact ⟨raw, (Except.ok.inj h).symm⟩
  | _ => cases h

variable {py : Stdlib} {host : CliHost} {prompt cwd : String} {model provider : Json}
variable {result : ProviderResult}

theorem delivered_invokeCodex (h : invokeCodex py host prompt cwd model = .ok result) :
    ∃ raw, Delivered (.str "codex") model raw result := by
  unfold invokeCodex at h
  split at h
  · cases h
  · obtain ⟨schema, -, h⟩ := bind_eq_ok.mp h
    obtain ⟨cp, hrun, h⟩ := bind_eq_ok.mp h
    have hcommand := runCli_eq_ok hrun
    split at h
    · obtain ⟨e, -, h⟩ := bind_eq_ok.mp h
      cases h
    · obtain ⟨failureEvent, -, h⟩ := bind_eq_ok.mp h
      obtain ⟨⟨messages, usage⟩, -, h⟩ := bind_eq_ok.mp h
      dsimp only at h
      split at h
      · cases h
      · split at h
        · cases h
        · obtain ⟨counts, hcounts, h⟩ := bind_eq_ok.mp h
          obtain ⟨raw, rfl⟩ := usageOf_eq_ok hcounts
          obtain rfl := Except.ok.inj h
          have hmodel : (modelArguments model).all isStr = true := by
            simp only [List.all_append, Bool.and_eq_true] at hcommand
            exact hcommand.1.2
          exact ⟨raw, by decide, isStr_of_modelArguments hmodel, rfl, hcommand⟩

theorem delivered_invokeClaude (h : invokeClaude py host prompt model = .ok result) :
    ∃ raw, Delivered (.str "claude") model raw result := by
  unfold invokeClaude at h
  split at h
  · cases h
  · obtain ⟨schema, -, h⟩ := bind_eq_ok.mp h
    obtain ⟨cp, hrun, h⟩ := bind_eq_ok.mp h
    have hcommand := runCli_eq_ok hrun
    split at h
    · obtain ⟨e, -, h⟩ := bind_eq_ok.mp h
      cases h
    · obtain ⟨payload, -, h⟩ := bind_eq_ok.mp h
      split at h
      · split at h
        · obtain ⟨counts, hcounts, h⟩ := bind_eq_ok.mp h
          obtain ⟨raw, rfl⟩ := usageOf_eq_ok hcounts
          obtain rfl := Except.ok.inj h
          -- the prompt that was run is replaced by a text
          rw [List.all_append, Bool.and_eq_true] at hcommand
          have hmodel : (modelArguments model).all isStr = true := by
            have h := hcommand.1
            simp only [List.all_append, Bool.and_eq_true] at h
            exact h.1.2
          refine ⟨raw, by decide, isStr_of_modelArguments hmodel, rfl, ?_⟩
          show List.all _ isStr = true
          rw [List.all_append, hcommand.1]
          rfl
        · cases h
      · cases h

theorem delivered_invokeOllama (h : invokeOllama py host prompt model = .ok result) :
    ∃ raw, Delivered (.str "ollama") model raw result := by
  unfold invokeOllama at h
  split at h
  · cases h
  · obtain ⟨schema, -, h⟩ := bind_eq_ok.mp h
    obtain ⟨cp, hrun, h⟩ := bind_eq_ok.mp h
    have hcommand := runCli_eq_ok hrun
    split at h
    · obtain ⟨e, -, h⟩ := bind_eq_ok.mp h
      cases h
    · dsimp only at h
      split at h
      · cases h
      · obtain rfl := Except.ok.inj h
        have hmodel : model.isStr = true := by simpa using hcommand
        have husage : Json.obj [] = .obj (normalizeUsage []) := by decide
        exact ⟨[], by decide, hmodel, husage, hcommand⟩

/-- **Results are well formed**, whatever the programs print. -/
theorem delivered_invoke (h : invoke py host provider prompt cwd model = .ok result) :
    ∃ raw, Delivered provider model raw result := by
  unfold invoke at h
  split at h
  · rename_i hprovider
    exact hprovider ▸ delivered_invokeCodex h
  · split at h
    · rename_i hprovider
      exact hprovider ▸ delivered_invokeClaude h
    · split at h
      · rename_i hprovider
        split at h
        · cases h
        · exact hprovider ▸ delivered_invokeOllama h
      · cases h

end Konoha
