/-
Runtime/StateFile.lean

`execution_state.json`: the writer `asdict(state)` and the strict reader
`_load_execution_state`, from the parsed file on.

The two are separate code, and the reader refuses states the writer can write:
`Readable` says exactly which states come back, and `parseExecutionState_asdict`
that a state which comes back is the one that was written.
-/
import KonohaRuntime.Runtime.Models

namespace Konoha

open Json

/-! ### The writer -/

/-- The fields of `asdict(state)`, as `json.dumps` writes them: dict keys become
strings. -/
def ExecutionState.fields (py : Stdlib) (s : ExecutionState) : List (String × Json) :=
  [("schema_version", .str "1.0"),
   ("mission_id", .str s.missionId),
   ("plan_identity", .str s.planIdentity.1),
   ("status", .str s.status.text),
   ("next_assignment_index", .int s.nextAssignmentIndex),
   ("completed_task_ids", .arr s.completedTaskIds),
   ("pending_task_id", s.pendingTaskId),
   ("pending_execution_gate", s.pendingExecutionGate),
   ("approval_nonce", ofOption s.approvalNonce),
   ("active_approval_id", ofOption (s.activeApprovalId.map (·.1))),
   ("consumed_approval_ids", .arr (s.consumedApprovalIds.map fun d => .str d.1)),
   ("evidence_ids_by_task",
     .obj (s.evidenceIdsByTask.map fun kv => (keyText py kv.1, .str kv.2.1))),
   ("executing_task_id", s.executingTaskId),
   ("pause_reason", ofOption s.pauseReason),
   ("diagnostic", ofOption s.diagnostic),
   ("updated_at", .str s.updatedAt)]

/-- `asdict(state)` -/
def ExecutionState.asdict (py : Stdlib) (s : ExecutionState) : Json := .obj (s.fields py)

/-! ### The reader -/

/-- The types of `_EXECUTION_STATE_FIELD_TYPES`. -/
inductive FieldType
  | string
  | integer
  | list
  | dict
  | optionalString

/-- `isinstance` against such a type; `bool` is never accepted. -/
def FieldType.admits : FieldType → Json → Bool
  | string, .str _ => true
  | integer, .int _ => true
  | list, .arr _ => true
  | dict, .obj _ => true
  | optionalString, .str _ => true
  | optionalString, .null => true
  | _, _ => false

/-- `_EXECUTION_STATE_FIELD_TYPES` -/
def executionStateFieldTypes : List (String × FieldType) :=
  [("schema_version", .string), ("mission_id", .string), ("plan_identity", .string),
   ("status", .string), ("next_assignment_index", .integer), ("completed_task_ids", .list),
   ("pending_task_id", .optionalString), ("pending_execution_gate", .optionalString),
   ("approval_nonce", .optionalString), ("active_approval_id", .optionalString),
   ("consumed_approval_ids", .list), ("evidence_ids_by_task", .dict),
   ("executing_task_id", .optionalString), ("pause_reason", .optionalString),
   ("diagnostic", .optionalString), ("updated_at", .string)]

/-- The fields that may be `None` but not blank. -/
def optionalTextFields : List String :=
  ["pending_task_id", "pending_execution_gate", "approval_nonce", "active_approval_id",
   "executing_task_id", "pause_reason", "diagnostic"]

/-- Raise `ExecutionStateError` unless `ok`. -/
def demand (ok : Bool) (text : String) : Except PyExc Unit :=
  if ok then .ok () else .error (.executionStateError text)

/-- The value, or `ExecutionStateError`. -/
def demandSome {α : Type} (v : Option α) (text : String) : Except PyExc α :=
  match v with
  | some a => .ok a
  | none => .error (.executionStateError text)

/-- A string of a given format. -/
def asHex (n : Nat) : Json → Option (HexString n)
  | .str s => if h : isHex n s.toList = true then some ⟨s, h⟩ else none
  | _ => none

def asEvidenceId : Json → Option EvidenceId
  | .str s => if h : isEvidenceId s = true then some ⟨s, h⟩ else none
  | _ => none

/-- `None`, or a string of a given format. -/
def asOptionalHex (n : Nat) : Json → Option (Option (HexString n))
  | .null => some none
  | v => (asHex n v).map some

def asText : Json → String
  | .str s => s
  | _ => ""

def asOptionalText : Json → Option String
  | .str s => some s
  | _ => none

def asInt : Json → Int
  | .int i => i
  | _ => 0

def asList : Json → List Json
  | .arr xs => xs
  | _ => []

def asFields : Json → List (String × Json)
  | .obj kvs => kvs
  | _ => []

/-- An entry of `evidence_ids_by_task`. -/
def asEvidenceEntry (kv : String × Json) : Option (Json × EvidenceId) :=
  if nonBlank kv.1 then (asEvidenceId kv.2).map fun e => (.str kv.1, e) else none

/-- The names of `xs` that are not in `ys`, sorted, as Python prints them. -/
def nameDifference (py : Stdlib) (xs ys : List String) : String :=
  py.repr (.arr (((xs.filter fun x => !ys.contains x).mergeSort fun a b => decide (a ≤ b)).map .str))

/-- `_load_execution_state` once the set of keys is right: `field` is `raw[·]`. -/
def decodeExecutionState (py : Stdlib) (missionId : String) (field : String → Json) :
    Except PyExc ExecutionState := do
  let illTyped := executionStateFieldTypes.find? fun kt => !kt.2.admits (field kt.1)
  demand illTyped.isNone
    ("execution_state.json campo con tipo incorrecto: " ++ (illTyped.map (·.1)).getD "")
  let status ← demandSome (ExecutionStatus.parse (asText (field "status")))
    ("execution_state.json con status desconocido: " ++ py.repr (field "status"))
  demand (0 ≤ asInt (field "next_assignment_index"))
    "execution_state.json next_assignment_index negativo"
  let planIdentity ← demandSome (asHex 64 (field "plan_identity"))
    "execution_state.json plan_identity con formato inválido"
  demand ((asList (field "completed_task_ids")).all nonEmptyStr)
    "execution_state.json completed_task_ids con elementos inválidos"
  let consumed ← demandSome ((asList (field "consumed_approval_ids")).mapM (asHex 64))
    "execution_state.json consumed_approval_ids con formato inválido"
  demand consumed.Nodup "execution_state.json consumed_approval_ids con duplicados"
  let evidence ← demandSome ((asFields (field "evidence_ids_by_task")).mapM asEvidenceEntry)
    "execution_state.json evidence_ids_by_task inválido"
  let blank := optionalTextFields.find? fun key =>
    field key != null && !nonEmptyStr (field key)
  demand blank.isNone ("execution_state.json campo vacío o inválido: " ++ blank.getD "")
  demand (nonEmptyStr (field "updated_at")) "execution_state.json updated_at vacío o inválido"
  let active ← demandSome (asOptionalHex 64 (field "active_approval_id"))
    "execution_state.json active_approval_id con formato inválido"
  demand (field "mission_id" = .str missionId)
    ("execution_state.json mission_id=" ++ py.repr (field "mission_id") ++ " no coincide con "
      ++ py.repr (.str missionId))
  .ok {
    missionId := missionId
    planIdentity := planIdentity
    status := status
    nextAssignmentIndex := (asInt (field "next_assignment_index")).toNat
    completedTaskIds := asList (field "completed_task_ids")
    pendingTaskId := field "pending_task_id"
    pendingExecutionGate := field "pending_execution_gate"
    approvalNonce := asOptionalText (field "approval_nonce")
    activeApprovalId := active
    consumedApprovalIds := consumed
    evidenceIdsByTask := evidence
    executingTaskId := field "executing_task_id"
    pauseReason := asOptionalText (field "pause_reason")
    diagnostic := asOptionalText (field "diagnostic")
    updatedAt := asText (field "updated_at") }

/-- The value of a key, once it is known to be there. -/
def fieldOf (kvs : List (String × Json)) (key : String) : Json := (lookup key kvs).getD null

/-- `_load_execution_state`, from the parsed file on. -/
def parseExecutionState (py : Stdlib) (missionId : String) (raw : Json) :
    Except PyExc ExecutionState := do
  let kvs ← demandSome (match raw with | .obj kvs => some kvs | _ => none)
    "execution_state.json no es un objeto JSON"
  demand (fieldOf kvs "schema_version" = .str "1.0")
    ("execution_state.json schema_version desconocida: "
      ++ py.repr (fieldOf kvs "schema_version"))
  let required := executionStateFieldTypes.map (·.1)
  demand (hasKeys required kvs)
    ("execution_state.json con campos incompatibles: faltantes="
      ++ nameDifference py required (kvs.map (·.1)) ++ " desconocidos="
      ++ nameDifference py (kvs.map (·.1)) required)
  decodeExecutionState py missionId (fieldOf kvs)

@[simp] theorem demand_bind_eq_ok {α : Type} {ok : Bool} {text : String}
    {f : Unit → Except PyExc α} {a : α} :
    (demand ok text >>= f) = .ok a ↔ ok = true ∧ f () = .ok a := by
  cases ok <;> simp [demand, bind, Except.bind]

@[simp] theorem demandSome_bind_eq_ok {α β : Type} {v : Option β} {text : String}
    {f : β → Except PyExc α} {a : α} :
    (demandSome v text >>= f) = .ok a ↔ ∃ b, v = some b ∧ f b = .ok a := by
  cases v <;> simp [demandSome, bind, Except.bind]

@[simp] theorem asHex_str {n : Nat} (d : HexString n) : asHex n (.str d.1) = some d := by
  simp [asHex, d.2]

@[simp] theorem asEvidenceId_str (e : EvidenceId) : asEvidenceId (.str e.1) = some e := by
  simp [asEvidenceId, e.2]

@[simp] theorem asOptionalHex_ofOption {n : Nat} (d : Option (HexString n)) :
    asOptionalHex n (ofOption (d.map (·.1))) = some d := by
  cases d with
  | none => rfl
  | some d => simp [ofOption, asOptionalHex]

@[simp] theorem asOptionalText_ofOption (t : Option String) : asOptionalText (ofOption t) = t := by
  cases t <;> rfl

theorem mapM_asHex {n : Nat} (ds : List (HexString n)) :
    (ds.map fun d => Json.str d.1).mapM (asHex n) = some ds := by
  induction ds with
  | nil => rfl
  | cons d ds ih =>
      rw [List.map_cons, List.mapM_cons, asHex_str, ih]
      rfl

/-- An entry with a string key comes back when the key is not blank. -/
theorem asEvidenceEntry_keyText {py : Stdlib} {k : Json} (hk : k.isStr = true) (e : EvidenceId) :
    asEvidenceEntry (keyText py k, .str e.1) =
      if nonEmptyStr k = true then some (k, e) else none := by
  cases k with
  | str s => cases hb : nonBlank s <;> simp [keyText, asEvidenceEntry, nonEmptyStr, hb]
  | _ => simp [isStr] at hk

/-- The evidence map comes back when its keys are strings that are not blank. -/
theorem mapM_asEvidenceEntry {py : Stdlib} {kvs : List (Json × EvidenceId)}
    (hk : ∀ kv ∈ kvs, kv.1.isStr = true) (out : List (Json × EvidenceId)) :
    (kvs.map fun kv => (keyText py kv.1, Json.str kv.2.1)).mapM asEvidenceEntry = some out ↔
      (∀ kv ∈ kvs, nonEmptyStr kv.1 = true) ∧ out = kvs := by
  induction kvs generalizing out with
  | nil =>
      simp only [List.map_nil, List.mapM_nil, Option.pure_def, Option.some.injEq]
      exact ⟨fun h => ⟨by simp, h.symm⟩, fun h => h.2.symm⟩
  | cons kv kvs ih =>
      have ih := ih fun kv hkv => hk kv (List.mem_cons_of_mem _ hkv)
      rw [List.map_cons, List.mapM_cons, asEvidenceEntry_keyText (hk kv List.mem_cons_self)]
      by_cases hb : nonEmptyStr kv.1 = true
      · simp only [hb, if_true, Option.pure_def, Option.bind_eq_bind, Option.bind_some,
          Option.bind_eq_some_iff, ih, Option.some.injEq, List.forall_mem_cons, true_and]
        constructor
        · rintro ⟨_, ⟨hall, rfl⟩, rfl⟩
          exact ⟨hall, rfl⟩
        · rintro ⟨hall, rfl⟩
          exact ⟨kvs, ⟨hall, rfl⟩, rfl⟩
      · simp [hb]

/-! ### What comes back -/

/-- `None`, or a string that is not blank. -/
def optionalText (v : Json) : Prop := v = null ∨ nonEmptyStr v = true

/-- The states that the reader takes back under the mission id `m`. -/
structure Readable (m : String) (s : ExecutionState) : Prop where
  missionId : s.missionId = m
  completed : ∀ x ∈ s.completedTaskIds, nonEmptyStr x = true
  consumed : s.consumedApprovalIds.Nodup
  evidence : ∀ kv ∈ s.evidenceIdsByTask, nonEmptyStr kv.1 = true
  pendingTaskId : optionalText s.pendingTaskId
  pendingExecutionGate : optionalText s.pendingExecutionGate
  approvalNonce : ∀ n, s.approvalNonce = some n → nonBlank n = true
  executingTaskId : optionalText s.executingTaskId
  pauseReason : ∀ r, s.pauseReason = some r → nonBlank r = true
  diagnostic : ∀ d, s.diagnostic = some d → nonBlank d = true
  updatedAt : nonBlank s.updatedAt = true

/-- An optional text field of the state passes the test for blanks. -/
theorem nonBlank_ofOption {t : Option String} :
    (ofOption t = null ∨ nonEmptyStr (ofOption t) = true) ↔
      ∀ x, t = some x → nonBlank x = true := by
  cases t <;> simp [ofOption, nonEmptyStr]

theorem admits_optionalString {v : Json} (h : optionalText v) :
    FieldType.optionalString.admits v = true := by
  rcases h with rfl | h
  · rfl
  · cases v <;> simp_all [nonEmptyStr, FieldType.admits]

@[simp] theorem admits_str (s : String) : FieldType.string.admits (.str s) = true := rfl

@[simp] theorem admits_int (i : Int) : FieldType.integer.admits (.int i) = true := rfl

@[simp] theorem admits_arr (xs : List Json) : FieldType.list.admits (.arr xs) = true := rfl

@[simp] theorem admits_obj (kvs : List (String × Json)) :
    FieldType.dict.admits (.obj kvs) = true := rfl

@[simp] theorem admits_ofOption (t : Option String) :
    FieldType.optionalString.admits (ofOption t) = true := by
  cases t <;> rfl

/-! ### The fields of a written state -/

section Fields

variable (py : Stdlib) (s : ExecutionState)

@[simp] theorem fieldOf_schemaVersion : fieldOf (s.fields py) "schema_version" = .str "1.0" := rfl

@[simp] theorem fieldOf_missionId : fieldOf (s.fields py) "mission_id" = .str s.missionId := rfl

@[simp] theorem fieldOf_planIdentity :
    fieldOf (s.fields py) "plan_identity" = .str s.planIdentity.1 := rfl

@[simp] theorem fieldOf_status : fieldOf (s.fields py) "status" = .str s.status.text := rfl

@[simp] theorem fieldOf_nextAssignmentIndex :
    fieldOf (s.fields py) "next_assignment_index" = .int s.nextAssignmentIndex := rfl

@[simp] theorem fieldOf_completedTaskIds :
    fieldOf (s.fields py) "completed_task_ids" = .arr s.completedTaskIds := rfl

@[simp] theorem fieldOf_pendingTaskId :
    fieldOf (s.fields py) "pending_task_id" = s.pendingTaskId := rfl

@[simp] theorem fieldOf_pendingExecutionGate :
    fieldOf (s.fields py) "pending_execution_gate" = s.pendingExecutionGate := rfl

@[simp] theorem fieldOf_approvalNonce :
    fieldOf (s.fields py) "approval_nonce" = ofOption s.approvalNonce := rfl

@[simp] theorem fieldOf_activeApprovalId :
    fieldOf (s.fields py) "active_approval_id" = ofOption (s.activeApprovalId.map (·.1)) := rfl

@[simp] theorem fieldOf_consumedApprovalIds :
    fieldOf (s.fields py) "consumed_approval_ids"
      = .arr (s.consumedApprovalIds.map fun d => .str d.1) := rfl

@[simp] theorem fieldOf_evidenceIdsByTask :
    fieldOf (s.fields py) "evidence_ids_by_task"
      = .obj (s.evidenceIdsByTask.map fun kv => (keyText py kv.1, .str kv.2.1)) := rfl

@[simp] theorem fieldOf_executingTaskId :
    fieldOf (s.fields py) "executing_task_id" = s.executingTaskId := rfl

@[simp] theorem fieldOf_pauseReason :
    fieldOf (s.fields py) "pause_reason" = ofOption s.pauseReason := rfl

@[simp] theorem fieldOf_diagnostic :
    fieldOf (s.fields py) "diagnostic" = ofOption s.diagnostic := rfl

@[simp] theorem fieldOf_updatedAt : fieldOf (s.fields py) "updated_at" = .str s.updatedAt := rfl

theorem hasKeys_fields : hasKeys (executionStateFieldTypes.map (·.1)) (s.fields py) = true := rfl

end Fields

/-- No field of a written state has the wrong type when its optional texts are
strings. -/
theorem illTyped_isNone {py : Stdlib} {s : ExecutionState} (hp : optionalText s.pendingTaskId)
    (hg : optionalText s.pendingExecutionGate) (he : optionalText s.executingTaskId) :
    (executionStateFieldTypes.find? fun kt =>
      !kt.2.admits (fieldOf (s.fields py) kt.1)).isNone = true := by
  rw [Option.isNone_iff_eq_none, List.find?_eq_none]
  simp [executionStateFieldTypes, admits_optionalString hp, admits_optionalString hg,
    admits_optionalString he]

/-- The test for blanks, field by field. -/
theorem blank_isNone_iff (field : String → Json) :
    (optionalTextFields.find? fun key => field key != null && !nonEmptyStr (field key)).isNone = true
      ↔ ∀ key ∈ optionalTextFields, optionalText (field key) := by
  have htest : ∀ v : Json, ¬(v != null && !nonEmptyStr v) = true ↔ optionalText v := by
    intro v
    by_cases hv : v = null <;> simp [optionalText, hv]
  rw [Option.isNone_iff_eq_none, List.find?_eq_none]
  simp only [htest]

/-- The test for blanks on a written state. -/
theorem blank_isNone {py : Stdlib} {s : ExecutionState} :
    (optionalTextFields.find? fun key =>
      fieldOf (s.fields py) key != null && !nonEmptyStr (fieldOf (s.fields py) key)).isNone = true ↔
      optionalText s.pendingTaskId ∧ optionalText s.pendingExecutionGate ∧
      (∀ n, s.approvalNonce = some n → nonBlank n = true) ∧ optionalText s.executingTaskId ∧
      (∀ r, s.pauseReason = some r → nonBlank r = true) ∧
      (∀ d, s.diagnostic = some d → nonBlank d = true) := by
  have hactive : optionalText (ofOption (s.activeApprovalId.map (·.1))) := by
    rw [optionalText, nonBlank_ofOption]
    rintro x hx
    obtain ⟨d, -, rfl⟩ := Option.map_eq_some_iff.mp hx
    exact HexString.nonBlank d
  rw [blank_isNone_iff (fieldOf (s.fields py))]
  simp only [optionalTextFields, List.forall_mem_cons, fieldOf_pendingTaskId,
    fieldOf_pendingExecutionGate, fieldOf_approvalNonce, fieldOf_activeApprovalId,
    fieldOf_executingTaskId, fieldOf_pauseReason, fieldOf_diagnostic, hactive, true_and]
  simp only [optionalText, nonBlank_ofOption]
  simp

/-- **The reader on what the writer wrote**: a state whose evidence map has
string keys comes back exactly when it is `Readable`, and then as itself. -/
theorem parseExecutionState_asdict {py : Stdlib} {m : String} {s s' : ExecutionState}
    (hk : ∀ kv ∈ s.evidenceIdsByTask, kv.1.isStr = true) :
    parseExecutionState py m (s.asdict py) = .ok s' ↔ Readable m s ∧ s' = s := by
  simp only [parseExecutionState, ExecutionState.asdict, demandSome_bind_eq_ok,
    demand_bind_eq_ok, Option.some.injEq, exists_eq_left', hasKeys_fields, true_and,
    decodeExecutionState, fieldOf_schemaVersion, fieldOf_missionId, fieldOf_planIdentity,
    fieldOf_status, fieldOf_nextAssignmentIndex, fieldOf_completedTaskIds, fieldOf_pendingTaskId,
    fieldOf_pendingExecutionGate, fieldOf_approvalNonce, fieldOf_activeApprovalId,
    fieldOf_consumedApprovalIds, fieldOf_evidenceIdsByTask, fieldOf_executingTaskId,
    fieldOf_pauseReason, fieldOf_diagnostic, fieldOf_updatedAt, asText, asInt, asList, asFields,
    ExecutionStatus.parse_text, asHex_str, mapM_asHex, mapM_asEvidenceEntry hk,
    asOptionalHex_ofOption, asOptionalText_ofOption, List.all_eq_true,
    Except.ok.injEq, blank_isNone, decide_eq_true_eq, Json.str.injEq, nonEmptyStr_str]
  constructor
  · rintro ⟨-, -, hc, hn, _, ⟨hev, rfl⟩, ⟨hp, hg, ha, he, hr, hd⟩, hu, hm, rfl⟩
    refine ⟨⟨hm, hc, hn, hev, hp, hg, ha, he, hr, hd, hu⟩, ?_⟩
    subst hm
    rfl
  · rintro ⟨h, rfl⟩
    refine ⟨illTyped_isNone h.pendingTaskId h.pendingExecutionGate h.executingTaskId,
      decide_eq_true (Int.natCast_nonneg _), h.completed, h.consumed, _, ⟨h.evidence, rfl⟩,
      ⟨h.pendingTaskId, h.pendingExecutionGate, h.approvalNonce, h.executingTaskId,
        h.pauseReason, h.diagnostic⟩, h.updatedAt, h.missionId, ?_⟩
    obtain rfl := h.missionId
    rfl

/-- Whatever the evidence map holds, a state that comes back has completed only
tasks whose ids are strings that are not blank. -/
theorem nonEmptyStr_of_parse_asdict {py : Stdlib} {m : String} {s s' : ExecutionState}
    (h : parseExecutionState py m (s.asdict py) = .ok s') :
    ∀ x ∈ s.completedTaskIds, nonEmptyStr x = true := by
  simp only [parseExecutionState, ExecutionState.asdict, demandSome_bind_eq_ok,
    demand_bind_eq_ok, Option.some.injEq, exists_eq_left', decodeExecutionState,
    fieldOf_completedTaskIds, asList, List.all_eq_true] at h
  obtain ⟨-, -, -, _, -, -, _, -, hc, -⟩ := h
  exact hc

/-- An entry of the evidence map that was accepted has a key that is not blank. -/
theorem nonEmptyStr_of_mapM_asEvidenceEntry {fs : List (String × Json)}
    {kvs : List (Json × EvidenceId)} (h : fs.mapM asEvidenceEntry = some kvs) :
    ∀ kv ∈ kvs, nonEmptyStr kv.1 = true := by
  induction fs generalizing kvs with
  | nil =>
      cases h
      simp
  | cons f fs ih =>
      simp only [List.mapM_cons, Option.pure_def, Option.bind_eq_bind,
        Option.bind_eq_some_iff, Option.some.injEq] at h
      obtain ⟨e, he, es, hes, rfl⟩ := h
      have hkey : nonEmptyStr e.1 = true := by
        simp only [asEvidenceEntry] at he
        split at he
        · rename_i hb
          obtain ⟨id, -, rfl⟩ := Option.map_eq_some_iff.mp he
          exact hb
        · cases he
      exact List.forall_mem_cons.mpr ⟨hkey, ih hes⟩

theorem nonBlank_of_asOptionalText {v : Json} (hv : optionalText v) :
    ∀ x, asOptionalText v = some x → nonBlank x = true := by
  intro x hx
  cases v with
  | str s =>
      obtain rfl := Option.some.inj hx
      exact hv.resolve_left (by simp)
  | _ => cases hx

theorem nonBlank_asText {v : Json} (hv : nonEmptyStr v = true) : nonBlank (asText v) = true := by
  cases v with
  | str s => exact hv
  | _ => cases hv

/-- **Whatever is read can be written and read again.** -/
theorem readable_of_parse {py : Stdlib} {m : String} {raw : Json} {s : ExecutionState}
    (h : parseExecutionState py m raw = .ok s) : Readable m s := by
  simp only [parseExecutionState, demandSome_bind_eq_ok, demand_bind_eq_ok,
    decodeExecutionState, Except.ok.injEq, List.all_eq_true,
    decide_eq_true_eq] at h
  obtain ⟨kvs, -, -, -, -, _, -, -, _, -, hc, _, -, hn, ev, hev, hblank, hu, _, -, -, rfl⟩ := h
  rw [blank_isNone_iff] at hblank
  simp only [optionalTextFields, List.forall_mem_cons] at hblank
  obtain ⟨hp, hg, ha, -, he, hr, hd, -⟩ := hblank
  exact ⟨rfl, hc, hn, nonEmptyStr_of_mapM_asEvidenceEntry hev, hp, hg,
    nonBlank_of_asOptionalText ha, he, nonBlank_of_asOptionalText hr,
    nonBlank_of_asOptionalText hd, nonBlank_asText hu⟩

/-- The keys of the evidence map of a readable state are strings. -/
theorem Readable.isStr {m : String} {s : ExecutionState} (h : Readable m s) :
    ∀ kv ∈ s.evidenceIdsByTask, kv.1.isStr = true :=
  fun kv hkv => isStr_of_nonEmptyStr (h.evidence kv hkv)

end Konoha
