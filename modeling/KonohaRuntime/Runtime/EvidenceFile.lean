/-
Runtime/EvidenceFile.lean

`_verify_completed_evidence` on the bytes of the evidence files.  Whatever the decoder and
the checks can meet is taken as it is: bytes that are no UTF-8, texts that `json.loads` gives
up on for another reason than their syntax, strings that cannot be encoded.

`Raises` says which files the function does not survive.  For values without surrogates the
checks are those of `parseEvidence` (`verifyPayload_ofJson`).
-/
import KonohaRuntime.Base.Legible
import KonohaRuntime.Runtime.Result
import KonohaRuntime.Runtime.Sources

namespace Konoha

open Json PyJson CodePoint

/-! ### The files -/

/-- What is found where an evidence file should be. -/
inductive EvidenceFile
  /-- the path resolves to another directory -/
  | elsewhere
  | missing
  /-- reading it fails with an `OSError` -/
  | unreadable
  | content (bytes : ByteArray)

/-- The directory `evidence` of a mission. -/
structure EvidenceDir where
  /-- `evidence_dir.parent == mission_dir`, resolved -/
  confined : Bool
  file : EvidenceId → EvidenceFile

/-- The line ends of a file that is opened as text. -/
def universalNewlines : List Char → List Char
  | '\r' :: '\n' :: cs => '\n' :: universalNewlines cs
  | '\r' :: cs => '\n' :: universalNewlines cs
  | c :: cs => c :: universalNewlines cs
  | [] => []

/-- `path.read_text(encoding="utf-8")`, unless it is a `UnicodeDecodeError`. -/
def readText (bytes : ByteArray) : Option PyStr :=
  (String.fromUTF8? bytes).map fun s => (universalNewlines s.toList).map scalar

theorem fromUTF8_toUTF8 (s : String) : String.fromUTF8? s.toUTF8 = some s := by
  have hvalid : s.toUTF8.IsValidUTF8 := s.isValidUTF8
  unfold String.fromUTF8?
  rw [dif_pos hvalid]
  rfl

theorem readText_ofList (cs : List Char) :
    readText (String.ofList cs).toUTF8 = some ((universalNewlines cs).map scalar) := by
  rw [readText, fromUTF8_toUTF8, Option.map_some, String.toList_ofList]

/-- A text in which no character ends a line but the line feed is read as it is written. -/
theorem universalNewlines_of_notMem {cs : List Char} (h : '\r' ∉ cs) :
    universalNewlines cs = cs := by
  induction cs with
  | nil => rfl
  | cons c cs ih =>
      rw [List.mem_cons, not_or] at h
      obtain ⟨hc, hcs⟩ := h
      unfold universalNewlines
      split
      · next heq => exact absurd (List.cons.inj heq).1.symm hc
      · next heq => exact absurd (List.cons.inj heq).1.symm hc
      · next heq =>
          obtain ⟨rfl, rfl⟩ := List.cons.inj heq
          rw [ih hcs]
      · next heq => cases heq

/-- Text that has been written is read back. -/
theorem readText_written {cs : List Char} (h : '\r' ∉ cs) :
    readText (String.ofList cs).toUTF8 = some (cs.map scalar) := by
  rw [readText_ofList, universalNewlines_of_notMem h]

/-! ### One payload -/

/-- `_non_empty_str(v) and v == text` -/
def isText (text : Json) (v : PyJson) : Bool :=
  v.nonBlankStr && match v, text with
    | .str s, .str t => s = PyStr.ofString t
    | _, _ => false

/-- `dict[str, int]` of counts. -/
def isUsage : PyJson → Bool
  | .obj kvs => kvs.all fun kv => match kv.2 with
      | .int i => decide (0 ≤ i)
      | _ => false
  | _ => false

/-- `list[str]` -/
def isArguments : PyJson → Bool
  | .arr xs => xs.all PyJson.isStr
  | _ => false

/-- An int or a float, no bool, as a number. -/
def number : PyJson → Json
  | .int i => .int i
  | .float f => .float f
  | _ => .null

/-- The checks of a payload that come before its hash is computed. -/
def checkedFields (m : String) (taskId : Json) (id : EvidenceId) (kvs : List (PyStr × PyJson)) :
    Bool :=
  PyJson.hasKeys evidenceRequiredKeys kvs &&
  isText (.str id.1) (field kvs "evidence_id") &&
  isText (.str m) (field kvs "mission_id") &&
  isText taskId (field kvs "task_id") &&
  (field kvs "provider").nonBlankStr &&
  (field kvs "model").isStr &&
  isText (.str "completed") (field kvs "status") &&
  (field kvs "output").isStr &&
  (field kvs "output_hash").nonBlankStr &&
  isUsage (field kvs "token_usage") &&
  isArguments (field kvs "command") &&
  isFiniteNumber (number (field kvs "started_at")) &&
  isFiniteNumber (number (field kvs "finished_at")) &&
  !decide (numValue (number (field kvs "finished_at")) < numValue (number (field kvs "started_at")))

/-- The string of a value that is one. -/
def pyStr : PyJson → PyStr
  | .str s => s
  | _ => []

/-- `EvidenceRecord(**payload)` -/
def verifiedRecord (py : Stdlib) (m : String) (taskId : Json) (id : EvidenceId)
    (kvs : List (PyStr × PyJson)) (output : String) : EvidenceRecord where
  evidenceId := id
  missionId := m
  taskId := taskId
  provider := (field kvs "provider").toJson
  model := (field kvs "model").toJson
  status := .completed
  output := output
  tokenUsage := (field kvs "token_usage").toJson
  command := (field kvs "command").toJson
  startedAt := number (field kvs "started_at")
  finishedAt := number (field kvs "finished_at")
  outputHash := py.sha256 output

/-- The checks of one payload.  `none` is `missing_or_corrupt_completed_evidence`. -/
def verifyPayload (py : Stdlib) (m : String) (taskId : Json) (id : EvidenceId) :
    PyJson → Except PyExc (Option EvidenceRecord)
  | .obj kvs =>
      if checkedFields m taskId id kvs then do
        let output ← (pyStr (field kvs "output")).encode
        if (field kvs "output_hash").is (py.sha256 output).1 then
          return some (verifiedRecord py m taskId id kvs output)
        else return none
      else .ok none
  | _ => .ok none

/-! ### The loop -/

/-- One round: `OSError`, `UnicodeError` and `JSONDecodeError` are caught. -/
def verifyFile (py : Stdlib) (m : String) (taskId : Json) (id : EvidenceId) :
    EvidenceFile → Except PyExc (Option EvidenceRecord)
  | .elsewhere => .ok none
  | .missing => .ok none
  | .unreadable => .ok none
  | .content bytes =>
      match readText bytes with
      | none => .ok none
      | some text =>
          match loads py.interpreter text with
          | .error .decode => .ok none
          | .error e => .error e.exc
          | .ok payload => verifyPayload py m taskId id payload

/-- The loop of `_verify_completed_evidence`. -/
def verifyFiles (py : Stdlib) (m : String) (file : EvidenceId → EvidenceFile)
    (evidenceIdsByTask : List (Json × EvidenceId)) :
    List Json → Except PyExc (Option (List EvidenceRecord))
  | [] => .ok (some [])
  | taskId :: rest =>
      match dictGet taskId evidenceIdsByTask with
      | none => .ok none
      | some id => do
          match ← verifyFile py m taskId id (file id) with
          | none => return none
          | some record =>
              match ← verifyFiles py m file evidenceIdsByTask rest with
              | none => return none
              | some records => return some (record :: records)

/-- `_verify_completed_evidence`, under the mission directory of `plan`. -/
def verifyEvidenceDir (py : Stdlib) (dir : EvidenceDir) (plan : MissionPlan)
    (state : ExecutionState) : Except PyExc (Option (List EvidenceRecord)) :=
  if dir.confined then
    verifyFiles py plan.missionId dir.file state.evidenceIdsByTask state.completedTaskIds
  else .ok none

/-! ### What it does not survive -/

/-- The text is nested too deep, has too long an integer in it, or is a record that passes
the other checks and whose output cannot be encoded. -/
def RaisesOn (py : Stdlib) (m : String) (taskId : Json) (id : EvidenceId) (text : PyStr) : Prop :=
  loads py.interpreter text = .error .recursion ∨ loads py.interpreter text = .error .digits ∨
    ∃ kvs, loads py.interpreter text = .ok (.obj kvs) ∧ checkedFields m taskId id kvs = true ∧
      HasSurrogate (pyStr (field kvs "output"))

/-- The file has such a text. -/
def Raises (py : Stdlib) (m : String) (taskId : Json) (id : EvidenceId) (f : EvidenceFile) : Prop :=
  ∃ bytes text, f = .content bytes ∧ readText bytes = some text ∧ RaisesOn py m taskId id text

section Files

variable {py : Stdlib} {m : String} {taskId : Json} {id : EvidenceId}

theorem verifyPayload_error_iff {payload : PyJson} :
    (∃ e, verifyPayload py m taskId id payload = .error e) ↔
      ∃ kvs, payload = .obj kvs ∧ checkedFields m taskId id kvs = true ∧
        HasSurrogate (pyStr (field kvs "output")) := by
  cases payload with
  | obj kvs =>
      unfold verifyPayload
      dsimp only
      by_cases hc : checkedFields m taskId id kvs = true
      · rw [if_pos hc]
        rcases he : (pyStr (field kvs "output")).encode with e | output
        · exact ⟨fun _ => ⟨kvs, rfl, hc, PyStr.encode_eq_error_iff.mp ⟨e, he⟩⟩, fun _ => ⟨e, rfl⟩⟩
        · -- the output can be encoded, so there is no surrogate in it
          have hclean : ¬ HasSurrogate (pyStr (field kvs "output")) := by
            intro h
            obtain ⟨e, he'⟩ := encode_eq_error h
            rw [he] at he'
            cases he'
          constructor
          · rintro ⟨e, h⟩
            replace h : (if _ then _ else _) = _ := h
            split at h <;> cases h
          · rintro ⟨_, ⟨⟩, -, h⟩
            exact absurd h hclean
      · rw [if_neg hc]
        constructor
        · rintro ⟨_, h⟩
          cases h
        · rintro ⟨_, ⟨⟩, h, -⟩
          exact absurd h hc
  | _ =>
      constructor
      · rintro ⟨_, h⟩
        cases h
      · rintro ⟨_, h, -⟩
        cases h

/-- A file stops the verification with an exception exactly when it is such a one. -/
theorem verifyFile_error_iff {f : EvidenceFile} :
    (∃ e, verifyFile py m taskId id f = .error e) ↔ Raises py m taskId id f := by
  cases f with
  | content bytes =>
      rcases hr : readText bytes with - | text
      · simp [verifyFile, Raises, hr]
      · have hraises : Raises py m taskId id (.content bytes) ↔ RaisesOn py m taskId id text := by
          simp [Raises, hr]
        rw [hraises, RaisesOn]
        rcases hl : loads py.interpreter text with e | payload
        · cases e <;> simp [verifyFile, hr, hl]
        · simp only [verifyFile, hr, hl]
          rw [verifyPayload_error_iff]
          simp
  | _ => simp [verifyFile, Raises]

end Files

section Loop

variable {py : Stdlib} {m : String} {file : EvidenceId → EvidenceFile}
variable {ids : List (Json × EvidenceId)}

/-- The file of the task is verified. -/
def Verifies (py : Stdlib) (m : String) (file : EvidenceId → EvidenceFile)
    (ids : List (Json × EvidenceId)) (taskId : Json) : Prop :=
  ∃ id record, dictGet taskId ids = some id ∧ verifyFile py m taskId id (file id) = .ok (some record)

/-- The loop goes through as long as no file raises that it comes to. -/
theorem verifyFiles_ok_iff {tasks : List Json} :
    (∃ found, verifyFiles py m file ids tasks = .ok found) ↔
      ∀ before taskId after, tasks = before ++ taskId :: after →
        (∀ x ∈ before, Verifies py m file ids x) →
        ∀ id, dictGet taskId ids = some id → ¬ Raises py m taskId id (file id) := by
  induction tasks with
  | nil =>
      refine ⟨fun _ before taskId after h => ?_, fun _ => ⟨_, rfl⟩⟩
      simp at h
  | cons task rest ih =>
      unfold verifyFiles
      rcases hid : dictGet task ids with - | id
      · refine ⟨fun _ before taskId after h hbefore id hid' => ?_, fun _ => ⟨_, rfl⟩⟩
        cases before with
        | nil =>
            obtain ⟨rfl, -⟩ := List.cons.inj h
            rw [hid] at hid'
            cases hid'
        | cons x before =>
            obtain ⟨rfl, -⟩ := List.cons.inj h
            obtain ⟨_, _, hx, -⟩ := hbefore task List.mem_cons_self
            rw [hid] at hx
            cases hx
      · dsimp only
        rcases hf : verifyFile py m task id (file id) with e | (_ | record)
        · -- the first file raises
          refine ⟨?_, fun h => ?_⟩
          · rintro ⟨_, h⟩
            cases h
          · exact absurd (verifyFile_error_iff.mp ⟨e, hf⟩) (h [] task rest rfl (by simp) id hid)
        · -- the first file is refused, and the loop ends
          refine ⟨fun _ before taskId after h hbefore id' hid' => ?_, fun _ => ⟨none, rfl⟩⟩
          cases before with
          | nil =>
              obtain ⟨rfl, -⟩ := List.cons.inj h
              obtain rfl := Option.some.inj (hid.symm.trans hid')
              intro hr
              obtain ⟨e, he⟩ := verifyFile_error_iff.mpr hr
              rw [hf] at he
              cases he
          | cons x before =>
              obtain ⟨rfl, -⟩ := List.cons.inj h
              obtain ⟨_, _, hx, hv⟩ := hbefore task List.mem_cons_self
              obtain rfl := Option.some.inj (hid.symm.trans hx)
              rw [hf] at hv
              cases hv
        · -- the first file is verified, and the rest is looked at
          have hrest : (∃ found, (do
              match ← verifyFiles py m file ids rest with
              | none => return none
              | some records => return some (record :: records)) = Except.ok found) ↔
              ∃ found, verifyFiles py m file ids rest = .ok found := by
            rcases verifyFiles py m file ids rest with e | (_ | records)
            · constructor
              · rintro ⟨_, h⟩
                cases h
              · rintro ⟨_, h⟩
                cases h
            · exact ⟨fun _ => ⟨_, rfl⟩, fun _ => ⟨_, rfl⟩⟩
            · exact ⟨fun _ => ⟨_, rfl⟩, fun _ => ⟨_, rfl⟩⟩
          refine hrest.trans (ih.trans ⟨fun h => ?_, fun h => ?_⟩)
          · intro before taskId after heq hbefore id' hid'
            cases before with
            | nil =>
                obtain ⟨rfl, -⟩ := List.cons.inj heq
                obtain rfl := Option.some.inj (hid.symm.trans hid')
                intro hr
                obtain ⟨e, he⟩ := verifyFile_error_iff.mpr hr
                rw [hf] at he
                cases he
            | cons x before =>
                obtain ⟨-, rfl⟩ := List.cons.inj heq
                exact h before taskId after rfl
                  (fun y hy => hbefore y (List.mem_cons_of_mem _ hy)) id' hid'
          · rintro before taskId after rfl hbefore
            refine h (task :: before) taskId after rfl fun x hx => ?_
            rcases List.mem_cons.mp hx with rfl | hx
            · exact ⟨id, record, hid, hf⟩
            · exact hbefore x hx

end Loop

/-! ### What it verifies -/

section Verified

variable {v : PyJson} {t : Json} {kvs : List (PyStr × PyJson)}

theorem nonBlank_replaced {s : PyStr} (h : s.nonBlank = true) : nonBlank s.replaced = true := by
  obtain ⟨p, hp, hs⟩ := PyStr.nonBlank_iff.mp h
  refine nonBlank_iff.mpr ?_
  rw [PyStr.replaced, String.toList_ofList]
  cases p with
  | scalar c => exact ⟨c, List.mem_map.mpr ⟨_, hp, rfl⟩, hs⟩
  | surrogate n => exact ⟨'\ufffd', List.mem_map.mpr ⟨_, hp, rfl⟩, by decide⟩

theorem nonEmptyStr_toJson (h : v.nonBlankStr = true) : nonEmptyStr v.toJson = true := by
  cases v with
  | str s => exact nonBlank_replaced h
  | _ => cases h

theorem isStr_toJson (h : v.isStr = true) : v.toJson.isStr = true := by
  cases v with
  | str s => rfl
  | _ => cases h

theorem isText_iff : isText t v = true ↔
    ∃ s : String, t = .str s ∧ v = .str (.ofString s) ∧ nonBlank s = true := by
  unfold isText
  constructor
  · intro h
    obtain ⟨hb, hv⟩ := Bool.and_eq_true_iff.mp h
    split at hv
    · rename_i s s'
      obtain rfl : s = PyStr.ofString s' := by simpa using hv
      exact ⟨s', rfl, rfl, by simpa [PyJson.nonBlankStr] using hb⟩
    · cases hv
  · rintro ⟨s, rfl, rfl, h⟩
    simp [PyJson.nonBlankStr, h]

theorem isTokenUsage_toJson (h : isUsage v = true) : isTokenUsage v.toJson = true := by
  cases v with
  | obj kvs =>
      show (toJsonFields kvs).all _ = true
      replace h : kvs.all _ = true := h
      induction kvs with
      | nil => rfl
      | cons kv kvs ih =>
          obtain ⟨k, v⟩ := kv
          rw [List.all_cons, Bool.and_eq_true] at h
          rw [toJsonFields, List.all_cons, Bool.and_eq_true]
          refine ⟨?_, ih h.2⟩
          cases v with
          | int i => exact h.1
          | _ => cases h.1
  | _ => cases h

theorem isCommand_toJson (h : isArguments v = true) : isCommand v.toJson = true := by
  cases v with
  | arr xs =>
      show (toJsonList xs).all _ = true
      replace h : xs.all _ = true := h
      induction xs with
      | nil => rfl
      | cons x xs ih =>
          rw [List.all_cons, Bool.and_eq_true] at h
          rw [toJsonList, List.all_cons, Bool.and_eq_true]
          exact ⟨isStr_toJson h.1, ih h.2⟩
  | _ => cases h

variable {py : Stdlib} {m : String} {taskId : Json} {id : EvidenceId}

/-- A record that is returned is verified. -/
theorem verifiable_of_payload {payload : PyJson} {r : EvidenceRecord}
    (h : verifyPayload py m taskId id payload = .ok (some r)) :
    Verifiable py m r ∧ r.taskId = taskId ∧ r.evidenceId = id := by
  cases payload with
  | obj kvs =>
      unfold verifyPayload at h
      dsimp only at h
      split at h
      · rename_i hc
        obtain ⟨output, -, h⟩ := bind_eq_ok.mp h
        split at h
        · obtain rfl := Option.some.inj (Except.ok.inj h)
          simp only [checkedFields, Bool.and_eq_true, Bool.not_eq_true', decide_eq_false_iff_not,
            and_assoc] at hc
          obtain ⟨-, -, hm, ht, hp, hmo, -, -, -, hu, hco, hst, hfi, hle⟩ := hc
          obtain ⟨_, ⟨⟩, -, hm⟩ := isText_iff.mp hm
          obtain ⟨s, rfl, -, ht⟩ := isText_iff.mp ht
          exact ⟨⟨⟨rfl, hm⟩, ht, nonEmptyStr_toJson hp, isStr_toJson hmo, rfl,
            isTokenUsage_toJson hu, isCommand_toJson hco, hst, hfi, Rat.not_lt.mp hle, rfl⟩, rfl,
            rfl⟩
        · cases h
      · cases h
  | _ => cases h

theorem verifiable_of_file {f : EvidenceFile} {r : EvidenceRecord}
    (h : verifyFile py m taskId id f = .ok (some r)) :
    Verifiable py m r ∧ r.taskId = taskId ∧ r.evidenceId = id := by
  cases f with
  | content bytes =>
      unfold verifyFile at h
      dsimp only at h
      split at h
      · cases h
      · split at h
        · cases h
        · cases h
        · exact verifiable_of_payload h
  | _ => cases h

/-- The records are verified ones, one for each task in turn. -/
theorem verifiable_of_files {file : EvidenceId → EvidenceFile} {ids : List (Json × EvidenceId)}
    {tasks : List Json} {records : List EvidenceRecord}
    (h : verifyFiles py m file ids tasks = .ok (some records)) :
    records.map (·.taskId) = tasks ∧ ∀ r ∈ records, Verifiable py m r := by
  induction tasks generalizing records with
  | nil =>
      obtain rfl := Option.some.inj (Except.ok.inj h)
      exact ⟨rfl, by simp⟩
  | cons task rest ih =>
      unfold verifyFiles at h
      split at h
      · cases h
      · obtain ⟨found, hfile, h⟩ := bind_eq_ok.mp h
        cases found with
        | none => cases h
        | some record =>
            obtain ⟨found', hrest, h⟩ := bind_eq_ok.mp h
            cases found' with
            | none => cases h
            | some records' =>
                obtain rfl := Option.some.inj (Except.ok.inj h)
                obtain ⟨hids, hall⟩ := ih hrest
                obtain ⟨hv, ht, -⟩ := verifiable_of_file hfile
                refine ⟨by rw [List.map_cons, ht, hids], fun r hr => ?_⟩
                rcases List.mem_cons.mp hr with rfl | hr
                · exact hv
                · exact hall r hr

end Verified

/-! ### Values without surrogates -/

section Unicode

variable {py : Stdlib} {m : String} {taskId : Json} {id : EvidenceId}

theorem ofString_eq_iff {s t : String} : PyStr.ofString s = PyStr.ofString t ↔ s = t :=
  PyStr.ofString_injective.eq_iff

theorem field_ofJsonFields (kvs : List (String × Json)) (key : String) :
    field (ofJsonFields kvs) key = PyJson.ofJson (fieldOf kvs key) := by
  induction kvs with
  | nil => rfl
  | cons kv kvs ih =>
      obtain ⟨k, v⟩ := kv
      by_cases h : k = key
      · simp [ofJsonFields, field, fieldOf, Json.lookup, h]
      · have hne : PyStr.ofString k ≠ PyStr.ofString key := fun h' => h (ofString_eq_iff.mp h')
        have ih' := ih
        unfold field fieldOf at ih' ⊢
        rw [ofJsonFields, List.find?_cons_of_neg (by simpa using hne), ih',
          Json.lookup_cons_ne h]

theorem hasKeys_ofJsonFields (keys : List String) (kvs : List (String × Json)) :
    PyJson.hasKeys keys (ofJsonFields kvs) = Json.hasKeys keys kvs := by
  have hall : ∀ (p : PyStr × PyJson → Bool) (q : String × Json → Bool),
      (∀ k v, p (.ofString k, PyJson.ofJson v) = q (k, v)) →
      (ofJsonFields kvs).all p = kvs.all q ∧ (ofJsonFields kvs).any p = kvs.any q := by
    intro p q hpq
    induction kvs with
    | nil => exact ⟨rfl, rfl⟩
    | cons kv kvs ih =>
        obtain ⟨k, v⟩ := kv
        rw [ofJsonFields, List.all_cons, List.all_cons, List.any_cons, List.any_cons, hpq, ih.1, ih.2]
        exact ⟨rfl, rfl⟩
  unfold PyJson.hasKeys Json.hasKeys
  congr 1
  · refine (hall _ _ fun k v => ?_).1
    rw [Bool.eq_iff_iff]
    simp [ofString_eq_iff]
  · refine congrArg keys.all (funext fun k => ?_)
    refine (hall _ _ fun k' v => ?_).2
    rw [Bool.eq_iff_iff]
    simp [ofString_eq_iff]

theorem isText_ofJson {v t : Json} :
    isText t (PyJson.ofJson v) = true ↔ nonEmptyStr v = true ∧ v = t := by
  rw [isText_iff]
  constructor
  · rintro ⟨s, rfl, hv, hb⟩
    cases v with
    | str s' =>
        obtain rfl := ofString_eq_iff.mp (PyJson.str.inj hv)
        exact ⟨hb, rfl⟩
    | _ => cases hv
  · rintro ⟨hb, rfl⟩
    cases v with
    | str s => exact ⟨s, rfl, rfl, hb⟩
    | _ => cases hb

theorem nonBlankStr_ofJson (v : Json) : (PyJson.ofJson v).nonBlankStr = nonEmptyStr v := by
  cases v with
  | str s => exact PyStr.nonBlank_ofString s
  | _ => rfl

theorem isStr_ofJson (v : Json) : (PyJson.ofJson v).isStr = v.isStr := by
  cases v <;> rfl

theorem number_ofJson_finite (v : Json) : isFiniteNumber (number (PyJson.ofJson v)) =
    isFiniteNumber v := by
  cases v <;> rfl

theorem number_ofJson {v : Json} (h : isFiniteNumber v = true) : number (PyJson.ofJson v) = v := by
  cases v with
  | int i => rfl
  | float f => rfl
  | _ => cases h

theorem isUsage_ofJson (v : Json) : isUsage (PyJson.ofJson v) = isTokenUsage v := by
  cases v with
  | obj kvs =>
      show (ofJsonFields kvs).all _ = kvs.all _
      induction kvs with
      | nil => rfl
      | cons kv kvs ih =>
          obtain ⟨k, v⟩ := kv
          rw [ofJsonFields, List.all_cons, List.all_cons, ih]
          cases v <;> rfl
  | _ => rfl

theorem isArguments_ofJson (v : Json) : isArguments (PyJson.ofJson v) = isCommand v := by
  cases v with
  | arr xs =>
      show (ofJsonList xs).all _ = xs.all _
      induction xs with
      | nil => rfl
      | cons x xs ih => rw [ofJsonList, List.all_cons, List.all_cons, ih, isStr_ofJson]
  | _ => rfl

theorem nonBlank_evidenceId (id : EvidenceId) : nonBlank id.1 = true := by
  have h := id.2
  unfold isEvidenceId afterPrefix at h
  split at h
  · rename_i hstarts
    have hmem : 'e' ∈ id.1.toList :=
      (List.isPrefixOf_iff_prefix.mp hstarts).subset (by decide : 'e' ∈ "evidence-".toList)
    exact nonBlank_iff.mpr ⟨'e', hmem, by decide⟩
  · cases h

/-- The checks on the fields, with the hash. -/
theorem checkedFields_ofJson {kvs : List (String × Json)} :
    checkedFields m taskId id (ofJsonFields kvs) = true ∧
        fieldOf kvs "output_hash" = .str (py.sha256 (asText (fieldOf kvs "output"))).1 ↔
      Json.hasKeys evidenceRequiredKeys kvs = true ∧
        evidenceAccepted py m taskId id (fieldOf kvs) := by
  simp only [checkedFields, Bool.and_eq_true, Bool.not_eq_true', decide_eq_false_iff_not,
    hasKeys_ofJsonFields, field_ofJsonFields, isText_ofJson, nonBlankStr_ofJson, isStr_ofJson,
    number_ofJson_finite, isUsage_ofJson, isArguments_ofJson, evidenceAccepted]
  constructor
  · rintro ⟨⟨⟨⟨⟨⟨⟨⟨⟨⟨⟨⟨⟨⟨hk, he⟩, hm⟩, ht⟩, hp⟩, hmo⟩, hs⟩, ho⟩, hh⟩, hu⟩, hc⟩, hst⟩, hfi⟩, hle⟩, hhash⟩
    rw [number_ofJson hst, number_ofJson hfi] at hle
    exact ⟨hk, he.2, hm, ht, hp, hmo, hs.2, ho, hh, hu, hc, hst, hfi, hle, hhash⟩
  · rintro ⟨hk, he, hm, ht, hp, hmo, hs, ho, hh, hu, hc, hst, hfi, hle, hhash⟩
    have hid : nonEmptyStr (.str id.1) = true := nonBlank_evidenceId id
    rw [number_ofJson hst, number_ofJson hfi]
    exact ⟨⟨⟨⟨⟨⟨⟨⟨⟨⟨⟨⟨⟨⟨hk, by rw [he]; exact hid, he⟩, hm⟩, ht⟩, hp⟩, hmo⟩, by rw [hs]; decide, hs⟩,
      ho⟩, hh⟩, hu⟩, hc⟩, hst⟩, hfi⟩, hle⟩, hhash⟩

theorem pyStr_ofJson (v : Json) : pyStr (PyJson.ofJson v) = PyStr.ofString (asText v) := by
  cases v <;> rfl

theorem is_ofJson {v : Json} {text : String} :
    (PyJson.ofJson v).is text = true ↔ v = .str text := by
  cases v <;> simp [PyJson.ofJson, PyJson.is, ofString_eq_iff]

/-- **For values without surrogates** the checks are those of the model of the executor. -/
theorem verifyPayload_ofJson (v : Json) :
    verifyPayload py m taskId id (PyJson.ofJson v) = .ok (parseEvidence py m taskId id v) := by
  cases v with
  | obj kvs =>
      show verifyPayload py m taskId id (.obj (ofJsonFields kvs)) = _
      have hhash : (field (ofJsonFields kvs) "output_hash").is
          (py.sha256 (asText (fieldOf kvs "output"))).1 = true ↔
            fieldOf kvs "output_hash" = .str (py.sha256 (asText (fieldOf kvs "output"))).1 := by
        rw [field_ofJsonFields, is_ofJson]
      have hencode : (pyStr (field (ofJsonFields kvs) "output")).encode =
          .ok (asText (fieldOf kvs "output")) := by
        rw [field_ofJsonFields, pyStr_ofJson, PyStr.encode_ofString]
      unfold verifyPayload parseEvidence
      dsimp only
      rw [hencode]
      by_cases h : Json.hasKeys evidenceRequiredKeys kvs = true ∧
          evidenceAccepted py m taskId id (fieldOf kvs)
      · have hchecked := checkedFields_ofJson.mpr h
        have ⟨_, _, _, _, _, _, _, _, _, _, _, hst, hfi, _⟩ := h
        rw [if_pos h, if_pos hchecked.1]
        refine (if_pos (hhash.mpr hchecked.2)).trans ?_
        simp only [verifiedRecord, field_ofJsonFields, toJson_ofJson, number_ofJson hst,
          number_ofJson hfi]
        rfl
      · rw [if_neg h]
        split
        · next hc => exact if_neg fun hh => h (checkedFields_ofJson.mp ⟨hc, hhash.mp hh⟩)
        · rfl
  | _ => rfl

end Unicode

end Konoha
