/-
Protocol/Tampered.lean

What a tampered evidence file does to a call.  `_verify_completed_evidence` refuses the file
(`missing_or_corrupt_completed_evidence`), and the mission goes to `recovery_required`, unless
the file is one that the function does not survive (`Raises`).

`afterEvidence` is the part of `_execute_or_resume_plan_locked` behind the verification.  Files
that are as `_persist` has written them are verified exactly when their records are `Verifiable`
(`persisted_evidence_verified`).
-/
import KonohaRuntime.Base.RoundTrip
import KonohaRuntime.Runtime.EvidenceFile
import KonohaRuntime.Protocol.Stages
import KonohaRuntime.Protocol.OwnEvidence

namespace Konoha

open Effects Json Prog CodePoint

variable {py : Stdlib} {t : Tid} {w w' : World} {tr : List (Reply Op.Ans)}

/-- What `_execute_or_resume_plan_locked` does with the answer of
`_verify_completed_evidence`. -/
def afterEvidence (py : Stdlib) (now : Timestamp) (frame : Frame) :
    Except PyExc (Option (List EvidenceRecord)) → Run ExecutionAttempt
  | .error e => .raise e
  | .ok none => recover py now frame "missing_or_corrupt_completed_evidence"
  | .ok (some records) =>
      match frame.plan.currentTask frame.state with
      | none => recover py now frame "cursor_exhausted_without_completed_status"
      | some task => startTask py now frame task records

/-- A recovery whose writes succeed ends in `recovery_required`, on disk too. -/
theorem traced_recover {now : Timestamp} {frame : Frame} {d : String}
    {out : Except PyExc ExecutionAttempt}
    (h : Traced (step t) (recover py now frame d) w tr out w')
    (hid : isMissionId frame.state.missionId = true) (hall : AllSucceed tr) :
    ∃ s, out = .ok ⟨some s, [], d⟩ ∧ s.status = .recoveryRequired ∧
      (w' frame.state.missionId).state = .json (s.asdict py) := by
  have hid' : isMissionId (recoveryResult frame.state d now.1).missionId = true := hid
  have hleft : ∀ {xs ys : List (Reply Op.Ans)}, AllSucceed (xs ++ ys) → AllSucceed xs :=
    fun hall x hx => hall x (List.mem_append_left _ hx)
  unfold recover settle at h
  rcases h.of_bind with ⟨e, he, rfl⟩ | ⟨ok, tr₁, w₁, tr₂, h₁, h₂, rfl⟩
  · rcases traced_trySaveExecutionState hid' he with ⟨hout, -⟩ | ⟨-, -, hno⟩
    · cases hout
    · exact absurd hall hno
  · rcases traced_trySaveExecutionState hid' h₁ with ⟨hout, -, -, hstate, -⟩ | ⟨-, -, hno⟩
    · obtain rfl := Except.ok.inj hout
      obtain ⟨-, rfl, rfl⟩ := Traced.of_ret h₂
      exact ⟨_, rfl, rfl, hstate⟩
    · exact absurd (hleft hall) hno

/-- **Which evidence files are survived.**  `_verify_completed_evidence` returns exactly when
no file raises that it comes to; the records that it returns are verified ones; and where it
refuses a file, the call ends in `recovery_required`. -/
theorem tampered_evidence_iff (py : Stdlib) (dir : EvidenceDir) (plan : MissionPlan)
    (state : ExecutionState) :
    ((∃ found, verifyEvidenceDir py dir plan state = .ok found) ↔ (dir.confined = true →
      ∀ before taskId after, state.completedTaskIds = before ++ taskId :: after →
        (∀ x ∈ before, Verifies py plan.missionId dir.file state.evidenceIdsByTask x) →
        ∀ id, dictGet taskId state.evidenceIdsByTask = some id →
          ¬ Raises py plan.missionId taskId id (dir.file id))) ∧
    (∀ records, verifyEvidenceDir py dir plan state = .ok (some records) →
      records.map (·.taskId) = state.completedTaskIds ∧
        ∀ r ∈ records, Verifiable py plan.missionId r) ∧
    (verifyEvidenceDir py dir plan state = .ok none → isMissionId state.missionId = true →
      ∀ t now approval w tr out w', Traced (step t) (afterEvidence py now ⟨plan, state, approval⟩
          (verifyEvidenceDir py dir plan state)) w tr out w' → AllSucceed tr →
        ∃ s, out = .ok ⟨some s, [], "missing_or_corrupt_completed_evidence"⟩ ∧
          s.status = .recoveryRequired ∧ (w' state.missionId).state = .json (s.asdict py)) := by
  refine ⟨?_, fun records h => ?_, fun h hid t now approval w tr out w' hrun hall => ?_⟩
  · unfold verifyEvidenceDir
    split
    · rename_i hc
      rw [verifyFiles_ok_iff]
      exact ⟨fun h _ => h, fun h => h hc⟩
    · rename_i hc
      exact ⟨fun _ h => absurd h hc, fun _ => ⟨none, rfl⟩⟩
  · unfold verifyEvidenceDir at h
    split at h
    · exact verifiable_of_files h
    · cases h
  · rw [h] at hrun
    have hrecover : Traced (step t) (recover py now ⟨plan, state, approval⟩
        "missing_or_corrupt_completed_evidence") w tr out w' := hrun
    exact traced_recover hrecover hid hall

/-! ### Two files -/

/-- The text of an evidence file, around its output. -/
def evidenceText (output : String) : List Char :=
  "\x7b\"evidence_id\":\"evidence-000000000000\",\"mission_id\":\"mission-a\",".toList ++
    "\"task_id\":\"t1\",\"provider\":\"ollama\",\"model\":\"m\",\"status\":".toList ++
    "\"completed\",\"output\":\"".toList ++ output.toList ++
    "\",\"token_usage\":\x7b\x7d,\"command\":[],\"started_at\":1,\"finished_at\":2,".toList ++
    "\"output_hash\":\"".toList ++ outputDigest.1.toList ++ "\"\x7d".toList

/-- A directory with one such file. -/
def evidenceOf (output : String) : EvidenceDir where
  confined := true
  file _ := .content (String.ofList (evidenceText output)).toUTF8

/-- The file whose output can be encoded is read to its end; a lone surrogate raises. -/
theorem verifyFile_evidenceOf :
    (verifyFile completedStdlib "mission-a" (.str "t1") sampleHost.evidenceId
        ((evidenceOf "le\\u00eddo").file sampleHost.evidenceId)).isOk = true ∧
      (verifyFile completedStdlib "mission-a" (.str "t1") sampleHost.evidenceId
        ((evidenceOf "\\ud800").file sampleHost.evidenceId)).isOk = false := by
  rw [evidenceOf, evidenceOf, verifyFile, verifyFile]
  simp only [readText_ofList]
  decide +kernel

/-- The file of an output that can be encoded is read to its end, and refused or verified. -/
theorem evidenceOf_survived :
    ∃ found, verifyEvidenceDir completedStdlib (evidenceOf "le\\u00eddo") ollamaFrame.plan
      ollamaState = .ok found := by
  have hfound := verifyFile_evidenceOf.1
  have hno : ¬ Raises completedStdlib "mission-a" (.str "t1") sampleHost.evidenceId
      ((evidenceOf "le\\u00eddo").file sampleHost.evidenceId) := by
    intro h
    obtain ⟨e, he⟩ := verifyFile_error_iff.mpr h
    rw [he] at hfound
    cases hfound
  refine (tampered_evidence_iff completedStdlib (evidenceOf "le\\u00eddo") ollamaFrame.plan
    ollamaState).1.mpr fun _ before taskId after htasks _ id hid => ?_
  obtain ⟨rfl, rfl⟩ : before = [] ∧ taskId = .str "t1" := by
    cases before with
    | nil => exact ⟨rfl, (List.cons.inj htasks).1.symm⟩
    | cons x before => simp [ollamaState] at htasks
  obtain rfl : id = sampleHost.evidenceId := (Option.some.inj hid).symm
  exact hno

/-- **An output with a lone surrogate** is not refused: the verification raises. -/
theorem surrogateEvidence_raises :
    ¬ ∃ found, verifyEvidenceDir completedStdlib (evidenceOf "\\ud800") ollamaFrame.plan
      ollamaState = .ok found := by
  have hraised := verifyFile_evidenceOf.2
  rintro ⟨found, h⟩
  replace h : verifyFiles completedStdlib "mission-a" (evidenceOf "\\ud800").file
    [(.str "t1", sampleHost.evidenceId)] [.str "t1"] = .ok found := h
  unfold verifyFiles at h
  have hid : dictGet (.str "t1") [(.str "t1", sampleHost.evidenceId)] =
      some sampleHost.evidenceId := by decide +kernel
  rw [hid] at h
  obtain ⟨record, hfile, -⟩ := bind_eq_ok.mp h
  rw [hfile] at hraised
  cases hraised

/-! ### Files as they were written -/

section Persisted

open Loads

variable {py : Stdlib} {m : String} {r : EvidenceRecord}

/-- What `_persist` writes for a record. -/
def persistedFile (py : Stdlib) (r : EvidenceRecord) : EvidenceFile :=
  .content (dumps py .indented 0 r.asdict).toUTF8

/-- The numbers of the record are read back from their texts, and no object has a key twice. -/
structure Encodable (py : Stdlib) (r : EvidenceRecord) : Prop where
  nesting : (PyJson.ofJson r.asdict).nesting ≤ py.interpreter.depth
  fits : Fits py (PyJson.ofJson r.asdict)

/-- The bytes of a record are read as the record. -/
theorem verifyFile_persistedFile (h : Encodable py r) :
    verifyFile py m r.taskId r.evidenceId (persistedFile py r) =
      .ok (parseEvidence py m r.taskId r.evidenceId r.asdict) := by
  have hdumps : PyJson.dumps py .indented 0 (PyJson.ofJson r.asdict) =
      (dumps py .indented 0 r.asdict).toList.map scalar :=
    PyJson.dumps_ofJson py .indented r.asdict 0
  have hline : '\r' ∉ (dumps py .indented 0 r.asdict).toList := by
    intro hmem
    apply notMem_dumps py returnless_indented (PyJson.ofJson r.asdict) 0 h.fits
    rw [hdumps]
    exact List.mem_map_of_mem hmem
  have htext : readText (dumps py .indented 0 r.asdict).toUTF8 =
      some (PyJson.dumps py .indented 0 (PyJson.ofJson r.asdict)) := by
    have hread := readText_written hline
    rwa [String.ofList_toList, ← hdumps] at hread
  have hloads : loads py.interpreter (PyJson.dumps py .indented 0 (PyJson.ofJson r.asdict)) =
      .ok (PyJson.ofJson r.asdict) := by
    have hback := loads_dumps spaced_indented h.nesting h.fits (List.forall_mem_nil _)
    rwa [List.append_nil] at hback
  rw [persistedFile, verifyFile, htext]
  dsimp only
  rw [hloads]
  exact verifyPayload_ofJson r.asdict

/-- **What was persisted is verified.**  Where the evidence of the completed tasks is as
`_persist` has written it, it is read as these records when all of them are `Verifiable`, and
refused otherwise.  No exception is raised. -/
theorem persisted_evidence_verified {py : Stdlib} {dir : EvidenceDir} {plan : MissionPlan}
    {state : ExecutionState} {records : List EvidenceRecord} (hconfined : dir.confined = true)
    (htasks : state.completedTaskIds = records.map (·.taskId))
    (hrecords : ∀ r ∈ records, dictGet r.taskId state.evidenceIdsByTask = some r.evidenceId ∧
      dir.file r.evidenceId = persistedFile py r ∧ Encodable py r) :
    verifyEvidenceDir py dir plan state = .ok (some records) ∧
        (∀ r ∈ records, Verifiable py plan.missionId r) ∨
      verifyEvidenceDir py dir plan state = .ok none ∧
        ∃ r ∈ records, ¬ Verifiable py plan.missionId r := by
  rw [verifyEvidenceDir, if_pos hconfined, htasks]
  clear htasks
  induction records with
  | nil => exact .inl ⟨rfl, List.forall_mem_nil _⟩
  | cons r rest ih =>
      obtain ⟨⟨hid, hfile, hencodable⟩, hrest⟩ := List.forall_mem_cons.mp hrecords
      rw [List.map_cons, verifyFiles, hid]
      dsimp only
      rw [hfile, verifyFile_persistedFile hencodable]
      by_cases hr : Verifiable py plan.missionId r
      · rw [parseEvidence_asdict.mpr ⟨hr, rfl⟩]
        rcases ih hrest with ⟨hall, hverifiable⟩ | ⟨hnone, s, hs, hnot⟩
        · rw [hall]
          exact .inl ⟨rfl, List.forall_mem_cons.mpr ⟨hr, hverifiable⟩⟩
        · rw [hnone]
          exact .inr ⟨rfl, s, .tail _ hs, hnot⟩
      · rcases hparse : parseEvidence py plan.missionId r.taskId r.evidenceId r.asdict with - | r'
        · exact .inr ⟨rfl, r, .head _, hr⟩
        · exact absurd (parseEvidence_asdict.mp hparse).1 hr

/-- A record of an assignment that took a second. -/
def oneSecondRecord : EvidenceRecord :=
  { ollamaRecord ⟨0⟩ ⟨0⟩ with startedAt := .int 1, finishedAt := .int 2 }

theorem encodable_oneSecondRecord : Encodable completedStdlib oneSecondRecord := by
  have htests : (isRegular (.ofJson oneSecondRecord.asdict) ∧
      (PyJson.ofJson oneSecondRecord.asdict).intsFit usualInterpreter = true) ∧
        (PyJson.ofJson oneSecondRecord.asdict).nesting ≤ usualInterpreter.depth := by decide +kernel
  exact ⟨htests.2, (fits_iff _ _).mpr ⟨regular_of_isRegular _ _ htests.1.1, htests.1.2⟩⟩

/-- It is read back from its file. -/
theorem oneSecondRecord_verified :
    verifyEvidenceDir completedStdlib ⟨true, fun _ => persistedFile completedStdlib oneSecondRecord⟩
      ollamaFrame.plan ollamaState = .ok (some [oneSecondRecord]) := by
  have hverifiable : Verifiable completedStdlib ollamaFrame.plan.missionId oneSecondRecord :=
    ⟨⟨rfl, by decide +kernel⟩, by decide +kernel, by decide +kernel, rfl, rfl, rfl, by decide +kernel,
      by decide +kernel, by decide +kernel, by decide +kernel, rfl⟩
  have hrecords : ∀ r ∈ [oneSecondRecord],
      dictGet r.taskId ollamaState.evidenceIdsByTask = some r.evidenceId ∧
        persistedFile completedStdlib oneSecondRecord = persistedFile completedStdlib r ∧
          Encodable completedStdlib r := by
    intro r hr
    obtain rfl := List.mem_singleton.mp hr
    exact ⟨by decide +kernel, rfl, encodable_oneSecondRecord⟩
  have hverified := @persisted_evidence_verified completedStdlib
    ⟨true, fun _ => persistedFile completedStdlib oneSecondRecord⟩ ollamaFrame.plan ollamaState
    [oneSecondRecord] rfl rfl hrecords
  rcases hverified with ⟨h, -⟩ | ⟨-, r, hr, hnot⟩
  · exact h
  · obtain rfl := List.mem_singleton.mp hr
    exact absurd hverifiable hnot

end Persisted

end Konoha
