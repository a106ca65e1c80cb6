/-
Sources/Material.lean

When `_resolve_assignment_produced` delivers a source.

A record is asked for two kinds of rows: the marker, and material rows whose observation
satisfies the validator of the source.  The resolver cuts the material after ten rows, and each
value after two thousand characters, before the validator sees them.  The second cut does no
harm, since a value is stripped first; the first one does.

`produced_source_iff`: the resolver is right about the rows of a record exactly when a producer
that fulfils the source does so within the bounds.
-/
import KonohaRuntime.Base.Strip
import KonohaRuntime.Protocol.OwnEvidence
import KonohaRuntime.Runtime.Contract

namespace Konoha

open Json

/-! ### The rows of a record -/

/-- The observations of the rows with a source, in their order. -/
def observationsOf (tag : String) (rows : List Json) : List String :=
  rows.filterMap fun row =>
    match row with
    | .obj kvs =>
        match fieldOf kvs "source", fieldOf kvs "observation" with
        | .str source, .str observation => if source = tag then some observation else none
        | _, _ => none
    | _ => none

/-- The evidence rows in the output of a record, however long it is. -/
def evidenceRows (py : Stdlib) (record : EvidenceRecord) : List Json :=
  match parseAssignmentResultText py.interpreter record.output with
  | .ok (.obj kvs) =>
      match fieldOf (PyJson.toJsonFields kvs) "evidence" with
      | .arr rows => rows
      | _ => []
  | _ => []

/-- A marker row for the source. -/
def Marks (id : String) (rows : List Json) : Prop :=
  ∃ observation ∈ observationsOf "produced_source" rows,
    kvGet "source_id" (parseKvObservation observation) = some id

/-- An observation that the validator of the source accepts. -/
def Satisfies (id observation : String) : Prop :=
  materialSuffices id [parseKvObservation observation] = true

/-- A completed record with the marker and with a row, anywhere, that the validator accepts. -/
structure Fulfils (py : Stdlib) (id : String) (record : EvidenceRecord) : Prop where
  completed : record.status = .completed
  marked : Marks id (evidenceRows py record)
  material : ∃ observation ∈ observationsOf ("material:" ++ id) (evidenceRows py record),
    Satisfies id observation

/-- An output that `_record_payload` reads, with a row among the first ten material rows that
the validator accepts. -/
structure WithinBounds (py : Stdlib) (id : String) (record : EvidenceRecord) : Prop where
  length : record.output.length ≤ maxPersistedOutputBytes
  size : record.output.utf8ByteSize ≤ maxPersistedOutputBytes
  material : ∃ observation ∈ (observationsOf ("material:" ++ id) (evidenceRows py record)).take
    maxMaterialListItems, Satisfies id observation

/-! ### What is read -/

section Rows

variable {py : Stdlib} {id tag : String} {record : EvidenceRecord}

/-- The rows that are read of a record. -/
def rowsRead (py : Stdlib) (record : EvidenceRecord) : List Json :=
  if record.status ≠ .completed ∨ maxPersistedOutputBytes < record.output.length ∨
      maxPersistedOutputBytes < record.output.utf8ByteSize then []
  else evidenceRows py record

/-- The evidence rows of a payload. -/
def rowsOf : Option (List (String × Json)) → List Json
  | some payload =>
      match fieldOf payload "evidence" with
      | .arr rows => rows
      | _ => []
  | none => []

/-- `_record_payload` never raises, and gives the rows that are read. -/
theorem recordPayload_eq_ok :
    ∃ payload, recordPayload py record = .ok payload ∧ rowsOf payload = rowsRead py record := by
  unfold recordPayload rowsRead
  split_ifs
  · exact ⟨none, rfl, rfl⟩
  · unfold evidenceRows
    cases hparse : parseAssignmentResultText py.interpreter record.output with
    | ok v =>
        cases v with
        | obj kvs => exact ⟨_, rfl, rfl⟩
        | _ => exact ⟨none, rfl, rfl⟩
    | error e =>
        obtain ⟨⟨d, rfl⟩, -⟩ | ⟨⟨d, rfl⟩, -⟩ := parse_error_cases hparse
        · exact ⟨none, rfl, rfl⟩
        · exact ⟨none, rfl, rfl⟩

theorem filterMap_eq_observations (rows : List Json) :
    (rows.filterMap fun row =>
      match row with
      | .obj kvs =>
          match fieldOf kvs "source", fieldOf kvs "observation" with
          | .str source, .str observation =>
              if source = tag then some (parseKvObservation observation) else none
          | _, _ => none
      | _ => none) = (observationsOf tag rows).map parseKvObservation := by
  unfold observationsOf
  rw [List.map_filterMap]
  refine List.filterMap_congr ?_
  intro row _
  cases row with
  | obj kvs =>
      dsimp only
      split
      · split_ifs
        · rfl
        · rfl
      · rfl
  | _ => rfl

theorem taggedRows_eq :
    taggedRows py tag record =
      .ok ((observationsOf tag (rowsRead py record)).map parseKvObservation) := by
  have hread : ∃ payload, recordPayload py record = .ok payload ∧
      rowsOf payload = rowsRead py record := recordPayload_eq_ok
  obtain ⟨payload, hpayload, hrows⟩ := hread
  rw [← hrows]
  unfold taggedRows
  rw [hpayload]
  cases payload with
  | none => rfl
  | some payload =>
      change (match fieldOf payload "evidence" with
        | .arr rows => _
        | _ => _) = Except.ok (List.map _ (observationsOf tag (match fieldOf payload "evidence" with
          | .arr rows => rows
          | _ => [])))
      split
      · exact congrArg Except.ok (filterMap_eq_observations _)
      · rfl

theorem marksSource_eq (hid : (sourceKind id).isSome) :
    ∃ marked, marksSource py id record = .ok marked ∧
      (marked = true ↔ Marks id (rowsRead py record)) := by
  refine ⟨_, by unfold marksSource; rw [taggedRows_eq]; rfl, ?_⟩
  simp [Marks, hid]

/-! ### What the cuts leave -/

/-- A row as it is delivered: the five keys, and the beginnings of their values. -/
def trimmed (kvs : List (String × String)) : List (String × String) :=
  (kvs.filter fun kv => ["locator", "command", "result", "verdict", "fact"].contains kv.1).map
    fun kv => (kv.1, takeChars maxMaterialTextChars kv.2)

theorem materialRowsFor_eq :
    materialRowsFor py id record =
      .ok (((observationsOf ("material:" ++ id) (rowsRead py record)).take
        maxMaterialListItems).map fun observation => trimmed (parseKvObservation observation)) := by
  unfold materialRowsFor
  rw [taggedRows_eq, List.map_take]
  simp only [bind, Except.bind, pure, Except.pure, List.map_map]
  rfl

theorem kvGet_trimmed {key : String} {kvs : List (String × String)}
    (hkey : ["locator", "command", "result", "verdict", "fact"].contains key = true) :
    kvGet key (trimmed kvs) = (kvGet key kvs).map (takeChars maxMaterialTextChars) := by
  unfold kvGet trimmed
  induction kvs with
  | nil => rfl
  | cons kv kvs ih =>
      obtain ⟨k, v⟩ := kv
      by_cases hk : k = key
      · subst hk
        simp only [List.filter_cons, hkey, if_true, List.map_cons, List.find?_cons, decide_true,
          Option.map_some]
      · by_cases hc : ["locator", "command", "result", "verdict", "fact"].contains k = true
        · simpa only [List.filter_cons, hc, if_true, List.map_cons, List.find?_cons, hk,
            decide_false] using ih
        · simpa only [List.filter_cons, hc, if_false, Bool.false_eq_true, List.find?_cons, hk,
            decide_false] using ih

/-- The values of an observation are stripped. -/
theorem stripped_of_mem {observation : String} {kv : String × String}
    (h : kv ∈ parseKvObservation observation) : ∃ s, kv.2 = strip s := by
  unfold parseKvObservation at h
  revert h kv
  refine List.foldlRecOn (motive := fun acc => ∀ {kv : String × String}, kv ∈ acc →
    ∃ s, kv.2 = strip s) _ _ ?_ ?_
  · intro kv hkv
    cases hkv
  · intro acc hacc part _ kv hkv
    dsimp only at hkv
    split_ifs at hkv
    · exact hacc hkv
    · obtain hkv | hkv := List.mem_append.mp hkv
      · exact hacc (List.mem_of_mem_filter hkv)
      · exact ⟨_, congrArg Prod.snd (List.mem_singleton.mp hkv)⟩
    · exact hacc hkv

/-- A stripped value is blank when what is left of it after the cut is. -/
theorem nonBlank_takeChars (n : Nat) (s : String) :
    nonBlank (takeChars (n + 1) (strip s)) = nonBlank (strip s) := by
  have htext : (strip s).toList = stripChars s.toList := String.toList_ofList
  rw [Bool.eq_iff_iff, nonBlank_iff, nonBlank_iff, takeChars, String.toList_ofList, htext]
  cases hs : stripChars s.toList with
  | nil => simp
  | cons c rest =>
      have hc := head_stripChars hs
      exact iff_of_true ⟨c, List.mem_cons_self, hc⟩ ⟨c, List.mem_cons_self, hc⟩

theorem hasText_trimmed {key observation : String}
    (hkey : ["locator", "command", "result", "verdict", "fact"].contains key = true) :
    hasText key (trimmed (parseKvObservation observation)) =
      hasText key (parseKvObservation observation) := by
  unfold hasText
  rw [kvGet_trimmed hkey]
  cases hget : kvGet key (parseKvObservation observation) with
  | none => rfl
  | some v =>
      obtain ⟨kv, hkv, hv⟩ := Option.map_eq_some_iff.mp hget
      obtain ⟨s, hs⟩ := stripped_of_mem (List.mem_of_find?_eq_some hkv)
      rw [← hv, hs]
      exact nonBlank_takeChars _ s

/-- The validators look at the rows one by one. -/
theorem materialSuffices_iff {rows : List (List (String × String))} :
    materialSuffices id rows = true ↔ ∃ row ∈ rows, materialSuffices id [row] = true := by
  unfold materialSuffices
  split <;> simp

/-- The cut of the values does not change what a validator says. -/
theorem materialSuffices_trimmed {observation : String} :
    materialSuffices id [trimmed (parseKvObservation observation)] = true ↔
      Satisfies id observation := by
  unfold Satisfies materialSuffices
  split
  all_goals simp only [List.any_cons, List.any_nil, Bool.or_false]
  · rw [hasText_trimmed (by simp)]
  · rw [hasText_trimmed (by simp), hasText_trimmed (by simp)]
  · rw [hasText_trimmed (by simp)]
  · rw [hasText_trimmed (by simp), hasText_trimmed (by simp)]

/-- A record from which the resolver delivers the source. -/
def Usable (py : Stdlib) (id : String) (record : EvidenceRecord) : Prop :=
  Marks id (rowsRead py record) ∧
    ∃ observation ∈ (observationsOf ("material:" ++ id) (rowsRead py record)).take
      maxMaterialListItems, Satisfies id observation

/-- The bounds are the only thing that the resolver adds. -/
theorem usable_iff : Usable py id record ↔ Fulfils py id record ∧ WithinBounds py id record := by
  unfold Usable rowsRead
  split_ifs with hread
  · refine iff_of_false ?_ ?_
    · rintro ⟨⟨_, hmem, -⟩, -⟩
      cases hmem
    · rintro ⟨hful, hbounds⟩
      obtain h | h | h := hread
      · exact h hful.completed
      · exact absurd hbounds.length (not_le.mpr h)
      · exact absurd hbounds.size (not_le.mpr h)
  · push Not at hread
    obtain ⟨hstatus, hlength, hsize⟩ := hread
    constructor
    · rintro ⟨hmarks, observation, hmem, hsat⟩
      exact ⟨⟨hstatus, hmarks, observation, List.mem_of_mem_take hmem, hsat⟩,
        ⟨hlength, hsize, observation, hmem, hsat⟩⟩
    · rintro ⟨hful, hbounds⟩
      exact ⟨hful.marked, hbounds.material⟩

/-! ### The producers -/

/-- The delivered material: rows one of which the validator accepts. -/
def Delivers (id : String) (r : SourceResolution) : Prop :=
  ∃ (material : List (String × Json)) (rows : List (List (String × String))),
    r.materialization = .obj material ∧
    fieldOf material "material" = .arr (rows.map fun kvs => .obj (kvs.map fun kv => (kv.1, .str kv.2))) ∧
    ∃ row ∈ rows, materialSuffices id [row] = true

variable {ctx : ResolutionContext}

theorem resolveProducers_available (hid : (sourceKind id).isSome) {all ps : List Json}
    (hps : ∀ p ∈ ps, (dictGet p ctx.evidenceByTaskId).isSome) (bare : List Json) :
    ∃ r, resolveProducers py id ctx all ps bare = .ok r ∧
      (r.availability = .available ↔ ∃ p ∈ ps, ∃ record,
        dictGet p ctx.evidenceByTaskId = some record ∧ Usable py id record) ∧
      (r.availability = .available → Delivers id r) := by
  induction ps generalizing bare with
  | nil =>
      unfold resolveProducers
      split_ifs
      · exact ⟨_, rfl, by simp, fun h => nomatch h⟩
      · exact ⟨_, rfl, by simp, fun h => nomatch h⟩
  | cons p ps ih =>
      have ih := ih fun q hq => hps q (List.mem_cons_of_mem p hq)
      obtain ⟨record, hrecord⟩ := Option.isSome_iff_exists.mp (hps p List.mem_cons_self)
      have hmarked : ∃ marked, marksSource py id record = .ok marked ∧
          (marked = true ↔ Marks id (rowsRead py record)) := marksSource_eq hid
      obtain ⟨marked, hmarked, hmarks⟩ := hmarked
      -- a record that is not usable leaves the answer to the others
      have hskip (hnot : ¬ Usable py id record) (bare : List Json) :
          ∃ r, resolveProducers py id ctx all ps bare = .ok r ∧
            (r.availability = .available ↔ ∃ q ∈ p :: ps, ∃ record,
              dictGet q ctx.evidenceByTaskId = some record ∧ Usable py id record) ∧
            (r.availability = .available → Delivers id r) := by
        obtain ⟨r, hr, havailable, hdelivers⟩ := ih bare
        refine ⟨r, hr, havailable.trans ?_, hdelivers⟩
        simp [hrecord, hnot]
      unfold resolveProducers
      rw [hrecord]
      dsimp only
      rw [hmarked]
      cases marked with
      | false => exact hskip (fun h => Bool.false_ne_true (hmarks.mpr h.1)) bare
      | true =>
          change ∃ r, (materialRowsFor py id record >>= _) = _ ∧ _
          rw [materialRowsFor_eq]
          dsimp only [bind, Except.bind]
          have hsuffices : materialSuffices id (((observationsOf ("material:" ++ id)
              (rowsRead py record)).take maxMaterialListItems).map fun observation =>
                trimmed (parseKvObservation observation)) = true ↔ Usable py id record := by
            rw [materialSuffices_iff, Usable, and_iff_right (hmarks.mp rfl)]
            simp only [List.mem_map, exists_exists_and_eq_and, materialSuffices_trimmed]
          split_ifs with h
          · refine ⟨_, rfl, iff_of_true rfl ?_, fun _ => ⟨_, _, rfl, rfl, ?_⟩⟩
            · exact ⟨p, List.mem_cons_self, record, hrecord, hsuffices.mp h⟩
            · exact materialSuffices_iff.mp h
          · exact hskip (fun hu => h (hsuffices.mpr hu)) _

/-- What the resolver makes of producers that have run. -/
theorem resolveAssignmentProduced_available {task : AgentAssignment} (enforcing : Bool)
    {deps producers : List Json} (hid : sourceKind id = some .assignmentProduced)
    (hdeps : task.dependencies.iter = .ok deps)
    (hproducers : declaredProducers id ctx deps = .ok producers)
    (hrun : ∀ p ∈ producers, (dictGet p ctx.evidenceByTaskId).isSome) :
    ∃ r, resolveAssignmentProduced py id task ctx enforcing = .ok r ∧
      (r.availability = .available ↔ ∃ p ∈ producers, ∃ record,
        dictGet p ctx.evidenceByTaskId = some record ∧ Usable py id record) ∧
      (r.availability = .available → Delivers id r) := by
  have hsome : (sourceKind id).isSome := by
    rw [hid]
    rfl
  have hnone : producers.filter (fun p => (dictGet p ctx.evidenceByTaskId).isNone) = [] := by
    refine List.filter_eq_nil_iff.mpr ?_
    intro p hp
    rw [Option.isNone_iff_eq_none, ← ne_eq, Option.ne_none_iff_isSome]
    exact hrun p hp
  unfold resolveAssignmentProduced
  rw [hdeps]
  change ∃ r, (declaredProducers id ctx deps >>= _) = _ ∧ _
  rw [hproducers]
  dsimp only [bind, Except.bind]
  rw [hnone, if_neg (not_not.mpr rfl)]
  split_ifs with hempty
  · subst hempty
    exact ⟨_, rfl, by simp [missing], fun h => nomatch h⟩
  · exact resolveProducers_available hsome hrun []

/-- Some producer fulfils the source. -/
def SomeFulfils (py : Stdlib) (id : String) (ctx : ResolutionContext) (producers : List Json) :
    Prop :=
  ∃ p ∈ producers, ∃ record, dictGet p ctx.evidenceByTaskId = some record ∧ Fulfils py id record

/-- The resolver delivers the source exactly when some producer fulfils it, and then with a row
that the validator accepts. -/
structure Right (py : Stdlib) (id : String) (task : AgentAssignment) (ctx : ResolutionContext)
    (enforcing : Bool) (producers : List Json) : Prop where
  available_iff : (∃ r, resolveAssignmentProduced py id task ctx enforcing = .ok r ∧
    r.availability = .available) ↔ SomeFulfils py id ctx producers
  delivers : ∀ r, resolveAssignmentProduced py id task ctx enforcing = .ok r →
    r.availability = .available → Delivers id r

/-- If some producer fulfils the source, then one does within the bounds. -/
def Bounded (py : Stdlib) (id : String) (ctx : ResolutionContext) (producers : List Json) : Prop :=
  SomeFulfils py id ctx producers → ∃ p ∈ producers, ∃ record,
    dictGet p ctx.evidenceByTaskId = some record ∧ Fulfils py id record ∧
      WithinBounds py id record

/-- The resolver is right about producers that have run exactly when they keep to the bounds. -/
theorem produced_source_iff (py : Stdlib) (id : String) (task : AgentAssignment)
    (ctx : ResolutionContext) (enforcing : Bool) {deps producers : List Json}
    (hid : sourceKind id = some .assignmentProduced) (hdeps : task.dependencies.iter = .ok deps)
    (hproducers : declaredProducers id ctx deps = .ok producers)
    (hrun : ∀ p ∈ producers, (dictGet p ctx.evidenceByTaskId).isSome) :
    Right py id task ctx enforcing producers ↔ Bounded py id ctx producers := by
  have hresolved : ∃ r, resolveAssignmentProduced py id task ctx enforcing = .ok r ∧ _ ∧ _ :=
    resolveAssignmentProduced_available enforcing hid hdeps hproducers hrun
  obtain ⟨r, hr, havailable, hdelivers⟩ := hresolved
  have hget : (∃ r, resolveAssignmentProduced py id task ctx enforcing = .ok r ∧
      r.availability = .available) ↔ ∃ p ∈ producers, ∃ record,
        dictGet p ctx.evidenceByTaskId = some record ∧ Fulfils py id record ∧
          WithinBounds py id record := by
    simp only [hr, Except.ok.injEq, exists_eq_left', havailable, usable_iff]
  constructor
  · intro h hsome
    exact hget.mp (h.available_iff.mpr hsome)
  · intro h
    refine ⟨hget.trans ⟨?_, h⟩, ?_⟩
    · rintro ⟨p, hp, record, hrecord, hful, -⟩
      exact ⟨p, hp, record, hrecord, hful⟩
    · intro r' hr'
      cases hr.symm.trans hr'
      exact hdelivers

end Rows

/-! ### A sample producer -/

/-- A row of evidence. -/
def evidenceRow (source observation : String) : Json :=
  .obj [("source", .str source), ("observation", .str observation)]

theorem observationsOf_row (tag source observation : String) (rows : List Json) :
    observationsOf tag (evidenceRow source observation :: rows) =
      if source = tag then observation :: observationsOf tag rows else observationsOf tag rows := by
  have hsource : fieldOf [("source", .str source), ("observation", .str observation)] "source" =
      .str source := by
    simp [fieldOf, lookup]
  have hobservation : fieldOf [("source", .str source), ("observation", .str observation)]
      "observation" = .str observation := by
    simp [fieldOf, lookup]
  unfold observationsOf evidenceRow
  rw [List.filterMap_cons]
  dsimp only
  rw [hsource, hobservation]
  dsimp only
  split_ifs
  · rfl
  · rfl

/-- `source_id=implementation_diff` -/
def markerObservation : String :=
  String.ofList ("source_id".toList ++ '=' :: "implementation_diff".toList)

/-- The marker, ten material rows without a locator, and one with a locator. -/
def elevenRows : List Json :=
  evidenceRow "produced_source" markerObservation ::
    (List.replicate 10 (evidenceRow "material:implementation_diff" "fact=f") ++
      [evidenceRow "material:implementation_diff" "locator=x"])

/-- An output with these rows. -/
def elevenRowsText : List Char :=
  "\x7b\"outcome\":\"completed\",\"objective_satisfied\":true,".toList ++
  "\"summary\":\"s\",\"diagnostic\":null,\"review_outcome\":null,".toList ++
  "\"evidence\":[\x7b\"source\":\"produced_source\",".toList ++
  "\"observation\":\"source_id=implementation_diff\"\x7d,".toList ++
  (List.replicate 10
    ("\x7b\"source\":\"material:implementation_diff\",".toList ++
      "\"observation\":\"fact=f\"\x7d,".toList)).flatten ++
  "\x7b\"source\":\"material:implementation_diff\",".toList ++
  "\"observation\":\"locator=x\"\x7d]\x7d".toList

/-- A record of `t1` with an output. -/
def recordWith (output : String) : EvidenceRecord :=
  { ollamaRecord ⟨0⟩ ⟨0⟩ with output := output }

theorem recordWith_output (output : String) : (recordWith output).output = output := rfl

def elevenRowsRecord : EvidenceRecord := recordWith (String.ofList elevenRowsText)

/-- A task that depends on `t1`. -/
def testedTask : AgentAssignment :=
  { sampleAssignment "t2" "plan_approval" with dependencies := .arr [.str "t1"] }

/-- The family of `t1` declares `implementation_diff`. -/
def testedContext (record : EvidenceRecord) : ResolutionContext where
  planApprovalStatus := .str "approved"
  planAcceptanceCriteria := []
  userMissionRequest := none
  repoEvidencePack := none
  familyContracts := [(.str "python-implementation",
    .obj [("produces_sources", .arr [.str "implementation_diff"])])]
  taskFamilyById := [(.str "t1", .str "python-implementation")]
  evidenceByTaskId := [(.str "t1", record)]
  missionPlan := []
  excludedPaths := []
  capabilityRegistry := .null

theorem dictGet_testedContext (record : EvidenceRecord) :
    dictGet (.str "t1") (testedContext record).evidenceByTaskId = some record := by
  simp [dictGet, testedContext]

theorem declaredProducers_testedContext (record : EvidenceRecord) :
    declaredProducers "implementation_diff" (testedContext record) [.str "t1"] =
      .ok [.str "t1"] := by
  simp [declaredProducers, declares, testedContext, dictGet, Json.hashable, Json.get, Json.truthy,
    lookup, bind, Except.bind, pure, Except.pure]

theorem evidenceRows_elevenRows : evidenceRows completedStdlib elevenRowsRecord = elevenRows := by
  rw [evidenceRows, elevenRowsRecord, recordWith_output, PyStr.ofString, String.toList_ofList]
  decide +kernel

theorem observations_marker : observationsOf "produced_source" elevenRows =
    [markerObservation] := by
  have hother : "material:implementation_diff" ≠ "produced_source" := by simp
  have hrows (n : Nat) : observationsOf "produced_source"
      (List.replicate n (evidenceRow "material:implementation_diff" "fact=f") ++
        [evidenceRow "material:implementation_diff" "locator=x"]) = [] := by
    induction n with
    | zero =>
        rw [List.replicate_zero, List.nil_append, observationsOf_row, if_neg hother]
        rfl
    | succ n ih => rw [List.replicate_succ, List.cons_append, observationsOf_row, if_neg hother, ih]
  rw [elevenRows, observationsOf_row, if_pos rfl, hrows]

theorem observations_material : observationsOf ("material:" ++ "implementation_diff") elevenRows =
    List.replicate 10 "fact=f" ++ ["locator=x"] := by
  have hother : "produced_source" ≠ "material:" ++ "implementation_diff" := by simp
  have hsame : "material:implementation_diff" = "material:" ++ "implementation_diff" := by simp
  have hrows (n : Nat) : observationsOf ("material:" ++ "implementation_diff")
      (List.replicate n (evidenceRow "material:implementation_diff" "fact=f") ++
        [evidenceRow "material:implementation_diff" "locator=x"]) =
      List.replicate n "fact=f" ++ ["locator=x"] := by
    induction n with
    | zero =>
        rw [List.replicate_zero, List.nil_append, observationsOf_row, if_pos hsame]
        rfl
    | succ n ih =>
        rw [List.replicate_succ, List.cons_append, observationsOf_row, if_pos hsame, ih]
        rfl
  rw [elevenRows, observationsOf_row, if_neg hother, hrows]

theorem splitBar_eq {cs : List Char} (h : '|' ∉ cs) : splitBar cs = [cs] := by
  induction cs with
  | nil => rfl
  | cons c cs ih =>
      obtain ⟨hc, hcs⟩ := not_or.mp fun hmem => h (List.mem_cons.mpr hmem)
      rw [splitBar, if_neg (Ne.symm hc), ih hcs]

/-- An observation with one key and one value, neither with blanks around it. -/
theorem parseKvObservation_pair {key value : List Char} (hbar : '|' ∉ key ++ '=' :: value)
    (hsign : '=' ∉ key) (hkey : key ≠ [])
    (hstrip : stripChars key = key ∧ stripChars value = value ∧
      stripChars (key ++ '=' :: value) = key ++ '=' :: value) :
    parseKvObservation (String.ofList (key ++ '=' :: value)) =
      [(String.ofList key, String.ofList value)] := by
  have hall : ∀ c ∈ key, decide (c ≠ '=') = true := by
    intro c hc
    refine decide_eq_true ?_
    rintro rfl
    exact hsign hc
  have htake : (key ++ '=' :: value).takeWhile (· ≠ '=') = key := by
    rw [List.takeWhile_append_of_pos hall]
    simp
  have hdrop : ((key ++ '=' :: value).dropWhile (· ≠ '=')).drop 1 = value := by
    rw [List.dropWhile_append_of_pos hall]
    simp
  have hne : String.ofList key ≠ "" := by
    intro h
    exact hkey (String.ofList_injective h)
  unfold parseKvObservation
  rw [String.toList_ofList, splitBar_eq hbar]
  simp only [List.foldl_cons, List.foldl_nil, strip, String.toList_ofList, hstrip.2.2]
  rw [if_pos (List.mem_append_right _ List.mem_cons_self), htake, hdrop, hstrip.1, hstrip.2.1,
    if_neg hne]
  rfl

theorem parse_marker :
    parseKvObservation markerObservation = [("source_id", "implementation_diff")] := by
  have hpair : parseKvObservation
      (String.ofList ("source_id".toList ++ '=' :: "implementation_diff".toList)) = _ :=
    parseKvObservation_pair (by decide) (by decide) (by decide) (by decide)
  rwa [String.ofList_toList, String.ofList_toList] at hpair

theorem satisfies_locator : Satisfies "implementation_diff" "locator=x" := by
  unfold Satisfies
  decide +kernel

theorem not_satisfies_fact : ¬ Satisfies "implementation_diff" "fact=f" := by
  unfold Satisfies
  decide +kernel

theorem elevenRows_fulfils : Fulfils completedStdlib "implementation_diff" elevenRowsRecord where
  completed := rfl
  marked := by
    unfold Marks
    rw [evidenceRows_elevenRows, observations_marker]
    exact ⟨_, List.mem_singleton_self _, by rw [parse_marker]; rfl⟩
  material := by
    rw [evidenceRows_elevenRows, observations_material]
    exact ⟨_, List.mem_append_right _ (List.mem_singleton_self _), satisfies_locator⟩

theorem elevenRows_not_within :
    ¬ WithinBounds completedStdlib "implementation_diff" elevenRowsRecord := by
  rintro ⟨-, -, observation, hmem, hsat⟩
  rw [evidenceRows_elevenRows, observations_material] at hmem
  have hfact : observation ∈ List.replicate 10 "fact=f" := hmem
  exact not_satisfies_fact (List.eq_of_mem_replicate hfact ▸ hsat)

theorem hasRun_testedContext (record : EvidenceRecord) :
    ∀ p ∈ [Json.str "t1"], (dictGet p (testedContext record).evidenceByTaskId).isSome := by
  intro p hp
  rw [List.mem_singleton.mp hp, dictGet_testedContext]
  rfl

/-- The sample producer fulfils the source; the resolver is right if that is within the bounds. -/
theorem elevenRows_right_iff :
    SomeFulfils completedStdlib "implementation_diff" (testedContext elevenRowsRecord)
        [.str "t1"] ∧
      (Right completedStdlib "implementation_diff" testedTask (testedContext elevenRowsRecord) true
          [.str "t1"] ↔
        Bounded completedStdlib "implementation_diff" (testedContext elevenRowsRecord)
          [.str "t1"]) :=
  ⟨⟨_, List.mem_singleton_self _, _, dictGet_testedContext _, elevenRows_fulfils⟩,
    produced_source_iff completedStdlib "implementation_diff" testedTask _ true (by decide) rfl
      (declaredProducers_testedContext elevenRowsRecord) (hasRun_testedContext elevenRowsRecord)⟩

/-- The eleventh material row is not looked at. -/
theorem elevenRows_not_right :
    ¬ Right completedStdlib "implementation_diff" testedTask (testedContext elevenRowsRecord) true
      [.str "t1"] := by
  rintro ⟨hiff, -⟩
  obtain ⟨r, hr, havailable⟩ := hiff.mpr
    ⟨_, List.mem_singleton_self _, _, dictGet_testedContext _, elevenRows_fulfils⟩
  have hresolved : ∃ r, resolveAssignmentProduced completedStdlib "implementation_diff" testedTask
      (testedContext elevenRowsRecord) true = .ok r ∧ _ ∧ _ :=
    resolveAssignmentProduced_available true (by decide) rfl
      (declaredProducers_testedContext elevenRowsRecord) (hasRun_testedContext elevenRowsRecord)
  obtain ⟨r', hr', hiff, -⟩ := hresolved
  cases hr.symm.trans hr'
  obtain ⟨p, hp, record, hrecord, husable⟩ := hiff.mp havailable
  cases List.mem_singleton.mp hp
  cases (dictGet_testedContext _).symm.trans hrecord
  exact elevenRows_not_within (usable_iff.mp husable).2

end Konoha
