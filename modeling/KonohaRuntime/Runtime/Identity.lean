/-
Runtime/Identity.lean

What the identity of a plan says about it.

The fields of a plan that is read back from its file are values of `json.loads`.  A string in them
can have a lone surrogate, which `json.dumps` writes as it is and UTF-8 does not have, so that
`plan_identity` raises; and a plan can be nested too deep.  Of the plans without either (`Handled`)
the canonical text can be read back, so that it has every field but two (`canonicalText_eq_iff`).
`identifies_iff`: exactly these plans are identified by it.
-/
import KonohaRuntime.Base.Legible
import KonohaRuntime.Base.PyEq
import KonohaRuntime.Runtime.EvidenceFile
import KonohaRuntime.Runtime.PlanFile
import Mathlib.Data.List.Sort

namespace Konoha

open CodePoint PyJson Loads

/-! ### Values up to the order of their keys -/

section Canonical

variable {py : Stdlib}

/-- A text is the text of one value at most. -/
theorem dumps_injective {l : Json.Layout} (hl : Spaced l) {v w : PyJson} (hv : Fits py v)
    (hw : Fits py w) (h : dumps py l 0 v = dumps py l 0 w) : v = w := by
  -- the scanner may go as deep as the deeper one
  have hback := (scans_dumps py hl v (max v.nesting w.nesting) 0 (Nat.le_max_left _ _) hv).back []
    ends_nil
  have hback' := (scans_dumps py hl w (max v.nesting w.nesting) 0 (Nat.le_max_right _ _) hw).back []
    ends_nil
  rw [h] at hback
  exact (Prod.mk.inj (Except.ok.inj (hback.symm.trans hback'))).1

/-- **Two values have the same canonical text if and only if they are the same up to the order of
their keys.** -/
theorem dumps_sortKeys_eq_iff {v w : PyJson} (hv : Fits py v) (hw : Fits py w) :
    dumps py .compact 0 v.sortKeys = dumps py .compact 0 w.sortKeys ↔ v.sortKeys = w.sortKeys :=
  ⟨dumps_injective spaced_compact ((fits_sortKeys_iff py v).mpr hv) ((fits_sortKeys_iff py w).mpr hw),
    fun h => congrArg _ h⟩

theorem encodeSorted_eq_ok {depth : Nat} {l : Json.Layout} {v : PyJson} {text : String} :
    encodeSorted py depth l v = .ok text ↔
      Writable py depth v ∧ dumps py l 0 v.sortKeys = .ofString text := by
  rw [encodeSorted_eq_ok_iff]
  refine and_congr_right fun h => ?_
  have htext : dumps py l 0 v.sortKeys = .ofString (Json.dumps py l 0 v.toJson.sortKeys) := by
    rw [← dumps_ofJson, ← sortKeys_ofJson, ofJson_toJson v h.legible]
  rw [htext, PyStr.ofString_injective.eq_iff, eq_comm]

/-- **Two dicts are the same up to the order of their keys if and only if they have the same
entries.** -/
theorem sortKeys_obj_eq_iff {kvs lvs : List (PyStr × PyJson)} (h : (kvs.map Prod.fst).Nodup) :
    sortKeys (.obj kvs) = sortKeys (.obj lvs) ↔ (sortKeysFields kvs).Perm (sortKeysFields lvs) := by
  have : Std.Total fun a b : PyStr × PyJson => keyLE a.1 b.1 = true :=
    ⟨fun a b => keyLE_total a.1 b.1⟩
  have : IsTrans (PyStr × PyJson) fun a b => keyLE a.1 b.1 = true := ⟨fun _ _ _ => keyLE_trans⟩
  have hkeys : (sortKeysFields kvs).map Prod.fst = kvs.map Prod.fst := by
    rw [sortKeysFields_eq_map, List.map_map]
    rfl
  have hsort (fields : List (PyStr × PyJson)) :=
    List.perm_insertionSort (fun a b : PyStr × PyJson => keyLE a.1 b.1 = true) fields
  constructor
  · intro heq
    have hsorted := (hsort (sortKeysFields kvs)).symm
    rw [obj.inj heq] at hsorted
    exact hsorted.trans (hsort _)
  · intro hperm
    have hboth := (hsort (sortKeysFields kvs)).trans (hperm.trans (hsort (sortKeysFields lvs)).symm)
    refine congrArg obj (hboth.eq_of_pairwise ?_ (List.pairwise_insertionSort _ _)
      (List.pairwise_insertionSort _ _))
    intro a b ha hb hab hba
    -- keys that are the same are those of one entry
    have ha := (hsort _).mem_iff.mp ha
    have hb := hperm.mem_iff.mpr ((hsort _).mem_iff.mp hb)
    exact List.inj_on_of_nodup_map (hkeys ▸ h) ha hb (keyLE_antisymm hab hba)

theorem sortKeys_eq_null_iff {v : PyJson} : sortKeys v = .null ↔ v = .null := by
  cases v <;> simp [sortKeys]

end Canonical

/-! ### Plans -/

/-- How many levels of nesting the stack has room for. -/
structure Room where
  /-- in `asdict` -/
  copy : Nat
  /-- in `json.dumps` -/
  dumps : Nat
  /-- in `json.dumps` with an `indent` -/
  indented : Nat

/-- A plan whose fields are values of `json.loads`.  A data class has its fields by their names. -/
structure PlanRecord where
  missionId : String
  assignments : List (String → PyJson)
  /-- `getattr(plan, name)`, for another field -/
  value : String → PyJson

namespace PlanRecord

/-- `fields(MissionPlan)` -/
def fieldNames : List String := MissionPlan.mandatoryNames ++ MissionPlan.optionalNames

/-- `asdict(assignment)` -/
def assignmentDict (a : String → PyJson) : PyJson :=
  .obj (AgentAssignment.fieldNames.map fun name => (.ofString name, a name))

/-- A field in `asdict(plan)` -/
def field (p : PlanRecord) (name : String) : PyJson :=
  if name = "mission_id" then .str (.ofString p.missionId)
  else if name = "assignments" then .arr (p.assignments.map assignmentDict)
  else p.value name

/-- `asdict(plan)`, in the order of the data class -/
def asdict (p : PlanRecord) : List (PyStr × PyJson) :=
  fieldNames.map fun name => (.ofString name, p.field name)

/-- `asdict(plan)`, which copies the fields at every level -/
def copied (room : Room) (p : PlanRecord) : Except PyExc (List (PyStr × PyJson)) :=
  if room.copy < nesting (.obj p.asdict) then
    .error (.recursionError "maximum recursion depth exceeded")
  else .ok p.asdict

/-! ### The identity -/

/-- The field is not popped in `plan_identity`. -/
def operative (p : PlanRecord) (name : String) : Bool :=
  !(name = "approval" || name = "plan_hash" ||
    MissionPlan.optionalNames.contains name && (p.field name).isNull)

/-- `raw` in `plan_identity` -/
def operativeFields (p : PlanRecord) : List (PyStr × PyJson) :=
  (fieldNames.filter p.operative).map fun name => (.ofString name, p.field name)

/-- `canonical.encode("utf-8")` in `plan_identity` -/
def canonicalText (py : Stdlib) (room : Room) (p : PlanRecord) : Except PyExc String := do
  let _ ← p.copied room
  encodeSorted py room.dumps .compact (.obj p.operativeFields)

/-- `plan_identity` -/
def planIdentity (py : Stdlib) (room : Room) (p : PlanRecord) : Except PyExc Digest := do
  let canonical ← p.canonicalText py room
  return py.sha256 canonical

/-! ### The file -/

/-- `json.dumps(raw, ensure_ascii=False, indent=2)` -/
def dumpsIndented (py : Stdlib) (depth : Nat) (v : PyJson) : Except PyExc PyStr :=
  if depth < nesting v then .error (.recursionError "maximum recursion depth exceeded")
  else if intsFit py.interpreter v then .ok (dumps py .indented 0 v)
  else .error (.valueError "Exceeds the limit for integer string conversion")

/-- `_persist_plan`: what the file holds then -/
def persistPlan (py : Stdlib) (room : Room) (p : PlanRecord) : Except PyExc ByteArray := do
  let raw ← p.copied room
  let text ← dumpsIndented py room.indented (.obj raw)
  let encoded ← text.encode
  return encoded.toUTF8

/-- `set(raw) - plan_fields` and `(plan_fields - optional_fields) - set(raw)` are empty. -/
def fieldsMatch (kvs : List (PyStr × PyJson)) : Bool :=
  kvs.all (fun kv => fieldNames.any fun name => kv.1 = .ofString name) &&
    MissionPlan.mandatoryNames.all fun name => kvs.any fun kv => kv.1 = .ofString name

/-- One entry of `"assignments"`. -/
def parseAssignment (py : Stdlib) (missionId : String) : PyJson → Except PyExc (String → PyJson)
  | .obj kvs =>
      if hasKeys AgentAssignment.fieldNames kvs then .ok (PyJson.field kvs)
      else .error (.missionLookupError
        ("plan.json con assignment incompatible con AgentAssignment para "
          ++ py.repr (.str missionId)))
  | _ => .error (.missionLookupError
      ("plan.json con assignment incompatible con AgentAssignment para "
        ++ py.repr (.str missionId)))

/-- `load_persisted_plan`, from the parsed file on; a field that is missing is `None`. -/
def parse (py : Stdlib) (missionId : String) : PyJson → Except PyExc PlanRecord
  | .obj kvs =>
      if fieldsMatch kvs then
        match PyJson.field kvs "assignments" with
        | .arr items => do
            let assignments ← items.mapM (parseAssignment py missionId)
            if (PyJson.field kvs "mission_id").is missionId then
              return ⟨missionId, assignments, PyJson.field kvs⟩
            else throw (.missionLookupError
              ("plan.json mission_id=" ++ py.repr (PyJson.field kvs "mission_id").toJson
                ++ " no coincide con " ++ py.repr (.str missionId)))
        | _ => .error (.missionLookupError
            ("plan.json 'assignments' no es una lista para " ++ py.repr (.str missionId)))
      else .error (.missionLookupError
        ("plan.json con campos incompatibles con MissionPlan para " ++ py.repr (.str missionId)))
  | _ => .error (.missionLookupError
      ("plan.json no es un objeto para " ++ py.repr (.str missionId)))

/-- `load_persisted_plan`, of a file with this content -/
def loadPersistedPlan (py : Stdlib) (missionId : String) (content : ByteArray) :
    Except PyExc PlanRecord :=
  let unreadable := .error (.missionLookupError
    ("plan.json ilegible o corrupto para " ++ py.repr (.str missionId)))
  match readText content with
  | none => unreadable
  | some text =>
      match loads py.interpreter text with
      | .ok raw => parse py missionId raw
      | .error .decode => unreadable
      | .error e => .error e.exc

/-! ### What has the same identity -/

variable {py : Stdlib} {room : Room} {p q : PlanRecord}

/-- The plans have the same in every field but the approval and the hash, up to the order of keys. -/
def Agree (p q : PlanRecord) : Prop :=
  ∀ name ∈ fieldNames, name ≠ "approval" → name ≠ "plan_hash" →
    sortKeys (p.field name) = sortKeys (q.field name)

/-- A plan as `json.loads` can have built it. -/
structure Reloaded (py : Stdlib) (p : PlanRecord) : Prop where
  fits : Fits py (.obj p.asdict)
  nesting : nesting (.obj p.asdict) ≤ py.interpreter.depth

/-- A plan without lone surrogates, for which the stack has room. -/
structure Handled (room : Room) (p : PlanRecord) : Prop where
  legible : Legible (.obj p.asdict)
  copy : nesting (.obj p.asdict) ≤ room.copy
  dumps : nesting (.obj p.operativeFields) ≤ room.dumps
  indented : nesting (.obj p.asdict) ≤ room.indented

theorem isNull_eq_false_iff {v : PyJson} : v.isNull = false ↔ v ≠ .null := by
  rw [Ne, ← isNull_iff, Bool.not_eq_true]

theorem operative_iff {name : String} : p.operative name = true ↔
    name ≠ "approval" ∧ name ≠ "plan_hash" ∧
      (name ∈ MissionPlan.optionalNames → p.field name ≠ .null) := by
  simp only [operative, Bool.not_eq_true', Bool.or_eq_false_iff, decide_eq_false_iff_not,
    Bool.and_eq_false_iff, List.contains_eq_mem, isNull_eq_false_iff]
  constructor
  · rintro ⟨⟨happroval, hhash⟩, hoptional⟩
    exact ⟨happroval, hhash, fun hmem => hoptional.resolve_left fun h => h hmem⟩
  · rintro ⟨happroval, hhash, hoptional⟩
    by_cases hmem : name ∈ MissionPlan.optionalNames
    · exact ⟨⟨happroval, hhash⟩, .inr (hoptional hmem)⟩
    · exact ⟨⟨happroval, hhash⟩, .inl hmem⟩

theorem nodup_fieldNames : fieldNames.Nodup := by decide +kernel

theorem sublist_operativeFields (p : PlanRecord) : p.operativeFields.Sublist p.asdict :=
  List.filter_sublist.map _

theorem nodup_asdict (p : PlanRecord) : (p.asdict.map Prod.fst).Nodup := by
  rw [asdict, List.map_map]
  exact nodup_fieldNames.map PyStr.ofString_injective

theorem nodup_operativeFields (p : PlanRecord) : (p.operativeFields.map Prod.fst).Nodup :=
  (nodup_asdict p).sublist ((sublist_operativeFields p).map _)

theorem fits_operativeFields (h : Fits py (.obj p.asdict)) : Fits py (.obj p.operativeFields) :=
  ⟨nodup_operativeFields p, (fitsFields_iff py).mpr fun kv hkv =>
    (fitsFields_iff py).mp h.2 kv ((sublist_operativeFields p).subset hkv)⟩

theorem legible_operativeFields (h : Legible (.obj p.asdict)) : Legible (.obj p.operativeFields) :=
  legible_obj_iff.mpr fun kv hkv => legible_obj_iff.mp h kv ((sublist_operativeFields p).subset hkv)

theorem nesting_operativeFields_le (p : PlanRecord) :
    nesting (.obj p.operativeFields) ≤ nesting (.obj p.asdict) := by
  have hall := nestingFields_le_iff.mp (le_refl (nestingFields p.asdict))
  exact nesting_obj_le_iff.mpr fun kv hkv => hall kv ((sublist_operativeFields p).subset hkv)

/-- The fields that are hashed, with sorted values. -/
theorem mem_sortKeysFields_operative {kv : PyStr × PyJson} :
    kv ∈ sortKeysFields p.operativeFields ↔ ∃ name ∈ fieldNames, p.operative name = true ∧
      kv = (.ofString name, sortKeys (p.field name)) := by
  rw [sortKeysFields_eq_map, operativeFields, List.map_map, List.mem_map]
  simp only [List.mem_filter, and_assoc, Function.comp_apply, eq_comm]

theorem Agree.symm (h : Agree p q) : Agree q p :=
  fun name hmem happroval hhash => (h name hmem happroval hhash).symm

/-- Plans that agree leave out the same. -/
theorem Agree.mem (h : Agree p q) {kv : PyStr × PyJson}
    (hkv : kv ∈ sortKeysFields p.operativeFields) : kv ∈ sortKeysFields q.operativeFields := by
  obtain ⟨name, hmem, hoperative, rfl⟩ := mem_sortKeysFields_operative.mp hkv
  obtain ⟨happroval, hhash, hoptional⟩ := operative_iff.mp hoperative
  have hsame := h name hmem happroval hhash
  refine mem_sortKeysFields_operative.mpr ⟨name, hmem, operative_iff.mpr ⟨happroval, hhash, ?_⟩,
    by rw [hsame]⟩
  intro hname hnull
  rw [hnull] at hsame
  exact hoptional hname (sortKeys_eq_null_iff.mp hsame)

/-- **What is hashed is the same up to the order of keys if and only if the plans agree.** -/
theorem sortKeys_operativeFields_eq_iff :
    sortKeys (.obj p.operativeFields) = sortKeys (.obj q.operativeFields) ↔ Agree p q := by
  have hnodup (p : PlanRecord) : (sortKeysFields p.operativeFields).Nodup := by
    refine List.Nodup.of_map Prod.fst ?_
    rw [sortKeysFields_eq_map, List.map_map]
    exact nodup_operativeFields p
  rw [sortKeys_obj_eq_iff (nodup_operativeFields p),
    List.perm_ext_iff_of_nodup (hnodup p) (hnodup q)]
  constructor
  · intro hall name hmem happroval hhash
    have hvalue {p q : PlanRecord}
        (hall : ∀ kv, kv ∈ sortKeysFields p.operativeFields ↔ kv ∈ sortKeysFields q.operativeFields)
        (hoperative : p.operative name = true) :
        q.operative name = true ∧ sortKeys (p.field name) = sortKeys (q.field name) := by
      obtain ⟨name', -, hoperative', heq⟩ := mem_sortKeysFields_operative.mp
        ((hall _).mp (mem_sortKeysFields_operative.mpr ⟨name, hmem, hoperative, rfl⟩))
      obtain ⟨hname, hsame⟩ := Prod.mk.inj heq
      obtain rfl := PyStr.ofString_injective hname
      exact ⟨hoperative', hsame⟩
    have hnull {p : PlanRecord} (hnot : p.operative name ≠ true) : p.field name = .null := by
      by_contra hne
      exact hnot (operative_iff.mpr ⟨happroval, hhash, fun _ => hne⟩)
    by_cases hp : p.operative name = true
    · exact (hvalue hall hp).2
    · by_cases hq : q.operative name = true
      · exact absurd (hvalue (fun kv => (hall kv).symm) hq).1 hp
      · rw [hnull hp, hnull hq]
  · exact fun h kv => ⟨h.mem, h.symm.mem⟩

/-! ### Reading a plan back -/

theorem field_map {names : List String} (f : String → PyJson) {name : String} (h : name ∈ names) :
    PyJson.field (names.map fun name => (.ofString name, f name)) name = f name := by
  induction names with
  | nil => cases h
  | cons other names ih =>
      by_cases heq : other = name
      · simp [PyJson.field, heq]
      · have hne : PyStr.ofString other ≠ .ofString name := fun h => heq (PyStr.ofString_injective h)
        have hrest := ih ((List.mem_cons.mp h).resolve_left fun h => heq h.symm)
        rw [PyJson.field] at hrest ⊢
        rw [List.map_cons, List.find?_cons_of_neg (by simpa using hne)]
        exact hrest

theorem hasKeys_map (names : List String) (f : String → PyJson) :
    hasKeys names (names.map fun name => (.ofString name, f name)) = true := by
  rw [hasKeys, Bool.and_eq_true, List.all_map, List.all_eq_true, List.all_eq_true]
  constructor
  · intro name hmem
    exact List.any_eq_true.mpr ⟨name, hmem, decide_eq_true rfl⟩
  · intro name hmem
    rw [List.any_map]
    exact List.any_eq_true.mpr ⟨name, hmem, decide_eq_true rfl⟩

theorem mandatory_mem {name : String} (h : name ∈ MissionPlan.mandatoryNames) : name ∈ fieldNames :=
  List.mem_append_left _ h

theorem fieldsMatch_asdict (p : PlanRecord) : fieldsMatch p.asdict = true := by
  have hkeys := hasKeys_map fieldNames p.field
  rw [hasKeys, Bool.and_eq_true] at hkeys
  rw [fieldsMatch, Bool.and_eq_true]
  exact ⟨hkeys.1, List.all_eq_true.mpr fun name hmem =>
    List.all_eq_true.mp hkeys.2 name (mandatory_mem hmem)⟩

theorem assignmentDict_field (a : String → PyJson) : assignmentDict (PyJson.field
    (AgentAssignment.fieldNames.map fun name => (.ofString name, a name))) = assignmentDict a :=
  congrArg obj (List.map_congr_left fun name hmem => by rw [field_map a hmem])

theorem mapM_parseAssignment (missionId : String) (as : List (String → PyJson)) : ∃ as',
    (as.map assignmentDict).mapM (parseAssignment py missionId) = .ok as' ∧
      as'.map assignmentDict = as.map assignmentDict := by
  induction as with
  | nil => exact ⟨[], rfl, rfl⟩
  | cons a as ih =>
      obtain ⟨as', hok, heq⟩ := ih
      refine ⟨PyJson.field (AgentAssignment.fieldNames.map fun name => (.ofString name, a name)) ::
        as', ?_, ?_⟩
      · rw [List.map_cons, List.mapM_cons, assignmentDict, parseAssignment,
          if_pos (hasKeys_map _ a), hok]
        rfl
      · rw [List.map_cons, List.map_cons, heq, assignmentDict_field]

/-- The dict of a plan is read as a plan with that dict. -/
theorem parse_asdict (p : PlanRecord) :
    ∃ p', parse py p.missionId (.obj p.asdict) = .ok p' ∧ p'.asdict = p.asdict := by
  have hassignments : PyJson.field p.asdict "assignments" = .arr (p.assignments.map assignmentDict) :=
    field_map p.field (by decide)
  have hid : PyJson.field p.asdict "mission_id" = .str (.ofString p.missionId) :=
    field_map p.field (by decide)
  obtain ⟨as', hok, heq⟩ := @mapM_parseAssignment py p.missionId p.assignments
  refine ⟨⟨p.missionId, as', PyJson.field p.asdict⟩, ?_, ?_⟩
  · simp only [parse, fieldsMatch_asdict, if_true, hassignments, hok, hid, PyJson.is, bind,
      Except.bind]
    simp [pure, Except.pure]
  · -- the mission id and the assignments are fields of their own
    refine List.map_congr_left fun name hmem => ?_
    have hvalue : PyJson.field p.asdict name = p.field name := field_map p.field hmem
    unfold field at hvalue ⊢
    dsimp only
    split_ifs with hmission hassigned
    · rfl
    · rw [heq]
    · rw [hvalue, if_neg hmission, if_neg hassigned]

theorem field_of_asdict {p' : PlanRecord} (h : p'.asdict = p.asdict) :
    ∀ name ∈ fieldNames, p'.field name = p.field name := by
  intro name hmem
  rw [← field_map p'.field hmem, ← field_map p.field hmem]
  exact congrArg (PyJson.field · name) h

/-- What is hashed is a matter of the dict. -/
theorem operativeFields_of_asdict {p' : PlanRecord} (h : p'.asdict = p.asdict) :
    p'.operativeFields = p.operativeFields := by
  have hfield := field_of_asdict h
  have hfilter : fieldNames.filter p'.operative = fieldNames.filter p.operative :=
    List.filter_congr fun name hmem => by rw [operative, operative, hfield name hmem]
  rw [operativeFields, operativeFields, hfilter]
  exact List.map_congr_left fun name hmem => by rw [hfield name (List.mem_of_mem_filter hmem)]

theorem planIdentity_of_asdict {p' : PlanRecord} (h : p'.asdict = p.asdict) :
    planIdentity py room p' = planIdentity py room p := by
  rw [planIdentity, planIdentity, canonicalText, canonicalText, copied, copied, h,
    operativeFields_of_asdict h]

theorem field_append_null (kvs : List (PyStr × PyJson)) (name : String) :
    PyJson.field (kvs ++ [(.ofString name, .null)]) = PyJson.field kvs := by
  funext key
  rw [PyJson.field, PyJson.field, List.find?_append]
  cases kvs.find? fun kv => kv.1 = .ofString key with
  | some kv => rfl
  | none =>
      by_cases hkey : PyStr.ofString name = .ofString key <;> simp [hkey]

/-- A plan file without one of the optional fields is read as one with a null there. -/
theorem parse_append_null (missionId : String) {name : String}
    (hname : name ∈ MissionPlan.optionalNames) (kvs : List (PyStr × PyJson)) :
    parse py missionId (.obj (kvs ++ [(.ofString name, .null)])) = parse py missionId (.obj kvs) := by
  have hknown : fieldNames.any (fun other => PyStr.ofString name = .ofString other) = true :=
    List.any_eq_true.mpr ⟨name, List.mem_append_right _ hname, decide_eq_true rfl⟩
  have hother : ∀ other ∈ MissionPlan.mandatoryNames, name ≠ other := by
    have hdisjoint : ∀ name ∈ MissionPlan.optionalNames, name ∉ MissionPlan.mandatoryNames := by
      decide +kernel
    rintro other hmem rfl
    exact hdisjoint name hname hmem
  have hmatch : fieldsMatch (kvs ++ [(.ofString name, .null)]) = fieldsMatch kvs := by
    rw [fieldsMatch, fieldsMatch, List.all_append, List.all_cons, List.all_nil, hknown,
      Bool.and_true, Bool.and_true]
    congr 1
    rw [Bool.eq_iff_iff, List.all_eq_true, List.all_eq_true]
    refine forall₂_congr fun other hmem => ?_
    have hne : PyStr.ofString name ≠ .ofString other := fun h =>
      hother other hmem (PyStr.ofString_injective h)
    simp [hne]
  simp only [parse, hmatch, field_append_null]

/-! ### The identity says everything but the approval -/

theorem copied_eq_ok_iff {kvs : List (PyStr × PyJson)} :
    p.copied room = .ok kvs ↔ nesting (.obj p.asdict) ≤ room.copy ∧ kvs = p.asdict := by
  unfold copied
  split_ifs with hdeep
  · simp [not_le.mpr hdeep]
  · simp [not_lt.mp hdeep, eq_comm]

/-- The canonical text is made if neither the copy nor the text is nested too deep, and no string in
it has a lone surrogate. -/
theorem canonicalText_eq_ok {text : String} :
    canonicalText py room p = .ok text ↔ nesting (.obj p.asdict) ≤ room.copy ∧
      Writable py room.dumps (.obj p.operativeFields) ∧
      PyJson.dumps py .compact 0 (sortKeys (.obj p.operativeFields)) = .ofString text := by
  rw [canonicalText, bind_eq_ok]
  simp only [copied_eq_ok_iff, encodeSorted_eq_ok, and_assoc, exists_and_left, exists_eq_left]

theorem dumpsIndented_eq_ok_iff {depth : Nat} {v : PyJson} {text : PyStr} :
    dumpsIndented py depth v = .ok text ↔
      nesting v ≤ depth ∧ intsFit py.interpreter v = true ∧ text = PyJson.dumps py .indented 0 v := by
  unfold dumpsIndented
  split_ifs with hdeep hints
  · simp [not_le.mpr hdeep]
  · simp [not_lt.mp hdeep, hints, eq_comm]
  · simp [hints]

theorem persistPlan_eq_ok {content : ByteArray} :
    persistPlan py room p = .ok content ↔ nesting (.obj p.asdict) ≤ room.copy ∧
      nesting (.obj p.asdict) ≤ room.indented ∧ intsFit py.interpreter (.obj p.asdict) = true ∧
      ∃ text : String, PyJson.dumps py .indented 0 (.obj p.asdict) = .ofString text ∧
        content = text.toUTF8 := by
  rw [persistPlan, bind_eq_ok]
  simp only [copied_eq_ok_iff, bind_eq_ok, dumpsIndented_eq_ok_iff, PyStr.encode_eq_ok_iff]
  constructor
  · rintro ⟨_, ⟨hcopy, rfl⟩, _, ⟨hindented, hints, rfl⟩, text, htext, hcontent⟩
    exact ⟨hcopy, hindented, hints, text, htext, (Except.ok.inj hcontent).symm⟩
  · rintro ⟨hcopy, hindented, hints, text, htext, rfl⟩
    exact ⟨_, ⟨hcopy, rfl⟩, _, ⟨hindented, hints, rfl⟩, text, htext, rfl⟩

/-- The identity of a plan is kept in its file. -/
def Kept (py : Stdlib) (room : Room) (p : PlanRecord) : Prop :=
  ∃ content p', persistPlan py room p = .ok content ∧
    loadPersistedPlan py p.missionId content = .ok p' ∧
    planIdentity py room p' = planIdentity py room p

theorem loadPersistedPlan_eq {missionId : String} {content : ByteArray} {text : PyStr} {raw : PyJson}
    (hread : readText content = some text) (hload : loads py.interpreter text = .ok raw) :
    loadPersistedPlan py missionId content = parse py missionId raw := by
  unfold loadPersistedPlan
  rw [hread]
  dsimp only
  rw [hload]

theorem kept_of_handled (hp : Reloaded py p) (h : Handled room p) : Kept py room p := by
  have hsurrogate : ¬ HasSurrogate (PyJson.dumps py .indented 0 (.obj p.asdict)) :=
    fun hs => (hasSurrogate_dumps_iff py .indented _ 0).mp hs h.legible
  obtain ⟨text, htext⟩ := encode_eq_ok hsurrogate
  rw [PyStr.encode_eq_ok_iff] at htext
  -- reading translates line ends, but the text has no carriage return
  have hreturn : '\r' ∉ text.toList := by
    intro hmem
    have hmem' : scalar '\r' ∈ PyStr.ofString text := List.mem_map_of_mem hmem
    rw [← htext] at hmem'
    exact notMem_dumps py returnless_indented _ 0 hp.fits hmem'
  have hread := readText_written hreturn
  rw [String.ofList_toList] at hread
  have hload := @loads_dumps _ _ spaced_indented _ hp.nesting hp.fits [] (by simp)
  rw [List.append_nil, htext] at hload
  obtain ⟨p', hparse, hasdict⟩ : ∃ p', parse py p.missionId (.obj p.asdict) = .ok p' ∧
    p'.asdict = p.asdict := parse_asdict p
  have hloaded : loadPersistedPlan py p.missionId text.toUTF8 = .ok p' := by
    rw [loadPersistedPlan_eq hread hload, hparse]
  exact ⟨text.toUTF8, p', persistPlan_eq_ok.mpr ⟨h.copy, h.indented,
    ((fits_iff py _).mp hp.fits).2, text, htext, rfl⟩, hloaded, planIdentity_of_asdict hasdict⟩

/-- The plan with another approval and another hash: approved, rejected or resealed. -/
def decided (p : PlanRecord) (approval planHash : PyJson) : PlanRecord :=
  { p with
    value := fun name =>
      if name = "approval" then approval else if name = "plan_hash" then planHash else p.value name }

theorem operativeFields_decided (p : PlanRecord) (approval planHash : PyJson) :
    (p.decided approval planHash).operativeFields = p.operativeFields := by
  have hfield {name : String} (happroval : name ≠ "approval") (hhash : name ≠ "plan_hash") :
      (p.decided approval planHash).field name = p.field name := by
    simp only [field, decided, if_neg happroval, if_neg hhash]
  have hoperative : (p.decided approval planHash).operative = p.operative := by
    funext name
    by_cases happroval : name = "approval"
    · simp [operative, happroval]
    · by_cases hhash : name = "plan_hash"
      · simp [operative, hhash]
      · rw [operative, operative, hfield happroval hhash]
  rw [operativeFields, operativeFields, hoperative]
  refine List.map_congr_left fun name hmem => ?_
  obtain ⟨happroval, hhash, -⟩ := operative_iff.mp (List.mem_filter.mp hmem).2
  rw [hfield happroval hhash]

/-- What the identity of plans is worth. -/
structure Identifies (py : Stdlib) (room : Room) (p q : PlanRecord) : Prop where
  texts : ∃ text text', canonicalText py room p = .ok text ∧ canonicalText py room q = .ok text' ∧
    (text = text' ↔ Agree p q) ∧
    -- if the digests of the two texts do not collide
    ((py.sha256 text = py.sha256 text' → text = text') →
      (planIdentity py room p = planIdentity py room q ↔ Agree p q))
  decided : ∀ approval planHash,
    nesting (.obj (p.decided approval planHash).asdict) ≤ room.copy →
    planIdentity py room (p.decided approval planHash) = planIdentity py room p
  reloaded : Kept py room p ∧ Kept py room q
  omitted : ∀ name ∈ MissionPlan.optionalNames, ∀ kvs,
    parse py p.missionId (.obj (kvs ++ [(.ofString name, .null)])) = parse py p.missionId (.obj kvs)

theorem writable_of_handled (hp : Reloaded py p) (h : Handled room p) :
    Writable py room.dumps (.obj p.operativeFields) where
  legible := legible_operativeFields h.legible
  nesting := h.dumps
  ints := ((fits_iff py _).mp (fits_operativeFields hp.fits)).2

/-- **The canonical texts of two plans are equal if and only if the plans agree.** -/
theorem canonicalText_eq_iff (hp : Reloaded py p) (hq : Reloaded py q) {text text' : String}
    (htext : canonicalText py room p = .ok text) (htext' : canonicalText py room q = .ok text') :
    text = text' ↔ Agree p q := by
  obtain ⟨-, -, htext⟩ := canonicalText_eq_ok.mp htext
  obtain ⟨-, -, htext'⟩ := canonicalText_eq_ok.mp htext'
  rw [← sortKeys_operativeFields_eq_iff, ← dumps_sortKeys_eq_iff (fits_operativeFields hp.fits)
    (fits_operativeFields hq.fits), htext, htext', PyStr.ofString_injective.eq_iff]

theorem planIdentity_eq_ok {text : String} (htext : canonicalText py room p = .ok text) :
    planIdentity py room p = .ok (py.sha256 text) := by
  rw [planIdentity, htext]
  rfl

theorem exists_canonicalText (hp : Reloaded py p) (h : Handled room p) :
    ∃ text, canonicalText py room p = .ok text := by
  have hw := writable_of_handled hp h
  have hsurrogate : ¬ HasSurrogate
      (PyJson.dumps py .compact 0 (sortKeys (.obj p.operativeFields))) := by
    rw [hasSurrogate_dumps_iff, not_not, legible_sortKeys]
    exact hw.legible
  obtain ⟨text, hencoded⟩ := encode_eq_ok hsurrogate
  exact ⟨text, canonicalText_eq_ok.mpr ⟨h.copy, hw, PyStr.encode_eq_ok_iff.mp hencoded⟩⟩

/-- The text of the file has every field in it, also those that are not hashed. -/
theorem handled_of_kept {text : String} (htext : canonicalText py room p = .ok text)
    (hkept : Kept py room p) : Handled room p := by
  obtain ⟨hcopy, hwritable, -⟩ := canonicalText_eq_ok.mp htext
  obtain ⟨content, -, hpersist, -⟩ := hkept
  obtain ⟨-, hindented, -, text, hdumps, -⟩ := persistPlan_eq_ok.mp hpersist
  refine ⟨?_, hcopy, hwritable.nesting, hindented⟩
  by_contra hlegible
  rw [← hasSurrogate_dumps_iff py .indented _ 0, hdumps] at hlegible
  exact not_hasSurrogate_ofString text hlegible

/-- **The identity of a plan identifies everything in it but its approval and its hash, if and only if
its strings can be encoded and the stack has room for it.** -/
theorem identifies_iff (hp : Reloaded py p) (hq : Reloaded py q) :
    Identifies py room p q ↔ Handled room p ∧ Handled room q := by
  constructor
  · intro h
    obtain ⟨text, text', htext, htext', -⟩ := h.texts
    exact ⟨handled_of_kept htext h.reloaded.1, handled_of_kept htext' h.reloaded.2⟩
  · rintro ⟨h, h'⟩
    obtain ⟨text, htext₁⟩ := exists_canonicalText hp h
    obtain ⟨text', htext₂⟩ := exists_canonicalText hq h'
    have hagree := canonicalText_eq_iff hp hq htext₁ htext₂
    refine ⟨⟨text, text', htext₁, htext₂, hagree, fun hcollision => ?_⟩, ?_,
      ⟨kept_of_handled hp h, kept_of_handled hq h'⟩,
      fun name hname kvs => parse_append_null p.missionId hname kvs⟩
    · rw [planIdentity_eq_ok htext₁, planIdentity_eq_ok htext₂, ← hagree, Except.ok.injEq]
      exact ⟨hcollision, congrArg _⟩
    · intro approval planHash hcopy
      rw [planIdentity, planIdentity, canonicalText, canonicalText,
        operativeFields_decided, copied_eq_ok_iff.mpr ⟨hcopy, rfl⟩, copied_eq_ok_iff.mpr ⟨h.copy, rfl⟩]
      rfl

/-! ### A plan without surrogates -/

/-- The plan of a run, with its fields as values of `json.loads`. -/
def ofPlan (m : MissionPlan) : PlanRecord where
  missionId := m.missionId
  assignments := m.assignments.map fun a name => ofJson ((Json.lookup name a.asdict).getD .null)
  value name := ofJson ((Json.lookup name m.asdict).getD .null)

theorem assignmentDict_ofJson (a : AgentAssignment) :
    assignmentDict (fun name => ofJson ((Json.lookup name a.asdict).getD .null)) =
      ofJson (.obj a.asdict) := rfl

theorem asdict_ofPlan (m : MissionPlan) : (ofPlan m).asdict = ofJsonFields m.asdict := by
  have hassignments : ∀ as : List AgentAssignment,
      (as.map fun a name => ofJson ((Json.lookup name a.asdict).getD .null)).map assignmentDict =
        ofJsonList (as.map fun a => .obj a.asdict) := by
    intro as
    induction as with
    | nil => rfl
    | cons a as ih =>
        rw [List.map_cons, List.map_cons, List.map_cons, ofJsonList, ih, assignmentDict_ofJson]
  have hfield : (ofPlan m).field "assignments" =
      ofJson (.arr (m.assignments.map fun a => .obj a.asdict)) := congrArg arr (hassignments _)
  have hrest : ∀ name ∈ fieldNames, (ofPlan m).field name =
      ofJson ((Json.lookup name m.asdict).getD .null) := by
    intro name _
    by_cases hassigned : name = "assignments"
    · rw [hassigned, hfield]
      rfl
    · by_cases hid : name = "mission_id"
      · rw [hid]
        rfl
      · rw [field, if_neg hid, if_neg hassigned]
        rfl
  have hmap : (ofPlan m).asdict =
      fieldNames.map fun name => (.ofString name, ofJson ((Json.lookup name m.asdict).getD .null)) :=
    List.map_congr_left fun name hmem => by rw [hrest name hmem]
  rw [hmap]
  rfl

theorem operativeFields_ofPlan (m : MissionPlan) :
    (ofPlan m).operativeFields = ofJsonFields m.operativeFields := by
  have hnull (v : Json) : (ofJson v).isNull = decide (v = .null) := by
    cases v <;> rfl
  have hevidence : (ofPlan m).field "repository_evidence" = ofJson m.repositoryEvidence := rfl
  have hconstraints : (ofPlan m).field "mission_constraints" = ofJson m.missionConstraints := rfl
  let keep (name : String) : Bool := !(name = "approval" || name = "plan_hash" ||
    (name = "repository_evidence" && m.repositoryEvidence = .null) ||
    (name = "mission_constraints" && m.missionConstraints = .null))
  have hoperative (name : String) : (ofPlan m).operative name = keep name := by
    by_cases hname : name = "repository_evidence"
    · subst hname
      simp [keep, operative, hevidence, hnull, MissionPlan.optionalNames]
    · by_cases hname' : name = "mission_constraints"
      · subst hname'
        simp [keep, operative, hconstraints, hnull, MissionPlan.optionalNames]
      · simp [keep, operative, hname, hname', MissionPlan.optionalNames]
  have hfilter : ∀ kvs : List (String × Json),
      ((kvs.map Prod.fst).map fun name => (PyStr.ofString name, (ofPlan m).field name)) =
        kvs.map (fun kv => (.ofString kv.1, ofJson kv.2)) →
      (((kvs.map Prod.fst).filter keep).map fun name =>
          (PyStr.ofString name, (ofPlan m).field name)) =
        (kvs.filter fun kv => keep kv.1).map fun kv => (.ofString kv.1, ofJson kv.2) := by
    intro kvs heq
    induction kvs with
    | nil => rfl
    | cons kv kvs ih =>
        obtain ⟨hhead, htail⟩ := List.cons.inj heq
        rw [List.map_cons, List.filter_cons, List.filter_cons]
        split_ifs
        · rw [List.map_cons, List.map_cons, ih htail]
          exact congrArg (· :: _) hhead
        · exact ih htail
  have hall := asdict_ofPlan m
  rw [ofJsonFields_eq_map] at hall
  rw [operativeFields, List.filter_congr fun name _ => hoperative name, ofJsonFields_eq_map]
  exact hfilter m.asdict hall

/-- **A plan without lone surrogates has the identity that a run gives it.** -/
theorem planIdentity_ofPlan {m : MissionPlan} (hp : Reloaded py (ofPlan m))
    (h : Handled room (ofPlan m)) :
    planIdentity py room (ofPlan m) = .ok (Konoha.planIdentity py m) := by
  have htext : canonicalText py room (ofPlan m) = .ok (Json.canonical py (.obj m.operativeFields)) := by
    rw [canonicalText, copied_eq_ok_iff.mpr ⟨h.copy, rfl⟩]
    change encodeSorted py room.dumps .compact (.obj (ofPlan m).operativeFields) = _
    refine encodeSorted_eq_ok_iff.mpr ⟨writable_of_handled hp h, ?_⟩
    rw [operativeFields_ofPlan]
    exact congrArg (fun v => Json.dumps py .compact 0 (Json.sortKeys v)) (toJson_ofJson _).symm
  rw [planIdentity, htext]
  rfl

/-! ### Two plans, and one with a surrogate -/

/-- A plan of so many tokens. -/
def plainPlan (tokens : Int) (status : String) : MissionPlan where
  missionId := "mission-a"
  understanding := .str "u"
  explicitFacts := .arr []
  missingContext := .arr []
  assumptionsProhibited := .arr []
  complexity := .str "low"
  assignments := []
  acceptanceCriteria := .arr []
  approvalBoundaries := .arr []
  estimatedTokens := .int tokens
  estimatedCostClass := .str "low"
  rationale := .str "r"
  approval := .obj [("status", .str status)]
  teachbackPolicy := .str "disabled"
  workspacePolicy := .obj []
  budget := .obj []
  governance := .obj []
  planHash := .str ""
  missionConstraints := .null
  repositoryEvidence := .null

def plainRoom : Room := ⟨300, 1000, 300⟩

/-- Without floats, and with the digests of two texts. -/
def identityStdlib : Stdlib where
  sha256 text :=
    -- the estimate of the one plan
    if "\"estimated_tokens\":1,".toList <:+: text.toList then
      ⟨"3450784df41a08c9d4da169bd6189beec6fca05fd68ea2930c4f8f41a84b8017",
        isHex_ofList (by decide +kernel)⟩
    else
      ⟨"3f0234648293d6903f49665fd7e5e30873f5f2075fdf9be5b3ef1cdc630b246f",
        isHex_ofList (by decide +kernel)⟩
  floatRepr _ := "0.0"
  lower := fun s => s
  format _ := "None"
  repr _ := "''"
  interpreter := usualInterpreter

theorem reloaded_plainPlan {m : MissionPlan} (hregular : isRegular (ofJson (.obj m.asdict)) = true)
    (hints : (ofJson (.obj m.asdict)).intsFit usualInterpreter = true)
    (hnesting : nesting (ofJson (.obj m.asdict)) ≤ 300) :
    Reloaded identityStdlib (ofPlan m) := by
  have hdict : obj (ofPlan m).asdict = ofJson (.obj m.asdict) := congrArg obj (asdict_ofPlan m)
  refine ⟨?_, ?_⟩
  · rw [hdict]
    exact (fits_iff _ _).mpr ⟨regular_of_isRegular _ _ hregular, hints⟩
  · rw [hdict]
    exact hnesting.trans (by decide)

theorem handled_plainPlan {m : MissionPlan} (hnesting : nesting (ofJson (.obj m.asdict)) ≤ 300) :
    Handled plainRoom (ofPlan m) := by
  have hdict : obj (ofPlan m).asdict = ofJson (.obj m.asdict) := congrArg obj (asdict_ofPlan m)
  rw [← hdict] at hnesting
  refine ⟨?_, hnesting, ?_, hnesting⟩
  · rw [hdict]
    exact legible_ofJson _
  · exact (nesting_operativeFields_le _).trans (hnesting.trans (by decide))

/-- Another number of tokens makes another plan, an approval does not. -/
theorem plainPlan_identified : Identifies identityStdlib plainRoom
    (ofPlan (plainPlan 1 "pending")) (ofPlan (plainPlan 2 "approved")) :=
  (identifies_iff (reloaded_plainPlan (by decide +kernel) (by decide +kernel) (by decide +kernel))
    (reloaded_plainPlan (by decide +kernel) (by decide +kernel) (by decide +kernel))).mpr
      ⟨handled_plainPlan (by decide +kernel), handled_plainPlan (by decide +kernel)⟩

/-- A plan file with the escape of a lone surrogate. -/
def surrogateFile : List Char :=
  ["\x7b\"mission_id\":\"mission-a\",".toList, "\"understanding\":\"\\ud800\",".toList,
    "\"explicit_facts\":[],".toList, "\"missing_context\":[],".toList,
    "\"assumptions_prohibited\":[],".toList, "\"complexity\":\"low\",".toList,
    "\"assignments\":[],".toList, "\"acceptance_criteria\":[],".toList,
    "\"approval_boundaries\":[],".toList, "\"estimated_tokens\":1,".toList,
    "\"estimated_cost_class\":\"low\",".toList, "\"rationale\":\"r\",".toList,
    "\"approval\":\x7b\"status\":\"pending\"\x7d,".toList,
    "\"teachback_policy\":\"disabled\",".toList, "\"workspace_policy\":\x7b\x7d,".toList,
    "\"budget\":\x7b\x7d,".toList, "\"governance\":\x7b\x7d,".toList,
    "\"plan_hash\":\"\"\x7d".toList].flatten

/-- A plan as it can be read, with a surrogate in a field that is hashed. -/
def hasSurrogateField (p : PlanRecord) : Bool :=
  isRegular (.obj p.asdict) && intsFit usualInterpreter (.obj p.asdict) &&
    decide (nesting (.obj p.asdict) ≤ 300) && p.operative "understanding" &&
    match p.field "understanding" with
    | .str s => s.any fun point => point == .ofNat 0xd800
    | _ => false

theorem surrogateFile_read :
    ((loads identityStdlib.interpreter (surrogateFile.map scalar)).toOption.any
    fun raw => (parse identityStdlib "mission-a" raw).toOption.any hasSurrogateField) = true := by
  decide +kernel

/-- The text of such a plan cannot be encoded. -/
theorem not_legible_of_hasSurrogateField (h : hasSurrogateField p = true) :
    ¬ Legible (.obj p.operativeFields) := by
  obtain ⟨⟨-, hoperative⟩, hfield⟩ := (Bool.and_eq_true _ _).mp h |>.imp_left (Bool.and_eq_true _ _).mp
  intro hlegible
  have hvalue := (legible_obj_iff.mp hlegible (.ofString "understanding", p.field "understanding")
    (List.mem_map.mpr ⟨_, List.mem_filter.mpr ⟨by decide, hoperative⟩, rfl⟩)).2
  cases hunderstanding : p.field "understanding" with
  | str s =>
      rw [hunderstanding] at hfield hvalue
      obtain ⟨point, hmem, hpoint⟩ := List.any_eq_true.mp hfield
      rw [beq_iff_eq.mp hpoint] at hmem
      exact hvalue ⟨_, hmem⟩
  | _ =>
      rw [hunderstanding] at hfield
      cases hfield

/-- **A plan that is read back may have no identity.** -/
theorem surrogateFile_unidentified : ∃ p,
    loadPersistedPlan identityStdlib "mission-a" (String.ofList surrogateFile).toUTF8 = .ok p ∧
      Reloaded identityStdlib p ∧ (∀ digest, planIdentity identityStdlib plainRoom p ≠ .ok digest) ∧
      ¬ Identifies identityStdlib plainRoom p p := by
  have hreturn : '\r' ∉ surrogateFile := by decide +kernel
  have hchecked := surrogateFile_read
  cases hraw : loads identityStdlib.interpreter (surrogateFile.map scalar) with
  | error e =>
      rw [hraw] at hchecked
      cases hchecked
  | ok raw =>
      rw [hraw] at hchecked
      change (parse identityStdlib "mission-a" raw).toOption.any hasSurrogateField = true at hchecked
      cases hp : parse identityStdlib "mission-a" raw with
      | error e =>
          rw [hp] at hchecked
          cases hchecked
      | ok p =>
          rw [hp] at hchecked
          have hsurrogate : hasSurrogateField p = true := hchecked
          have hillegible := not_legible_of_hasSurrogateField hsurrogate
          have hnone (digest : Digest) : planIdentity identityStdlib plainRoom p ≠ .ok digest := by
            intro h
            obtain ⟨text, htext, -⟩ := bind_eq_ok.mp h
            exact hillegible (canonicalText_eq_ok.mp htext).2.1.legible
          simp only [hasSurrogateField, Bool.and_eq_true, decide_eq_true_eq] at hsurrogate
          obtain ⟨⟨⟨⟨hregular, hints⟩, hnesting⟩, -⟩, -⟩ := hsurrogate
          refine ⟨p, ?_, ⟨(fits_iff _ _).mpr ⟨regular_of_isRegular _ _ hregular, hints⟩,
            hnesting.trans (by decide)⟩, hnone, ?_⟩
          · rw [loadPersistedPlan_eq (readText_written hreturn) hraw, hp]
          · intro h
            obtain ⟨text, -, htext, -⟩ := h.texts
            exact hillegible (canonicalText_eq_ok.mp htext).2.1.legible

end PlanRecord

end Konoha
