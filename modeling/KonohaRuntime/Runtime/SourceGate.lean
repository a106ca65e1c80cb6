/-
Runtime/SourceGate.lean

`resolve_all` and the gate the executor builds on it.

`reading_requiredSourcesGate`: a family that requires `mission_plan` passes the gate only under
an approved plan, and one that requires a structural source only when every dependency of the
task has a record.
-/
import KonohaRuntime.Runtime.Sources

namespace Konoha

open Effects Json

/-! ### The dispatcher -/

/-- Lift a pure computation. -/
def lift {α : Type} : Except PyExc α → Run α
  | .ok a => .ret a
  | .error e => .raise e

/-- `_resolve_repository_state` -/
def resolveRepositoryState (ctx : ResolutionContext) : Run SourceResolution :=
  match ctx.repoEvidencePack with
  | none => return missing "repository_state" "repository_evidence_not_acquired"
  | some pack => do
      let root ← perform .repoRoot
      if pack.authorizedRepoRoot ≠ .str root then
        return ⟨"repository_state", .unauthorized, some "repository_root_mismatch", [], null⟩
      else
        let current ← perform (.isEvidenceCurrent pack)
        if current then return ⟨"repository_state", .available, none, [], pack.boundedView⟩
        else return missing "repository_state" "repository_evidence_stale"

/-- `_PLAN_SCOPE_RESOLVERS[canonical_id](task, ctx)` -/
def resolvePlanScope (id : String) (task : AgentAssignment) (ctx : ResolutionContext) :
    Run SourceResolution :=
  match id with
  | "mission_plan" => return resolveMissionPlan ctx
  | "acceptance_criteria" => return resolveAcceptanceCriteria ctx
  | "user_mission_request" => return resolveUserMissionRequest ctx
  | "capability_registry" => return resolveCapabilityRegistry task ctx
  | "repository_state" => resolveRepositoryState ctx
  | _ => perform (.resolveFileSource id task.inputs ctx.excludedPaths)

/-- `resolve_required_sources` -/
def resolveRequiredSources (py : Stdlib) (id : String) (task : AgentAssignment)
    (ctx : ResolutionContext) (enforcing : Bool) : Run SourceResolution :=
  match sourceKind id with
  | none => .raise (.unknownSourceError ("canonical_id not in SOURCE_VOCABULARY: "
      ++ py.repr (.str id)))
  | some .planScope => resolvePlanScope id task ctx
  | some .structuralDependency => lift (resolveStructuralDependency py id task ctx enforcing)
  | some .assignmentProduced => lift (resolveAssignmentProduced py id task ctx enforcing)

/-- An entry in front of a dict comprehension: a later value of the same key
replaces it. -/
def consEntry {β : Type} (k : String) (v : β) (rest : List (String × β)) : List (String × β) :=
  (k, ((rest.find? fun kv => kv.1 = k).map (·.2)).getD v) :: rest.filter fun kv => kv.1 ≠ k

/-- `resolve_all`, in order of declaration. -/
def resolveAll (py : Stdlib) (task : AgentAssignment) (ctx : ResolutionContext)
    (enforcing : Bool) : List String → Run (List (String × SourceResolution))
  | [] => return []
  | id :: ids => do
      let r ← resolveRequiredSources py id task ctx enforcing
      let rest ← resolveAll py task ctx enforcing ids
      return consEntry id r rest

/-! ### The gate of the executor -/

structure GateResult where
  resolvedSourceBundle : List (String × Json)
  diagnostic : Option String
  deriving DecidableEq

def gateFails (diagnostic : String) : GateResult := ⟨[], some diagnostic⟩

/-- A mapping with at least one entry. -/
def hasMaterial : Json → Bool
  | .obj (_ :: _) => true
  | _ => false

/-- The first resolution that is neither available nor not applicable. -/
def firstUnavailable (resolved : List (String × SourceResolution)) :
    Option (String × SourceResolution) :=
  resolved.find? fun kr => !(kr.2.availability == .available || kr.2.availability == .notApplicable)

/-- `find_available_sources_without_material` -/
def availableWithoutMaterial (resolved : List (String × SourceResolution)) : List String :=
  (resolved.filter fun kr => kr.2.availability == .available && !hasMaterial kr.2.materialization).map
    (·.1)

/-- The verdict of the gate on the resolved sources. -/
def gateVerdict (resolved : List (String × SourceResolution)) : GateResult :=
  match firstUnavailable resolved with
  | some (key, r) =>
      gateFails ("required_sources:" ++ key ++ ":" ++
        match r.reason with
        | some reason => if reason = "" then r.availability.text else reason
        | none => r.availability.text)
  | none =>
      match availableWithoutMaterial resolved with
      | key :: _ => gateFails ("required_sources:" ++ key ++ ":material_unavailable")
      | [] =>
          { resolvedSourceBundle :=
              (resolved.filter fun kr => kr.2.availability == .available).map fun kr =>
                (kr.1, kr.2.materialization)
            diagnostic := none }

/-- `_mission_dir` -/
def missionDir (py : Stdlib) (m : String) : Run Unit := do
  if ¬ isMissionId m then
    .raise (.missionLookupError ("mission_id inválido: " ++ py.repr (.str m)))
  else
    let confined ← perform (.missionDirConfined m)
    if ¬ confined then
      .raise (.missionLookupError ("mission_id fuera de state_dir/missions: "
        ++ py.repr (.str m)))

/-- `_durable_original_request` -/
def durableOriginalRequest (py : Stdlib) (m : String) : Run (Option String) := do
  match ← Prog.attempt (do missionDir py m; perform (.readContinuity m)) with
  | .ok (some (.obj kvs)) =>
      if fieldOf kvs "mission_id" = .str m ∧ fieldOf kvs "schema_version" = .str "1.0" then
        match fieldOf kvs "original_request" with
        | .str request => return if nonBlank request then some request else none
        | _ => return none
      else return none
  | .ok _ => return none
  | .error (.missionLookupError _) | .error (.recursionError _) => return none
  | .error e => if e.isReadError then return none else .raise e

/-- The contracts of the families of the plan, that of the task first; a family
the registry does not know is left out. -/
def familyContracts (contracts : List (Json × Json)) :
    List AgentAssignment → Run (List (Json × Json))
  | [] => return contracts
  | a :: rest =>
      if ¬ a.family.hashable then .raise (.typeError "unhashable type")
      else if contracts.any fun kv => kv.1 = a.family then familyContracts contracts rest
      else do
        match ← Prog.attempt (perform (.agentFamily a.family)) with
        | .ok contract => familyContracts (contracts ++ [(a.family, contract)]) rest
        | .error (.registryError _) => familyContracts contracts rest
        | .error e => .raise e

/-- `required_sources` of a family, or `none` for an invalid contract. -/
def requiredSourcesOf : Json → Except PyExc (Option (List String))
  | .obj kvs =>
      match (lookup "required_sources" kvs).getD (.arr []) with
      | .arr xs => .ok (xs.mapM fun | .str s => some s | _ => none)
      | _ => .ok none
  | _ => .error (.attributeError "get")

/-- `load_evidence_pack(_mission_dir(state_dir, plan.mission_id), plan.repository_evidence)` -/
def loadPlanEvidence (py : Stdlib) (plan : MissionPlan) : Run RepositoryEvidencePack := do
  missionDir py plan.missionId
  perform (.loadEvidencePack plan.missionId plan.repositoryEvidence)

/-- The evidence pack of the plan, checked against the repository: a pack to use
(or none), or the diagnostic to stop with. -/
def planEvidencePack (py : Stdlib) (plan : MissionPlan) (required : List String) :
    Run (Except String (Option RepositoryEvidencePack)) := do
  if plan.repositoryEvidence = null then return .ok none
  else
    match ← Prog.attempt (loadPlanEvidence py plan) with
    | .error (.repositoryEvidenceError t) | .error (.missionLookupError t) =>
        return .error ("required_sources:repository_state:" ++ t)
    | .error e => .raise e
    | .ok pack =>
        let root ← perform .repoRoot
        if pack.authorizedRepoRoot ≠ .str root then
          return .error "required_sources:repository_state:repository_root_mismatch"
        else if required.contains "repository_state" then return .ok (some pack)
        else
          let current ← perform (.isEvidenceCurrent pack)
          return if current then .ok (some pack)
            else .error "required_sources:repository_state:repository_evidence_stale_replan_required"

/-- `user_mission_request` of the context: read only when it is required. -/
def requestIfRequired (py : Stdlib) (plan : MissionPlan) (required : List String) :
    Run (Option String) :=
  if required.contains "user_mission_request" then durableOriginalRequest py plan.missionId
  else .ret none

/-- The `ResolutionContext` that the executor builds. -/
def resolutionContext (py : Stdlib) (plan : MissionPlan) (evidence : List EvidenceRecord)
    (contracts : List (Json × Json)) (required : List String)
    (pack : Option RepositoryEvidencePack) : Run ResolutionContext := do
  let status ← lift (plan.approval.get "status")
  let criteria ← lift plan.acceptanceCriteria.iter
  let request ← requestIfRequired py plan required
  let data ← perform .registryData
  return {
    planApprovalStatus := status
    planAcceptanceCriteria := criteria
    userMissionRequest := request
    repoEvidencePack := pack
    familyContracts := contracts
    taskFamilyById := plan.assignments.map fun a => (a.taskId, a.family)
    evidenceByTaskId := evidence.map fun r => (r.taskId, r)
    missionPlan := plan.asdict
    excludedPaths := (pack.map (·.excludedPaths)).getD []
    capabilityRegistry := data }

/-- `_required_sources_gate` -/
def requiredSourcesGate (py : Stdlib) (plan : MissionPlan) (task : AgentAssignment)
    (family : Json) (evidence : List EvidenceRecord) : Run GateResult := do
  if ¬ task.family.hashable then .raise (.typeError "unhashable type")
  else
    let contracts ← familyContracts [(task.family, family)] plan.assignments
    match ← lift (requiredSourcesOf family) with
    | none => return gateFails "required_sources:invalid_family_contract"
    | some required =>
        match ← planEvidencePack py plan required with
        | .error diagnostic => return gateFails diagnostic
        | .ok pack =>
            let ctx ← resolutionContext py plan evidence contracts required pack
            match ← Prog.attempt (resolveAll py task ctx true required) with
            | .error (.unknownSourceError _) => return gateFails "required_sources:unknown_source"
            | .error e => .raise e
            | .ok resolved => return gateVerdict resolved

/-! ### Reading programs -/

/-- A program that only reads, with what is known of its value and exception. -/
abbrev Reading {α : Type} (Q : α → Prop) (E : PyExc → Prop) (m : Run α) : Prop :=
  m.Always (fun o => o.reads = true) Q E

section Reading

variable {α β : Type}

theorem reading_perform (o : Op) (ho : o.reads = true) :
    Reading (fun _ => True) (fun _ => True) (perform o) := by
  refine ⟨ho, fun r => ?_⟩
  cases r <;> trivial

theorem reading_lift (x : Except PyExc α) :
    Reading (fun a => x = .ok a) (fun e => x = .error e) (lift x) := by
  cases x <;> rfl

/-- Sequencing, when nothing is claimed of the exceptions. -/
theorem Reading.seq {m : Run α} {f : α → Run β} {Q : α → Prop} {E : PyExc → Prop} {B : β → Prop}
    (h : Reading Q E m) (hf : ∀ a, Q a → Reading B (fun _ => True) (f a)) :
    Reading B (fun _ => True) (m >>= f) :=
  (h.mono (fun _ hq => hq) fun _ _ => trivial).bind hf

/-- A caught program. -/
theorem Reading.caught {m : Run α} {Q : α → Prop} {E : PyExc → Prop} (h : Reading Q E m) :
    Reading (fun r => (∀ a, r = .ok a → Q a) ∧ ∀ e, r = .error e → E e) (fun _ => True)
      m.attempt :=
  h.attempt (fun a ha => ⟨by rintro _ ⟨⟩; exact ha, by rintro _ ⟨⟩⟩)
    fun e he => ⟨by rintro _ ⟨⟩, by rintro _ ⟨⟩; exact he⟩

end Reading

theorem reading_missionDir (py : Stdlib) (m : String) :
    Reading (fun _ => isMissionId m = true) (fun _ => True) (missionDir py m) := by
  unfold missionDir
  split
  · trivial
  · rename_i hm
    refine (reading_perform _ rfl).seq fun confined _ => ?_
    split
    · trivial
    · exact not_not.mp hm

theorem reading_durableOriginalRequest (py : Stdlib) (m : String) :
    Reading (fun _ => True) (fun _ => True) (durableOriginalRequest py m) := by
  have hread : Reading (fun _ => True) (fun _ => True)
      (do missionDir py m; perform (.readContinuity m) : Run (Option Json)) :=
    (reading_missionDir py m).seq fun _ _ => reading_perform _ rfl
  refine hread.caught.seq fun read _ => ?_
  split
  · split
    · split <;> trivial
    · trivial
  · trivial
  · trivial
  · trivial
  · split <;> trivial

theorem reading_familyContracts (contracts : List (Json × Json)) (as : List AgentAssignment) :
    Reading (fun _ => True) (fun _ => True) (familyContracts contracts as) := by
  induction as generalizing contracts with
  | nil => trivial
  | cons a as ih =>
      unfold familyContracts
      split
      · trivial
      · split
        · exact ih contracts
        · refine (reading_perform (.agentFamily a.family) rfl).caught.seq fun r _ => ?_
          split
          · exact ih _
          · exact ih contracts
          · trivial

theorem reading_planEvidencePack (py : Stdlib) (plan : MissionPlan) (required : List String) :
    Reading (fun _ => True) (fun _ => True) (planEvidencePack py plan required) := by
  have hload : Reading (fun _ => True) (fun _ => True) (loadPlanEvidence py plan) :=
    (reading_missionDir py plan.missionId).seq fun _ _ => reading_perform _ rfl
  unfold planEvidencePack
  split
  · trivial
  · refine hload.caught.seq fun loaded _ => ?_
    split
    · trivial
    · trivial
    · trivial
    · refine (reading_perform _ rfl).seq fun root _ => ?_
      split
      · trivial
      · split
        · trivial
        · refine (reading_perform _ rfl).seq fun current _ => ?_
          trivial

/-- The context has the status of the plan and the records of the call. -/
theorem reading_resolutionContext (py : Stdlib) (plan : MissionPlan)
    (evidence : List EvidenceRecord) (contracts : List (Json × Json)) (required : List String)
    (pack : Option RepositoryEvidencePack) :
    Reading (fun ctx => plan.approval.get "status" = .ok ctx.planApprovalStatus ∧
        ctx.evidenceByTaskId = evidence.map fun r => (r.taskId, r))
      (fun _ => True) (resolutionContext py plan evidence contracts required pack) := by
  unfold resolutionContext
  refine (reading_lift _).seq fun status hstatus => (reading_lift _).seq fun criteria _ => ?_
  have hrequest : Reading (fun _ => True) (fun _ => True)
      (requestIfRequired py plan required) := by
    unfold requestIfRequired
    split
    · exact reading_durableOriginalRequest py plan.missionId
    · trivial
  refine hrequest.seq fun request _ => (reading_perform .registryData rfl).seq fun data _ => ?_
  exact ⟨hstatus, rfl⟩

/-! ### What the gate guarantees -/

/-- What is known of a resolution, in the context it was made in. -/
def ResolvedIn (py : Stdlib) (task : AgentAssignment) (ctx : ResolutionContext) (id : String)
    (r : SourceResolution) : Prop :=
  (id = "mission_plan" → r = resolveMissionPlan ctx) ∧
    (sourceKind id = some .structuralDependency →
      resolveStructuralDependency py id task ctx true = .ok r)

theorem reading_resolveRepositoryState (ctx : ResolutionContext) :
    Reading (fun _ => True) (fun _ => True) (resolveRepositoryState ctx) := by
  unfold resolveRepositoryState
  split
  · trivial
  · refine (reading_perform .repoRoot rfl).seq fun root _ => ?_
    split
    · trivial
    · refine (reading_perform _ rfl).seq fun current _ => ?_
      split <;> trivial

theorem reading_resolvePlanScope (id : String) (task : AgentAssignment) (ctx : ResolutionContext) :
    Reading (fun r => id = "mission_plan" → r = resolveMissionPlan ctx) (fun _ => True)
      (resolvePlanScope id task ctx) := by
  by_cases hid : id = "mission_plan"
  · subst hid
    exact fun _ => rfl
  · refine Prog.Always.mono (Q := fun _ => True) (E := fun _ => True) ?_
      (fun r _ h => absurd h hid) fun _ _ => trivial
    unfold resolvePlanScope
    split
    · trivial
    · trivial
    · trivial
    · trivial
    · exact reading_resolveRepositoryState ctx
    · exact reading_perform _ rfl

theorem reading_resolveRequiredSources (py : Stdlib) (id : String) (task : AgentAssignment)
    (ctx : ResolutionContext) :
    Reading (ResolvedIn py task ctx id) (fun _ => True)
      (resolveRequiredSources py id task ctx true) := by
  have hkind : id = "mission_plan" → sourceKind id = some .planScope := by
    rintro rfl
    decide
  unfold resolveRequiredSources
  split
  · trivial
  · rename_i hk
    exact (reading_resolvePlanScope id task ctx).mono
      (fun r hr => ⟨hr, fun h => by simp [hk] at h⟩) fun _ _ => trivial
  · rename_i hk
    exact (reading_lift _).mono
      (fun r hr => ⟨fun h => by simp [hkind h] at hk, fun _ => hr⟩) fun _ _ => trivial
  · rename_i hk
    exact (reading_lift _).mono
      (fun r _ => ⟨fun h => by simp [hkind h] at hk, fun h => by simp [hk] at h⟩)
      fun _ _ => trivial

/-- Every entry of a dict comprehension is an entry of its pairs. -/
theorem mem_consEntry {β : Type} {k l : String} {v u : β} {rest : List (String × β)}
    (h : (l, u) ∈ consEntry k v rest) : (l = k ∧ u = v) ∨ (l, u) ∈ rest := by
  rcases List.mem_cons.mp h with h | h
  · obtain ⟨rfl, rfl⟩ := Prod.mk.inj h
    cases hf : rest.find? fun kv => kv.1 = l with
    | none => exact .inl ⟨rfl, rfl⟩
    | some kv =>
        obtain ⟨k', u⟩ := kv
        have hk : k' = l := by simpa using List.find?_some hf
        subst hk
        exact .inr (List.mem_of_find?_eq_some hf)
  · exact .inr (List.mem_filter.mp h).1

/-- Every key of the pairs is a key of the dict comprehension. -/
theorem exists_mem_consEntry {β : Type} {k l : String} {v : β} {rest : List (String × β)}
    (h : l = k ∨ ∃ u, (l, u) ∈ rest) : ∃ u, (l, u) ∈ consEntry k v rest := by
  by_cases hl : l = k
  · subst hl
    exact ⟨_, List.mem_cons_self⟩
  · obtain ⟨u, hu⟩ := h.resolve_left hl
    exact ⟨u, List.mem_cons_of_mem _ (List.mem_filter.mpr ⟨hu, by simpa using hl⟩)⟩

theorem reading_resolveAll (py : Stdlib) (task : AgentAssignment) (ctx : ResolutionContext)
    (ids : List String) :
    Reading (fun resolved => (∀ id ∈ ids, ∃ r, (id, r) ∈ resolved) ∧
        ∀ id r, (id, r) ∈ resolved → ResolvedIn py task ctx id r)
      (fun _ => True) (resolveAll py task ctx true ids) := by
  induction ids with
  | nil => exact ⟨by simp, by simp⟩
  | cons id ids ih =>
      refine (reading_resolveRequiredSources py id task ctx).seq fun r hr => ?_
      refine ih.seq fun rest hrest => ⟨?_, ?_⟩
      · intro l hl
        exact exists_mem_consEntry ((List.mem_cons.mp hl).imp_right (hrest.1 l))
      · intro l u hlu
        rcases mem_consEntry hlu with ⟨rfl, rfl⟩ | hmem
        · exact hr
        · exact hrest.2 l u hmem

/-- A resolution that lets the assignment pass. -/
def SourceResolution.Passes (r : SourceResolution) : Prop :=
  r.availability = .available ∨ r.availability = .notApplicable

theorem passes_of_gateVerdict {resolved : List (String × SourceResolution)}
    (h : (gateVerdict resolved).diagnostic = none) : ∀ kr ∈ resolved, kr.2.Passes := by
  intro kr hkr
  cases hf : firstUnavailable resolved with
  | some bad => simp [gateVerdict, hf, gateFails] at h
  | none =>
      have hnot := List.find?_eq_none.mp hf kr hkr
      simpa [SourceResolution.Passes, or_iff_not_imp_left] using hnot

theorem approved_of_resolveMissionPlan {ctx : ResolutionContext}
    (h : (resolveMissionPlan ctx).Passes) : ctx.planApprovalStatus = .str "approved" := by
  unfold resolveMissionPlan at h
  split at h
  · rcases h with h | h <;> cases h
  · rename_i hs
    exact not_not.mp hs

/-- A structural source passes only when every dependency has a record. -/
theorem records_of_resolveStructuralDependency {py : Stdlib} {id : String}
    {task : AgentAssignment} {ctx : ResolutionContext} {r : SourceResolution}
    (h : resolveStructuralDependency py id task ctx true = .ok r) (hr : r.Passes) :
    ∃ deps, task.dependencies.iter = .ok deps ∧
      ∀ d ∈ deps, (dictGet d ctx.evidenceByTaskId).isSome = true := by
  unfold resolveStructuralDependency at h
  split at h
  · cases h
    rcases hr with hr | hr <;> cases hr
  · cases hi : task.dependencies.iter with
    | error e => simp [hi, bind, Except.bind] at h
    | ok deps =>
        simp only [hi, bind, Except.bind, resolveDependencies] at h
        refine ⟨deps, rfl, ?_⟩
        split at h
        · cases h
        · split at h
          · cases h
            rcases hr with hr | hr <;> cases hr
          · rename_i hrun
            intro d hd
            have hnone := List.filter_eq_nil_iff.mp (not_not.mp hrun) d hd
            simpa [Option.isSome_iff_ne_none] using hnone

/-- The family requires the source. -/
def Requires (family : Json) (id : String) : Prop :=
  ∃ required, requiredSourcesOf family = .ok (some required) ∧ id ∈ required

/-- What a passed gate proves about the plan and the records. -/
structure GatePassed (plan : MissionPlan) (task : AgentAssignment) (family : Json)
    (evidence : List EvidenceRecord) : Prop where
  approved : Requires family "mission_plan" → plan.approval.get "status" = .ok (.str "approved")
  dependencies : ∀ id, Requires family id → sourceKind id = some .structuralDependency →
    ∃ deps, task.dependencies.iter = .ok deps ∧ ∀ d ∈ deps, ∃ r ∈ evidence, r.taskId = d

theorem mem_of_dictGet_isSome {evidence : List EvidenceRecord} {d : Json}
    (h : (dictGet d (evidence.map fun r => (r.taskId, r))).isSome = true) :
    ∃ r ∈ evidence, r.taskId = d := by
  rw [dictGet, Option.isSome_map, List.find?_isSome] at h
  obtain ⟨kr, hkr, heq⟩ := h
  obtain ⟨r, hr, rfl⟩ := List.mem_map.mp (List.mem_reverse.mp hkr)
  exact ⟨r, hr, by simpa using heq⟩

/-- **The source gate**: it only reads, and when it lets an assignment pass, a
required `mission_plan` means an approved plan, and a required structural source
a record for every dependency. -/
theorem reading_requiredSourcesGate (py : Stdlib) (plan : MissionPlan) (task : AgentAssignment)
    (family : Json) (evidence : List EvidenceRecord) :
    Reading (fun g => g.diagnostic = none → GatePassed plan task family evidence)
      (fun _ => True) (requiredSourcesGate py plan task family evidence) := by
  have hfails : ∀ d, (gateFails d).diagnostic = none → GatePassed plan task family evidence := by
    intro d h
    cases h
  unfold requiredSourcesGate
  split
  · trivial
  refine (reading_familyContracts _ _).seq fun contracts _ => ?_
  refine (reading_lift _).seq fun required hrequired => ?_
  split
  · exact hfails _
  rename_i required
  refine (reading_planEvidencePack py plan required).seq fun pack _ => ?_
  split
  · exact hfails _
  rename_i pack
  refine (reading_resolutionContext py plan evidence contracts required pack).seq fun ctx hctx => ?_
  refine (reading_resolveAll py task ctx required).caught.seq fun resolved hresolved => ?_
  split
  · exact hfails _
  · trivial
  · rename_i resolved
    obtain ⟨hall, hin⟩ := hresolved.1 resolved rfl
    intro hnone
    have hpass := passes_of_gateVerdict hnone
    have hres : ∀ id, Requires family id → ∃ r, (id, r) ∈ resolved := by
      rintro id ⟨ids, hids, hmem⟩
      rw [hrequired] at hids
      obtain rfl := Option.some.inj (Except.ok.inj hids)
      exact hall id hmem
    constructor
    · intro hreq
      obtain ⟨r, hr⟩ := hres _ hreq
      have hr' := hpass _ hr
      rw [(hin _ _ hr).1 rfl] at hr'
      rw [hctx.1, approved_of_resolveMissionPlan hr']
    · intro id hreq hkind
      obtain ⟨r, hr⟩ := hres _ hreq
      obtain ⟨deps, hdeps, hrec⟩ :=
        records_of_resolveStructuralDependency ((hin _ _ hr).2 hkind) (hpass _ hr)
      refine ⟨deps, hdeps, fun d hd => mem_of_dictGet_isSome ?_⟩
      rw [← hctx.2]
      exact hrec d hd

end Konoha
