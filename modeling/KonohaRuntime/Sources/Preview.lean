/-
Sources/Preview.lean

The planner previews the required sources with the resolver that the executor enforces, at an
earlier time and over fewer evidence records.

* `resolve_enforcing`: what `enforcing` changes is the resolution of a source that waits for a
  producer, and nothing else.
* `preview_agrees_and_grows`: records of further tasks leave an available source as it is, and
  a source never comes to name a producer that is not a dependency of the task.
-/
import KonohaRuntime.Protocol.OwnEvidence

namespace Konoha

open Effects Json

/-! ### From the planner to the executor -/

/-- The reason that the executor gives in the place of the planner's. -/
def enforcedReason : Option String → Option String
  | some "scheduled_dependency_not_yet_run" => some "dependency_not_yet_run_at_enforcement"
  | some "scheduled_producer_not_yet_run" => some "producer_not_yet_run_at_enforcement"
  | reason => reason

/-- What a resolution of the planner is for the executor: `PENDING_PRODUCER` becomes `MISSING`,
with the same producers. -/
def SourceResolution.enforced (r : SourceResolution) : SourceResolution :=
  if r.availability = .pendingProducer then
    { r with availability := .missing, reason := enforcedReason r.reason }
  else r

theorem SourceResolution.enforced_of_ne {r : SourceResolution}
    (h : r.availability ≠ .pendingProducer) : r.enforced = r := if_neg h

theorem map_enforced {x : Except PyExc SourceResolution}
    (h : ∀ r, x = .ok r → r.availability ≠ .pendingProducer) :
    x.map SourceResolution.enforced = x := by
  cases x with
  | error e => rfl
  | ok r => exact congrArg Except.ok (SourceResolution.enforced_of_ne (h r rfl))

section Resolvers

variable {py : Stdlib} {id : String} {task : AgentAssignment} {ctx : ResolutionContext}

/-- The end of `_resolve_structural_dependency`, when all dependencies have run. -/
theorem structural_not_pending {deps : List Json} {r : SourceResolution}
    (h : (do
      match ← structuralItems py ctx (← slice maxMaterialListItems task.dependencies) with
      | none => return missing id "dependency_material_unavailable"
      | some items =>
          return ⟨id, .available, none, deps,
            .obj [("dependencies", boundedItems items deps.length)]⟩ :
        Except PyExc SourceResolution) = .ok r) : r.availability ≠ .pendingProducer := by
  obtain ⟨xs, -, h⟩ := bind_eq_ok.mp h
  obtain ⟨items, -, h⟩ := bind_eq_ok.mp h
  cases items with
  | none =>
      cases h
      exact fun h => nomatch h
  | some items =>
      cases h
      exact fun h => nomatch h

theorem resolveDependencies_enforcing (deps : List Json) :
    resolveDependencies py id task ctx true deps =
      (resolveDependencies py id task ctx false deps).map SourceResolution.enforced := by
  unfold resolveDependencies
  simp only [if_true, Bool.false_eq_true, if_false]
  split_ifs
  · rfl
  · rfl
  · exact (map_enforced fun _ => structural_not_pending).symm
  · rfl

theorem resolveStructuralDependency_enforcing :
    resolveStructuralDependency py id task ctx true =
      (resolveStructuralDependency py id task ctx false).map SourceResolution.enforced := by
  unfold resolveStructuralDependency
  split_ifs
  · cases task.dependencies.iter with
    | error e => rfl
    | ok deps => exact resolveDependencies_enforcing deps
  · rfl

theorem resolveProducers_not_pending {all rest bare : List Json} {r : SourceResolution}
    (h : resolveProducers py id ctx all rest bare = .ok r) :
    r.availability ≠ .pendingProducer := by
  induction rest generalizing bare with
  | nil =>
      unfold resolveProducers at h
      split_ifs at h
      · cases h
        exact fun h => nomatch h
      · cases h
        exact fun h => nomatch h
  | cons producer rest ih =>
      unfold resolveProducers at h
      split at h
      · cases h
      · obtain ⟨marked, -, h⟩ := bind_eq_ok.mp h
        split_ifs at h
        · obtain ⟨rows, -, h⟩ := bind_eq_ok.mp h
          split_ifs at h
          · cases h
            exact fun h => nomatch h
          · exact ih h
        · exact ih h

theorem resolveAssignmentProduced_enforcing :
    resolveAssignmentProduced py id task ctx true =
      (resolveAssignmentProduced py id task ctx false).map SourceResolution.enforced := by
  unfold resolveAssignmentProduced
  cases task.dependencies.iter with
  | error e => rfl
  | ok deps =>
      change (declaredProducers id ctx deps >>= _) = Except.map _ (declaredProducers id ctx deps >>= _)
      cases declaredProducers id ctx deps with
      | error e => rfl
      | ok producers =>
          change (if _ then _ else if _ then if true = true then _ else _ else _) =
            Except.map _ (if _ then _ else if _ then if false = true then _ else _ else _)
          simp only [if_true, Bool.false_eq_true, if_false]
          split_ifs
          · rfl
          · rfl
          · exact (map_enforced fun _ => resolveProducers_not_pending).symm

/-- The two modes of the resolver: the executor's resolution is the planner's, enforced. -/
theorem resolve_enforcing (py : Stdlib) (id : String) (task : AgentAssignment)
    (ctx : ResolutionContext) :
    resolveRequiredSources py id task ctx true =
      resolveRequiredSources py id task ctx false >>= fun r =>
        return if sourceKind id = some .planScope then r else r.enforced := by
  have hlift (x : Except PyExc SourceResolution) :
      lift (x.map SourceResolution.enforced) = lift x >>= fun r => return r.enforced := by
    cases x <;> rfl
  unfold resolveRequiredSources
  cases sourceKind id with
  | none => rfl
  | some kind =>
      cases kind with
      | planScope => exact (Prog.bind_ret _).symm
      | structuralDependency =>
          dsimp only
          rw [resolveStructuralDependency_enforcing, hlift]
          simp
      | assignmentProduced =>
          dsimp only
          rw [resolveAssignmentProduced_enforcing, hlift]
          simp

/-! ### A growing context -/

/-- The context with the records of further tasks. -/
structure MoreRecords (ctx ctx' : ResolutionContext) : Prop where
  same : ctx' = { ctx with evidenceByTaskId := ctx'.evidenceByTaskId }
  kept : ∀ d record, dictGet d ctx.evidenceByTaskId = some record →
    dictGet d ctx'.evidenceByTaskId = some record

variable {ctx' : ResolutionContext}

theorem MoreRecords.lookup (h : MoreRecords ctx ctx') {d : Json}
    (hd : (dictGet d ctx.evidenceByTaskId).isSome) :
    dictGet d ctx'.evidenceByTaskId = dictGet d ctx.evidenceByTaskId := by
  obtain ⟨record, hrecord⟩ := Option.isSome_iff_exists.mp hd
  rw [hrecord, h.kept d record hrecord]

theorem MoreRecords.notYetRun (h : MoreRecords ctx ctx') {ds : List Json}
    (hds : ds.filter (fun d => (dictGet d ctx.evidenceByTaskId).isNone) = []) :
    ∀ d ∈ ds, dictGet d ctx'.evidenceByTaskId = dictGet d ctx.evidenceByTaskId := by
  intro d hd
  refine h.lookup ?_
  have hnot := List.filter_eq_nil_iff.mp hds d hd
  rwa [Option.isNone_iff_eq_none, ← ne_eq, Option.ne_none_iff_isSome] at hnot

theorem structuralItems_grows (h : MoreRecords ctx ctx') {ds items : List Json}
    (hok : structuralItems py ctx ds = .ok (some items)) :
    structuralItems py ctx' ds = .ok (some items) := by
  induction ds generalizing items with
  | nil => exact hok
  | cons d ds ih =>
      unfold structuralItems at hok ⊢
      cases hd : dictGet d ctx.evidenceByTaskId with
      | none =>
          rw [hd] at hok
          cases hok
      | some record =>
          rw [hd] at hok
          rw [h.kept d record hd]
          obtain ⟨item, hitem, hok⟩ := bind_eq_ok.mp hok
          refine bind_eq_ok.mpr ⟨item, hitem, ?_⟩
          cases item with
          | none => cases hok
          | some item =>
              obtain ⟨rest, hrest, hok⟩ := bind_eq_ok.mp hok
              cases rest with
              | none => cases hok
              | some rest => exact bind_eq_ok.mpr ⟨some rest, ih hrest, hok⟩

/-- An available structural source stays as it is. -/
theorem resolveDependencies_grows (h : MoreRecords ctx ctx') {enforcing : Bool} {deps : List Json}
    {r : SourceResolution} (hok : resolveDependencies py id task ctx enforcing deps = .ok r)
    (hr : r.availability = .available) :
    resolveDependencies py id task ctx' enforcing deps = .ok r := by
  unfold resolveDependencies at hok
  dsimp only at hok
  by_cases hhash : ¬ deps.all hashable = true
  · rw [if_pos hhash] at hok
    cases hok
  rw [if_neg hhash] at hok
  by_cases hrun : deps.filter (fun d => (dictGet d ctx.evidenceByTaskId).isNone) ≠ []
  · rw [if_pos hrun] at hok
    cases enforcing
    · cases hok
      cases hr
    · cases hok
      cases hr
  rw [if_neg hrun] at hok
  have hsame := h.notYetRun (not_not.mp hrun)
  have hrun' : ¬ deps.filter (fun d => (dictGet d ctx'.evidenceByTaskId).isNone) ≠ [] := by
    rw [List.filter_congr fun d hd => congrArg Option.isNone (hsame d hd)]
    exact hrun
  unfold resolveDependencies
  dsimp only
  rw [if_neg hhash, if_neg hrun']
  have hany : (deps.any fun d =>
      (dictGet d ctx'.evidenceByTaskId).any fun r => r.status ≠ .completed) =
      deps.any fun d => (dictGet d ctx.evidenceByTaskId).any fun r => r.status ≠ .completed := by
    rw [Bool.eq_iff_iff, List.any_eq_true, List.any_eq_true]
    exact exists_congr fun d => and_congr_right fun hd => by rw [hsame d hd]
  rw [hany]
  split_ifs at hok ⊢ with hstatus
  · cases hok
    cases hr
  · obtain ⟨xs, hxs, hok⟩ := bind_eq_ok.mp hok
    obtain ⟨items, hitems, hok⟩ := bind_eq_ok.mp hok
    refine bind_eq_ok.mpr ⟨xs, hxs, bind_eq_ok.mpr ⟨items, ?_, hok⟩⟩
    cases items with
    | none =>
        cases hok
        cases hr
    | some items => exact structuralItems_grows h hitems

theorem resolveStructuralDependency_grows (h : MoreRecords ctx ctx') {enforcing : Bool}
    {r : SourceResolution} (hok : resolveStructuralDependency py id task ctx enforcing = .ok r)
    (hr : r.availability = .available) :
    resolveStructuralDependency py id task ctx' enforcing = .ok r := by
  unfold resolveStructuralDependency at hok ⊢
  split_ifs at hok ⊢ with hdeps
  · obtain ⟨deps, hiter, hok⟩ := bind_eq_ok.mp hok
    exact bind_eq_ok.mpr ⟨deps, hiter, resolveDependencies_grows h hok hr⟩
  · exact hok

theorem declaredProducers_grows (h : MoreRecords ctx ctx') (ds : List Json) :
    declaredProducers id ctx' ds = declaredProducers id ctx ds := by
  rw [h.same]
  induction ds with
  | nil => rfl
  | cons d ds ih =>
      unfold declaredProducers
      rw [ih]

theorem resolveProducers_grows {all ps : List Json}
    (hps : ∀ p ∈ ps, dictGet p ctx'.evidenceByTaskId = dictGet p ctx.evidenceByTaskId)
    (bare : List Json) :
    resolveProducers py id ctx' all ps bare = resolveProducers py id ctx all ps bare := by
  induction ps generalizing bare with
  | nil => rfl
  | cons p ps ih =>
      have ih := ih fun q hq => hps q (List.mem_cons_of_mem p hq)
      unfold resolveProducers
      rw [hps p List.mem_cons_self]
      simp only [ih]

/-- An available source that assignments produce stays as it is. -/
theorem resolveAssignmentProduced_grows (h : MoreRecords ctx ctx') {enforcing : Bool}
    {r : SourceResolution} (hok : resolveAssignmentProduced py id task ctx enforcing = .ok r)
    (hr : r.availability = .available) :
    resolveAssignmentProduced py id task ctx' enforcing = .ok r := by
  unfold resolveAssignmentProduced at hok ⊢
  obtain ⟨deps, hiter, hok⟩ := bind_eq_ok.mp hok
  obtain ⟨producers, hproducers, hok⟩ := bind_eq_ok.mp hok
  refine bind_eq_ok.mpr ⟨deps, hiter, bind_eq_ok.mpr ⟨producers, ?_, ?_⟩⟩
  · rw [declaredProducers_grows h]
    exact hproducers
  dsimp only at hok ⊢
  by_cases hnone : producers = []
  · rw [if_pos hnone] at hok
    cases hok
    cases hr
  rw [if_neg hnone] at hok ⊢
  by_cases hrun : producers.filter (fun d => (dictGet d ctx.evidenceByTaskId).isNone) ≠ []
  · rw [if_pos hrun] at hok
    cases enforcing
    · cases hok
      cases hr
    · cases hok
      cases hr
  rw [if_neg hrun] at hok
  have hsame := h.notYetRun (not_not.mp hrun)
  have hrun' : ¬ producers.filter (fun d => (dictGet d ctx'.evidenceByTaskId).isNone) ≠ [] := by
    rw [List.filter_congr fun d hd => congrArg Option.isNone (hsame d hd)]
    exact hrun
  rw [if_neg hrun', resolveProducers_grows hsame]
  exact hok

/-! ### The producers that are named -/

theorem declaredProducers_subset {ds producers : List Json}
    (h : declaredProducers id ctx ds = .ok producers) : producers ⊆ ds := by
  induction ds generalizing producers with
  | nil =>
      cases h
      exact List.Subset.refl _
  | cons d ds ih =>
      unfold declaredProducers at h
      have hrest {here : Bool} (h : (declaredProducers id ctx ds >>= fun rest =>
          pure (if here = true then d :: rest else rest)) = .ok producers) :
          producers ⊆ d :: ds := by
        obtain ⟨rest, hrest, h⟩ := bind_eq_ok.mp h
        cases h
        have hsub := List.subset_cons_of_subset d (ih hrest)
        cases here
        · exact hsub
        · exact List.cons_subset.mpr ⟨List.mem_cons_self, hsub⟩
      dsimp only at h
      split_ifs at h with hhash
      · split at h
        · exact hrest h
        · exact hrest h
        · obtain ⟨here, -, h⟩ := bind_eq_ok.mp h
          exact hrest h
      · cases h

theorem resolveProducers_names {all ps bare deps : List Json} {r : SourceResolution}
    (h : resolveProducers py id ctx all ps bare = .ok r) (hall : all ⊆ deps) (hps : ps ⊆ deps)
    (hbare : bare ⊆ deps) : r.producerTaskIds ⊆ deps := by
  induction ps generalizing bare with
  | nil =>
      unfold resolveProducers at h
      split_ifs at h
      · cases h
        exact hbare
      · cases h
        exact hall
  | cons p ps ih =>
      obtain ⟨hp, hps⟩ := List.cons_subset.mp hps
      unfold resolveProducers at h
      split at h
      · cases h
      · obtain ⟨marked, -, h⟩ := bind_eq_ok.mp h
        split_ifs at h
        · obtain ⟨rows, -, h⟩ := bind_eq_ok.mp h
          split_ifs at h
          · cases h
            exact List.cons_subset.mpr ⟨hp, List.nil_subset _⟩
          · exact ih h hps (List.append_subset.mpr
              ⟨hbare, List.cons_subset.mpr ⟨hp, List.nil_subset _⟩⟩)
        · exact ih h hps hbare

theorem resolveAssignmentProduced_names {enforcing : Bool} {r : SourceResolution}
    (hok : resolveAssignmentProduced py id task ctx enforcing = .ok r) :
    ∃ deps, task.dependencies.iter = .ok deps ∧ r.producerTaskIds ⊆ deps := by
  unfold resolveAssignmentProduced at hok
  obtain ⟨deps, hiter, hok⟩ := bind_eq_ok.mp hok
  obtain ⟨producers, hproducers, hok⟩ := bind_eq_ok.mp hok
  have hsub := declaredProducers_subset hproducers
  refine ⟨deps, hiter, ?_⟩
  dsimp only at hok
  split_ifs at hok
  · cases hok
    exact List.nil_subset _
  · cases hok
    exact List.Subset.trans List.filter_sublist.subset hsub
  · cases hok
    exact List.Subset.trans List.filter_sublist.subset hsub
  · exact resolveProducers_names hok hsub hsub (List.nil_subset _)

theorem resolveStructuralDependency_names {enforcing : Bool} {r : SourceResolution}
    (hok : resolveStructuralDependency py id task ctx enforcing = .ok r) :
    r.producerTaskIds = [] ∨
      ∃ deps, task.dependencies.iter = .ok deps ∧ r.producerTaskIds ⊆ deps := by
  unfold resolveStructuralDependency at hok
  split_ifs at hok
  · obtain ⟨deps, hiter, hok⟩ := bind_eq_ok.mp hok
    refine .inr ⟨deps, hiter, ?_⟩
    unfold resolveDependencies at hok
    dsimp only at hok
    split_ifs at hok
    · cases hok
      exact List.filter_sublist.subset
    · cases hok
      exact List.filter_sublist.subset
    · cases hok
      exact List.nil_subset _
    · obtain ⟨xs, -, hok⟩ := bind_eq_ok.mp hok
      obtain ⟨items, -, hok⟩ := bind_eq_ok.mp hok
      cases items with
      | none =>
          cases hok
          exact List.nil_subset _
      | some items =>
          cases hok
          exact List.Subset.refl _
  · cases hok
    exact .inl rfl

theorem of_lift {x : Except PyExc SourceResolution} {r : SourceResolution}
    (h : lift x = .ret r) : x = .ok r := by
  cases x with
  | error e => cases h
  | ok a =>
      cases h
      rfl

/-- The planner's preview and the executor's gate agree on every source, and further records
leave what is available as it is. -/
theorem preview_agrees_and_grows (py : Stdlib) (id : String) (task : AgentAssignment)
    (ctx : ResolutionContext) :
    (resolveRequiredSources py id task ctx true =
      resolveRequiredSources py id task ctx false >>= fun r =>
        return if sourceKind id = some .planScope then r else r.enforced) ∧
    ∀ ctx', MoreRecords ctx ctx' → sourceKind id ≠ some .planScope →
      (∀ enforcing r, resolveRequiredSources py id task ctx enforcing = .ret r →
        r.availability = .available →
        resolveRequiredSources py id task ctx' enforcing = .ret r) ∧
      ∀ enforcing r r', resolveRequiredSources py id task ctx enforcing = .ret r →
        r.availability = .pendingProducer →
        ∀ enforcing', resolveRequiredSources py id task ctx' enforcing' = .ret r' →
          ∀ p ∈ r'.producerTaskIds, ∃ deps, task.dependencies.iter = .ok deps ∧ p ∈ deps := by
  refine ⟨resolve_enforcing py id task ctx, ?_⟩
  intro ctx' hgrows hkind
  unfold resolveRequiredSources
  cases hk : sourceKind id with
  | none => exact ⟨fun _ _ h => (nomatch h), fun _ _ _ h => (nomatch h)⟩
  | some kind =>
      cases kind with
      | planScope => exact absurd hk hkind
      | structuralDependency =>
          constructor
          · intro enforcing r h hr
            exact congrArg lift (resolveStructuralDependency_grows hgrows (of_lift h) hr)
          · intro _ _ r' _ _ enforcing' h' p hp
            obtain hnone | ⟨deps, hiter, hsub⟩ := resolveStructuralDependency_names (of_lift h')
            · rw [hnone] at hp
              cases hp
            · exact ⟨deps, hiter, hsub hp⟩
      | assignmentProduced =>
          constructor
          · intro enforcing r h hr
            exact congrArg lift (resolveAssignmentProduced_grows hgrows (of_lift h) hr)
          · intro _ _ r' _ _ enforcing' h' p hp
            obtain ⟨deps, hiter, hsub⟩ := resolveAssignmentProduced_names (of_lift h')
            exact ⟨deps, hiter, hsub hp⟩

end Resolvers

/-! ### A sample dependency -/

/-- A task that depends on `t1`. -/
def bundleTask : AgentAssignment :=
  { sampleAssignment "t2" "plan_approval" with dependencies := .arr [.str "t1"] }

def bundleContext (evidence : List (Json × EvidenceRecord)) : ResolutionContext where
  planApprovalStatus := .str "approved"
  planAcceptanceCriteria := []
  userMissionRequest := none
  repoEvidencePack := none
  familyContracts := []
  taskFamilyById := []
  evidenceByTaskId := evidence
  missionPlan := []
  excludedPaths := []
  capabilityRegistry := .null

/-- The record of `t1`. -/
def bundleEvidence : Json × EvidenceRecord := (.str "t1", ollamaRecord ⟨0⟩ ⟨0⟩)

/-- The record of a further task. -/
def furtherEvidence : Json × EvidenceRecord := (.str "t3", ollamaRecord ⟨0⟩ ⟨0⟩)

theorem grows_bundle_further :
    MoreRecords (bundleContext [bundleEvidence]) (bundleContext [bundleEvidence, furtherEvidence]) := by
  refine ⟨rfl, ?_⟩
  intro d record h
  have hd : d = .str "t1" := by
    by_contra hne
    have hnone : dictGet d [bundleEvidence] = none := by
      simp [dictGet, bundleEvidence, Ne.symm hne]
    cases hnone.symm.trans h
  subst hd
  exact h

theorem grows_bundle : MoreRecords (bundleContext []) (bundleContext [bundleEvidence]) :=
  ⟨rfl, fun _ _ h => nomatch h⟩

theorem bundle_available :
    ∃ r, resolveRequiredSources completedStdlib "dependency_evidence_bundle" bundleTask
      (bundleContext [bundleEvidence]) false = .ret r ∧ r.availability = .available := by
  have h : (resolveStructuralDependency completedStdlib "dependency_evidence_bundle" bundleTask
      (bundleContext [bundleEvidence]) false).toOption.any
        (fun r => r.availability = .available) = true := by
    decide +kernel
  cases hr : resolveStructuralDependency completedStdlib "dependency_evidence_bundle" bundleTask
      (bundleContext [bundleEvidence]) false with
  | error e =>
      rw [hr] at h
      cases h
  | ok r =>
      rw [hr] at h
      refine ⟨r, ?_, of_decide_eq_true h⟩
      have hkind : sourceKind "dependency_evidence_bundle" = some .structuralDependency := by
        decide
      unfold resolveRequiredSources
      rw [hkind]
      exact congrArg lift hr

/-- The bundle is pending without the record of `t1`, available with it, and the same when a
record of `t3` has come. -/
theorem bundle_agrees_and_grows :
    (∃ r, resolveRequiredSources completedStdlib "dependency_evidence_bundle" bundleTask
        (bundleContext [bundleEvidence]) false = .ret r ∧ r.availability = .available ∧
      resolveRequiredSources completedStdlib "dependency_evidence_bundle" bundleTask
        (bundleContext [bundleEvidence, furtherEvidence]) false = .ret r) ∧
    ∃ r r', resolveRequiredSources completedStdlib "dependency_evidence_bundle" bundleTask
        (bundleContext []) false = .ret r ∧ r.availability = .pendingProducer ∧
      resolveRequiredSources completedStdlib "dependency_evidence_bundle" bundleTask
        (bundleContext [bundleEvidence]) false = .ret r' ∧
      ∀ p ∈ r'.producerTaskIds, ∃ deps, bundleTask.dependencies.iter = .ok deps ∧ p ∈ deps := by
  have hkind : sourceKind "dependency_evidence_bundle" ≠ some .planScope := by decide
  obtain ⟨r, hr, havailable⟩ := bundle_available
  constructor
  · exact ⟨r, hr, havailable, ((preview_agrees_and_grows completedStdlib
      "dependency_evidence_bundle" bundleTask _).2 _ grows_bundle_further hkind).1 false r hr
        havailable⟩
  · exact ⟨_, r, rfl, rfl, hr, ((preview_agrees_and_grows completedStdlib
      "dependency_evidence_bundle" bundleTask _).2 _ grows_bundle hkind).2 false _ r rfl rfl false
        hr⟩

end Konoha
