/-
Hokage/Skills.lean

The registry of skills, the capabilities a skill has with a provider, and the check
of a charter and its decision before either is persisted
(`validate_charter_construction`).

The three capability constraints are checked in two places of the code, at
construction and at each checkpoint, by the same comparisons: `requireConstraints`.
-/
import Mathlib.Data.List.Dedup
import KonohaRuntime.Hokage.Contract

namespace Konoha.Hokage

open Json

/-! ### The registry -/

/-- A capability profile; `CAPABILITY_KEYS` are its fields. -/
structure Capabilities where
  mutatesFiles : Bool
  externalNetwork : Bool
  localTransport : Bool
  privateContext : Bool
  deriving DecidableEq

/-- What an action copies from an entry of `SKILLS`, and its profile. -/
structure Skill where
  title : String
  description : String
  riskLevel : String
  capabilities : Capabilities
  deriving DecidableEq

/-- No capability at all. -/
def inert : Capabilities := ⟨false, false, false, false⟩

/-- `SKILLS` -/
def SKILLS : List (String × Skill) :=
  [("inspect_python_runtime",
    { title := "Inspect Python runtime"
      description := "Execute the planned Python version inspection."
      riskLevel := "low", capabilities := inert }),
   ("inspect_git_status",
    { title := "Inspect Git status"
      description := "Execute the planned read-only Git status inspection."
      riskLevel := "low", capabilities := inert }),
   ("run_deterministic_audit_checks",
    { title := "Run deterministic audit checks"
      description := "Run repository tests before any local-model invocation."
      riskLevel := "low", capabilities := inert }),
   ("run_technical_plan",
    { title := "Produce a technical plan"
      description := "Invoke the decision-selected provider (codex or ollama) to " ++
        "produce a bounded technical plan."
      riskLevel := "medium", capabilities := inert }),
   ("invoke_local_model_audit",
    { title := "Run local-model repository audit"
      description := "Invoke the approved Ollama model after deterministic checks, " ++
        "then normalize and validate all findings."
      riskLevel := "medium", capabilities := inert }),
   ("apply_validated_patch",
    { title := "Apply validated documentation patch"
      description := "Apply only the exact approved patch plan and changed paths."
      riskLevel := "medium", capabilities := { inert with mutatesFiles := true } }),
   ("run_post_patch_tests",
    { title := "Run post-patch tests"
      description := "Run the full focused regression suite after patch application."
      riskLevel := "low", capabilities := inert })]

/-- `SKILLS[skill_id]`, or no such skill. -/
def skill? (skillId : String) : Option Skill := (SKILLS.find? fun e => e.1 == skillId).map (·.2)

/-- `PROVIDER_SKILL_IDS` -/
def providerSkillIds : List String := ["run_technical_plan", "invoke_local_model_audit"]

/-- `_PROVIDER_CAPABILITIES[skill_id].get(provider)` -/
def providerCapabilities (skillId provider : String) : Option Capabilities :=
  if skillId = "run_technical_plan" ∧ provider = "codex" then
    some { inert with externalNetwork := true }
  else if (skillId = "run_technical_plan" ∨ skillId = "invoke_local_model_audit") ∧
      provider = "ollama" then
    some { inert with localTransport := true }
  else none

/-- The exceptions of `effective_capabilities`. -/
inductive CapabilityError
  | keyError (key : String)
  | valueError (text : String)
  deriving DecidableEq

/-- `repr(exc)` -/
def CapabilityError.repr (py : Stdlib) : CapabilityError → String
  | keyError key => "KeyError(" ++ py.repr (.str key) ++ ")"
  | valueError text => "ValueError(" ++ py.repr (.str text) ++ ")"

/-- `effective_capabilities` -/
def effectiveCapabilities (py : Stdlib) (skillId : String) (provider : Option String) :
    Except CapabilityError Capabilities :=
  match skill? skillId with
  | none => .error (.keyError skillId)
  | some skill =>
      if skillId ∈ providerSkillIds then
        match provider with
        | none => .error (.valueError (skillId ++ " requires an explicit provider"))
        | some provider =>
            if provider = "" then
              .error (.valueError (skillId ++ " requires an explicit provider"))
            else
              match providerCapabilities skillId provider with
              | some caps => .ok caps
              | none => .error (.valueError
                  (skillId ++ " does not support provider " ++ py.repr (.str provider)))
      else
        match provider with
        | some _ => .error (.valueError
            (skillId ++ " is not a provider skill; provider must be None"))
        | none => .ok skill.capabilities

/-- `_resolve_capabilities`; a profile always has exactly the four keys, with
booleans. -/
def resolveCapabilities (py : Stdlib) (skillId : String) (provider : Option String) :
    Except AuthorityExc Capabilities :=
  match effectiveCapabilities py skillId provider with
  | .ok caps => .ok caps
  | .error e => .error (.binding .capabilityBindingMismatch
      ("effective_capabilities(" ++ py.repr (.str skillId) ++ ", " ++
        py.repr (Json.ofOption provider) ++ ") raised " ++ e.repr py))

theorem OnlyBinding.resolveCapabilities {py : Stdlib} {skillId : String}
    {provider : Option String} : OnlyBinding (Hokage.resolveCapabilities py skillId provider) := by
  intro e h
  unfold Hokage.resolveCapabilities at h
  split at h
  · cases h
  · obtain rfl := Except.error.inj h
    rfl

/-! ### Constraints -/

/-- `human_constraints[key]`, once checked to be a boolean. -/
def constrained (charter : Dict) (key : String) : Bool := constraintOf charter key == .bool true

/-- The three checks of a profile against the human constraints; `label` stands before
the name of the capability in the detail. -/
def requireConstraints (charter : Dict) (caps : Capabilities) (label : String) :
    Except AuthorityExc Unit := do
  require (¬ (constrained charter "mutation_forbidden" ∧ caps.mutatesFiles))
    .capabilityConstraintViolation (label ++ "mutates_files")
  require (¬ (constrained charter "network_blocked" ∧ caps.externalNetwork))
    .capabilityConstraintViolation (label ++ "external_network")
  require (¬ (constrained charter "private_context_restricted" ∧ caps.privateContext))
    .capabilityConstraintViolation (label ++ "private_context")

/-- A profile that the human constraints allow. -/
structure Allows (charter : Dict) (caps : Capabilities) : Prop where
  mutation : ¬ (constrained charter "mutation_forbidden" = true ∧ caps.mutatesFiles = true)
  network : ¬ (constrained charter "network_blocked" = true ∧ caps.externalNetwork = true)
  privateContext :
    ¬ (constrained charter "private_context_restricted" = true ∧ caps.privateContext = true)

theorem requireConstraints_eq_ok {charter : Dict} {caps : Capabilities} {label : String} :
    requireConstraints charter caps label = .ok () ↔ Allows charter caps := by
  simp only [requireConstraints, check_bind_eq_ok, require_eq_ok]
  exact ⟨fun ⟨h₁, h₂, h₃⟩ => ⟨h₁, h₂, h₃⟩, fun ⟨h₁, h₂, h₃⟩ => ⟨h₁, h₂, h₃⟩⟩

theorem OnlyBinding.requireConstraints {charter : Dict} {caps : Capabilities} {label : String} :
    OnlyBinding (Hokage.requireConstraints charter caps label) :=
  .bind .require fun _ _ => .bind .require fun _ _ => .require

/-! ### Registration -/

/-- A list of skill ids of the charter. -/
def skillsOf (charter : Dict) (key : String) : List String := textsOf (fieldOf charter key)

/-- The skills of a well-formed charter are named once in each list. -/
theorem CharterShape.nodup_skillsOf {charter : Dict} (h : CharterShape charter) {key : String}
    (hkey : key ∈ skillListKeys) : (skillsOf charter key).Nodup := by
  have hlist := h.skillLists key hkey
  simp only [validateSkillList, check_bind_eq_ok, require_eq_ok] at hlist
  obtain ⟨-, htexts, hnodup⟩ := hlist
  unfold skillsOf
  cases e : fieldOf charter key with
  | arr items =>
      rw [e] at htexts hnodup
      refine List.Nodup.map_on (fun x hx y hy hxy => ?_) hnodup
      obtain ⟨s, rfl, -⟩ := isText_iff.mp (htexts x hx)
      obtain ⟨s', rfl, -⟩ := isText_iff.mp (htexts y hy)
      exact congrArg Json.str hxy
  | _ => exact List.nodup_nil

/-- `_validate_charter_skill_registration` -/
def validateCharterSkillRegistration (py : Stdlib) (charter : Dict) :
    Except AuthorityExc Unit := do
  let proposed := skillsOf charter "proposed_skills"
  let forbidden := skillsOf charter "forbidden_skills"
  let followups := skillsOf charter "allowed_followup_skills"
  let unregistered := (proposed ++ forbidden ++ followups).dedup.filter fun s => (skill? s).isNone
  require (unregistered = []) .skillForbidden
    ("unregistered skill ids: " ++ listed py unregistered)
  require (proposed.filter (forbidden.contains ·) = []) .skillForbidden
    ("proposed_skills overlaps forbidden_skills: " ++
      listed py (proposed.filter (forbidden.contains ·)))
  require (followups.filter (forbidden.contains ·) = []) .skillForbidden
    ("allowed_followup_skills overlaps forbidden_skills: " ++
      listed py (followups.filter (forbidden.contains ·)))

/-- The skills of a charter are registered, and none that may run is forbidden. -/
structure Registered (charter : Dict) : Prop where
  registered : ∀ key ∈ skillListKeys, ∀ s ∈ skillsOf charter key, (skill? s).isSome = true
  proposed : ∀ s ∈ skillsOf charter "proposed_skills", s ∉ skillsOf charter "forbidden_skills"
  followups :
    ∀ s ∈ skillsOf charter "allowed_followup_skills", s ∉ skillsOf charter "forbidden_skills"

theorem validateCharterSkillRegistration_eq_ok {py : Stdlib} {charter : Dict} :
    validateCharterSkillRegistration py charter = .ok () ↔ Registered charter := by
  simp only [validateCharterSkillRegistration, check_bind_eq_ok, require_eq_ok,
    List.filter_eq_nil_iff, List.mem_dedup, List.mem_append, List.contains_iff_mem]
  constructor
  · rintro ⟨h₁, h₂, h₃⟩
    refine ⟨?_, h₂, h₃⟩
    simp only [skillListKeys, List.forall_mem_cons, List.not_mem_nil, false_implies,
      implies_true, and_true]
    have hsome : ∀ s, ¬ (skill? s).isNone = true → (skill? s).isSome = true := by
      intro s h
      rw [Option.isNone_iff_eq_none] at h
      exact Option.isSome_iff_ne_none.mpr h
    exact ⟨fun s hs => hsome s (h₁ s (.inl (.inl hs))), fun s hs => hsome s (h₁ s (.inl (.inr hs))),
      fun s hs => hsome s (h₁ s (.inr hs))⟩
  · rintro ⟨h₁, h₂, h₃⟩
    refine ⟨fun s hs hnone => ?_, h₂, h₃⟩
    have hsome : (skill? s).isSome = true := by
      rcases hs with (hs | hs) | hs
      · exact h₁ "proposed_skills" (by simp [skillListKeys]) s hs
      · exact h₁ "forbidden_skills" (by simp [skillListKeys]) s hs
      · exact h₁ "allowed_followup_skills" (by simp [skillListKeys]) s hs
    rw [Option.isNone_iff_eq_none] at hnone
    rw [hnone] at hsome
    cases hsome

theorem onlyBinding_validateCharterSkillRegistration {py : Stdlib} {charter : Dict} :
    OnlyBinding (validateCharterSkillRegistration py charter) :=
  .bind .require fun _ _ => .bind .require fun _ _ => .require

/-! ### Construction -/

/-- `selection[key]`, once checked to be a string. -/
def selected (decision : Dict) (key : String) : String := textOf (fieldOf (selectionOf decision) key)

/-- `provider if skill_id in PROVIDER_SKILL_IDS else None` -/
def providerFor (decision : Dict) (skillId : String) : Option String :=
  if skillId ∈ providerSkillIds then some (selected decision "provider") else none

/-- `local_model_only` and a provider that is not local. -/
def notLocal (charter decision : Dict) : Bool :=
  constrained charter "local_model_only" &&
    (selected decision "provider" == "codex" || selected decision "provider" == "claude")

/-- The skills that a mission may run, sorted. -/
def runnable (charter : Dict) : List String :=
  ((skillsOf charter "proposed_skills" ++ skillsOf charter "allowed_followup_skills").dedup
    ).insertionSort (· ≤ ·)

/-- `validate_charter_construction` -/
def validateCharterConstruction (py : Stdlib) (charter decision : Dict) :
    Except AuthorityExc Unit := do
  validateCharterShape py charter false
  validateDecisionShape py decision
  validateCharterSkillRegistration py charter
  require (fieldOf charter "mission_id" = fieldOf decision "mission_id") .missionBindingMismatch
    "candidate charter.mission_id != candidate decision.mission_id"
  require (fieldOf charter "decision_id" = fieldOf decision "decision_id")
    .decisionBindingMismatch "candidate charter.decision_id does not match candidate decision"
  require (fieldOf charter "decision_digest" = .str (canonicalDigest py decision))
    .decisionBindingMismatch
    "candidate charter.decision_digest does not match candidate decision"
  require (¬ notLocal charter decision) .capabilityConstraintViolation "provider_not_local"
  require (fieldOf charter "memory_write_allowed" =
      .bool (!constrained charter "private_context_restricted")) .capabilityConstraintViolation
    "memory_write_allowed must be the exact negation of private_context_restricted"
  (runnable charter).forM fun skillId => do
    let caps ← resolveCapabilities py skillId (providerFor decision skillId)
    requireConstraints charter caps (skillId ++ ": ")

/-- What a charter and a decision are that may be persisted together. -/
structure Constructed (py : Stdlib) (charter decision : Dict) : Prop where
  charterShape : CharterShape charter
  decisionShape : DecisionShape decision
  registered : Registered charter
  missionId : fieldOf charter "mission_id" = fieldOf decision "mission_id"
  decisionId : fieldOf charter "decision_id" = fieldOf decision "decision_id"
  decisionDigest : fieldOf charter "decision_digest" = .str (canonicalDigest py decision)
  localProvider : notLocal charter decision = false
  memory : fieldOf charter "memory_write_allowed" =
    .bool (!constrained charter "private_context_restricted")
  capabilities : ∀ s ∈ skillsOf charter "proposed_skills" ++
      skillsOf charter "allowed_followup_skills",
    ∃ caps, resolveCapabilities py s (providerFor decision s) = .ok caps ∧ Allows charter caps

theorem mem_runnable {charter : Dict} {s : String} :
    s ∈ runnable charter ↔
      s ∈ skillsOf charter "proposed_skills" ++ skillsOf charter "allowed_followup_skills" := by
  rw [runnable, List.mem_insertionSort, List.mem_dedup]

theorem validateCharterConstruction_eq_ok {py : Stdlib} {charter decision : Dict} :
    validateCharterConstruction py charter decision = .ok () ↔
      Constructed py charter decision ∧
        (fieldOf charter "state" = .str "proposed" ∨ fieldOf charter "state" = .str "approved") := by
  have hstate : validateCharterState py (fieldOf charter "state") false = .ok () ↔
      (fieldOf charter "state" = .str "proposed" ∨ fieldOf charter "state" = .str "approved") := by
    unfold validateCharterState
    rw [if_neg (by decide)]
    split
    · exact require_eq_ok
    · rename_i hhash
      refine iff_of_false (by simp) ?_
      rintro (h | h) <;> exact hhash (by rw [h]; rfl)
  have hskill : ∀ s, (resolveCapabilities py s (providerFor decision s) >>= fun caps =>
      requireConstraints charter caps (s ++ ": ")) = .ok () ↔
      ∃ caps, resolveCapabilities py s (providerFor decision s) = .ok caps ∧ Allows charter caps := by
    intro s
    rw [bind_eq_ok]
    simp only [requireConstraints_eq_ok]
  simp only [validateCharterConstruction, check_bind_eq_ok, forM_eq_ok, require_eq_ok, hskill,
    validateCharterShape_eq_ok, validateDecisionShape_eq_ok,
    validateCharterSkillRegistration_eq_ok, mem_runnable, hstate, Bool.not_eq_true]
  constructor
  · rintro ⟨⟨h₁, hs⟩, h₂, h₃, h₄, h₅, h₆, h₇, h₈, h₉⟩
    exact ⟨⟨h₁, h₂, h₃, h₄, h₅, h₆, h₇, h₈, h₉⟩, hs⟩
  · rintro ⟨⟨h₁, h₂, h₃, h₄, h₅, h₆, h₇, h₈, h₉⟩, hs⟩
    exact ⟨⟨h₁, hs⟩, h₂, h₃, h₄, h₅, h₆, h₇, h₈, h₉⟩

end Konoha.Hokage
