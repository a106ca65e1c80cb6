/-
Hokage/Action.lean

The check of one action against the authoritative state, `validate_action_authority`:
the action's own identity, arguments and approval evidence (`validateActionIdentity`),
then the files, then everything the arguments bind (`validateActionBinding`).
-/
import KonohaRuntime.Hokage.Checkpoint

namespace Konoha.Hokage

open Json

/-- The phases of the checkpoint. -/
inductive Phase
  | queueInit
  | followupAppend
  | restore
  | preDispatch
  deriving DecidableEq

namespace Phase

def text : Phase → String
  | queueInit => "queue_init"
  | followupAppend => "followup_append"
  | restore => "restore"
  | preDispatch => "pre_dispatch"

/-- `_PHASE_TIER` -/
def tier? : Phase → Option String
  | queueInit => some "initial"
  | followupAppend => some "followup"
  | _ => none

end Phase

/-- `compute_arguments_hash` -/
abbrev computeArgumentsHash (py : Stdlib) (arguments : Dict) : String := canonicalDigest py arguments

/-- `compute_action_id` -/
def computeActionId (py : Stdlib) (missionId skillId argumentsHash : String) : String :=
  "action-" ++ String.ofList
    (((py.sha256 (missionId ++ "|" ++ skillId ++ "|" ++ argumentsHash)).1.toList).take 10)

/-- The dict in a value that has been checked to be one. -/
def dictOf : Json → Dict
  | .obj kvs => kvs
  | _ => []

/-! ### The action itself -/

/-- `_validate_approval_evidence` -/
def validateApprovalEvidence (action : Dict) : Except AuthorityExc Unit := do
  let evidence := fieldOf action "evidence"
  require (isDict evidence) .approvalBindingMismatch "action has no persisted approval evidence"
  ["approved_by", "approved_at", "arguments_hash"].forM fun key =>
    require (isText (fieldOf (dictOf evidence) key)) .approvalBindingMismatch
      ("evidence." ++ key ++ " is missing or empty")
  require (fieldOf (dictOf evidence) "arguments_hash" = fieldOf action "arguments_hash")
    .approvalBindingMismatch "evidence.arguments_hash does not match action.arguments_hash"

/-- Recorded approval evidence that belongs to the action. -/
structure Approved (action : Dict) : Prop where
  evidence : isDict (fieldOf action "evidence") = true
  texts : ∀ key ∈ ["approved_by", "approved_at", "arguments_hash"],
    isText (fieldOf (dictOf (fieldOf action "evidence")) key) = true
  hash : fieldOf (dictOf (fieldOf action "evidence")) "arguments_hash" =
    fieldOf action "arguments_hash"

theorem validateApprovalEvidence_eq_ok {action : Dict} :
    validateApprovalEvidence action = .ok () ↔ Approved action := by
  simp only [validateApprovalEvidence, check_bind_eq_ok, forM_eq_ok, require_eq_ok]
  exact ⟨fun ⟨h₁, h₂, h₃⟩ => ⟨h₁, h₂, h₃⟩, fun ⟨h₁, h₂, h₃⟩ => ⟨h₁, h₂, h₃⟩⟩

theorem onlyBinding_validateApprovalEvidence {action : Dict} :
    OnlyBinding (validateApprovalEvidence action) :=
  .bind .require fun _ _ => .bind (.forM fun _ => .require) fun _ _ => .require

/-- The fields of an action that must be strings, with the code each is reported by. -/
def actionTexts : List (String × BindingCode) :=
  [("mission_id", .missionBindingMismatch), ("action_id", .argumentsHashMismatch),
   ("skill_id", .charterBindingMismatch), ("tier", .charterBindingMismatch),
   ("plan_id", .argumentsHashMismatch), ("arguments_hash", .argumentsHashMismatch)]

/-- The check of the recorded approval that a phase asks for. -/
def validateStatus (py : Stdlib) (action : Dict) : Phase → Except AuthorityExc Unit
  | .preDispatch => do
      require (fieldOf action "status" = .str "running") .approvalBindingMismatch
        ("action.status must be 'running' at dispatch, got " ++ py.repr (fieldOf action "status"))
      validateApprovalEvidence action
  | .restore =>
      if fieldOf action "status" = .str "running" then validateApprovalEvidence action else .ok ()
  | _ => .ok ()

/-- The fields that an action must have, in the order they are fetched. -/
def actionKeys : List (String × BindingCode) :=
  [("mission_id", .missionBindingMismatch), ("action_id", .argumentsHashMismatch),
   ("skill_id", .charterBindingMismatch), ("tier", .charterBindingMismatch),
   ("plan_id", .argumentsHashMismatch), ("arguments", .argumentsHashMismatch),
   ("arguments_hash", .argumentsHashMismatch)]

/-- The code that an action key or text is reported by. -/
def codeIn (codes : List (String × BindingCode)) (key : String) : BindingCode :=
  ((codes.find? fun e => e.1 == key).map (·.2)).getD .argumentsHashMismatch

/-- The fields of an action, before anything is read from its status. -/
def validateActionFields (py : Stdlib) (action : Dict) (phase : Phase) :
    Except AuthorityExc Unit := do
  (actionKeys.map (·.1)).forM fun key => do
    let _ ← required action key (codeIn actionKeys key)
  (actionTexts.map (·.1)).forM fun key =>
    require (isText (fieldOf action key)) (codeIn actionTexts key)
      ("action." ++ key ++ " must be a non-empty string")
  require (isDict (fieldOf action "arguments")) .argumentsHashMismatch
    "action.arguments must be an object"
  let arguments := dictOf (fieldOf action "arguments")
  let tier := textOf (fieldOf action "tier")
  require (tier = "initial" ∨ tier = "followup") .charterBindingMismatch
    ("action.tier must be initial/followup, got " ++ py.repr (fieldOf action "tier"))
  require (tier = phase.tier?.getD tier) .charterBindingMismatch
    ("action.tier " ++ py.repr (fieldOf action "tier") ++ " != expected " ++
      py.repr (.str (phase.tier?.getD tier)) ++ " for phase " ++ py.repr (.str phase.text))
  require (computeArgumentsHash py arguments = textOf (fieldOf action "arguments_hash"))
    .argumentsHashMismatch
    "action.arguments_hash does not match recomputed hash of action.arguments"
  require (computeActionId py (textOf (fieldOf action "mission_id"))
      (textOf (fieldOf action "skill_id")) (textOf (fieldOf action "arguments_hash")) =
    textOf (fieldOf action "action_id")) .argumentsHashMismatch
    "action.action_id does not match mission_id|skill_id|arguments_hash"
  let argSkillId ← required arguments "skill_id" .charterBindingMismatch
  let argTier ← required arguments "tier" .charterBindingMismatch
  let argPlanId ← required arguments "plan_id" .argumentsHashMismatch
  require (isText argPlanId) .argumentsHashMismatch "arguments.plan_id must be a non-empty string"
  require (argSkillId = fieldOf action "skill_id") .charterBindingMismatch
    ("arguments.skill_id " ++ py.repr argSkillId ++ " != " ++ py.repr (fieldOf action "skill_id"))
  require (argTier = fieldOf action "tier") .charterBindingMismatch
    ("arguments.tier " ++ py.repr argTier ++ " != " ++ py.repr (fieldOf action "tier"))
  require (argPlanId = fieldOf action "plan_id") .argumentsHashMismatch
    ("arguments.plan_id " ++ py.repr argPlanId ++ " != " ++ py.repr (fieldOf action "plan_id"))

/-- What an action has to be, whatever the phase and its status. -/
structure ActionFields (py : Stdlib) (action : Dict) : Prop where
  present : ∀ key ∈ actionKeys.map (·.1), (lookup key action).isSome = true
  texts : ∀ key ∈ actionTexts.map (·.1), isText (fieldOf action key) = true
  arguments : isDict (fieldOf action "arguments") = true
  tier : textOf (fieldOf action "tier") = "initial" ∨ textOf (fieldOf action "tier") = "followup"
  hash : computeArgumentsHash py (dictOf (fieldOf action "arguments")) =
    textOf (fieldOf action "arguments_hash")
  actionId : computeActionId py (textOf (fieldOf action "mission_id"))
      (textOf (fieldOf action "skill_id")) (textOf (fieldOf action "arguments_hash")) =
    textOf (fieldOf action "action_id")
  argSkillId : lookup "skill_id" (dictOf (fieldOf action "arguments")) =
    some (fieldOf action "skill_id")
  argTier : lookup "tier" (dictOf (fieldOf action "arguments")) = some (fieldOf action "tier")
  argPlanId : lookup "plan_id" (dictOf (fieldOf action "arguments")) =
    some (fieldOf action "plan_id")

theorem required_bind_eq_ok {α : Type} {source : Dict} {key : String} {code : BindingCode}
    {k : Json → Except AuthorityExc α} {a : α} :
    (required source key code >>= k) = .ok a ↔ ∃ v, lookup key source = some v ∧ k v = .ok a := by
  rw [bind_eq_ok]
  simp only [required_eq_ok]

theorem validateActionFields_eq_ok {py : Stdlib} {action : Dict} {phase : Phase} :
    validateActionFields py action phase = .ok () ↔
      ActionFields py action ∧
        textOf (fieldOf action "tier") =
          phase.tier?.getD (textOf (fieldOf action "tier")) := by
  have hpresent : ∀ key, (required action key (codeIn actionKeys key) >>= fun _ =>
      (pure () : Except AuthorityExc Unit)) = .ok () ↔ (lookup key action).isSome = true := by
    intro key
    rw [required_bind_eq_ok, Option.isSome_iff_exists]
    exact ⟨fun ⟨v, hv, _⟩ => ⟨v, hv⟩, fun ⟨v, hv⟩ => ⟨v, hv, rfl⟩⟩
  simp only [validateActionFields, check_bind_eq_ok, forM_eq_ok, hpresent, require_eq_ok,
    required_bind_eq_ok]
  constructor
  · rintro ⟨h₁, h₂, h₃, h₄, h₅, h₆, h₇, s, hs, t, ht, p, hp, -, rfl, rfl, rfl⟩
    exact ⟨⟨h₁, h₂, h₃, h₄, h₆, h₇, hs, ht, hp⟩, h₅⟩
  · rintro ⟨⟨h₁, h₂, h₃, h₄, h₆, h₇, hs, ht, hp⟩, h₅⟩
    exact ⟨h₁, h₂, h₃, h₄, h₅, h₆, h₇, _, hs, _, ht, _, hp, h₂ "plan_id" (by simp [actionTexts]),
      rfl, rfl, rfl⟩

/-- The fields that change after an action has been created. -/
def mutableKeys : List String := ["status", "evidence", "updated_at", "blocked_reason"]

/-- `a'` is `a` at a later time. -/
def Later (a a' : Dict) : Prop := ∀ key ∉ mutableKeys, lookup key a' = lookup key a

theorem Later.refl (a : Dict) : Later a a := fun _ _ => rfl

theorem Later.trans {a b c : Dict} (h : Later a b) (h' : Later b c) : Later a c :=
  fun key hkey => (h' key hkey).trans (h key hkey)

theorem Later.fieldOf {a a' : Dict} (h : Later a a') {k : String} (hk : k ∉ mutableKeys) :
    fieldOf a' k = fieldOf a k := by
  unfold Konoha.fieldOf
  rw [h k hk]

/-- What an action has to be it stays. -/
theorem ActionFields.later {py : Stdlib} {a a' : Dict} (h : ActionFields py a) (hl : Later a a') :
    ActionFields py a' := by
  have hkeys : ∀ key ∈ actionKeys.map (·.1), key ∉ mutableKeys := by decide
  have htexts : ∀ key ∈ actionTexts.map (·.1), key ∉ mutableKeys := by decide
  have h₁ := hl.fieldOf (k := "arguments") (by decide)
  have h₂ := hl.fieldOf (k := "tier") (by decide)
  have h₃ := hl.fieldOf (k := "arguments_hash") (by decide)
  have h₄ := hl.fieldOf (k := "mission_id") (by decide)
  have h₅ := hl.fieldOf (k := "skill_id") (by decide)
  have h₆ := hl.fieldOf (k := "action_id") (by decide)
  have h₇ := hl.fieldOf (k := "plan_id") (by decide)
  refine ⟨fun key hkey => ?_, fun key hkey => ?_, ?_, ?_, ?_, ?_, ?_, ?_, ?_⟩
  · rw [hl key (hkeys key hkey)]
    exact h.present key hkey
  · rw [hl.fieldOf (htexts key hkey)]
    exact h.texts key hkey
  · rw [h₁]
    exact h.arguments
  · rw [h₂]
    exact h.tier
  · rw [h₁, h₃]
    exact h.hash
  · rw [h₄, h₅, h₃, h₆]
    exact h.actionId
  · rw [h₁, h₅]
    exact h.argSkillId
  · rw [h₁, h₂]
    exact h.argTier
  · rw [h₁, h₇]
    exact h.argPlanId

/-- `validate_action_authority`, up to the reading of the files. -/
def validateActionIdentity (py : Stdlib) (action : Dict) (phase : Phase) :
    Except AuthorityExc Unit := do
  validateActionFields py action phase
  validateStatus py action phase

theorem onlyBinding_validateStatus {py : Stdlib} {action : Dict} {phase : Phase} :
    OnlyBinding (validateStatus py action phase) := by
  cases phase with
  | preDispatch => exact .bind .require fun _ _ => onlyBinding_validateApprovalEvidence
  | restore =>
      show OnlyBinding (if _ then _ else _)
      split
      · exact onlyBinding_validateApprovalEvidence
      · exact .ok ()
  | queueInit => exact .ok ()
  | followupAppend => exact .ok ()

theorem onlyBinding_validateActionIdentity {py : Stdlib} {action : Dict} {phase : Phase} :
    OnlyBinding (validateActionIdentity py action phase) := by
  refine .bind ?_ fun _ _ => onlyBinding_validateStatus
  unfold validateActionFields
  refine .bind (.forM fun _ => .bind .required fun _ _ => .ok _) fun _ _ => ?_
  refine .bind (.forM fun _ => .require) fun _ _ => .bind .require fun _ _ => ?_
  refine .bind .require fun _ _ => .bind .require fun _ _ => .bind .require fun _ _ => ?_
  refine .bind .require fun _ _ => .bind .required fun _ _ => .bind .required fun _ _ => ?_
  refine .bind .required fun _ _ => .bind .require fun _ _ => .bind .require fun _ _ => ?_
  exact .bind .require fun _ _ => .require

/-! ### What the arguments bind -/

/-- The arguments of a provider skill that must be strings, with their codes. -/
def providerTexts : List (String × BindingCode) :=
  [("provider", .providerSelectionMismatch), ("model", .modelSelectionMismatch),
   ("strategy", .strategySelectionMismatch), ("selection_source", .selectionSourceMismatch)]

/-- The part of the checkpoint for provider skills. -/
def validateProviderArguments (py : Stdlib) (charter decision arguments : Dict)
    (skillId : String) : Except AuthorityExc Capabilities := do
  selectionRequiredKeys.forM fun key => do
    let _ ← required arguments key (codeIn providerTexts key)
  let externalNetwork ← required arguments "external_network" .capabilityBindingMismatch
  let localTransport ← required arguments "local_transport" .capabilityBindingMismatch
  selectionRequiredKeys.forM fun key =>
    require (isText (fieldOf arguments key)) (codeIn providerTexts key)
      ("arguments." ++ key ++ " must be a non-empty string")
  require (isBool externalNetwork ∧ isBool localTransport) .capabilityBindingMismatch
    "external_network/local_transport must be exact booleans"
  selectionRequiredKeys.forM fun key =>
    require (fieldOf arguments key = fieldOf (selectionOf decision) key) (codeIn providerTexts key) ""
  let caps ← resolveCapabilities py skillId (some (textOf (fieldOf arguments "provider")))
  require (externalNetwork = .bool caps.externalNetwork ∧
      localTransport = .bool caps.localTransport) .capabilityBindingMismatch ""
  require (¬ notLocal charter decision) .capabilityConstraintViolation "provider_not_local"
  return caps

/-- The list of the charter that an action of a tier must be in, and what it is told
otherwise. -/
def validateTier (charter : Dict) (tier skillId : String) : Except AuthorityExc Unit :=
  if tier = "initial" then
    require (skillId ∈ skillsOf charter "proposed_skills") .skillForbidden
      (skillId ++ " was not proposed")
  else
    require (skillId ∈ skillsOf charter "allowed_followup_skills") .skillForbidden
      (skillId ++ " is not an allowed follow-up for this charter")

/-- The capabilities of the skill that an action runs. -/
def actionCapabilities (py : Stdlib) (charter decision arguments : Dict) (skillId : String) :
    Except AuthorityExc Capabilities :=
  if skillId ∈ providerSkillIds then validateProviderArguments py charter decision arguments skillId
  else resolveCapabilities py skillId none

/-- `validate_action_authority`, from the reading of the files on. -/
def validateActionBinding (py : Stdlib) (action charter decision : Dict) :
    Except AuthorityExc Unit := do
  let arguments := dictOf (fieldOf action "arguments")
  let skillId := textOf (fieldOf action "skill_id")
  require (fieldOf action "mission_id" = fieldOf charter "mission_id") .missionBindingMismatch
    "action.mission_id != charter.mission_id"
  require (skill? skillId).isSome .skillForbidden (skillId ++ " is not registered")
  require (skillId ∉ skillsOf charter "forbidden_skills") .skillForbidden
    (skillId ++ " is forbidden by this charter")
  validateTier charter (textOf (fieldOf action "tier")) skillId
  let charterId ← required arguments "charter_id" .charterBindingMismatch
  let charterDigest ← required arguments "charter_digest" .charterBindingMismatch
  require (charterId = fieldOf charter "charter_id" ∧
      charterDigest = .str (canonicalDigest py charter)) .charterBindingMismatch
    "charter identity or digest changed"
  let decisionId ← required arguments "decision_id" .decisionBindingMismatch
  let decisionDigest ← required arguments "decision_digest" .decisionBindingMismatch
  require (decisionId = fieldOf decision "decision_id" ∧
      decisionDigest = .str (canonicalDigest py decision)) .decisionBindingMismatch
    "decision identity or digest changed"
  let caps ← actionCapabilities py charter decision arguments skillId
  requireConstraints charter caps ""

/-- `validate_action_authority` -/
def validateActionAuthority (py : Stdlib) (dir : MissionPath) (files : AuthorityFiles)
    (action : Dict) (phase : Phase) : Except AuthorityExc Unit := do
  validateActionIdentity py action phase
  let (charter, decision) ← loadAuthoritativeState py dir files
  validateActionBinding py action charter decision

/-- An accepted action is bound to the digests of the charter and of the decision. -/
theorem digests_of_validateActionBinding {py : Stdlib} {action charter decision : Dict}
    (h : validateActionBinding py action charter decision = .ok ()) :
    lookup "charter_digest" (dictOf (fieldOf action "arguments")) =
        some (.str (canonicalDigest py charter)) ∧
      lookup "decision_digest" (dictOf (fieldOf action "arguments")) =
        some (.str (canonicalDigest py decision)) := by
  simp only [validateActionBinding, check_bind_eq_ok] at h
  obtain ⟨-, -, -, -, h⟩ := h
  obtain ⟨charterId, -, h⟩ := bind_eq_ok.mp h
  obtain ⟨charterDigest, hcharter, h⟩ := bind_eq_ok.mp h
  rw [check_bind_eq_ok, require_eq_ok] at h
  obtain ⟨⟨-, hc⟩, h⟩ := h
  obtain ⟨decisionId, -, h⟩ := bind_eq_ok.mp h
  obtain ⟨decisionDigest, hdecision, h⟩ := bind_eq_ok.mp h
  rw [check_bind_eq_ok, require_eq_ok] at h
  obtain ⟨⟨-, hd⟩, -⟩ := h
  rw [required_eq_ok] at hcharter hdecision
  rw [hcharter, hdecision, hc, hd]
  exact ⟨rfl, rfl⟩

theorem onlyBinding_validateActionBinding {py : Stdlib} {action charter decision : Dict} :
    OnlyBinding (validateActionBinding py action charter decision) := by
  have htier : OnlyBinding (validateTier charter (textOf (fieldOf action "tier"))
      (textOf (fieldOf action "skill_id"))) := by
    unfold validateTier
    split <;> exact .require
  have hcaps : OnlyBinding (actionCapabilities py charter decision
      (dictOf (fieldOf action "arguments")) (textOf (fieldOf action "skill_id"))) := by
    unfold actionCapabilities
    split
    · refine .bind (.forM fun _ => .bind .required fun _ _ => .ok _) fun _ _ => ?_
      refine .bind .required fun _ _ => .bind .required fun _ _ => ?_
      refine .bind (.forM fun _ => .require) fun _ _ => .bind .require fun _ _ => ?_
      refine .bind (.forM fun _ => .require) fun _ _ => ?_
      refine .bind .resolveCapabilities fun _ _ => .bind .require fun _ _ => ?_
      exact .bind .require fun _ _ => .ok _
    · exact .resolveCapabilities
  unfold validateActionBinding
  refine .bind .require fun _ _ => .bind .require fun _ _ => .bind .require fun _ _ => ?_
  refine .bind htier fun _ _ => .bind .required fun _ _ => .bind .required fun _ _ => ?_
  refine .bind .require fun _ _ => .bind .required fun _ _ => .bind .required fun _ _ => ?_
  exact .bind .require fun _ _ => .bind hcaps fun _ _ => .requireConstraints

/-- The checkpoint accepts an action whose identity is in order, when the files hold a
state that it is bound to. -/
theorem validateActionAuthority_eq_ok {py : Stdlib} {dir : MissionPath} {files : AuthorityFiles}
    {action : Dict} {phase : Phase} :
    validateActionAuthority py dir files action phase = .ok () ↔
      validateActionIdentity py action phase = .ok () ∧
        ∃ charter decision, Authoritative py dir files charter decision ∧
          validateActionBinding py action charter decision = .ok () := by
  unfold validateActionAuthority
  rw [check_bind_eq_ok, bind_eq_ok]
  constructor
  · rintro ⟨hid, ⟨charter, decision⟩, hload, hbind⟩
    exact ⟨hid, charter, decision, loadAuthoritativeState_eq_ok.mp hload, hbind⟩
  · rintro ⟨hid, charter, decision, hload, hbind⟩
    exact ⟨hid, (charter, decision), loadAuthoritativeState_eq_ok.mpr hload, hbind⟩

/-- For an action whose identity is in order the checkpoint raises something else than
`AuthorityBindingError` exactly when a content escapes. -/
theorem onlyBinding_validateActionAuthority {py : Stdlib} {dir : MissionPath}
    {files : AuthorityFiles} {action : Dict} {phase : Phase}
    (hid : validateActionIdentity py action phase = .ok ()) :
    OnlyBinding (validateActionAuthority py dir files action phase) ↔ ¬ Escapes py dir files := by
  rw [← onlyBinding_loadAuthoritativeState]
  constructor
  · intro h
    exact (h.of_bind hid).left_of_bind
  · intro h
    exact .bind onlyBinding_validateActionIdentity fun _ _ => .bind h fun _ _ =>
      onlyBinding_validateActionBinding

/-- What an action binds it binds for good. -/
theorem validateActionBinding_later {py : Stdlib} {a a' charter decision : Dict}
    (hl : Later a a') :
    validateActionBinding py a' charter decision = validateActionBinding py a charter decision := by
  unfold validateActionBinding
  rw [hl.fieldOf (k := "arguments") (by decide), hl.fieldOf (k := "skill_id") (by decide),
    hl.fieldOf (k := "mission_id") (by decide), hl.fieldOf (k := "tier") (by decide)]

/-! ### Building an action -/

/-- `d.update(kvs)` -/
def update (d kvs : Dict) : Dict := kvs.foldl (fun d kv => setField kv.1 kv.2 d) d

/-- The arguments every action binds. -/
def boundArguments (py : Stdlib) (planId skillId tier : String) (charter decision : Dict) : Dict :=
  [("skill_id", .str skillId), ("tier", .str tier), ("plan_id", .str planId),
   ("charter_id", fieldOf charter "charter_id"),
   ("charter_digest", .str (canonicalDigest py charter)),
   ("decision_id", fieldOf decision "decision_id"),
   ("decision_digest", .str (canonicalDigest py decision))]

/-- The arguments a provider skill binds besides. -/
def providerArguments (decision : Dict) (caps : Capabilities) : Dict :=
  let selection := selectionOf decision
  [("provider", fieldOf selection "provider"), ("model", fieldOf selection "model"),
   ("strategy", fieldOf selection "strategy"),
   ("selection_source", fieldOf selection "selection_source"),
   ("external_network", .bool caps.externalNetwork),
   ("local_transport", .bool caps.localTransport)]

/-- An exception of `effective_capabilities` that nobody wraps. -/
def CapabilityError.asExc (py : Stdlib) : CapabilityError → AuthorityExc
  | keyError key => .python (.exception (py.repr (.str key)))
  | valueError text => .python (.valueError text)

/-- The arguments of an action. -/
def actionArguments (py : Stdlib) (planId skillId tier : String) (charter decision extra : Dict) :
    Except AuthorityExc Dict :=
  let arguments := update extra (boundArguments py planId skillId tier charter decision)
  if skillId ∈ providerSkillIds then
    match effectiveCapabilities py skillId (some (selected decision "provider")) with
    | .ok caps => .ok (update arguments (providerArguments decision caps))
    | .error e => .error (e.asExc py)
  else .ok arguments

/-- An action proposal with the given arguments. -/
def actionProposal (py : Stdlib) (missionId planId skillId tier : String) (skill : Skill)
    (arguments : Dict) (now : String) : Dict :=
  let hash := computeArgumentsHash py arguments
  let actionId := computeActionId py missionId skillId hash
  let suffix := String.ofList ((actionId.toList.drop "action-".toList.length).map Char.toUpper)
  [("schema_version", .str "1.1.0"), ("report_type", .str "conversational_action_proposal"),
   ("action_id", .str actionId), ("mission_id", .str missionId), ("plan_id", .str planId),
   ("skill_id", .str skillId), ("tier", .str tier), ("title", .str skill.title),
   ("description", .str skill.description), ("arguments", .obj arguments),
   ("arguments_hash", .str hash), ("risk_level", .str skill.riskLevel),
   ("status", .str "proposed"), ("approval_phrase", .str ("APROBAR ACCION-" ++ suffix)),
   ("rejection_phrase", .str ("RECHAZAR ACCION-" ++ suffix)), ("created_at", .str now),
   ("authority", .obj [("proposal_is_not_permission", .bool true),
     ("approval_is_bound_to_arguments_hash", .bool true)])]

/-- `_build_action` -/
def buildAction (py : Stdlib) (missionId planId skillId tier : String)
    (charter decision extra : Dict) (now : String) : Except AuthorityExc Dict :=
  match skill? skillId with
  | none => .error (.python (.exception (py.repr (.str skillId))))
  | some skill => do
      let arguments ← actionArguments py planId skillId tier charter decision extra
      return actionProposal py missionId planId skillId tier skill arguments now

end Konoha.Hokage
