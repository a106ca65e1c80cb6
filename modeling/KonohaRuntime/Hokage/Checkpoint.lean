/-
Hokage/Checkpoint.lean

The authority checkpoint: the three authoritative files are read fresh and verified
against each other (`loadAuthoritativeState`), and an action is checked against what
they say (`validateActionAuthority`).

A file is what reading it as UTF-8 JSON gives.  The reader turns a missing file, an
`OSError`, a text that is no JSON and a value that is no object into
`AuthorityBindingError`; bytes that are no UTF-8 and a text that `json.loads` gives
up on pass through it as they are (`Content.escapes`).
-/
import KonohaRuntime.Hokage.Skills

namespace Konoha.Hokage

open Json

/-! ### Files -/

/-- What is found at a path. -/
inductive Content
  | absent
  /-- `read_text` raises an `OSError` -/
  | unreadable (text : String)
  /-- `read_text` raises `UnicodeDecodeError` -/
  | undecodable (text : String)
  /-- `json.loads` raises `JSONDecodeError` -/
  | malformed (text : String)
  /-- `json.loads` raises something else -/
  | unloadable (e : PyExc)
  | json (v : Json)
  deriving DecidableEq

namespace Content

/-- `path.is_file()`, also `path.exists()` -/
def isFile : Content → Bool
  | absent => false
  | _ => true

/-- Reading it raises an exception that `read_authoritative_json` does not turn into
an `AuthorityBindingError`. -/
def escapes : Content → Bool
  | undecodable _ | unloadable _ => true
  | _ => false

end Content

/-- What an empty file reads as. -/
def emptyFile : Content := .malformed "Expecting value: line 1 column 1 (char 0)"

/-- The resolved directory of a mission: its path, and `mission_dir.name`. -/
structure MissionPath where
  path : String
  name : String
  deriving DecidableEq

namespace MissionPath

def charter (dir : MissionPath) : String := dir.path ++ "/mission_charter.json"

def decision (dir : MissionPath) : String := dir.path ++ "/mission_decision.json"

def receipt (dir : MissionPath) : String := dir.path ++ "/mission_authority.json"

end MissionPath

/-- The authoritative files of a mission. -/
structure AuthorityFiles where
  charter : Content
  decision : Content
  receipt : Content
  deriving DecidableEq

/-- `read_authoritative_json` -/
def readAuthoritativeJson (path : String) (content : Content) (code : BindingCode) :
    Except AuthorityExc Dict :=
  match content with
  | .absent => .error (.binding code ("file missing: " ++ path))
  | .unreadable text => .error (.binding code ("file unreadable: " ++ path ++ ": " ++ text))
  | .undecodable text => .error (.python (.valueError text))
  | .malformed text => .error (.binding code ("file is not valid JSON: " ++ path ++ ": " ++ text))
  | .unloadable e => .error (.python e)
  | .json (.obj payload) => .ok payload
  | .json _ => .error (.binding code ("file is not a JSON object: " ++ path))

theorem readAuthoritativeJson_eq_ok {path : String} {content : Content} {code : BindingCode}
    {d : Dict} : readAuthoritativeJson path content code = .ok d ↔ content = .json (.obj d) := by
  cases content with
  | json v => cases v <;> simp [readAuthoritativeJson]
  | _ => simp [readAuthoritativeJson]

/-- What passes through the reader is what escapes. -/
theorem onlyBinding_readAuthoritativeJson (path : String) (content : Content)
    (code : BindingCode) :
    OnlyBinding (readAuthoritativeJson path content code) ↔ content.escapes = false := by
  cases content with
  | json v =>
      refine iff_of_true ?_ rfl
      cases v with
      | obj d => exact .ok d
      | _ =>
          rintro e h
          obtain rfl := Except.error.inj h
          rfl
  | undecodable text =>
      refine iff_of_false (fun h => ?_) (by simp [Content.escapes])
      cases h _ rfl
  | unloadable e =>
      refine iff_of_false (fun h => ?_) (by simp [Content.escapes])
      cases h _ rfl
  | _ =>
      refine iff_of_true ?_ rfl
      rintro e h
      obtain rfl := Except.error.inj h
      rfl

/-! ### The authoritative state -/

/-- `verify_authority_receipt` -/
def verifyAuthorityReceipt (py : Stdlib) (dir : MissionPath) (file : Content)
    (charter decision : Dict) : Except AuthorityExc Unit := do
  require file.isFile .authorityReceiptMissing ("no authority receipt at " ++ dir.receipt)
  let receipt ← readAuthoritativeJson dir.receipt file .authorityReceiptInvalid
  validateReceiptShape py receipt
  require (fieldOf receipt "mission_id" = fieldOf charter "mission_id" ∧
      fieldOf receipt "mission_id" = fieldOf decision "mission_id") .missionBindingMismatch
    "receipt.mission_id does not match charter/decision"
  require (fieldOf receipt "charter_id" = fieldOf charter "charter_id")
    .charterImmutableViolation "receipt.charter_id does not match current charter"
  require (fieldOf receipt "charter_digest" = .str (canonicalDigest py charter))
    .charterImmutableViolation "mission_charter.json changed after approval"
  require (fieldOf receipt "decision_id" = fieldOf decision "decision_id")
    .decisionImmutableViolation "receipt.decision_id does not match current decision"
  require (fieldOf receipt "decision_digest" = .str (canonicalDigest py decision))
    .decisionImmutableViolation "mission_decision.json changed after approval"

/-- A receipt that freezes this charter and this decision. -/
structure Freezes (py : Stdlib) (receipt charter decision : Dict) : Prop where
  shape : ReceiptShape receipt
  missionId : fieldOf receipt "mission_id" = fieldOf charter "mission_id" ∧
    fieldOf receipt "mission_id" = fieldOf decision "mission_id"
  charterId : fieldOf receipt "charter_id" = fieldOf charter "charter_id"
  charterDigest : fieldOf receipt "charter_digest" = .str (canonicalDigest py charter)
  decisionId : fieldOf receipt "decision_id" = fieldOf decision "decision_id"
  decisionDigest : fieldOf receipt "decision_digest" = .str (canonicalDigest py decision)

theorem verifyAuthorityReceipt_eq_ok {py : Stdlib} {dir : MissionPath} {file : Content}
    {charter decision : Dict} :
    verifyAuthorityReceipt py dir file charter decision = .ok () ↔
      ∃ receipt, file = .json (.obj receipt) ∧ Freezes py receipt charter decision := by
  simp only [verifyAuthorityReceipt, check_bind_eq_ok, require_eq_ok]
  rw [bind_eq_ok]
  simp only [readAuthoritativeJson_eq_ok, check_bind_eq_ok, require_eq_ok,
    validateReceiptShape_eq_ok]
  constructor
  · rintro ⟨-, receipt, hf, h₁, h₂, h₃, h₄, h₅, h₆⟩
    exact ⟨receipt, hf, h₁, h₂, h₃, h₄, h₅, h₆⟩
  · rintro ⟨receipt, rfl, h₁, h₂, h₃, h₄, h₅, h₆⟩
    exact ⟨rfl, receipt, rfl, h₁, h₂, h₃, h₄, h₅, h₆⟩

theorem onlyBinding_verifyAuthorityReceipt {py : Stdlib} {dir : MissionPath} {file : Content}
    {charter decision : Dict} :
    OnlyBinding (verifyAuthorityReceipt py dir file charter decision) ↔ file.escapes = false := by
  constructor
  · intro h
    rcases e : file.isFile
    · cases file with
      | absent => rfl
      | _ => cases e
    rw [← onlyBinding_readAuthoritativeJson dir.receipt file .authorityReceiptInvalid]
    intro exc hexc
    refine h exc ?_
    simp only [verifyAuthorityReceipt, require, e, hexc]
    rfl
  · intro h
    refine .bind .require fun _ _ => .bind ((onlyBinding_readAuthoritativeJson _ _ _).mpr h) fun _ _ => ?_
    refine .bind onlyBinding_validateReceiptShape fun _ _ => .bind .require fun _ _ => ?_
    refine .bind .require fun _ _ => .bind .require fun _ _ => .bind .require fun _ _ => ?_
    exact .require

/-- `load_authoritative_state` -/
def loadAuthoritativeState (py : Stdlib) (dir : MissionPath) (files : AuthorityFiles) :
    Except AuthorityExc (Dict × Dict) := do
  let charter ← readAuthoritativeJson dir.charter files.charter .charterBindingMismatch
  validateCharterShape py charter true
  validateCharterSkillRegistration py charter
  let decision ← readAuthoritativeJson dir.decision files.decision .decisionBindingMismatch
  validateDecisionShape py decision
  require (fieldOf charter "decision_id" = fieldOf decision "decision_id" ∧
      fieldOf charter "decision_digest" = .str (canonicalDigest py decision))
    .decisionBindingMismatch "charter's recorded decision does not match mission_decision.json"
  require (fieldOf charter "mission_id" = fieldOf decision "mission_id") .missionBindingMismatch
    "charter.mission_id != decision.mission_id"
  require (fieldOf charter "mission_id" = .str dir.name) .missionBindingMismatch
    ("mission_dir name " ++ py.repr (.str dir.name) ++ " != charter.mission_id")
  verifyAuthorityReceipt py dir files.receipt charter decision
  return (charter, decision)

/-- A charter that the checkpoint accepts before it reads on. -/
structure ApprovedCharter (charter : Dict) : Prop where
  shape : CharterShape charter
  approved : fieldOf charter "state" = .str "approved"
  registered : Registered charter

/-- A decision that the checkpoint accepts for a charter before it reads on. -/
structure Decides (py : Stdlib) (dir : MissionPath) (charter decision : Dict) : Prop where
  shape : DecisionShape decision
  recorded : fieldOf charter "decision_id" = fieldOf decision "decision_id" ∧
    fieldOf charter "decision_digest" = .str (canonicalDigest py decision)
  missionId : fieldOf charter "mission_id" = fieldOf decision "mission_id"
  name : fieldOf charter "mission_id" = .str dir.name

/-- The files hold this charter and this decision, with a receipt that freezes them. -/
structure Authoritative (py : Stdlib) (dir : MissionPath) (files : AuthorityFiles)
    (charter decision : Dict) : Prop where
  charterFile : files.charter = .json (.obj charter)
  approved : ApprovedCharter charter
  decisionFile : files.decision = .json (.obj decision)
  decides : Decides py dir charter decision
  frozen : ∃ receipt, files.receipt = .json (.obj receipt) ∧ Freezes py receipt charter decision

theorem loadAuthoritativeState_eq_ok {py : Stdlib} {dir : MissionPath} {files : AuthorityFiles}
    {charter decision : Dict} :
    loadAuthoritativeState py dir files = .ok (charter, decision) ↔
      Authoritative py dir files charter decision := by
  rw [loadAuthoritativeState, bind_eq_ok]
  simp only [check_bind_eq_ok, readAuthoritativeJson_eq_ok, validateCharterShape_eq_ok,
    validateCharterState_approved, validateCharterSkillRegistration_eq_ok]
  constructor
  · rintro ⟨c, hc, ⟨hshape, happroved⟩, hreg, h⟩
    obtain ⟨d, hd, h⟩ := bind_eq_ok.mp h
    simp only [check_bind_eq_ok, readAuthoritativeJson_eq_ok, validateDecisionShape_eq_ok,
      require_eq_ok, verifyAuthorityReceipt_eq_ok] at hd h
    obtain ⟨h₁, h₂, h₃, h₄, h₅, hret⟩ := h
    obtain ⟨rfl, rfl⟩ := Prod.mk.inj (Except.ok.inj hret)
    exact ⟨hc, ⟨hshape, happroved, hreg⟩, hd, ⟨h₁, h₂, h₃, h₄⟩, h₅⟩
  · rintro ⟨hc, ⟨hshape, happroved, hreg⟩, hd, ⟨h₁, h₂, h₃, h₄⟩, h₅⟩
    refine ⟨charter, hc, ⟨hshape, happroved⟩, hreg, bind_eq_ok.mpr ⟨decision, ?_⟩⟩
    simp only [check_bind_eq_ok, readAuthoritativeJson_eq_ok, validateDecisionShape_eq_ok,
      require_eq_ok, verifyAuthorityReceipt_eq_ok]
    exact ⟨hd, h₁, h₂, h₃, h₄, h₅, rfl⟩

/-- The checkpoint reads a file whose content it cannot turn into an
`AuthorityBindingError`. -/
inductive Escapes (py : Stdlib) (dir : MissionPath) (files : AuthorityFiles) : Prop
  | charter (h : files.charter.escapes = true)
  | decision (charter : Dict) (hc : files.charter = .json (.obj charter))
      (ha : ApprovedCharter charter) (h : files.decision.escapes = true)
  | receipt (charter decision : Dict) (hc : files.charter = .json (.obj charter))
      (ha : ApprovedCharter charter) (hd : files.decision = .json (.obj decision))
      (hb : Decides py dir charter decision) (h : files.receipt.escapes = true)

/-- The state is loaded, or an `AuthorityBindingError` is raised, unless a content
escapes. -/
theorem onlyBinding_loadAuthoritativeState {py : Stdlib} {dir : MissionPath}
    {files : AuthorityFiles} :
    OnlyBinding (loadAuthoritativeState py dir files) ↔ ¬ Escapes py dir files := by
  constructor
  · intro h hescapes
    have hread := (onlyBinding_readAuthoritativeJson _ _ _).mp h.left_of_bind
    have hcharter : ∀ charter, files.charter = .json (.obj charter) → ApprovedCharter charter →
        files.decision.escapes = false ∧
        ∀ decision, files.decision = .json (.obj decision) → Decides py dir charter decision →
          files.receipt.escapes = false := by
      intro charter hc ha
      have h := (h.of_bind (readAuthoritativeJson_eq_ok.mpr hc)).of_bind
        (validateCharterShape_eq_ok.mpr ⟨ha.shape, validateCharterState_approved.mpr ha.approved⟩)
      have h := h.of_bind (validateCharterSkillRegistration_eq_ok.mpr ha.registered)
      refine ⟨(onlyBinding_readAuthoritativeJson _ _ _).mp h.left_of_bind, ?_⟩
      intro decision hd hb
      have h := (h.of_bind (readAuthoritativeJson_eq_ok.mpr hd)).of_bind
        (validateDecisionShape_eq_ok.mpr hb.shape)
      have h := ((h.of_bind (require_eq_ok.mpr hb.recorded)).of_bind
        (require_eq_ok.mpr hb.missionId)).of_bind (require_eq_ok.mpr hb.name)
      exact onlyBinding_verifyAuthorityReceipt.mp h.left_of_bind
    cases hescapes with
    | charter he => exact absurd he (by rw [hread]; decide)
    | decision charter hc ha he => exact absurd he (by rw [(hcharter charter hc ha).1]; decide)
    | receipt charter decision hc ha hd hb he =>
        exact absurd he (by rw [(hcharter charter hc ha).2 decision hd hb]; decide)
  · intro h
    refine .bind ?_ fun charter hc => ?_
    · rw [onlyBinding_readAuthoritativeJson, ← Bool.not_eq_true]
      exact fun he => h (.charter he)
    rw [readAuthoritativeJson_eq_ok] at hc
    refine .bind onlyBinding_validateCharterShape fun _ hshape => ?_
    rw [validateCharterShape_eq_ok, validateCharterState_approved] at hshape
    refine .bind onlyBinding_validateCharterSkillRegistration fun _ hreg => ?_
    rw [validateCharterSkillRegistration_eq_ok] at hreg
    have ha : ApprovedCharter charter := ⟨hshape.1, hshape.2, hreg⟩
    refine .bind ?_ fun decision hd => ?_
    · rw [onlyBinding_readAuthoritativeJson, ← Bool.not_eq_true]
      exact fun he => h (.decision charter hc ha he)
    rw [readAuthoritativeJson_eq_ok] at hd
    refine .bind onlyBinding_validateDecisionShape fun _ hdshape => .bind .require fun _ hrec => ?_
    refine .bind .require fun _ hid => .bind .require fun _ hname => .bind ?_ fun _ _ => .ok _
    have hb : Decides py dir charter decision :=
      ⟨validateDecisionShape_eq_ok.mp hdshape, require_eq_ok.mp hrec, require_eq_ok.mp hid,
        require_eq_ok.mp hname⟩
    rw [onlyBinding_verifyAuthorityReceipt, ← Bool.not_eq_true]
    exact fun he => h (.receipt charter decision hc ha hd hb he)

end Konoha.Hokage
