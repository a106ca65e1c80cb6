/-
Hokage/Documents.lean

The authority checkpoint on the bytes of the three files.

`json.loads` takes the escape of a lone surrogate, and a document with one passes the checks of its
shape.  But `canonical_digest` encodes its text, and the `UnicodeEncodeError` is no
`AuthorityBindingError`; neither is what passes through the reader (`Escape`).  Where every
document can be written the checkpoint is that of `Hokage.loadAuthoritativeState`
(`loadAuthoritativeState_contents`).

The checks of a shape look at the names, at the types and at literals of the code, so they are made
of the document with its surrogates replaced.
-/
import KonohaRuntime.Base.Legible
import KonohaRuntime.Hokage.Action
import KonohaRuntime.Hokage.Reading

namespace Konoha.Hokage

open CodePoint PyJson

/-! ### Reading -/

namespace FileBytes

/-- `path.is_file()` -/
def isFile : FileBytes → Bool
  | absent => false
  | _ => true

/-- Reading it raises an exception that `read_authoritative_json` does not turn into an
`AuthorityBindingError`. -/
def escapes (py : Stdlib) : FileBytes → Bool
  | bytes content =>
      match readText content with
      | none => true
      | some text =>
          match loads py.interpreter text with
          | .error .decode => false
          | .error _ => true
          | .ok _ => false
  | _ => false

end FileBytes

theorem onlyBinding_readJson (py : Stdlib) (path : String) (file : FileBytes) (code : BindingCode) :
    OnlyBinding (readJson py path file code) ↔ file.escapes py = false := by
  have hbinding (detail : String) :
      OnlyBinding (.error (.binding code detail) : Except AuthorityExc PyDict) := by
    intro e h
    obtain rfl := Except.error.inj h
    rfl
  have hpython (e : PyExc) : ¬ OnlyBinding (.error (.python e) : Except AuthorityExc PyDict) :=
    fun h => absurd (h _ rfl) (by simp [AuthorityExc.isBinding])
  cases file with
  | bytes content =>
      unfold readJson FileBytes.escapes
      dsimp only
      cases readText content with
      | none => exact iff_of_false (hpython _) (by simp)
      | some text =>
          unfold readObject
          dsimp only
          rcases loads py.interpreter text with e | v
          · cases e with
            | decode => exact iff_of_true (hbinding _) rfl
            | _ => exact iff_of_false (hpython _) (by simp)
          · refine iff_of_true ?_ rfl
            cases v with
            | obj payload => exact .ok payload
            | _ => exact hbinding _
  | _ => exact iff_of_true (hbinding _) rfl

/-! ### Digests and texts -/

/-- A call of Python's library, whose exceptions pass. -/
def ofPython {α : Type} : Except PyExc α → Except AuthorityExc α
  | .ok a => .ok a
  | .error e => .error (.python e)

theorem ofPython_eq_ok {α : Type} {x : Except PyExc α} {a : α} : ofPython x = .ok a ↔ x = .ok a := by
  cases x <;> simp [ofPython]

theorem onlyBinding_ofPython {α : Type} {x : Except PyExc α} :
    OnlyBinding (ofPython x) ↔ ∃ a, x = .ok a := by
  cases x with
  | ok a => exact iff_of_true (.ok a) ⟨a, rfl⟩
  | error e =>
      refine iff_of_false (fun h => ?_) (by simp)
      cases h _ rfl

/-- `a == b`, of two texts -/
def sameText : PyJson → PyJson → Bool
  | .str s, .str t => s = t
  | _, _ => false

theorem sameText_iff {v w : PyJson} : sameText v w = true ↔ ∃ s, v = .str s ∧ w = .str s := by
  cases v <;> cases w <;> simp [sameText, eq_comm]

namespace Documents

/-- `canonical_digest`, where `json.dumps` has room for `depth` levels of nesting -/
def canonicalDigest (py : Stdlib) (depth : Nat) (payload : PyDict) : Except PyExc String := do
  let text ← encodeSorted py depth .compact (.obj payload)
  return (py.sha256 text).1

/-- The digest is that of the document without surrogates. -/
theorem canonicalDigest_eq_ok {py : Stdlib} {depth : Nat} {payload : PyDict} {digest : String} :
    canonicalDigest py depth payload = .ok digest ↔ Writable py depth (.obj payload) ∧
      digest = Hokage.canonicalDigest py (toJsonFields payload) := by
  unfold canonicalDigest
  rw [bind_eq_ok]
  simp only [encodeSorted_eq_ok_iff]
  constructor
  · rintro ⟨_, ⟨hw, rfl⟩, h⟩
    exact ⟨hw, (Except.ok.inj h).symm⟩
  · rintro ⟨hw, rfl⟩
    exact ⟨_, ⟨hw, rfl⟩, rfl⟩

theorem canonicalDigest_isOk_iff {py : Stdlib} {depth : Nat} {payload : PyDict} :
    (∃ digest, canonicalDigest py depth payload = .ok digest) ↔
      Writable py depth (.obj payload) := by
  simp only [canonicalDigest_eq_ok]
  exact ⟨fun ⟨_, h, _⟩ => h, fun h => ⟨_, h, rfl⟩⟩

end Documents

/-! ### The authoritative state -/

/-- The authoritative files of a mission, as they are on disk. -/
structure AuthorityBytes where
  charter : FileBytes
  decision : FileBytes
  receipt : FileBytes

namespace Documents

variable (py : Stdlib) (depth : Nat) (dir : MissionPath)

/-- `verify_authority_receipt` -/
def verifyAuthorityReceipt (file : FileBytes) (charter decision : PyDict) :
    Except AuthorityExc Unit := do
  require file.isFile .authorityReceiptMissing ("no authority receipt at " ++ dir.receipt)
  let receipt ← readJson py dir.receipt file .authorityReceiptInvalid
  validateReceiptShape py (toJsonFields receipt)
  require (sameText (field receipt "mission_id") (field charter "mission_id") ∧
      sameText (field receipt "mission_id") (field decision "mission_id")) .missionBindingMismatch
    "receipt.mission_id does not match charter/decision"
  require (sameText (field receipt "charter_id") (field charter "charter_id"))
    .charterImmutableViolation "receipt.charter_id does not match current charter"
  let charterDigest ← ofPython (canonicalDigest py depth charter)
  require ((field receipt "charter_digest").is charterDigest)
    .charterImmutableViolation "mission_charter.json changed after approval"
  require (sameText (field receipt "decision_id") (field decision "decision_id"))
    .decisionImmutableViolation "receipt.decision_id does not match current decision"
  let decisionDigest ← ofPython (canonicalDigest py depth decision)
  require ((field receipt "decision_digest").is decisionDigest)
    .decisionImmutableViolation "mission_decision.json changed after approval"

/-- `load_authoritative_state` -/
def loadAuthoritativeState (files : AuthorityBytes) : Except AuthorityExc (PyDict × PyDict) := do
  let charter ← readJson py dir.charter files.charter .charterBindingMismatch
  validateCharterShape py (toJsonFields charter) true
  validateCharterSkillRegistration py (toJsonFields charter)
  let decision ← readJson py dir.decision files.decision .decisionBindingMismatch
  validateDecisionShape py (toJsonFields decision)
  -- the digest is only made where the ids agree
  require (sameText (field charter "decision_id") (field decision "decision_id"))
    .decisionBindingMismatch "charter's recorded decision does not match mission_decision.json"
  let decisionDigest ← ofPython (canonicalDigest py depth decision)
  require ((field charter "decision_digest").is decisionDigest)
    .decisionBindingMismatch "charter's recorded decision does not match mission_decision.json"
  require (sameText (field charter "mission_id") (field decision "mission_id"))
    .missionBindingMismatch "charter.mission_id != decision.mission_id"
  require ((field charter "mission_id").is dir.name) .missionBindingMismatch
    ("mission_dir name " ++ py.repr (.str dir.name) ++ " != charter.mission_id")
  verifyAuthorityReceipt py depth dir files.receipt charter decision
  return (charter, decision)

/-- `validate_action_authority`; what has been loaded has no surrogates. -/
def validateActionAuthority (files : AuthorityBytes) (action : Dict) (phase : Phase) :
    Except AuthorityExc Unit := do
  validateActionIdentity py action phase
  let (charter, decision) ← loadAuthoritativeState py depth dir files
  validateActionBinding py action (toJsonFields charter) (toJsonFields decision)

variable {py depth dir}

/-! ### What is accepted -/

/-- The ids in a receipt are those of this charter and this decision. -/
structure Names (receipt charter decision : PyDict) : Prop where
  shape : ReceiptShape (toJsonFields receipt)
  missionId : sameText (field receipt "mission_id") (field charter "mission_id") ∧
    sameText (field receipt "mission_id") (field decision "mission_id")
  charterId : sameText (field receipt "charter_id") (field charter "charter_id")

/-- A receipt that freezes this charter and this decision. -/
structure Freezes (py : Stdlib) (receipt charter decision : PyDict) : Prop where
  names : Names receipt charter decision
  charterDigest :
    (field receipt "charter_digest").is (Hokage.canonicalDigest py (toJsonFields charter))
  decisionId : sameText (field receipt "decision_id") (field decision "decision_id")
  decisionDigest :
    (field receipt "decision_digest").is (Hokage.canonicalDigest py (toJsonFields decision))

/-- A decision whose id a charter has. -/
structure Chosen (charter decision : PyDict) : Prop where
  shape : DecisionShape (toJsonFields decision)
  decisionId : sameText (field charter "decision_id") (field decision "decision_id")

/-- A decision that the checkpoint accepts for a charter before it reads on. -/
structure Decides (py : Stdlib) (depth : Nat) (dir : MissionPath) (charter decision : PyDict) :
    Prop where
  chosen : Chosen charter decision
  writable : Writable py depth (.obj decision)
  recorded :
    (field charter "decision_digest").is (Hokage.canonicalDigest py (toJsonFields decision))
  missionId : sameText (field charter "mission_id") (field decision "mission_id")
  name : (field charter "mission_id").is dir.name

/-- What is found at a path is this document. -/
def Holds (py : Stdlib) (file : FileBytes) (d : PyDict) : Prop :=
  ∀ path code, readJson py path file code = .ok d

theorem readJson_eq_ok {path : String} {file : FileBytes} {code : BindingCode} {d : PyDict} :
    readJson py path file code = .ok d ↔ Holds py file d := by
  refine ⟨fun h path' code' => ?_, fun h => h path code⟩
  rw [readJson_eq_ok_iff] at h ⊢
  exact h

theorem Holds.unique {file : FileBytes} {d e : PyDict} (hd : Holds py file d)
    (he : Holds py file e) : d = e :=
  Except.ok.inj ((hd "" .charterBindingMismatch).symm.trans (he "" .charterBindingMismatch))

/-- The files hold this charter and this decision, with a receipt that freezes them. -/
structure Authoritative (py : Stdlib) (depth : Nat) (dir : MissionPath) (files : AuthorityBytes)
    (charter decision : PyDict) : Prop where
  charterFile : Holds py files.charter charter
  approved : ApprovedCharter (toJsonFields charter)
  decisionFile : Holds py files.decision decision
  decides : Decides py depth dir charter decision
  writable : Writable py depth (.obj charter)
  frozen : ∃ receipt, Holds py files.receipt receipt ∧ Freezes py receipt charter decision

/-- A digest is made, and then the rest. -/
theorem digest_bind_eq_ok {α : Type} {payload : PyDict} {k : String → Except AuthorityExc α} {a : α} :
    (ofPython (canonicalDigest py depth payload) >>= k) = .ok a ↔
      Writable py depth (.obj payload) ∧
        k (Hokage.canonicalDigest py (toJsonFields payload)) = .ok a := by
  rw [bind_eq_ok]
  simp only [ofPython_eq_ok, canonicalDigest_eq_ok]
  constructor
  · rintro ⟨_, ⟨hw, rfl⟩, h⟩
    exact ⟨hw, h⟩
  · rintro ⟨hw, h⟩
    exact ⟨_, ⟨hw, rfl⟩, h⟩

theorem verifyAuthorityReceipt_eq_ok {file : FileBytes} {charter decision : PyDict} :
    verifyAuthorityReceipt py depth dir file charter decision = .ok () ↔
      Writable py depth (.obj charter) ∧ Writable py depth (.obj decision) ∧
        ∃ receipt, Holds py file receipt ∧ Freezes py receipt charter decision := by
  simp only [verifyAuthorityReceipt, check_bind_eq_ok, require_eq_ok]
  rw [bind_eq_ok]
  simp only [readJson_eq_ok, check_bind_eq_ok, require_eq_ok, validateReceiptShape_eq_ok,
    digest_bind_eq_ok]
  constructor
  · rintro ⟨-, receipt, hf, h₁, h₂, h₃, hc, h₄, h₅, hd, h₆⟩
    exact ⟨hc, hd, receipt, hf, ⟨h₁, h₂, h₃⟩, h₄, h₅, h₆⟩
  · rintro ⟨hc, hd, receipt, hf, ⟨h₁, h₂, h₃⟩, h₄, h₅, h₆⟩
    refine ⟨?_, receipt, hf, h₁, h₂, h₃, hc, h₄, h₅, hd, h₆⟩
    obtain ⟨content, text, rfl, -⟩ := readJson_eq_ok_iff.mp (hf "" .charterBindingMismatch)
    rfl

theorem loadAuthoritativeState_eq_ok {files : AuthorityBytes} {charter decision : PyDict} :
    loadAuthoritativeState py depth dir files = .ok (charter, decision) ↔
      Authoritative py depth dir files charter decision := by
  rw [loadAuthoritativeState, bind_eq_ok]
  simp only [check_bind_eq_ok, readJson_eq_ok, validateCharterShape_eq_ok,
    validateCharterState_approved, validateCharterSkillRegistration_eq_ok]
  constructor
  · rintro ⟨c, hc, ⟨hshape, happroved⟩, hreg, h⟩
    obtain ⟨d, hd, h⟩ := bind_eq_ok.mp h
    simp only [check_bind_eq_ok, readJson_eq_ok, validateDecisionShape_eq_ok, require_eq_ok,
      digest_bind_eq_ok, verifyAuthorityReceipt_eq_ok] at hd h
    obtain ⟨h₁, h₂, hw, h₃, h₄, h₅, ⟨hwc, -, h₆⟩, hret⟩ := h
    obtain ⟨rfl, rfl⟩ := Prod.mk.inj (Except.ok.inj hret)
    exact ⟨hc, ⟨hshape, happroved, hreg⟩, hd, ⟨⟨h₁, h₂⟩, hw, h₃, h₄, h₅⟩, hwc, h₆⟩
  · rintro ⟨hc, ⟨hshape, happroved, hreg⟩, hd, ⟨⟨h₁, h₂⟩, hw, h₃, h₄, h₅⟩, hwc, h₆⟩
    refine ⟨charter, hc, ⟨hshape, happroved⟩, hreg, bind_eq_ok.mpr ⟨decision, ?_⟩⟩
    simp only [check_bind_eq_ok, readJson_eq_ok, validateDecisionShape_eq_ok, require_eq_ok,
      digest_bind_eq_ok, verifyAuthorityReceipt_eq_ok]
    exact ⟨hd, h₁, h₂, hw, h₃, h₄, h₅, ⟨hwc, hw, h₆⟩, rfl⟩

/-! ### What escapes -/

/-- The checkpoint comes to a file that the reader does not turn into an `AuthorityBindingError`, or
to a document that it cannot make the digest of. -/
inductive Escape (py : Stdlib) (depth : Nat) (dir : MissionPath) (files : AuthorityBytes) : Prop
  | charter (h : files.charter.escapes py = true)
  | decision (charter : PyDict) (hc : Holds py files.charter charter)
      (ha : ApprovedCharter (toJsonFields charter)) (h : files.decision.escapes py = true)
  | decisionDigest (charter decision : PyDict) (hc : Holds py files.charter charter)
      (ha : ApprovedCharter (toJsonFields charter)) (hd : Holds py files.decision decision)
      (hb : Chosen charter decision) (h : ¬ Writable py depth (.obj decision))
  | receipt (charter decision : PyDict) (hc : Holds py files.charter charter)
      (ha : ApprovedCharter (toJsonFields charter)) (hd : Holds py files.decision decision)
      (hb : Decides py depth dir charter decision) (h : files.receipt.escapes py = true)
  | charterDigest (charter decision receipt : PyDict) (hc : Holds py files.charter charter)
      (ha : ApprovedCharter (toJsonFields charter)) (hd : Holds py files.decision decision)
      (hb : Decides py depth dir charter decision) (hr : Holds py files.receipt receipt)
      (hn : Names receipt charter decision) (h : ¬ Writable py depth (.obj charter))

theorem onlyBinding_digest {payload : PyDict} :
    OnlyBinding (ofPython (canonicalDigest py depth payload)) ↔ Writable py depth (.obj payload) := by
  rw [onlyBinding_ofPython, canonicalDigest_isOk_iff]

/-- Of a decision whose digest has been made the receipt raises nothing else. -/
theorem onlyBinding_verifyAuthorityReceipt {file : FileBytes} {charter decision : PyDict}
    (hw : Writable py depth (.obj decision)) :
    OnlyBinding (verifyAuthorityReceipt py depth dir file charter decision) ↔
      file.escapes py = false ∧ ∀ receipt, Holds py file receipt → Names receipt charter decision →
        Writable py depth (.obj charter) := by
  constructor
  · intro h
    rcases e : file.isFile
    · cases file with
      | absent =>
          refine ⟨rfl, fun receipt hr => ?_⟩
          cases hr "" .charterBindingMismatch
      | _ => cases e
    have h := h.of_bind (require_eq_ok.mpr e)
    refine ⟨(onlyBinding_readJson _ _ _ _).mp h.left_of_bind, fun receipt hr hn => ?_⟩
    have h := ((h.of_bind (readJson_eq_ok.mpr hr)).of_bind
      (validateReceiptShape_eq_ok.mpr hn.shape)).of_bind (require_eq_ok.mpr hn.missionId)
    exact onlyBinding_digest.mp (h.of_bind (require_eq_ok.mpr hn.charterId)).left_of_bind
  · rintro ⟨hread, hdigest⟩
    refine .bind .require fun _ _ => .bind ((onlyBinding_readJson _ _ _ _).mpr hread) fun receipt hr => ?_
    refine .bind onlyBinding_validateReceiptShape fun _ hshape => .bind .require fun _ hm => ?_
    refine .bind .require fun _ hc => .bind ?_ fun _ _ => .bind .require fun _ _ => ?_
    · exact onlyBinding_digest.mpr (hdigest receipt (readJson_eq_ok.mp hr)
        ⟨validateReceiptShape_eq_ok.mp hshape, require_eq_ok.mp hm, require_eq_ok.mp hc⟩)
    · exact .bind .require fun _ _ => .bind (onlyBinding_digest.mpr hw) fun _ _ => .require

/-- What comes behind an approved charter, when only an `AuthorityBindingError` is raised. -/
theorem decided_of_onlyBinding {files : AuthorityBytes} {charter : PyDict}
    (h : OnlyBinding (loadAuthoritativeState py depth dir files))
    (hc : Holds py files.charter charter) (ha : ApprovedCharter (toJsonFields charter)) :
    files.decision.escapes py = false ∧
      ∀ decision, Holds py files.decision decision → Chosen charter decision →
        Writable py depth (.obj decision) ∧ (Decides py depth dir charter decision →
          OnlyBinding (verifyAuthorityReceipt py depth dir files.receipt charter decision)) := by
  have h := (h.of_bind (readJson_eq_ok.mpr hc)).of_bind
    (validateCharterShape_eq_ok.mpr ⟨ha.shape, validateCharterState_approved.mpr ha.approved⟩)
  have h := h.of_bind (validateCharterSkillRegistration_eq_ok.mpr ha.registered)
  refine ⟨(onlyBinding_readJson _ _ _ _).mp h.left_of_bind, fun decision hd hb => ?_⟩
  have h := (h.of_bind (readJson_eq_ok.mpr hd)).of_bind
    (validateDecisionShape_eq_ok.mpr hb.shape)
  have h := h.of_bind (require_eq_ok.mpr hb.decisionId)
  have hw := onlyBinding_digest.mp h.left_of_bind
  refine ⟨hw, fun hb => ?_⟩
  have h := h.of_bind (ofPython_eq_ok.mpr (canonicalDigest_eq_ok.mpr ⟨hw, rfl⟩))
  exact (((h.of_bind (require_eq_ok.mpr hb.recorded)).of_bind
    (require_eq_ok.mpr hb.missionId)).of_bind (require_eq_ok.mpr hb.name)).left_of_bind

/-- The state is loaded, or an `AuthorityBindingError` is raised, unless something escapes. -/
theorem onlyBinding_loadAuthoritativeState {files : AuthorityBytes} :
    OnlyBinding (loadAuthoritativeState py depth dir files) ↔ ¬ Escape py depth dir files := by
  constructor
  · intro h hescape
    have hread := (onlyBinding_readJson _ _ _ _).mp h.left_of_bind
    cases hescape with
    | charter he => exact absurd he (by rw [hread]; decide)
    | decision charter hc ha he =>
        exact absurd he (by rw [(decided_of_onlyBinding h hc ha).1]; decide)
    | decisionDigest charter decision hc ha hd hb he =>
        exact he ((decided_of_onlyBinding h hc ha).2 decision hd hb).1
    | receipt charter decision hc ha hd hb he =>
        have h := ((decided_of_onlyBinding h hc ha).2 decision hd hb.chosen).2 hb
        rw [onlyBinding_verifyAuthorityReceipt hb.writable] at h
        exact absurd he (by rw [h.1]; decide)
    | charterDigest charter decision receipt hc ha hd hb hr hn he =>
        have h := ((decided_of_onlyBinding h hc ha).2 decision hd hb.chosen).2 hb
        rw [onlyBinding_verifyAuthorityReceipt hb.writable] at h
        exact he (h.2 receipt hr hn)
  · -- each step in its order, with what the steps before have found
    intro h
    refine .bind ?_ fun charter hc => ?_
    · rw [onlyBinding_readJson, ← Bool.not_eq_true]
      exact fun he => h (.charter he)
    rw [readJson_eq_ok] at hc
    refine .bind onlyBinding_validateCharterShape fun _ hshape => ?_
    rw [validateCharterShape_eq_ok, validateCharterState_approved] at hshape
    refine .bind onlyBinding_validateCharterSkillRegistration fun _ hreg => ?_
    rw [validateCharterSkillRegistration_eq_ok] at hreg
    have ha : ApprovedCharter (toJsonFields charter) := ⟨hshape.1, hshape.2, hreg⟩
    refine .bind ?_ fun decision hd => ?_
    · rw [onlyBinding_readJson, ← Bool.not_eq_true]
      exact fun he => h (.decision charter hc ha he)
    rw [readJson_eq_ok] at hd
    refine .bind onlyBinding_validateDecisionShape fun _ hdshape => .bind .require fun _ hid => ?_
    have hb : Chosen charter decision :=
      ⟨validateDecisionShape_eq_ok.mp hdshape, require_eq_ok.mp hid⟩
    have hw : Writable py depth (.obj decision) := by
      by_contra hw
      exact h (.decisionDigest charter decision hc ha hd hb hw)
    refine .bind (onlyBinding_digest.mpr hw) fun digest hdigest => .bind .require fun _ hrec => ?_
    refine .bind .require fun _ hmission => .bind .require fun _ hname => .bind ?_ fun _ _ => .ok _
    obtain ⟨-, rfl⟩ := canonicalDigest_eq_ok.mp (ofPython_eq_ok.mp hdigest)
    have hb : Decides py depth dir charter decision :=
      ⟨hb, hw, require_eq_ok.mp hrec, require_eq_ok.mp hmission, require_eq_ok.mp hname⟩
    rw [onlyBinding_verifyAuthorityReceipt hw]
    refine ⟨?_, fun receipt hr hn => ?_⟩
    · rw [← Bool.not_eq_true]
      exact fun he => h (.receipt charter decision hc ha hd hb he)
    · by_contra hwc
      exact h (.charterDigest charter decision receipt hc ha hd hb hr hn hwc)

theorem validateActionAuthority_eq_ok {files : AuthorityBytes} {action : Dict} {phase : Phase} :
    validateActionAuthority py depth dir files action phase = .ok () ↔
      validateActionIdentity py action phase = .ok () ∧
        ∃ charter decision, Authoritative py depth dir files charter decision ∧
          validateActionBinding py action (toJsonFields charter) (toJsonFields decision) = .ok () := by
  unfold validateActionAuthority
  rw [check_bind_eq_ok, bind_eq_ok]
  constructor
  · rintro ⟨hid, ⟨charter, decision⟩, hload, hbind⟩
    exact ⟨hid, charter, decision, loadAuthoritativeState_eq_ok.mp hload, hbind⟩
  · rintro ⟨hid, charter, decision, hload, hbind⟩
    exact ⟨hid, (charter, decision), loadAuthoritativeState_eq_ok.mpr hload, hbind⟩

/-- For an action whose identity is in order the checkpoint raises something else than
`AuthorityBindingError` exactly when something escapes. -/
theorem onlyBinding_validateActionAuthority {files : AuthorityBytes} {action : Dict} {phase : Phase}
    (hid : validateActionIdentity py action phase = .ok ()) :
    OnlyBinding (validateActionAuthority py depth dir files action phase) ↔
      ¬ Escape py depth dir files := by
  rw [← onlyBinding_loadAuthoritativeState]
  constructor
  · intro h
    exact (h.of_bind hid).left_of_bind
  · intro h
    exact .bind onlyBinding_validateActionIdentity fun _ _ => .bind h fun _ _ =>
      onlyBinding_validateActionBinding

/-! ### Documents without surrogates -/

theorem sameText_ofJson {v w : Json} (hv : isText v = true) :
    sameText (ofJson v) (ofJson w) = true ↔ v = w := by
  obtain ⟨s, rfl, -⟩ := isText_iff.mp hv
  rw [sameText_iff]
  constructor
  · rintro ⟨t, ht, hw⟩
    rw [← toJson_ofJson w, hw, ← ht, toJson_ofJson]
  · rintro rfl
    exact ⟨_, rfl, rfl⟩

theorem is_ofJson {v : Json} {s : String} : (ofJson v).is s = true ↔ v = .str s := by
  rw [is_iff]
  constructor
  · intro h
    rw [← toJson_ofJson v, h]
    exact congrArg Json.str (replaced_ofString s)
  · rintro rfl
    rfl

theorem freezes_ofJsonFields {receipt charter decision : Dict} :
    Freezes py (ofJsonFields receipt) (ofJsonFields charter) (ofJsonFields decision) ↔
      Hokage.Freezes py receipt charter decision := by
  have htext (h : ReceiptShape receipt) {key : String} (hkey : key ∈ receiptKeys) :=
    h.texts key hkey
  constructor
  · rintro ⟨⟨hs, hm, hc⟩, h₁, hd, h₂⟩
    simp only [field_ofJsonFields, toJsonFields_ofJsonFields, is_ofJson] at hs hm hc h₁ hd h₂
    rw [sameText_ofJson (htext hs (by decide)), sameText_ofJson (htext hs (by decide))] at hm
    rw [sameText_ofJson (htext hs (by decide))] at hc hd
    exact ⟨hs, hm, hc, h₁, hd, h₂⟩
  · rintro ⟨hs, hm, hc, h₁, hd, h₂⟩
    refine ⟨⟨?_, ?_, ?_⟩, ?_, ?_, ?_⟩ <;>
      simp only [field_ofJsonFields, toJsonFields_ofJsonFields, is_ofJson]
    · exact hs
    · rwa [sameText_ofJson (htext hs (by decide)), sameText_ofJson (htext hs (by decide))]
    · rwa [sameText_ofJson (htext hs (by decide))]
    · exact h₁
    · rwa [sameText_ofJson (htext hs (by decide))]
    · exact h₂

theorem decides_ofJsonFields {charter decision : Dict} (hs : CharterShape charter)
    (hw : Writable py depth (.obj (ofJsonFields decision))) :
    Decides py depth dir (ofJsonFields charter) (ofJsonFields decision) ↔
      Hokage.Decides py dir charter decision := by
  have htext {key : String} (hkey : key ∈ ["charter_id", "mission_id", "decision_id",
      "decision_digest", "approval_phrase"]) := hs.texts key hkey
  constructor
  · rintro ⟨⟨hd, hid⟩, -, hrec, hm, hn⟩
    simp only [field_ofJsonFields, toJsonFields_ofJsonFields, is_ofJson] at hd hid hrec hm hn
    rw [sameText_ofJson (htext (by decide))] at hid hm
    exact ⟨hd, ⟨hid, hrec⟩, hm, hn⟩
  · rintro ⟨hd, ⟨hid, hrec⟩, hm, hn⟩
    refine ⟨⟨?_, ?_⟩, hw, ?_, ?_, ?_⟩ <;>
      simp only [field_ofJsonFields, toJsonFields_ofJsonFields, is_ofJson]
    · exact hd
    · rwa [sameText_ofJson (htext (by decide))]
    · exact hrec
    · rwa [sameText_ofJson (htext (by decide))]
    · exact hn

/-- The files hold documents without surrogates, of which the charter and the decision can be
written. -/
structure Contents (py : Stdlib) (depth : Nat) (files : AuthorityBytes)
    (charter decision receipt : Dict) : Prop where
  charterFile : Holds py files.charter (ofJsonFields charter)
  decisionFile : Holds py files.decision (ofJsonFields decision)
  receiptFile : Holds py files.receipt (ofJsonFields receipt)
  charter : Writable py depth (.obj (ofJsonFields charter))
  decision : Writable py depth (.obj (ofJsonFields decision))

/-- **The two checkpoints agree** on documents without surrogates. -/
theorem loadAuthoritativeState_contents {files : AuthorityBytes} {c d r charter decision : Dict}
    (h : Contents py depth files c d r) :
    loadAuthoritativeState py depth dir files = .ok (ofJsonFields charter, ofJsonFields decision) ↔
      Hokage.loadAuthoritativeState py dir ⟨.json (.obj c), .json (.obj d), .json (.obj r)⟩ =
        .ok (charter, decision) := by
  have hinjective {a b : Dict} (hab : ofJsonFields a = ofJsonFields b) : a = b := by
    rw [← toJsonFields_ofJsonFields a, hab, toJsonFields_ofJsonFields]
  rw [loadAuthoritativeState_eq_ok, Hokage.loadAuthoritativeState_eq_ok]
  constructor
  · rintro ⟨hc, ha, hd, hb, -, receipt, hr, hf⟩
    obtain rfl := hinjective (hc.unique h.charterFile)
    obtain rfl := hinjective (hd.unique h.decisionFile)
    obtain rfl := hr.unique h.receiptFile
    rw [toJsonFields_ofJsonFields] at ha
    exact ⟨rfl, ha, rfl, (decides_ofJsonFields ha.shape h.decision).mp hb, r, rfl,
      freezes_ofJsonFields.mp hf⟩
  · rintro ⟨hc, ha, hd, hb, receipt, hr, hf⟩
    obtain rfl := Json.obj.inj (Content.json.inj hc)
    obtain rfl := Json.obj.inj (Content.json.inj hd)
    obtain rfl := Json.obj.inj (Content.json.inj hr)
    refine ⟨h.charterFile, ?_, h.decisionFile, (decides_ofJsonFields ha.shape h.decision).mpr hb,
      h.charter, _, h.receiptFile, freezes_ofJsonFields.mpr hf⟩
    rw [toJsonFields_ofJsonFields]
    exact ha

theorem validateActionAuthority_contents {files : AuthorityBytes} {c d r action : Dict}
    {phase : Phase} (h : Contents py depth files c d r)
    (hok : Hokage.validateActionAuthority py dir ⟨.json (.obj c), .json (.obj d), .json (.obj r)⟩
      action phase = .ok ()) :
    validateActionAuthority py depth dir files action phase = .ok () := by
  obtain ⟨hid, charter, decision, hauth, hbind⟩ := Hokage.validateActionAuthority_eq_ok.mp hok
  refine validateActionAuthority_eq_ok.mpr ⟨hid, ofJsonFields charter, ofJsonFields decision, ?_, ?_⟩
  · rw [← loadAuthoritativeState_eq_ok, loadAuthoritativeState_contents h]
    exact Hokage.loadAuthoritativeState_eq_ok.mpr hauth
  · rw [toJsonFields_ofJsonFields, toJsonFields_ofJsonFields]
    exact hbind

/-- A document as it is written, with line breaks. -/
def written (py : Stdlib) (d : Dict) : FileBytes :=
  .bytes (Json.dumps py .indented 0 (.obj d)).toUTF8

/-- What is written is read back. -/
theorem holds_written {d : Dict} (hfits : Loads.Fits py (ofJson (.obj d)))
    (hnesting : (ofJson (.obj d)).nesting ≤ py.interpreter.depth) :
    Holds py (written py d) (ofJsonFields d) := by
  intro path code
  have hreturn : '\r' ∉ (Json.dumps py .indented 0 (.obj d)).toList := by
    intro hmem
    have hmem' : scalar '\r' ∈ PyStr.ofString (Json.dumps py .indented 0 (.obj d)) :=
      List.mem_map_of_mem hmem
    rw [← dumps_ofJson] at hmem'
    exact Loads.notMem_dumps py Loads.returnless_indented _ 0 hfits hmem'
  have hread := readText_written hreturn
  rw [String.ofList_toList] at hread
  refine readJson_eq_ok_iff.mpr ⟨_, _, rfl, hread, ?_⟩
  have hload := @loads_dumps _ _ Loads.spaced_indented _ hnesting hfits [] (by simp)
  rw [List.append_nil, dumps_ofJson] at hload
  exact hload

end Documents

end Konoha.Hokage
