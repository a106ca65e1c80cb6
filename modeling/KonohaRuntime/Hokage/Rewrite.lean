/-
Hokage/Rewrite.lean

What the checkpoint notices when the authoritative files of an approved mission are
rewritten after an action has been bound to them.

The action carries the digests of the charter and of the decision, so a rewrite of
either is noticed whatever becomes of the receipt.  Two things are not: a receipt that
is rewritten in the fields nothing is compared with, and a content for which the
exception is not an `AuthorityBindingError`, since the reader lets it through or no digest
can be made of it (`rewrite_detected_iff`).
-/
import KonohaRuntime.Hokage.Documents
import KonohaRuntime.Hokage.Frozen

namespace Konoha.Hokage

open Json PyJson

/-- The checkpoint raises `AuthorityBindingError`. -/
def Detects (x : Except AuthorityExc Unit) : Prop := ∃ code detail, x = .error (.binding code detail)

theorem detects_iff {x : Except AuthorityExc Unit} :
    Detects x ↔ x ≠ .ok () ∧ OnlyBinding x := by
  constructor
  · rintro ⟨code, detail, rfl⟩
    refine ⟨by simp, ?_⟩
    rintro e ⟨⟩
    rfl
  · rintro ⟨hne, honly⟩
    rcases x with (⟨code, detail⟩ | e) | ⟨⟩
    · exact ⟨code, detail, rfl⟩
    · cases honly _ rfl
    · exact absurd rfl hne

/-- `initialize` or `append_action_checked` creates `action` while the files hold this
charter and this decision: it is built from them and has passed the check of its phase. -/
structure Created (py : Stdlib) (depth : Nat) (dir : MissionPath) (files : AuthorityBytes)
    (charter decision action : Dict) : Prop where
  loaded : Documents.loadAuthoritativeState py depth dir files =
    .ok (ofJsonFields charter, ofJsonFields decision)
  built : ∃ missionId planId skillId tier extra now,
    buildAction py missionId planId skillId tier charter decision extra now = .ok action
  checked : ∃ phase, (phase.tier?).isSome = true ∧
    Documents.validateActionAuthority py depth dir files action phase = .ok ()

/-- `canonical_json` -/
def canonicalJson (py : Stdlib) (d : PyDict) : PyStr := PyJson.dumps py .compact 0 (sortKeys (.obj d))

/-- The file has another canonical JSON text than before, or is no JSON object. -/
def Rewritten (py : Stdlib) (old new : FileBytes) : Prop :=
  ∀ d d', Documents.Holds py old d → Documents.Holds py new d' →
    canonicalJson py d' ≠ canonicalJson py d

/-- Each file is the one it was, or has been rewritten, and one has been. -/
structure Rewrites (py : Stdlib) (old new : AuthorityBytes) : Prop where
  charter : new.charter = old.charter ∨ Rewritten py old.charter new.charter
  decision : new.decision = old.decision ∨ Rewritten py old.decision new.decision
  receipt : new.receipt = old.receipt ∨ Rewritten py old.receipt new.receipt
  some : Rewritten py old.charter new.charter ∨ Rewritten py old.decision new.decision ∨
    Rewritten py old.receipt new.receipt

/-- Only the receipt is another, and it freezes the same charter and decision: their
ids, their digests and the mission id. -/
structure Harmless (py : Stdlib) (old new : AuthorityBytes) (charter decision : Dict) : Prop where
  charterFile : new.charter = old.charter
  decisionFile : new.decision = old.decision
  receipt : ∃ receipt, Documents.Holds py new.receipt receipt ∧
    Documents.Freezes py receipt (ofJsonFields charter) (ofJsonFields decision)

variable {py : Stdlib} {depth : Nat} {dir : MissionPath} {files files' : AuthorityBytes}
variable {charter decision action action' : Dict} {phase : Phase}

/-- A created action is bound to the state it was created in, at any later time. -/
theorem Created.bound (h : Created py depth dir files charter decision action)
    (hl : Later action action') :
    ActionFields py action' ∧
      Documents.Authoritative py depth dir files (ofJsonFields charter) (ofJsonFields decision) ∧
      validateActionBinding py action' charter decision = .ok () := by
  obtain ⟨phase, -, hcheck⟩ := h.checked
  obtain ⟨hid, c, d, hauth, hbind⟩ := Documents.validateActionAuthority_eq_ok.mp hcheck
  have heq : (c, d) = (ofJsonFields charter, ofJsonFields decision) := by
    have hload := Documents.loadAuthoritativeState_eq_ok.mpr hauth
    rw [h.loaded] at hload
    exact (Except.ok.inj hload).symm
  obtain ⟨rfl, rfl⟩ := Prod.mk.inj heq
  rw [validateActionIdentity, check_bind_eq_ok, validateActionFields_eq_ok] at hid
  rw [toJsonFields_ofJsonFields, toJsonFields_ofJsonFields] at hbind
  refine ⟨hid.1.1.later hl, hauth, ?_⟩
  rw [validateActionBinding_later hl]
  exact hbind

/-- A canonical text determines the content of a file that has not been rewritten. -/
theorem eq_of_not_rewritten {old new : FileBytes} {d : Dict} {d' : PyDict}
    (h : new = old ∨ Rewritten py old new) (hold : Documents.Holds py old (ofJsonFields d))
    (hnew : Documents.Holds py new d') (hw : Writable py depth (.obj d'))
    (hc : canonical py (.obj (toJsonFields d')) = canonical py (.obj d)) :
    new = old := by
  rcases h with h | h
  · exact h
  · have htext : canonicalJson py d' = canonicalJson py (ofJsonFields d) := by
      have hlegible : ofJson (.obj (toJsonFields d')) = .obj d' := ofJson_toJson _ hw.legible
      rw [canonicalJson, canonicalJson, ← hlegible]
      show PyJson.dumps py .compact 0 (sortKeys (ofJson (.obj (toJsonFields d')))) =
        PyJson.dumps py .compact 0 (sortKeys (ofJson (.obj d)))
      rw [sortKeys_ofJson, sortKeys_ofJson, dumps_ofJson, dumps_ofJson]
      exact congrArg PyStr.ofString hc
    exact absurd htext (h _ d' hold hnew)

/-- The state that a rewritten directory still gives to an action bound before. -/
theorem harmless_of_accepted (hcreated : Created py depth dir files charter decision action)
    (hl : Later action action') (hr : Rewrites py files files')
    (hcharter : ∀ s, py.sha256 s = py.sha256 (canonical py (.obj charter)) →
      s = canonical py (.obj charter))
    (hdecision : ∀ s, py.sha256 s = py.sha256 (canonical py (.obj decision)) →
      s = canonical py (.obj decision))
    (h : Documents.validateActionAuthority py depth dir files' action' phase = .ok ()) :
    Harmless py files files' charter decision := by
  obtain ⟨-, hauth, hbind⟩ := hcreated.bound hl
  obtain ⟨-, c, d, hauth', hbind'⟩ := Documents.validateActionAuthority_eq_ok.mp h
  obtain ⟨hdc, hdd⟩ := digests_of_validateActionBinding hbind
  obtain ⟨hdc', hdd'⟩ := digests_of_validateActionBinding hbind'
  -- the digests in the arguments leave one charter and one decision
  have hceq : canonical py (.obj (toJsonFields c)) = canonical py (.obj charter) := by
    have e := hdc'.symm.trans hdc
    exact hcharter _ (Subtype.ext (Json.str.inj (Option.some.inj e)))
  have hdeq : canonical py (.obj (toJsonFields d)) = canonical py (.obj decision) := by
    have e := hdd'.symm.trans hdd
    exact hdecision _ (Subtype.ext (Json.str.inj (Option.some.inj e)))
  have hcfile := eq_of_not_rewritten hr.charter hauth.charterFile hauth'.charterFile
    hauth'.writable hceq
  have hdfile := eq_of_not_rewritten hr.decision hauth.decisionFile hauth'.decisionFile
    hauth'.decides.writable hdeq
  obtain rfl := hauth'.charterFile.unique (hcfile ▸ hauth.charterFile)
  obtain rfl := hauth'.decisionFile.unique (hdfile ▸ hauth.decisionFile)
  exact ⟨hcfile, hdfile, hauth'.frozen⟩

/-- A harmless rewrite is accepted. -/
theorem accepted_of_harmless (hcreated : Created py depth dir files charter decision action)
    (hl : Later action action') (hphase : phase = .restore ∨ phase = .preDispatch)
    (hstatus : validateStatus py action' phase = .ok ())
    (h : Harmless py files files' charter decision) :
    Documents.validateActionAuthority py depth dir files' action' phase = .ok () := by
  obtain ⟨hfields, hauth, hbind⟩ := hcreated.bound hl
  refine Documents.validateActionAuthority_eq_ok.mpr
    ⟨?_, ofJsonFields charter, ofJsonFields decision, ?_, ?_⟩
  · rw [validateActionIdentity, check_bind_eq_ok, validateActionFields_eq_ok]
    refine ⟨⟨hfields, ?_⟩, hstatus⟩
    rcases hphase with rfl | rfl <;> rfl
  · exact ⟨h.charterFile ▸ hauth.charterFile, hauth.approved, h.decisionFile ▸ hauth.decisionFile,
      hauth.decides, hauth.writable, h.receipt⟩
  · rw [toJsonFields_ofJsonFields, toJsonFields_ofJsonFields]
    exact hbind

/-- **Rewrites are detected**, exactly: the checkpoint raises `AuthorityBindingError` for
an action created before the rewrite if and only if the action is not in the status
that the phase asks for, or neither is the rewrite harmless nor does the content of a
rewritten file escape. -/
theorem rewrite_detected_iff (hcreated : Created py depth dir files charter decision action)
    (hl : Later action action') (hphase : phase = .restore ∨ phase = .preDispatch)
    (hr : Rewrites py files files')
    (hcharter : ∀ s, py.sha256 s = py.sha256 (canonical py (.obj charter)) →
      s = canonical py (.obj charter))
    (hdecision : ∀ s, py.sha256 s = py.sha256 (canonical py (.obj decision)) →
      s = canonical py (.obj decision)) :
    Detects (Documents.validateActionAuthority py depth dir files' action' phase) ↔
      validateStatus py action' phase ≠ .ok () ∨
        ¬ Harmless py files files' charter decision ∧ ¬ Documents.Escape py depth dir files' := by
  have hfields : validateActionFields py action' phase = .ok () := by
    rw [validateActionFields_eq_ok]
    refine ⟨(hcreated.bound hl).1, ?_⟩
    rcases hphase with rfl | rfl <;> rfl
  by_cases hstatus : validateStatus py action' phase = .ok ()
  · have hid : validateActionIdentity py action' phase = .ok () := by
      rw [validateActionIdentity, check_bind_eq_ok]
      exact ⟨hfields, hstatus⟩
    rw [detects_iff, Documents.onlyBinding_validateActionAuthority hid]
    constructor
    · rintro ⟨hne, hescapes⟩
      refine .inr ⟨fun hharmless => hne ?_, hescapes⟩
      exact accepted_of_harmless hcreated hl hphase hstatus hharmless
    · rintro (h | ⟨hharmless, hescapes⟩)
      · exact absurd hstatus h
      · refine ⟨fun hok => hharmless ?_, hescapes⟩
        exact harmless_of_accepted hcreated hl hr hcharter hdecision hok
  · refine iff_of_true ?_ (.inl hstatus)
    -- the status is looked at before any file
    have hid : validateActionIdentity py action' phase = validateStatus py action' phase := by
      rw [validateActionIdentity, hfields]
      rfl
    rcases e : validateStatus py action' phase with (⟨code, detail⟩ | e') | ⟨⟩
    · refine ⟨code, detail, ?_⟩
      rw [Documents.validateActionAuthority, hid, e]
      rfl
    · cases onlyBinding_validateStatus _ e
    · exact absurd e hstatus

/-! ### A sample mission -/

/-- The charter of the sample mission once it has been approved. -/
def sampleApproved : Dict := approvedCharter sampleCharter "2026-01-01T00:00:00+00:00" "ana"

theorem isHex_decisionDigest :
    isHex 64 "e0d11b815b135bb7defa215c6ccb49472663506fbebc0d76e09a835098b526f4".toList = true :=
  isHex_ofList (by decide)

theorem isHex_approvedDigest :
    isHex 64 "3f53e37a8f5bc104f4e0d8197c6f1480d6d485b07a5ab628ff9bbc2ff701b70e".toList = true :=
  isHex_ofList (by decide)

theorem isHex_actionDigest :
    isHex 64 "7c4f179a6fd2677265039a0d5980853d2428ad26a375f98601bd926d1246a4e8".toList = true :=
  isHex_ofList (by decide)

theorem isHex_proposalDigest :
    isHex 64 "b0e83555242a747c0fc23dd64900c357649a4eea0c87d81ae994772fe9eab76a".toList = true :=
  isHex_ofList (by decide)

theorem isHex_otherDigest :
    isHex 64 "3c96890892fe629feb8b436e19f244097fdc8ba8001cc910d77cc5308c3950f4".toList = true :=
  isHex_ofList (by decide)

/-- The library functions on the texts of the sample mission: the decision and the
approved charter have digests that no other text has. -/
def exactHashes : Stdlib where
  sha256 text :=
    if text.utf8ByteSize = 210 ∧ text = canonical sampleHashes (.obj sampleDecision) then
      ⟨"e0d11b815b135bb7defa215c6ccb49472663506fbebc0d76e09a835098b526f4",
          isHex_decisionDigest⟩
    else if text.utf8ByteSize = 625 ∧ text = canonical sampleHashes (.obj sampleApproved) then
      ⟨"3f53e37a8f5bc104f4e0d8197c6f1480d6d485b07a5ab628ff9bbc2ff701b70e",
          isHex_approvedDigest⟩
    else if text.utf8ByteSize = 307 then
      ⟨"7c4f179a6fd2677265039a0d5980853d2428ad26a375f98601bd926d1246a4e8",
          isHex_actionDigest⟩
    else if text.utf8ByteSize = 93 then
      ⟨"b0e83555242a747c0fc23dd64900c357649a4eea0c87d81ae994772fe9eab76a",
          isHex_proposalDigest⟩
    else ⟨"3c96890892fe629feb8b436e19f244097fdc8ba8001cc910d77cc5308c3950f4",
          isHex_otherDigest⟩
  floatRepr := sampleHashes.floatRepr
  lower s := s
  format _ := "None"
  repr _ := "''"
  interpreter := usualInterpreter

def sampleReceipt : Dict :=
  receiptOf exactHashes sampleApproved sampleDecision "2026-01-01T00:00:00+00:00"
    "APROBAR CHARTER-0123456789"

/-- The files of the sample mission, with any receipt. -/
def sampleFiles (receipt : Content) : AuthorityFiles :=
  ⟨.json (.obj sampleApproved), .json (.obj sampleDecision), receipt⟩

def sampleArguments : Dict :=
  boundArguments exactHashes "mission-a-plan" "inspect_git_status" "initial" sampleApproved
    sampleDecision

/-- The action that `initialize` proposes for the sample mission. -/
def sampleAction : Dict :=
  actionProposal exactHashes "mission-a" "mission-a-plan" "inspect_git_status" "initial"
    { title := "Inspect Git status"
      description := "Execute the planned read-only Git status inspection."
      riskLevel := "low", capabilities := inert } sampleArguments "2026-01-01T00:00:00+00:00"

/-- The receipt with another time of approval. -/
def backdatedReceipt : Dict := setField "approved_at" (.str "2025-01-01T00:00:00+00:00") sampleReceipt

/-- What the sample mission evaluates to; the kernel shares the texts of the documents among these. -/
theorem sample_evaluates :
    ((canonical sampleHashes (.obj sampleDecision)).utf8ByteSize = 210 ∧
      (canonical sampleHashes (.obj sampleApproved)).utf8ByteSize = 625) ∧
    (canonical exactHashes (.obj sampleApproved) = canonical sampleHashes (.obj sampleApproved) ∧
      canonical exactHashes (.obj sampleDecision) = canonical sampleHashes (.obj sampleDecision)) ∧
    loadAuthoritativeState exactHashes sampleDir (sampleFiles (.json (.obj sampleReceipt))) =
      .ok (sampleApproved, sampleDecision) ∧
    buildAction exactHashes "mission-a" "mission-a-plan" "inspect_git_status" "initial" sampleApproved
      sampleDecision [] "2026-01-01T00:00:00+00:00" = .ok sampleAction ∧
    validateActionAuthority exactHashes sampleDir (sampleFiles (.json (.obj sampleReceipt))) sampleAction
      .queueInit = .ok () ∧
    canonical exactHashes (.obj backdatedReceipt) ≠ canonical exactHashes (.obj sampleReceipt) ∧
    validateActionAuthority exactHashes sampleDir (sampleFiles (.json (.obj backdatedReceipt)))
      sampleAction .restore = .ok () := by decide +kernel

/-- The digests of the two documents are those of no other text. -/
theorem exactHashes_unique (s : String) :
    (exactHashes.sha256 s = exactHashes.sha256 (canonical sampleHashes (.obj sampleDecision)) →
      s = canonical sampleHashes (.obj sampleDecision)) ∧
    (exactHashes.sha256 s = exactHashes.sha256 (canonical sampleHashes (.obj sampleApproved)) →
      s = canonical sampleHashes (.obj sampleApproved)) := by
  obtain ⟨hd, ha⟩ := sample_evaluates.1
  constructor
  · intro h
    by_contra hs
    simp only [exactHashes, hs, hd, and_false, and_self, if_true, if_false] at h
    split_ifs at h <;> exact absurd (congrArg Subtype.val h) (by decide)
  · intro h
    by_contra hs
    simp only [exactHashes, hs, ha, and_false, and_self, if_true, if_false, Nat.reduceEqDiff,
      false_and] at h
    split_ifs at h <;> exact absurd (congrArg Subtype.val h) (by decide)

theorem canonical_exactHashes :
    canonical exactHashes (.obj sampleApproved) = canonical sampleHashes (.obj sampleApproved) ∧
      canonical exactHashes (.obj sampleDecision) =
        canonical sampleHashes (.obj sampleDecision) := sample_evaluates.2.1

/-- The documents of the sample mission can be written and read back. -/
theorem sample_documents :
    (Loads.isRegular (ofJson (.obj sampleApproved)) = true ∧
      (ofJson (.obj sampleApproved)).intsFit usualInterpreter = true) ∧
    (Loads.isRegular (ofJson (.obj sampleDecision)) = true ∧
      (ofJson (.obj sampleDecision)).intsFit usualInterpreter = true) ∧
    (Loads.isRegular (ofJson (.obj sampleReceipt)) = true ∧
      (ofJson (.obj sampleReceipt)).intsFit usualInterpreter = true) ∧
    (Loads.isRegular (ofJson (.obj backdatedReceipt)) = true ∧
      (ofJson (.obj backdatedReceipt)).intsFit usualInterpreter = true) ∧
    ∀ d ∈ [sampleApproved, sampleDecision, sampleReceipt, backdatedReceipt],
      (ofJson (.obj d)).nesting ≤ 100 := by decide +kernel

theorem holds_sample {d : Dict} (hregular : Loads.isRegular (ofJson (.obj d)) = true ∧
      (ofJson (.obj d)).intsFit usualInterpreter = true) (hnesting : (ofJson (.obj d)).nesting ≤ 100) :
    Documents.Holds exactHashes (Documents.written exactHashes d) (ofJsonFields d) :=
  Documents.holds_written
    ((Loads.fits_iff _ _).mpr ⟨Loads.regular_of_isRegular _ _ hregular.1, hregular.2⟩)
    (Nat.le_trans hnesting (by decide))

theorem writable_sample {d : Dict} (hints : (ofJson (.obj d)).intsFit usualInterpreter = true)
    (hnesting : (ofJson (.obj d)).nesting ≤ 100) :
    Writable exactHashes 100 (.obj (ofJsonFields d)) := ⟨legible_ofJson (.obj d), hnesting, hints⟩

/-- The files of the sample mission on disk, with any receipt. -/
def sampleBytes (receipt : FileBytes) : AuthorityBytes :=
  ⟨Documents.written exactHashes sampleApproved, Documents.written exactHashes sampleDecision,
    receipt⟩

theorem holds_approved : Documents.Holds exactHashes (Documents.written exactHashes sampleApproved)
    (ofJsonFields sampleApproved) :=
  holds_sample sample_documents.1 (sample_documents.2.2.2.2 _ List.mem_cons_self)

theorem holds_decision : Documents.Holds exactHashes (Documents.written exactHashes sampleDecision)
    (ofJsonFields sampleDecision) :=
  holds_sample sample_documents.2.1
    (sample_documents.2.2.2.2 _ (List.mem_cons_of_mem _ List.mem_cons_self))

theorem writable_decision : Writable exactHashes 100 (.obj (ofJsonFields sampleDecision)) :=
  writable_sample sample_documents.2.1.2
    (sample_documents.2.2.2.2 _ (List.mem_cons_of_mem _ List.mem_cons_self))

theorem contents_sample {receipt : Dict} (h : Documents.Holds exactHashes
      (Documents.written exactHashes receipt) (ofJsonFields receipt)) :
    Documents.Contents exactHashes 100 (sampleBytes (Documents.written exactHashes receipt))
      sampleApproved sampleDecision receipt :=
  ⟨holds_approved, holds_decision, h,
    writable_sample sample_documents.1.2 (sample_documents.2.2.2.2 _ List.mem_cons_self),
    writable_decision⟩

theorem holds_receipt : Documents.Holds exactHashes (Documents.written exactHashes sampleReceipt)
    (ofJsonFields sampleReceipt) :=
  holds_sample sample_documents.2.2.1 (sample_documents.2.2.2.2 _
    (List.mem_cons_of_mem _ (List.mem_cons_of_mem _ List.mem_cons_self)))

theorem holds_backdated : Documents.Holds exactHashes
    (Documents.written exactHashes backdatedReceipt) (ofJsonFields backdatedReceipt) :=
  holds_sample sample_documents.2.2.2.1 (sample_documents.2.2.2.2 _
    (List.mem_cons_of_mem _ (List.mem_cons_of_mem _ (List.mem_cons_of_mem _ List.mem_cons_self))))

theorem sampleAction_created :
    Created exactHashes 100 sampleDir (sampleBytes (Documents.written exactHashes sampleReceipt))
      sampleApproved sampleDecision sampleAction where
  loaded := (Documents.loadAuthoritativeState_contents (contents_sample holds_receipt)).mpr
    sample_evaluates.2.2.1
  built := ⟨"mission-a", "mission-a-plan", "inspect_git_status", "initial", [],
    "2026-01-01T00:00:00+00:00", sample_evaluates.2.2.2.1⟩
  checked := ⟨.queueInit, rfl,
    Documents.validateActionAuthority_contents (contents_sample holds_receipt)
      sample_evaluates.2.2.2.2.1⟩

/-- A rewrite of the receipt alone. -/
theorem rewrites_receipt {receipt : FileBytes}
    (h : Rewritten exactHashes (Documents.written exactHashes sampleReceipt) receipt) :
    Rewrites exactHashes (sampleBytes (Documents.written exactHashes sampleReceipt))
      (sampleBytes receipt) :=
  ⟨.inl rfl, .inl rfl, .inr h, .inr (.inr h)⟩

/-- An empty file. -/
def emptyBytes : FileBytes := .bytes (String.ofList []).toUTF8

theorem emptyBytes_unread : emptyBytes.escapes exactHashes = false ∧
    ∀ d, ¬ Documents.Holds exactHashes emptyBytes d := by
  have hread : readText (String.ofList []).toUTF8 = some [] := readText_written (by simp)
  have hload : loads exactHashes.interpreter [] = .error .decode := rfl
  constructor
  · rw [emptyBytes, FileBytes.escapes, hread]
    dsimp only
    rw [hload]
  · intro d h
    obtain ⟨content, text, hbytes, htext, hobject⟩ :=
      readJson_eq_ok_iff.mp (h "" .charterBindingMismatch)
    obtain rfl := FileBytes.bytes.inj hbytes
    obtain rfl := Option.some.inj (hread.symm.trans htext)
    rw [hload] at hobject
    cases hobject

theorem not_escapes_of_holds {file : FileBytes} {d : PyDict} (h : Documents.Holds py file d) :
    file.escapes py = false := by
  rw [← onlyBinding_readJson py "" file .charterBindingMismatch, h]
  exact .ok d

/-- An emptied receipt is detected. -/
theorem emptiedReceipt_detected :
    Detects (Documents.validateActionAuthority exactHashes 100 sampleDir (sampleBytes emptyBytes)
      sampleAction .restore) := by
  obtain ⟨hread, hholds⟩ := emptyBytes_unread
  have hrewritten : Rewritten exactHashes (Documents.written exactHashes sampleReceipt) emptyBytes :=
    fun d d' _ h => absurd h (hholds d')
  obtain ⟨hca, hcd⟩ := canonical_exactHashes
  refine (rewrite_detected_iff sampleAction_created (.refl _) (.inl rfl)
    (rewrites_receipt hrewritten) ?_ ?_).mpr (.inr ⟨?_, ?_⟩)
  · rw [hca]
    exact fun s => (exactHashes_unique s).2
  · rw [hcd]
    exact fun s => (exactHashes_unique s).1
  · rintro ⟨-, -, receipt, h, -⟩
    exact hholds receipt h
  · intro h
    cases h with
    | charter h =>
        exact Bool.false_ne_true ((not_escapes_of_holds holds_approved).symm.trans h)
    | decision charter hc ha h =>
        exact Bool.false_ne_true ((not_escapes_of_holds holds_decision).symm.trans h)
    | decisionDigest charter decision hc ha hd hb h =>
        obtain rfl := Documents.Holds.unique hd holds_decision
        exact h writable_decision
    | receipt charter decision hc ha hd hb h => exact Bool.false_ne_true (hread.symm.trans h)
    | charterDigest charter decision receipt hc ha hd hb hr hn h => exact hholds receipt hr

/-- **A backdated receipt is not detected**: of the three files only the receipt is
rewritten, and the action that was bound before passes the checkpoint. -/
theorem backdatedReceipt_undetected :
    Created exactHashes 100 sampleDir (sampleBytes (Documents.written exactHashes sampleReceipt))
        sampleApproved sampleDecision sampleAction ∧
      Rewrites exactHashes (sampleBytes (Documents.written exactHashes sampleReceipt))
        (sampleBytes (Documents.written exactHashes backdatedReceipt)) ∧
      (∀ s, (exactHashes.sha256 s = exactHashes.sha256 (canonical exactHashes (.obj sampleApproved)) →
          s = canonical exactHashes (.obj sampleApproved)) ∧
        (exactHashes.sha256 s = exactHashes.sha256 (canonical exactHashes (.obj sampleDecision)) →
          s = canonical exactHashes (.obj sampleDecision))) ∧
      Documents.validateActionAuthority exactHashes 100 sampleDir
        (sampleBytes (Documents.written exactHashes backdatedReceipt)) sampleAction .restore =
          .ok () := by
  obtain ⟨-, -, -, -, -, hne, haccepted⟩ := sample_evaluates
  have hrewritten : Rewritten exactHashes (Documents.written exactHashes sampleReceipt)
      (Documents.written exactHashes backdatedReceipt) := by
    intro d d' hd hd' heq
    obtain rfl := hd.unique holds_receipt
    obtain rfl := hd'.unique holds_backdated
    refine hne (PyStr.ofString_injective ?_)
    rw [canonical, canonical, ← dumps_ofJson, ← dumps_ofJson, ← sortKeys_ofJson, ← sortKeys_ofJson]
    exact heq
  obtain ⟨hca, hcd⟩ := canonical_exactHashes
  refine ⟨sampleAction_created, rewrites_receipt hrewritten, fun s => ?_,
    Documents.validateActionAuthority_contents (contents_sample holds_backdated) haccepted⟩
  rw [hca, hcd]
  exact ⟨(exactHashes_unique s).2, (exactHashes_unique s).1⟩

end Konoha.Hokage
