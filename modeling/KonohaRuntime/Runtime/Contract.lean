/-
Runtime/Contract.lean

The result contract, as what an assignment result has to be: an object with exactly the
six keys, each with a value of its type (`WellTyped`), in which outcome, satisfaction and
review agree (`Completes`, `Blocks`).

`assignmentOutcome_status`: the parser, the two validators and the table of outcomes
together decide just that.
-/
import KonohaRuntime.Runtime.Fence

namespace Konoha

open PyJson

/-! ### Typed fields -/

/-- The keys of a dict are these. -/
def KeysAre (keys : List String) (kvs : List (PyStr × PyJson)) : Prop :=
  ∀ k : PyStr, (∃ v, (k, v) ∈ kvs) ↔ ∃ key ∈ keys, k = PyStr.ofString key

/-- A string that is not blank. -/
def IsText (v : PyJson) : Prop := ∃ s : PyStr, v = .str s ∧ s.strip ≠ []

/-- One item of the evidence. -/
def IsEvidence (v : PyJson) : Prop :=
  ∃ kvs, v = .obj kvs ∧ KeysAre ["source", "observation"] kvs ∧ IsText (field kvs "source") ∧
    IsText (field kvs "observation")

/-- A string, or `null`. -/
def optionStr : Option String → PyJson
  | some s => .str (PyStr.ofString s)
  | none => .null

/-- The six keys, with a value of its type each. -/
structure WellTyped (kvs : List (PyStr × PyJson)) (outcome : String) (satisfied : Bool)
    (review : Option String) : Prop where
  keys : KeysAre assignmentResultRequiredKeys kvs
  outcome_eq : field kvs "outcome" = .str (PyStr.ofString outcome)
  outcome_mem : outcome ∈ assignmentResultOutcomes
  satisfied_eq : field kvs "objective_satisfied" = .bool satisfied
  summary : IsText (field kvs "summary")
  diagnostic : field kvs "diagnostic" = .null ∨ ∃ s, field kvs "diagnostic" = .str s
  evidence : ∃ items, field kvs "evidence" = .arr items ∧ ∀ item ∈ items, IsEvidence item
  review_eq : field kvs "review_outcome" = optionStr review
  review_mem : ∀ r, review = some r → r ∈ assignmentReviewOutcomes

/-- `jounin-review` -/
def isReview (family : Json) : Bool := family = .str "jounin-review"

/-- The result says that the assignment is completed. -/
def Completes (family : Json) (kvs : List (PyStr × PyJson)) : Prop :=
  ∃ review, WellTyped kvs "completed" true review ∧
    if isReview family then review = some "approved" ∨ review = some "approved_with_notes"
    else review = none

/-- The result says that the assignment is blocked, or that changes are requested. -/
def Blocks (family : Json) (kvs : List (PyStr × PyJson)) : Prop :=
  ∃ outcome review, WellTyped kvs outcome false review ∧
    (outcome = "blocked" ∨ outcome = "changes_requested") ∧
    if isReview family then review = some outcome else review = none

/-! ### The schema -/

theorem hasKeys_iff {keys : List String} {kvs : List (PyStr × PyJson)} :
    PyJson.hasKeys keys kvs = true ↔ KeysAre keys kvs := by
  unfold PyJson.hasKeys KeysAre
  rw [Bool.and_eq_true, List.all_eq_true, List.all_eq_true]
  simp only [List.any_eq_true, decide_eq_true_eq]
  constructor
  · rintro ⟨hall, hkeys⟩ k
    constructor
    · rintro ⟨v, hv⟩
      exact hall (k, v) hv
    · rintro ⟨key, hkey, rfl⟩
      obtain ⟨⟨k', v⟩, hv, rfl⟩ := hkeys key hkey
      exact ⟨v, hv⟩
  · intro h
    refine ⟨fun kv hkv => (h kv.1).mp ⟨kv.2, hkv⟩, fun key hkey => ?_⟩
    obtain ⟨v, hv⟩ := (h (PyStr.ofString key)).mpr ⟨key, hkey, rfl⟩
    exact ⟨_, hv, rfl⟩

theorem nonBlankStr_iff {v : PyJson} : nonBlankStr v = true ↔ IsText v := by
  unfold IsText
  cases v <;> simp [nonBlankStr, PyStr.nonBlank]

theorem isEvidenceItem_iff {v : PyJson} : isEvidenceItem v = true ↔ IsEvidence v := by
  unfold IsEvidence
  cases v <;> simp [isEvidenceItem, hasKeys_iff, nonBlankStr_iff, and_assoc]

theorem isEvidenceList_iff {v : PyJson} :
    isEvidenceList v = true ↔ ∃ items, v = .arr items ∧ ∀ item ∈ items, IsEvidence item := by
  cases v <;> simp [isEvidenceList, isEvidenceItem_iff]

theorem optionStr_iff {v : PyJson} :
    (v.isNull || isOneOf assignmentReviewOutcomes v) = true ↔
      ∃ review, v = optionStr review ∧ ∀ r, review = some r → r ∈ assignmentReviewOutcomes := by
  rw [Bool.or_eq_true, isNull_iff, isOneOf_iff]
  constructor
  · rintro (rfl | ⟨name, hname, rfl⟩)
    · exact ⟨none, rfl, by simp⟩
    · exact ⟨some name, rfl, by simpa using hname⟩
  · rintro ⟨review, rfl, h⟩
    cases review with
    | none => exact .inl rfl
    | some r => exact .inr ⟨r, h r rfl, rfl⟩

/-- `_validate_assignment_result_payload` accepts the typed objects. -/
theorem validateAssignmentResultPayload_iff {payload : PyJson} :
    validateAssignmentResultPayload payload = none ↔
      ∃ kvs outcome satisfied review, payload = .obj kvs ∧
        WellTyped kvs outcome satisfied review := by
  constructor
  · intro h
    unfold validateAssignmentResultPayload at h
    split at h
    · rename_i kvs
      split at h
      · rename_i hvalid
        simp only [Bool.and_eq_true] at hvalid
        obtain ⟨⟨⟨⟨⟨⟨hkeys, houtcome⟩, hsatisfied⟩, hsummary⟩, hdiagnostic⟩, hevidence⟩, hreview⟩ :=
          hvalid
        obtain ⟨outcome, hmem, houtcome⟩ := isOneOf_iff.mp houtcome
        obtain ⟨satisfied, hsatisfied⟩ := isBool_iff.mp hsatisfied
        obtain ⟨review, hreview, hmem'⟩ := optionStr_iff.mp hreview
        rw [Bool.or_eq_true, isNull_iff, isStr_iff] at hdiagnostic
        exact ⟨kvs, outcome, satisfied, review, rfl, hasKeys_iff.mp hkeys, houtcome, hmem, hsatisfied,
          nonBlankStr_iff.mp hsummary, hdiagnostic, isEvidenceList_iff.mp hevidence, hreview, hmem'⟩
      · cases h
    · cases h
  · rintro ⟨kvs, outcome, satisfied, review, rfl, h⟩
    unfold validateAssignmentResultPayload
    refine if_pos ?_
    simp only [Bool.and_eq_true]
    refine ⟨⟨⟨⟨⟨⟨hasKeys_iff.mpr h.keys, ?_⟩, ?_⟩, nonBlankStr_iff.mpr h.summary⟩, ?_⟩, ?_⟩, ?_⟩
    · exact isOneOf_iff.mpr ⟨outcome, h.outcome_mem, h.outcome_eq⟩
    · exact isBool_iff.mpr ⟨satisfied, h.satisfied_eq⟩
    · rw [Bool.or_eq_true, isNull_iff, isStr_iff]
      exact h.diagnostic
    · exact isEvidenceList_iff.mpr h.evidence
    · exact optionStr_iff.mpr ⟨review, h.review_eq, h.review_mem⟩

/-! ### The rules -/

section

variable {family : Json} {kvs : List (PyStr × PyJson)} {outcome : String} {satisfied : Bool}
variable {review : Option String}

/-- A review outcome, or none. -/
theorem WellTyped.review_mem' (h : WellTyped kvs outcome satisfied review) :
    review ∈ none :: assignmentReviewOutcomes.map some := by
  cases review with
  | none => exact List.mem_cons_self
  | some r => exact List.mem_cons_of_mem _ (List.mem_map_of_mem (h.review_mem r rfl))

theorem optionStr_injective : Function.Injective optionStr := by
  intro a b h
  cases a <;> cases b
  · rfl
  · cases h
  · cases h
  · exact congrArg some (PyStr.ofString_injective (PyJson.str.inj h))

theorem WellTyped.unique {outcome' : String} {satisfied' : Bool} {review' : Option String}
    (h : WellTyped kvs outcome satisfied review) (h' : WellTyped kvs outcome' satisfied' review') :
    outcome = outcome' ∧ satisfied = satisfied' ∧ review = review' := by
  refine ⟨?_, ?_, ?_⟩
  · exact PyStr.ofString_injective (PyJson.str.inj (h.outcome_eq.symm.trans h'.outcome_eq))
  · exact PyJson.bool.inj (h.satisfied_eq.symm.trans h'.satisfied_eq)
  · exact optionStr_injective (h.review_eq.symm.trans h'.review_eq)

theorem WellTyped.completes_iff (h : WellTyped kvs outcome satisfied review) :
    Completes family kvs ↔ outcome = "completed" ∧ satisfied = true ∧
      if isReview family then review = some "approved" ∨ review = some "approved_with_notes"
      else review = none := by
  constructor
  · rintro ⟨review', h', hr⟩
    obtain ⟨rfl, rfl, rfl⟩ := h.unique h'
    exact ⟨rfl, rfl, hr⟩
  · rintro ⟨rfl, rfl, hr⟩
    exact ⟨review, h, hr⟩

theorem WellTyped.blocks_iff (h : WellTyped kvs outcome satisfied review) :
    Blocks family kvs ↔ (outcome = "blocked" ∨ outcome = "changes_requested") ∧
      satisfied = false ∧ if isReview family then review = some outcome else review = none := by
  constructor
  · rintro ⟨outcome', review', h', ho, hr⟩
    obtain ⟨rfl, rfl, rfl⟩ := h.unique h'
    exact ⟨ho, rfl, hr⟩
  · rintro ⟨ho, rfl, hr⟩
    exact ⟨outcome, review, h, ho, hr⟩

/-- `_validate_assignment_result_rules` accepts the consistent ones. -/
theorem validateAssignmentResultRules_iff (h : WellTyped kvs outcome satisfied review) :
    validateAssignmentResultRules kvs family = none ↔
      (outcome = "completed" ∧ satisfied = true ∧
        if isReview family then review = some "approved" ∨ review = some "approved_with_notes"
        else review = none) ∨
      ((outcome = "blocked" ∨ outcome = "changes_requested") ∧ satisfied = false ∧
        if isReview family then review = some outcome else review = none) ∨
      (outcome = "failed" ∧ satisfied = false ∧ isReview family = false ∧ review = none) := by
  have hmem := h.outcome_mem
  have hmem' := h.review_mem'
  unfold validateAssignmentResultRules
  rw [h.outcome_eq, h.satisfied_eq, h.review_eq]
  clear h
  -- outcome, satisfaction and review range over finitely many values
  by_cases hf : family = .str "jounin-review"
  · have hr : isReview family = true := by simp [isReview, hf]
    simp only [hr, if_pos hf]
    revert satisfied review
    revert outcome
    decide +kernel
  · have hr : isReview family = false := by simp [isReview, hf]
    simp only [hr, if_neg hf]
    revert satisfied review
    revert outcome
    decide +kernel

theorem assignmentOutcomeMapping_eq (h : WellTyped kvs outcome satisfied review) :
    (assignmentOutcomeMapping (field kvs "outcome")).1 =
      if outcome = "completed" then .completed
      else if outcome = "blocked" ∨ outcome = "changes_requested" then .blocked else .failed := by
  have hmem := h.outcome_mem
  rw [h.outcome_eq]
  clear h
  revert outcome
  decide +kernel

/-! ### The outcome -/

variable {it : Interpreter} {text : PyStr}

/-- The JSON text that `json.loads` is given. -/
def jsonText (text : PyStr) : Option PyStr :=
  if fence.isPrefixOf text.strip then (extractSingleFencedBlock text.strip).toOption
  else some text.strip

/-- The text is nested deeper than the stack is. -/
def Overflows (it : Interpreter) (text : PyStr) : Prop :=
  ∃ body, jsonText text = some body ∧ loads it body = .error .recursion

/-- Of the exceptions of the parser only `RecursionError` is no `ValueError`. -/
theorem parse_error_cases {e : PyExc} (h : parseAssignmentResultText it text = .error e) :
    (∃ d, e = .valueError d) ∧ ¬ Overflows it text ∨
      (∃ d, e = .recursionError d) ∧ Overflows it text := by
  have hloads : ∀ {body}, loadsOrRaise it body = .error e → jsonText text = some body →
      (∃ d, e = .valueError d) ∧ ¬ Overflows it text ∨
        (∃ d, e = .recursionError d) ∧ Overflows it text := by
    intro body hbody hjson
    unfold loadsOrRaise at hbody
    rcases hl : loads it body with err | v
    · rw [hl] at hbody
      cases hbody
      cases err with
      | recursion => exact .inr ⟨⟨_, rfl⟩, body, hjson, hl⟩
      | decode =>
          refine .inl ⟨⟨_, rfl⟩, ?_⟩
          rintro ⟨body', hjson', hl'⟩
          obtain rfl := Option.some.inj (hjson.symm.trans hjson')
          exact absurd (hl.symm.trans hl') (by simp)
      | digits =>
          refine .inl ⟨⟨_, rfl⟩, ?_⟩
          rintro ⟨body', hjson', hl'⟩
          obtain rfl := Option.some.inj (hjson.symm.trans hjson')
          exact absurd (hl.symm.trans hl') (by simp)
    · rw [hl] at hbody
      cases hbody
  unfold parseAssignmentResultText at h
  dsimp only at h
  split at h
  · rename_i hf
    rcases hex : extractSingleFencedBlock text.strip with err | body
    · rw [hex] at h
      cases h
      refine .inl ⟨?_, ?_⟩
      · unfold extractSingleFencedBlock at hex
        split at hex
        · cases hex
          exact ⟨_, rfl⟩
        · split at hex
          · cases hex
            exact ⟨_, rfl⟩
          · split at hex
            · cases hex
            · split at hex
              · cases hex
              · cases hex
                exact ⟨_, rfl⟩
      · rintro ⟨body', hjson', -⟩
        rw [jsonText, if_pos hf, hex] at hjson'
        cases hjson'
    · rw [hex] at h
      exact hloads h (by rw [jsonText, if_pos hf, hex]; rfl)
  · rename_i hf
    exact hloads h (by rw [jsonText, if_neg hf])

theorem not_overflows_of_parse {v : PyJson} (h : parseAssignmentResultText it text = .ok v) :
    ¬ Overflows it text := by
  rintro ⟨body, hjson, hl⟩
  unfold parseAssignmentResultText at h
  dsimp only at h
  unfold jsonText at hjson
  split at h
  · rename_i hf
    rw [if_pos hf] at hjson
    obtain ⟨body', hex, h⟩ := bind_eq_ok.mp h
    rw [hex] at hjson
    obtain rfl : body' = body := Option.some.inj hjson
    rw [loadsOrRaise_eq_ok_iff.mp h] at hl
    cases hl
  · rename_i hf
    rw [if_neg hf] at hjson
    obtain rfl := Option.some.inj hjson
    rw [loadsOrRaise_eq_ok_iff.mp h] at hl
    cases hl

/-- **The outcome of a text.**  A text that overflows the stack raises; every other has the
status that its contract says, and `failed` without one. -/
theorem assignmentOutcome_status (it : Interpreter) (text : PyStr) (family : Json) :
    (∃ e, assignmentOutcome it text family = .error e) ∧ Overflows it text ∨
      ¬ Overflows it text ∧ ∃ status d, assignmentOutcome it text family = .ok (status, d) ∧
        (status = .completed ↔ ∃ kvs, Carries it text (.obj kvs) ∧ Completes family kvs) ∧
        (status = .blocked ↔ ∃ kvs, Carries it text (.obj kvs) ∧ Blocks family kvs) := by
  unfold assignmentOutcome
  rcases hp : parseAssignmentResultText it text with e | payload
  · have hnone : ∀ v, ¬ Carries it text v := fun v hv => by
      rw [parse_eq_ok_iff.mpr hv] at hp
      cases hp
    rcases parse_error_cases hp with ⟨⟨d, rfl⟩, hover⟩ | ⟨⟨d, rfl⟩, hover⟩
    · exact .inr ⟨hover, .failed, "invalid_result_json", rfl, by simp [hnone], by simp [hnone]⟩
    · exact .inl ⟨⟨_, rfl⟩, hover⟩
  · refine .inr ⟨not_overflows_of_parse hp, ?_⟩
    have hcarries : ∀ kvs, Carries it text (.obj kvs) ↔ payload = .obj kvs := by
      intro kvs
      rw [← parse_eq_ok_iff, hp]
      exact ⟨Except.ok.inj, congrArg Except.ok⟩
    simp only [hcarries]
    rcases hv : validateAssignmentResultPayload payload with - | d
    · obtain ⟨kvs, outcome, satisfied, review, rfl, h⟩ := validateAssignmentResultPayload_iff.mp hv
      have hc : (∃ kvs', PyJson.obj kvs = .obj kvs' ∧ Completes family kvs') ↔
          Completes family kvs := by simp
      have hb : (∃ kvs', PyJson.obj kvs = .obj kvs' ∧ Blocks family kvs') ↔ Blocks family kvs := by
        simp
      rw [hc, hb, h.completes_iff, h.blocks_iff]
      have hrules : validateAssignmentResultRules kvs family = none ↔ _ :=
        validateAssignmentResultRules_iff h
      rcases hr : validateAssignmentResultRules kvs family with - | d
      · refine ⟨(assignmentOutcomeMapping (field kvs "outcome")).1,
          (assignmentOutcomeMapping (field kvs "outcome")).2, by simp only [PyJson.fields, hr], ?_⟩
        rw [assignmentOutcomeMapping_eq h]
        rcases hrules.mp hr with ⟨rfl, rfl, hrev⟩ | ⟨ho, rfl, hrev⟩ | ⟨rfl, rfl, -, -⟩
        · simp [hrev]
        · rcases ho with rfl | rfl <;> simp [hrev]
        · simp
      · refine ⟨.failed, d, by simp only [PyJson.fields, hr], ?_, ?_⟩
        · refine ⟨fun hf => (by cases hf), fun hcomp => ?_⟩
          rw [hrules.mpr (.inl hcomp)] at hr
          cases hr
        · refine ⟨fun hf => (by cases hf), fun hblock => ?_⟩
          rw [hrules.mpr (.inr (.inl hblock))] at hr
          cases hr
    · have hnone : ∀ kvs outcome satisfied review, payload = .obj kvs →
          ¬ WellTyped kvs outcome satisfied review := by
        intro kvs outcome satisfied review hobj h
        rw [validateAssignmentResultPayload_iff.mpr ⟨kvs, outcome, satisfied, review, hobj, h⟩] at hv
        cases hv
      refine ⟨.failed, d, rfl, ?_, ?_⟩
      · refine ⟨fun hf => (by cases hf), ?_⟩
        rintro ⟨kvs, hobj, review, h, -⟩
        exact absurd h (hnone kvs _ _ _ hobj)
      · refine ⟨fun hf => (by cases hf), ?_⟩
        rintro ⟨kvs, hobj, outcome, review, h, -⟩
        exact absurd h (hnone kvs _ _ _ hobj)

end

end Konoha
