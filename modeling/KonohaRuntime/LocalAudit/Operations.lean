/-
LocalAudit/Operations.lean

Which operations the issues of a model leave: `merge_issues` keeps the first issue with each
identifier, the rules suppress what the markers cover, and the rest decides the operations.

The operations are those of the deterministic checks exactly when the model neither hides an issue
of a check, nor has the id of a rule whose check asks for more than the rule, nor keeps an issue
when no check fails (`operationsOf_validated_iff`).
-/
import KonohaRuntime.LocalAudit.Audit

namespace Konoha.LocalAudit

open CodePoint
open PyJson (is_iff nesting nesting_arr_le_iff)

/-! ### Values -/

section Nesting

theorem nesting_arrOf_le_iff {issues : List PyDict} {n : Nat} :
    nesting (arrOf issues) ≤ n + 1 ↔ ∀ issue ∈ issues, nesting (.obj issue) ≤ n := by
  rw [arrOf, nesting_arr_le_iff, List.forall_mem_map]

theorem checkDepth_eq_ok_iff {limit : Nat} {v : PyJson} :
    checkDepth limit v = .ok () ↔ nesting v ≤ limit := by
  unfold checkDepth
  split_ifs with h
  · exact iff_of_true rfl h
  · exact iff_of_false (fun h => nomatch h) h

end Nesting

section Fields

variable {d : PyDict} {key key' : String} {v : PyJson}

theorem get?_set_self : get? (set d key v) key = some v := by
  induction d with
  | nil => simp [set, Loads.insertField, get?]
  | cons kv d ih =>
      by_cases h : kv.1 = PyStr.ofString key
      · simp [set, Loads.insertField, get?, h]
      · simpa [set, Loads.insertField, get?, h] using ih

theorem get?_set_ne (h : key' ≠ key) : get? (set d key v) key' = get? d key' := by
  have hne : PyStr.ofString key ≠ PyStr.ofString key' := fun heq =>
    h (PyStr.ofString_injective heq).symm
  induction d with
  | nil => simp [set, Loads.insertField, get?, hne]
  | cons kv d ih =>
      by_cases hk : kv.1 = PyStr.ofString key
      · simp [set, Loads.insertField, get?, hk, hne]
      · have hset : set (kv :: d) key v = kv :: set d key v := by
          rw [set, Loads.insertField, if_neg hk]
          rfl
        rw [hset]
        by_cases hk' : kv.1 = PyStr.ofString key'
        · rw [get?, get?, List.find?_cons, List.find?_cons, decide_eq_true hk']
        · rw [get?, get?, List.find?_cons, List.find?_cons, decide_eq_false hk']
          exact ih

/-- A field that is set is nested as deep as its value. -/
theorem mem_set {kv : PyStr × PyJson} (h : kv ∈ set d key v) :
    kv.2 = v ∨ kv ∈ d := by
  induction d with
  | nil => exact .inl (congrArg Prod.snd (List.mem_singleton.mp h))
  | cons e d ih =>
      rw [set, Loads.insertField] at h
      split_ifs at h
      · rcases List.mem_cons.mp h with rfl | h
        · exact .inl rfl
        · exact .inr (List.mem_cons_of_mem _ h)
      · rcases List.mem_cons.mp h with rfl | h
        · exact .inr List.mem_cons_self
        · exact (ih h).imp_right (List.mem_cons_of_mem _)

end Fields

/-! ### Identifiers -/

theorem sameKey_str {s : PyStr} {w : PyJson} : sameKey (.str s) w = true ↔ w = .str s := by
  cases w with
  | str t =>
      rw [PyJson.str.injEq]
      exact decide_eq_true_iff.trans eq_comm
  | float f =>
      refine iff_of_false (fun h => ?_) fun h => nomatch h
      unfold sameKey at h
      split at h
      · next hw _ => cases hw
      · cases h
      · cases h
  | _ => exact iff_of_false (fun h => nomatch h) fun h => nomatch h

section Merge

variable (py : Python)

/-- The identifier of an issue can be formed and hashed. -/
def Identified (item : PyDict) : Prop :=
  identDepth py item = .ok () ∧ hashable (identOf py item) = true

/-- The issues that are kept, after those that have been seen. -/
def keep (seen : List PyJson) : List PyDict → List PyDict
  | [] => []
  | item :: items =>
      if seen.any (sameKey (identOf py item)) then keep seen items
      else item :: keep (identOf py item :: seen) items

/-- The identifiers that have been seen then. -/
def seenAfter (seen : List PyJson) : List PyDict → List PyJson
  | [] => seen
  | item :: items =>
      if seen.any (sameKey (identOf py item)) then seenAfter seen items
      else seenAfter (identOf py item :: seen) items

theorem mergeIssue_eq_ok_iff {seen : List PyJson} {kept : List PyDict} {item : PyDict}
    {state : List PyJson × List PyDict} :
    mergeIssue py (seen, kept) item = .ok state ↔ Identified py item ∧
      state = if seen.any (sameKey (identOf py item)) then (seen, kept)
        else (identOf py item :: seen, kept ++ [item]) := by
  unfold mergeIssue Identified
  rcases hdepth : identDepth py item with e | u
  · exact iff_of_false (fun h => nomatch h) fun h => nomatch h.1.1
  · rcases hhash : hashable (identOf py item)
    · exact iff_of_false (fun h => nomatch h) fun h => nomatch h.1.2
    · by_cases hseen : seen.any (sameKey (identOf py item)) = true
      · rw [if_pos hseen, if_pos hseen]
        exact ⟨fun h => ⟨⟨rfl, rfl⟩, (Except.ok.inj h).symm⟩, fun h => congrArg Except.ok h.2.symm⟩
      · rw [if_neg hseen, if_neg hseen]
        exact ⟨fun h => ⟨⟨rfl, rfl⟩, (Except.ok.inj h).symm⟩, fun h => congrArg Except.ok h.2.symm⟩

theorem foldlM_mergeIssue {seen : List PyJson} {kept : List PyDict} {items : List PyDict}
    {state : List PyJson × List PyDict} :
    items.foldlM (mergeIssue py) (seen, kept) = .ok state ↔ (∀ item ∈ items, Identified py item) ∧
      state = (seenAfter py seen items, kept ++ keep py seen items) := by
  induction items generalizing seen kept with
  | nil =>
      rw [keep, List.append_nil]
      exact ⟨fun h => ⟨fun _ h => absurd h List.not_mem_nil, (Except.ok.inj h).symm⟩,
        fun h => congrArg Except.ok h.2.symm⟩
  | cons item items ih =>
      rw [List.foldlM_cons, bind_eq_ok, List.forall_mem_cons, keep, seenAfter]
      simp only [mergeIssue_eq_ok_iff]
      constructor
      · rintro ⟨middle, ⟨hitem, rfl⟩, hrest⟩
        split_ifs at hrest ⊢ with hseen
        · obtain ⟨hitems, rfl⟩ := ih.mp hrest
          exact ⟨⟨hitem, hitems⟩, rfl⟩
        · obtain ⟨hitems, rfl⟩ := ih.mp hrest
          refine ⟨⟨hitem, hitems⟩, ?_⟩
          rw [List.append_assoc, List.singleton_append]
      · rintro ⟨⟨hitem, hitems⟩, hstate⟩
        refine ⟨_, ⟨hitem, rfl⟩, ?_⟩
        by_cases hseen : seen.any (sameKey (identOf py item)) = true
        · rw [if_pos hseen, if_pos hseen] at hstate
          rw [if_pos hseen]
          exact ih.mpr ⟨hitems, hstate⟩
        · rw [if_neg hseen, if_neg hseen] at hstate
          rw [if_neg hseen]
          refine ih.mpr ⟨hitems, ?_⟩
          rw [hstate, List.append_assoc, List.singleton_append]

theorem mergeIssues_eq_ok_iff {model hs issues : List PyDict} :
    mergeIssues py model hs = .ok issues ↔
      (∀ item ∈ model ++ hs, Identified py item) ∧ issues = keep py [] (model ++ hs) := by
  rw [mergeIssues, bind_eq_ok]
  simp only [foldlM_mergeIssue, List.nil_append]
  constructor
  · rintro ⟨state, ⟨hitems, rfl⟩, h⟩
    exact ⟨hitems, (Except.ok.inj h).symm⟩
  · rintro ⟨hitems, rfl⟩
    exact ⟨_, ⟨hitems, rfl⟩, rfl⟩

theorem keep_append (seen : List PyJson) (items items' : List PyDict) :
    keep py seen (items ++ items') = keep py seen items ++ keep py (seenAfter py seen items) items' := by
  induction items generalizing seen with
  | nil => rfl
  | cons item items ih =>
      rw [List.cons_append, keep, keep, seenAfter]
      split_ifs
      · exact ih seen
      · rw [ih, List.cons_append]

theorem mem_of_mem_keep {seen : List PyJson} {items : List PyDict} {item : PyDict}
    (h : item ∈ keep py seen items) : item ∈ items := by
  induction items generalizing seen with
  | nil => exact h
  | cons a items ih =>
      rw [keep] at h
      split_ifs at h
      · exact List.mem_cons_of_mem _ (ih h)
      · rcases List.mem_cons.mp h with rfl | h
        · exact List.mem_cons_self
        · exact List.mem_cons_of_mem _ (ih h)

/-- The first issue with an identifier. -/
def firstWith (items : List PyDict) (id : String) : Option PyDict :=
  items.find? fun item => (identOf py item).is id

theorem not_seen_of_mem_keep {seen : List PyJson} {items : List PyDict} {item : PyDict}
    {id : String} (h : item ∈ keep py seen items) (hid : (identOf py item).is id = true) :
    PyJson.str (.ofString id) ∉ seen := by
  induction items generalizing seen with
  | nil => exact absurd h List.not_mem_nil
  | cons a items ih =>
      rw [keep] at h
      split_ifs at h with hseen
      · exact ih h
      · rcases List.mem_cons.mp h with rfl | h
        · intro hmem
          refine hseen (List.any_eq_true.mpr ⟨_, hmem, ?_⟩)
          rw [is_iff.mp hid]
          exact sameKey_str.mpr rfl
        · exact fun hmem => ih h (List.mem_cons_of_mem _ hmem)

/-- Of the issues with one identifier the first is kept. -/
theorem mem_keep_iff {seen : List PyJson} {items : List PyDict} {item : PyDict} {id : String}
    (hseen : PyJson.str (.ofString id) ∉ seen) :
    (item ∈ keep py seen items ∧ (identOf py item).is id = true) ↔
      firstWith py items id = some item := by
  induction items generalizing seen with
  | nil => exact iff_of_false (fun h => absurd h.1 List.not_mem_nil) fun h => nomatch h
  | cons a items ih =>
      rw [firstWith, List.find?_cons]
      rcases ha : (identOf py a).is id
      · dsimp only
        rw [← firstWith, keep]
        have hne : identOf py a ≠ .str (.ofString id) := fun h => by
          rw [is_iff.mpr h] at ha
          cases ha
        split_ifs
        · exact ih hseen
        · have hseen' : PyJson.str (.ofString id) ∉ identOf py a :: seen := fun h =>
            (List.mem_cons.mp h).elim (fun h => hne h.symm) hseen
          rw [← ih hseen', List.mem_cons]
          constructor
          · rintro ⟨rfl | h, hid⟩
            · rw [ha] at hid
              cases hid
            · exact ⟨h, hid⟩
          · rintro ⟨h, hid⟩
            exact ⟨.inr h, hid⟩
      · have hfresh : ¬ seen.any (sameKey (identOf py a)) = true := fun h => by
          obtain ⟨w, hw, hsame⟩ := List.any_eq_true.mp h
          rw [is_iff.mp ha, sameKey_str] at hsame
          exact hseen (hsame ▸ hw)
        dsimp only
        rw [keep, if_neg hfresh, List.mem_cons, Option.some.injEq]
        constructor
        · rintro ⟨rfl | h, hid⟩
          · rfl
          · exact absurd (is_iff.mp ha ▸ List.mem_cons_self) (not_seen_of_mem_keep py h hid)
        · rintro rfl
          exact ⟨.inl rfl, ha⟩

end Merge

/-! ### The deterministic issues -/

section Heuristics

variable (py : Python) (repo : Repo)

/-- A check reports the issue. -/
def Reported (id : String) : Prop := hasId (heuristicInconsistencies py repo) id = true

theorem get_heuristicIssue (id severity evidence change : String) :
    get (heuristicIssue id severity evidence change) "id" = .str (.ofString id) := by
  rw [get, get?, heuristicIssue, List.find?_cons, decide_eq_true rfl]
  rfl

theorem identOf_heuristicIssue {id : String} (hid : id ≠ "") (severity evidence change : String) :
    identOf py (heuristicIssue id severity evidence change) = .str (.ofString id) := by
  have htruthy : truthy (.str (.ofString id)) = true := by
    refine decide_eq_true fun h => hid ?_
    exact PyStr.ofString_injective h
  rw [identOf, get_heuristicIssue, if_pos htruthy]

theorem mem_heuristicInconsistencies {h : PyDict} :
    h ∈ heuristicInconsistencies py repo ↔ (true, h) ∈ heuristics py repo := by
  rw [heuristicInconsistencies, List.mem_map]
  constructor
  · rintro ⟨⟨fails, h⟩, hmem, rfl⟩
    obtain ⟨hmem, hfails⟩ := List.mem_filter.mp hmem
    exact hfails ▸ hmem
  · exact fun hmem => ⟨_, List.mem_filter.mpr ⟨hmem, rfl⟩, rfl⟩

/-- The issues that a check may report, each with its rule. -/
theorem heuristic_cases {h : PyDict} (hmem : h ∈ heuristicInconsistencies py repo) :
    ∃ rule ∈ issueCoverageRules, ∃ severity evidence change,
      h = heuristicIssue rule.id severity evidence change ∧
        rule.coverageKeys.all (covers py repo) = false := by
  rw [mem_heuristicInconsistencies] at hmem
  simp only [heuristics, List.mem_cons, Prod.mk.injEq, List.not_mem_nil, or_false,
    Bool.true_eq, Bool.not_eq_true', Bool.and_eq_true] at hmem
  rcases hmem with ⟨hfails, rfl⟩ | ⟨hfails, rfl⟩ | ⟨hfails, rfl⟩ | ⟨hfails, rfl⟩
  · exact ⟨_, .head _, _, _, _, rfl, by simpa using hfails⟩
  · exact ⟨_, .tail _ (.head _), _, _, _, rfl, by simpa using hfails⟩
  · exact ⟨_, .tail _ (.tail _ (.head _)), _, _, _, rfl, by simpa using hfails.2⟩
  · exact ⟨_, .tail _ (.tail _ (.tail _ (.head _))), _, _, _, rfl, by simpa using hfails⟩

theorem rule_id_ne : ∀ rule ∈ issueCoverageRules, rule.id ≠ "" := by decide

theorem is_heuristicIssue {id severity evidence change name : String} :
    (get (heuristicIssue id severity evidence change) "id").is name = true ↔ name = id := by
  rw [get_heuristicIssue, is_iff, PyJson.str.injEq]
  exact ⟨fun h => (PyStr.ofString_injective h).symm, fun h => h ▸ rfl⟩

theorem reported_iff_mem (id : String) :
    Reported py repo id ↔ ∃ check ∈ heuristics py repo, check.1 = true ∧
      (get check.2 "id").is id = true := by
  unfold Reported hasId
  rw [List.any_eq_true]
  constructor
  · rintro ⟨h, hmem, hid⟩
    exact ⟨_, (mem_heuristicInconsistencies py repo).mp hmem, rfl, hid⟩
  · rintro ⟨⟨fails, h⟩, hmem, rfl, hid⟩
    exact ⟨h, (mem_heuristicInconsistencies py repo).mpr hmem, hid⟩

theorem reported_iff :
    (Reported py repo betaStatus ↔ covers py repo "readme_has_beta_runtime_status" = false) ∧
    (Reported py repo localRuntime ↔ covers py repo "readme_has_local_model_bootstrap" = false) ∧
    (Reported py repo betaPath ↔ hasBetaFiles repo = true ∧
      covers py repo "readme_has_beta_runtime_entrypoint" = false) ∧
    (Reported py repo changelogEntry ↔ covers py repo "changelog_has_v3_0_1" = false) := by
  have hne : betaStatus ≠ localRuntime ∧ betaStatus ≠ betaPath ∧ betaStatus ≠ changelogEntry ∧
      localRuntime ≠ betaPath ∧ localRuntime ≠ changelogEntry ∧ betaPath ≠ changelogEntry := by
    decide
  obtain ⟨h₁, h₂, h₃, h₄, h₅, h₆⟩ := hne
  simp only [reported_iff_mem, heuristics, List.mem_cons, List.not_mem_nil, or_false,
    exists_eq_or_imp, exists_eq_left, is_heuristicIssue, Bool.not_eq_true', Bool.and_eq_true]
  simp [h₁, h₂, h₃, h₄, h₅, h₆, h₁.symm, h₂.symm, h₃.symm, h₄.symm, h₅.symm, h₆.symm]

theorem rule_ext : ∀ rule ∈ issueCoverageRules, ∀ other ∈ issueCoverageRules,
    rule.id = other.id → rule = other := by decide

/-- An issue that is suppressed has the id of the rule. -/
theorem suppression_eq_some {issue : PyDict} {rule : Rule}
    (h : suppression py repo issue = some rule) :
    rule ∈ issueCoverageRules ∧ (get issue "id").is rule.id = true ∧
      rule.coverageKeys.all (covers py repo) = true := by
  unfold suppression at h
  split at h
  · next id hid =>
    have hfound := List.find?_some h
    obtain ⟨hid', hcovers⟩ := of_decide_eq_true hfound
    refine ⟨List.mem_of_find?_eq_some h, ?_, hcovers⟩
    rw [hid, is_iff, hid']
  · cases h

/-- A rule suppresses the issues with its id when the markers are there. -/
theorem suppression_of_rule {rule : Rule} (hrule : rule ∈ issueCoverageRules) {issue : PyDict}
    (hid : (get issue "id").is rule.id = true) :
    suppression py repo issue =
      if rule.coverageKeys.all (covers py repo) then some rule else none := by
  have hsame {other : Rule} (h : suppression py repo issue = some other) : other = rule := by
    obtain ⟨hother, hid', -⟩ := suppression_eq_some py repo h
    refine rule_ext other hother rule hrule ?_
    rw [is_iff] at hid hid'
    exact PyStr.ofString_injective (PyJson.str.inj (hid'.symm.trans hid))
  rcases h : suppression py repo issue with - | other
  · split_ifs with hcovers
    · exfalso
      rw [suppression, is_iff.mp hid] at h
      exact List.find?_eq_none.mp h rule hrule (decide_eq_true ⟨rfl, hcovers⟩)
    · rfl
  · obtain rfl := hsame h
    rw [if_pos (suppression_eq_some py repo h).2.2]

theorem suppression_heuristic {h : PyDict} (hmem : h ∈ heuristicInconsistencies py repo) :
    suppression py repo h = none := by
  obtain ⟨rule, hrule, severity, evidence, change, rfl, huncovered⟩ := heuristic_cases py repo hmem
  rw [suppression_of_rule py repo hrule (is_heuristicIssue.mpr rfl), huncovered]
  rfl

end Heuristics

/-! ### The operations -/

section Operations

variable (py : Python) (repo : Repo) (ms : List PyDict)

/-- The issues that are validated. -/
def validatedOf : List PyDict :=
  (validateIssuesAgainstMarkers py repo (keep py [] (ms ++ heuristicInconsistencies py repo))).1

/-- An issue of the model has taken the place of the one with this id. -/
def Hidden (id : String) : Prop :=
  ∃ m, firstWith py ms id = some m ∧ ¬ (get m "id").is id = true

/-- An issue of the model has this id. -/
def Suggested (id : String) : Prop :=
  ∃ m, firstWith py ms id = some m ∧ (get m "id").is id = true

theorem get_validatedIssue (issue : PyDict) : get (validatedIssue issue) "id" = get issue "id" := by
  rw [get, validatedIssue, get?_set_ne (by decide), get]

theorem identOf_is {item : PyDict} {id : String} (hne : id ≠ "")
    (h : (get item "id").is id = true) : (identOf py item).is id = true := by
  have htruthy : truthy (get item "id") = true := by
    rw [is_iff.mp h]
    refine decide_eq_true fun heq => hne ?_
    exact PyStr.ofString_injective heq
  rwa [identOf, if_pos htruthy]

theorem hasId_validatedOf {id : String} (hne : id ≠ "") :
    hasId (validatedOf py repo ms) id = true ↔
      ∃ item, firstWith py (ms ++ heuristicInconsistencies py repo) id = some item ∧
        (get item "id").is id = true ∧ suppression py repo item = none := by
  have hseen : PyJson.str (.ofString id) ∉ ([] : List PyJson) := List.not_mem_nil
  rw [hasId, List.any_eq_true]
  constructor
  · rintro ⟨issue, hissue, hid⟩
    obtain ⟨item, hitem, rfl⟩ := List.mem_map.mp hissue
    obtain ⟨hkept, hnone⟩ := List.mem_filter.mp hitem
    rw [get_validatedIssue] at hid
    exact ⟨item, (mem_keep_iff py hseen).mp ⟨hkept, identOf_is py hne hid⟩, hid,
      Option.isNone_iff_eq_none.mp hnone⟩
  · rintro ⟨item, hfirst, hid, hnone⟩
    obtain ⟨hkept, -⟩ := (mem_keep_iff py hseen).mpr hfirst
    refine ⟨_, List.mem_map_of_mem (List.mem_filter.mpr ⟨hkept, ?_⟩), ?_⟩
    · rw [hnone]
      rfl
    · rwa [get_validatedIssue]

theorem identOf_heuristic {h : PyDict} (hmem : h ∈ heuristicInconsistencies py repo) :
    identOf py h = get h "id" := by
  obtain ⟨rule, hrule, severity, evidence, change, rfl, -⟩ := heuristic_cases py repo hmem
  rw [identOf_heuristicIssue py (rule_id_ne rule hrule), get_heuristicIssue]

theorem firstWith_heuristics {id : String} {h : PyDict}
    (hfirst : firstWith py (heuristicInconsistencies py repo) id = some h) :
    h ∈ heuristicInconsistencies py repo ∧ (get h "id").is id = true := by
  have hmem := List.mem_of_find?_eq_some hfirst
  refine ⟨hmem, ?_⟩
  have hid := List.find?_some hfirst
  rwa [identOf_heuristic py repo hmem] at hid

theorem reported_iff_firstWith {id : String} :
    Reported py repo id ↔ ∃ h, firstWith py (heuristicInconsistencies py repo) id = some h := by
  constructor
  · intro hreported
    obtain ⟨h, hmem, hid⟩ := List.any_eq_true.mp hreported
    rcases hfirst : firstWith py (heuristicInconsistencies py repo) id with - | h'
    · refine absurd ?_ (List.find?_eq_none.mp hfirst h hmem)
      rwa [identOf_heuristic py repo hmem]
    · exact ⟨h', rfl⟩
  · rintro ⟨h, hfirst⟩
    obtain ⟨hmem, hid⟩ := firstWith_heuristics py repo hfirst
    exact List.any_eq_true.mpr ⟨h, hmem, hid⟩

/-- The id of a rule is among those of the validated issues when the markers do not cover it and
the model or else a check has it. -/
theorem hasId_rule_iff {rule : Rule} (hrule : rule ∈ issueCoverageRules) :
    hasId (validatedOf py repo ms) rule.id = true ↔
      rule.coverageKeys.all (covers py repo) = false ∧
        (Suggested py ms rule.id ∨ (Reported py repo rule.id ∧ ¬ Hidden py ms rule.id)) := by
  rw [hasId_validatedOf py repo ms (rule_id_ne rule hrule), firstWith, List.find?_append,
    ← firstWith, ← firstWith]
  constructor
  · rintro ⟨item, hfirst, hid, hnone⟩
    have huncovered : rule.coverageKeys.all (covers py repo) = false := by
      rw [suppression_of_rule py repo hrule hid] at hnone
      split_ifs at hnone with hcovers
      exact Bool.not_eq_true _ ▸ hcovers
    refine ⟨huncovered, ?_⟩
    rcases hmodel : firstWith py ms rule.id with - | m
    · rw [hmodel, Option.none_or] at hfirst
      refine .inr ⟨(reported_iff_firstWith py repo).mpr ⟨item, hfirst⟩, ?_⟩
      rintro ⟨m, hm, -⟩
      rw [hmodel] at hm
      cases hm
    · rw [hmodel, Option.some_or] at hfirst
      obtain rfl := Option.some.inj hfirst
      exact .inl ⟨m, hmodel, hid⟩
  · rintro ⟨huncovered, ⟨m, hm, hid⟩ | ⟨hreported, hhidden⟩⟩
    · refine ⟨m, by rw [hm, Option.some_or], hid, ?_⟩
      rw [suppression_of_rule py repo hrule hid, huncovered]
      rfl
    · rcases hmodel : firstWith py ms rule.id with - | m
      · obtain ⟨h, hfirst⟩ := (reported_iff_firstWith py repo).mp hreported
        obtain ⟨hmem, hid⟩ := firstWith_heuristics py repo hfirst
        exact ⟨h, by rw [Option.none_or, hfirst], hid, suppression_heuristic py repo hmem⟩
      · have hid : (get m "id").is rule.id = true := by
          by_contra hid
          exact hhidden ⟨m, hmodel, hid⟩
        refine ⟨m, by rw [Option.some_or], hid, ?_⟩
        rw [suppression_of_rule py repo hrule hid, huncovered]
        rfl

theorem suggested_not_hidden {id : String} (h : Suggested py ms id) : ¬ Hidden py ms id := by
  rintro ⟨m, hm, hid⟩
  obtain ⟨m', hm', hid'⟩ := h
  rw [hm] at hm'
  exact hid (Option.some.inj hm' ▸ hid')

/-- Where only the markers decide whether a check fails, the id is there unless it is hidden. -/
theorem hasId_iff_of_covered {rule : Rule} (hrule : rule ∈ issueCoverageRules)
    (hreported : Reported py repo rule.id ↔ rule.coverageKeys.all (covers py repo) = false) :
    hasId (validatedOf py repo ms) rule.id = true ↔
      Reported py repo rule.id ∧ ¬ Hidden py ms rule.id := by
  rw [hasId_rule_iff py repo ms hrule, ← hreported]
  constructor
  · rintro ⟨hr, hs | h⟩
    · exact ⟨hr, suggested_not_hidden py ms hs⟩
    · exact h
  · exact fun h => ⟨h.1, .inr h⟩

/-- The operations, from what is asked of the ids. -/
def operationList (readme beta changelog any : Bool) : List Operation :=
  (if readme then [readmeOperation] else []) ++ (if beta then [betaPathOperation] else []) ++
    (if changelog then [changelogOperation] else []) ++ if any then [roadmapOperation] else []

theorem operationsOf_eq (issues : List PyDict) : operationsOf issues =
    operationList (hasId issues betaStatus || hasId issues localRuntime) (hasId issues betaPath)
      (hasId issues changelogEntry) (!issues.isEmpty) := by
  rw [operationsOf, operationList]
  cases issues.isEmpty <;> rfl

theorem mem_when {b : Bool} {op other : Operation} :
    other ∈ (if b then [op] else []) ↔ b = true ∧ other = op := by
  cases b
  · exact iff_of_false List.not_mem_nil fun h => nomatch h.1
  · exact List.mem_singleton.trans (and_iff_right rfl).symm

theorem mem_operationList {a b c d : Bool} {op : Operation} : op ∈ operationList a b c d ↔
    (a = true ∧ op = readmeOperation) ∨ (b = true ∧ op = betaPathOperation) ∨
      (c = true ∧ op = changelogOperation) ∨ (d = true ∧ op = roadmapOperation) := by
  rw [operationList, List.mem_append, List.mem_append, List.mem_append, mem_when, mem_when,
    mem_when, mem_when, or_assoc, or_assoc]

theorem operations_ne : readmeOperation ≠ betaPathOperation ∧ readmeOperation ≠ changelogOperation ∧
    readmeOperation ≠ roadmapOperation ∧ betaPathOperation ≠ changelogOperation ∧
    betaPathOperation ≠ roadmapOperation ∧ changelogOperation ≠ roadmapOperation := by
  have hmarker {op other : Operation} (h : op.marker ≠ other.marker) : op ≠ other :=
    fun heq => h (congrArg Operation.marker heq)
  exact ⟨hmarker (by decide), hmarker (by decide), hmarker (by decide), hmarker (by decide),
    hmarker (by decide), hmarker (by decide)⟩

theorem operationList_inj {a b c d a' b' c' d' : Bool} :
    operationList a b c d = operationList a' b' c' d' ↔
      (a = true ↔ a' = true) ∧ (b = true ↔ b' = true) ∧ (c = true ↔ c' = true) ∧
        (d = true ↔ d' = true) := by
  obtain ⟨h₁, h₂, h₃, h₄, h₅, h₆⟩ := operations_ne
  constructor
  · intro h
    have hmem (op : Operation) : op ∈ operationList a b c d ↔ op ∈ operationList a' b' c' d' := by
      rw [h]
    simp only [mem_operationList] at hmem
    refine ⟨?_, ?_, ?_, ?_⟩
    · simpa [h₁, h₂, h₃] using hmem readmeOperation
    · simpa [h₁.symm, h₄, h₅] using hmem betaPathOperation
    · simpa [h₂.symm, h₄.symm, h₆] using hmem changelogOperation
    · simpa [h₃.symm, h₅.symm, h₆.symm] using hmem roadmapOperation
  · rintro ⟨ha, hb, hc, hd⟩
    rw [Bool.eq_iff_iff.mpr ha, Bool.eq_iff_iff.mpr hb, Bool.eq_iff_iff.mpr hc,
      Bool.eq_iff_iff.mpr hd]

/-- The model leaves the operations of the checks as they are. -/
structure LeavesOperations : Prop where
  readme : Reported py repo betaStatus ∨ Reported py repo localRuntime →
    (Reported py repo betaStatus ∧ ¬ Hidden py ms betaStatus) ∨
      (Reported py repo localRuntime ∧ ¬ Hidden py ms localRuntime)
  beta : Reported py repo betaPath → ¬ Hidden py ms betaPath
  changelog : Reported py repo changelogEntry → ¬ Hidden py ms changelogEntry
  /-- the check of the path looks for files that the rule does not ask for -/
  noFiles : hasBetaFiles repo = false →
    covers py repo "readme_has_beta_runtime_entrypoint" = false → ¬ Suggested py ms betaPath
  quiet : heuristicInconsistencies py repo = [] →
    ∀ m ∈ keep py [] ms, (suppression py repo m).isSome = true

/-- What has the identifier of a rule that does not apply is validated. -/
theorem suppression_of_uncovered {rule : Rule} (hrule : rule ∈ issueCoverageRules)
    (huncovered : rule.coverageKeys.all (covers py repo) = false) {item : PyDict}
    (hident : (identOf py item).is rule.id = true) : suppression py repo item = none := by
  rcases h : suppression py repo item with - | other
  · rfl
  · obtain ⟨hother, hid, hcovered⟩ := suppression_eq_some py repo h
    have hsame := identOf_is py (rule_id_ne other hother) hid
    rw [is_iff] at hident hsame
    rw [rule_ext other hother rule hrule
      (PyStr.ofString_injective (PyJson.str.inj (hsame.symm.trans hident))), huncovered] at hcovered
    cases hcovered

theorem validatedOf_eq_nil_iff : validatedOf py repo ms = [] ↔
    ∀ item ∈ keep py [] (ms ++ heuristicInconsistencies py repo),
      (suppression py repo item).isSome = true := by
  rw [validatedOf, validateIssuesAgainstMarkers, List.map_eq_nil_iff, List.filter_eq_nil_iff]
  refine forall₂_congr fun item _ => ?_
  rcases suppression py repo item with - | rule
  · exact iff_of_false (fun h => h rfl) fun h => nomatch h
  · exact iff_of_true Bool.false_ne_true rfl

/-- When a check fails something is validated. -/
theorem validatedOf_ne_nil (h : heuristicInconsistencies py repo ≠ []) :
    validatedOf py repo ms ≠ [] := by
  intro hnil
  obtain ⟨issue, hissue⟩ := List.exists_mem_of_ne_nil _ h
  obtain ⟨rule, hrule, severity, evidence, change, rfl, huncovered⟩ :=
    heuristic_cases py repo hissue
  rcases hfirst : firstWith py (ms ++ heuristicInconsistencies py repo) rule.id with - | item
  · refine List.find?_eq_none.mp hfirst _ (List.mem_append_right _ hissue) ?_
    rw [identOf_heuristicIssue py (rule_id_ne rule hrule), is_iff]
  · obtain ⟨hkept, hident⟩ := (mem_keep_iff py List.not_mem_nil).mpr hfirst
    have hsome := (validatedOf_eq_nil_iff py repo ms).mp hnil item hkept
    rw [suppression_of_uncovered py repo hrule huncovered hident] at hsome
    cases hsome

/-- The operations are those of the checks. -/
def deterministicOperations : List Operation := operationsOf (heuristicInconsistencies py repo)

theorem operationsOf_validated_iff :
    operationsOf (validatedOf py repo ms) = deterministicOperations py repo ↔
      LeavesOperations py repo ms := by
  obtain ⟨hstatus, hlocal, hbeta, hchangelog⟩ := reported_iff py repo
  have hstatus' := hasId_iff_of_covered py repo ms
    (show (⟨betaStatus, ["readme_has_beta_runtime_status"], _⟩ : Rule) ∈ issueCoverageRules from
      .head _) (by simpa using hstatus)
  have hlocal' := hasId_iff_of_covered py repo ms
    (show (⟨localRuntime, ["readme_has_local_model_bootstrap"], _⟩ : Rule) ∈ issueCoverageRules from
      .tail _ (.head _)) (by simpa using hlocal)
  have hbeta' := hasId_rule_iff py repo ms
    (show (⟨betaPath, ["readme_has_beta_runtime_entrypoint"], _⟩ : Rule) ∈ issueCoverageRules from
      .tail _ (.tail _ (.head _)))
  have hchangelog' := hasId_iff_of_covered py repo ms
    (show (⟨changelogEntry, ["changelog_has_v3_0_1"], _⟩ : Rule) ∈ issueCoverageRules from
      .tail _ (.tail _ (.tail _ (.head _)))) (by simpa using hchangelog)
  simp only [List.all_cons, List.all_nil, Bool.and_true] at hbeta'
  rw [deterministicOperations, operationsOf_eq, operationsOf_eq, operationList_inj]
  simp only [Bool.or_eq_true, Bool.not_eq_true', hstatus', hlocal', hbeta', hchangelog']
  change (_ ↔ Reported py repo betaStatus ∨ Reported py repo localRuntime) ∧
    (_ ↔ Reported py repo betaPath) ∧ (_ ↔ Reported py repo changelogEntry) ∧ _ ↔ _
  constructor
  · rintro ⟨h₁, h₂, h₃, h₄⟩
    refine ⟨h₁.mpr, fun h => ?_, fun h => (h₃.mpr h).2, fun hfiles huncovered hsuggested => ?_, ?_⟩
    · obtain ⟨-, hs | hr⟩ := h₂.mpr h
      · exact suggested_not_hidden py ms hs
      · exact hr.2
    · have hfiles' := (hbeta.mp (h₂.mp ⟨huncovered, .inl hsuggested⟩)).1
      rw [hfiles] at hfiles'
      cases hfiles'
    · intro hnone m hm
      have hempty : validatedOf py repo ms = [] := by
        by_contra hne
        have hne' : (validatedOf py repo ms).isEmpty = false :=
          Bool.eq_false_iff.mpr fun h => hne (List.isEmpty_iff.mp h)
        have := h₄.mp hne'
        rw [hnone] at this
        cases this
      refine (validatedOf_eq_nil_iff py repo ms).mp hempty m ?_
      rwa [hnone, List.append_nil]
  · intro h
    refine ⟨⟨Or.imp And.left And.left, h.readme⟩, ⟨fun hb => ?_, fun hr => ?_⟩,
      ⟨And.left, fun hr => ⟨hr, h.changelog hr⟩⟩, ?_⟩
    · obtain ⟨huncovered, hs | hr⟩ := hb
      · rcases hfiles : hasBetaFiles repo
        · exact absurd hs (h.noFiles hfiles huncovered)
        · exact hbeta.mpr ⟨hfiles, huncovered⟩
      · exact hr.1
    · exact ⟨(hbeta.mp hr).2, .inr ⟨hr, h.beta hr⟩⟩
    · by_cases hnone : heuristicInconsistencies py repo = []
      · have hempty : validatedOf py repo ms = [] := by
          rw [validatedOf_eq_nil_iff, hnone, List.append_nil]
          exact h.quiet hnone
        rw [hempty, hnone]
      · refine iff_of_true ?_ ?_
        · exact Bool.eq_false_iff.mpr fun he =>
            validatedOf_ne_nil py repo ms hnone (List.isEmpty_iff.mp he)
        · exact Bool.eq_false_iff.mpr fun he => hnone (List.isEmpty_iff.mp he)

/-- The check that an operation is justified by. -/
def Justified (op : Operation) : Prop :=
  (op = readmeOperation ∧ (covers py repo "readme_has_beta_runtime_status" = false ∨
      covers py repo "readme_has_local_model_bootstrap" = false)) ∨
    (op = betaPathOperation ∧ hasBetaFiles repo = true ∧
      covers py repo "readme_has_beta_runtime_entrypoint" = false) ∨
    (op = changelogOperation ∧ covers py repo "changelog_has_v3_0_1" = false) ∨
    (op = roadmapOperation ∧ ∃ check ∈ heuristics py repo, check.1 = true)

theorem justified {op : Operation} (h : op ∈ deterministicOperations py repo) :
    Justified py repo op := by
  obtain ⟨hstatus, hlocal, hbeta, hchangelog⟩ := reported_iff py repo
  rw [deterministicOperations, operationsOf_eq, mem_operationList, Bool.or_eq_true] at h
  rcases h with ⟨h, rfl⟩ | ⟨h, rfl⟩ | ⟨h, rfl⟩ | ⟨h, rfl⟩
  · exact .inl ⟨rfl, h.imp hstatus.mp hlocal.mp⟩
  · exact .inr (.inl ⟨rfl, hbeta.mp h⟩)
  · exact .inr (.inr (.inl ⟨rfl, hchangelog.mp h⟩))
  · refine .inr (.inr (.inr ⟨rfl, ?_⟩))
    have hne : heuristicInconsistencies py repo ≠ [] := by
      intro hnil
      rw [hnil] at h
      cases h
    obtain ⟨issue, hissue⟩ := List.exists_mem_of_ne_nil _ hne
    exact ⟨_, (mem_heuristicInconsistencies py repo).mp hissue, rfl⟩

end Operations

end Konoha.LocalAudit
