/-
LocalAudit/Independent.lean

When the audit does not depend on the model: an answer of the server is harmless when the audit
can read it, write it down and print it, and its issues leave the operations of the checks.

Each step that may fail is given by what it asks of the answer, and so is the whole audit
(`auditRepo_iff`).
-/
import KonohaRuntime.Base.Legible
import KonohaRuntime.LocalAudit.Operations

namespace Konoha.LocalAudit

open CodePoint
open PyJson (is_iff nesting nestingList nestingFields nestingList_le_iff nestingFields_le_iff
  nesting_arr_le_iff nesting_obj_le_iff)

/-! ### The documents -/

section Documents

variable (py : Python)

/-- A value of a field that can be printed and encoded. -/
def Printable : PyJson → Prop
  | .str s => ¬ HasSurrogate s
  | v => nesting v ≤ py.reprDepth

theorem strOf_eq_ok_iff {v : PyJson} : (∃ s, strOf py v = .ok s ∧ ¬ HasSurrogate s) ↔
    Printable py v := by
  cases v with
  | str s =>
      exact ⟨fun ⟨t, ht, h⟩ => Except.ok.inj ht ▸ h, fun h => ⟨s, rfl, h⟩⟩
  | _ =>
      constructor
      · rintro ⟨s, hs, -⟩
        obtain ⟨u, hu, -⟩ := bind_eq_ok.mp hs
        exact checkDepth_eq_ok_iff.mp hu
      · intro h
        refine ⟨_, bind_eq_ok.mpr ⟨(), checkDepth_eq_ok_iff.mpr h, rfl⟩, ?_⟩
        exact not_hasSurrogate_ofString _

/-- The fields that a line shows can be printed. -/
def FieldPrintable (issue : PyDict) (key : String) : Prop :=
  ∀ v, get? issue key = some v → Printable py v

theorem fieldText_eq_ok_iff {issue : PyDict} {key : String} (default : String) :
    (∃ s, fieldText py issue key default = .ok s ∧ ¬ HasSurrogate s) ↔
      FieldPrintable py issue key := by
  unfold fieldText FieldPrintable
  rcases get? issue key with - | v
  · exact iff_of_true ⟨_, rfl, not_hasSurrogate_ofString _⟩ fun v h => nomatch h
  · rw [strOf_eq_ok_iff]
    exact ⟨fun h w hw => Option.some.inj hw ▸ h, fun h => h v rfl⟩

/-- The fields of the line of a validated issue. -/
def shownFields : List String := ["id", "severity", "evidence", "suggested_change"]

theorem issueLine_eq_ok_iff {issue : PyDict} :
    (∃ s, issueLine py issue = .ok s ∧ ¬ HasSurrogate s) ↔
      ∀ key ∈ shownFields, FieldPrintable py issue key := by
  rw [shownFields, List.forall_mem_cons, List.forall_mem_cons, List.forall_mem_cons,
    List.forall_mem_singleton]
  constructor
  · rintro ⟨s, hs, hnone⟩
    obtain ⟨id, hid, hs⟩ := bind_eq_ok.mp hs
    obtain ⟨severity, hseverity, hs⟩ := bind_eq_ok.mp hs
    obtain ⟨evidence, hevidence, hs⟩ := bind_eq_ok.mp hs
    obtain ⟨change, hchange, hs⟩ := bind_eq_ok.mp hs
    rw [← Except.ok.inj hs] at hnone
    simp only [hasSurrogate_append, not_or] at hnone
    exact ⟨(fieldText_eq_ok_iff py _).mp ⟨id, hid, by tauto⟩,
      (fieldText_eq_ok_iff py _).mp ⟨severity, hseverity, by tauto⟩,
      (fieldText_eq_ok_iff py _).mp ⟨evidence, hevidence, by tauto⟩,
      (fieldText_eq_ok_iff py _).mp ⟨change, hchange, by tauto⟩⟩
  · rintro ⟨hid, hseverity, hevidence, hchange⟩
    obtain ⟨id, hid, hid'⟩ := (fieldText_eq_ok_iff py "issue").mpr hid
    obtain ⟨severity, hseverity, hseverity'⟩ :=
      (fieldText_eq_ok_iff py "unknown").mpr hseverity
    obtain ⟨evidence, hevidence, hevidence'⟩ := (fieldText_eq_ok_iff py "").mpr hevidence
    obtain ⟨change, hchange, hchange'⟩ := (fieldText_eq_ok_iff py "").mpr hchange
    refine ⟨_, bind_eq_ok.mpr ⟨id, hid, bind_eq_ok.mpr ⟨severity, hseverity, bind_eq_ok.mpr
      ⟨evidence, hevidence, bind_eq_ok.mpr ⟨change, hchange, rfl⟩⟩⟩⟩, ?_⟩
    simp only [hasSurrogate_append, not_or, not_hasSurrogate_ofString]
    tauto

theorem mapM_eq_ok_iff {α : Type} {f : α → Except PyExc PyStr} {xs : List α} :
    (∃ ss, xs.mapM f = .ok ss ∧ ¬ HasSurrogate ss.flatten) ↔
      ∀ x ∈ xs, ∃ s, f x = .ok s ∧ ¬ HasSurrogate s := by
  induction xs with
  | nil =>
      refine iff_of_true ⟨[], rfl, ?_⟩ fun _ h => absurd h List.not_mem_nil
      rintro ⟨n, hn⟩
      exact absurd hn List.not_mem_nil
  | cons x xs ih =>
      rw [List.forall_mem_cons, ← ih]
      simp only [List.mapM_cons]
      constructor
      · rintro ⟨ss, hss, hnone⟩
        obtain ⟨s, hs, hss⟩ := bind_eq_ok.mp hss
        obtain ⟨rest, hrest, hss⟩ := bind_eq_ok.mp hss
        rw [← Except.ok.inj hss, List.flatten_cons, hasSurrogate_append, not_or] at hnone
        exact ⟨⟨s, hs, hnone.1⟩, rest, hrest, hnone.2⟩
      · rintro ⟨⟨s, hs, hnone⟩, rest, hrest, hnone'⟩
        refine ⟨s :: rest, bind_eq_ok.mpr ⟨s, hs, bind_eq_ok.mpr ⟨rest, hrest, rfl⟩⟩, ?_⟩
        rw [List.flatten_cons, hasSurrogate_append, not_or]
        exact ⟨hnone, hnone'⟩

end Documents

section Conclusion

variable (py : Python) (repo : Repo) (ms : List PyDict)

theorem get?_validatedIssue {issue : PyDict} {key : String} (h : key ∈ shownFields) :
    get? (validatedIssue issue) key = get? issue key :=
  get?_set_ne fun heq => absurd (heq ▸ h) (by decide)

/-- What is suppressed is shown by texts of the rule. -/
theorem suppressedLine_ok {item : PyDict} {rule : Rule}
    (h : suppression py repo item = some rule) :
    ∃ s, suppressedLine py (suppressedIssue py repo item rule) = .ok s ∧ ¬ HasSurrogate s := by
  obtain ⟨-, hid, -⟩ := suppression_eq_some py repo h
  have hshown : get? (suppressedIssue py repo item rule) "id" = get? item "id" := by
    unfold suppressedIssue
    dsimp only
    rw [get?_set_ne (by decide), get?_set_ne (by decide), get?_set_ne (by decide),
      get?_set_ne (by decide)]
  have hreason : get? (suppressedIssue py repo item rule) "suppression_reason" =
      some (.str (.ofString rule.reason)) := by
    unfold suppressedIssue
    dsimp only
    rw [get?_set_ne (by decide), get?_set_ne (by decide), get?_set_self]
  have hidText : get? item "id" = some (.str (.ofString rule.id)) := by
    rw [get, is_iff] at hid
    rcases hfound : get? item "id" with - | v
    · rw [hfound] at hid
      cases hid
    · rw [hfound] at hid
      exact congrArg some hid
  refine ⟨_, bind_eq_ok.mpr ⟨.ofString rule.id, ?_, bind_eq_ok.mpr ⟨.ofString rule.reason, ?_, rfl⟩⟩,
    ?_⟩
  · rw [fieldText, hshown, hidText]
    rfl
  · rw [fieldText, hreason]
    rfl
  · simp only [hasSurrogate_append, not_or, not_hasSurrogate_ofString, not_false_eq_true, and_self]

/-- An issue of the model that is suppressed, or can be hashed and shown. -/
def Presentable (m : PyDict) : Prop :=
  (suppression py repo m).isSome = true ∨
    (hashable (get m "id") = true ∧ ∀ key ∈ shownFields, FieldPrintable py m key)

theorem heuristic_presentable {h : PyDict} (hmem : h ∈ heuristicInconsistencies py repo) :
    hashable (get h "id") = true ∧ ∀ key ∈ shownFields, FieldPrintable py h key := by
  obtain ⟨rule, hrule, severity, evidence, change, rfl, -⟩ := heuristic_cases py repo hmem
  refine ⟨by rw [get_heuristicIssue]; rfl, fun key hkey v hv => ?_⟩
  obtain ⟨kv, hkv, rfl⟩ := Option.map_eq_some_iff.mp hv
  have hfield := List.mem_of_find?_eq_some hkv
  simp only [heuristicIssue, List.mem_cons, List.not_mem_nil, or_false] at hfield
  rcases hfield with rfl | rfl | rfl | rfl | rfl <;> exact not_hasSurrogate_ofString _

theorem heuristic_identified {h : PyDict} (hmem : h ∈ heuristicInconsistencies py repo) :
    Identified py h := by
  obtain ⟨rule, hrule, severity, evidence, change, rfl, -⟩ := heuristic_cases py repo hmem
  have htruthy : truthy (get (heuristicIssue rule.id severity evidence change) "id") = true := by
    rw [get_heuristicIssue]
    refine decide_eq_true fun heq => rule_id_ne rule hrule ?_
    exact PyStr.ofString_injective heq
  refine ⟨if_pos (.inl htruthy), ?_⟩
  rw [identOf_heuristicIssue py (rule_id_ne rule hrule)]
  rfl

/-- The issues that are validated can be hashed and shown when those of the model can. -/
theorem forall_validated_iff {P : PyDict → Prop}
    (hheuristic : ∀ h ∈ heuristicInconsistencies py repo, P h) :
    (∀ item ∈ keep py [] (ms ++ heuristicInconsistencies py repo),
        suppression py repo item = none → P item) ↔
      ∀ m ∈ keep py [] ms, (suppression py repo m).isSome = true ∨ P m := by
  rw [keep_append]
  constructor
  · intro h m hm
    rcases hm' : suppression py repo m with - | rule
    · exact .inr (h m (List.mem_append_left _ hm) hm')
    · exact .inl rfl
  · intro h item hitem hnone
    rcases List.mem_append.mp hitem with hmem | hmem
    · refine (h item hmem).resolve_left ?_
      rw [hnone]
      exact Bool.false_ne_true
    · exact hheuristic item (mem_of_mem_keep py hmem)

/-- The issues that are suppressed. -/
def suppressedOf : List PyDict :=
  (validateIssuesAgainstMarkers py repo (keep py [] (ms ++ heuristicInconsistencies py repo))).2

theorem writeMarkdown_eq_ok_iff {parsed : PyJson} {validated suppressed : List PyDict}
    {commit : PyStr} : writeMarkdown py parsed validated suppressed commit = .ok () ↔
      (∀ issue ∈ validated, ∀ key ∈ shownFields, FieldPrintable py issue key) ∧
      (∀ issue ∈ suppressed, ∃ s, suppressedLine py issue = .ok s ∧ ¬ HasSurrogate s) ∧
      (∃ s, summaryLine parsed = .ok s ∧ ¬ HasSurrogate s) ∧ ¬ HasSurrogate commit := by
  have hflatten (summary : PyStr) (ls ks : List PyStr) :
      HasSurrogate ((summary :: ls) ++ ks ++ [commit]).flatten ↔
        ((HasSurrogate summary ∨ HasSurrogate ls.flatten) ∨ HasSurrogate ks.flatten) ∨
          HasSurrogate commit := by
    rw [List.flatten_append, List.flatten_append, List.flatten_cons, List.flatten_singleton,
      hasSurrogate_append, hasSurrogate_append, hasSurrogate_append]
  rw [← forall₂_congr fun issue (_ : issue ∈ validated) => issueLine_eq_ok_iff py, ← mapM_eq_ok_iff,
    ← mapM_eq_ok_iff]
  constructor
  · intro h
    obtain ⟨ls, hls, h⟩ := bind_eq_ok.mp h
    obtain ⟨ks, hks, h⟩ := bind_eq_ok.mp h
    obtain ⟨summary, hsummary, h⟩ := bind_eq_ok.mp h
    obtain ⟨text, htext, -⟩ := bind_eq_ok.mp h
    have hnone : ¬ HasSurrogate ((summary :: ls) ++ ks ++ [commit]).flatten := fun hs => by
      obtain ⟨e, he⟩ := encode_eq_error hs
      rw [he] at htext
      cases htext
    rw [hflatten] at hnone
    exact ⟨⟨ls, hls, by tauto⟩, ⟨ks, hks, by tauto⟩, ⟨summary, hsummary, by tauto⟩, by tauto⟩
  · rintro ⟨⟨ls, hls, hls'⟩, ⟨ks, hks, hks'⟩, ⟨summary, hsummary, hsummary'⟩, hcommit⟩
    have hnone : ¬ HasSurrogate ((summary :: ls) ++ ks ++ [commit]).flatten := by
      rw [hflatten]
      tauto
    obtain ⟨text, htext⟩ := encode_eq_ok hnone
    exact bind_eq_ok.mpr ⟨ls, hls, bind_eq_ok.mpr ⟨ks, hks, bind_eq_ok.mpr
      ⟨summary, hsummary, bind_eq_ok.mpr ⟨text, htext, rfl⟩⟩⟩⟩

end Conclusion

section Depth

variable (py : Python) (repo : Repo) (ms : List PyDict)

theorem nesting_str_le (s : PyStr) (n : Nat) : nesting (.str s) ≤ n := Nat.zero_le n

theorem nesting_evidence_le : nesting (evidenceByGroup py repo) ≤ 3 := by
  refine nesting_obj_le_iff.mpr fun kv hkv => ?_
  obtain ⟨group, -, rfl⟩ := List.mem_map.mp hkv
  refine nesting_arr_le_iff.mpr fun entry hentry => ?_
  obtain ⟨doc, -, hentry⟩ := List.mem_flatMap.mp hentry
  obtain ⟨line, -, hline⟩ := List.mem_filterMap.mp hentry
  obtain ⟨needle, -, rfl⟩ := Option.map_eq_some_iff.mp hline
  exact le_rfl

theorem nesting_markers_le : nesting (deterministicMarkers py repo) ≤ 4 := by
  refine nesting_obj_le_iff.mpr ?_
  rw [List.forall_mem_cons, List.forall_mem_cons, List.forall_mem_singleton]
  refine ⟨?_, nesting_evidence_le py repo, ?_⟩
  · refine Nat.le_trans (nesting_obj_le_iff.mpr fun kv hkv => ?_) (show 0 + 1 ≤ 3 by decide)
    obtain ⟨entry, -, rfl⟩ := List.mem_map.mp hkv
    exact le_rfl
  · refine Nat.le_trans (nesting_arr_le_iff.mpr fun v hv => ?_) (show 0 + 1 ≤ 3 by decide)
    obtain ⟨doc, -, rfl⟩ := List.mem_map.mp hv
    exact le_rfl

theorem nesting_set_le {d : PyDict} {key : String} {v : PyJson} {n : Nat}
    (hd : nesting (.obj d) ≤ n + 1) (hv : nesting v ≤ n) : nesting (.obj (set d key v)) ≤ n + 1 := by
  rw [nesting_obj_le_iff] at hd ⊢
  intro kv hkv
  rcases mem_set hkv with heq | hmem
  · rw [heq]
    exact hv
  · exact hd kv hmem

theorem nesting_heuristic_le {h : PyDict} (hmem : h ∈ heuristicInconsistencies py repo) :
    nesting (.obj h) ≤ 1 := by
  obtain ⟨rule, -, severity, evidence, change, rfl, -⟩ := heuristic_cases py repo hmem
  refine nesting_obj_le_iff.mpr fun kv hkv => ?_
  simp only [heuristicIssue, List.mem_cons, List.not_mem_nil, or_false] at hkv
  rcases hkv with rfl | rfl | rfl | rfl | rfl <;> exact le_rfl

variable {py repo ms}

theorem nesting_candidate_le {n : Nat} (hms : ∀ m ∈ ms, nesting (.obj m) ≤ n + 1) {item : PyDict}
    (hitem : item ∈ keep py [] (ms ++ heuristicInconsistencies py repo)) :
    nesting (.obj item) ≤ n + 1 := by
  rcases List.mem_append.mp (mem_of_mem_keep py hitem) with hmem | hmem
  · exact hms item hmem
  · exact Nat.le_trans (nesting_heuristic_le py repo hmem) (Nat.le_add_left 1 n)

theorem nesting_validated_le {n : Nat} (hms : ∀ m ∈ ms, nesting (.obj m) ≤ n + 1) {issue : PyDict}
    (hissue : issue ∈ validatedOf py repo ms) : nesting (.obj issue) ≤ n + 1 := by
  obtain ⟨item, hitem, rfl⟩ := List.mem_map.mp hissue
  exact nesting_set_le (nesting_candidate_le hms (List.mem_of_mem_filter hitem))
    (nesting_str_le _ n)

theorem nesting_suppressed_le {n : Nat} (hn : 3 ≤ n) (hms : ∀ m ∈ ms, nesting (.obj m) ≤ n + 1)
    {issue : PyDict} (hissue : issue ∈ suppressedOf py repo ms) :
    nesting (.obj issue) ≤ n + 1 := by
  obtain ⟨item, hitem, hrule⟩ := List.mem_filterMap.mp hissue
  obtain ⟨rule, -, rfl⟩ := Option.map_eq_some_iff.mp hrule
  have hkeys : nesting (.arr (rule.coverageKeys.map fun key => .str (.ofString key))) ≤ n := by
    refine Nat.le_trans (nesting_arr_le_iff.mpr fun v hv => ?_) (show 0 + 1 ≤ n by omega)
    obtain ⟨key, -, rfl⟩ := List.mem_map.mp hv
    exact le_rfl
  have hevidence := Nat.le_trans (nesting_evidence_le py repo) hn
  exact nesting_set_le (nesting_set_le (nesting_set_le (nesting_set_le
    (nesting_candidate_le hms hitem) (nesting_str_le _ n)) (nesting_str_le _ n)) hkeys) hevidence

/-- The audit is nested as deep as the JSON of the model and the usage ask for. -/
theorem nesting_audit_le_iff {limit : Nat} (hlimit : 8 ≤ limit) {text : PyStr} {usage : PyDict}
    {parsed : PyJson} (hms : ∀ m ∈ ms, nesting (.obj m) + 2 ≤ nesting parsed) :
    nesting (.obj (auditDocument py repo text usage parsed ms
        (keep py [] (ms ++ heuristicInconsistencies py repo)) (validatedOf py repo ms)
        (suppressedOf py repo ms))) ≤ limit ↔
      nesting parsed + 1 ≤ limit ∧ ∀ kv ∈ usage, nesting kv.2 + 2 ≤ limit := by
  obtain ⟨n, rfl⟩ : ∃ n, limit = n + 4 := ⟨limit - 4, by omega⟩
  have husage : nesting (.obj usage) ≤ n + 3 ↔ ∀ kv ∈ usage, nesting kv.2 + 2 ≤ n + 4 :=
    nesting_obj_le_iff.trans (forall₂_congr fun _ _ => by omega)
  rw [show n + 4 = n + 3 + 1 from rfl, nesting_obj_le_iff, auditDocument]
  simp only [List.forall_mem_cons, List.not_mem_nil, false_imp_iff, imp_true_iff, and_true]
  rw [husage]
  constructor
  · rintro ⟨-, hparsed, husage, -⟩
    exact ⟨Nat.succ_le_succ hparsed, husage⟩
  · rintro ⟨hparsed, husage⟩
    have hmodel : ∀ m ∈ ms, nesting (.obj m) ≤ n + 1 := fun m hm => by
      have := hms m hm
      omega
    have hwiden {issues : List PyDict} (h : ∀ issue ∈ issues, nesting (.obj issue) ≤ n + 1) :
        nesting (arrOf issues) ≤ n + 3 :=
      Nat.le_succ_of_le (nesting_arrOf_le_iff.mpr h)
    have hmarkers := nesting_markers_le py repo
    refine ⟨Nat.zero_le _, Nat.le_of_succ_le_succ hparsed, husage, by omega, hwiden hmodel, ?_,
      hwiden fun _ => nesting_candidate_le hmodel, hwiden fun _ => nesting_validated_le hmodel,
      hwiden fun _ => nesting_suppressed_le (by omega) hmodel,
      hwiden fun _ => nesting_validated_le hmodel⟩
    exact hwiden fun h hh => Nat.le_trans (nesting_heuristic_le py repo hh) (Nat.le_add_left 1 n)

theorem nesting_plan_le {limit : Nat} (hlimit : 8 ≤ limit) {parsed : PyJson} {plan : Plan}
    (hms : ∀ m ∈ ms, nesting (.obj m) + 2 ≤ nesting parsed) (hparsed : nesting parsed + 1 ≤ limit)
    (hissues : plan.issuesConsidered = validatedOf py repo ms) :
    nesting (.obj (planDocument plan)) ≤ limit := by
  obtain ⟨n, rfl⟩ : ∃ n, limit = n + 4 := ⟨limit - 4, by omega⟩
  have hmodel : ∀ m ∈ ms, nesting (.obj m) ≤ n + 1 := fun m hm => by
    have := hms m hm
    omega
  rw [show n + 4 = n + 3 + 1 from rfl, nesting_obj_le_iff, planDocument]
  simp only [List.forall_mem_cons, List.not_mem_nil, false_imp_iff, imp_true_iff, and_true]
  refine ⟨Nat.zero_le _, ?_, ?_, Nat.zero_le _⟩
  · rw [hissues]
    exact Nat.le_succ_of_le (nesting_arrOf_le_iff.mpr fun _ => nesting_validated_le hmodel)
  · refine Nat.le_trans (nesting_arr_le_iff.mpr fun v hv => ?_) (show 1 + 1 ≤ n + 3 by omega)
    obtain ⟨op, -, rfl⟩ := List.mem_map.mp hv
    exact le_rfl

end Depth

section Conclude

variable (py : Python) (repo : Repo) (ms : List PyDict)

theorem makePatchPlan_eq_ok_iff {issues : List PyDict} {summary commit : PyStr} {plan : Plan} :
    makePatchPlan issues summary commit = .ok plan ↔
      (∀ issue ∈ issues, hashable (get issue "id") = true) ∧
        plan = ⟨summary, issues, operationsOf issues,
          if commit ≠ [] then commit
          else if operationsOf issues = [] then .ofString "No documentation patch recommended"
          else .ofString "Update Konoha beta local model audit documentation"⟩ := by
  unfold makePatchPlan
  by_cases h : (issues.any fun issue => ! hashable (get issue "id")) = true
  · rw [if_pos h]
    obtain ⟨issue, hissue, hid⟩ := List.any_eq_true.mp h
    refine iff_of_false (fun h => nomatch h) fun h => ?_
    rw [h.1 issue hissue] at hid
    cases hid
  · rw [if_neg h]
    have hids : ∀ issue ∈ issues, hashable (get issue "id") = true := fun issue hissue => by
      rcases hid : hashable (get issue "id")
      · exact absurd (List.any_eq_true.mpr ⟨issue, hissue, by rw [hid]; rfl⟩) h
      · rfl
    exact ⟨fun h => ⟨hids, (Except.ok.inj h).symm⟩, fun h => congrArg Except.ok h.2.symm⟩

/-- The message of the commit holds a surrogate when that of the model does. -/
theorem hasSurrogate_commit {operations : List Operation} {commit : PyStr} :
    HasSurrogate (if commit ≠ [] then commit
      else if operations = [] then .ofString "No documentation patch recommended"
      else .ofString "Update Konoha beta local model audit documentation") ↔
        HasSurrogate commit := by
  split_ifs with hempty hnone
  · exact Iff.rfl
  all_goals
    refine iff_of_false (not_hasSurrogate_ofString _) ?_
    rintro ⟨n, hn⟩
    rw [not_not.mp hempty] at hn
    exact absurd hn List.not_mem_nil

/-- The audit succeeds. -/
structure Concludes (extra : Nat) (usage : PyDict) (parsed : PyJson) (commit : PyStr) : Prop where
  identified : ∀ m ∈ ms, Identified py m
  presentable : ∀ m ∈ keep py [] ms, Presentable py repo m
  nested : nesting parsed + 1 + extra ≤ py.indentDepth
  usage : ∀ kv ∈ usage, nesting kv.2 + 2 + extra ≤ py.indentDepth
  summary : ∃ s, summaryLine parsed = .ok s ∧ ¬ HasSurrogate s
  commit : ¬ HasSurrogate commit

theorem allIdentified_iff : (∀ item ∈ ms ++ heuristicInconsistencies py repo, Identified py item) ↔
    ∀ m ∈ ms, Identified py m :=
  ⟨fun h m hm => h m (List.mem_append_left _ hm), fun h item hitem =>
    (List.mem_append.mp hitem).elim (h item) (heuristic_identified py repo)⟩

theorem mem_validatedOf {issue : PyDict} : issue ∈ validatedOf py repo ms ↔
    ∃ item ∈ keep py [] (ms ++ heuristicInconsistencies py repo),
      suppression py repo item = none ∧ validatedIssue item = issue := by
  rw [validatedOf, validateIssuesAgainstMarkers, List.mem_map]
  simp only [List.mem_filter, Option.isNone_iff_eq_none, and_assoc]

/-- The ids and the lines of the validated issues are in order when those of the model are. -/
theorem presentable_iff :
    ((∀ issue ∈ validatedOf py repo ms, hashable (get issue "id") = true) ∧
      ∀ issue ∈ validatedOf py repo ms, ∀ key ∈ shownFields, FieldPrintable py issue key) ↔
        ∀ m ∈ keep py [] ms, Presentable py repo m := by
  have hshown (item : PyDict) : (∀ key ∈ shownFields, FieldPrintable py (validatedIssue item) key) ↔
      ∀ key ∈ shownFields, FieldPrintable py item key :=
    forall₂_congr fun key hkey => by rw [FieldPrintable, get?_validatedIssue hkey, FieldPrintable]
  rw [← forall₂_and]
  refine Iff.trans ?_ (forall_validated_iff py repo ms fun h => heuristic_presentable py repo)
  constructor
  · intro h item hitem hnone
    have hissue := h _ ((mem_validatedOf py repo ms).mpr ⟨item, hitem, hnone, rfl⟩)
    rwa [get_validatedIssue, hshown] at hissue
  · intro h issue hissue
    obtain ⟨item, hitem, hnone, rfl⟩ := (mem_validatedOf py repo ms).mp hissue
    rw [get_validatedIssue, hshown]
    exact h item hitem hnone

theorem suppressed_printable : ∀ issue ∈ suppressedOf py repo ms,
    ∃ s, suppressedLine py issue = .ok s ∧ ¬ HasSurrogate s := by
  intro issue hissue
  obtain ⟨item, -, hsuppressed⟩ := List.mem_filterMap.mp hissue
  obtain ⟨rule, hrule, rfl⟩ := Option.map_eq_some_iff.mp hsuppressed
  exact suppressedLine_ok py repo hrule

theorem writeJson_eq_ok_iff {doc : PyDict} :
    writeJson py doc = .ok () ↔ nesting (.obj doc) ≤ py.indentDepth :=
  checkDepth_eq_ok_iff

/-- What is printed is one level deeper than the audit. -/
theorem emit_eq_ok_iff {asJson : Bool} {audit : PyDict} :
    (writeJson py audit = .ok () ∧ emit py asJson audit = .ok ()) ↔
      nesting (.obj audit) + asJson.toNat ≤ py.indentDepth := by
  rw [writeJson_eq_ok_iff]
  cases asJson with
  | false => exact and_iff_left rfl
  | true =>
      have hprinted : nesting (.obj [(.ofString "audit", .obj audit)]) = nesting (.obj audit) + 1 :=
        congrArg (· + 1) (Nat.max_zero _)
      rw [emit, if_pos rfl, writeJson_eq_ok_iff, hprinted, Bool.toNat_true]
      exact and_iff_right_of_imp Nat.le_of_succ_le

theorem conclude_eq_ok_iff {asJson : Bool} {text : PyStr} {usage : PyDict} {parsed : PyJson}
    (hms : ∀ m ∈ ms, nesting (.obj m) + 2 ≤ nesting parsed) {modelSummary commit : PyStr}
    {operations : List Operation} :
    (∃ plan, conclude py asJson repo text usage parsed modelSummary ms commit = .ok plan ∧
      plan.operations = operations) ↔
        Concludes py repo ms asJson.toNat usage parsed commit ∧
          operationsOf (validatedOf py repo ms) = operations := by
  have hroom := py.room
  have hbool : asJson.toNat ≤ 1 := Bool.toNat_le asJson
  have haudit : nesting (.obj (auditDocument py repo text usage parsed ms
      (keep py [] (ms ++ heuristicInconsistencies py repo)) (validatedOf py repo ms)
      (suppressedOf py repo ms))) + asJson.toNat ≤ py.indentDepth ↔
        nesting parsed + 1 + asJson.toNat ≤ py.indentDepth ∧
          ∀ kv ∈ usage, nesting kv.2 + 2 + asJson.toNat ≤ py.indentDepth := by
    rw [← Nat.le_sub_iff_add_le (by omega), nesting_audit_le_iff (by omega) hms]
    refine and_congr (by omega) (forall₂_congr fun kv _ => by omega)
  constructor
  · rintro ⟨plan, h, hoperations⟩
    obtain ⟨candidates, hcandidates, h⟩ := bind_eq_ok.mp h
    obtain ⟨hidentified, rfl⟩ := (mergeIssues_eq_ok_iff py).mp hcandidates
    obtain ⟨made, hmade, h⟩ := bind_eq_ok.mp h
    obtain ⟨hids, rfl⟩ := makePatchPlan_eq_ok_iff.mp hmade
    obtain ⟨⟨⟩, hwritten, h⟩ := bind_eq_ok.mp h
    obtain ⟨⟨⟩, -, h⟩ := bind_eq_ok.mp h
    obtain ⟨⟨⟩, hmarkdown, h⟩ := bind_eq_ok.mp h
    obtain ⟨⟨⟩, hprinted, h⟩ := bind_eq_ok.mp h
    obtain ⟨hnested, husage⟩ := haudit.mp ((emit_eq_ok_iff py).mp ⟨hwritten, hprinted⟩)
    obtain ⟨hlines, -, hsummary, hcommit⟩ := (writeMarkdown_eq_ok_iff py).mp hmarkdown
    rw [hasSurrogate_commit] at hcommit
    rw [← Except.ok.inj h] at hoperations
    exact ⟨⟨(allIdentified_iff py repo ms).mp hidentified,
      (presentable_iff py repo ms).mp ⟨hids, hlines⟩, hnested, husage, hsummary, hcommit⟩,
      hoperations⟩
  · rintro ⟨h, hoperations⟩
    obtain ⟨hids, hlines⟩ := (presentable_iff py repo ms).mpr h.presentable
    obtain ⟨hwritten, hprinted⟩ := (emit_eq_ok_iff py).mpr (haudit.mpr ⟨h.nested, h.usage⟩)
    refine ⟨_, bind_eq_ok.mpr ⟨_, (mergeIssues_eq_ok_iff py).mpr
      ⟨(allIdentified_iff py repo ms).mpr h.identified, rfl⟩, bind_eq_ok.mpr
      ⟨_, makePatchPlan_eq_ok_iff.mpr ⟨hids, rfl⟩, bind_eq_ok.mpr
      ⟨(), hwritten, bind_eq_ok.mpr ⟨(), ?_, bind_eq_ok.mpr ⟨(), ?_, bind_eq_ok.mpr
      ⟨(), hprinted, rfl⟩⟩⟩⟩⟩⟩, hoperations⟩
    · refine (writeJson_eq_ok_iff py).mpr (nesting_plan_le (by omega) hms ?_ rfl)
      have := h.nested
      omega
    · refine (writeMarkdown_eq_ok_iff py).mpr
        ⟨hlines, suppressed_printable py repo ms, h.summary, ?_⟩
      rw [hasSurrogate_commit]
      exact h.commit

end Conclude

/-! ### Replies -/

section Replies

variable (py : Python) (asJson : Bool) (repo : Repo)

theorem nesting_dicts {v : PyJson} : ∀ m ∈ dicts v, nesting (.obj m) + 1 ≤ nesting v := by
  intro m hm
  cases v with
  | arr xs =>
      obtain ⟨x, hx, hxm⟩ := List.mem_filterMap.mp hm
      cases x with
      | obj kvs =>
          obtain rfl := Option.some.inj hxm
          exact Nat.succ_le_succ (nestingList_le_iff.mp le_rfl _ hx)
      | _ => cases hxm
  | _ => exact absurd hm List.not_mem_nil

/-- The issues of the model. -/
def issuesOf : PyJson → List PyDict
  | .obj d => dicts (get d "inconsistencies")
  | _ => []

theorem nesting_issuesOf {parsed : PyJson} :
    ∀ m ∈ issuesOf parsed, nesting (.obj m) + 2 ≤ nesting parsed := by
  intro m hm
  cases parsed with
  | obj d =>
      have hm' := nesting_dicts m hm
      rw [get] at hm'
      rcases hfound : get? d "inconsistencies" with - | v
      · rw [hfound] at hm'
        exact absurd hm' (Nat.not_succ_le_zero _)
      · rw [hfound] at hm'
        obtain ⟨kv, hkv, rfl⟩ := Option.map_eq_some_iff.mp hfound
        have := nestingFields_le_iff.mp le_rfl kv (List.mem_of_find?_eq_some hkv)
        exact Nat.succ_le_succ (Nat.le_trans hm' this)
  | _ => exact absurd hm List.not_mem_nil

/-- What the model has written can be read, written down and printed, and leaves the operations of
the checks as they are. -/
structure HarmlessModel (parsed : PyJson) : Prop where
  shape : truthy parsed = false ∨ ∃ d, parsed = .obj d
  summary : ∀ d v, parsed = .obj d → get? d "summary" = some v →
    ∃ s, v = .str s ∧ ¬ HasSurrogate s
  commit : ∀ d, parsed = .obj d → FieldPrintable py d "recommended_commit_message"
  nested : nesting parsed + 1 + asJson.toNat ≤ py.indentDepth
  identified : ∀ m ∈ issuesOf parsed, Identified py m
  presentable : ∀ m ∈ keep py [] (issuesOf parsed), Presentable py repo m
  operations : LeavesOperations py repo (issuesOf parsed)

/-- The fields of the answer that the usage is made of. -/
def usageFields : List String :=
  ["prompt_eval_count", "eval_count", "total_duration", "prompt_eval_duration", "eval_duration"]

/-- An answer of the server without influence on the operations. -/
def Harmless (body : PyJson) : Prop :=
  ∃ data text, body = .obj data ∧ (get? data "response").getD (.str []) = .str text ∧
    (∀ key ∈ usageFields, nesting (get data key) + 2 + asJson.toNat ≤ py.indentDepth) ∧
    HarmlessModel py asJson repo (parseJsonish py text)

/-- `summary` of a text -/
theorem summaryLine_eq_ok_iff {parsed : PyJson} :
    (∃ s, summaryLine parsed = .ok s ∧ ¬ HasSurrogate s) ↔
      ∀ d v, parsed = .obj d → get? d "summary" = some v → ∃ s, v = .str s ∧ ¬ HasSurrogate s := by
  cases parsed with
  | obj d =>
      unfold summaryLine
      dsimp only
      rcases hfound : get? d "summary" with - | v
      · refine iff_of_true ⟨_, rfl, not_hasSurrogate_ofString _⟩ fun d' v' hd hv => ?_
        rw [← PyJson.obj.inj hd, hfound] at hv
        cases hv
      · constructor
        · rintro ⟨s, hs, hnone⟩ d' v' hd hv
          rw [← PyJson.obj.inj hd, hfound] at hv
          obtain rfl := Option.some.inj hv
          cases v with
          | str t => exact ⟨t, rfl, Except.ok.inj hs ▸ hnone⟩
          | _ => cases hs
        · intro h
          obtain ⟨s, rfl, hnone⟩ := h d v rfl hfound
          exact ⟨s, rfl, hnone⟩
  | _ => exact iff_of_true ⟨_, rfl, not_hasSurrogate_ofString _⟩ fun d v h => nomatch h

/-- What is read of an object. -/
theorem readModel_obj_eq_ok_iff {d : PyDict} (htruthy : truthy (.obj d) = true)
    {read : PyStr × List PyDict × PyStr} : readModel py (.obj d) = .ok read ↔
      ∃ summary commit, strOf py ((get? d "summary").getD (.str [])) = .ok summary ∧
        strOf py ((get? d "recommended_commit_message").getD (.str [])) = .ok commit ∧
        read = (summary, issuesOf (.obj d), commit) := by
  rw [readModel, if_neg (by rw [htruthy]; decide)]
  constructor
  · intro h
    obtain ⟨summary, hsummary, h⟩ := bind_eq_ok.mp h
    obtain ⟨commit, hcommit, h⟩ := bind_eq_ok.mp h
    exact ⟨summary, commit, hsummary, hcommit, (Except.ok.inj h).symm⟩
  · rintro ⟨summary, commit, hsummary, hcommit, rfl⟩
    exact bind_eq_ok.mpr ⟨summary, hsummary, bind_eq_ok.mpr ⟨commit, hcommit, rfl⟩⟩

theorem readModel_of_falsy {parsed : PyJson} (h : truthy parsed = false) :
    readModel py parsed = .ok ([], issuesOf parsed, []) := by
  have hissues : issuesOf parsed = [] := by
    cases parsed with
    | obj d =>
        obtain rfl : d = [] := List.isEmpty_iff.mp (Bool.not_eq_eq_eq_not.mp h)
        rfl
    | _ => rfl
  rw [readModel.eq_def, h, hissues]
  rfl

theorem not_hasSurrogate_nil : ¬ HasSurrogate [] := fun ⟨_, h⟩ => absurd h List.not_mem_nil

theorem fieldPrintable_iff {d : PyDict} (key : String) :
    (∃ s, strOf py ((get? d key).getD (.str [])) = .ok s ∧ ¬ HasSurrogate s) ↔
      FieldPrintable py d key := by
  rw [strOf_eq_ok_iff, FieldPrintable]
  rcases get? d key with - | v
  · exact iff_of_true not_hasSurrogate_nil fun v h => nomatch h
  · exact ⟨fun h w hw => Option.some.inj hw ▸ h, fun h => h v rfl⟩

theorem harmlessModel_iff {parsed : PyJson} {usage : PyDict} {commit : PyStr}
    (hshape : truthy parsed = false ∨ ∃ d, parsed = .obj d)
    (hcommit : ¬ HasSurrogate commit ↔
      ∀ d, parsed = .obj d → FieldPrintable py d "recommended_commit_message") :
    (Concludes py repo (issuesOf parsed) asJson.toNat usage parsed commit ∧
      LeavesOperations py repo (issuesOf parsed)) ↔
      (∀ kv ∈ usage, nesting kv.2 + 2 + asJson.toNat ≤ py.indentDepth) ∧
        HarmlessModel py asJson repo parsed :=
  ⟨fun ⟨h, hoperations⟩ => ⟨h.usage, hshape, summaryLine_eq_ok_iff.mp h.summary,
      hcommit.mp h.commit, h.nested, h.identified, h.presentable, hoperations⟩,
    fun ⟨husage, h⟩ => ⟨⟨h.identified, h.presentable, h.nested, husage,
      summaryLine_eq_ok_iff.mpr h.summary, hcommit.mpr h.commit⟩, h.operations⟩⟩

/-- What the audit gives, once the text of the model is known. -/
theorem conclude_readModel_iff {text : PyStr} {usage : PyDict} {parsed : PyJson} :
    (∃ read plan, readModel py parsed = .ok read ∧
        conclude py asJson repo text usage parsed read.1 read.2.1 read.2.2 = .ok plan ∧
        plan.operations = deterministicOperations py repo) ↔
      (∀ kv ∈ usage, nesting kv.2 + 2 + asJson.toNat ≤ py.indentDepth) ∧
        HarmlessModel py asJson repo parsed := by
  have hconclude (summary commit : PyStr) :
      (∃ plan, conclude py asJson repo text usage parsed summary (issuesOf parsed) commit =
          .ok plan ∧ plan.operations = deterministicOperations py repo) ↔
        Concludes py repo (issuesOf parsed) asJson.toNat usage parsed commit ∧
          LeavesOperations py repo (issuesOf parsed) := by
    rw [← operationsOf_validated_iff]
    exact conclude_eq_ok_iff py repo _ nesting_issuesOf
  rcases htruthy : truthy parsed
  · have hcommit : ¬ HasSurrogate [] ↔
        ∀ d, parsed = .obj d → FieldPrintable py d "recommended_commit_message" := by
      refine iff_of_true not_hasSurrogate_nil fun d hd v hv => ?_
      rw [hd] at htruthy
      obtain rfl : d = [] := List.isEmpty_iff.mp (Bool.not_eq_eq_eq_not.mp htruthy)
      cases hv
    rw [← harmlessModel_iff py asJson repo (.inl htruthy) hcommit, ← hconclude []]
    constructor
    · rintro ⟨read, plan, hread, h⟩
      obtain rfl := Except.ok.inj ((readModel_of_falsy py htruthy).symm.trans hread)
      exact ⟨plan, h⟩
    · rintro ⟨plan, h⟩
      exact ⟨_, plan, readModel_of_falsy py htruthy, h⟩
  · by_cases hobj : ∃ d, parsed = .obj d
    · obtain ⟨d, rfl⟩ := hobj
      have hmessage {commit : PyStr} (h : strOf py
          ((get? d "recommended_commit_message").getD (.str [])) = .ok commit) :
          ¬ HasSurrogate commit ↔ ∀ d', PyJson.obj d = .obj d' →
            FieldPrintable py d' "recommended_commit_message" := by
        constructor
        · intro hnone d' hd'
          rw [← PyJson.obj.inj hd']
          exact (fieldPrintable_iff py _).mp ⟨commit, h, hnone⟩
        · intro hprintable
          obtain ⟨s, hs, hnone⟩ := (fieldPrintable_iff py _).mpr (hprintable d rfl)
          rwa [Except.ok.inj (h.symm.trans hs)]
      constructor
      · rintro ⟨read, plan, hread, h⟩
        obtain ⟨summary, commit, -, hcommit, rfl⟩ := (readModel_obj_eq_ok_iff py htruthy).mp hread
        rw [← harmlessModel_iff py asJson repo (.inr ⟨d, rfl⟩) (hmessage hcommit)]
        exact (hconclude summary commit).mp ⟨plan, h⟩
      · rintro ⟨husage, h⟩
        obtain ⟨commit, hcommit, -⟩ := (fieldPrintable_iff py _).mpr (h.commit d rfl)
        obtain ⟨summary, hsummary, -⟩ := (fieldPrintable_iff py "summary").mpr
          fun v hv => by
            obtain ⟨s, rfl, hnone⟩ := h.summary d v rfl hv
            exact hnone
        obtain ⟨plan, hplan⟩ := (hconclude summary commit).mpr
          ((harmlessModel_iff py asJson repo h.shape (hmessage hcommit)).mpr ⟨husage, h⟩)
        exact ⟨_, plan, (readModel_obj_eq_ok_iff py htruthy).mpr
          ⟨summary, commit, hsummary, hcommit, rfl⟩, hplan⟩
    · refine iff_of_false ?_ ?_
      · rintro ⟨read, plan, hread, -⟩
        rw [readModel.eq_def, htruthy] at hread
        cases parsed with
        | obj d => exact hobj ⟨d, rfl⟩
        | _ => cases hread
      · rintro ⟨-, h⟩
        rcases h.shape with h | h
        · rw [htruthy] at h
          cases h
        · exact hobj h

theorem callOllama_eq_ok_iff {body : PyJson} {answer : PyStr × PyDict} :
    callOllama body = .ok answer ↔ ∃ data, body = .obj data ∧
      (get? data "response").getD (.str []) = .str answer.1 ∧ answer.2 = usageOf data := by
  cases body with
  | obj data =>
      simp only [PyJson.obj.injEq, ↓existsAndEq, true_and]
      rw [callOllama]
      cases (get? data "response").getD (.str []) with
      | str text =>
          rw [PyJson.str.injEq]
          exact ⟨fun h => ⟨congrArg Prod.fst (Except.ok.inj h), congrArg Prod.snd (Except.ok.inj h).symm⟩,
            fun h => congrArg Except.ok (Prod.ext h.1 h.2.symm)⟩
      | _ => exact iff_of_false (fun h => nomatch h) fun h => nomatch h.1
  | _ => exact iff_of_false (fun h => nomatch h) fun ⟨_, h, _⟩ => nomatch h

theorem nesting_usageOf_iff {data : PyDict} :
    (∀ kv ∈ usageOf data, nesting kv.2 + 2 + asJson.toNat ≤ py.indentDepth) ↔
      ∀ key ∈ usageFields, nesting (get data key) + 2 + asJson.toNat ≤ py.indentDepth := by
  have hroom := py.room
  have hbool : asJson.toNat ≤ 1 := Bool.toNat_le asJson
  have hsource : nesting (.str (.ofString "provider_reported")) + 2 + asJson.toNat ≤
      py.indentDepth := by
    rw [nesting.eq_def]
    dsimp only
    omega
  unfold usageOf usageFields
  simp only [List.forall_mem_cons, List.not_mem_nil, false_imp_iff, imp_true_iff, and_true]
  exact and_iff_right hsource

/-- The audit succeeds with the operations of the checks for the harmless answers. -/
theorem auditRepo_iff (body : PyJson) : (∃ plan, auditRepo py asJson repo body = .ok plan ∧
    plan.operations = deterministicOperations py repo) ↔ Harmless py asJson repo body := by
  constructor
  · rintro ⟨plan, h, hoperations⟩
    obtain ⟨⟨text, usage⟩, hcall, h⟩ := bind_eq_ok.mp h
    obtain ⟨read, hread, h⟩ := bind_eq_ok.mp h
    obtain ⟨data, rfl, htext, rfl⟩ := callOllama_eq_ok_iff.mp hcall
    obtain ⟨husage, hmodel⟩ := (conclude_readModel_iff py asJson repo).mp
      ⟨read, plan, hread, h, hoperations⟩
    exact ⟨data, text, rfl, htext, (nesting_usageOf_iff py asJson).mp husage, hmodel⟩
  · rintro ⟨data, text, rfl, htext, husage, hmodel⟩
    obtain ⟨read, plan, hread, h, hoperations⟩ := (conclude_readModel_iff py asJson repo).mpr
      ⟨(nesting_usageOf_iff py asJson).mpr husage, hmodel⟩
    exact ⟨plan, bind_eq_ok.mpr ⟨(text, usageOf data),
      callOllama_eq_ok_iff.mpr ⟨data, rfl, htext, rfl⟩, bind_eq_ok.mpr ⟨read, hread, h⟩⟩,
      hoperations⟩

/-- An answer without issues. -/
def quiet : PyJson := .obj [(.ofString "response", .str [])]

theorem harmless_quiet : Harmless py asJson repo quiet := by
  have hroom := py.room
  have hbool : asJson.toNat ≤ 1 := Bool.toNat_le asJson
  have hempty : parseJsonish py [] = .null := rfl
  refine ⟨_, [], rfl, rfl, fun key hkey => ?_, ?_⟩
  · have hnull : get [(.ofString "response", .str [])] key = .null := by
      simp only [usageFields, List.mem_cons, List.not_mem_nil, or_false] at hkey
      rcases hkey with rfl | rfl | rfl | rfl | rfl <;> rfl
    rw [hnull, nesting.eq_def]
    dsimp only
    omega
  · rw [hempty]
    refine ⟨.inl rfl, fun _ _ h => (nomatch h), fun _ h => (nomatch h), ?_,
      fun _ h => absurd h List.not_mem_nil, fun _ h => absurd h List.not_mem_nil, ?_⟩
    · show nesting .null + 1 + asJson.toNat ≤ py.indentDepth
      rw [nesting.eq_def]
      dsimp only
      omega
    · have hnone (id : String) : ¬ Hidden py [] id := fun ⟨_, h, _⟩ => nomatch h
      exact ⟨Or.imp (⟨·, hnone _⟩) (⟨·, hnone _⟩), fun _ => hnone _, fun _ => hnone _,
        fun _ _ ⟨_, h, _⟩ => (nomatch h), fun _ _ h => absurd h List.not_mem_nil⟩

/-- Two answers give the same operations, each justified by a check that fails. -/
def SameOperations (a b : PyJson) : Prop :=
  ∃ p q, auditRepo py asJson repo a = .ok p ∧ auditRepo py asJson repo b = .ok q ∧
    p.operations = q.operations ∧ ∀ op ∈ p.operations, Justified py repo op

theorem sameOperations_of_harmless {a b : PyJson} (ha : Harmless py asJson repo a)
    (hb : Harmless py asJson repo b) : SameOperations py asJson repo a b := by
  obtain ⟨p, hp, hp'⟩ := (auditRepo_iff py asJson repo a).mpr ha
  obtain ⟨q, hq, hq'⟩ := (auditRepo_iff py asJson repo b).mpr hb
  exact ⟨p, q, hp, hq, hp'.trans hq'.symm, fun op hop => justified py repo (hp' ▸ hop)⟩

theorem harmless_of_sameOperations {a : PyJson} (h : SameOperations py asJson repo a quiet) :
    Harmless py asJson repo a := by
  obtain ⟨p, q, hp, hq, hsame, -⟩ := h
  obtain ⟨r, hr, hr'⟩ := (auditRepo_iff py asJson repo quiet).mpr (harmless_quiet py asJson repo)
  obtain rfl := Except.ok.inj (hq.symm.trans hr)
  exact (auditRepo_iff py asJson repo a).mp ⟨p, hp, hsame.trans hr'⟩

/-- The answers that agree with the one without issues are the harmless ones, which agree with each
other. -/
theorem sameOperations_iff : (∀ a, SameOperations py asJson repo a quiet ↔
      Harmless py asJson repo a) ∧
    ∀ a b, Harmless py asJson repo a → Harmless py asJson repo b →
      SameOperations py asJson repo a b :=
  ⟨fun _ => ⟨harmless_of_sameOperations py asJson repo, fun h =>
      sameOperations_of_harmless py asJson repo h (harmless_quiet py asJson repo)⟩,
    fun _ _ => sameOperations_of_harmless py asJson repo⟩

end Replies

/-! ### An issue that the model has made up -/

section Invented

/-- A Python whose lower case is that of the markers below. -/
def samplePython : Python where
  interpreter := usualInterpreter
  lower := id
  format _ := "{...}"
  dumps _ := "{...}"
  reprDepth := 200
  dumpsDepth := 900
  indentDepth := 900
  room := by decide

/-- A repository in which no check fails. -/
def coveredRepo : Repo where
  files := []
  readme := "Konoha Beta v3.0.1 Ollama tools/beta_runtime"
  changelog := "v3.0.1 Ollama"
  roadmap := ""
  guides := ""

/-- A text of the model with an issue that no check reports. -/
def inventedText : PyStr := .ofString "\x7b\"inconsistencies\": [\x7b\"id\": \"typo\"\x7d]\x7d"

def inventedReply : PyJson := .obj [(.ofString "response", .str inventedText)]

theorem coveredRepo_clean : heuristicInconsistencies samplePython coveredRepo = [] := by
  have hnone : ∀ check ∈ heuristics samplePython coveredRepo, check.1 = false := by
    have hcovers : covers samplePython coveredRepo "readme_has_beta_runtime_status" = true ∧
        covers samplePython coveredRepo "readme_has_local_model_bootstrap" = true ∧
        covers samplePython coveredRepo "readme_has_beta_runtime_entrypoint" = true ∧
        covers samplePython coveredRepo "changelog_has_v3_0_1" = true := by decide +kernel
    obtain ⟨hstatus, hlocal, hbeta, hchangelog⟩ := hcovers
    unfold heuristics
    rw [hstatus, hlocal, hbeta, hchangelog]
    simp
  rw [heuristicInconsistencies, List.filter_eq_nil_iff.mpr]
  · rfl
  · intro check hcheck
    rw [hnone check hcheck]
    decide

/-- The issue of the reply. -/
def inventedIssue : PyDict := [(.ofString "id", .str (.ofString "typo"))]

/-- What the reply is read as. -/
def isInvented : PyJson → Bool
  | .obj [(key, .arr [.obj [(key', .str id)]])] =>
      key = .ofString "inconsistencies" ∧ key' = .ofString "id" ∧ id = .ofString "typo"
  | _ => false

theorem eq_of_isInvented {v : PyJson} (h : isInvented v = true) :
    v = .obj [(.ofString "inconsistencies", .arr [.obj inventedIssue])] := by
  unfold isInvented at h
  split at h
  · obtain ⟨rfl, rfl, rfl⟩ := of_decide_eq_true h
    rfl
  · cases h

theorem invented_read : isInvented (parseJsonish samplePython inventedText) = true := by
  decide +kernel

theorem invented_not_harmless : ¬ Harmless samplePython false coveredRepo inventedReply := by
  rintro ⟨data, text, hdata, htext, -, hmodel⟩
  obtain rfl := PyJson.obj.inj hdata
  obtain rfl : inventedText = text := PyJson.str.inj htext
  rw [eq_of_isInvented invented_read] at hmodel
  have hsuppressed := hmodel.operations.quiet coveredRepo_clean inventedIssue (.head _)
  have hnone : (suppression samplePython coveredRepo inventedIssue).isSome = false := by
    decide +kernel
  rw [hnone] at hsuppressed
  cases hsuppressed

/-- The issue adds an operation that no check justifies. -/
theorem invented_operation : ¬ ∀ (py : Python) (asJson : Bool) (repo : Repo) (a b : PyJson),
    SameOperations py asJson repo a b :=
  fun h => invented_not_harmless (harmless_of_sameOperations samplePython false coveredRepo
    (h samplePython false coveredRepo inventedReply quiet))

end Invented

end Konoha.LocalAudit
