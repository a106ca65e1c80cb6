/-
Planning/Manifest.lean

What a manifest of constraints has to be, and when `_validate_mission_constraints` says so.

* `Confirmed` is what an entry has to say so that it holds of the plan, and `WellFormed` what
  a manifest has to be.
* Three tests of membership, three readings of the plan, the comparison and the texts of five
  complaints raise for values that JSON can hold; `Trips` says for which entries.
* `constraints_validated_iff`: the manifest is judged as it should be, entry by entry,
  exactly when no entry trips.
-/
import KonohaRuntime.Planning.Constraints

namespace Konoha

namespace Planning

open Effects Json

/-! ### The entries of a manifest -/

/-- What a plan has in the place of a field. -/
inductive Has (plan : MissionPlan) : (index : Json) → (field : String) → Json → Prop
  | count : Has plan .null "assignment_count" (.int plan.assignments.length)
  | figure {kvs : List (String × Json)} {field : String} : plan.budget = .obj kvs →
      field ∈ ["maximum_total_tokens", "replanning_reserve_tokens"] →
      Has plan .null field (fieldOf kvs field)
  | dependencies {i : Nat} {a : AgentAssignment} {xs : List Json} :
      plan.assignments[i]? = some a → a.dependencies.iter = .ok xs →
      Has plan (.int i) "dependencies" (.arr xs)
  | ofAssignment {i : Nat} {a : AgentAssignment} {field : String} :
      plan.assignments[i]? = some a → field ∈ constraintAssignmentFields →
      field ≠ "dependencies" → Has plan (.int i) field (getattr a field)

/-- A value of the type of a field, and what it stands for in the plan: positions stand for
the ids of the assignments at them. -/
inductive Expects (plan : MissionPlan) : (field : String) → (value expected : Json) → Prop
  | integer {field : String} (n : Int) : field ∈ constraintAtMostFields →
      Expects plan field (.int n) (.int n)
  | boolean {field : String} (b : Bool) : field ∈ constraintBoolFields →
      Expects plan field (.bool b) (.bool b)
  | text {field : String} (s : String) : field ∈ constraintStrFields →
      Expects plan field (.str s) (.str s)
  | positions {is : List Nat} {targets : List AgentAssignment} :
      is.mapM (fun i => plan.assignments[i]?) = some targets →
      Expects plan "dependencies" (.arr (is.map fun i : Nat => .int i))
        (.arr (targets.map (·.taskId)))

/-- A comparison that holds; `at_most` is for integers. -/
inductive Holds : (operator : String) → (actual expected : Json) → Prop
  | equals {actual expected : Json} : pyEq actual expected = true →
      Holds "equals" actual expected
  | atMost {actual : Json} {x : Number} {n : Int} : Number.of? actual = some x →
      x.le (.rat n) = true → Holds "at_most" actual (.int n)

/-- A source text that is there, and in one of the texts that were given. -/
def Authorized (texts : Option (List String)) (source : Json) : Prop :=
  ∃ s, asNonEmpty source = some s ∧ ∀ given, texts = some given → ∃ t ∈ given, occursIn s t

/-- The id of an entry: an object with the seven keys, and an id that is not blank. -/
def idOf (raw : Json) : Option String := do
  let kvs ← asObject raw
  if hasKeys constraintExpectedKeys kvs then asNonBlank (fieldOf kvs "constraint_id") else none

/-- An entry that says something of the plan that holds. -/
def Confirmed (plan : MissionPlan) (texts : Option (List String)) (raw : Json) : Prop :=
  ∃ kvs field operator actual expected,
    raw = .obj kvs ∧ (idOf raw).isSome ∧ Authorized texts (fieldOf kvs "source_text") ∧
    field ∈ constraintFields ∧ fieldOf kvs "field" = .str field ∧
    fieldOf kvs "scope" = .str (scopeOf field) ∧ fieldOf kvs "operator" = .str operator ∧
    Has plan (fieldOf kvs "assignment_index") field actual ∧
    Expects plan field (fieldOf kvs "value") expected ∧ Holds operator actual expected

/-- An entry that is not confirmed, or has the id of an earlier one. -/
def Violated (plan : MissionPlan) (texts : Option (List String)) (earlier : List Json)
    (raw : Json) : Prop :=
  ¬ Confirmed plan texts raw ∨ ∃ other ∈ earlier, idOf other = idOf raw

/-- A list of entries that are confirmed, with ids that differ. -/
structure WellFormed (plan : MissionPlan) (texts : Option (List String))
    (entries : List Json) : Prop where
  confirmed : ∀ raw ∈ entries, Confirmed plan texts raw
  distinct : entries.Pairwise fun raw other => idOf raw ≠ idOf other

/-! ### Where the code raises -/

/-- A field in its scope, with an assignment index that fits. -/
structure Placed (plan : MissionPlan) (kvs : List (String × Json)) (field : String) : Prop where
  known : field ∈ constraintFields
  named : fieldOf kvs "field" = .str field
  inScope : fieldOf kvs "scope" = .str (scopeOf field)
  index : indexFits plan (scopeOf field) (fieldOf kvs "assignment_index") = true

/-- A field with an operator and a value that fit. -/
structure Typed (plan : MissionPlan) (kvs : List (String × Json)) (field operator : String)
    (expected : Json) : Prop where
  placed : Placed plan kvs field
  compared : fieldOf kvs "operator" = .str operator
  known : operator = "equals" ∨ operator = "at_most" ∧ field ∈ constraintAtMostFields
  value : Expects plan field (fieldOf kvs "value") expected

section Trips

variable (py : Stdlib) (room : Nat) (plan : MissionPlan)

/-- A value of which it cannot be told whether it is one of these names, or not be told that it is
not. -/
def Untestable (names : List String) (v : Json) : Prop :=
  v.hashable = false ∨ (∀ name ∈ names, v ≠ .str name) ∧ printable py room v = false

/-- The complaint that the plan has something else cannot be written. -/
def Unwritable (field : String) (index value actual : Json) : Prop :=
  (scopeOf field ≠ "plan" ∧ printable py room index = false) ∨ printable py room value = false ∨
    printable py room actual = false

/-- An entry that can neither be resolved nor be refused. -/
inductive Unresolvable (kvs : List (String × Json)) : Prop
  | scope : Untestable py room constraintScopes (fieldOf kvs "scope") → Unresolvable kvs
  | field {scope : String} : scope ∈ constraintScopes → fieldOf kvs "scope" = .str scope →
      Untestable py room constraintFields (fieldOf kvs "field") → Unresolvable kvs
  | index {field : String} : field ∈ constraintFields → fieldOf kvs "field" = .str field →
      fieldOf kvs "scope" = .str (scopeOf field) → scopeOf field ≠ "plan" →
      positionOf plan (fieldOf kvs "assignment_index") = none →
      printable py room (fieldOf kvs "assignment_index") = false → Unresolvable kvs
  | operator {field : String} : Placed plan kvs field →
      Untestable py room constraintOperators (fieldOf kvs "operator") → Unresolvable kvs

/-- The entries of the manifest for which a test, a reading, a comparison or a complaint raises. -/
inductive Trips (kvs : List (String × Json)) : Prop
  | unresolvable : Unresolvable py room plan kvs → Trips kvs
  | budget {field operator : String} {expected : Json} : Typed plan kvs field operator expected →
      field ∈ ["maximum_total_tokens", "replanning_reserve_tokens"] →
      (∀ lvs, plan.budget ≠ .obj lvs) → Trips kvs
  | dependencies {operator : String} {expected : Json} {a : AgentAssignment} :
      Typed plan kvs "dependencies" operator expected →
      positionOf plan (fieldOf kvs "assignment_index") = some a →
      (∀ xs, a.dependencies.iter ≠ .ok xs) → Trips kvs
  | bound {field : String} {expected actual : Json} : Typed plan kvs field "at_most" expected →
      Has plan (fieldOf kvs "assignment_index") field actual → Number.of? actual = none →
      Trips kvs
  | comparison {field : String} {expected actual : Json} : Typed plan kvs field "equals" expected →
      Has plan (fieldOf kvs "assignment_index") field actual →
      (∀ b, pyEqWithin room actual expected ≠ .ok b) → Trips kvs
  | mismatch {field operator : String} {expected actual : Json} :
      Typed plan kvs field operator expected →
      Has plan (fieldOf kvs "assignment_index") field actual → ¬ Holds operator actual expected →
      Unwritable py room field (fieldOf kvs "assignment_index") (fieldOf kvs "value") actual →
      Trips kvs

/-- An entry that is reached with an id of its own and a source text, and trips. -/
def TripsAfter (earlier : List Json) (raw : Json) : Prop :=
  ∃ kvs, raw = .obj kvs ∧ (idOf raw).isSome ∧ (∀ other ∈ earlier, idOf other ≠ idOf raw) ∧
    (asNonEmpty (fieldOf kvs "source_text")).isSome ∧ Trips py room plan kvs

end Trips

/-! ### What a complaint is about -/

/-- What an entry is called: its id, or its place in the manifest. -/
def nameOf (i : Nat) (raw : Json) : String :=
  (idOf raw).getD ("mission_constraints[" ++ toString i ++ "]")

/-- The stable prefixes of the complaints. -/
def complaintPrefixes : List String :=
  ["mission_constraint_invalid: ", "mission_constraint_source_not_authorized: ",
   "mission_constraint_mismatch: "]

/-- A complaint about this entry. -/
def About (i : Nat) (raw : Json) (problem : String) : Prop :=
  ∃ kind ∈ complaintPrefixes, ∃ text, problem = kind ++ nameOf i raw ++ text ∧
    (text = " no es un objeto." ∨ ∃ rest, text = ": " ++ rest)

/-! ### An entry by itself -/

theorem exists_error_bind {ε α β : Type} {x : Except ε α} {k : α → Except ε β} :
    (∃ e, (x >>= k) = .error e) ↔ (∃ e, x = .error e) ∨ ∃ a, x = .ok a ∧ ∃ e, k a = .error e := by
  cases x <;> simp [bind, Except.bind]

section Entry

variable {py : Stdlib} {room : Nat} {plan : MissionPlan} {seen : List String} {index : Nat}
  {raw : Json} {kvs : List (String × Json)} {id field : String} {value expected : Json}

theorem asObject_eq_some_iff : asObject raw = some kvs ↔ raw = .obj kvs := by
  cases raw <;> simp [asObject]

theorem identified_passed_iff :
    identified py seen index raw = .passed (kvs, id) ↔
      raw = .obj kvs ∧ idOf raw = some id ∧ id ∉ seen := by
  simp only [identified, idOf, Verdict.passed_bind_iff, Verdict.passed_demandSome_iff,
    Verdict.passed_demand_iff, Verdict.passed_pure_iff, asObject_eq_some_iff,
    Option.bind_eq_bind, Option.bind_eq_some_iff, Option.ite_none_right_eq_some, Prod.mk.injEq,
    Bool.not_eq_true', List.contains_eq_mem, decide_eq_false_iff_not]
  constructor
  · rintro ⟨_, rfl, -, hkeys, _, hid, -, hnew, rfl, rfl⟩
    exact ⟨rfl, ⟨_, rfl, hkeys, hid⟩, hnew⟩
  · rintro ⟨rfl, ⟨_, heq, hkeys, hid⟩, hnew⟩
    cases heq
    exact ⟨_, rfl, (), hkeys, _, hid, (), hnew, rfl, rfl⟩

theorem identified_not_raised (e : PyExc) : identified py seen index raw ≠ .raised e := by
  simp [identified]

theorem expectedValue_not_raised (e : PyExc) : expectedValue plan id field value ≠ .raised e := by
  unfold expectedValue
  split_ifs <;> simp

theorem isStrictInt_iff : isStrictInt value = true ↔ ∃ n, value = .int n := by
  cases value <;> simp [isStrictInt]

theorem isBool_iff : value.isBool = true ↔ ∃ b, value = .bool b := by
  cases value <;> simp [isBool]

theorem isStr_iff : value.isStr = true ↔ ∃ s, value = .str s := by
  cases value <;> simp [isStr]

theorem positionOf_eq_some_iff {a : AgentAssignment} :
    positionOf plan value = some a ↔ ∃ i : Nat, value = .int i ∧ plan.assignments[i]? = some a := by
  constructor
  · intro h
    cases value with
    | int i =>
        by_cases hi : i < 0
        · simp [positionOf, hi] at h
        · refine ⟨i.toNat, by rw [Int.toNat_of_nonneg (not_lt.mp hi)], ?_⟩
          simpa [positionOf, hi] using h
    | _ => simp [positionOf] at h
  · rintro ⟨i, rfl, h⟩
    simpa [positionOf] using h

theorem mapM_positionOf {xs : List Json} {targets : List AgentAssignment} :
    xs.mapM (positionOf plan) = some targets ↔
      ∃ is : List Nat, xs = is.map (fun i : Nat => .int i) ∧
        is.mapM (fun i => plan.assignments[i]?) = some targets := by
  induction xs generalizing targets with
  | nil =>
      constructor
      · intro h
        exact ⟨[], rfl, h⟩
      · rintro ⟨is, hxs, h⟩
        cases is with
        | nil => exact h
        | cons i is => cases hxs
  | cons x xs ih =>
      simp only [List.mapM_cons, Option.bind_eq_bind, Option.bind_eq_some_iff, Option.pure_def,
        Option.some.injEq, positionOf_eq_some_iff, ih]
      constructor
      · rintro ⟨a, ⟨i, rfl, hi⟩, rest, ⟨is, rfl, his⟩, rfl⟩
        exact ⟨i :: is, rfl, by simp [List.mapM_cons, hi, his]⟩
      · rintro ⟨is, hxs, h⟩
        cases is with
        | nil => cases hxs
        | cons i is =>
            obtain ⟨rfl, rfl⟩ := List.cons.inj hxs
            simp only [List.mapM_cons, Option.bind_eq_bind, Option.bind_eq_some_iff,
              Option.pure_def, Option.some.injEq] at h
            obtain ⟨a, ha, rest, hrest, rfl⟩ := h
            exact ⟨a, ⟨i, rfl, ha⟩, rest, ⟨is, rfl, hrest⟩, rfl⟩

theorem isPositions_of {is : List Nat} : isPositions (.arr (is.map fun i : Nat => .int i)) = true := by
  simp [isPositions, isStrictInt]

theorem eq_dependencies : ∀ field ∈ constraintFields, field ∉ constraintAtMostFields →
    field ∉ constraintBoolFields → field ∉ constraintStrFields → field = "dependencies" := by
  decide

theorem not_atMost_of_bool : ∀ field ∈ constraintBoolFields, field ∉ constraintAtMostFields := by
  decide

theorem not_figure_of_assignment : ∀ field ∈ constraintAssignmentFields,
    field ∉ ["maximum_total_tokens", "replanning_reserve_tokens"] := by
  decide

theorem not_plan_of_assignment : ∀ field ∈ constraintAssignmentFields,
    field ∉ constraintPlanFields := by
  decide

theorem not_of_str : ∀ field ∈ constraintStrFields,
    field ∉ constraintAtMostFields ∧ field ∉ constraintBoolFields := by
  decide

theorem expectedValue_passed_iff (hknown : field ∈ constraintFields) :
    expectedValue plan id field value = .passed expected ↔ Expects plan field value expected := by
  have hdep := eq_dependencies field hknown
  have hb := not_atMost_of_bool field
  have hs := not_of_str field
  constructor
  · intro h
    unfold expectedValue at h
    split_ifs at h with hint hbool hstr hlist
    · obtain ⟨_, hv, he⟩ := Verdict.passed_bind_iff.mp h
      obtain ⟨n, rfl⟩ := isStrictInt_iff.mp (Verdict.passed_demand_iff.mp hv)
      cases he
      exact .integer n hint
    · obtain ⟨_, hv, he⟩ := Verdict.passed_bind_iff.mp h
      obtain ⟨b, rfl⟩ := isBool_iff.mp (Verdict.passed_demand_iff.mp hv)
      cases he
      exact .boolean b hbool
    · obtain ⟨_, hv, he⟩ := Verdict.passed_bind_iff.mp h
      obtain ⟨s, rfl⟩ := isStr_iff.mp (Verdict.passed_demand_iff.mp hv)
      cases he
      exact .text s hstr
    · obtain ⟨_, hv, h⟩ := Verdict.passed_bind_iff.mp h
      obtain ⟨targets, ht, he⟩ := Verdict.passed_bind_iff.mp h
      cases he
      cases value with
      | arr xs =>
          obtain ⟨is, rfl, his⟩ := mapM_positionOf.mp (Verdict.passed_demandSome_iff.mp ht)
          rw [hdep hint hbool hstr]
          exact .positions his
      | _ => cases Verdict.passed_demandSome_iff.mp ht
  · intro h
    cases h with
    | integer n hf =>
        rw [expectedValue, if_pos hf]
        rfl
    | boolean b hf =>
        rw [expectedValue, if_neg (hb hf), if_pos hf]
        rfl
    | text s hf =>
        rw [expectedValue, if_neg (hs hf).1, if_neg (hs hf).2, if_pos hf]
        rfl
    | positions his =>
        have ht := mapM_positionOf.mpr ⟨_, rfl, his⟩
        rw [expectedValue, if_neg (by decide), if_neg (by decide), if_neg (by decide),
          if_pos (by decide)]
        simp [isPositions_of, assignmentsAt, ht]

theorem scopeOf_mem (field : String) : scopeOf field ∈ constraintScopes := by
  unfold scopeOf
  split_ifs
  · decide
  · decide

/-- The test of the operator, for a field that is known. -/
theorem operator_iff :
    (memberOf constraintOperators value = .ok true ∧
      (value ≠ .str "at_most" || field ∈ constraintAtMostFields) = true) ↔
      ∃ operator, value = .str operator ∧
        (operator = "equals" ∨ operator = "at_most" ∧ field ∈ constraintAtMostFields) := by
  rw [memberOf_eq_ok_iff]
  constructor
  · rintro ⟨⟨operator, hmem, rfl⟩, hfit⟩
    refine ⟨operator, rfl, ?_⟩
    simp only [constraintOperators, List.mem_cons, List.not_mem_nil, or_false] at hmem
    obtain rfl | rfl := hmem
    · exact .inl rfl
    · exact .inr ⟨rfl, by simpa using hfit⟩
  · rintro ⟨operator, rfl, rfl | ⟨rfl, hfit⟩⟩
    · exact ⟨⟨_, by decide, rfl⟩, by simp⟩
    · exact ⟨⟨_, by decide, rfl⟩, by simp [hfit]⟩

/-- The constraint that an entry is resolved to. -/
def constraintOf (kvs : List (String × Json)) (id source field operator : String)
    (expected : Json) : Constraint where
  constraintId := id
  sourceText := source
  scope := scopeOf field
  index := fieldOf kvs "assignment_index"
  field := field
  operator := operator
  value := fieldOf kvs "value"
  expected := expected

theorem resolveConstraint_passed_iff {c : Constraint} :
    resolveConstraint py room plan kvs id = .passed c ↔
      ∃ source field operator expected, asNonEmpty (fieldOf kvs "source_text") = some source ∧
        Typed plan kvs field operator expected ∧
        c = constraintOf kvs id source field operator expected := by
  simp only [resolveConstraint, Verdict.passed_bind_iff, Verdict.passed_demandSome_iff,
    Verdict.passed_demand_iff, Verdict.passed_demandTold_iff, Verdict.passed_demandOk_iff,
    Verdict.passed_pure_iff, decide_eq_true_eq]
  constructor
  · rintro ⟨source, hsource, -, hscope, -, hfield, -, hfits, -, hindex, -, hop, -, hat, expected,
      hexpected, rfl⟩
    obtain ⟨scope, hmem, hscope⟩ := memberOf_eq_ok_iff.mp hscope
    obtain ⟨field, hknown, hfield⟩ := memberOf_eq_ok_iff.mp hfield
    rw [hscope, hfield] at hfits
    rw [hfield] at hat hexpected
    obtain ⟨operator, hoperator, hop⟩ := operator_iff.mp ⟨hop, hat⟩
    change scopeOf field = scope at hfits
    subst hfits
    rw [hscope] at hindex
    refine ⟨source, field, operator, expected, hsource,
      ⟨⟨hknown, hfield, hscope, hindex⟩, hoperator, hop,
        (expectedValue_passed_iff hknown).mp hexpected⟩, ?_⟩
    rw [hscope, hfield, hoperator]
    rfl
  · rintro ⟨source, field, operator, expected, hsource, ⟨⟨hknown, hfield, hscope, hindex⟩,
      hoperator, hop, hvalue⟩, rfl⟩
    rw [hscope, hfield, hoperator]
    obtain ⟨hmem, hat⟩ := operator_iff.mpr ⟨operator, rfl, hop⟩
    exact ⟨source, hsource, (), memberOf_eq_ok_iff.mpr ⟨_, scopeOf_mem field, rfl⟩, (),
      memberOf_eq_ok_iff.mpr ⟨_, hknown, rfl⟩, (), rfl, (), hindex, (), hmem, (), hat, expected,
      (expectedValue_passed_iff hknown).mpr hvalue, rfl⟩

theorem toldOf_error_iff {before after : String} :
    (∃ e, toldOf py room id before value after = .error e) ↔ printable py room value = false := by
  rw [← reprWithin_error_iff, toldOf]
  cases reprWithin py room value <;> simp [Except.map]

theorem untestable_iff {names : List String} {before after : String} :
    (∃ e, memberOf names value = .error e ∨
      memberOf names value = .ok false ∧ toldOf py room id before value after = .error e) ↔
      Untestable py room names value := by
  rw [exists_or, exists_and_left, memberOf_error_iff, toldOf_error_iff, Untestable]
  by_cases hhash : value.hashable = false
  · simp [hhash]
  · refine or_congr_right (and_congr_left fun _ => ?_)
    cases value with
    | str s =>
        simp only [memberOf, Except.ok.injEq, decide_eq_false_iff_not, ne_eq, Json.str.injEq]
        exact ⟨fun h name hmem heq => h (heq ▸ hmem), fun h hmem => h s hmem rfl⟩
    | arr _ => exact absurd rfl hhash
    | obj _ => exact absurd rfl hhash
    | _ => simp [memberOf]

theorem indexFits_eq_false_iff {scope : String} (h : scope ≠ "plan") :
    indexFits plan scope value = false ↔ positionOf plan value = none := by
  rw [indexFits, if_neg h, Option.isSome_eq_false_iff, Option.isNone_iff_eq_none]

theorem resolveConstraint_raised_iff :
    (∃ e, resolveConstraint py room plan kvs id = .raised e) ↔
      (asNonEmpty (fieldOf kvs "source_text")).isSome ∧ Unresolvable py room plan kvs := by
  simp only [resolveConstraint, Verdict.raised_bind_iff, Verdict.raised_demandSome_iff,
    Verdict.raised_demand_iff, Verdict.raised_demandTold_iff, Verdict.raised_demandOk_iff,
    Verdict.raised_pure_iff, Verdict.passed_demandSome_iff, Verdict.passed_demand_iff,
    Verdict.passed_demandTold_iff, Verdict.passed_demandOk_iff, decide_eq_true_eq, false_or,
    and_false, exists_const, or_false, expectedValue_not_raised]
  constructor
  · rintro ⟨e, source, hsource, hscope | ⟨hscope, hfield | ⟨hfield, hfits, hrest⟩⟩⟩
    · exact ⟨by rw [hsource]; rfl, .scope (untestable_iff.mp ⟨e, hscope⟩)⟩
    · obtain ⟨scope, hmem, hscope⟩ := memberOf_eq_ok_iff.mp hscope
      exact ⟨by rw [hsource]; rfl, .field hmem hscope (untestable_iff.mp ⟨e, hfield⟩)⟩
    · obtain ⟨scope, hmem, hscope⟩ := memberOf_eq_ok_iff.mp hscope
      obtain ⟨field, hknown, hfield⟩ := memberOf_eq_ok_iff.mp hfield
      rw [hscope, hfield] at hfits
      change scopeOf field = scope at hfits
      subst hfits
      rw [hscope] at hrest
      refine ⟨by rw [hsource]; rfl, ?_⟩
      obtain ⟨hindex, htold⟩ | ⟨hindex, hop⟩ := hrest
      · have hplan : scopeOf field ≠ "plan" := by
          intro hplan
          rw [asText, if_pos hplan] at htold
          cases htold
        rw [asText, if_neg hplan] at htold
        exact .index hknown hfield hscope hplan ((indexFits_eq_false_iff hplan).mp hindex)
          (toldOf_error_iff.mp ⟨e, htold⟩)
      · exact .operator ⟨hknown, hfield, hscope, hindex⟩ (untestable_iff.mp ⟨e, hop⟩)
  · rintro ⟨hsource, h⟩
    obtain ⟨source, hsource⟩ := Option.isSome_iff_exists.mp hsource
    cases h with
    | scope h =>
        obtain ⟨e, he⟩ := untestable_iff.mpr h
        exact ⟨e, source, hsource, .inl he⟩
    | field hmem hscope h =>
        obtain ⟨e, he⟩ := untestable_iff.mpr h
        exact ⟨e, source, hsource,
          .inr ⟨memberOf_eq_ok_iff.mpr ⟨_, hmem, hscope⟩, .inl he⟩⟩
    | @index field hknown hfield hscope hplan hindex h =>
        obtain ⟨e, he⟩ := toldOf_error_iff.mpr h
        refine ⟨e, source, hsource, .inr ⟨memberOf_eq_ok_iff.mpr ⟨_, scopeOf_mem field, hscope⟩,
          .inr ⟨memberOf_eq_ok_iff.mpr ⟨field, hknown, hfield⟩, ?_, .inl ⟨?_, ?_⟩⟩⟩⟩
        · rw [hfield, hscope]
          rfl
        · rw [hscope]
          exact (indexFits_eq_false_iff hplan).mpr hindex
        · rw [hscope]
          exact (if_neg hplan).trans he
    | @operator field hplaced h =>
        obtain ⟨hknown, hfield, hscope, hindex⟩ := hplaced
        obtain ⟨e, he⟩ := untestable_iff.mpr h
        refine ⟨e, source, hsource, .inr ⟨memberOf_eq_ok_iff.mpr ⟨_, scopeOf_mem field, hscope⟩,
          .inr ⟨memberOf_eq_ok_iff.mpr ⟨field, hknown, hfield⟩, ?_, .inr ⟨?_, he⟩⟩⟩⟩
        · rw [hfield, hscope]
          rfl
        · rwa [hscope]

/-- A field of the plan stands without a position, one of an assignment with one. -/
theorem Placed.cases (h : Placed plan kvs field) :
    (scopeOf field = "plan" ∧ field ∈ constraintPlanFields ∧
        fieldOf kvs "assignment_index" = .null) ∨
      (scopeOf field ≠ "plan" ∧ field ∈ constraintAssignmentFields ∧
        ∃ (i : Nat) (a : AgentAssignment), fieldOf kvs "assignment_index" = .int i ∧
          plan.assignments[i]? = some a) := by
  have hindex := h.index
  by_cases hp : field ∈ constraintPlanFields
  · have hs : scopeOf field = "plan" := if_pos hp
    rw [hs, indexFits, if_pos rfl, decide_eq_true_eq] at hindex
    exact .inl ⟨hs, hp, hindex⟩
  · have hs : scopeOf field = "assignment" := if_neg hp
    rw [hs, indexFits, if_neg (by decide)] at hindex
    obtain ⟨a, ha⟩ := Option.isSome_iff_exists.mp hindex
    obtain ⟨i, hi, ha⟩ := positionOf_eq_some_iff.mp ha
    have hknown := (List.mem_append.mp h.known).resolve_left hp
    refine .inr ⟨?_, hknown, i, a, hi, ha⟩
    rw [hs]
    decide

theorem actualValue_eq_ok_iff {actual : Json} (h : Placed plan kvs field) :
    actualValue plan (scopeOf field) (fieldOf kvs "assignment_index") field = .ok actual ↔
      Has plan (fieldOf kvs "assignment_index") field actual := by
  obtain ⟨hs, hp, hi⟩ | ⟨hs, hp, i, a, hi, ha⟩ := h.cases
  · rw [hi, actualValue, if_pos hs]
    constructor
    · intro hactual
      split_ifs at hactual with hcount
      · cases hactual
        rw [hcount]
        exact .count
      · have hf := (List.mem_cons.mp hp).resolve_left hcount
        cases hb : plan.budget with
        | obj lvs =>
            rw [hb] at hactual
            cases hactual
            exact .figure hb hf
        | _ =>
            rw [hb] at hactual
            cases hactual
    · intro hactual
      cases hactual with
      | count => rfl
      | figure hb hf =>
          rw [if_neg, hb]
          · rfl
          · rintro rfl
            revert hf
            decide
  · have hpos : positionOf plan (.int i) = some a := positionOf_eq_some_iff.mpr ⟨i, rfl, ha⟩
    rw [hi, actualValue, if_neg hs, hpos]
    constructor
    · intro hactual
      change (if field = "dependencies" then a.dependencies.iter.map Json.arr else _) = _ at hactual
      split_ifs at hactual with hdep
      · cases hxs : a.dependencies.iter with
        | ok xs =>
            rw [hxs] at hactual
            cases hactual
            rw [hdep]
            exact .dependencies ha hxs
        | error e =>
            rw [hxs] at hactual
            cases hactual
      · cases hactual
        exact .ofAssignment ha hp hdep
    · intro hactual
      generalize hindex : Json.int i = index at hactual
      cases hactual with
      | count => cases hindex
      | figure _ _ => cases hindex
      | dependencies ha' hxs =>
          cases hindex
          cases ha.symm.trans ha'
          change a.dependencies.iter.map Json.arr = _
          rw [hxs]
          rfl
      | ofAssignment ha' _ hdep =>
          cases hindex
          cases ha.symm.trans ha'
          exact if_neg hdep

theorem actualValue_error_iff (h : Placed plan kvs field) :
    (∃ e, actualValue plan (scopeOf field) (fieldOf kvs "assignment_index") field = .error e) ↔
      (field ∈ ["maximum_total_tokens", "replanning_reserve_tokens"] ∧
        ∀ lvs, plan.budget ≠ .obj lvs) ∨
      field = "dependencies" ∧ ∃ a, positionOf plan (fieldOf kvs "assignment_index") = some a ∧
        ∀ xs, a.dependencies.iter ≠ .ok xs := by
  obtain ⟨hs, hp, hi⟩ | ⟨hs, hp, i, a, hi, ha⟩ := h.cases
  · rw [hi, actualValue, if_pos hs]
    constructor
    · rintro ⟨e, he⟩
      split_ifs at he with hcount
      refine .inl ⟨(List.mem_cons.mp hp).resolve_left hcount, ?_⟩
      rintro lvs hb
      rw [hb] at he
      cases he
    · rintro (⟨hf, hb⟩ | ⟨-, a, ha, -⟩)
      · rw [if_neg]
        · cases hbudget : plan.budget with
          | obj lvs => exact absurd hbudget (hb lvs)
          | _ => exact ⟨_, rfl⟩
        · rintro rfl
          revert hf
          decide
      · cases ha
  · have hpos : positionOf plan (.int i) = some a := positionOf_eq_some_iff.mpr ⟨i, rfl, ha⟩
    rw [hi, actualValue, if_neg hs, hpos]
    change (∃ e, (if field = "dependencies" then a.dependencies.iter.map Json.arr else _) = _) ↔ _
    constructor
    · rintro ⟨e, he⟩
      split_ifs at he with hdep
      refine .inr ⟨hdep, a, rfl, ?_⟩
      intro xs hxs
      rw [hxs] at he
      cases he
    · rintro (⟨hf, -⟩ | ⟨hdep, b, hb, hxs⟩)
      · exact absurd hf (not_figure_of_assignment _ hp)
      · cases hb
        rw [if_pos hdep]
        cases hiter : a.dependencies.iter with
        | ok xs => exact absurd hiter (hxs xs)
        | error e => exact ⟨e, rfl⟩

theorem Typed.integer (h : Typed plan kvs field "at_most" expected) : ∃ n, expected = .int n := by
  have hfield := h.known.resolve_left (by decide)
  have hvalue := h.value
  generalize fieldOf kvs "value" = value at hvalue
  cases hvalue with
  | integer n _ => exact ⟨n, rfl⟩
  | boolean b hb => exact absurd hfield.2 (not_atMost_of_bool _ hb)
  | text s hs => exact absurd hfield.2 (not_of_str _ hs).1
  | positions _ => exact absurd hfield.2 (by decide)

theorem holds_equals_iff {actual : Json} :
    Holds "equals" actual expected ↔ pyEq actual expected = true := by
  constructor
  · intro h
    generalize hop : "equals" = operator at h
    cases h with
    | equals heq => exact heq
    | atMost _ _ => exact absurd hop (by decide)
  · exact .equals

theorem holds_atMost_iff {actual : Json} {n : Int} :
    Holds "at_most" actual (.int n) ↔
      ∃ x, Number.of? actual = some x ∧ x.le (.rat n) = true := by
  constructor
  · intro h
    generalize hop : "at_most" = operator at h
    cases h with
    | equals _ => exact absurd hop (by decide)
    | atMost hx hle => exact ⟨_, hx, hle⟩
  · rintro ⟨x, hx, hle⟩
    exact .atMost hx hle

theorem compares_eq_ok {operator : String} {actual : Json} {b : Bool}
    (h : Typed plan kvs field operator expected)
    (hok : compares room operator actual expected = .ok b) :
    b = true ↔ Holds operator actual expected := by
  obtain rfl | ⟨rfl, -⟩ := h.known
  · rw [holds_equals_iff, pyEq_of_within hok]
  · obtain ⟨n, rfl⟩ := h.integer
    rw [holds_atMost_iff]
    change pyAtMost actual n = _ at hok
    unfold pyAtMost at hok
    cases hx : Number.of? actual with
    | none =>
        rw [hx] at hok
        cases hok
    | some x =>
        rw [hx] at hok
        cases hok
        simp

theorem compares_error_iff {operator : String} {actual : Json}
    (h : Typed plan kvs field operator expected) :
    (∃ e, compares room operator actual expected = .error e) ↔
      (operator = "at_most" ∧ Number.of? actual = none) ∨
        operator = "equals" ∧ ∀ b, pyEqWithin room actual expected ≠ .ok b := by
  obtain rfl | ⟨rfl, -⟩ := h.known
  · change (∃ e, pyEqWithin room actual expected = .error e) ↔ _
    cases pyEqWithin room actual expected <;> simp
  · obtain ⟨n, rfl⟩ := h.integer
    change (∃ e, pyAtMost actual n = .error e) ↔ _
    rw [pyAtMost_error_iff]
    simp

variable {texts : Option (List String)} {source operator : String}

theorem mismatchOf_error_iff {actual : Json} :
    (∃ e, mismatchOf py room (constraintOf kvs id source field operator expected) actual =
        .error e) ↔
      Unwritable py room field (fieldOf kvs "assignment_index") (fieldOf kvs "value") actual := by
  have htarget : (∃ e, targetOf py room (constraintOf kvs id source field operator expected) =
      .error e) ↔ scopeOf field ≠ "plan" ∧ printable py room (fieldOf kvs "assignment_index") = false := by
    unfold targetOf
    by_cases hplan : scopeOf field = "plan"
    · simp [constraintOf, hplan]
    · rw [← reprWithin_error_iff, if_neg (by exact hplan), and_iff_right hplan]
      show (∃ e, (reprWithin py room (fieldOf kvs "assignment_index")).map _ = .error e) ↔ _
      cases reprWithin py room (fieldOf kvs "assignment_index") <;> simp [Except.map]
  rw [Unwritable, ← htarget, ← reprWithin_error_iff, ← reprWithin_error_iff]
  unfold mismatchOf
  show (∃ e, (targetOf py room (constraintOf kvs id source field operator expected) >>= fun target =>
    reprWithin py room (fieldOf kvs "value") >>= fun value =>
      reprWithin py room actual >>= fun actual => _) = .error e) ↔ _
  cases targetOf py room (constraintOf kvs id source field operator expected) <;>
    cases reprWithin py room (fieldOf kvs "value") <;> cases reprWithin py room actual <;>
    simp [bind, Except.bind, pure, Except.pure]

theorem mismatches_error_iff {c : Constraint} {actual : Json} {holds : Bool} :
    (∃ e, mismatches py room c actual holds = .error e) ↔
      holds = false ∧ ∃ e, mismatchOf py room c actual = .error e := by
  unfold mismatches
  cases holds with
  | true => simp
  | false => cases mismatchOf py room c actual <;> simp [Except.map]

/-- What of the reading of the plan, the comparison and the complaint raises. -/
theorem judgeConstraint_error_iff (h : Typed plan kvs field operator expected) :
    (∃ e, judgeConstraint py room plan texts (constraintOf kvs id source field operator expected) =
        .error e) ↔
      (∃ e, actualValue plan (scopeOf field) (fieldOf kvs "assignment_index") field = .error e) ∨
        ∃ actual, Has plan (fieldOf kvs "assignment_index") field actual ∧
          ((∃ e, compares room operator actual expected = .error e) ∨
            ¬ Holds operator actual expected ∧
              Unwritable py room field (fieldOf kvs "assignment_index") (fieldOf kvs "value")
                actual) := by
  unfold judgeConstraint
  rw [exists_error_bind]
  refine or_congr_right (exists_congr fun actual => ?_)
  show actualValue plan (scopeOf field) (fieldOf kvs "assignment_index") field = .ok actual ∧ _ ↔ _
  rw [actualValue_eq_ok_iff h.placed, exists_error_bind]
  refine and_congr_right fun _ => ?_
  show (∃ e, compares room operator actual expected = .error e) ∨
    (∃ holds, compares room operator actual expected = .ok holds ∧ _) ↔ _
  cases hcompared : compares room operator actual expected with
  | error e => exact iff_of_true (.inl ⟨e, rfl⟩) (.inl ⟨e, rfl⟩)
  | ok holds =>
      have hmismatch := @mismatchOf_error_iff py room kvs id field expected source operator actual
      rw [← compares_eq_ok h hcompared, ← hmismatch, Bool.not_eq_true, ← mismatches_error_iff]
      refine or_congr_right ?_
      constructor
      · rintro ⟨_, hholds, hraised⟩
        obtain rfl := Except.ok.inj hholds
        refine (exists_error_bind.mp hraised).resolve_right ?_
        rintro ⟨_, -, _, hreturned⟩
        cases hreturned
      · exact fun hraised => ⟨holds, rfl, exists_error_bind.mpr (.inl hraised)⟩

theorem judgeConstraint_eq_ok {problems : List String}
    (h : Typed plan kvs field operator expected)
    (hok : judgeConstraint py room plan texts (constraintOf kvs id source field operator expected) =
      .ok problems) :
    problems = [] ↔
      (∀ given, texts = some given → ∃ t ∈ given, occursIn source t = true) ∧
        ∃ actual, Has plan (fieldOf kvs "assignment_index") field actual ∧
          Holds operator actual expected := by
  obtain ⟨actual, hactual, hok⟩ := bind_eq_ok.mp hok
  obtain ⟨holds, hcompared, hok⟩ := bind_eq_ok.mp hok
  obtain ⟨mismatch, hmismatch, hok⟩ := bind_eq_ok.mp hok
  change actualValue plan (scopeOf field) (fieldOf kvs "assignment_index") field = _ at hactual
  change compares room operator actual expected = _ at hcompared
  have hmatch : holds = true ↔ ∃ actual, Has plan (fieldOf kvs "assignment_index") field actual ∧
      Holds operator actual expected := by
    rw [compares_eq_ok h hcompared]
    constructor
    · exact fun hholds => ⟨actual, (actualValue_eq_ok_iff h.placed).mp hactual, hholds⟩
    · rintro ⟨other, hother, hholds⟩
      have hother := (actualValue_eq_ok_iff h.placed).mpr hother
      rwa [Except.ok.inj (hactual.symm.trans hother)]
  have hempty : mismatch = [] ↔ holds = true := by
    cases holds with
    | true =>
        cases hmismatch
        exact iff_of_true rfl rfl
    | false =>
        cases hwritten : mismatchOf py room (constraintOf kvs id source field operator expected)
            actual with
        | error e =>
            rw [mismatches, if_neg (by decide), hwritten] at hmismatch
            cases hmismatch
        | ok text =>
            rw [mismatches, if_neg (by decide), hwritten] at hmismatch
            cases hmismatch
            exact iff_of_false (List.cons_ne_nil _ _) (by decide)
  rw [← hmatch, ← hempty, ← Except.ok.inj hok, List.append_eq_nil_iff]
  refine and_congr_left fun _ => ?_
  cases texts with
  | none => simp
  | some given => simp [constraintOf]

theorem Expects.unique {other : Json} (hknown : field ∈ constraintFields)
    (h : Expects plan field value expected) (hother : Expects plan field value other) :
    expected = other := by
  have h : expectedValue plan "" field value = .passed expected :=
    (expectedValue_passed_iff hknown).mpr h
  have hother : expectedValue plan "" field value = .passed other :=
    (expectedValue_passed_iff hknown).mpr hother
  exact Verdict.passed.inj (h.symm.trans hother)

theorem Has.indexFits {index actual : Json} (h : Has plan index field actual) :
    indexFits plan (scopeOf field) index = true := by
  cases h with
  | count => rfl
  | figure _ hf =>
      have hp : field ∈ constraintPlanFields := List.mem_cons_of_mem _ hf
      rw [scopeOf, if_pos hp]
      rfl
  | dependencies ha _ =>
      exact Option.isSome_of_eq_some (positionOf_eq_some_iff.mpr ⟨_, rfl, ha⟩)
  | ofAssignment ha hf _ =>
      rw [scopeOf, if_neg (not_plan_of_assignment _ hf)]
      exact Option.isSome_of_eq_some (positionOf_eq_some_iff.mpr ⟨_, rfl, ha⟩)

theorem Holds.known {actual : Json} (h : Holds operator actual expected)
    (hvalue : Expects plan field value expected) :
    operator = "equals" ∨ operator = "at_most" ∧ field ∈ constraintAtMostFields := by
  cases h with
  | equals _ => exact .inl rfl
  | atMost _ _ =>
      cases hvalue with
      | integer n hf => exact .inr ⟨rfl, hf⟩

/-! ### One round of the loop -/

/-- What trips is what cannot be resolved, or raises when it is judged. -/
theorem trips_iff (texts : Option (List String)) (id source : String) :
    Trips py room plan kvs ↔ Unresolvable py room plan kvs ∨
      ∃ field operator expected, Typed plan kvs field operator expected ∧
        ∃ e, judgeConstraint py room plan texts
          (constraintOf kvs id source field operator expected) = .error e := by
  constructor
  · intro htrips
    cases htrips with
    | unresolvable h => exact .inl h
    | budget ht hf hb =>
        have hread := (actualValue_error_iff ht.placed).mpr (.inl ⟨hf, hb⟩)
        exact .inr ⟨_, _, _, ht, (judgeConstraint_error_iff ht).mpr (.inl hread)⟩
    | dependencies ht ha hxs =>
        have hread := (actualValue_error_iff ht.placed).mpr (.inr ⟨rfl, _, ha, hxs⟩)
        exact .inr ⟨_, _, _, ht, (judgeConstraint_error_iff ht).mpr (.inl hread)⟩
    | bound ht hactual hnone =>
        have hcompare : ∃ e, compares room "at_most" _ _ = .error e :=
          (compares_error_iff ht).mpr (.inl ⟨rfl, hnone⟩)
        exact .inr ⟨_, _, _, ht, (judgeConstraint_error_iff ht).mpr (.inr ⟨_, hactual, .inl hcompare⟩)⟩
    | comparison ht hactual hdeep =>
        have hcompare : ∃ e, compares room "equals" _ _ = .error e :=
          (compares_error_iff ht).mpr (.inr ⟨rfl, hdeep⟩)
        exact .inr ⟨_, _, _, ht, (judgeConstraint_error_iff ht).mpr (.inr ⟨_, hactual, .inl hcompare⟩)⟩
    | mismatch ht hactual hnot h =>
        exact .inr ⟨_, _, _, ht, (judgeConstraint_error_iff ht).mpr (.inr ⟨_, hactual, .inr ⟨hnot, h⟩⟩)⟩
  · rintro (h | ⟨field, operator, expected, ht, he⟩)
    · exact .unresolvable h
    obtain h | ⟨actual, hactual, h⟩ := (judgeConstraint_error_iff ht).mp he
    · -- the plan cannot be read at that field
      obtain ⟨hf, hb⟩ | ⟨rfl, a, ha, hxs⟩ := (actualValue_error_iff ht.placed).mp h
      · exact .budget ht hf hb
      · exact .dependencies ht ha hxs
    · obtain h | ⟨hnot, h⟩ := h
      · obtain ⟨rfl, hnone⟩ | ⟨rfl, hdeep⟩ := (compares_error_iff ht).mp h
        · exact .bound ht hactual hnone
        · exact .comparison ht hactual hdeep
      · exact .mismatch ht hactual hnot h

theorem checkConstraint_error_iff :
    (∃ e, checkConstraint py room plan texts seen index raw = .error e) ↔
      ∃ kvs id, raw = .obj kvs ∧ idOf raw = some id ∧ id ∉ seen ∧
        (asNonEmpty (fieldOf kvs "source_text")).isSome ∧ Trips py room plan kvs := by
  constructor
  · rintro ⟨e, he⟩
    unfold checkConstraint at he
    split at he
    · next hid => exact absurd hid (identified_not_raised _)
    · cases he
    · next kvs id hid =>
        obtain ⟨rfl, hid, hnew⟩ := identified_passed_iff.mp hid
        refine ⟨kvs, id, rfl, hid, hnew, ?_⟩
        split at he
        · next hres =>
            obtain ⟨hsource, h⟩ := resolveConstraint_raised_iff.mp ⟨_, hres⟩
            exact ⟨hsource, .unresolvable h⟩
        · cases he
        · next c hres =>
            obtain ⟨source, field, operator, expected, hsource, ht, rfl⟩ :=
              resolveConstraint_passed_iff.mp hres
            refine ⟨by rw [hsource]; rfl,
              (trips_iff texts id source).mpr (.inr ⟨_, _, _, ht, ?_⟩)⟩
            cases hjudge : judgeConstraint py room plan texts
                (constraintOf kvs id source field operator expected) with
            | ok problems =>
                rw [hjudge] at he
                cases he
            | error e' => exact ⟨e', rfl⟩
  · rintro ⟨kvs, id, rfl, hid, hnew, hsource, htrips⟩
    have hident : identified py seen index (.obj kvs) = .passed (kvs, id) :=
      identified_passed_iff.mpr ⟨rfl, hid, hnew⟩
    obtain ⟨source, hfound⟩ := Option.isSome_iff_exists.mp hsource
    rcases (trips_iff texts id source).mp htrips with h | ⟨field, operator, expected, ht, e, he⟩
    · obtain ⟨e, he⟩ : ∃ e, resolveConstraint py room plan kvs id = .raised e :=
        resolveConstraint_raised_iff.mpr ⟨hsource, h⟩
      exact ⟨e, by simp only [checkConstraint, hident, he]⟩
    · have hres : resolveConstraint py room plan kvs id = .passed _ :=
        resolveConstraint_passed_iff.mpr ⟨source, field, operator, expected, hfound, ht, rfl⟩
      refine ⟨e, ?_⟩
      simp only [checkConstraint, hident, hres, he]
      rfl

theorem Confirmed.typed (h : Confirmed plan texts (.obj kvs)) :
    Authorized texts (fieldOf kvs "source_text") ∧ ∃ field operator expected actual,
      Typed plan kvs field operator expected ∧
      Has plan (fieldOf kvs "assignment_index") field actual ∧ Holds operator actual expected := by
  obtain ⟨_, field, operator, actual, expected, hraw, -, hsource, hknown, hfield, hscope, hop,
    hhas, hvalue, hholds⟩ := h
  cases hraw
  exact ⟨hsource, field, operator, expected, actual,
    ⟨⟨hknown, hfield, hscope, hhas.indexFits⟩, hop, hholds.known hvalue, hvalue⟩, hhas, hholds⟩

theorem obj_of_idOf (h : idOf raw = some id) : ∃ kvs, raw = .obj kvs := by
  obtain ⟨kvs, hkvs, -⟩ := Option.bind_eq_some_iff.mp h
  exact ⟨kvs, asObject_eq_some_iff.mp hkvs⟩

theorem checkConstraint_eq_ok {problems after : List String}
    (hok : checkConstraint py room plan texts seen index raw = .ok (problems, after)) :
    (problems = [] ↔ Confirmed plan texts raw ∧ ∀ id, idOf raw = some id → id ∉ seen) ∧
      ∀ id, id ∈ after ↔ id ∈ seen ∨ idOf raw = some id := by
  unfold checkConstraint at hok
  split at hok
  · cases hok
  · next p hid =>
      -- refused before an id is noted: it has none, or one that is in use
      cases hok
      have hold (id : String) (h : idOf raw = some id) : id ∈ seen := by
        by_contra hnew
        obtain ⟨kvs, rfl⟩ := obj_of_idOf h
        cases hid.symm.trans (identified_passed_iff.mpr ⟨rfl, h, hnew⟩)
      constructor
      · constructor
        · intro h
          cases h
        · rintro ⟨hconf, hnew⟩
          obtain ⟨kvs, -, -, -, -, rfl, hsome, -⟩ := hconf
          obtain ⟨id, hid⟩ := Option.isSome_iff_exists.mp hsome
          exact absurd (hold id hid) (hnew id hid)
      · intro id
        exact ⟨.inl, fun h => h.elim (fun h => h) (hold id)⟩
  · next kvs id hid =>
      obtain ⟨rfl, hid, hnew⟩ := identified_passed_iff.mp hid
      have hafter (other : String) : other ∈ id :: seen ↔
          other ∈ seen ∨ idOf (.obj kvs) = some other := by
        rw [hid, List.mem_cons, or_comm, Option.some.injEq, eq_comm]
      have hfresh : ∀ other, idOf (.obj kvs) = some other → other ∉ seen := by
        intro other hother
        cases hid.symm.trans hother
        exact hnew
      rw [and_iff_left hfresh]
      split at hok
      · cases hok
      · next p hres =>
          -- refused for its fields
          cases hok
          refine ⟨?_, hafter⟩
          constructor
          · intro h
            cases h
          · intro hconf
            obtain ⟨⟨source, hsource, -⟩, field, operator, expected, actual, ht, -⟩ := hconf.typed
            cases hres.symm.trans (resolveConstraint_passed_iff.mpr
              ⟨source, field, operator, expected, hsource, ht, rfl⟩)
      · next c hres =>
          obtain ⟨source, field, operator, expected, hsource, ht, rfl⟩ :=
            resolveConstraint_passed_iff.mp hres
          cases hjudge : judgeConstraint py room plan texts
              (constraintOf kvs id source field operator expected) with
          | error e =>
              rw [hjudge] at hok
              cases hok
          | ok own =>
              rw [hjudge] at hok
              cases hok
              refine ⟨(judgeConstraint_eq_ok ht hjudge).trans ?_, hafter⟩
              constructor
              · rintro ⟨hauth, actual, hhas, hholds⟩
                exact ⟨kvs, field, operator, actual, expected, rfl, by rw [hid]; rfl,
                  ⟨source, hsource, hauth⟩, ht.placed.known, ht.placed.named,
                  ht.placed.inScope, ht.compared, hhas, ht.value, hholds⟩
              · intro hconf
                obtain ⟨⟨source', hsource', hauth⟩, field', operator', expected', actual, ht',
                  hhas, hholds⟩ := hconf.typed
                cases hsource.symm.trans hsource'
                cases ht.placed.named.symm.trans ht'.placed.named
                cases ht.compared.symm.trans ht'.compared
                cases ht.value.unique ht.placed.known ht'.value
                exact ⟨hauth, actual, hhas, hholds⟩

/-! ### What the complaints are about -/

theorem about_kind {kind : String} (hkind : kind ∈ complaintPrefixes) (hid : nameOf index raw = id)
    (rest : String) : About index raw (kind ++ id ++ (": " ++ rest)) :=
  ⟨kind, hkind, ": " ++ rest, by rw [hid], .inr ⟨rest, rfl⟩⟩

theorem about_invalid {name text : String} (hname : nameOf index raw = name)
    (htext : text = " no es un objeto." ∨ ∃ rest, text = ": " ++ rest) :
    About index raw (invalidConstraint name text) :=
  ⟨"mission_constraint_invalid: ", by decide, text,
    congrArg (fun name => invalidConstraint name text) hname.symm, htext⟩

theorem refuses_identified :
    Verdict.Refuses (About index raw) (identified py seen index raw) := by
  unfold identified
  dsimp only
  have hlabel (h : idOf raw = none) :
      nameOf index raw = "mission_constraints[" ++ toString index ++ "]" := by
    rw [nameOf, h]
    rfl
  cases hkvs : asObject raw with
  | none =>
      have hnone : idOf raw = none := by simp [idOf, hkvs]
      refine .bind (Verdict.refuses_demandSome (about_invalid (hlabel hnone) (.inl rfl))) ?_
      intro kvs hpassed
      cases hpassed
  | some kvs =>
      refine .bind (fun p hp => absurd hp (by simp [Verdict.demandSome])) ?_
      intro kvs' hpassed
      obtain rfl : kvs = kvs' := Verdict.passed.inj hpassed
      by_cases hkeys : hasKeys constraintExpectedKeys kvs = true
      · refine .bind (fun p hp => absurd hp (by simp [Verdict.demand, hkeys])) fun _ _ => ?_
        cases hid : asNonBlank (fieldOf kvs "constraint_id") with
        | none =>
            have hnone : idOf raw = none := by simp [idOf, hkvs, hkeys, hid]
            refine .bind (Verdict.refuses_demandSome
              (about_invalid (hlabel hnone) (.inr ⟨_, rfl⟩))) ?_
            intro id hpassed
            cases hpassed
        | some id =>
            have hsome : idOf raw = some id := by simp [idOf, hkvs, hkeys, hid]
            refine .bind (fun p hp => absurd hp (by simp [Verdict.demandSome])) ?_
            intro id' hpassed
            obtain rfl : id = id' := Verdict.passed.inj hpassed
            exact .bind (Verdict.refuses_demand (about_invalid (by rw [nameOf, hsome]; rfl)
              (.inr ⟨_, rfl⟩))) fun _ _ => .of_pure _
      · have hnone : idOf raw = none := by simp [idOf, hkvs, hkeys]
        refine .bind (Verdict.refuses_demand (about_invalid (hlabel hnone) (.inr ⟨_, rfl⟩))) ?_
        intro _ hpassed
        exact absurd (Verdict.passed_demand_iff.mp hpassed) hkeys

theorem about_told (hid : nameOf index raw = id) {before after p : String}
    (h : toldOf py room id before value after = .ok p) : About index raw p := by
  unfold toldOf at h
  cases hshown : reprWithin py room value with
  | error e =>
      rw [hshown] at h
      cases h
  | ok shown =>
      rw [hshown] at h
      cases h
      exact about_invalid hid (.inr ⟨_, rfl⟩)

theorem refuses_expectedValue (hid : nameOf index raw = id) :
    Verdict.Refuses (About index raw) (expectedValue plan id field value) := by
  have hinvalid (text : String) : About index raw (invalidConstraint id (": " ++ text)) :=
    about_invalid hid (.inr ⟨text, rfl⟩)
  unfold expectedValue
  dsimp only
  split_ifs
  · exact .bind (Verdict.refuses_demand (hinvalid _)) fun _ _ => .of_pure _
  · exact .bind (Verdict.refuses_demand (hinvalid _)) fun _ _ => .of_pure _
  · exact .bind (Verdict.refuses_demand (hinvalid _)) fun _ _ => .of_pure _
  · exact .bind (Verdict.refuses_demand (hinvalid _)) fun _ _ =>
      .bind (Verdict.refuses_demandSome (hinvalid _)) fun _ _ => .of_pure _
  · intro p hp
    cases hp
    exact hinvalid _

theorem refuses_resolveConstraint (hid : nameOf index raw = id) :
    Verdict.Refuses (About index raw) (resolveConstraint py room plan kvs id) := by
  have hinvalid (text : String) : About index raw (invalidConstraint id (": " ++ text)) :=
    about_invalid hid (.inr ⟨text, rfl⟩)
  have htold {before after : String} {value : Json} (p : String)
      (h : toldOf py room id before value after = .ok p) : About index raw p := about_told hid h
  unfold resolveConstraint
  dsimp only
  refine .bind (Verdict.refuses_demandSome (hinvalid _)) fun _ _ => ?_
  refine .bind (Verdict.refuses_demandOk htold) fun _ _ => ?_
  refine .bind (Verdict.refuses_demandOk htold) fun _ _ => ?_
  refine .bind (Verdict.refuses_demand (hinvalid _)) fun _ _ => ?_
  refine .bind (Verdict.refuses_demandTold fun p hp => ?_) fun _ _ => ?_
  · split_ifs at hp
    · cases hp
      exact hinvalid _
    · exact htold p hp
  refine .bind (Verdict.refuses_demandOk htold) fun _ _ => ?_
  refine .bind (Verdict.refuses_demand (hinvalid _)) fun _ _ => ?_
  exact .bind (refuses_expectedValue hid) fun _ _ => .of_pure _

theorem about_judged {c : Constraint} (hid : nameOf index raw = c.constraintId)
    {problems : List String} (hok : judgeConstraint py room plan texts c = .ok problems) :
    ∀ p ∈ problems, About index raw p := by
  obtain ⟨actual, -, hok⟩ := bind_eq_ok.mp hok
  obtain ⟨holds, -, hok⟩ := bind_eq_ok.mp hok
  obtain ⟨mismatch, hmismatch, hok⟩ := bind_eq_ok.mp hok
  obtain rfl := Except.ok.inj hok
  intro p hp
  obtain hp | hp := List.mem_append.mp hp
  · split_ifs at hp
    · rw [List.mem_singleton.mp hp]
      exact about_kind (by decide) hid _
    · cases hp
  · unfold mismatches at hmismatch
    split_ifs at hmismatch
    · cases hmismatch
      cases hp
    · cases hwritten : mismatchOf py room c actual with
      | error e =>
          rw [hwritten] at hmismatch
          cases hmismatch
      | ok text =>
          rw [hwritten] at hmismatch
          cases hmismatch
          rw [List.mem_singleton.mp hp]
          obtain ⟨_, -, hwritten⟩ := bind_eq_ok.mp hwritten
          obtain ⟨_, -, hwritten⟩ := bind_eq_ok.mp hwritten
          obtain ⟨_, -, hwritten⟩ := bind_eq_ok.mp hwritten
          obtain rfl := Except.ok.inj hwritten
          exact about_kind (by decide) hid _

/-- **The complaints about an entry name it.** -/
theorem about_of_checkConstraint {problems after : List String}
    (hok : checkConstraint py room plan texts seen index raw = .ok (problems, after)) :
    ∀ p ∈ problems, About index raw p := by
  unfold checkConstraint at hok
  split at hok
  · cases hok
  · next p hid =>
      cases hok
      intro q hq
      rw [List.mem_singleton.mp hq]
      exact refuses_identified p hid
  · next kvs id hid =>
      obtain ⟨-, hid, -⟩ := identified_passed_iff.mp hid
      have hname : nameOf index raw = id := by
        rw [nameOf, hid]
        rfl
      split at hok
      · cases hok
      · next p hres =>
          cases hok
          intro q hq
          rw [List.mem_singleton.mp hq]
          exact refuses_resolveConstraint hname p hres
      · next c hres =>
          obtain ⟨source, field, operator, expected, -, -, rfl⟩ :=
            resolveConstraint_passed_iff.mp hres
          cases hjudge : judgeConstraint py room plan texts
              (constraintOf kvs id source field operator expected) with
          | error e =>
              rw [hjudge] at hok
              cases hok
          | ok own =>
              rw [hjudge] at hok
              cases hok
              exact about_judged hname hjudge

end Entry

/-! ### The manifest as a whole -/

section Manifest

variable {py : Stdlib} {room : Nat} {plan : MissionPlan} {texts : Option (List String)}

/-- The ids that are seen are those of the earlier entries. -/
def Seen (seen : List String) (earlier : List Json) : Prop :=
  ∀ id, id ∈ seen ↔ ∃ other ∈ earlier, idOf other = some id

theorem Seen.next {seen after : List String} {earlier : List Json} {raw : Json}
    (h : Seen seen earlier) (hafter : ∀ id, id ∈ after ↔ id ∈ seen ∨ idOf raw = some id) :
    Seen after (earlier ++ [raw]) := by
  intro id
  rw [hafter, h id]
  constructor
  · rintro (⟨other, hmem, hid⟩ | hid)
    · exact ⟨other, List.mem_append_left _ hmem, hid⟩
    · exact ⟨raw, List.mem_append_right _ (List.mem_singleton_self _), hid⟩
  · rintro ⟨other, hmem, hid⟩
    obtain hmem | hmem := List.mem_append.mp hmem
    · exact .inl ⟨other, hmem, hid⟩
    · rw [List.mem_singleton.mp hmem] at hid
      exact .inr hid

theorem Seen.tripsAfter_iff {seen : List String} {earlier : List Json} {raw : Json}
    (h : Seen seen earlier) :
    (∃ kvs id, raw = .obj kvs ∧ idOf raw = some id ∧ id ∉ seen ∧
      (asNonEmpty (fieldOf kvs "source_text")).isSome ∧ Trips py room plan kvs) ↔
      TripsAfter py room plan earlier raw := by
  constructor
  · rintro ⟨kvs, id, hraw, hid, hnew, hsource, htrips⟩
    refine ⟨kvs, hraw, by rw [hid]; rfl, ?_, hsource, htrips⟩
    intro other hmem heq
    exact hnew ((h id).mpr ⟨other, hmem, heq.trans hid⟩)
  · rintro ⟨kvs, hraw, hsome, hnew, hsource, htrips⟩
    obtain ⟨id, hid⟩ := Option.isSome_iff_exists.mp hsome
    refine ⟨kvs, id, hraw, hid, ?_, hsource, htrips⟩
    intro hseen
    obtain ⟨other, hmem, hother⟩ := (h id).mp hseen
    exact hnew other hmem (hother.trans hid.symm)

theorem Seen.not_violated_iff {seen : List String} {earlier : List Json} {raw : Json}
    (h : Seen seen earlier) :
    (Confirmed plan texts raw ∧ ∀ id, idOf raw = some id → id ∉ seen) ↔
      ¬ Violated plan texts earlier raw := by
  rw [Violated, not_or, not_not]
  refine and_congr_right ?_
  rintro ⟨-, -, -, -, -, -, hsome, -⟩
  obtain ⟨id, hid⟩ := Option.isSome_iff_exists.mp hsome
  constructor
  · rintro hnew ⟨other, hmem, hother⟩
    exact hnew id hid ((h id).mpr ⟨other, hmem, hother.trans hid⟩)
  · intro hnone id hid hseen
    obtain ⟨other, hmem, hother⟩ := (h id).mp hseen
    exact hnone ⟨other, hmem, hother.trans hid.symm⟩

theorem checkConstraints_error_iff {seen : List String} {earlier : List Json}
    (h : Seen seen earlier) (index : Nat) (entries : List Json) :
    (∃ e, checkConstraints py room plan texts seen index entries = .error e) ↔
      ∃ i raw, entries[i]? = some raw ∧ TripsAfter py room plan (earlier ++ entries.take i) raw := by
  induction entries generalizing seen earlier index with
  | nil => simp [checkConstraints]
  | cons raw rest ih =>
      cases hone : checkConstraint py room plan texts seen index raw with
      | error e =>
          have htrips := h.tripsAfter_iff.mp (checkConstraint_error_iff.mp ⟨e, hone⟩)
          rw [checkConstraints, hone]
          refine iff_of_true ⟨e, rfl⟩ ⟨0, raw, rfl, ?_⟩
          rwa [List.take_zero, List.append_nil]
      | ok out =>
          obtain ⟨problems, after⟩ := out
          have hnot : ¬ TripsAfter py room plan earlier raw := by
            intro htrips
            obtain ⟨e, he⟩ := checkConstraint_error_iff.mpr (h.tripsAfter_iff.mpr htrips)
            cases hone.symm.trans he
          have hrest := ih (h.next (checkConstraint_eq_ok hone).2) (index + 1)
          have hhere : (∃ e, checkConstraints py room plan texts seen index (raw :: rest) = .error e) ↔
              ∃ e, checkConstraints py room plan texts after (index + 1) rest = .error e := by
            rw [checkConstraints, hone]
            change (∃ e, (checkConstraints py room plan texts after (index + 1) rest >>= _) = _) ↔ _
            cases checkConstraints py room plan texts after (index + 1) rest with
            | error e => simp [bind, Except.bind]
            | ok more => simp [bind, Except.bind, pure, Except.pure]
          rw [hhere, hrest]
          constructor
          · rintro ⟨i, other, hi, htrips⟩
            refine ⟨i + 1, other, hi, ?_⟩
            rwa [List.take_succ_cons, List.append_cons]
          · rintro ⟨i, other, hi, htrips⟩
            cases i with
            | zero =>
                cases hi
                rw [List.take_zero, List.append_nil] at htrips
                exact absurd htrips hnot
            | succ i =>
                refine ⟨i, other, hi, ?_⟩
                rwa [List.take_succ_cons, List.append_cons] at htrips

theorem checkConstraints_eq_ok {seen : List String} {earlier : List Json}
    (h : Seen seen earlier) {index : Nat} {entries : List Json} {own : List (List String)}
    (hok : checkConstraints py room plan texts seen index entries = .ok own) :
    own.length = entries.length ∧ ∀ i raw, entries[i]? = some raw → ∃ part, own[i]? = some part ∧
      (part = [] ↔ ¬ Violated plan texts (earlier ++ entries.take i) raw) ∧
      ∀ p ∈ part, About (index + i) raw p := by
  induction entries generalizing seen earlier index own with
  | nil =>
      cases hok
      simp
  | cons raw rest ih =>
      obtain ⟨⟨problems, after⟩, hone, hok⟩ := bind_eq_ok.mp hok
      obtain ⟨more, hmore, hok⟩ := bind_eq_ok.mp hok
      cases hok
      obtain ⟨hempty, hafter⟩ := checkConstraint_eq_ok hone
      obtain ⟨hlength, hall⟩ := ih (h.next hafter) hmore
      refine ⟨congrArg (· + 1) hlength, ?_⟩
      intro i other hi
      cases i with
      | zero =>
          cases hi
          refine ⟨problems, rfl, ?_, about_of_checkConstraint hone⟩
          rw [List.take_zero, List.append_nil, ← h.not_violated_iff, ← hempty]
      | succ i =>
          have hindex : index + (i + 1) = index + 1 + i := by omega
          rw [List.take_succ_cons, List.append_cons, hindex]
          exact hall i other hi

/-- The complaints that a manifest should get: none exactly when there is no manifest or a
well-formed one, and for each entry that is violated some of its own, which name it. -/
structure Judged (plan : MissionPlan) (texts : Option (List String))
    (problems : List String) : Prop where
  none_iff : ∀ given, texts = some given → (problems = [] ↔ plan.missionConstraints = .null ∨
    ∃ entries, plan.missionConstraints = .arr entries ∧ WellFormed plan texts entries)
  own : ∀ entries, plan.missionConstraints = .arr entries →
    ∃ (first : List String) (own : List (List String)), problems = first ++ own.flatten ∧
      (texts ≠ none → first = []) ∧ own.length = entries.length ∧
      ∀ i raw, entries[i]? = some raw → ∃ part, own[i]? = some part ∧
        (part = [] ↔ ¬ Violated plan texts (entries.take i) raw) ∧ ∀ p ∈ part, About i raw p

theorem wellFormed_iff {entries : List Json} :
    WellFormed plan texts entries ↔
      ∀ i raw, entries[i]? = some raw → ¬ Violated plan texts (entries.take i) raw := by
  constructor
  · rintro ⟨hconf, hdistinct⟩ i raw hi (hnot | ⟨other, hmem, hother⟩)
    · exact hnot (hconf raw (List.mem_of_getElem? hi))
    · obtain ⟨j, hj⟩ := List.mem_iff_getElem?.mp hmem
      rw [List.getElem?_take, Option.ite_none_right_eq_some] at hj
      obtain ⟨hlt, hj⟩ := hj
      obtain ⟨hj', rfl⟩ := List.getElem?_eq_some_iff.mp hj
      obtain ⟨hi', rfl⟩ := List.getElem?_eq_some_iff.mp hi
      exact List.pairwise_iff_getElem.mp hdistinct j i hj' hi' hlt hother
  · intro h
    constructor
    · intro raw hmem
      obtain ⟨i, hi⟩ := List.mem_iff_getElem?.mp hmem
      by_contra hnot
      exact h i raw hi (.inl hnot)
    · refine List.pairwise_iff_getElem.mpr ?_
      intro j i hj hi hlt hother
      refine h i entries[i] (List.getElem?_eq_getElem hi) (.inr ⟨entries[j], ?_, hother⟩)
      refine List.mem_of_getElem? (i := j) ?_
      rw [List.getElem?_take, if_pos hlt, List.getElem?_eq_getElem hj]

/-- The manifest is judged as it should be exactly when no entry is reached that trips. -/
theorem constraints_validated_iff (py : Stdlib) (room : Nat) (plan : MissionPlan)
    (texts : Option (List String)) :
    (∃ problems, validateMissionConstraints py room plan texts = .ok problems ∧
        Judged plan texts problems) ↔
      ∀ entries, plan.missionConstraints = .arr entries →
        ∀ i raw, entries[i]? = some raw → ¬ TripsAfter py room plan (entries.take i) raw := by
  have hseen : Seen [] [] := fun id => by simp
  have herror (entries : List Json) :
      (∃ e, checkConstraints py room plan texts [] 0 entries = .error e) ↔ ∃ i raw,
        entries[i]? = some raw ∧ TripsAfter py room plan (entries.take i) raw :=
    checkConstraints_error_iff hseen 0 entries
  unfold validateMissionConstraints
  constructor
  · rintro ⟨problems, hok, -⟩ entries hcs i raw hi htrips
    obtain ⟨e, he⟩ := (herror entries).mpr ⟨i, raw, hi, htrips⟩
    rw [hcs] at hok
    change (checkConstraints py room plan texts [] 0 entries >>= _) = _ at hok
    rw [he] at hok
    cases hok
  · intro hnone
    cases hcs : plan.missionConstraints with
    | null => exact ⟨[], rfl, ⟨fun _ _ => by simp [hcs], by simp [hcs]⟩⟩
    | arr entries =>
        cases hown : checkConstraints py room plan texts [] 0 entries with
        | error e =>
            obtain ⟨i, raw, hi, htrips⟩ := (herror entries).mp ⟨e, hown⟩
            exact absurd htrips (hnone entries hcs i raw hi)
        | ok own =>
            obtain ⟨hlength, hall⟩ := checkConstraints_eq_ok hseen hown
            have hwell : own.flatten = [] ↔ WellFormed plan texts entries := by
              rw [List.flatten_eq_nil_iff, wellFormed_iff]
              constructor
              · intro hnil i raw hi
                have hlt : i < own.length := hlength ▸ (List.getElem?_eq_some_iff.mp hi).1
                obtain ⟨part, hpart, hempty, -⟩ := hall i raw hi
                rw [List.getElem?_eq_getElem hlt] at hpart
                refine hempty.mp ?_
                rw [← Option.some.inj hpart, hnil _ (List.getElem_mem hlt)]
              · intro hwell ps hmem
                obtain ⟨i, hlt, rfl⟩ := List.getElem_of_mem hmem
                have hi := List.getElem?_eq_getElem (hlength ▸ hlt : i < entries.length)
                obtain ⟨part, hpart, hempty, -⟩ := hall i _ hi
                rw [List.getElem?_eq_getElem hlt] at hpart
                rw [Option.some.inj hpart]
                exact hempty.mpr (hwell i _ hi)
            refine ⟨_, bind_eq_ok.mpr ⟨own, hown, rfl⟩, ⟨?_, ?_⟩⟩
            · rintro given rfl
              simp [hcs, hwell]
            · intro entries' hcs'
              cases hcs.symm.trans hcs'
              refine ⟨_, own, rfl, fun hgiven => if_neg hgiven, hlength, ?_⟩
              simp only [Nat.zero_add, List.nil_append] at hall
              exact hall
    | _ =>
        refine ⟨_, rfl, ⟨?_, ?_⟩⟩
        · simp [hcs]
        · simp [hcs]

end Manifest

/-- A manifest of one entry, the scope of which is a list. -/
def listScopeManifest : Json :=
  .arr [.obj [("constraint_id", .str "c"), ("source_text", .str "m"), ("scope", .arr []),
    ("assignment_index", .null), ("field", .str "assignment_count"),
    ("operator", .str "equals"), ("value", .int 0)]]

/-- A plan without assignments. -/
def listScopePlan : MissionPlan where
  missionId := "m"
  understanding := .str "m"
  explicitFacts := .arr []
  missingContext := .arr []
  assumptionsProhibited := .arr []
  complexity := .str "simple"
  assignments := []
  acceptanceCriteria := .arr []
  approvalBoundaries := .arr []
  estimatedTokens := .int 0
  estimatedCostClass := .str "low"
  rationale := .str "m"
  approval := .obj [("status", .str "pending")]
  teachbackPolicy := .str "disabled"
  workspacePolicy := .obj [("workspace_mutation_allowed", .bool false),
    ("private_runtime_state_allowed", .bool true)]
  budget := .obj [("provider_totals", .arr []), ("family_totals", .arr []),
    ("replanning_reserve_tokens", .int 0), ("maximum_total_tokens", .int 0)]
  governance := .obj [("conductor", .str "codex"), ("constitutional_authority", .str "hokage")]
  planHash := .str ""
  missionConstraints := listScopeManifest
  repositoryEvidence := .null

/-- The test `scope not in {"plan", "assignment"}` raises for a list. -/
theorem listScope_raises :
    ¬ ∃ (py : Stdlib) (room : Nat) (problems : List String),
      validateMissionConstraints py room listScopePlan (some ["m"]) = .ok problems ∧
        Judged listScopePlan (some ["m"]) problems := by
  rintro ⟨py, room, problems, hok, -⟩
  have hraised : validateMissionConstraints py room listScopePlan (some ["m"]) =
      .error (.typeError "unhashable type: 'list'") := rfl
  cases hraised.symm.trans hok

end Planning

end Konoha
