/-
Planning/Attempts.lean

`_build_validated_plan`: the planner is asked for a plan, the plan is validated, and what the
validation finds goes back to the planner, three times at most.

A `Round` is a plan that has been validated, with everything that has been found.  What the
planner is told is a function of the rounds before (`feedbackAfter`, `contextAfter`), and a
call is a course of rounds (`Course`, `course_buildValidatedPlan`).  What a call does to its
surroundings is then read off its course (`planner_attempts`).
-/
import KonohaRuntime.Effects.Traces
import KonohaRuntime.Runtime.Sources
import KonohaRuntime.Runtime.PlanFile

namespace Konoha

namespace Planning

open Effects Json Prog

/-- `MAX_PLAN_ATTEMPTS` -/
def maxPlanAttempts : Nat := 3

/-- A dict of JSON values. -/
abbrev Context := List (String × Json)

/-- The arguments of a call that its loop uses; the others are handed on as they are. -/
structure PlanCall where
  missionText : String
  missionAuthorityTexts : Option (List String)
  firstAttemptFeedback : Option String
  baseContinuity : Option Context
  /-- `extra_validate is not None` -/
  hasExtraValidate : Bool
  /-- `on_invalid_attempt is not None` -/
  hasOnInvalidAttempt : Bool

/-- The authority texts, fixed for the whole call. -/
def PlanCall.authority (c : PlanCall) : List String :=
  c.missionAuthorityTexts.getD [c.missionText]

/-! ### The operations -/

inductive PlanOp
  | buildPlan (missionText : String) (feedback : Option String) (continuity : Option Context)
  | extraValidate (plan : MissionPlan)
  | validatePlan (plan : MissionPlan) (missionAuthorityTexts : List String)
  | onInvalidAttempt (plan : MissionPlan) (problems : List String)

abbrev PlanOp.Value : PlanOp → Type
  | .buildPlan _ _ _ => MissionPlan
  | .extraValidate _ => List String
  | .validatePlan _ _ => List String
  | .onInvalidAttempt _ _ => Unit

abbrev PlanOp.Ans (o : PlanOp) : Type := Except PyExc o.Value

abbrev PlanRun (α : Type) := Prog PlanOp.Ans PyExc α

/-- The plan, its problems, and the number of the attempt. -/
abbrev Built := MissionPlan × List String × Nat

/-! ### The loop -/

/-- An entry of the finding history. -/
def finding (attempt : Nat) (problems : List String) : Json :=
  .obj [("attempt", .int attempt), ("findings", .arr (problems.map .str))]

/-- The deterministic feedback. -/
def rejection (problems : List String) : String :=
  "Hokage rechazó el plan por validación determinística. " ++
    "Conservá la misión y corregí exclusivamente estos problemas:\n" ++
    String.intercalate "\n" (problems.map fun problem => "- " ++ problem)

/-- `list(base_continuity.get("validator_findings_history") or [])` -/
def ownHistory (base : Context) : Except PyExc (List Json) :=
  match lookup "validator_findings_history" base with
  | none => .ok []
  | some v => if v.truthy then v.iter else .ok []

/-- `_corrective_planner_context` -/
def correctivePlannerContext (missionText : String) (base : Option Context)
    (invalid : MissionPlan) (history : List Json) : Except PyExc Context :=
  match base with
  | none => .ok
      [("schema_version", .str "1.0"), ("original_request", .str missionText),
        ("requested_changes_history", .arr []), ("validator_findings_history", .arr history),
        ("previous_plan", .obj invalid.asdict), ("approval", .obj [("status", .str "pending")])]
  | some base => do
      let own ← ownHistory base
      return setField "validator_findings_history" (.arr (own ++ history))
        (setField "previous_plan" (.obj invalid.asdict) base)

/-- `list(extra_validate(plan)) if extra_validate is not None else []` -/
def extraProblems (c : PlanCall) (plan : MissionPlan) : PlanRun (List String) :=
  if c.hasExtraValidate then ask (PlanOp.extraValidate plan) else .ret []

/-- `if on_invalid_attempt is not None: on_invalid_attempt(plan, problems)` -/
def notifyInvalid (c : PlanCall) (plan : MissionPlan) (problems : List String) : PlanRun Unit :=
  if c.hasOnInvalidAttempt then ask (PlanOp.onInvalidAttempt plan problems) else .ret ()

/-- The rest of the loop, `remaining` attempts at most. -/
def attemptsFrom (c : PlanCall) : Nat → Nat → Option String → Option Context → List Json →
    PlanRun Built
  | 0, _, _, _, _ => .raise (.exception "No se produjo ningún plan.")
  | remaining + 1, attempt, feedback, continuity, history => do
      let plan ← ask (.buildPlan c.missionText feedback continuity)
      let extra ← extraProblems c plan
      let found ← ask (.validatePlan plan c.authority)
      let problems := extra ++ found
      if problems = [] then return (plan, [], attempt)
      else do
        notifyInvalid c plan problems
        if plan.missingContext.truthy then return (plan, problems, attempt)
        else if maxPlanAttempts ≤ attempt then return (plan, problems, attempt)
        else do
          let history := history ++ [finding attempt problems]
          let context ← ofExcept
            (correctivePlannerContext c.missionText c.baseContinuity plan history)
          attemptsFrom c remaining (attempt + 1) (some (rejection problems)) (some context) history

/-- `_build_validated_plan` -/
def buildValidatedPlan (c : PlanCall) : PlanRun Built :=
  attemptsFrom c maxPlanAttempts 1 c.firstAttemptFeedback c.baseContinuity []

/-! ### Rounds -/

/-- A plan that has been validated, with what `extra_validate` and `validate_plan` have
found. -/
structure Round where
  plan : MissionPlan
  extra : List String
  found : List String

def Round.problems (r : Round) : List String := r.extra ++ r.found

/-- The findings of some rounds, in their order. -/
def findings (rounds : List Round) : List Json :=
  rounds.mapIdx fun i r => finding (i + 1) r.problems

/-- What the planner is told to do after these rounds. -/
def feedbackAfter (c : PlanCall) (rounds : List Round) : Option String :=
  match rounds.getLast? with
  | none => c.firstAttemptFeedback
  | some r => some (rejection r.problems)

/-- The continuity that it is given then. -/
def contextAfter (c : PlanCall) (rounds : List Round) : Except PyExc (Option Context) :=
  match rounds.getLast? with
  | none => .ok c.baseContinuity
  | some r => (correctivePlannerContext c.missionText c.baseContinuity r.plan
      (findings rounds)).map some

/-- Without `extra_validate` it has found nothing. -/
def Round.Fits (c : PlanCall) (r : Round) : Prop := c.hasExtraValidate = false → r.extra = []

/-- The round asks for another one. -/
def Round.GoesOn (r : Round) (attempt : Nat) : Prop :=
  r.problems ≠ [] ∧ r.plan.missingContext.truthy = false ∧ attempt < maxPlanAttempts

/-- The operations of a round. -/
def Round.replies (c : PlanCall) (feedback : Option String) (continuity : Option Context)
    (r : Round) : List (Reply PlanOp.Ans) :=
  ⟨.buildPlan c.missionText feedback continuity, .ok r.plan⟩ ::
    ((if c.hasExtraValidate then [⟨.extraValidate r.plan, .ok r.extra⟩] else []) ++
      [⟨.validatePlan r.plan c.authority, .ok r.found⟩])

/-- The callback for an invalid plan. -/
def Round.notice (c : PlanCall) (r : Round) (answer : Except PyExc Unit) :
    List (Reply PlanOp.Ans) :=
  if c.hasOnInvalidAttempt then [⟨.onInvalidAttempt r.plan r.problems, answer⟩] else []

/-- A round that has been broken off by an exception. -/
inductive Broken (c : PlanCall) (feedback : Option String) (continuity : Option Context) :
    List (Reply PlanOp.Ans) → PyExc → Prop
  | unplanned {e : PyExc} :
      Broken c feedback continuity [⟨.buildPlan c.missionText feedback continuity, .error e⟩] e
  | unchecked {e : PyExc} (plan : MissionPlan) :
      Broken c feedback continuity [⟨.buildPlan c.missionText feedback continuity, .ok plan⟩,
        ⟨.extraValidate plan, .error e⟩] e
  | unvalidated {e : PyExc} (plan : MissionPlan) (extra : List (Reply PlanOp.Ans))
      (hextra : ∀ x ∈ extra, ∃ r, x = ⟨.extraValidate plan, r⟩) :
      Broken c feedback continuity (⟨.buildPlan c.missionText feedback continuity, .ok plan⟩ ::
        (extra ++ [⟨.validatePlan plan c.authority, .error e⟩])) e

/-- What may come after some rounds, up to the end of the call. -/
inductive Course (c : PlanCall) : List Round → List (Reply PlanOp.Ans) → Except PyExc Built → Prop
  | lost {rounds : List Round} {e : PyExc} (hcontext : contextAfter c rounds = .error e) :
      Course c rounds [] (.error e)
  | broken {rounds : List Round} {context : Option Context} {tr : List (Reply PlanOp.Ans)}
      {e : PyExc} (hcontext : contextAfter c rounds = .ok context)
      (hb : Broken c (feedbackAfter c rounds) context tr e) : Course c rounds tr (.error e)
  | accepted {rounds : List Round} {context : Option Context} {r : Round}
      (hcontext : contextAfter c rounds = .ok context) (hf : r.Fits c) (hvalid : r.problems = []) :
      Course c rounds (r.replies c (feedbackAfter c rounds) context)
        (.ok (r.plan, [], rounds.length + 1))
  | unnoticed {rounds : List Round} {context : Option Context} {r : Round} {e : PyExc}
      (hcontext : contextAfter c rounds = .ok context) (hf : r.Fits c) (hinvalid : r.problems ≠ [])
      (hon : c.hasOnInvalidAttempt = true) :
      Course c rounds (r.replies c (feedbackAfter c rounds) context ++ r.notice c (.error e))
        (.error e)
  | stopped {rounds : List Round} {context : Option Context} {r : Round}
      (hcontext : contextAfter c rounds = .ok context) (hf : r.Fits c) (hinvalid : r.problems ≠ [])
      (hstop : ¬ r.GoesOn (rounds.length + 1)) :
      Course c rounds (r.replies c (feedbackAfter c rounds) context ++ r.notice c (.ok ()))
        (.ok (r.plan, r.problems, rounds.length + 1))
  | next {rounds : List Round} {context : Option Context} {r : Round}
      {tr : List (Reply PlanOp.Ans)} {out : Except PyExc Built}
      (hcontext : contextAfter c rounds = .ok context) (hf : r.Fits c)
      (hgo : r.GoesOn (rounds.length + 1))
      (h : Course c (rounds ++ [r]) tr out) :
      Course c rounds
        (r.replies c (feedbackAfter c rounds) context ++ r.notice c (.ok ()) ++ tr) out

variable {W : Type} {step : W → (o : PlanOp) → o.Ans → W → Prop} {c : PlanCall} {w w' : W}
variable {tr : List (Reply PlanOp.Ans)}

theorem findings_append (rounds : List Round) (r : Round) :
    findings (rounds ++ [r]) = findings rounds ++ [finding (rounds.length + 1) r.problems] := by
  simp [findings, List.mapIdx_append]

theorem contextAfter_append (rounds : List Round) (r : Round) :
    contextAfter c (rounds ++ [r]) = (correctivePlannerContext c.missionText c.baseContinuity
      r.plan (findings rounds ++ [finding (rounds.length + 1) r.problems])).map some := by
  rw [contextAfter, List.getLast?_concat, findings_append]

theorem feedbackAfter_append (rounds : List Round) (r : Round) :
    feedbackAfter c (rounds ++ [r]) = some (rejection r.problems) := by
  rw [feedbackAfter, List.getLast?_concat]

theorem traced_extraProblems {plan : MissionPlan} {out : Except PyExc (List String)}
    (h : Traced step (extraProblems c plan) w tr out w') :
    (c.hasExtraValidate = true ∧ tr = [⟨.extraValidate plan, out⟩]) ∨
      c.hasExtraValidate = false ∧ tr = [] ∧ out = .ok [] := by
  unfold extraProblems at h
  split at h
  · rename_i hc
    exact .inl ⟨hc, (Traced.of_ask h).1⟩
  · rename_i hc
    obtain ⟨rfl, rfl, -⟩ := h.of_ret
    exact .inr ⟨by simpa using hc, rfl, rfl⟩

theorem traced_notifyInvalid {r : Round} {out : Except PyExc Unit}
    (h : Traced step (notifyInvalid c r.plan r.problems) w tr out w') :
    tr = r.notice c out ∧ ((∃ e, out = .error e) → c.hasOnInvalidAttempt = true) := by
  unfold notifyInvalid at h
  unfold Round.notice
  split at h
  · rename_i hc
    rw [if_pos hc]
    exact ⟨(Traced.of_ask h).1, fun _ => hc⟩
  · rename_i hc
    obtain ⟨rfl, rfl, -⟩ := h.of_ret
    rw [if_neg hc]
    exact ⟨rfl, by simp⟩

/-- **A call is a course of rounds**, from any point on. -/
theorem course_attemptsFrom {remaining : Nat} {rounds : List Round} {context : Option Context}
    {out : Except PyExc Built} (hcount : remaining + rounds.length = maxPlanAttempts)
    (hremain : remaining ≠ 0) (hcontext : contextAfter c rounds = .ok context)
    (h : Traced step (attemptsFrom c remaining (rounds.length + 1) (feedbackAfter c rounds) context
      (findings rounds)) w tr out w') :
    Course c rounds tr out := by
  induction remaining generalizing rounds context w tr with
  | zero => exact absurd rfl hremain
  | succ remaining ih =>
      unfold attemptsFrom at h
      rcases h.of_bind with ⟨e, he, rfl⟩ | ⟨plan, tr₁, w₁, tr₂, h₁, h₂, rfl⟩
      · rw [(Traced.of_ask he).1]
        exact .broken hcontext .unplanned
      rw [(Traced.of_ask h₁).1]
      rcases h₂.of_bind with ⟨e, he, rfl⟩ | ⟨extra, tr₃, w₂, tr₄, h₃, h₄, rfl⟩
      · rcases traced_extraProblems he with ⟨-, rfl⟩ | ⟨-, -, hout⟩
        · exact .broken hcontext (.unchecked plan)
        · cases hout
      have hextra := traced_extraProblems h₃
      rcases h₄.of_bind with ⟨e, he, rfl⟩ | ⟨found, tr₅, w₃, tr₆, h₅, h₆, rfl⟩
      · rw [(Traced.of_ask he).1]
        refine .broken hcontext (.unvalidated plan tr₃ ?_)
        rcases hextra with ⟨-, rfl⟩ | ⟨-, rfl, -⟩
        · intro x hx
          exact ⟨_, List.mem_singleton.mp hx⟩
        · simp
      have hfits : (Round.mk plan extra found).Fits c := by
        intro hc
        rcases hextra with ⟨hc', -⟩ | ⟨-, -, hout⟩
        · rw [hc] at hc'
          cases hc'
        · exact Except.ok.inj hout
      -- the round is complete
      have hround : (⟨.buildPlan c.missionText (feedbackAfter c rounds) context, .ok plan⟩ ::
          (tr₃ ++ tr₅) : List (Reply PlanOp.Ans)) =
          (Round.mk plan extra found).replies c (feedbackAfter c rounds) context := by
        rw [(Traced.of_ask h₅).1, Round.replies]
        rcases hextra with ⟨hc, rfl⟩ | ⟨hc, rfl, hout⟩
        · rw [if_pos hc]
        · rw [if_neg (by simp [hc])]
      have hwhole : ∀ rest : List (Reply PlanOp.Ans),
          [⟨.buildPlan c.missionText (feedbackAfter c rounds) context, .ok plan⟩] ++
            (tr₃ ++ (tr₅ ++ rest)) =
          (Round.mk plan extra found).replies c (feedbackAfter c rounds) context ++ rest := by
        intro rest
        rw [← hround]
        simp
      rw [hwhole]
      dsimp only at h₆
      split at h₆
      · rename_i hvalid
        obtain ⟨rfl, rfl, -⟩ := h₆.of_ret
        rw [List.append_nil]
        exact .accepted hcontext hfits hvalid
      · rename_i hinvalid
        have hnotice := h₆.of_bind
        rcases hnotice with ⟨e, he, rfl⟩ | ⟨u, tr₇, w₄, tr₈, h₇, h₈, rfl⟩
        · obtain ⟨rfl, hon⟩ := traced_notifyInvalid (r := ⟨plan, extra, found⟩) he
          exact .unnoticed hcontext hfits hinvalid (hon ⟨e, rfl⟩)
        · obtain ⟨rfl, -⟩ := traced_notifyInvalid (r := ⟨plan, extra, found⟩) h₇
          rw [← List.append_assoc]
          split at h₈
          · rename_i hmissing
            obtain ⟨rfl, rfl, -⟩ := h₈.of_ret
            rw [List.append_nil]
            refine .stopped hcontext hfits hinvalid fun hgo => ?_
            exact absurd hmissing (by simp [hgo.2.1])
          · rename_i hmissing
            split at h₈
            · rename_i hmax
              obtain ⟨rfl, rfl, -⟩ := h₈.of_ret
              rw [List.append_nil]
              exact .stopped hcontext hfits hinvalid fun hgo => absurd hgo.2.2 (by omega)
            · rename_i hmax
              have hgo : (Round.mk plan extra found).GoesOn (rounds.length + 1) :=
                ⟨hinvalid, by simpa using hmissing, by omega⟩
              refine .next hcontext hfits hgo ?_
              rcases h₈.of_bind with ⟨e, he, rfl⟩ | ⟨next, tr₉, w₅, tr₁₀, h₉, h₁₀, rfl⟩
              · obtain ⟨rfl, hlost, -⟩ := Traced.of_ofExcept he
                refine .lost ?_
                rw [contextAfter_append, Round.problems, ← hlost]
                rfl
              · obtain ⟨rfl, hnext, -⟩ := Traced.of_ofExcept h₉
                have hrest : Traced step (attemptsFrom c remaining
                    ((rounds ++ [Round.mk plan extra found]).length + 1)
                    (feedbackAfter c (rounds ++ [Round.mk plan extra found])) (some next)
                    (findings (rounds ++ [Round.mk plan extra found]))) w₅ tr₁₀ out w' := by
                  rw [feedbackAfter_append, findings_append, List.length_append]
                  exact h₁₀
                refine ih ?_ (by omega) ?_ hrest
                · simp only [List.length_append, List.length_singleton]
                  omega
                · rw [contextAfter_append, Round.problems, ← hnext]
                  rfl

theorem course_buildValidatedPlan {out : Except PyExc Built}
    (h : Traced step (buildValidatedPlan c) w tr out w') : Course c [] tr out :=
  course_attemptsFrom rfl (by decide) rfl h

/-! ### What a call has done -/

/-- The calls of the planner, in order: mission, feedback and continuity. -/
def plannerCalls (tr : List (Reply PlanOp.Ans)) :
    List (String × Option String × Option Context) :=
  tr.filterMap fun
    | ⟨.buildPlan missionText feedback continuity, _⟩ => some (missionText, feedback, continuity)
    | _ => none

/-- The plans that the planner has returned, in order. -/
def plansReturned (tr : List (Reply PlanOp.Ans)) : List MissionPlan :=
  tr.filterMap fun
    | ⟨.buildPlan _ _ _, .ok plan⟩ => some plan
    | _ => none

/-- The plans that `validate_plan` has judged, with the authority texts and its findings. -/
def validations (tr : List (Reply PlanOp.Ans)) : List (MissionPlan × List String × List String) :=
  tr.filterMap fun
    | ⟨.validatePlan plan authority, .ok found⟩ => some (plan, authority, found)
    | _ => none

/-- The calls of `on_invalid_attempt`, in order. -/
def notices (tr : List (Reply PlanOp.Ans)) : List (MissionPlan × List String) :=
  tr.filterMap fun
    | ⟨.onInvalidAttempt plan problems, _⟩ => some (plan, problems)
    | _ => none

section Append

variable (xs ys : List (Reply PlanOp.Ans))

@[simp] theorem plannerCalls_append : plannerCalls (xs ++ ys) = plannerCalls xs ++ plannerCalls ys :=
  List.filterMap_append

@[simp] theorem plansReturned_append :
    plansReturned (xs ++ ys) = plansReturned xs ++ plansReturned ys :=
  List.filterMap_append

@[simp] theorem validations_append : validations (xs ++ ys) = validations xs ++ validations ys :=
  List.filterMap_append

@[simp] theorem notices_append : notices (xs ++ ys) = notices xs ++ notices ys :=
  List.filterMap_append

end Append

section OneRound

variable {feedback : Option String} {continuity : Option Context} (r : Round)

@[simp] theorem plannerCalls_replies : plannerCalls (r.replies c feedback continuity) =
    [(c.missionText, feedback, continuity)] := by
  unfold Round.replies
  split <;> rfl

@[simp] theorem plansReturned_replies :
    plansReturned (r.replies c feedback continuity) = [r.plan] := by
  unfold Round.replies
  split <;> rfl

@[simp] theorem validations_replies : validations (r.replies c feedback continuity) =
    [(r.plan, c.authority, r.found)] := by
  unfold Round.replies
  split <;> rfl

@[simp] theorem notices_replies : notices (r.replies c feedback continuity) = [] := by
  unfold Round.replies
  split <;> rfl

@[simp] theorem plannerCalls_notice (a : Except PyExc Unit) : plannerCalls (r.notice c a) = [] := by
  unfold Round.notice
  split <;> rfl

@[simp] theorem plansReturned_notice (a : Except PyExc Unit) :
    plansReturned (r.notice c a) = [] := by
  unfold Round.notice
  split <;> rfl

@[simp] theorem validations_notice (a : Except PyExc Unit) : validations (r.notice c a) = [] := by
  unfold Round.notice
  split <;> rfl

theorem notices_notice (a : Except PyExc Unit) : notices (r.notice c a) =
    if c.hasOnInvalidAttempt then [(r.plan, r.problems)] else [] := by
  unfold Round.notice
  split <;> rfl

/-- What a round is broken off with is what one of its operations has raised. -/
theorem Broken.raised {part : List (Reply PlanOp.Ans)} {e : PyExc}
    (h : Broken c feedback continuity part e) : ∃ o, ⟨o, .error e⟩ ∈ part := by
  cases h with
  | unplanned => exact ⟨_, List.mem_singleton_self _⟩
  | unchecked plan => exact ⟨_, List.mem_cons_of_mem _ (List.mem_singleton_self _)⟩
  | unvalidated plan extra _ =>
      exact ⟨_, List.mem_cons_of_mem _ (List.mem_append_right _ (List.mem_singleton_self _))⟩

/-- What has been broken off has called the planner and nobody else of interest. -/
theorem Broken.calls {part : List (Reply PlanOp.Ans)} {e : PyExc}
    (h : Broken c feedback continuity part e) :
    plannerCalls part = [(c.missionText, feedback, continuity)] ∧ validations part = [] ∧
      notices part = [] ∧
      ∀ plan authority a, ⟨.validatePlan plan authority, a⟩ ∈ part → authority = c.authority := by
  cases h with
  | unplanned => exact ⟨rfl, rfl, rfl, by simp⟩
  | unchecked plan => exact ⟨rfl, rfl, rfl, by simp⟩
  | unvalidated plan extra hextra =>
      have hnone : plannerCalls extra = [] ∧ validations extra = [] ∧ notices extra = [] := by
        refine ⟨?_, ?_, ?_⟩
        all_goals
          refine List.filterMap_eq_nil_iff.mpr fun x hx => ?_
          obtain ⟨r, rfl⟩ := hextra x hx
          rfl
      refine ⟨?_, ?_, ?_, ?_⟩
      · show _ :: plannerCalls (extra ++ _) = _
        rw [plannerCalls_append, hnone.1]
        rfl
      · show validations (extra ++ _) = _
        rw [validations_append, hnone.2.1]
        rfl
      · show notices (extra ++ _) = _
        rw [notices_append, hnone.2.2]
        rfl
      · intro plan' authority a hmem
        simp only [List.mem_cons, List.mem_append, List.not_mem_nil, or_false] at hmem
        rcases hmem with hmem | hmem | hmem
        · cases hmem
        · obtain ⟨_, hx⟩ := hextra _ hmem
          cases hx
        · obtain ⟨⟩ := hmem
          rfl

end OneRound

/-- What a call has done from some point on: the rounds before, and those behind it. -/
structure Conducted (c : PlanCall) (before rounds : List Round) (tr : List (Reply PlanOp.Ans))
    (out : Except PyExc Built) : Prop where
  count : before.length + (plannerCalls tr).length ≤ max before.length maxPlanAttempts
  rounds_le : rounds.length ≤ (plannerCalls tr).length
  fits : ∀ r ∈ rounds, r.Fits c
  checked : c.hasExtraValidate = true →
    ∀ r ∈ rounds, ⟨.extraValidate r.plan, .ok r.extra⟩ ∈ tr
  validated : validations tr = rounds.map fun r => (r.plan, c.authority, r.found)
  authority : ∀ plan authority a, ⟨.validatePlan plan authority, a⟩ ∈ tr → authority = c.authority
  noticed : notices tr = if c.hasOnInvalidAttempt then
    (rounds.filter fun r => r.problems ≠ []).map fun r => (r.plan, r.problems) else []
  told : ∀ i call, (plannerCalls tr)[i]? = some call →
    ∃ context, contextAfter c (before ++ rounds.take i) = .ok context ∧
      call = (c.missionText, feedbackAfter c (before ++ rounds.take i), context)
  goesOn : ∀ i, i + 1 < (plannerCalls tr).length →
    ∃ r, rounds[i]? = some r ∧ r.GoesOn (before.length + i + 1)
  planned : rounds.map (·.plan) <+: plansReturned tr
  /-- The planner is called, unless there is nothing to tell it. -/
  called : plannerCalls tr = [] → ∃ e, contextAfter c before = .error e
  raised : ∀ e, out = .error e →
    (∃ o, ⟨o, .error e⟩ ∈ tr) ∨ ∃ earlier, contextAfter c earlier = .error e
  result : ∀ plan problems n, out = .ok (plan, problems, n) →
    ∃ r, rounds.getLast? = some r ∧ plan = r.plan ∧ problems = r.problems ∧
      n = before.length + rounds.length ∧ rounds.length = (plannerCalls tr).length ∧
      ¬ r.GoesOn n

theorem authority_replies {feedback : Option String} {continuity : Option Context} {r : Round}
    {plan : MissionPlan} {authority : List String} {a : Except PyExc (List String)}
    (h : ⟨.validatePlan plan authority, a⟩ ∈ r.replies c feedback continuity) :
    authority = c.authority := by
  unfold Round.replies at h
  split at h <;>
    simp only [List.mem_cons, List.mem_append, List.not_mem_nil, or_false, false_or] at h
  · rcases h with h | h | h
    · cases h
    · cases h
    · obtain ⟨⟩ := h
      rfl
  · rcases h with h | h
    · cases h
    · obtain ⟨⟩ := h
      rfl

theorem not_validated_notice {r : Round} {answer : Except PyExc Unit} {plan : MissionPlan}
    {authority : List String} {a : Except PyExc (List String)} :
    ⟨.validatePlan plan authority, a⟩ ∉ r.notice c answer := by
  unfold Round.notice
  split <;> simp

theorem checked_replies {feedback : Option String} {continuity : Option Context} {r : Round}
    (h : c.hasExtraValidate = true) :
    ⟨.extraValidate r.plan, .ok r.extra⟩ ∈ r.replies c feedback continuity := by
  unfold Round.replies
  rw [if_pos h]
  simp

/-- A call that ends with a round. -/
theorem conducted_last {before : List Round} {context : Option Context} {r : Round}
    {note : List (Reply PlanOp.Ans)} {out : Except PyExc Built}
    (hcount : before.length < maxPlanAttempts) (hcontext : contextAfter c before = .ok context)
    (hf : r.Fits c) (hcalls : plannerCalls note = []) (hval : validations note = [])
    (hnotices : notices note = if c.hasOnInvalidAttempt then
      ([r].filter fun r => r.problems ≠ []).map fun r => (r.plan, r.problems) else [])
    (hauthority : ∀ plan authority a, ⟨.validatePlan plan authority, a⟩ ∉ note)
    (hraised : ∀ e, out = .error e → ∃ o, ⟨o, .error e⟩ ∈ note)
    (hout : ∀ plan problems n, out = .ok (plan, problems, n) →
      plan = r.plan ∧ problems = r.problems ∧ n = before.length + 1 ∧ ¬ r.GoesOn n) :
    Conducted c before [r] (r.replies c (feedbackAfter c before) context ++ note) out where
  count := by
    rw [plannerCalls_append, plannerCalls_replies, hcalls]
    simp only [List.append_nil, List.length_singleton]
    omega
  rounds_le := by
    rw [plannerCalls_append, plannerCalls_replies, hcalls]
    rfl
  fits := by
    intro x hx
    rw [List.mem_singleton.mp hx]
    exact hf
  checked := by
    intro hc x hx
    rw [List.mem_singleton.mp hx]
    exact List.mem_append_left _ (checked_replies hc)
  validated := by
    rw [validations_append, validations_replies, hval]
    rfl
  authority := by
    intro plan authority a hmem
    rcases List.mem_append.mp hmem with hmem | hmem
    · exact authority_replies hmem
    · exact absurd hmem (hauthority plan authority a)
  noticed := by
    rw [notices_append, notices_replies, hnotices]
    rfl
  told := by
    intro i call hi
    rw [plannerCalls_append, plannerCalls_replies, hcalls] at hi
    cases i with
    | zero =>
        refine ⟨context, ?_, ?_⟩
        · simpa using hcontext
        · simpa using (Option.some.inj hi).symm
    | succ i => cases hi
  goesOn := by
    intro i hi
    rw [plannerCalls_append, plannerCalls_replies, hcalls] at hi
    simp at hi
  planned := by
    rw [plansReturned_append, plansReturned_replies]
    exact List.prefix_append _ _
  called := by
    rw [plannerCalls_append, plannerCalls_replies, hcalls]
    exact fun h => absurd h (List.cons_ne_nil _ _)
  raised := by
    intro e he
    obtain ⟨o, ho⟩ := hraised e he
    exact .inl ⟨o, List.mem_append_right _ ho⟩
  result := by
    intro plan problems n h
    obtain ⟨hp, hps, hn, hstop⟩ := hout plan problems n h
    refine ⟨r, rfl, hp, hps, hn, ?_, hstop⟩
    rw [plannerCalls_append, plannerCalls_replies, hcalls]
    rfl

theorem filter_valid {r : Round} (h : r.problems = []) :
    ([r].filter fun r => r.problems ≠ []).map (fun r => (r.plan, r.problems)) = [] := by
  simp [h]

theorem filter_invalid {r : Round} (h : r.problems ≠ []) :
    ([r].filter fun r => r.problems ≠ []).map (fun r => (r.plan, r.problems)) =
      [(r.plan, r.problems)] := by
  simp [h]

/-- A call that has nothing to tell the planner. -/
theorem conducted_lost {before : List Round} {e : PyExc} (hcontext : contextAfter c before = .error e) :
    Conducted c before [] [] (.error e) where
  count := by simp [plannerCalls]
  rounds_le := by simp
  fits := by simp
  checked := by simp
  validated := rfl
  authority := by simp
  noticed := by simp [notices]
  told := by simp [plannerCalls]
  goesOn := by simp [plannerCalls]
  planned := List.nil_prefix
  called := fun _ => ⟨_, hcontext⟩
  raised := by
    rintro e ⟨⟩
    exact .inr ⟨_, hcontext⟩
  result := by simp

/-- A call in whose round an operation raises. -/
theorem conducted_broken {before : List Round} {context : Option Context} {e : PyExc}
    (hcount : before.length < maxPlanAttempts) (hcontext : contextAfter c before = .ok context)
    (hb : Broken c (feedbackAfter c before) context tr e) :
    Conducted c before [] tr (.error e) := by
  obtain ⟨hcalls, hval, hnotices, hauthority⟩ := hb.calls
  exact {
    count := by
      rw [hcalls, List.length_singleton]
      omega
    rounds_le := by simp
    fits := by simp
    checked := by simp
    validated := hval
    authority := hauthority
    noticed := by simp [hnotices]
    told := by
      intro i call hi
      rw [hcalls] at hi
      cases i with
      | zero => exact ⟨context, by simpa using hcontext, by simpa using (Option.some.inj hi).symm⟩
      | succ i => cases hi
    goesOn := by
      intro i hi
      rw [hcalls] at hi
      simp at hi
    planned := List.nil_prefix
    called := by simp [hcalls]
    raised := by
      rintro e ⟨⟩
      exact .inl hb.raised
    result := by simp }

/-- A round that is not the last, before what comes after it. -/
theorem conducted_next {before rounds : List Round} {context : Option Context} {r : Round}
    {out : Except PyExc Built} (hcontext : contextAfter c before = .ok context) (hf : r.Fits c)
    (hgo : r.GoesOn (before.length + 1)) (hr : Conducted c (before ++ [r]) rounds tr out) :
    Conducted c before (r :: rounds)
      (r.replies c (feedbackAfter c before) context ++ r.notice c (.ok ()) ++ tr) out := by
  have hlength : (before ++ [r]).length = before.length + 1 := by simp
  have hcalls : plannerCalls (r.replies c (feedbackAfter c before) context ++
      r.notice c (.ok ()) ++ tr) =
      (c.missionText, feedbackAfter c before, context) :: plannerCalls tr := by simp
  have hsplit : ∀ i, before ++ (r :: rounds).take (i + 1) = before ++ [r] ++ rounds.take i := by
    intro i
    simp
  refine {
    count := ?_, rounds_le := ?_, fits := ?_, checked := ?_, validated := ?_, authority := ?_,
    noticed := ?_, told := ?_, goesOn := ?_, planned := ?_, called := ?_, raised := ?_,
    result := ?_ }
  · have hle := hr.count
    have hmax : maxPlanAttempts = 3 := rfl
    rw [hcalls, List.length_cons]
    rw [hlength] at hle
    have hlt := hgo.2.2
    omega
  · rw [hcalls]
    exact Nat.succ_le_succ hr.rounds_le
  · exact List.forall_mem_cons.mpr ⟨hf, hr.fits⟩
  · intro hc
    refine List.forall_mem_cons.mpr ⟨?_, fun x hx => ?_⟩
    · exact List.mem_append_left _ (List.mem_append_left _ (checked_replies hc))
    · exact List.mem_append_right _ (hr.checked hc x hx)
  · simp [hr.validated]
  · intro plan authority a hmem
    rcases List.mem_append.mp hmem with hmem | hmem
    · rcases List.mem_append.mp hmem with hmem | hmem
      · exact authority_replies hmem
      · exact absurd hmem not_validated_notice
    · exact hr.authority plan authority a hmem
  · rw [notices_append, notices_append, notices_replies, notices_notice, hr.noticed,
      List.filter_cons_of_pos (by simpa using hgo.1)]
    split <;> rfl
  · -- the first call is told what was known before, the others what the later rounds say
    intro i call hi
    rw [hcalls] at hi
    cases i with
    | zero => exact ⟨context, by simpa using hcontext, by simpa using (Option.some.inj hi).symm⟩
    | succ i =>
        obtain ⟨context', h₁, h₂⟩ := hr.told i call hi
        rw [hsplit]
        exact ⟨context', h₁, h₂⟩
  · intro i hi
    rw [hcalls, List.length_cons] at hi
    cases i with
    | zero => exact ⟨r, rfl, hgo⟩
    | succ i =>
        obtain ⟨r', h₁, h₂⟩ := hr.goesOn i (by omega)
        refine ⟨r', h₁, ?_⟩
        rw [hlength] at h₂
        rwa [show before.length + (i + 1) + 1 = before.length + 1 + i + 1 by omega]
  · rw [plansReturned_append, plansReturned_append, plansReturned_replies, plansReturned_notice]
    exact List.prefix_append_right_inj [r.plan] |>.mpr hr.planned
  · rw [hcalls]
    exact fun hnil => absurd hnil (List.cons_ne_nil _ _)
  · intro e he
    exact (hr.raised e he).imp_left fun ⟨o, ho⟩ => ⟨o, List.mem_append_right _ ho⟩
  · intro plan problems n hout
    obtain ⟨r', hlast, h₁, h₂, h₃, h₄, hstop⟩ := hr.result plan problems n hout
    refine ⟨r', ?_, h₁, h₂, ?_, ?_, hstop⟩
    · rw [List.getLast?_cons, hlast]
      rfl
    · rw [h₃, hlength, List.length_cons]
      omega
    · rw [hcalls, List.length_cons, List.length_cons, h₄]

/-- **What a course does**: by induction on the rounds that are still to come. -/
theorem Course.conducted {before : List Round} {out : Except PyExc Built}
    (h : Course c before tr out) (hcount : before.length < maxPlanAttempts) :
    ∃ rounds, Conducted c before rounds tr out := by
  induction h with
  | lost hcontext => exact ⟨[], conducted_lost hcontext⟩
  | broken hcontext hb => exact ⟨[], conducted_broken hcount hcontext hb⟩
  | @accepted before context r hcontext hf hvalid =>
      refine ⟨[r], ?_⟩
      rw [← List.append_nil (r.replies c _ _)]
      refine conducted_last hcount hcontext hf rfl rfl ?_ (by simp) (by simp) ?_
      · rw [filter_valid hvalid]
        simp [notices]
      · rintro plan problems n ⟨⟩
        exact ⟨rfl, hvalid.symm, rfl, fun hgo => hgo.1 hvalid⟩
  | @unnoticed before context r e hcontext hf hinvalid hon =>
      refine ⟨[r], conducted_last hcount hcontext hf (plannerCalls_notice r _)
        (validations_notice r _) ?_ (fun _ _ _ => not_validated_notice) ?_ (by simp)⟩
      · rw [filter_invalid hinvalid]
        exact notices_notice r _
      · rintro e ⟨⟩
        rw [Round.notice, if_pos hon]
        exact ⟨_, List.mem_singleton_self _⟩
  | @stopped before context r hcontext hf hinvalid hstop =>
      refine ⟨[r], conducted_last hcount hcontext hf (plannerCalls_notice r _)
        (validations_notice r _) ?_ (fun _ _ _ => not_validated_notice) (by simp) ?_⟩
      · rw [filter_invalid hinvalid]
        exact notices_notice r _
      · rintro plan problems n ⟨⟩
        exact ⟨rfl, rfl, rfl, hstop⟩
  | @next before context r tr out hcontext hf hgo h ih =>
      obtain ⟨rounds, hr⟩ := ih (by rw [List.length_append, List.length_singleton]; exact hgo.2.2)
      exact ⟨r :: rounds, conducted_next hcontext hf hgo hr⟩

/-! ### The continuity -/

/-- The continuity that the planner is given after some rounds is the one of the call, but for
the plan before and the findings: these are the call's own and those of the rounds. -/
def Continues (base : Context) (rounds : List Round) (context : Context) : Prop :=
  (∀ key, key ≠ "previous_plan" → key ≠ "validator_findings_history" →
    lookup key context = lookup key base) ∧
  (rounds = [] → context = base) ∧
  ∀ r, rounds.getLast? = some r →
    lookup "previous_plan" context = some (.obj r.plan.asdict) ∧
    ∃ own, ownHistory base = .ok own ∧
      lookup "validator_findings_history" context = some (.arr (own ++ findings rounds))

theorem continues_of_contextAfter {rounds : List Round} {base : Context}
    {context : Option Context} (hbase : c.baseContinuity = some base)
    (h : contextAfter c rounds = .ok context) :
    ∃ k, context = some k ∧ Continues base rounds k := by
  rcases hlast : rounds.getLast? with - | r
  · -- before the first round it is the call's own
    have hnil : rounds = [] := by simpa using hlast
    rw [contextAfter, hlast] at h
    obtain rfl := Except.ok.inj h
    refine ⟨base, hbase, fun _ _ _ => rfl, fun _ => rfl, fun r hr => ?_⟩
    rw [hlast] at hr
    cases hr
  · rw [contextAfter, hlast] at h
    dsimp only at h
    rw [hbase] at h
    rcases hown : ownHistory base with e | own
    · rw [correctivePlannerContext, hown] at h
      cases h
    · rw [correctivePlannerContext, hown] at h
      obtain rfl := Except.ok.inj h
      refine ⟨_, rfl, fun key hp hv => ?_, fun hnil => ?_, fun r' hr' => ?_⟩
      · rw [lookup_setField_ne hv, lookup_setField_ne hp]
      · rw [hnil] at hlast
        cases hlast
      · obtain rfl := Option.some.inj (hlast.symm.trans hr')
        refine ⟨?_, own, hown, lookup_setField_self _ _ _⟩
        rw [lookup_setField_ne (by decide)]
        exact lookup_setField_self _ _ _

/-- Without a continuity the planner is first given none, and then one with the mission, what has been
found in all rounds, and the plan of the last one. -/
def Begins (missionText : String) (rounds : List Round) (context : Option Context) : Prop :=
  (rounds = [] → context = none) ∧
  ∀ r, rounds.getLast? = some r → context = some
    [("schema_version", .str "1.0"), ("original_request", .str missionText),
      ("requested_changes_history", .arr []), ("validator_findings_history", .arr (findings rounds)),
      ("previous_plan", .obj r.plan.asdict), ("approval", .obj [("status", .str "pending")])]

theorem begins_of_contextAfter {rounds : List Round} {context : Option Context}
    (hbase : c.baseContinuity = none) (h : contextAfter c rounds = .ok context) :
    Begins c.missionText rounds context := by
  rcases hlast : rounds.getLast? with - | r
  · rw [contextAfter, hlast] at h
    refine ⟨fun _ => ?_, fun r hr => ?_⟩
    · rw [← Except.ok.inj h, hbase]
    · rw [hlast] at hr
      cases hr
  · rw [contextAfter, hlast] at h
    dsimp only at h
    rw [hbase] at h
    refine ⟨fun hnil => ?_, fun r' hr' => ?_⟩
    · rw [hnil] at hlast
      cases hlast
    · obtain rfl := Option.some.inj (hlast.symm.trans hr')
      exact (Except.ok.inj h).symm

/-- A context cannot be made where the history of the continuity is no list. -/
theorem ownHistory_of_contextAfter {rounds : List Round} {e : PyExc}
    (h : contextAfter c rounds = .error e) :
    ∃ base, c.baseContinuity = some base ∧ ownHistory base = .error e := by
  unfold contextAfter at h
  split at h
  · cases h
  · cases hbase : c.baseContinuity with
    | none =>
        rw [hbase] at h
        cases h
    | some base =>
        refine ⟨base, rfl, ?_⟩
        rw [hbase] at h
        cases hown : ownHistory base with
        | error e' =>
            rw [correctivePlannerContext, hown] at h
            cases h
            rfl
        | ok own =>
            rw [correctivePlannerContext, hown] at h
            cases h

/-- A plan with everything blank but its hash. -/
def blankMission (planHash : String) : MissionPlan where
  missionId := "mission-a"
  understanding := .str ""
  explicitFacts := .arr []
  missingContext := .arr []
  assumptionsProhibited := .arr []
  complexity := .str "low"
  assignments := []
  acceptanceCriteria := .arr []
  approvalBoundaries := .arr []
  estimatedTokens := .int 0
  estimatedCostClass := .str "low"
  rationale := .str ""
  approval := .obj [("status", .str "pending")]
  teachbackPolicy := .str "disabled"
  workspacePolicy := .obj []
  budget := .obj []
  governance := .obj []
  planHash := .str planHash
  missionConstraints := .arr []
  repositoryEvidence := .null

/-- A planner whose second plan is valid, and a `validate_plan` that knows it. -/
def secondTime : Nat → (o : PlanOp) → o.Ans × Nat
  | n, .buildPlan _ _ _ => (.ok (blankMission (toString n)), n + 1)
  | n, .extraValidate _ => (.ok [], n)
  | n, .validatePlan plan _ =>
      (.ok (if plan.planHash = .str "0" then ["estimated_tokens"] else []), n)
  | n, .onInvalidAttempt _ _ => (.ok (), n)

def planning : PlanCall where
  missionText := "leer"
  missionAuthorityTexts := none
  firstAttemptFeedback := none
  baseContinuity := none
  hasExtraValidate := true
  hasOnInvalidAttempt := true

end Planning

end Konoha
