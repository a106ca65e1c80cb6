/-
Protocol/Dependencies.lean

The dependencies of an assignment that is run.

The executor goes through the assignments in the order of the list and never
looks at the dependencies to do so; `validate_plan` does not look at them either.
A dependency is therefore completed when its assignment is run exactly if it
stands before it in the list (`dependencies_met_iff`).
-/
import KonohaRuntime.Protocol.PlanGate
import KonohaRuntime.Planning.MissionFiles

namespace Konoha

open Effects Json

/-- The task ids of the list `dependencies`. -/
def AgentAssignment.dependencyIds (task : AgentAssignment) : List Json :=
  match task.dependencies with
  | .arr ids => ids
  | _ => []

/-- All dependencies of the task are in the list, by Python's equality. -/
def DependsWithin (task : AgentAssignment) (ids : List Json) : Prop :=
  ∀ id ∈ task.dependencyIds, ids.any (Planning.pyEq id) = true

instance (task : AgentAssignment) (ids : List Json) : Decidable (DependsWithin task ids) := by
  unfold DependsWithin; infer_instance

/-- The assignment at this place of the plan depends on assignments before it
only. -/
def DependsOnEarlier (plan : MissionPlan) (position : Nat) : Prop :=
  ∀ task ∈ plan.assignments[position]?, DependsWithin task (plan.taskIds.take position)

variable {py : Stdlib} {fr : Frame} {inv : Invocation} {id : Option Digest}

/-- The completed tasks of a cleared assignment are those before it in the plan. -/
theorem Cleared.completed_eq_take (hc : Cleared py fr inv id) :
    inv.executing.completedTaskIds = fr.plan.taskIds.take fr.state.nextAssignmentIndex := by
  obtain ⟨now, hexecuting⟩ := hc.executing
  have hcoherent := hc.ready.coherent
  rw [hexecuting, hcoherent.cursor, hcoherent.isPrefix]
  rfl

/-- A cleared assignment finds its dependencies completed exactly if they stand
before it. -/
theorem Cleared.dependsWithin_iff (hc : Cleared py fr inv id) :
    DependsWithin inv.task inv.executing.completedTaskIds ↔
      DependsOnEarlier fr.plan fr.state.nextAssignmentIndex := by
  have hcurrent : fr.plan.assignments[fr.state.nextAssignmentIndex]? = some inv.task :=
    hc.ready.current
  rw [hc.completed_eq_take, DependsOnEarlier, hcurrent]
  constructor
  · intro h task htask
    obtain rfl := Option.some.inj htask
    exact h
  · intro h
    exact h inv.task rfl

/-- **The dependencies of a run**: in every run, all dependencies of all
assignments are completed when their assignment is invoked if and only if no
assignment that is invoked depends on itself, a later one or an unknown one. -/
theorem dependencies_met_iff {py : Stdlib} {calls : Tid → Call}
    {allowed : String → File → Prop} {f₀ : String → File} {w : World}
    (h : Reaches py calls allowed f₀ w) (m : String) :
    (∀ t fr inv, .invoked t fr inv ∈ (w m).events →
        DependsWithin inv.task inv.executing.completedTaskIds) ↔
      ∀ t fr inv, .invoked t fr inv ∈ (w m).events →
        DependsOnEarlier fr.plan fr.state.nextAssignmentIndex := by
  have hiff : ∀ t fr inv, .invoked t fr inv ∈ (w m).events →
      (DependsWithin inv.task inv.executing.completedTaskIds ↔
        DependsOnEarlier fr.plan fr.state.nextAssignmentIndex) := by
    intro t fr inv hinv
    obtain ⟨⟨id, hc⟩, -⟩ := (runtime_legal h m).invoked_cleared hinv
    exact hc.dependsWithin_iff
  constructor
  · intro hall t fr inv hinv
    exact (hiff t fr inv hinv).mp (hall t fr inv hinv)
  · intro hall t fr inv hinv
    exact (hiff t fr inv hinv).mpr (hall t fr inv hinv)

/-- The sample calls the provider, and has no dependencies. -/
theorem gatedRun_dependencies_met :
    (∃ t fr inv, .invoked t fr inv ∈ (gatedRun "mission-a").events) ∧
      ∀ t fr inv, .invoked t fr inv ∈ (gatedRun "mission-a").events →
        DependsWithin inv.task inv.executing.completedTaskIds := by
  have hreach := reaches_sample gatedStdlib gatedCalls sampleHost gatedPlan 2
  refine ⟨?_, (dependencies_met_iff hreach "mission-a").mpr ?_⟩
  · obtain ⟨t, fr, inv, _, _, _, _, _, _, _, _, _, hevents, -⟩ := gatedRun_events
    exact ⟨t, fr, inv, hevents ▸ .tail _ (.head _)⟩
  intro t fr inv hinv
  obtain ⟨-, ⟨v, hv, hp⟩, -⟩ := (runtime_legal hreach "mission-a").invoked_cleared hinv
  have hplan : fr.plan = gatedPlan := Except.ok.inj (hp.symm.trans (parsePlan_unedited hv))
  rw [hplan]
  intro task htask
  obtain rfl : task = sampleAssignment "t1" "separate_human_approval" := by
    have hmem := List.mem_of_getElem? htask
    exact List.mem_singleton.mp hmem
  exact fun id hid => absurd hid (List.not_mem_nil)

/-! ### A task that depends on itself -/

/-- The plan as a human approves it. -/
def approvedPlan (plan : MissionPlan) : MissionPlan :=
  { plan with approval := .obj [("status", .str "approved")] }

/-- One call for the mission. -/
def oneCall : Tid → Call := fun _ => ⟨"mission-a", .absent⟩

/-- The plan of one task, whose dependency is the task. -/
def circularPlan : MissionPlan := Planning.acceptedPlan "mission-a" (.arr [.str "t1"])

def circularRun : World :=
  replay Planning.sampleValidator.py oneCall sampleHost (sampleWorld (approvedPlan circularPlan)) 1

/-- The plan is accepted, and its task is invoked with nothing completed. -/
theorem circularRun_evaluates :
    Planning.validatePlan Planning.sampleValidator none none circularPlan = .ok [] ∧
      (circularRun "mission-a").events.any (fun e => match e with
        | .invoked _ _ inv => !decide (DependsWithin inv.task inv.executing.completedTaskIds)
        | _ => false) = true := by
  decide +kernel

/-- **A plan that is accepted, approved and run has a dependency that is not met.** -/
theorem accepted_plan_unordered : ¬ ∀ (env : Planning.Validator)
    (readiness : Option (List (String × Json))) (texts : Option (List String)) (plan : MissionPlan)
    (calls : Tid → Call) (w : World) (m : String),
    Planning.validatePlan env readiness texts plan = .ok [] →
    Reaches env.py calls (unedited (approvedPlan plan)) (fun _ => .absent) w →
    ∀ t fr inv, .invoked t fr inv ∈ (w m).events →
      DependsWithin inv.task inv.executing.completedTaskIds := by
  intro h
  have hall := h Planning.sampleValidator none none circularPlan oneCall circularRun "mission-a"
    circularRun_evaluates.1 (reaches_sample _ _ sampleHost _ 1)
  obtain ⟨e, he, hinv⟩ := List.any_eq_true.mp circularRun_evaluates.2
  cases e with
  | invoked t fr inv =>
      dsimp only at hinv
      rw [decide_eq_true (hall t fr inv he)] at hinv
      cases hinv
  | drew n => cases hinv
  | persisted t fr s => cases hinv

end Konoha
