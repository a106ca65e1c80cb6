/-
Protocol/PlanGate.lean

The approval of the plan as a whole.  The gate `plan_approval` checks it, and so
does the source `mission_plan`; the gate `separate_human_approval` does not.  A
provider is therefore called under an approved plan except, at most, for a
separately gated assignment whose family does not require `mission_plan`.
-/
import KonohaRuntime.Protocol.History
import KonohaRuntime.Protocol.Replay

namespace Konoha

open Effects Json

/-- `plan.approval.get("status") == "approved"` -/
def PlanApproved (plan : MissionPlan) : Prop :=
  plan.approval.get "status" = .ok (.str "approved")

variable {py : Stdlib} {m : String} {P : Tid → Frame → Prop} {f₀ f : File} {h : List Event}
variable {t : Tid} {fr : Frame} {inv : Invocation} {id : Option Digest}

/-- A cleared assignment has passed a check of the plan's approval, or is
separately gated and of a family that does not ask for the plan. -/
theorem Cleared.approved (hc : Cleared py fr inv id) :
    PlanApproved fr.plan ∨
      inv.task.executionGate = separateHumanApproval ∧ ¬ Requires inv.family "mission_plan" := by
  cases hc.opened with
  | byPlan hgate happroved => exact .inl happroved
  | byHuman a hgiven ha =>
      by_cases hreq : Requires inv.family "mission_plan"
      · exact .inl (hc.sources.approved hreq)
      · exact .inr ⟨ha.gate.2.1, hreq⟩

/-- A provider call was cleared, in a frame its call can work with. -/
theorem Legal.invoked_cleared (hl : Legal py m P f₀ h f) (hinv : .invoked t fr inv ∈ h) :
    (∃ id, Cleared py fr inv id) ∧ P t fr := by
  obtain ⟨newer, older, rfl⟩ := List.append_of_mem hinv
  obtain ⟨f', hl'⟩ := hl.suffix
  obtain ⟨-, id, -, hc, hp⟩ := hl'.invoked_begin
  exact ⟨⟨id, hc⟩, hp⟩

/-- **The plan-level approval**: every provider call of a run was made under an
approved plan exactly when those were for separately gated assignments whose
family does not require `mission_plan`. -/
theorem provider_called_under_approved_plan_iff {py : Stdlib} {calls : Tid → Call}
    {allowed : String → File → Prop} {f₀ : String → File} {w : World}
    (h : Reaches py calls allowed f₀ w) (m : String) :
    (∀ t fr inv, .invoked t fr inv ∈ (w m).events → PlanApproved fr.plan) ↔
      ∀ t fr inv, .invoked t fr inv ∈ (w m).events →
        inv.task.executionGate = separateHumanApproval → ¬ Requires inv.family "mission_plan" →
          PlanApproved fr.plan := by
  constructor
  · intro hall t fr inv hinv _ _
    exact hall t fr inv hinv
  · intro hcond t fr inv hinv
    obtain ⟨⟨id, hc⟩, -⟩ := (runtime_legal h m).invoked_cleared hinv
    rcases hc.approved with happroved | ⟨hgate, hreq⟩
    · exact happroved
    · exact hcond t fr inv hinv hgate hreq

/-- The plan of the sample is approved, and the provider is called. -/
theorem gatedRun_plan_approved :
    (gatedRun "mission-a").events.any (fun e => e matches .invoked _ _ _) = true ∧
      ∀ t fr inv, .invoked t fr inv ∈ (gatedRun "mission-a").events → PlanApproved fr.plan := by
  have hreach := reaches_sample gatedStdlib gatedCalls sampleHost gatedPlan 2
  refine ⟨?_, (provider_called_under_approved_plan_iff hreach "mission-a").mpr ?_⟩
  · obtain ⟨_, _, _, _, _, _, _, _, _, _, _, _, hevents, -⟩ := gatedRun_events
    rw [hevents]
    rfl
  intro t fr inv hinv _ _
  obtain ⟨-, ⟨v, hv, hp⟩, -⟩ := (runtime_legal hreach "mission-a").invoked_cleared hinv
  have hplan : fr.plan = gatedPlan := Except.ok.inj (hp.symm.trans (parsePlan_unedited hv))
  rw [hplan]
  rfl

/-! ### A plan that nobody approved -/

/-- The sample plan before a human has decided on it. -/
def pendingPlan : MissionPlan :=
  samplePlan "pending" [sampleAssignment "t1" "separate_human_approval"]

/-- The two calls of the sample, on the pending plan: its identity is the same. -/
def pendingRun : World := replay gatedStdlib gatedCalls sampleHost (sampleWorld pendingPlan) 2

/-- The approval of the assignment is enough to call the provider. -/
theorem pendingRun_provider_called :
    Reaches gatedStdlib gatedCalls (unedited pendingPlan) (fun _ => .absent) pendingRun ∧
      (∃ t fr inv, .invoked t fr inv ∈ (pendingRun "mission-a").events) ∧
      ∀ t fr inv, .invoked t fr inv ∈ (pendingRun "mission-a").events →
        fr.plan.approval.get "status" = .ok (.str "pending") := by
  have hreach := reaches_sample gatedStdlib gatedCalls sampleHost pendingPlan 2
  refine ⟨hreach, ?_, ?_⟩
  · have hany : (pendingRun "mission-a").events.any (fun e => e matches .invoked _ _ _) = true := by
      decide +kernel
    obtain ⟨e, he, hinv⟩ := List.any_eq_true.mp hany
    cases e with
    | invoked t fr inv => exact ⟨t, fr, inv, he⟩
    | drew n => cases hinv
    | persisted t fr s => cases hinv
  · intro t fr inv hinv
    obtain ⟨-, ⟨v, hv, hp⟩, -⟩ := (runtime_legal hreach "mission-a").invoked_cleared hinv
    have hplan : fr.plan = pendingPlan := Except.ok.inj (hp.symm.trans (parsePlan_unedited hv))
    rw [hplan]
    rfl

end Konoha
