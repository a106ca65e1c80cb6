/-
Protocol/Unchanged.lean

Missions whose plan does not change.  Starting without a state file, every
state the runtime writes is `Healthy`, and each one grows out of the one before
it (`written_states_healthy`).
-/
import KonohaRuntime.Protocol.History
import KonohaRuntime.Protocol.Replay
import KonohaRuntime.Runtime.Preservation

namespace Konoha

open Effects Json

variable {py : Stdlib} {m : String} {plan : MissionPlan} {f : File} {h : List Event}
variable {t : Tid} {fr : Frame} {inv : Invocation} {id : Option Digest} {s : ExecutionState}

/-! ### One step -/

theorem Ready.healthy_stay (hr : fr.state.status = .inProgress ∨
    fr.state.status = .waitingForApproval) : fr.state.status ≠ .completed := by
  rcases hr with hs | hs <;> simp [hs]

/-- What any move writes under the plan of a healthy state. -/
theorem Move.healthy (hm : Move py fr s) (hh : Healthy py fr.plan fr.state) :
    Healthy py fr.plan s ∧ Grows fr.state s := by
  cases hm with
  | recover diagnostic now hd hn =>
      have hs : fr.state.status ≠ .completed := by
        rcases hn with hv | ⟨-, hres⟩
        · rw [validate_eq_none_iff.mpr hh.coherent] at hv
          cases hv
        · intro hs
          rw [hs] at hres
          cases hres
      have hsame : SameProgress fr.state (recoveryResult fr.state diagnostic now.1) :=
        ⟨rfl, rfl, rfl, rfl, rfl⟩
      exact ⟨hh.stay hsame (hh.coherent.recovery _ hd) hs (by simp [recoveryResult]) hh.consumed,
        hsame.grows List.prefix_rfl⟩
  | block task now hr =>
      have hsame : SameProgress fr.state
          (transitionToBlocked fr.state task "mutation_runtime_not_supported" now.1) :=
        ⟨rfl, rfl, rfl, rfl, rfl⟩
      exact ⟨hh.stay hsame (hr.coherent.blocked hr.current (by decide))
        (Ready.healthy_stay hr.resumable) (by simp [transitionToBlocked]) hh.consumed,
        hsame.grows List.prefix_rfl⟩
  | fail task diagnostic consumed now hr hd =>
      have hsame : SameProgress fr.state
          (transitionToFailedBeforeExecution fr.state task diagnostic consumed now.1) :=
        ⟨rfl, rfl, rfl, rfl, rfl⟩
      exact ⟨hh.stay hsame (hr.coherent.failed hr.current consumed hd)
        (Ready.healthy_stay hr.resumable)
        (by simp [transitionToFailedBeforeExecution, stopAt]) (consume_nodup hh.consumed),
        hsame.grows (prefix_consume _ _)⟩

theorem Cleared.healthy (hc : Cleared py fr inv id) (hh : Healthy py fr.plan fr.state) :
    Healthy py fr.plan inv.executing ∧ Grows fr.state inv.executing := by
  obtain ⟨now, hnow⟩ := hc.executing
  have hsame : SameProgress fr.state inv.executing := by
    rw [hnow]
    exact ⟨rfl, rfl, rfl, rfl, rfl⟩
  have hcoh : Coherent py fr.plan inv.executing := by
    rw [hnow]
    cases hc.opened with
    | byPlan hgate happroved => exact hh.coherent.executingByPlan hc.ready.current hgate _
    | byHuman a hgiven ha => exact hh.coherent.executingByHuman hc.ready.current ha _
  have hconsumed : inv.executing.consumedApprovalIds = fr.state.consumedApprovalIds := by
    rw [hnow]
    rfl
  have hstatus : inv.executing.status ≠ .completed := by simp [hc.executing_status]
  exact ⟨hh.stay hsame hcoh (Ready.healthy_stay hc.ready.resumable) hstatus
    (hconsumed ▸ hh.consumed), hsame.grows (hconsumed ▸ List.prefix_rfl)⟩

theorem Cleared.current (hc : Cleared py fr inv id) :
    fr.plan.currentTask inv.executing = some inv.task := by
  obtain ⟨now, hnow⟩ := hc.executing
  rw [hnow]
  exact hc.ready.current

theorem Finish.healthy (hs : Finish fr inv id s) (hids : fr.plan.taskIds.Nodup)
    (hc : Cleared py fr inv id) (hh : Healthy py fr.plan inv.executing) :
    Healthy py fr.plan s ∧ Grows inv.executing s := by
  have hstatus : inv.executing.status ≠ .completed := by simp [hc.executing_status]
  obtain ⟨evidence, diagnostic, finishedAt, hd⟩ := hs
  unfold transitionAfterAssignment
  split
  · exact ⟨hh.completed hids hc.current evidence id _, grows_completed _ _ _⟩
  · have hsame : SameProgress inv.executing
        (transitionAfterBlockedAssignment inv.executing inv.task id diagnostic finishedAt.1) :=
      ⟨rfl, rfl, rfl, rfl, rfl⟩
    exact ⟨hh.stay hsame (hh.coherent.blockedAfter hc.current id hd) hstatus
      (by simp [transitionAfterBlockedAssignment, stopAt]) (consume_nodup hh.consumed),
      hsame.grows (prefix_consume _ _)⟩
  · have hsame : SameProgress inv.executing
        (transitionAfterFailedAssignment inv.executing inv.task id diagnostic finishedAt.1) :=
      ⟨rfl, rfl, rfl, rfl, rfl⟩
    exact ⟨hh.stay hsame (hh.coherent.failed hc.current id hd) hstatus
      (by simp [transitionAfterFailedAssignment, stopAt]) (consume_nodup hh.consumed),
      hsame.grows (prefix_consume _ _)⟩

/-! ### The run -/

/-- All states of a sequence, newest first, are healthy, and each grows out of
the one before it. -/
structure HealthyRun (py : Stdlib) (plan : MissionPlan) (ss : List ExecutionState) : Prop where
  healthy : ∀ s ∈ ss, Healthy py plan s
  grows : ss.IsChain fun new old => Grows old new

theorem HealthyRun.cons {ss : List ExecutionState} (hr : HealthyRun py plan ss)
    (hh : Healthy py plan s) (hg : ∀ old ∈ ss.head?, Grows old s) :
    HealthyRun py plan (s :: ss) where
  healthy := List.forall_mem_cons.mpr ⟨hh, hr.healthy⟩
  grows := List.isChain_cons.mpr ⟨hg, hr.grows⟩

/-- The state a call loads is healthy once it passes the checks, and if it does
not pass them nothing can be persisted. -/
theorem HealthyRun.loaded {P : Tid → Frame → Prop}
    (hr : HealthyRun py plan (writtenStates h)) (hl : Legal py m P .absent h f)
    (hf : Loads py m f fr) (hp : fr.plan = plan) (hne : plan.assignments ≠ []) :
    (∀ d, validateExecutionStateInvariants py fr.plan fr.state ≠ .ok (some d)) ∧
      (Coherent py fr.plan fr.state → Healthy py fr.plan fr.state) ∧
      ∀ old ∈ (writtenStates h).head?, old = fr.state := by
  subst hp
  rcases hl.loaded hf with ⟨hnil, now, hnew⟩ | hlast
  · rw [hnew, hnil]
    exact ⟨fun d => validate_newExecutionState hne _ d, healthy_newExecutionState, by simp⟩
  · have hh := hr.healthy fr.state (List.mem_of_mem_head? hlast)
    refine ⟨fun d hv => ?_, fun _ => hh, fun old hold => ?_⟩
    · rw [validate_eq_none_iff.mpr hh.coherent] at hv
      cases hv
    · exact Option.some.inj (hold.symm.trans hlast)

theorem Legal.healthyRun {P : Tid → Frame → Prop} (hP : ∀ t fr, P t fr → fr.plan = plan)
    (hne : plan.assignments ≠ []) (hids : plan.taskIds.Nodup)
    (hl : Legal py m P .absent h f) : HealthyRun py plan (writtenStates h) := by
  generalize hf₀ : File.absent = f₀ at hl
  induction hl with
  | start => exact ⟨by simp, List.isChain_nil⟩
  | draw n hl ih => exact ih
  | @move h f t fr s hl hp hf hm ih =>
      subst hf₀
      obtain ⟨hv, hcoh, hlast⟩ := ih.loaded hl hf (hP _ _ hp) hne
      obtain rfl := hP _ _ hp
      have hready : Coherent py fr.plan fr.state := by
        cases hm with
        | recover diagnostic now hd hn => exact hn.elim (fun h => absurd h (hv _)) fun h => h.1
        | block task now hr => exact hr.coherent
        | fail task diagnostic consumed now hr hd => exact hr.coherent
      obtain ⟨hh, hg⟩ := hm.healthy (hcoh hready)
      exact ih.cons hh fun old hold => hlast old hold ▸ hg
  | @wait h f t fr task n hl hp hf hr hs hg now ih =>
      subst hf₀
      obtain ⟨hv, hcoh, hlast⟩ := ih.loaded hl hf (hP _ _ hp) hne
      obtain rfl := hP _ _ hp
      have hsame : SameProgress fr.state
          (transitionToWaiting fr.state task n "esperando aprobación humana" now.1) :=
        ⟨rfl, rfl, rfl, rfl, rfl⟩
      refine ih.cons ((hcoh hr.coherent).stay hsame
        (hr.coherent.waiting hr.current hg n (by decide)) (Ready.healthy_stay hr.resumable)
        (by simp [transitionToWaiting]) (hcoh hr.coherent).consumed) fun old hold => ?_
      exact hlast old hold ▸ hsame.grows List.prefix_rfl
  | begin hl hp hf hc ih =>
      subst hf₀
      obtain ⟨hv, hcoh, hlast⟩ := ih.loaded hl hf (hP _ _ hp) hne
      obtain rfl := hP _ _ hp
      obtain ⟨hh, hg⟩ := hc.healthy (hcoh hc.ready.coherent)
      exact ih.cons hh fun old hold => hlast old hold ▸ hg
  | invoke hl hp hc ih => exact ih
  | finish hl hu hp hc hs ih =>
      obtain rfl := hP _ _ hp
      obtain ⟨rest, hrest⟩ := hu.writtenStates hl
      obtain ⟨hh, hg⟩ := hs.healthy hids hc (ih.healthy _ (by simp [hrest]))
      refine ih.cons hh fun old hold => ?_
      rw [hrest] at hold
      obtain rfl := Option.some.inj hold
      exact hg

/-- **Healthy states**: under a plan that stays the same, with some assignments
and distinct task ids, every state written since there was no state file passes
the checks, is completed exactly at the end, has evidence for exactly its
completed tasks and no approval consumed twice; and each extends the last. -/
theorem written_states_healthy {py : Stdlib} {calls : Tid → Call} {allowed : String → File → Prop}
    {f₀ : String → File} {w : World} {m : String} {plan : MissionPlan}
    (hplan : ∀ v, allowed m (.json v) → parsePlan py m v = .ok plan)
    (hne : plan.assignments ≠ []) (hids : plan.taskIds.Nodup) (hf₀ : f₀ m = .absent)
    (h : Reaches py calls allowed f₀ w) :
    (∀ s ∈ writtenStates (w m).events,
      validateExecutionStateInvariants py plan s = .ok none ∧
      (s.status = .completed ↔ s.nextAssignmentIndex = plan.assignments.length) ∧
      s.evidenceIdsByTask.map (·.1) = s.completedTaskIds ∧ s.consumedApprovalIds.Nodup) ∧
    (writtenStates (w m).events).IsChain fun new old => Grows old new := by
  have hl := runtime_legal h m
  rw [hf₀] at hl
  have hrun : HealthyRun py plan (writtenStates (w m).events) := by
    refine hl.healthyRun ?_ hne hids
    rintro t fr ⟨⟨v, hv, hp⟩, -⟩
    exact Except.ok.inj (hp.symm.trans (hplan v hv))
  refine ⟨fun s hs => ?_, hrun.grows⟩
  have hh := hrun.healthy s hs
  exact ⟨validate_eq_none_iff.mpr hh.coherent, hh.completed_iff, hh.keys, hh.consumed⟩

/-- The three states that the sample mission writes pass the checks. -/
theorem gatedRun_states_healthy :
    (writtenStates (gatedRun "mission-a").events).length = 3 ∧
      ∀ s ∈ writtenStates (gatedRun "mission-a").events,
        validateExecutionStateInvariants gatedStdlib gatedPlan s = .ok none := by
  constructor
  · obtain ⟨_, _, _, _, _, _, _, _, _, _, _, _, hevents, -⟩ := gatedRun_events
    rw [hevents]
    rfl
  intro s hs
  exact ((written_states_healthy (fun _ => parsePlan_unedited) (by decide) (by decide) rfl
    (reaches_sample gatedStdlib gatedCalls sampleHost gatedPlan 2)).1 s hs).1

end Konoha
