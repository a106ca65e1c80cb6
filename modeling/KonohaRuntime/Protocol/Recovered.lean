/-
Protocol/Recovered.lean

What comes after `recovery_required`.

A recovery changes the status and keeps the other fields, and the next call
checks them again before it looks at the status.  So it is final (`Final`)
exactly when the state that had been loaded passes the checks that do not depend
on the status (`Consistent`, `recovery_final_iff`): after an interruption, with
corrupt evidence, and also where only the fields of the old status were wrong
(`statusDiagnostics`), but not after plan drift, a cursor that does not fit and
the like.  These are found and written again with every call.
-/
import KonohaRuntime.Protocol.ReadBack
import KonohaRuntime.Protocol.Stages

namespace Konoha

open Effects Json

/-- Whatever a call does that has found this plan and this state: it reports
that the status is not resumable, and performs no operation. -/
def Final (py : Stdlib) (plan : MissionPlan) (s : ExecutionState) : Prop :=
  ∀ (now : Timestamp) (approval : ApprovalArg), resume py now ⟨plan, s, approval⟩ =
    .ret ⟨some s, [], "non_resumable_status:recovery_required"⟩

/-- The frame of the call that caused the event. -/
def Event.frame : Event → Option Frame
  | .drew _ => none
  | .persisted _ fr _ => some fr
  | .invoked _ fr _ => some fr

/-- Nothing is persisted and nothing is invoked. -/
def Quiet (h : List Event) : Prop := ∀ e ∈ h, ∃ n, e = .drew n

variable {py : Stdlib} {m : String} {P : Tid → Frame → Prop} {f₀ f : File}
variable {t : Tid} {fr : Frame} {s : ExecutionState} {newer older : List Event}

theorem Quiet.writtenStates_append (hq : Quiet newer) (t : Tid) (fr : Frame) (s : ExecutionState)
    (older : List Event) :
    writtenStates (newer ++ .persisted t fr s :: older) = s :: writtenStates older := by
  induction newer with
  | nil => rfl
  | cons e newer ih =>
      obtain ⟨n, rfl⟩ := hq e List.mem_cons_self
      exact ih fun e he => hq e (List.mem_cons_of_mem _ he)

/-! ### What a recovery keeps -/

/-- The checks of a state under a plan that do not depend on the status. -/
structure Consistent (py : Stdlib) (plan : MissionPlan) (s : ExecutionState) : Prop where
  missionId : s.missionId = plan.missionId
  planIdentity : s.planIdentity = planIdentity py plan
  nonempty : plan.assignments ≠ []
  nodup : s.completedTaskIds.Nodup
  isPrefix : plan.taskIds.take s.completedTaskIds.length = s.completedTaskIds
  cursor : s.nextAssignmentIndex = s.completedTaskIds.length
  hashable : plan.taskIds.all Json.hashable = true
  referenced : ∀ id ∈ s.referencedTaskIds, id ∈ plan.taskIds
  nonce : ∀ n ∈ s.approvalNonce, isHex 32 n.toList = true
  active : ∀ id ∈ s.activeApprovalId, id ∉ s.consumedApprovalIds

theorem coherent_iff {plan : MissionPlan} :
    Coherent py plan s ↔ Consistent py plan s ∧ statusError plan s = none :=
  ⟨fun h => ⟨⟨h.missionId, h.planIdentity, h.nonempty, h.nodup, h.isPrefix, h.cursor, h.hashable,
      h.referenced, h.nonce, h.active⟩, h.status⟩,
    fun ⟨h, hstatus⟩ => ⟨h.missionId, h.planIdentity, h.nonempty, h.nodup, h.isPrefix, h.cursor,
      h.hashable, h.referenced, h.nonce, h.active, hstatus⟩⟩

/-- What is found wrong with a consistent state depends on its status alone. -/
theorem Consistent.validate {plan : MissionPlan} (h : Consistent py plan s) :
    validateExecutionStateInvariants py plan s = .ok (statusError plan s) := by
  have hlength : ¬ plan.assignments.length < s.nextAssignmentIndex := by
    have hlen := congrArg List.length h.isPrefix
    rw [List.length_take, MissionPlan.taskIds, List.length_map] at hlen
    rw [h.cursor]
    omega
  have hv : verifyPrefix plan s = none :=
    verifyPrefix_eq_none.mpr ⟨h.nodup, h.isPrefix, h.cursor⟩
  have ha : ¬ ∃ id ∈ s.activeApprovalId, id ∈ s.consumedApprovalIds := by
    rintro ⟨id, hid, hmem⟩
    exact h.active id hid hmem
  unfold validateExecutionStateInvariants
  rw [if_neg (not_not.mpr h.missionId), if_neg (not_not.mpr h.planIdentity),
    if_neg h.nonempty, if_neg hlength, hv]
  dsimp only
  rw [if_neg (not_not.mpr h.hashable), if_neg (not_not.mpr h.referenced),
    if_neg (not_not.mpr h.nonce), if_neg ha]

/-- What is found wrong with an inconsistent state is found whatever its status is. -/
theorem validate_recovery {plan : MissionPlan} (h : ¬ Consistent py plan s) (d now : String) :
    validateExecutionStateInvariants py plan (recoveryResult s d now) =
      validateExecutionStateInvariants py plan s := by
  unfold validateExecutionStateInvariants
  have hv : verifyPrefix plan (recoveryResult s d now) = verifyPrefix plan s := rfl
  have hr : (recoveryResult s d now).referencedTaskIds = s.referencedTaskIds := rfl
  rw [hv, hr]
  dsimp only [recoveryResult]
  refine if_ctx_congr Iff.rfl (fun _ => rfl) fun hm => ?_
  refine if_ctx_congr Iff.rfl (fun _ => rfl) fun hi => ?_
  refine if_ctx_congr Iff.rfl (fun _ => rfl) fun hne => ?_
  refine if_ctx_congr Iff.rfl (fun _ => rfl) fun _ => ?_
  rcases hprefix : verifyPrefix plan s with _ | diagnostic
  · dsimp only
    obtain ⟨hnd, hpre, hcur⟩ := verifyPrefix_eq_none.mp hprefix
    refine if_ctx_congr Iff.rfl (fun _ => rfl) fun hh => ?_
    refine if_ctx_congr Iff.rfl (fun _ => rfl) fun href => ?_
    refine if_ctx_congr Iff.rfl (fun _ => rfl) fun hn => ?_
    refine if_ctx_congr Iff.rfl (fun _ => rfl) fun ha => ?_
    exact absurd ⟨not_not.mp hm, not_not.mp hi, hne, hnd, hpre, hcur, not_not.mp hh,
      not_not.mp href, not_not.mp hn, fun id hid hmem => ha ⟨id, hid, hmem⟩⟩ h
  · rfl

/-- A recovery is as consistent as the state was, and the diagnostic is all that its status asks for. -/
theorem coherent_recovery_iff {plan : MissionPlan} {d now : String} (hd : nonBlank d = true) :
    Coherent py plan (recoveryResult s d now) ↔ Consistent py plan s := by
  have hstatus : statusError plan (recoveryResult s d now) = none := unlessHolds_eq_none.mpr hd
  rw [coherent_iff, and_iff_left hstatus]
  exact ⟨fun h => ⟨h.missionId, h.planIdentity, h.nonempty, h.nodup, h.isPrefix, h.cursor,
      h.hashable, h.referenced, h.nonce, h.active⟩,
    fun h => ⟨h.missionId, h.planIdentity, h.nonempty, h.nodup, h.isPrefix, h.cursor, h.hashable,
      h.referenced, h.nonce, h.active⟩⟩

/-- The diagnostics of the checks that depend on the status. -/
def statusDiagnostics : List String :=
  ["invalid_state_for_in_progress", "invalid_state_for_waiting_for_approval",
   "invalid_state_for_executing", "invalid_state_for_completed", "invalid_state_for_failed",
   "invalid_state_for_blocked", "invalid_state_for_recovery_required"]

theorem statusError_mem {plan : MissionPlan} {d : String} (h : statusError plan s = some d) :
    d ∈ statusDiagnostics := by
  have hunless : ∀ {p : Prop} [Decidable p] {d' : String}, unlessHolds p d' = some d → d' = d := by
    intro p _ d' hd
    rw [unlessHolds] at hd
    split_ifs at hd
    exact Option.some.inj hd
  unfold statusError at h
  cases hs : s.status <;>
    · rw [hs] at h
      rw [← hunless h]
      decide

/-- **Which failed checks a recovery gets over**: those of the old status. -/
theorem consistent_iff_diagnostic {plan : MissionPlan} {d : String}
    (h : validateExecutionStateInvariants py plan s = .ok (some d)) :
    Consistent py plan s ↔ d ∈ statusDiagnostics := by
  constructor
  · intro hc
    rw [hc.validate] at h
    exact statusError_mem (Except.ok.inj h)
  · intro hd
    by_contra hc
    -- the diagnostic of each earlier check is another one
    have hother : d ∈ ["mission_id_mismatch", "plan_drift", "empty_plan_assignments",
        "cursor_out_of_range", "completed_task_ids_duplicated",
        "completed_task_ids_not_a_prefix", "cursor_index_mismatch", "unknown_referenced_task",
        "invalid_approval_nonce", "active_approval_id_already_consumed"] := by
      unfold validateExecutionStateInvariants at h
      split at h
      · cases h; decide
      split at h
      · cases h; decide
      split at h
      · cases h; decide
      split at h
      · cases h; decide
      rename_i hm hi hne _
      split at h
      · rename_i hprefix
        cases h
        unfold verifyPrefix at hprefix
        split_ifs at hprefix <;> cases hprefix <;> decide
      rename_i hprefix
      obtain ⟨hnd, hpre, hcur⟩ := verifyPrefix_eq_none.mp hprefix
      split at h
      · cases h
      split at h
      · cases h; decide
      split at h
      · cases h; decide
      split at h
      · cases h; decide
      rename_i hh href hn ha
      exact absurd ⟨not_not.mp hm, not_not.mp hi, hne, hnd, hpre, hcur, not_not.mp hh,
        not_not.mp href, not_not.mp hn, fun id hid hmem => ha ⟨id, hid, hmem⟩⟩ hc
    revert hd hother
    simp only [statusDiagnostics, List.mem_cons, List.not_mem_nil, or_false]
    rintro (rfl | rfl | rfl | rfl | rfl | rfl | rfl) <;> decide

/-! ### One call -/

/-- The dispatch is on the checks first. -/
theorem final_iff {plan : MissionPlan} (hs : s.status = .recoveryRequired) :
    Final py plan s ↔ Coherent py plan s := by
  rw [← validate_eq_none_iff]
  constructor
  · intro hfinal
    have hreport := hfinal ⟨"2026-01-01T00:00:00+00:00", by decide +kernel⟩ .absent
    rw [resume] at hreport
    dsimp only at hreport
    rcases hv : validateExecutionStateInvariants py plan s with e | ⟨_ | d⟩
    · rw [hv] at hreport
      cases hreport
    · rfl
    · -- the recovery begins with a check of the directory, or raises
      rw [hv] at hreport
      change recover py _ _ d = _ at hreport
      rw [recover, settle, trySaveExecutionState, saveExecutionState, missionDir] at hreport
      split_ifs at hreport <;> cases hreport
  · intro hv now approval
    rw [resume]
    dsimp only
    rw [hv, hs]
    rfl

/-- A call that has loaded such a state can persist nothing. -/
theorem Coherent.settled (hc : Coherent py fr.plan fr.state)
    (hs : fr.state.status = .recoveryRequired) :
    (∀ s', ¬ Move py fr s') ∧ ∀ task, ¬ Ready py fr task := by
  have hready : ∀ task, ¬ Ready py fr task := by
    intro task hr
    rcases hr.resumable with h | h <;> cases hs.symm.trans h
  refine ⟨fun s' hm => ?_, hready⟩
  cases hm with
  | recover diagnostic now hd hn =>
      rcases hn with hv | ⟨-, hres⟩
      · rw [validate_eq_none_iff.mpr hc] at hv
        cases hv
      · rw [hs] at hres
        cases hres
  | block task now hr => exact hready task hr
  | fail task diagnostic consumed now hr hd => exact hready task hr

/-! ### The runs -/

theorem Finish.status_mem {inv : Invocation} {id : Option Digest} (hs : Finish fr inv id s) :
    s.status ∈ finalStatuses := by
  obtain ⟨evidence, diagnostic, finishedAt, hd⟩ := hs
  exact status_transitionAfterAssignment _ _ _ _ _ _ _

/-- After a final recovery the calls that find the same plan persist and invoke
nothing. -/
theorem Legal.quiet {plan : MissionPlan} (hc : Coherent py plan s)
    (hs : s.status = .recoveryRequired)
    (hl : Legal py m P f₀ (newer ++ .persisted t fr s :: older) f)
    (hsame : ∀ e ∈ newer, ∀ fr' ∈ e.frame, fr'.plan = plan) : Quiet newer := by
  induction newer generalizing f with
  | nil => exact fun e he => absurd he List.not_mem_nil
  | cons e newer ih =>
      obtain ⟨f', hl'⟩ := Legal.tail hl
      have hq : Quiet newer := ih hl' fun e he => hsame e (List.mem_cons_of_mem _ he)
      have hwritten := hq.writtenStates_append t fr s older
      -- the state that a later call loads
      have hfound : ∀ {fr' : Frame} {f' : File}, fr'.plan = plan →
          Legal py m P f₀ (newer ++ .persisted t fr s :: older) f' → Loads py m f' fr' →
          (∀ s', ¬ Move py fr' s') ∧ ∀ task, ¬ Ready py fr' task := by
        intro fr' f' hplan hl' hf
        obtain ⟨rfl, -⟩ := hl'.loads_eq hf hwritten
        subst hplan
        exact hc.settled hs
      have hplan := hsame e List.mem_cons_self
      suffices h : ∃ n, e = .drew n from List.forall_mem_cons.mpr ⟨h, hq⟩
      generalize hhistory : newer ++ .persisted t fr s :: older = h at hl hl' hfound hwritten
      rw [List.cons_append, hhistory] at hl
      cases hl with
      | draw n hl => exact ⟨n, rfl⟩
      | move hl hp hf hm => exact absurd hm ((hfound (hplan _ rfl) hl hf).1 _)
      | wait hl hp hf hr hst hg now => exact absurd hr ((hfound (hplan _ rfl) hl hf).2 _)
      | begin hl hp hf hcl => exact absurd hcl.ready ((hfound (hplan _ rfl) hl hf).2 _)
      | invoke hl hp hcl =>
          rw [writtenStates_persisted] at hwritten
          obtain ⟨rfl, -⟩ := List.cons.inj hwritten
          cases hs.symm.trans hcl.executing_status
      | finish hl hu hp hcl hfin =>
          obtain ⟨rest, hrest⟩ := hu.writtenStates hl
          obtain ⟨rfl, -⟩ := List.cons.inj (hrest.symm.trans hwritten)
          cases hs.symm.trans hcl.executing_status

/-- A recovery that was persisted is the one of the loaded state. -/
theorem Legal.recovered (hl : Legal py m P f₀ (.persisted t fr s :: older) f)
    (hmission : ∀ t fr, P t fr → fr.plan.missionId = m) (hs : s.status = .recoveryRequired) :
    Readable m s ∧ ∃ d, ∃ now : Timestamp, nonBlank d = true ∧ NeedsRecovery py fr d ∧
      s = recoveryResult fr.state d now.1 := by
  cases hl with
  | move hl hp hf hm =>
      have hreadable := hf.readable (hmission t fr hp)
      cases hm with
      | recover diagnostic now hd hn =>
          exact ⟨hreadable.recovery hd now, diagnostic, now, hd, hn, rfl⟩
      | block task now hr => cases hs
      | fail task diagnostic consumed now hr hd => cases hs
  | wait hl hp hf hr hst hg now => cases hs
  | begin hl hp hf hcl => cases hs.symm.trans hcl.executing_status
  | finish hl hu hp hcl hfin =>
      have hstatus := hfin.status_mem
      rw [hs] at hstatus
      exact absurd hstatus (by decide)

/-- **When a recovery is final**: the state can be read back; every later call
that finds the plan and this state reports that it is not resumable if and only
if the state that had been loaded is consistent.  Then nothing is persisted and
nothing invoked as long as the calls find that plan; otherwise each of them
recovers the state again, with the same diagnostic. -/
theorem recovery_final_iff {py : Stdlib} {calls : Tid → Call} {allowed : String → File → Prop}
    {f₀ : String → File} {w : World} (h : Reaches py calls allowed f₀ w) {m : String} {t : Tid}
    {fr : Frame} {s : ExecutionState} {newer older : List Event}
    (hevents : (w m).events = newer ++ .persisted t fr s :: older)
    (hs : s.status = .recoveryRequired) :
    parseExecutionState py m (s.asdict py) = .ok s ∧
      (Final py fr.plan s ↔ Consistent py fr.plan fr.state) ∧
      (Consistent py fr.plan fr.state → (∀ e ∈ newer, ∀ fr' ∈ e.frame, fr'.plan = fr.plan) →
        Quiet newer ∧ (w m).state = .json (s.asdict py)) ∧
      (¬ Consistent py fr.plan fr.state → ∃ d ∈ s.diagnostic, ∀ (now : Timestamp)
        (approval : ApprovalArg), resume py now ⟨fr.plan, s, approval⟩ =
          recover py now ⟨fr.plan, s, approval⟩ d) := by
  have hl := runtime_legal h m
  rw [hevents] at hl
  obtain ⟨f, hl'⟩ := Legal.suffix hl
  obtain ⟨hreadable, d, now, hd, hn, hrecovery⟩ :=
    hl'.recovered (fun _ _ ⟨⟨_, _, hv⟩, _⟩ => parsePlan_missionId hv) hs
  have hcoherent : Coherent py fr.plan s ↔ Consistent py fr.plan fr.state :=
    hrecovery ▸ coherent_recovery_iff hd
  refine ⟨?_, (final_iff hs).trans hcoherent, fun hc hsame => ?_, fun hc => ?_⟩
  · have hmem : s ∈ writtenStates (.persisted t fr s :: older) := List.mem_cons_self
    exact (hl'.evidenceKeys s hmem).parse.mpr ⟨hreadable, rfl⟩
  · have hq := hl.quiet (hcoherent.mpr hc) hs hsame
    refine ⟨hq, ?_⟩
    have hwritten := hq.writtenStates_append t fr s older
    rcases hl.file with ⟨hnil, -⟩ | ⟨s', rest, hw, hf⟩
    · cases hwritten.symm.trans hnil
    · obtain ⟨rfl, -⟩ := List.cons.inj (hwritten.symm.trans hw)
      exact hf
  · rcases hn with hv | ⟨hcoh, -⟩
    · refine ⟨d, hrecovery ▸ rfl, fun now' approval => ?_⟩
      have hv' : validateExecutionStateInvariants py fr.plan s = .ok (some d) :=
        hrecovery ▸ (validate_recovery hc d now.1).trans hv
      rw [resume]
      dsimp only
      rw [hv']
      rfl
    · exact absurd (coherent_iff.mp hcoh).1 hc

/-! ### Two recoveries -/

/-- One assignment under an approved plan. -/
def resumedPlan : MissionPlan := samplePlan "approved" [sampleAssignment "t1" "plan_approval"]

/-- All digests are one. -/
def oneDigest : Stdlib := { sampleStdlib outputDigest outputDigest with sha256 := fun _ => outputDigest }

/-- The sample mission with a state file. -/
def heldWorld (s : ExecutionState) : World := fun m =>
  { sampleWorld resumedPlan m with
    state := if m = resumedPlan.missionId then .json (s.asdict oneDigest) else .absent }

/-- Calls one after the other on that mission. -/
def heldRun (s : ExecutionState) (n : Nat) : World :=
  replay oneDigest (fun _ => ⟨"mission-a", .absent⟩) sampleHost (heldWorld s) n

theorem reaches_heldRun (s : ExecutionState) (n : Nat) :
    Reaches oneDigest (fun _ => ⟨"mission-a", .absent⟩) (unedited resumedPlan)
      (fun m => (heldWorld s m).state) (heldRun s n) := by
  have hinit : Initial (unedited resumedPlan) (fun m => (heldWorld s m).state) (heldWorld s) :=
    ⟨fun _ => rfl, fun _ => rfl, fun _ => rfl, fun _ => rfl⟩
  exact reaches_replay sampleHost hinit n

/-- The state of a call that has been interrupted. -/
def brokenOff : ExecutionState :=
  transitionToExecuting (newExecutionState oneDigest resumedPlan "2026-01-01T00:00:00+00:00")
    (sampleAssignment "t1" "plan_approval") none "2026-01-01T00:00:00+00:00"

/-- A state of another plan. -/
def drifted : ExecutionState :=
  { newExecutionState oneDigest resumedPlan "2026-01-01T00:00:00+00:00" with
    planIdentity := gatedPlanDigest }

/-- The event is a recovery, of a state that passes the checks or does not. -/
def recovers (passes : Bool) : Event → Bool
  | .persisted _ fr s => decide (s.status = .recoveryRequired) && decide (fr.plan = resumedPlan) &&
      (match validateExecutionStateInvariants oneDigest fr.plan fr.state with
        | .ok none => passes
        | _ => !passes)
  | _ => false

theorem recovers_eq_true {e : Event} {passes : Bool} (h : recovers passes e = true) :
    ∃ t fr s, e = .persisted t fr s ∧ s.status = .recoveryRequired ∧ fr.plan = resumedPlan ∧
      (Coherent oneDigest fr.plan fr.state ↔ passes = true) := by
  cases e with
  | drew n => cases h
  | invoked t fr inv => cases h
  | persisted t fr s =>
      simp only [recovers, Bool.and_eq_true, decide_eq_true_eq] at h
      obtain ⟨⟨hs, hplan⟩, hpasses⟩ := h
      refine ⟨t, fr, s, rfl, hs, hplan, ?_⟩
      rw [← validate_eq_none_iff]
      rcases hv : validateExecutionStateInvariants oneDigest fr.plan fr.state with e | ⟨_ | d⟩
      all_goals
        rw [hv] at hpasses
        cases passes <;> simp_all

/-- One evaluation of both: the first is recovered once, the second with every call. -/
theorem heldRun_evaluates :
    (match (heldRun brokenOff 1 "mission-a").events with
      | [e] => recovers true e
      | _ => false) = true ∧
    (match (heldRun drifted 2 "mission-a").events with
      | [e', e] => recovers false e && recovers false e'
      | _ => false) = true := by
  decide +kernel

/-- **An interruption** leaves a final state. -/
theorem brokenOff_final : ∃ t fr s,
    (heldRun brokenOff 1 "mission-a").events = [.persisted t fr s] ∧ Final oneDigest fr.plan s := by
  have h := heldRun_evaluates.1
  split at h
  · rename_i e hevents
    obtain ⟨t, fr, s, rfl, hs, -, hc⟩ := recovers_eq_true h
    refine ⟨t, fr, s, hevents, ?_⟩
    exact (@recovery_final_iff _ _ _ _ _ (reaches_heldRun brokenOff 1) _ _ _ _ [] _ hevents hs).2.1.mpr
      (coherent_iff.mp (hc.mpr rfl)).1
  · cases h

/-- **Plan drift** is recovered again by the next call that finds the plan. -/
theorem drifted_not_final : ¬ ∀ (py : Stdlib) (calls : Tid → Call)
    (allowed : String → File → Prop) (f₀ : String → File) (w : World) (m : String) (t : Tid)
    (fr : Frame) (s : ExecutionState) (newer older : List Event), Reaches py calls allowed f₀ w →
    (w m).events = newer ++ .persisted t fr s :: older → s.status = .recoveryRequired →
    (∀ e ∈ newer, ∀ fr' ∈ e.frame, fr'.plan = fr.plan) → Quiet newer ∧ Final py fr.plan s := by
  intro hall
  have h := heldRun_evaluates.2
  split at h
  · rename_i e' e hevents
    obtain ⟨h, h'⟩ := Bool.and_eq_true_iff.mp h
    obtain ⟨t, fr, s, rfl, hs, hplan, -⟩ := recovers_eq_true h
    obtain ⟨t', fr', s', rfl, -, hplan', -⟩ := recovers_eq_true h'
    have hsame : ∀ e ∈ [Event.persisted t' fr' s'], ∀ fr₁ ∈ e.frame, fr₁.plan = fr.plan := by
      rintro e he fr₁ hfr₁
      obtain rfl := List.mem_singleton.mp he
      obtain rfl := Option.some.inj hfr₁
      rw [hplan', hplan]
    obtain ⟨n, hn⟩ := (hall _ _ _ _ _ "mission-a" t fr s [.persisted t' fr' s'] []
      (reaches_heldRun drifted 2) hevents hs hsame).1 _ List.mem_cons_self
    cases hn
  · cases h

end Konoha
