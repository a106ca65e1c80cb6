/-
Protocol/AtMostOnce.lean

At-most-once execution, from the ledger to the runtime: the provider is called
at most once for each position of a mission, whatever the interleaving, the
failures, the deaths, the edits of `plan.json` and the approvals.

The positions that a history begins are those of the ledger it refines, so they
are distinct; each provider call stands right after its own begin, so the
positions of the calls are a sublist of them.
-/
import KonohaRuntime.Protocol.History
import KonohaRuntime.Protocol.Replay

namespace Konoha

open Effects

/-- The position at which an event calls the provider. -/
def Event.invokedPosition : Event → Option Nat
  | .invoked _ _ inv => some inv.executing.nextAssignmentIndex
  | .drew _ => none
  | .persisted _ _ _ => none

/-- The positions at which a history calls the provider, newest first. -/
def invokedPositions (h : List Event) : List Nat := h.filterMap Event.invokedPosition

/-- The positions that a history begins, newest first. -/
def begunPositions (h : List Event) : List Nat :=
  Ledger.begun ((writtenStates h).map ExecutionState.ledger)

variable {py : Stdlib} {m : String} {P : Tid → Frame → Prop} {f₀ f : File} {h : List Event}
variable {t : Tid} {fr : Frame} {inv : Invocation} {id : Option Digest} {s : ExecutionState}

theorem begunPositions_begin (t : Tid) (fr : Frame) (h : List Event) (hs : s.status = .executing) :
    begunPositions (.persisted t fr s :: h) = s.nextAssignmentIndex :: begunPositions h := by
  simp [begunPositions, Ledger.begun, ExecutionState.ledger, hs]

theorem begunPositions_append (h h' : List Event) :
    begunPositions (h ++ h') = begunPositions h ++ begunPositions h' := by
  simp [begunPositions, Ledger.begun, writtenStates, List.filterMap_append]

/-- No position is begun twice. -/
theorem Legal.begun_nodup (hl : Legal py m P f₀ h f) : (begunPositions h).Nodup :=
  hl.trace.begun_nodup

/-- The run of an invocation is at the position of its task. -/
theorem Cleared.position (hc : Cleared py fr inv id) :
    inv.executing.nextAssignmentIndex = fr.state.nextAssignmentIndex ∧
      fr.plan.assignments[inv.executing.nextAssignmentIndex]? = some inv.task := by
  obtain ⟨now, hnow⟩ := hc.executing
  rw [hnow]
  exact ⟨rfl, hc.ready.current⟩

/-- Each provider call belongs to a begin of its own. -/
theorem Legal.invoked_sublist : ∀ (h : List Event) {f : File}, Legal py m P f₀ h f →
    (invokedPositions h).Sublist (begunPositions h)
  | [], _, _ => List.nil_sublist _
  | .drew _ :: h, _, hl => by
      obtain ⟨f', hl'⟩ := hl.tail
      exact Legal.invoked_sublist h hl'
  | .persisted t fr s :: h, _, hl => by
      obtain ⟨f', hl'⟩ := hl.tail
      have ih := Legal.invoked_sublist h hl'
      have happ := begunPositions_append [.persisted t fr s] h
      rw [List.singleton_append] at happ
      rw [happ]
      exact ih.trans (List.sublist_append_right _ _)
  | .invoked t fr inv :: h, _, hl => by
      obtain ⟨h', id, rfl, hc, -⟩ := hl.invoked_begin
      obtain ⟨f', hl'⟩ := hl.tail
      obtain ⟨f'', hl''⟩ := hl'.tail
      have ih := Legal.invoked_sublist h' hl''
      have hbegun : begunPositions (.invoked t fr inv :: .persisted t fr inv.executing :: h') =
          inv.executing.nextAssignmentIndex :: begunPositions h' :=
        begunPositions_begin t fr h' hc.executing_status
      rw [hbegun]
      exact ih.cons_cons _
termination_by h => h.length

/-- After a begin, only the call that persisted it calls the provider at its
position. -/
theorem Legal.invoked_of_begun {newer older : List Event} {t' : Tid} {fr' : Frame}
    (hl : Legal py m P f₀ (newer ++ .persisted t fr s :: older) f) (hs : s.status = .executing)
    (hinv : .invoked t' fr' inv ∈ newer)
    (hpos : inv.executing.nextAssignmentIndex = s.nextAssignmentIndex) : t' = t := by
  obtain ⟨a, b, rfl⟩ := List.append_of_mem hinv
  rw [List.append_assoc, List.cons_append] at hl
  obtain ⟨f', hl'⟩ := hl.suffix
  obtain ⟨r, id, hr, hc, -⟩ := hl'.invoked_begin
  cases b with
  | nil => exact ((Event.persisted.inj (List.cons.inj hr).1).1).symm
  | cons e b =>
      -- a second begin of the same position
      obtain ⟨rfl, rfl⟩ := List.cons.inj hr
      obtain ⟨f'', hl''⟩ := hl'.tail
      have hnodup := hl''.begun_nodup
      have happ := begunPositions_append b (.persisted t fr s :: older)
      rw [List.cons_append, begunPositions_begin _ _ _ hc.executing_status, happ,
        begunPositions_begin _ _ _ hs, hpos] at hnodup
      simp at hnodup

/-- **At most once**: in every state that any calls reach, with any plans, the
provider has been called at most once for each position of a mission, each call
ran the assignment at that position, and after a persisted `executing` no other
call has called the provider at its cursor. -/
theorem provider_called_at_most_once {py : Stdlib} {calls : Tid → Call} {f₀ : String → File}
    {w : World} (h : Reaches py calls (fun _ _ => True) f₀ w) (m : String) :
    (invokedPositions (w m).events).Nodup ∧
    (∀ t fr inv, .invoked t fr inv ∈ (w m).events →
      fr.plan.assignments[inv.executing.nextAssignmentIndex]? = some inv.task) ∧
    ∀ newer older t fr s, (w m).events = newer ++ .persisted t fr s :: older →
      s.status = .executing → ∀ t' fr' inv, .invoked t' fr' inv ∈ newer →
        inv.executing.nextAssignmentIndex = s.nextAssignmentIndex → t' = t := by
  have hl := runtime_legal h m
  refine ⟨(hl.invoked_sublist _).nodup hl.begun_nodup, ?_, ?_⟩
  · intro t fr inv hinv
    obtain ⟨a, b, hab⟩ := List.append_of_mem hinv
    rw [hab] at hl
    obtain ⟨f', hl'⟩ := hl.suffix
    obtain ⟨-, id, -, hc, -⟩ := hl'.invoked_begin
    exact hc.position.2
  · intro newer older t fr s hev hs t' fr' inv hinv hpos
    rw [hev] at hl
    exact hl.invoked_of_begun hs hinv hpos

/-- The sample mission calls the provider, at its one position, once. -/
theorem gatedRun_called_once :
    invokedPositions (gatedRun "mission-a").events = [0] ∧
      (invokedPositions (gatedRun "mission-a").events).Nodup := by
  refine ⟨?_, (provider_called_at_most_once
    (reaches_replay sampleHost (initial_sampleWorld gatedPlan fun _ => trivial) 2) "mission-a").1⟩
  obtain ⟨t, fr, inv, _, _, _, _, _, _, _, _, _, hevents, -, hindex, -⟩ := gatedRun_events
  rw [hevents]
  show [inv.executing.nextAssignmentIndex] = [0]
  rw [hindex]

end Konoha
