/-
Protocol/Authority.lean

Where the authority of a separately gated run comes from: a nonce is drawn, a
waiting state with this nonce is persisted once, and only the command that
names the nonce opens the gate of that state.  Nonces that never repeat so make
every approval good for one run (`separate_gate_authority`).
-/
import Mathlib.Data.List.Nodup
import KonohaRuntime.Protocol.AtMostOnce

namespace Konoha

open Effects Json

/-! ### Nonces and approvals of a history -/

/-- The nonce that an event draws. -/
def Event.drawn : Event → Option Nonce
  | .drew n => some n
  | .persisted _ _ _ => none
  | .invoked _ _ _ => none

/-- The nonces drawn in a history, newest first. -/
def drawnNonces (h : List Event) : List Nonce := h.filterMap Event.drawn

/-- The nonce with which a state waits. -/
def ExecutionState.waitingNonce (s : ExecutionState) : Option String :=
  if s.status = .waitingForApproval then s.approvalNonce else none

/-- The approval that opened the gate of a provider call. -/
def Event.usedApproval : Event → Option AssignmentApproval
  | .invoked _ fr inv =>
      match fr.approval with
      | .given a => if inv.task.executionGate = separateHumanApproval then some a else none
      | _ => none
  | .drew _ => none
  | .persisted _ _ _ => none

/-- The approvals that opened gates in a history, newest first. -/
def usedApprovals (h : List Event) : List AssignmentApproval := h.filterMap Event.usedApproval

/-- No nonce was drawn twice, for one mission or for two. -/
structure FreshNonces (w : World) : Prop where
  nodup : ∀ m, (drawnNonces (w m).events).Nodup
  disjoint : ∀ m m', m ≠ m' → ∀ n ∈ drawnNonces (w m).events, n ∉ drawnNonces (w m').events

variable {py : Stdlib} {m : String} {P : Tid → Frame → Prop} {f₀ f : File} {h : List Event}
variable {t : Tid} {fr : Frame} {inv : Invocation} {id : Option Digest} {s : ExecutionState}

/-! ### Each waiting state has a nonce of its own -/

/-- Only a waiting state waits. -/
theorem waitingNonce_of_ne (hs : s.status ≠ .waitingForApproval) : s.waitingNonce = none :=
  if_neg hs

theorem ledger_asking (hs : s.status = .waitingForApproval) :
    s.ledger.phase = .asking s.approvalNonce := by
  simp [ExecutionState.ledger, hs]

/-- A waiting state is persisted right after the draw of its nonce. -/
theorem Legal.waiting_draw (hl : Legal py m P f₀ (.persisted t fr s :: h) f)
    (hs : s.status = .waitingForApproval) :
    ∃ n h', h = .drew n :: h' ∧ s.approvalNonce = some n.1 := by
  have hask := ledger_asking hs
  cases hl with
  | move hl hp hf hm => simp [hm.halted] at hask
  | wait hl hp hf hr hi hg now => exact ⟨_, _, rfl, rfl⟩
  | begin hl hp hf hc => simp [hc.executing_status] at hs
  | finish hl hu hp hc hfin => rcases hfin.settled with hq | hq <;> simp [hq] at hask

/-- The nonces of the waiting states are drawn ones, one draw for each. -/
theorem Legal.waiting_sublist : ∀ (h : List Event) {f : File}, Legal py m P f₀ h f →
    ((writtenStates h).filterMap ExecutionState.waitingNonce).Sublist
      ((drawnNonces h).map (·.1))
  | [], _, _ => List.nil_sublist _
  | .drew n :: h, _, hl => by
      obtain ⟨f', hl'⟩ := hl.tail
      exact (Legal.waiting_sublist h hl').cons n.1
  | .invoked t fr inv :: h, _, hl => by
      obtain ⟨f', hl'⟩ := hl.tail
      exact Legal.waiting_sublist h hl'
  | .persisted t fr s :: h, _, hl => by
      obtain ⟨f', hl'⟩ := hl.tail
      by_cases hs : s.status = .waitingForApproval
      · obtain ⟨n, h', rfl, hn⟩ := hl.waiting_draw hs
        obtain ⟨f'', hl''⟩ := hl'.tail
        have hwait : s.waitingNonce = some n.1 := by
          rw [ExecutionState.waitingNonce, if_pos hs, hn]
        rw [writtenStates_persisted, writtenStates_drew, List.filterMap_cons_some hwait]
        exact (Legal.waiting_sublist h' hl'').cons_cons n.1
      · rw [writtenStates_persisted, List.filterMap_cons_none (waitingNonce_of_ne hs)]
        exact Legal.waiting_sublist h hl'
termination_by h => h.length

/-- A list whose images under a partial function are distinct has one element
for each image. -/
theorem eq_of_nodup_filterMap {α β : Type} {g : α → Option β} {l : List α}
    (hl : (l.filterMap g).Nodup) {a b : α} {x : β} (ha : a ∈ l) (hb : b ∈ l)
    (hax : g a = some x) (hbx : g b = some x) : a = b := by
  have hpair := List.pairwise_filterMap.mp hl
  have hsymm : Std.Symm fun a b => ∀ x, g a = some x → ∀ y, g b = some y → x ≠ y :=
    ⟨fun a b hab x hx y hy => (hab y hy x hx).symm⟩
  by_contra hne
  exact hpair.forall ha hb hne x hax x hbx rfl

/-- Fresh nonces tell the waiting states of a mission apart. -/
theorem Legal.waiting_inj (hl : Legal py m P f₀ h f) (hfresh : (drawnNonces h).Nodup)
    {s s' : ExecutionState} (hs : s ∈ writtenStates h) (hs' : s' ∈ writtenStates h) {n : String}
    (hn : s.waitingNonce = some n) (hn' : s'.waitingNonce = some n) : s = s' := by
  have hnodup : ((writtenStates h).filterMap ExecutionState.waitingNonce).Nodup :=
    (Legal.waiting_sublist h hl).nodup (List.Nodup.map Subtype.val_injective hfresh)
  exact eq_of_nodup_filterMap hnodup hs hs' hn hn'

/-- The nonce of a waiting state was drawn. -/
theorem Legal.waiting_drawn (hl : Legal py m P f₀ h f) (hs : s ∈ writtenStates h) {n : String}
    (hn : s.waitingNonce = some n) : ∃ d ∈ drawnNonces h, d.1 = n := by
  have hmem : n ∈ (writtenStates h).filterMap ExecutionState.waitingNonce :=
    List.mem_filterMap.mpr ⟨s, hs, hn⟩
  exact List.mem_map.mp ((Legal.waiting_sublist h hl).subset hmem)

/-! ### The approval of a provider call -/

/-- What stands behind a provider call at a separate gate: the call's own
approval, with the command for the nonce of the waiting state it loaded, the
last one written. -/
structure Authorized (py : Stdlib) (m : String) (fr : Frame) (inv : Invocation)
    (older : List Event) (a : AssignmentApproval) (taskId : String) (nonce : Nonce) : Prop where
  task : inv.task.taskId = .str taskId
  position : inv.executing.nextAssignmentIndex = fr.state.nextAssignmentIndex
  text : a.approvalText = expectedApprovalCommand m taskId (planIdentity py fr.plan).1 nonce.1
  last : (writtenStates older).head? = some fr.state
  status : fr.state.status = .waitingForApproval
  pending : fr.state.pendingTaskId = .str taskId
  persisted : fr.state.approvalNonce = some nonce.1

theorem Legal.authorized (hl : Legal py m P .absent (.invoked t fr inv :: h) f)
    (hP : ∀ t fr, P t fr → fr.plan.missionId = m)
    (hgate : inv.task.executionGate = separateHumanApproval) :
    ∃ a taskId nonce older, h = .persisted t fr inv.executing :: older ∧ fr.approval = .given a ∧
      Authorized py m fr inv older a taskId nonce := by
  obtain ⟨older, id, rfl, hc, hp⟩ := hl.invoked_begin
  cases hc.opened with
  | byPlan hplan happroved =>
      rw [hgate] at hplan
      exact absurd hplan (by decide)
  | byHuman a hgiven ha =>
      obtain ⟨taskId, nonce, htask, hpending, hnonce, htext⟩ := ha.command
      have hhex := hc.ready.coherent.nonce nonce hnonce
      refine ⟨a, taskId, ⟨nonce, hhex⟩, older, rfl, hgiven, htask, hc.position.1, ?_, ?_,
        ha.status, hpending, hnonce⟩
      · rw [← hP t fr hp]
        exact htext
      · obtain ⟨f', hl'⟩ := hl.tail
        obtain ⟨f'', hl'', hf⟩ := hl'.executing_begin hc.executing_status
        rcases hl''.loaded hf with ⟨-, now, hnew⟩ | hlast
        · have hstatus := ha.status
          rw [hnew] at hstatus
          cases hstatus
        · exact hlast

/-! ### No approval is used twice -/

theorem usedApproval_eq_some {e : Event} {a : AssignmentApproval} :
    e.usedApproval = some a ↔ ∃ t fr inv, e = .invoked t fr inv ∧ fr.approval = .given a ∧
      inv.task.executionGate = separateHumanApproval := by
  cases e with
  | drew n => simp [Event.usedApproval]
  | persisted t fr s => simp [Event.usedApproval]
  | invoked t fr inv =>
      cases ha : fr.approval <;> simp [Event.usedApproval, ha, and_comm]

/-- An approval that was used names the nonce of a waiting state, whose cursor
is the position of the call. -/
theorem Legal.used (hl : Legal py m P .absent h f) (hP : ∀ t fr, P t fr → fr.plan.missionId = m)
    {e : Event} (he : e ∈ h) {a : AssignmentApproval} (ha : e.usedApproval = some a) :
    ∃ s ∈ writtenStates h, ∃ taskId d, ∃ nonce : Nonce, s.waitingNonce = some nonce.1 ∧
      e.invokedPosition = some s.nextAssignmentIndex ∧
      a.approvalText = expectedApprovalCommand m taskId d nonce.1 := by
  obtain ⟨t, fr, inv, rfl, hgiven, hgate⟩ := usedApproval_eq_some.mp ha
  obtain ⟨newer, older, rfl⟩ := List.append_of_mem he
  obtain ⟨f', hl'⟩ := hl.suffix
  obtain ⟨a', taskId, nonce, older', rfl, hgiven', hauth⟩ := hl'.authorized hP hgate
  obtain rfl : a = a' := ApprovalArg.given.inj (hgiven.symm.trans hgiven')
  have hmem : fr.state ∈ writtenStates older' := List.mem_of_mem_head? hauth.last
  have hwait : fr.state.waitingNonce = some nonce.1 := by
    rw [ExecutionState.waitingNonce, if_pos hauth.status, hauth.persisted]
  refine ⟨fr.state, ?_, taskId, _, nonce, hwait, congrArg some hauth.position, hauth.text⟩
  obtain ⟨t', fr', hw⟩ := mem_writtenStates.mp hmem
  exact mem_writtenStates.mpr ⟨t', fr', by simp [hw]⟩

/-- The commands used for one mission differ. -/
theorem Legal.usedApprovals_nodup (hl : Legal py m P .absent h f)
    (hP : ∀ t fr, P t fr → fr.plan.missionId = m) (hfresh : (drawnNonces h).Nodup) :
    ((usedApprovals h).map (·.approvalText)).Nodup := by
  have hpos : (invokedPositions h).Nodup := (hl.invoked_sublist _).nodup hl.begun_nodup
  rw [List.Nodup, List.pairwise_map, usedApprovals, List.pairwise_filterMap]
  refine (List.pairwise_filterMap.mp hpos).imp_of_mem ?_
  intro e e' he he' hne a ha a' ha' htext
  obtain ⟨s, hs, taskId, d, n, hn, hp, hc⟩ := hl.used hP he ha
  obtain ⟨s', hs', taskId', d', n', hn', hp', hc'⟩ := hl.used hP he' ha'
  obtain rfl : n = n' := expectedApprovalCommand_nonce (hc.symm.trans (htext.trans hc'))
  obtain rfl := hl.waiting_inj hfresh hs hs' hn hn'
  exact hne _ hp _ hp' rfl

/-- **Authority of a separate gate**, when no nonce is drawn twice: a provider
call for such an assignment was made by a call that carried the command for the
nonce of the current waiting state of this very task; no command, and so no
approval, serves two provider calls of one mission or of two; and the command
determines mission, task, plan and nonce. -/
theorem separate_gate_authority {py : Stdlib} {calls : Tid → Call}
    {allowed : String → File → Prop} {w : World}
    (h : Reaches py calls allowed (fun _ => .absent) w) (hfresh : FreshNonces w) :
    (∀ m newer rest t fr inv, (w m).events = newer ++ .invoked t fr inv :: rest →
      inv.task.executionGate = separateHumanApproval →
      ∃ a taskId nonce older, rest = .persisted t fr inv.executing :: older ∧
        (calls t).approval = .given a ∧ Authorized py m fr inv older a taskId nonce) ∧
    (∀ m, ((usedApprovals (w m).events).map (·.approvalText)).Nodup) ∧
    (∀ m m', m ≠ m' → ∀ a ∈ usedApprovals (w m).events, ∀ a' ∈ usedApprovals (w m').events,
      a.approvalText ≠ a'.approvalText) ∧
    ∀ (m m' t t' : String) (d d' : Digest) (n n' : Nonce), isMissionId m = true →
      isMissionId m' = true →
      expectedApprovalCommand m t d.1 n.1 = expectedApprovalCommand m' t' d'.1 n'.1 →
      m = m' ∧ t = t' ∧ d = d' ∧ n = n' := by
  have hl := runtime_legal h
  have hP : ∀ m t fr, Permits py calls allowed m t fr → fr.plan.missionId = m := by
    rintro m t fr ⟨⟨v, -, hv⟩, -⟩
    exact parsePlan_missionId hv
  refine ⟨?_, fun m => (hl m).usedApprovals_nodup (hP m) (hfresh.nodup m), ?_, ?_⟩
  · intro m newer rest t fr inv hev hgate
    have hlm := hl m
    rw [hev] at hlm
    obtain ⟨f', hl'⟩ := hlm.suffix
    obtain ⟨-, -, -, -, hp⟩ := hl'.invoked_begin
    obtain ⟨a, taskId, nonce, older, hrest, hgiven, hauth⟩ := hl'.authorized (hP m) hgate
    exact ⟨a, taskId, nonce, older, hrest, hp.approval.symm.trans hgiven, hauth⟩
  · intro m m' hne a ha a' ha' htext
    obtain ⟨e, he, hea⟩ := List.mem_filterMap.mp ha
    obtain ⟨e', he', hea'⟩ := List.mem_filterMap.mp ha'
    obtain ⟨s, hs, taskId, d, n, hn, -, hc⟩ := (hl m).used (hP m) he hea
    obtain ⟨s', hs', taskId', d', n', hn', -, hc'⟩ := (hl m').used (hP m') he' hea'
    obtain rfl : n = n' := expectedApprovalCommand_nonce (hc.symm.trans (htext.trans hc'))
    -- the nonce was drawn for both missions
    obtain ⟨k, hk, hkn⟩ := (hl m).waiting_drawn hs hn
    obtain ⟨k', hk', hkn'⟩ := (hl m').waiting_drawn hs' hn'
    obtain rfl : k = k' := Subtype.ext (hkn.trans hkn'.symm)
    exact hfresh.disjoint m m' hne k hk hk'
  · intro m m' t t' d d' n n' hm hm' hcmd
    exact expectedApprovalCommand_injective hm hm' hcmd

theorem freshNonces_gatedRun : FreshNonces gatedRun where
  nodup := by
    intro m
    by_cases hm : m = "mission-a"
    · obtain ⟨_, _, _, _, _, _, _, _, _, _, _, _, hevents, -⟩ := gatedRun_events
      rw [hm, hevents]
      exact List.nodup_singleton _
    · rw [gatedRun_of_ne hm]
      exact List.nodup_nil
  disjoint := by
    intro m m' hne n hn hn'
    by_cases hm : m = "mission-a"
    · rw [gatedRun_of_ne (hm ▸ hne.symm)] at hn'
      simp [drawnNonces, sampleWorld] at hn'
    · rw [gatedRun_of_ne hm] at hn
      simp [drawnNonces, sampleWorld] at hn

/-- The sample mission uses its approval, for one provider call. -/
theorem gatedRun_approval_used_once :
    usedApprovals (gatedRun "mission-a").events = [gatedApproval] ∧
      ((usedApprovals (gatedRun "mission-a").events).map (·.approvalText)).Nodup := by
  refine ⟨?_, (separate_gate_authority
    (reaches_sample gatedStdlib gatedCalls sampleHost gatedPlan 2)
      freshNonces_gatedRun).2.1 "mission-a"⟩
  obtain ⟨t, fr, inv, _, _, _, _, _, _, _, _, _, hevents, happroval, -, hgate⟩ := gatedRun_events
  have hused : Event.usedApproval (.invoked t fr inv) = some gatedApproval := by
    rw [Event.usedApproval, happroval]
    exact if_pos hgate
  rw [hevents, usedApprovals, List.filterMap_cons_none rfl, List.filterMap_cons_some hused]
  rfl

end Konoha
