/-
Hokage/Exclusion.lean

What keeps the calls of an action queue apart.

While a call holds the queue lock nobody else touches the queue file.  While it holds
the lease of a running action nobody else changes the status of that action.  What it
has created as a claim nobody else writes, and a claim that is complete nobody writes
at all.  Under these rules every operation of `ActionQueue` keeps the events of the
directory a `History`, and every action that has been running a claim.
-/
import KonohaRuntime.Effects.Loops
import KonohaRuntime.Hokage.QueueCalls

namespace Konoha.Hokage

open Effects Json Prog

/-! ### The invariant -/

/-- The claim of an action says who has approved it. -/
structure ClaimFor (claim action : Dict) : Prop where
  binding : ∀ key ∈ claimBindingFields, fieldOf claim key = fieldOf action key
  approval : ∀ key ∈ ["approved_by", "approved_at"],
    fieldOf claim key = fieldOf (dictOf (fieldOf action "evidence")) key

/-- The claim of an action stands on disk. -/
def Claimed (d : QueueDir) (action : Dict) : Prop :=
  ∃ claim, d.claim (actionId action) = .json (.obj claim) ∧ ClaimFor claim action

/-- What `initialize` proposes for the authority of a mission. -/
structure Proposed (py : Stdlib) (dir : MissionPath) (authority : AuthorityFiles) (q : Queue) :
    Prop where
  built : ∃ charter decision missionId planId,
    (q.missionId = some missionId ∧ q.planId = some planId) ∧
      loadAuthoritativeState py dir authority = .ok (charter, decision) ∧
      List.Forall₂ (fun skillId a => ∃ now,
        buildAction py missionId planId skillId "initial" charter decision [] now = .ok a)
        (skillsOf charter "proposed_skills") q.actions

/-- An action as it has been checked before it was proposed. -/
structure Bound (py : Stdlib) (dir : MissionPath) (authority : AuthorityFiles) (a : Dict) :
    Prop where
  fields : ActionFields py a
  binding : ∃ charter decision,
    loadAuthoritativeState py dir authority = .ok (charter, decision) ∧
      validateActionBinding py a charter decision = .ok ()
  evidence : isDict (fieldOf a "evidence") = false

/-- The claim of an action of some persisted queue. -/
structure IsClaim (d : QueueDir) (id : String) (payload : Dict) : Prop where
  action : ∃ q a approvedBy approvedAt now, .persisted q ∈ d.events ∧
    findIn id q.actions = some a ∧ payload = claimOf a approvedBy approvedAt now

/-- The statuses of an action that has been approved and has not been blocked. -/
def claimedStatuses : List String := ["running", "completed", "failed"]

/-- What every directory of a run satisfies that begins with the claims `standing`. -/
structure QueueInv (py : Stdlib) (dir : MissionPath) (authority : AuthorityFiles)
    (standing : String → Content) (d : QueueDir) : Prop where
  files : d.authority = authority
  history : History (Proposed py dir authority) (Bound py dir authority) d.events
  current : d.queue = newest d.events
  created : ∀ id t, d.creator id = some t → (d.claim id).isFile = true
  unclaimed : ∀ id, d.creator id = none → d.claim id = standing id
  written : ∀ id t v, d.creator id = some t → d.claim id = .json v →
    ∃ payload, v = .obj payload ∧ IsClaim d id payload
  dispatched : ∀ t a, .dispatched t a ∈ d.events → d.creator (actionId a) = some t
  claimed : ∀ q, .persisted q ∈ d.events → ∀ a ∈ q.actions, ∀ s ∈ claimedStatuses,
    HasStatus a s → Claimed d a

theorem IsClaim.mono {d d' : QueueDir} {id : String} {payload : Dict} (h : IsClaim d id payload)
    (hevents : ∀ q, .persisted q ∈ d.events → .persisted q ∈ d'.events) :
    IsClaim d' id payload := by
  obtain ⟨q, a, approvedBy, approvedAt, now, hq, ha, rfl⟩ := h.action
  exact ⟨q, a, approvedBy, approvedAt, now, hevents q hq, ha, rfl⟩

/-- The queue says that an action is running. -/
def QueueDir.Running (d : QueueDir) (id : String) : Prop :=
  ∃ q a, d.queue = some q ∧ findIn id q.actions = some a ∧ HasStatus a "running"

/-- What thread `t` relies on. -/
structure QueueRelies (t : Tid) (d d' : QueueDir) : Prop where
  locked : d.lock = some t → d'.lock = some t ∧ d'.queue = d.queue ∧ d'.tmp = d.tmp
  leased : ∀ id, d.lease id = some t → d'.lease id = some t ∧ (d.Running id → d'.Running id)
  mine : ∀ id, d.creator id = some t → d'.creator id = some t ∧ d'.claim id = d.claim id
  complete : ∀ id v, d.claim id = .json v → d'.claim id = .json v
  dispatched : ∀ a, .dispatched t a ∈ d'.events → .dispatched t a ∈ d.events

theorem QueueRelies.refl (t : Tid) (d : QueueDir) : QueueRelies t d d :=
  ⟨fun h => ⟨h, rfl, rfl⟩, fun _ h => ⟨h, id⟩, fun _ h => ⟨h, rfl⟩, fun _ _ h => h, fun _ h => h⟩

theorem QueueRelies.trans {t : Tid} {d₁ d₂ d₃ : QueueDir} (h₁ : QueueRelies t d₁ d₂)
    (h₂ : QueueRelies t d₂ d₃) : QueueRelies t d₁ d₃ where
  locked h := by
    obtain ⟨hl, hq, ht⟩ := h₁.locked h
    obtain ⟨hl', hq', ht'⟩ := h₂.locked hl
    exact ⟨hl', hq'.trans hq, ht'.trans ht⟩
  leased id h := by
    obtain ⟨hl, hr⟩ := h₁.leased id h
    obtain ⟨hl', hr'⟩ := h₂.leased id hl
    exact ⟨hl', fun h => hr' (hr h)⟩
  mine id h := by
    obtain ⟨hc, he⟩ := h₁.mine id h
    obtain ⟨hc', he'⟩ := h₂.mine id hc
    exact ⟨hc', he'.trans he⟩
  complete id v h := h₂.complete id v (h₁.complete id v h)
  dispatched a h := h₁.dispatched a (h₂.dispatched a h)

/-- The rules a call is proved under. -/
def queueRules (py : Stdlib) (dir : MissionPath) (authority : AuthorityFiles)
    (standing : String → Content) (t : Tid) : Rules QueueDir QueueOp.Ans where
  step := queueStep t
  rely := QueueRelies t
  guar := fun d d' => ∀ t', t ≠ t' → QueueRelies t' d d'
  inv := QueueInv py dir authority standing

/-! ### Steps -/

section Steps

variable {py : Stdlib} {dir : MissionPath} {authority : AuthorityFiles}
variable {standing : String → Content} {t t' : Tid}
variable {d : QueueDir}

/-- Who holds a lock, and what stands in the temporary file, is no part of the invariant. -/
theorem QueueInv.locks {lock : Option Tid} {lease : String → Option Tid} {tmp : Option Queue}
    (h : QueueInv py dir authority standing d) :
    QueueInv py dir authority standing { d with lock := lock, lease := lease, tmp := tmp } :=
  ⟨h.files, h.history, h.current, h.created, h.unclaimed,
    fun id t v hc hv => (h.written id t v hc hv).imp fun _ hp => ⟨hp.1, hp.2.mono fun _ hq => hq⟩,
    h.dispatched, h.claimed⟩

theorem QueueRelies.locks {lock : Option Tid} {lease : String → Option Tid}
    (hlock : d.lock = some t → lock = some t)
    (hlease : ∀ id, d.lease id = some t → lease id = some t) :
    QueueRelies t d { d with lock := lock, lease := lease } :=
  ⟨fun h => ⟨hlock h, rfl, rfl⟩, fun id h => ⟨hlease id h, fun hr => hr⟩, fun _ h => ⟨h, rfl⟩,
    fun _ _ h => h, fun _ h => h⟩

/-- What another thread gives up is not one's own. -/
theorem without_of_ne {holder : Option Tid} (hne : t ≠ t') (h : holder = some t') :
    QueueDir.without t holder = some t' := by
  rw [QueueDir.without, if_neg, h]
  rw [h]
  exact fun heq => hne (Option.some.inj heq).symm

theorem QueueRelies.tmp {tmp : Option Queue} (hlock : d.lock = some t) (hne : t ≠ t') :
    QueueRelies t' d { d with tmp := tmp } := by
  refine ⟨fun h => ?_, fun _ h => ⟨h, fun hr => hr⟩, fun _ h => ⟨h, rfl⟩, fun _ _ h => h,
    fun _ h => h⟩
  exact absurd (Option.some.inj (hlock.symm.trans h)) hne

/-- What has to hold of a queue that thread `t` is about to persist. -/
structure Persists (py : Stdlib) (dir : MissionPath) (authority : AuthorityFiles) (t : Tid)
    (d : QueueDir) (q : Queue) : Prop where
  history : History (Proposed py dir authority) (Bound py dir authority) (.persisted q :: d.events)
  claimed : ∀ a ∈ q.actions, ∀ s ∈ claimedStatuses, HasStatus a s → Claimed d a
  others : ∀ id, d.lease id ≠ some t → d.Running id →
    ∃ a, findIn id q.actions = some a ∧ HasStatus a "running"

theorem QueueInv.persist {q : Queue} (h : QueueInv py dir authority standing d)
    (hp : Persists py dir authority t d q) : QueueInv py dir authority standing (d.persist q) := by
  refine ⟨h.files, hp.history, rfl, h.created, h.unclaimed, ?_, ?_, ?_⟩
  · intro id t' v hc hv
    obtain ⟨payload, rfl, hclaim⟩ := h.written id t' v hc hv
    exact ⟨payload, rfl, hclaim.mono fun _ hq => List.mem_cons_of_mem _ hq⟩
  · intro t' a ha
    rcases List.mem_cons.mp ha with heq | ha
    · cases heq
    · exact h.dispatched t' a ha
  · intro q' hq'
    rcases List.mem_cons.mp hq' with heq | hq'
    · obtain rfl := QueueEvent.persisted.inj heq
      exact hp.claimed
    · exact h.claimed q' hq'

theorem QueueRelies.persist {q : Queue} (hlock : d.lock = some t) (hne : t ≠ t')
    (hp : Persists py dir authority t d q) : QueueRelies t' d (d.persist q) := by
  refine ⟨fun h => ?_, fun id h => ⟨h, fun hr => ?_⟩, fun _ h => ⟨h, rfl⟩, fun _ _ h => h,
    fun a ha => ?_⟩
  · exact absurd (Option.some.inj (hlock.symm.trans h)) hne
  · have hlease : d.lease id ≠ some t := by
      rw [h]
      exact fun heq => hne (Option.some.inj heq).symm
    obtain ⟨a, ha, hrunning⟩ := hp.others id hlease hr
    exact ⟨q, a, rfl, ha, hrunning⟩
  · rcases List.mem_cons.mp ha with heq | ha
    · cases heq
    · exact ha

/-- A claim that nobody has finished is not one that an action has. -/
theorem Claimed.write {id : String} {c : Content} {a : Dict} (h : Claimed d a)
    (hid : ∀ v, d.claim id ≠ .json v) : Claimed (d.writeClaim id c) a := by
  obtain ⟨claim, hclaim, hfor⟩ := h
  refine ⟨claim, ?_, hfor⟩
  have hne : actionId a ≠ id := fun heq => hid _ (heq ▸ hclaim)
  show Function.update d.claim id c (actionId a) = _
  rw [Function.update_of_ne hne, hclaim]

theorem QueueInv.createClaim {id : String} (h : QueueInv py dir authority standing d)
    (hid : (d.claim id).isFile = false) :
    QueueInv py dir authority standing (d.createClaim t id) := by
  -- at another id nothing changes
  have hcreator : ∀ id' t', (d.createClaim t id).creator id' = some t' → id' ≠ id →
      d.creator id' = some t' := by
    intro id' t' hc hne
    have hc : Function.update d.creator id (some t) id' = some t' := hc
    rwa [Function.update_of_ne hne] at hc
  have hclaim : ∀ id', id' ≠ id → (d.createClaim t id).claim id' = d.claim id' :=
    fun id' hne => Function.update_of_ne hne _ _
  have hself : (d.createClaim t id).claim id = emptyFile := Function.update_self ..
  refine ⟨h.files, h.history, h.current, ?_, ?_, ?_, ?_, ?_⟩
  · intro id' t' hc
    rcases eq_or_ne id' id with rfl | hne
    · rw [hself]
      rfl
    · rw [hclaim id' hne]
      exact h.created id' t' (hcreator id' t' hc hne)
  · intro id' hc
    have hc : Function.update d.creator id (some t) id' = none := hc
    rcases eq_or_ne id' id with rfl | hne
    · rw [Function.update_self] at hc
      cases hc
    · rw [Function.update_of_ne hne] at hc
      rw [hclaim id' hne]
      exact h.unclaimed id' hc
  · intro id' t' v hc hv
    rcases eq_or_ne id' id with rfl | hne
    · rw [hself] at hv
      cases hv
    · rw [hclaim id' hne] at hv
      obtain ⟨payload, rfl, hpayload⟩ := h.written id' t' v (hcreator id' t' hc hne) hv
      exact ⟨payload, rfl, hpayload.mono fun _ hq => hq⟩
  · intro t' a ha
    have hc := h.dispatched t' a ha
    have hne : actionId a ≠ id := by
      rintro rfl
      rw [h.created _ t' hc] at hid
      cases hid
    exact (Function.update_of_ne hne _ _).trans hc
  · intro q hq a ha s hs hstatus
    refine Claimed.write (h.claimed q hq a ha s hs hstatus) fun v hv => ?_
    rw [hv] at hid
    cases hid

theorem QueueRelies.createClaim {id : String} (hi : QueueInv py dir authority standing d)
    (hid : (d.claim id).isFile = false) : QueueRelies t' d (d.createClaim t id) := by
  have hne : ∀ id', (d.claim id').isFile = true → id' ≠ id := by
    rintro id' hfile rfl
    rw [hfile] at hid
    cases hid
  refine ⟨fun h => ⟨h, rfl, rfl⟩, fun _ h => ⟨h, fun hr => hr⟩, fun id' h => ⟨?_, ?_⟩,
    fun id' v h => ?_, fun _ h => h⟩
  · exact (Function.update_of_ne (hne id' (hi.created id' t' h)) _ _).trans h
  · exact Function.update_of_ne (hne id' (hi.created id' t' h)) _ _
  · exact (Function.update_of_ne (hne id' (by rw [h]; rfl)) _ _).trans h

theorem QueueInv.writeClaim {id : String} {c : Content} (h : QueueInv py dir authority standing d)
    (hmine : d.creator id = some t) (hid : ∀ v, d.claim id ≠ .json v) (hc : c.isFile = true)
    (hwritten : ∀ v, c = .json v → ∃ payload, v = .obj payload ∧ IsClaim d id payload) :
    QueueInv py dir authority standing (d.writeClaim id c) := by
  have hclaim : ∀ id', id' ≠ id → (d.writeClaim id c).claim id' = d.claim id' :=
    fun id' hne => Function.update_of_ne hne _ _
  have hself : (d.writeClaim id c).claim id = c := Function.update_self ..
  refine ⟨h.files, h.history, h.current, ?_, ?_, ?_, h.dispatched, ?_⟩
  · intro id' t' hcreator
    rcases eq_or_ne id' id with rfl | hne
    · rw [hself, hc]
    · rw [hclaim id' hne]
      exact h.created id' t' hcreator
  · intro id' hcreator
    have hne : id' ≠ id := by
      rintro rfl
      exact absurd (hmine.symm.trans hcreator) (by simp)
    rw [hclaim id' hne]
    exact h.unclaimed id' hcreator
  · intro id' t' v hcreator hv
    rcases eq_or_ne id' id with rfl | hne
    · rw [hself] at hv
      obtain ⟨payload, rfl, hpayload⟩ := hwritten v hv
      exact ⟨payload, rfl, hpayload.mono fun _ hq => hq⟩
    · rw [hclaim id' hne] at hv
      obtain ⟨payload, rfl, hpayload⟩ := h.written id' t' v hcreator hv
      exact ⟨payload, rfl, hpayload.mono fun _ hq => hq⟩
  · exact fun q hq a ha s hs hstatus => (h.claimed q hq a ha s hs hstatus).write hid

theorem QueueRelies.writeClaim {id : String} {c : Content} (hmine : d.creator id = some t)
    (hne : t ≠ t') (hid : ∀ v, d.claim id ≠ .json v) : QueueRelies t' d (d.writeClaim id c) := by
  refine ⟨fun h => ⟨h, rfl, rfl⟩, fun _ h => ⟨h, fun hr => hr⟩, fun id' h => ⟨h, ?_⟩,
    fun id' v h => ?_, fun _ h => h⟩
  · refine Function.update_of_ne ?_ _ _
    rintro rfl
    exact hne (Option.some.inj (hmine.symm.trans h))
  · refine (Function.update_of_ne ?_ _ _).trans h
    rintro rfl
    exact hid v h

/-- The dispatch of a running action whose claim is `t`'s own, and which `t` has not
dispatched before. -/
theorem QueueInv.dispatch {a : Dict} (h : QueueInv py dir authority standing d)
    (hrunning : d.Running (actionId a)) (hmine : d.creator (actionId a) = some t)
    (hunsent : ∀ b, .dispatched t b ∉ d.events) :
    QueueInv py dir authority standing { d with events := .dispatched t a :: d.events } := by
  obtain ⟨q, b, hq, hb, hstatus⟩ := hrunning
  refine ⟨h.files, ?_, h.current, h.created, h.unclaimed, ?_, ?_, ?_⟩
  · refine .dispatch h.history (h.current.symm.trans hq) hb hstatus fun t' a' ha' heq => ?_
    have hcreator := h.dispatched t' a' ha'
    rw [heq, hmine] at hcreator
    obtain rfl := Option.some.inj hcreator
    exact hunsent a' ha'
  · intro id t' v hc hv
    obtain ⟨payload, rfl, hclaim⟩ := h.written id t' v hc hv
    exact ⟨payload, rfl, hclaim.mono fun _ hq => List.mem_cons_of_mem _ hq⟩
  · intro t' a' ha'
    rcases List.mem_cons.mp ha' with heq | ha'
    · obtain ⟨rfl, rfl⟩ := QueueEvent.dispatched.inj heq
      exact hmine
    · exact h.dispatched t' a' ha'
  · intro q' hq'
    rcases List.mem_cons.mp hq' with heq | hq'
    · cases heq
    · exact h.claimed q' hq'

theorem QueueRelies.dispatch {a : Dict} (hne : t ≠ t') :
    QueueRelies t' d { d with events := .dispatched t a :: d.events } := by
  refine ⟨fun h => ⟨h, rfl, rfl⟩, fun _ h => ⟨h, fun hr => hr⟩, fun _ h => ⟨h, rfl⟩,
    fun _ _ h => h, fun b hb => ?_⟩
  rcases List.mem_cons.mp hb with heq | hb
  · exact absurd (QueueEvent.dispatched.inj heq).1.symm hne
  · exact hb

end Steps

/-! ### Assertions -/

section Assertions

variable {py : Stdlib} {dir : MissionPath} {authority : AuthorityFiles}
variable {standing : String → Content} {t : Tid}

/-- An assertion that the others keep and that is not about the queue lock. -/
structure Settled (t : Tid) (A : QueueDir → Prop) : Prop where
  stable : ∀ {d d'}, A d → QueueRelies t d d' → A d'
  lock : ∀ {d x}, A d → A { d with lock := x }

/-- An assertion that is not about the queue file either. -/
structure Frame (t : Tid) (F : QueueDir → Prop) : Prop extends Settled t F where
  tmp : ∀ {d x}, F d → F { d with tmp := x }
  persist : ∀ {d q}, F d → F (d.persist q)

/-- Thread `t` holds the queue lock, and what it knows of the queue file. -/
structure Holding (t : Tid) (P : Option Queue → Prop) (d : QueueDir) : Prop where
  lock : d.lock = some t
  queue : P d.queue

/-- Nothing of what `t` has dispatched is among the events. -/
def Unsent (t : Tid) (d : QueueDir) : Prop := ∀ a, .dispatched t a ∉ d.events

/-- Thread `t` has created the claim of an action, and whatever stands in it complete is
what it has written. -/
structure Owns (t : Tid) (id : String) (payload : Dict) (d : QueueDir) : Prop where
  creator : d.creator id = some t
  claim : ∀ v, d.claim id = .json v → v = .obj payload

/-- Thread `t` holds the lease of an action. -/
def Leased (t : Tid) (id : String) (d : QueueDir) : Prop := d.lease id = some t

theorem Holding.rely {P : Option Queue → Prop} {d d' : QueueDir} (h : Holding t P d)
    (hr : QueueRelies t d d') : Holding t P d' := by
  obtain ⟨hl, hq, -⟩ := hr.locked h.lock
  exact ⟨hl, hq ▸ h.queue⟩

theorem frame_true : Frame t fun _ => True :=
  ⟨⟨fun _ _ => trivial, fun _ => trivial⟩, fun _ => trivial, fun _ => trivial⟩

theorem Frame.and {F G : QueueDir → Prop} (hF : Frame t F) (hG : Frame t G) :
    Frame t fun d => F d ∧ G d :=
  ⟨⟨fun h hr => ⟨hF.stable h.1 hr, hG.stable h.2 hr⟩, fun h => ⟨hF.lock h.1, hG.lock h.2⟩⟩,
    fun h => ⟨hF.tmp h.1, hG.tmp h.2⟩, fun h => ⟨hF.persist h.1, hG.persist h.2⟩⟩

theorem frame_unsent : Frame t (Unsent t) := by
  refine ⟨⟨fun h hr a ha => h a (hr.dispatched a ha), fun h => h⟩, fun h => h, fun h a ha => ?_⟩
  rcases List.mem_cons.mp ha with heq | ha
  · cases heq
  · exact h a ha

theorem frame_owns {id : String} {payload : Dict} : Frame t (Owns t id payload) := by
  refine ⟨⟨fun h hr => ?_, fun h => ⟨h.creator, h.claim⟩⟩, fun h => ⟨h.creator, h.claim⟩,
    fun h => ⟨h.creator, h.claim⟩⟩
  obtain ⟨hc, he⟩ := hr.mine id h.creator
  exact ⟨hc, fun v hv => h.claim v (he ▸ hv)⟩

theorem frame_leased {id : String} : Frame t (Leased t id) :=
  ⟨⟨fun h hr => (hr.leased id h).1, fun h => h⟩, fun h => h, fun h => h⟩

/-- While `t` holds the lease, what is running stays so. -/
theorem settled_running {id : String} : Settled t fun d => Leased t id d ∧ d.Running id :=
  ⟨fun h hr => ⟨(hr.leased id h.1).1, (hr.leased id h.1).2 h.2⟩, fun h => h⟩

/-- A complete claim stays. -/
theorem frame_claimed {id : String} {claim : Dict} :
    Frame t fun d => d.claim id = .json (.obj claim) :=
  ⟨⟨fun h hr => hr.complete id _ h, fun h => h⟩, fun h => h, fun h => h⟩

theorem Settled.and {A B : QueueDir → Prop} (hA : Settled t A) (hB : Settled t B) :
    Settled t fun d => A d ∧ B d :=
  ⟨fun h hr => ⟨hA.stable h.1 hr, hB.stable h.2 hr⟩, fun h => ⟨hA.lock h.1, hB.lock h.2⟩⟩

/-! ### Operations -/

/-- Program `m` of thread `t` takes `A` to `B` under the rules. -/
abbrev Runs (py : Stdlib) (dir : MissionPath) (authority : AuthorityFiles)
    (standing : String → Content) (t : Tid) {α : Type} (A : QueueDir → Prop) (m : QueueRun α) (B : α → QueueDir → Prop) : Prop :=
  Triple (queueRules py dir authority standing t) A m B fun _ _ => True

/-- Operations that leave the directory as it is. -/
def QueueOp.quiet : QueueOp → Bool
  | .utcNow | .mkdir | .openLock | .queueExists | .readQueue | .readAuthority | .claimExists _
  | .readClaim _ | .fsyncClaim _ | .closeClaim _ | .openLease _ => true
  | _ => false

theorem quiet_step {o : QueueOp} (ho : o.quiet = true) {d d' : QueueDir} {r : o.Ans}
    (h : queueStep t d o r d') : d' = d := by
  cases o with
  | utcNow => exact h
  | mkdir => exact h
  | openLock => exact h
  | queueExists => exact h.1
  | readQueue => exact h.1
  | readAuthority => exact h.1
  | claimExists id => exact h.1
  | readClaim id => exact h.1
  | fsyncClaim id => exact h
  | closeClaim id => exact h
  | openLease id => exact h
  | lock => cases ho
  | unlock => cases ho
  | writeTmp q => cases ho
  | replaceQueue => cases ho
  | createClaim id => cases ho
  | writeClaim id payload => cases ho
  | flockLease id => cases ho
  | unlockLease id => cases ho
  | dispatch action => cases ho

/-- An operation that only looks. -/
theorem triple_look {o : QueueOp} (ho : o.quiet = true) {A : QueueDir → Prop}
    (hA : ∀ {d d'}, A d → QueueRelies t d d' → A d') {B : o.Value → QueueDir → Prop}
    (hB : ∀ v d, A d → QueueInv py dir authority standing d → queueStep t d o (.ok v) d → B v d) :
    Triple (queueRules py dir authority standing t) A (onQueue o) B fun _ => A := by
  refine triple_ask (fun d d' hd hr => hA hd hr) ?_
  intro d r d' hd hi hstep
  obtain rfl := quiet_step ho hstep
  refine ⟨hi, fun t' _ => QueueRelies.refl t' _, ?_, fun _ _ => hd⟩
  rintro v rfl
  exact hB v _ hd hi hstep

/-- An operation that does `D` where `K` lets it, or fails and has perhaps done so. -/
theorem runs_performs {o : QueueOp} {A : QueueDir → Prop}
    (hA : ∀ {d d'}, A d → QueueRelies t d d' → A d') {v : o.Value} {K : QueueDir → Prop}
    {D : QueueDir → QueueDir} {B : o.Value → QueueDir → Prop}
    (hstep : ∀ d r d', A d → queueStep t d o r d' →
      K d ∧ Performs r v d (D d) d' ∨ d' = d ∧ ∃ e, r = .error e)
    (hdone : ∀ d, A d → K d → QueueInv py dir authority standing d →
      QueueInv py dir authority standing (D d) ∧ (∀ t', t ≠ t' → QueueRelies t' d (D d)) ∧
        B v (D d)) :
    Runs py dir authority standing t A (onQueue o) B := by
  refine triple_ask (fun d d' hd hr => hA hd hr) ?_
  intro d r d' hd hi hs
  rcases hstep d r d' hd hs with ⟨hk, h⟩ | ⟨rfl, e, rfl⟩
  · obtain ⟨hinv, hrel, hB⟩ := hdone d hd hk hi
    cases r with
    | ok a =>
        obtain ⟨rfl, rfl⟩ := h
        exact ⟨hinv, hrel, fun _ he => Except.ok.inj he ▸ hB, fun _ _ => trivial⟩
    | error e =>
        refine ⟨?_, ?_, by rintro _ ⟨⟩, fun _ _ => trivial⟩
        · rcases h with rfl | rfl
          · exact hi
          · exact hinv
        · rcases h with rfl | rfl
          · exact fun t' _ => QueueRelies.refl t' _
          · exact hrel
  · exact ⟨hi, fun t' _ => QueueRelies.refl t' _, by rintro _ ⟨⟩, fun _ _ => trivial⟩

end Assertions

end Konoha.Hokage
