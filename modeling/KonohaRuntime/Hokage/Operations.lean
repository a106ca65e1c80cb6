/-
Hokage/Operations.lean

Every operation of `ActionQueue` under the rules of `Exclusion`, and from them what
holds in every run.

* `queue_kept`: the persisted queues grow by proposals at their end and by single
  changes of status along the edges, no id occurs twice, and whatever has been running
  has the claim of its approval.
* `dispatched_once`: an action is dispatched at most once, never after it has been
  persisted as rejected or blocked, and it is never persisted as rejected after that.
-/
import KonohaRuntime.Hokage.Exclusion
import KonohaRuntime.Hokage.Rewrite

namespace Konoha.Hokage

open Effects Json Prog

variable {py : Stdlib} {dir : MissionPath} {authority : AuthorityFiles}
variable {standing : String → Content} {t : Tid}

/-! ### Locks -/

theorem runs_lock {F : QueueDir → Prop} (hF : Settled t F) :
    Runs py dir authority standing t F (onQueue .lock) fun _ d => F d ∧ d.lock = some t := by
  refine runs_performs (v := ()) (K := fun d => d.lock = none)
    (D := fun d => { d with lock := some t }) hF.stable ?_ ?_
  · intro d r d' _ h
    rcases e : d.lock with - | t'
    · left
      simp only [queueStep, e] at h
      exact ⟨rfl, h⟩
    · right
      simp only [queueStep, e] at h
      exact h
  · intro d hd hnone hi
    refine ⟨hi.locks, fun t' _ => .locks (fun h => ?_) fun _ h => h, hF.lock hd, rfl⟩
    rw [hnone] at h
    cases h

theorem runs_unlock {A : QueueDir → Prop} (hA : Settled t A) :
    Runs py dir authority standing t A (onQueue .unlock) fun _ => A := by
  refine runs_performs (v := ()) (K := fun _ => True)
    (D := fun d => { d with lock := QueueDir.without t d.lock }) hA.stable ?_ ?_
  · exact fun d r d' _ h => .inl ⟨trivial, h⟩
  · intro d hd _ hi
    exact ⟨hi.locks, fun t' hne => .locks (without_of_ne hne) fun _ h => h, hA.lock hd⟩

/-- What a body makes of the directory under the queue lock, it makes of it with the lock
taken and given up. -/
theorem runs_withQueueLock {α : Type} {F : QueueDir → Prop} {body : QueueRun α}
    {B : α → QueueDir → Prop} (hF : Settled t F) (hB : ∀ a, Settled t (B a))
    (h : Runs py dir authority standing t (fun d => F d ∧ d.lock = some t) body B) :
    Runs py dir authority standing t F (withQueueLock body) B := by
  refine Triple.bind ((triple_look rfl hF.stable fun _ _ hd _ _ => hd).conseq (fun _ h => h)
    (fun _ _ h => h) fun _ _ _ => trivial) fun _ => ?_
  refine Triple.bind (runs_lock hF) fun _ => ?_
  refine Triple.bind (Q := fun r d => ∀ a, r = .ok a → B a d)
    (h.attempt (fun a d ha => by rintro _ ⟨⟩; exact ha) fun e d _ => by rintro _ ⟨⟩) fun r => ?_
  have hr : Settled t fun d => ∀ a, r = .ok a → B a d :=
    ⟨fun hd hrel a ha => (hB a).stable (hd a ha) hrel, fun hd a ha => (hB a).lock (hd a ha)⟩
  refine Triple.bind (runs_unlock hr) fun _ => ?_
  exact triple_ofExcept.conseq (fun _ h => h) (fun a d h => h.2 a h.1) fun _ _ _ => trivial

theorem runs_look {o : QueueOp} (ho : o.quiet = true) {A : QueueDir → Prop}
    (hA : ∀ {d d'}, A d → QueueRelies t d d' → A d') :
    Runs py dir authority standing t A (onQueue o) fun _ => A :=
  (triple_look ho hA fun _ _ hd _ _ => hd).conseq (fun _ h => h) (fun _ _ h => h)
    fun _ _ _ => trivial

/-- `flock(fd, LOCK_EX | LOCK_NB)` on a lease file -/
theorem runs_flockLease {id : String} {F : QueueDir → Prop}
    (hF : ∀ {d d'}, F d → QueueRelies t d d' → F d')
    (hlease : ∀ {d x}, F d → F (QueueDir.setLease d id x)) :
    Runs py dir authority standing t F (onQueue (.flockLease id)) fun _ d => F d ∧ Leased t id d := by
  refine runs_performs (v := ()) (K := fun d => d.lease id = none)
    (D := fun d => d.setLease id (some t)) hF ?_ ?_
  · intro d r d' _ h
    rcases e : d.lease id with - | t'
    · left
      simp only [queueStep, e] at h
      exact ⟨rfl, h⟩
    · right
      simp only [queueStep, e] at h
      exact h
  · intro d hd hnone hi
    refine ⟨hi.locks, fun t' hne => .locks (fun h => h) fun id' h => ?_, hlease hd,
      Function.update_self ..⟩
    rcases eq_or_ne id' id with rfl | hid
    · rw [hnone] at h
      cases h
    · exact (Function.update_of_ne hid _ _).trans h

/-- `_ExecutionLease.acquire` -/
theorem runs_acquireLease {id : String} {F : QueueDir → Prop}
    (hF : ∀ {d d'}, F d → QueueRelies t d d' → F d')
    (hlease : ∀ {d x}, F d → F (QueueDir.setLease d id x)) :
    Runs py dir authority standing t F (acquireLease dir id) fun _ d => F d ∧ Leased t id d := by
  refine Triple.bind (runs_look (o := .mkdir) rfl hF) fun _ => ?_
  refine Triple.bind (runs_look (o := .openLease id) rfl hF) fun _ => ?_
  refine Triple.bind (runs_flockLease hF hlease).caught fun r => ?_
  rcases r with (⟨code, text⟩ | e) | ⟨⟩
  · exact Triple.raise fun _ _ => trivial
  · show Triple _ _ (if _ then _ else _) _ _
    split <;> exact Triple.raise fun _ _ => trivial
  · exact Triple.ret fun d h => h.1 () rfl

/-- `_ExecutionLease.release`; what is not about the lease stays. -/
theorem runs_releaseLease {id : String} {A : QueueDir → Prop}
    (hA : ∀ {d d'}, A d → QueueRelies t d d' → A d')
    (hlease : ∀ {d x}, A d → A (QueueDir.setLease d id x)) :
    Runs py dir authority standing t A (releaseLease id) fun _ => A := by
  refine runs_performs (v := ()) (K := fun _ => True)
    (D := fun d => d.setLease id (QueueDir.without t (d.lease id))) hA ?_ ?_
  · exact fun d r d' _ h => .inl ⟨trivial, h⟩
  · intro d hd _ hi
    refine ⟨hi.locks, fun t' hne => .locks (fun h => h) fun id' h => ?_, hlease hd⟩
    rcases eq_or_ne id' id with rfl | hid
    · exact (Function.update_self ..).trans (without_of_ne hne h)
    · exact (Function.update_of_ne hid _ _).trans h

/-! ### Reading -/

section Reading

variable {F : QueueDir → Prop} {P : Option Queue → Prop}

/-- What a thread asserts while it holds the queue lock. -/
abbrev Under (t : Tid) (F : QueueDir → Prop) (P : Option Queue → Prop) (d : QueueDir) : Prop :=
  F d ∧ Holding t P d

theorem stable_under (hF : Frame t F) {d d' : QueueDir} (h : Under t F P d)
    (hr : QueueRelies t d d') : Under t F P d' :=
  ⟨hF.stable h.1 hr, h.2.rely hr⟩

/-- The payload that `load` returns for a queue file. -/
def Loads (q : Queue) (file : Option Queue) : Prop := file.getD Queue.empty = q

/-- A payload that holds an action is what the file holds. -/
theorem Loads.of_find {q : Queue} {file : Option Queue} {id : String} {a : Dict} (h : Loads q file)
    (ha : findIn id q.actions = some a) : file = some q := by
  cases file with
  | some q' => exact congrArg some h
  | none =>
      obtain rfl : Queue.empty = q := h
      cases ha

theorem runs_load (hF : Frame t F) :
    Runs py dir authority standing t (Under t F P) load fun q => Under t F fun x => P x ∧ Loads q x := by
  refine Triple.bind (Q := fun found => Under t F fun x => P x ∧ found = x.isSome)
    ((triple_look rfl (stable_under hF) ?_).conseq (fun _ h => h) (fun _ _ h => h)
      fun _ _ _ => trivial) fun found => ?_
  · exact fun v d hd _ hstep => ⟨hd.1, hd.2.lock, hd.2.queue, hstep.2 v rfl⟩
  · cases found with
    | false =>
        refine Triple.ret fun d hd => ⟨hd.1, hd.2.lock, hd.2.queue.1, ?_⟩
        have hnone : d.queue = none := by simpa using hd.2.queue.2.symm
        rw [hnone]
        rfl
    | true =>
        refine (triple_look (o := .readQueue) rfl (stable_under hF) ?_).conseq (fun _ h => h)
          (fun _ _ h => h) fun _ _ _ => trivial
        intro q d hd _ hstep
        refine ⟨hd.1, hd.2.lock, hd.2.queue.1, ?_⟩
        rw [hstep.2 q rfl]
        rfl

theorem runs_loadPayload (hF : Frame t F) :
    Runs py dir authority standing t (fun d => F d ∧ d.lock = some t) load fun q => Under t F (Loads q) := by
  intro d hd
  exact wp_mono (runs_load (P := fun _ => True) hF d ⟨hd.1, hd.2, trivial⟩)
    (fun q d h => ⟨h.1, h.2.lock, h.2.queue.2⟩) fun _ _ h => h

/-- Checks that read the authority change nothing. -/
theorem triple_loadAuthority {A : QueueDir → Prop} (hA : ∀ {d d'}, A d → QueueRelies t d d' → A d') :
    Triple (queueRules py dir authority standing t) A (loadAuthority py dir)
      (fun state d => loadAuthoritativeState py dir authority = .ok state ∧ A d) fun _ => A := by
  refine Triple.bind (Q := fun files d => files = authority ∧ A d)
    (triple_look rfl hA fun files d hd hi hstep => ⟨(hstep.2 files rfl).trans hi.files, hd⟩)
    fun files => Triple.of_pure ?_
  rintro rfl
  exact triple_ofExcept.conseq (fun _ h => h) (fun _ _ h => h) fun _ _ h => h.2

theorem triple_validateAuthority {A : QueueDir → Prop} {action : Dict} {phase : Phase}
    (hA : ∀ {d d'}, A d → QueueRelies t d d' → A d') :
    Triple (queueRules py dir authority standing t) A (validateAuthority py dir action phase)
      (fun _ d => validateActionAuthority py dir authority action phase = .ok () ∧ A d)
      fun _ => A := by
  refine Triple.bind (Q := fun _ d => validateActionIdentity py action phase = .ok () ∧ A d)
    (triple_ofExcept.conseq (fun _ h => h) (fun _ _ h => h) fun _ _ h => h.2)
    fun ⟨⟩ => Triple.of_pure fun hid => ?_
  refine Triple.bind (triple_loadAuthority hA) fun ⟨charter, decision⟩ => Triple.of_pure fun hload => ?_
  refine triple_ofExcept.conseq (fun _ h => h) (fun _ d h => ⟨?_, h.2⟩) fun _ _ h => h.2
  rw [validateActionAuthority, hid, hload]
  exact h.1

/-- A claim that has been verified is there, complete, and matches. -/
theorem triple_verifyExecutionClaim {A : QueueDir → Prop} {action : Dict}
    (hA : ∀ {d d'}, A d → QueueRelies t d d' → A d') :
    Triple (queueRules py dir authority standing t) A (verifyExecutionClaim dir action)
      (fun _ d => A d ∧ ∃ claim, d.claim (actionId action) = .json (.obj claim) ∧
        validateClaim claim action = .ok ()) fun _ => A := by
  refine Triple.bind (Q := fun _ => A)
    (triple_look rfl hA fun _ _ hd _ _ => hd) fun found => ?_
  cases found with
  | false => exact Triple.raise fun _ hd => hd
  | true =>
      -- what is read complete stays
      let seen (c : Content) (d : QueueDir) : Prop :=
        ∀ v, c = .json v → d.claim (actionId action) = .json v
      have hseen : ∀ {c d d'}, A d ∧ seen c d → QueueRelies t d d' → A d' ∧ seen c d' :=
        fun h hr => ⟨hA h.1 hr, fun v hv => hr.complete _ v (h.2 v hv)⟩
      refine Triple.bind (Q := fun c d => A d ∧ seen c d)
        (triple_look rfl hA fun c d hd _ hstep => ⟨hd, fun v hv => (hstep.2 c rfl).symm.trans hv⟩)
        fun c => ?_
      refine Triple.bind (Q := fun claim d => parseClaim c = .ok claim ∧ A d ∧ seen c d)
        (triple_ofExcept.conseq (fun _ h => h) (fun _ _ h => h) fun _ _ h => h.2.1)
        fun claim => Triple.of_pure fun hparse => ?_
      obtain rfl : c = .json (.obj claim) := by
        cases c with
        | json v =>
            cases v <;> first | cases hparse; rfl | cases hparse
        | absent => cases hparse
        | unreadable text => cases hparse
        | undecodable text => cases hparse
        | malformed text => cases hparse
        | unloadable e => cases hparse
      exact triple_ofExcept.conseq (fun _ h => h)
        (fun _ d h => ⟨h.2.1, claim, h.2.2 _ rfl, h.1⟩) fun _ _ h => h.2.1

end Reading

/-! ### Writing -/

section Writing

variable {F : QueueDir → Prop} {P : Option Queue → Prop} {d : QueueDir} {q : Queue} {a a' : Dict}
variable {now : Option String}

theorem QueueInv.persisted (hi : QueueInv py dir authority standing d) (hq : d.queue = some q) :
    .persisted q ∈ d.events :=
  mem_persistedQueues.mp (List.mem_of_mem_head? (hi.current.symm.trans hq))

theorem Persists.first (hi : QueueInv py dir authority standing d) (hq : d.queue = none)
    (hinitial : Proposed py dir authority q)
    (hproposed : ∀ a ∈ q.actions, HasStatus a "proposed" ∧ Bound py dir authority a) :
    Persists py dir authority t d q := by
  have hnil : d.events = [] := hi.history.eq_nil (hi.current.symm.trans hq)
  refine ⟨?_, fun a ha s hs hstatus => ?_, ?_⟩
  · rw [hnil]
    exact .first hinitial hproposed
  · obtain rfl := (hproposed a ha).1.unique hstatus
    simp [claimedStatuses] at hs
  · rintro id - ⟨q', b, hq', -⟩
    rw [hq] at hq'
    cases hq'

theorem Persists.append (hi : QueueInv py dir authority standing d) (hq : d.queue = some q)
    (hnew : findIn (actionId a) q.actions = none)
    (hproposed : HasStatus a "proposed" ∧ Bound py dir authority a) :
    Persists py dir authority t d { q with actions := q.actions ++ [a], updatedAt := now } := by
  refine ⟨.append hi.history (hi.current.symm.trans hq) hnew hproposed, ?_, ?_⟩
  · intro b hb s hs hstatus
    rcases List.mem_append.mp hb with hb | hb
    · exact hi.claimed q (hi.persisted hq) b hb s hs hstatus
    · obtain rfl := List.mem_singleton.mp hb
      obtain rfl := hproposed.1.unique hstatus
      simp [claimedStatuses] at hs
  · rintro id - ⟨q', b, hq', hb, hrunning⟩
    obtain rfl := Option.some.inj (hq.symm.trans hq')
    exact ⟨b, findIn_append hb, hrunning⟩

theorem Persists.change (hi : QueueInv py dir authority standing d) (hq : d.queue = some q)
    (ha : findIn (actionId a') q.actions = some a) (hadvances : Advances a a')
    (hlease : HasStatus a "running" → d.lease (actionId a') = some t)
    (hclaim : ∀ s ∈ claimedStatuses, HasStatus a' s → Claimed d a') :
    Persists py dir authority t d
      { q with actions := replaceFirst a' q.actions, updatedAt := now } := by
  refine ⟨.change hi.history (hi.current.symm.trans hq) ha hadvances, ?_, ?_⟩
  · obtain ⟨older, newer, hl, hr, -⟩ := replaceFirst_split ha
    intro b hb s hs hstatus
    rw [hr, List.mem_append, List.mem_cons] at hb
    have hold : b ∈ older ∨ b ∈ newer → Claimed d b := by
      intro h
      refine hi.claimed q (hi.persisted hq) b ?_ s hs hstatus
      rw [hl, List.mem_append, List.mem_cons]
      exact h.imp id .inr
    rcases hb with hb | rfl | hb
    · exact hold (.inl hb)
    · exact hclaim s hs hstatus
    · exact hold (.inr hb)
  · rintro id hid ⟨q', b, hq', hb, hrunning⟩
    obtain rfl := Option.some.inj (hq.symm.trans hq')
    rcases eq_or_ne id (actionId a') with rfl | hne
    · obtain rfl := Option.some.inj (ha.symm.trans hb)
      exact absurd (hlease hrunning) hid
    · exact ⟨b, (findIn_replaceFirst_ne hne).trans hb, hrunning⟩

/-- `_write_locked` -/
theorem runs_writeLocked (hF : Frame t F)
    (hp : ∀ d now, F d → P d.queue → QueueInv py dir authority standing d →
      Persists py dir authority t d { q with updatedAt := now }) :
    Runs py dir authority standing t (Under t F P) (writeLocked q) fun q' d =>
      (∃ now, q' = { q with updatedAt := now }) ∧ Under t F (· = some q') d := by
  refine Triple.bind (runs_look (o := .utcNow) rfl (stable_under hF)) fun now => ?_
  refine Triple.bind (runs_look (o := .mkdir) rfl (stable_under hF)) fun _ => ?_
  refine Triple.bind
    (Q := fun _ d => Under t F P d ∧ d.tmp = some { q with updatedAt := some now.1 }) ?_ fun _ => ?_
  · refine triple_ask (fun d d' => stable_under hF) ?_
    rintro d r d' hd hi ⟨tmp, rfl, htmp⟩
    refine ⟨hi.locks, fun t' hne => .tmp hd.2.lock hne, ?_, fun _ _ => trivial⟩
    rintro _ rfl
    exact ⟨⟨hF.tmp hd.1, hd.2.lock, hd.2.queue⟩, htmp rfl⟩
  refine Triple.bind
    (Q := fun _ => Under t F (· = some { q with updatedAt := some now.1 })) ?_ fun _ => ?_
  · refine runs_performs (v := ()) (K := fun _ => True)
      (D := fun d => d.persist { q with updatedAt := some now.1 }) ?_ ?_ ?_
    · intro d d' hd hr
      exact ⟨stable_under hF hd.1 hr, (hr.locked hd.1.2.lock).2.2.trans hd.2⟩
    · intro d r d' hd h
      left
      simp only [queueStep, hd.2] at h
      exact ⟨trivial, h⟩
    · intro d hd _ hi
      have hpersists := hp d (some now.1) hd.1.1 hd.1.2.queue hi
      exact ⟨hi.persist hpersists, fun t' hne => .persist hd.1.2.lock hne hpersists,
        hF.persist hd.1.1, hd.1.2.lock, rfl⟩
  · exact Triple.ret fun d hd => ⟨⟨_, rfl⟩, hd⟩

/-! ### Changes of status -/

theorem later_setField {key : String} {v : Json} (hk : key ∈ mutableKeys) :
    Later a (setField key v a) := by
  intro key' hkey'
  refine lookup_setField_ne ?_ v a
  rintro rfl
  exact hkey' hk

theorem fieldOf_setField_self {key : String} {v : Json} : fieldOf (setField key v a) key = v := by
  rw [fieldOf, lookup_setField_self]
  rfl

theorem fieldOf_setField_ne {key key' : String} {v : Json} (h : key' ≠ key) :
    fieldOf (setField key v a) key' = fieldOf a key' := by
  rw [fieldOf, lookup_setField_ne h]
  rfl

theorem compareAction_eq_ok {expectedStatus : String} {expectedHash : Json} :
    compareAction a expectedStatus expectedHash = .ok () ↔
      HasStatus a expectedStatus ∧ fieldOf a "arguments_hash" = expectedHash := by
  simp only [compareAction, check_bind_eq_ok, require_eq_ok]
  rfl

theorem binding_of_validateClaim {claim : Dict} (h : validateClaim claim a = .ok ()) :
    ∀ key ∈ claimBindingFields, fieldOf claim key = fieldOf a key := by
  simp only [validateClaim, check_bind_eq_ok, require_eq_ok] at h
  exact h.2.1

theorem findLocked_eq_ok {id : String} :
    findLocked py q id = .ok a ↔ findIn id q.actions = some a := by
  have hfind : q.find id = findIn id q.actions := rfl
  unfold findLocked
  rw [hfind]
  cases findIn id q.actions <;> simp

/-- An action that is given a new status advances along the edge. -/
theorem advances_setField {key : String} {v : Json} {a₀ : Dict} {old new : String}
    (hedge : (old, new) ∈ edges) (hold : HasStatus a old) (hlater : Later a a₀)
    (hnew : HasStatus a₀ new) (hk : key ∈ mutableKeys) (hkey : key ≠ "status")
    (happroved : new = "running" → Approved (setField key v a₀)) :
    Advances a (setField key v a₀) := by
  have hstatus : HasStatus (setField key v a₀) new := by
    show fieldOf _ "status" = _
    rw [fieldOf_setField_ne hkey.symm]
    exact hnew
  refine ⟨hlater.trans (later_setField hk), ⟨(old, new), hedge, hold, hstatus⟩, ?_⟩
  exact fun hrunning => happroved (hstatus.unique hrunning)

/-- Evidence that is complete approves the action it is recorded in. -/
theorem approved_setField {evidence : Dict}
    (htexts : ∀ key ∈ ["approved_by", "approved_at", "arguments_hash"],
      isText (fieldOf evidence key) = true)
    (hhash : fieldOf evidence "arguments_hash" = fieldOf a "arguments_hash") :
    Approved (setField "evidence" (.obj evidence) a) := by
  refine ⟨?_, ?_, ?_⟩
  · rw [fieldOf_setField_self]
    rfl
  · rw [fieldOf_setField_self]
    exact htexts
  · rw [fieldOf_setField_self, fieldOf_setField_ne (by decide)]
    exact hhash

/-- `_transition_locked`, by the thread that owns the claim. -/
theorem runs_transitionLocked (hF : Frame t F) {id expectedStatus newStatus : String}
    {expectedHash : Json} {evidence payload : Dict} (hedge : (expectedStatus, newStatus) ∈ edges)
    (hown : ∀ d, F d → Owns t id payload d)
    (hlease : expectedStatus = "running" → ∀ d, F d → Leased t id d)
    (hevidence : ∀ key ∈ ["approved_by", "approved_at"],
      fieldOf payload key = fieldOf evidence key)
    (hrunning : newStatus = "running" →
      (∀ key ∈ ["approved_by", "approved_at", "arguments_hash"],
        isText (fieldOf evidence key) = true) ∧
        fieldOf evidence "arguments_hash" = expectedHash) :
    Runs py dir authority standing t (Under t F (Loads q))
      (transitionLocked py dir q id expectedStatus expectedHash newStatus evidence)
      fun r d => (findIn id r.1.actions = some r.2 ∧ HasStatus r.2 newStatus) ∧
        Under t F (· = some r.1) d := by
  refine Triple.bind (Q := fun a d => findLocked py q id = .ok a ∧ Under t F (Loads q) d)
    (triple_ofExcept.conseq (fun _ h => h) (fun _ _ h => h) fun _ _ _ => trivial)
    fun a => Triple.of_pure fun hfound => ?_
  refine Triple.bind
    (Q := fun _ d => compareAction a expectedStatus expectedHash = .ok () ∧ Under t F (Loads q) d)
    (triple_ofExcept.conseq (fun _ h => h) (fun _ _ h => h) fun _ _ _ => trivial)
    fun ⟨⟩ => Triple.of_pure fun hcompare => ?_
  have ha : findIn id q.actions = some a := findLocked_eq_ok.mp hfound
  have hid : actionId a = id := (findIn_some ha).1
  obtain ⟨hstatus, hhash⟩ := compareAction_eq_ok.mp hcompare
  refine Triple.bind ((triple_verifyExecutionClaim (stable_under hF)).conseq (fun _ h => h)
    (B := fun _ d => ∃ claim, validateClaim claim a = .ok () ∧
      Under t (fun d => F d ∧ d.claim id = .json (.obj claim)) (Loads q) d) ?_
    fun _ _ _ => trivial) fun _ => Triple.of_exists fun claim => Triple.of_pure fun hvalid => ?_
  · rintro - d ⟨hd, claim, hclaim, hvalid⟩
    exact ⟨claim, hvalid, ⟨hd.1, hid ▸ hclaim⟩, hd.2⟩
  have hG : Frame t fun d => F d ∧ d.claim id = .json (.obj claim) := hF.and frame_claimed
  refine Triple.bind (runs_look (o := .utcNow) rfl (stable_under hG)) fun now => ?_
  set a' := setField "evidence" (.obj evidence)
    (setField "updated_at" (.str now.1) (setField "status" (.str newStatus) a)) with ha'
  have hnew : HasStatus (setField "updated_at" (.str now.1)
      (setField "status" (.str newStatus) a)) newStatus := by
    show fieldOf _ "status" = _
    rw [fieldOf_setField_ne (by decide), fieldOf_setField_self]
  have hadvances : Advances a a' := by
    refine advances_setField hedge hstatus ?_ hnew (by decide) (by decide) fun hnew => ?_
    · exact (later_setField (by decide)).trans (later_setField (by decide))
    · refine approved_setField (hrunning hnew).1 ((hrunning hnew).2.trans ?_)
      rw [fieldOf_setField_ne (by decide), fieldOf_setField_ne (by decide), hhash]
  have hid' : actionId a' = id := hadvances.actionId.trans hid
  have hclaimed : ∀ d, F d ∧ d.claim id = .json (.obj claim) → Claimed d a' := by
    rintro d ⟨hd, hclaim⟩
    refine ⟨claim, hid'.symm ▸ hclaim, fun key hkey => ?_, fun key hkey => ?_⟩
    · have hmutable : ∀ key ∈ claimBindingFields, key ∉ mutableKeys := by decide
      rw [binding_of_validateClaim hvalid key hkey, hadvances.later.fieldOf (hmutable key hkey)]
    · obtain rfl : claim = payload := Json.obj.inj ((hown d hd).claim _ hclaim)
      rw [hevidence key hkey, ha', fieldOf_setField_self]
      rfl
  refine Triple.bind (runs_writeLocked hG fun d now hd hq hi => ?_) fun q' => Triple.of_pure ?_
  · refine Persists.change hi (hq.of_find ha) (hid'.symm ▸ ha) hadvances ?_ fun _ _ _ =>
      hclaimed d hd
    intro hrunning
    rw [hid']
    exact hlease (hstatus.unique hrunning) d hd.1
  · rintro ⟨now', rfl⟩
    refine Triple.ret fun d hd => ⟨⟨?_, ?_⟩, hd.1.1, hd.2⟩
    · show findIn id (replaceFirst a' q.actions) = some a'
      rw [← hid'] at ha ⊢
      exact findIn_replaceFirst_self ha
    · show fieldOf _ "status" = _
      rw [fieldOf_setField_ne (by decide)]
      exact hnew

/-- `_mark_blocked_locked`, by a thread that holds the lease. -/
theorem runs_markBlockedLocked (hF : Frame t F) {id expectedStatus reason : String}
    {expectedHash : Json} (hedge : (expectedStatus, "blocked") ∈ edges)
    (hlease : ∀ d, F d → Leased t id d) :
    Runs py dir authority standing t (Under t F (Loads q))
      (markBlockedLocked py dir q id expectedStatus expectedHash reason) fun _ => F := by
  refine Triple.bind (Q := fun a d => findLocked py q id = .ok a ∧ Under t F (Loads q) d)
    (triple_ofExcept.conseq (fun _ h => h) (fun _ _ h => h) fun _ _ _ => trivial)
    fun a => Triple.of_pure fun hfound => ?_
  refine Triple.bind
    (Q := fun _ d => compareAction a expectedStatus expectedHash = .ok () ∧ Under t F (Loads q) d)
    (triple_ofExcept.conseq (fun _ h => h) (fun _ _ h => h) fun _ _ _ => trivial)
    fun ⟨⟩ => Triple.of_pure fun hcompare => ?_
  have ha : findIn id q.actions = some a := findLocked_eq_ok.mp hfound
  have hid : actionId a = id := (findIn_some ha).1
  have hstatus : HasStatus a expectedStatus := (compareAction_eq_ok.mp hcompare).1
  refine Triple.bind ((triple_verifyExecutionClaim (stable_under hF)).conseq (fun _ h => h)
    (fun _ _ h => h.1) fun _ _ _ => trivial) fun _ => ?_
  refine Triple.bind ((triple_validateAuthority (stable_under hF)).conseq (fun _ h => h)
    (fun _ _ h => h.2) fun _ _ _ => trivial) fun _ => ?_
  refine Triple.bind (runs_look (o := .utcNow) rfl (stable_under hF)) fun now => ?_
  set a' := setField "blocked_reason" (.str reason)
    (setField "updated_at" (.str now.1) (setField "status" (.str "blocked") a))
  have hnew : HasStatus (setField "updated_at" (.str now.1)
      (setField "status" (.str "blocked") a)) "blocked" := by
    show fieldOf _ "status" = _
    rw [fieldOf_setField_ne (by decide), fieldOf_setField_self]
  have hadvances : Advances a a' := by
    refine advances_setField hedge hstatus ?_ hnew (by decide) (by decide)
      (fun h => absurd h (by decide))
    exact (later_setField (by decide)).trans (later_setField (by decide))
  have hid' : actionId a' = id := hadvances.actionId.trans hid
  have hblocked : HasStatus a' "blocked" := by
    show fieldOf _ "status" = _
    rw [fieldOf_setField_ne (by decide)]
    exact hnew
  refine Triple.bind (runs_writeLocked hF fun d now hd hq hi => ?_) fun _ =>
    Triple.ret fun d hd => hd.2.1
  refine Persists.change hi (hq.of_find ha) (hid'.symm ▸ ha) hadvances ?_ ?_
  · intro _
    rw [hid']
    exact hlease d hd
  · intro s hs hs'
    obtain rfl := hblocked.unique hs'
    simp [claimedStatuses] at hs

end Writing

/-! ### Approving -/

section Approving

variable {F : QueueDir → Prop} {P : Option Queue → Prop} {q : Queue}

/-- A check, whatever it says when it fails. -/
theorem runs_ofExcept {α : Type} {x : Except AuthorityExc α} {A : QueueDir → Prop} :
    Runs py dir authority standing t A (ofExcept x) fun a d => x = .ok a ∧ A d :=
  triple_ofExcept.conseq (fun _ h => h) (fun _ _ h => h) fun _ _ _ => trivial

/-- `_publish_execution_claim` ends with the claim its own. -/
theorem runs_publishExecutionClaim {action : Dict} {approvedBy approvedAt : String}
    (hF : Frame t F) (hclaim : ∀ {d c}, F d → F (QueueDir.writeClaim d (actionId action) c))
    (hcreate : ∀ {d}, F d → F (QueueDir.createClaim d t (actionId action)))
    (hP : ∀ x, P x → ∃ q, x = some q ∧ findIn (actionId action) q.actions = some action) :
    Runs py dir authority standing t (Under t F P)
      (publishExecutionClaim dir action approvedBy approvedAt) fun _ d =>
        ∃ now, Owns t (actionId action) (claimOf action approvedBy approvedAt now) d ∧
          Under t F P d := by
  set id := actionId action with hid
  refine Triple.bind (runs_look (o := .utcNow) rfl (stable_under hF)) fun now => ?_
  refine Triple.bind (runs_look (o := .mkdir) rfl (stable_under hF)) fun _ => ?_
  -- created, and nothing complete in it yet
  let Begun (d : QueueDir) : Prop := d.creator id = some t ∧ ∀ v, d.claim id ≠ .json v
  have hbegun : ∀ {d d'}, Begun d → QueueRelies t d d' → Begun d' := by
    intro d d' h hr
    obtain ⟨hc, he⟩ := hr.mine id h.1
    exact ⟨hc, fun v => he.symm ▸ h.2 v⟩
  have hcreated : Runs py dir authority standing t (Under t F P) (onQueue (.createClaim id))
      fun _ d => Begun d ∧ Under t F P d := by
    refine runs_performs (v := ()) (K := fun d => (d.claim id).isFile = false)
      (D := fun d => d.createClaim t id) (stable_under hF) ?_ ?_
    · intro d r d' _ h
      rcases e : (d.claim id).isFile with - | -
      · left
        simp only [queueStep, e] at h
        exact ⟨rfl, h⟩
      · right
        simp only [queueStep, e] at h
        exact h
    · intro d hd hfile hi
      refine ⟨hi.createClaim hfile, fun t' _ => .createClaim hi hfile, ⟨?_, ?_⟩, hcreate hd.1,
        hd.2.lock, hd.2.queue⟩
      · exact Function.update_self ..
      · intro v
        show Function.update d.claim id emptyFile id ≠ _
        rw [Function.update_self, emptyFile]
        exact fun h => by cases h
  refine Triple.bind hcreated.caught fun r => ?_
  rcases r with e | ⟨⟩
  · -- whatever is found there, nothing is claimed
    have hraise : ∀ e' : AuthorityExc, Runs py dir authority standing t (fun _ => True)
        (.raise e' : QueueRun Unit) fun _ d =>
          ∃ now, Owns t id (claimOf action approvedBy approvedAt now) d ∧ Under t F P d :=
      fun _ => Triple.raise fun _ _ => trivial
    refine Triple.conseq (A := fun _ => True) ?_ (fun _ _ => trivial) (fun _ _ h => h)
      fun _ _ h => h
    rcases e with ⟨code, text⟩ | e
    · exact hraise _
    · cases e with
      | fileExistsError text =>
          refine Triple.bind (runs_look (o := .readClaim id) rfl fun _ _ => trivial) fun c => ?_
          refine Triple.bind runs_ofExcept fun existing => Triple.of_pure fun _ => ?_
          refine Triple.bind runs_ofExcept fun _ => Triple.of_pure fun _ => ?_
          exact hraise _
      | _ => exact hraise _
  · have hwrite : Runs py dir authority standing t (fun d => Begun d ∧ Under t F P d)
        (onQueue (.writeClaim id (claimOf action approvedBy approvedAt now.1)))
        fun _ d => Owns t id (claimOf action approvedBy approvedAt now.1) d ∧ Under t F P d := by
      refine triple_ask (fun d d' h hr => ⟨hbegun h.1 hr, stable_under hF h.2 hr⟩) ?_
      rintro d r d' ⟨⟨hmine, hopen⟩, hd⟩ hi ⟨c, hfile, hc, rfl⟩
      refine ⟨hi.writeClaim hmine hopen hfile fun v hv => ?_,
        fun t' hne => .writeClaim hmine hne hopen, ?_, fun _ _ => trivial⟩
      · rcases hc with hc | rfl
        · exact absurd hv (hc v)
        · obtain ⟨q, hq, hfound⟩ := hP d.queue hd.2.queue
          exact ⟨_, (Content.json.inj hv).symm, q, action, approvedBy, approvedAt, now.1,
            hi.persisted hq, hfound, rfl⟩
      refine fun _ _ => ⟨⟨hmine, fun v hv => ?_⟩, hclaim hd.1, hd.2.lock, hd.2.queue⟩
      have hv : Function.update d.claim id c id = .json v := hv
      rw [Function.update_self] at hv
      rcases hc with hc | rfl
      · exact absurd hv (hc v)
      · exact (Content.json.inj hv).symm
    have howns : ∀ {d d'}, Owns t id (claimOf action approvedBy approvedAt now.1) d ∧ Under t F P d →
        QueueRelies t d d' →
        Owns t id (claimOf action approvedBy approvedAt now.1) d' ∧ Under t F P d' :=
      fun h hr => ⟨frame_owns.stable h.1 hr, stable_under hF h.2 hr⟩
    refine Triple.bind (Q := fun r d => ∀ a, r = .ok a →
      Owns t id (claimOf action approvedBy approvedAt now.1) d ∧ Under t F P d) ?_ fun r => ?_
    · refine Triple.attempt (Triple.conseq (Triple.bind hwrite fun _ =>
        runs_look (o := .fsyncClaim id) rfl howns) (fun d h => h.1 () rfl) (fun _ _ h => h)
        fun _ _ h => h) (fun a d h => fun _ _ => h) fun e d _ => by rintro _ ⟨⟩
    refine Triple.bind (runs_look (o := .closeClaim id) rfl
      fun h hr a ha => howns (h a ha) hr) fun _ => ?_
    rcases r with e | a
    · exact Triple.raise fun _ _ => trivial
    · exact runs_ofExcept.conseq (fun d h => h a rfl) (fun _ d h => ⟨now.1, h.2⟩) fun _ _ h => h

/-- The evidence of an approval says what its claim says. -/
theorem approval_evidenceOf {payload : Dict} {approvedBy approvedAt : String}
    (h : fieldOf payload "approved_by" = .str approvedBy ∧
      fieldOf payload "approved_at" = .str approvedAt) (hash : Json) :
    ∀ key ∈ ["approved_by", "approved_at"],
      fieldOf payload key = fieldOf (evidenceOf approvedBy approvedAt hash) key := by
  intro key hkey
  simp only [List.mem_cons, List.not_mem_nil, or_false] at hkey
  rcases hkey with rfl | rfl
  · exact h.1
  · exact h.2

/-- The evidence of an approval is complete. -/
theorem texts_evidenceOf {approvedBy approvedAt : String} {hash : Json} (hby : approvedBy ≠ "")
    (hat : approvedAt ≠ "") (hhash : isText hash = true) :
    ∀ key ∈ ["approved_by", "approved_at", "arguments_hash"],
      isText (fieldOf (evidenceOf approvedBy approvedAt hash) key) = true := by
  intro key hkey
  simp only [List.mem_cons, List.not_mem_nil, or_false] at hkey
  rcases hkey with rfl | rfl | rfl
  · exact isText_iff.mpr ⟨approvedBy, rfl, hby⟩
  · exact isText_iff.mpr ⟨approvedAt, rfl, hat⟩
  · exact hhash

theorem fields_of_validateActionAuthority {a : Dict} {files : AuthorityFiles} {phase : Phase}
    (h : validateActionAuthority py dir files a phase = .ok ()) : ActionFields py a := by
  have hid := (validateActionAuthority_eq_ok.mp h).1
  rw [validateActionIdentity, check_bind_eq_ok] at hid
  exact (validateActionFields_eq_ok.mp hid.1).1

/-- The compare-and-set to `running` and the checks after it. -/
theorem runs_startLocked (hF : Frame t F) {id : String} {argumentsHash : Json}
    {evidence payload : Dict} (hown : ∀ d, F d → Owns t id payload d)
    (hlease : ∀ d, F d → Leased t id d)
    (hevidence : ∀ key ∈ ["approved_by", "approved_at"],
      fieldOf payload key = fieldOf evidence key)
    (htexts : ∀ key ∈ ["approved_by", "approved_at", "arguments_hash"],
      isText (fieldOf evidence key) = true)
    (hhash : fieldOf evidence "arguments_hash" = argumentsHash) :
    Runs py dir authority standing t (Under t F (Loads q))
      (startLocked py dir q id argumentsHash evidence) fun action d =>
        actionId action = id ∧ F d ∧ d.Running id := by
  refine Triple.bind (runs_transitionLocked hF (by decide) hown (fun _ => hlease) hevidence
    fun _ => ⟨htexts, hhash⟩) fun ⟨q', action⟩ => Triple.of_pure fun ⟨hfound, hrunning⟩ => ?_
  have hchecks : Triple (queueRules py dir authority standing t) (Under t F (· = some q'))
      (do validateAuthority py dir action .preDispatch; verifyExecutionClaim dir action)
      (fun _ => Under t F (· = some q')) fun _ => Under t F (· = some q') :=
    Triple.bind ((triple_validateAuthority (stable_under hF)).conseq (fun _ h => h)
      (fun _ _ h => h.2) fun _ _ h => h) fun _ =>
        (triple_verifyExecutionClaim (stable_under hF)).conseq (fun _ h => h)
          (fun _ _ h => h.1) fun _ _ h => h
  refine Triple.bind hchecks.caught fun r => ?_
  rcases r with e | ⟨⟩
  · show Triple _ _ (if _ then _ else _) _ _
    split
    · refine Triple.bind ((runs_markBlockedLocked hF (by decide) hlease).conseq (fun d h => ?_)
        (fun _ _ h => h) fun _ _ h => h) fun _ => Triple.raise fun _ _ => trivial
      obtain ⟨hd, hlock, hq⟩ := h.2 e rfl
      exact ⟨hd, hlock, by rw [hq]; rfl⟩
    · exact Triple.raise fun _ _ => trivial
  · refine Triple.ret fun d h => ?_
    obtain ⟨hd, -, hq⟩ := h.1 () rfl
    exact ⟨(findIn_some hfound).1, hd, q', action, hq, hfound, hrunning⟩

/-- What a call has once it may dispatch: the claim it has written, with who approved it
and when, the lease, and an action that is running; and it has not dispatched. -/
def Ready (t : Tid) (id approvedBy approvedAt : String) (d : QueueDir) : Prop :=
  ∃ payload, (fieldOf payload "approved_by" = .str approvedBy ∧
      fieldOf payload "approved_at" = .str approvedAt) ∧
    (Owns t id payload d ∧ Unsent t d) ∧ Leased t id d ∧ d.Running id

theorem settled_ready {id approvedBy approvedAt : String} :
    Settled t (Ready t id approvedBy approvedAt) := by
  have hframe {payload : Dict} : Settled t fun d =>
      (Owns t id payload d ∧ Unsent t d) ∧ Leased t id d ∧ d.Running id :=
    (frame_owns.and frame_unsent).toSettled.and settled_running
  constructor
  · rintro d d' ⟨payload, hby, h⟩ hr
    exact ⟨payload, hby, hframe.stable h hr⟩
  · rintro d x ⟨payload, hby, h⟩
    exact ⟨payload, hby, hframe.lock h⟩

/-- The part of `approve_and_dispatch` before the dispatch. -/
theorem runs_approveLocked {id phrase approvedBy approvedAt : String} (hat : approvedAt ≠ "") :
    Runs py dir authority standing t (fun d => Unsent t d ∧ d.lock = some t)
      (approveLocked py dir id phrase approvedBy approvedAt) fun r d =>
        actionId r.1 = id ∧ Ready t id approvedBy approvedAt d := by
  refine Triple.bind (runs_loadPayload frame_unsent) fun q => ?_
  refine Triple.bind (runs_ofExcept (A := Under t (Unsent t) (Loads q))) fun proposal =>
    Triple.of_pure fun hfound => ?_
  have ha : findIn id q.actions = some proposal := findLocked_eq_ok.mp hfound
  have hid : actionId proposal = id := (findIn_some ha).1
  refine Triple.bind ((triple_validateAuthority (stable_under frame_unsent)).conseq (fun _ h => h)
    (fun _ _ h => h) fun _ _ _ => trivial) fun _ => Triple.of_pure fun hvalid => ?_
  refine Triple.bind runs_ofExcept fun _ => Triple.of_pure fun _ => ?_
  refine Triple.bind runs_ofExcept fun _ => Triple.of_pure fun _ => ?_
  refine Triple.bind runs_ofExcept fun _ => Triple.of_pure fun happrover => ?_
  refine Triple.bind (runs_publishExecutionClaim frame_unsent (fun h => h) (fun h => h) ?_)
    fun _ => Triple.of_exists fun now => ?_
  · exact fun x hx => ⟨q, hx.of_find ha, hid.symm ▸ ha⟩
  rw [hid]
  set payload := claimOf proposal approvedBy approvedAt now with hpayload
  refine Triple.bind (runs_acquireLease (fun h hr => ⟨frame_owns.stable h.1 hr,
      stable_under frame_unsent h.2 hr⟩)
    fun h => ⟨⟨h.1.creator, h.1.claim⟩, h.2.1, h.2.2.lock, h.2.2.queue⟩) fun _ => ?_
  have hF : Frame t fun d => (Owns t id payload d ∧ Unsent t d) ∧ Leased t id d :=
    (frame_owns.and frame_unsent).and frame_leased
  set evidence := evidenceOf approvedBy approvedAt (fieldOf proposal "arguments_hash")
  have htexts : ∀ key ∈ ["approved_by", "approved_at", "arguments_hash"],
      isText (fieldOf evidence key) = true :=
    texts_evidenceOf (require_eq_ok.mp happrover) hat
      ((fields_of_validateActionAuthority hvalid).texts "arguments_hash" (by decide))
  have hstart : Runs py dir authority standing t
      (Under t (fun d => (Owns t id payload d ∧ Unsent t d) ∧ Leased t id d) (Loads q))
      (startLocked py dir q id (fieldOf proposal "arguments_hash") evidence)
      fun action d => actionId action = id ∧
        ((Owns t id payload d ∧ Unsent t d) ∧ Leased t id d) ∧ d.Running id :=
    runs_startLocked hF (fun _ h => h.1.1) (fun _ h => h.2)
      (approval_evidenceOf ⟨rfl, rfl⟩ _) htexts rfl
  refine Triple.bind (hstart.conseq (fun d h => ⟨⟨⟨h.1.1, h.1.2.1⟩, h.2⟩, h.1.2.2⟩)
    (fun _ _ h => h) fun _ _ h => h).caught fun r => ?_
  rcases r with e | action
  · show Triple _ _ (if _ then _ else _) _ _
    split
    · refine Triple.bind (Q := fun _ _ => True) ?_ fun _ => Triple.raise fun _ _ => trivial
      exact (runs_releaseLease (A := fun _ => True) (fun _ _ => trivial) fun _ => trivial).conseq
        (fun _ _ => trivial) (fun _ _ h => h) fun _ _ h => h
    · exact Triple.raise fun _ _ => trivial
  · refine Triple.ret fun d h => ?_
    obtain ⟨hid', hd, hrunning⟩ := h.1 action rfl
    exact ⟨hid', payload, ⟨rfl, rfl⟩, hd.1, hd.2, hrunning⟩

/-- The part of `approve_and_dispatch` after the dispatch. -/
theorem runs_finishLocked {id newStatus : String} {hash : Json} {evidence payload : Dict}
    (hedge : ("running", newStatus) ∈ edges)
    (hevidence : ∀ key ∈ ["approved_by", "approved_at"],
      fieldOf payload key = fieldOf evidence key) (hnew : newStatus ≠ "running") :
    Runs py dir authority standing t (fun d => Owns t id payload d ∧ Leased t id d)
      (finishLocked py dir id hash newStatus evidence) fun _ _ => True := by
  have hF : Frame t fun d => Owns t id payload d ∧ Leased t id d := frame_owns.and frame_leased
  refine runs_withQueueLock hF.toSettled (fun _ => frame_true.toSettled) ?_
  refine Triple.bind (runs_loadPayload hF) fun q => ?_
  refine Triple.bind (runs_transitionLocked hF hedge (fun _ h => h.1) (fun _ _ h => h.2) hevidence
    fun h => absurd h hnew) fun r => Triple.ret fun _ _ => trivial

/-- `try: body finally: lease.release()` -/
theorem runs_releasing {α : Type} {id : String} {body : QueueRun α} {A : QueueDir → Prop}
    (h : Runs py dir authority standing t A body fun _ _ => True) :
    Runs py dir authority standing t A (releasing id body) fun _ _ => True := by
  refine Triple.bind (h.attempt (B := fun _ _ => True) (fun _ _ _ => trivial)
    fun _ _ _ => trivial) fun r => ?_
  refine Triple.bind (runs_releaseLease (A := fun _ => True) (fun _ _ => trivial)
    fun _ => trivial) fun _ => ?_
  exact runs_ofExcept.conseq (fun _ h => h) (fun _ _ _ => trivial) fun _ _ h => h

/-- The one operation that dispatches. -/
theorem runs_dispatch {action : Dict} {id : String} {payload : Dict} (hid : actionId action = id) :
    Triple (queueRules py dir authority standing t)
      (fun d => (Owns t id payload d ∧ Unsent t d) ∧ Leased t id d ∧ d.Running id)
      (onQueue (.dispatch action)) (fun _ d => Owns t id payload d ∧ Leased t id d)
      fun _ d => Owns t id payload d ∧ Leased t id d := by
  refine triple_ask (fun d d' h hr => ⟨(frame_owns.and frame_unsent).stable h.1 hr,
    settled_running.stable h.2 hr⟩) ?_
  rintro d r d' ⟨⟨howns, hunsent⟩, hlease, hrunning⟩ hi hstep
  obtain rfl : d' = { d with events := .dispatched t action :: d.events } := hstep
  subst hid
  exact ⟨hi.dispatch hrunning howns.creator hunsent, fun t' hne => .dispatch hne,
    fun _ _ => ⟨⟨howns.creator, howns.claim⟩, hlease⟩,
    fun _ _ => ⟨⟨howns.creator, howns.claim⟩, hlease⟩⟩

/-- `approve_and_dispatch` -/
theorem runs_approveAndDispatch {id phrase approvedBy : String} :
    Runs py dir authority standing t (Unsent t) (approveAndDispatch py dir id phrase approvedBy)
      fun _ _ => True := by
  refine Triple.bind (runs_look (o := .utcNow) rfl frame_unsent.stable) fun now => ?_
  have hnow : now.1 ≠ "" := by
    intro h
    have hblank := now.2
    rw [h] at hblank
    cases hblank
  refine Triple.bind (runs_withQueueLock (B := fun r d => actionId r.1 = id ∧
      Ready t id approvedBy now.1 d) frame_unsent.toSettled ?_ (runs_approveLocked hnow))
    fun ⟨action, hash⟩ => Triple.of_pure fun hid => ?_
  · exact fun _ => ⟨fun h hr => ⟨h.1, settled_ready.stable h.2 hr⟩,
      fun h => ⟨h.1, settled_ready.lock h.2⟩⟩
  refine Triple.of_exists fun payload => Triple.of_pure fun hby => ?_
  -- the result of the dispatch is added to the evidence
  have hevidence : ∀ v, ∀ key ∈ ["approved_by", "approved_at"], fieldOf payload key =
      fieldOf (setField "result" v (evidenceOf approvedBy now.1 hash)) key := by
    intro v key hkey
    rw [fieldOf_setField_ne (by rintro rfl; simp at hkey)]
    exact approval_evidenceOf hby hash key hkey
  refine runs_releasing ?_
  refine Triple.bind (runs_dispatch hid).caught fun r => ?_
  rcases r with e | result
  · show Triple _ _ (if _ then _ else _) _ _
    split
    · exact Triple.bind ((runs_finishLocked (by decide) (hevidence .null) (by decide)).conseq
        (fun _ h => h.2 e rfl) (fun _ _ h => h) fun _ _ h => h) fun _ =>
          Triple.raise fun _ _ => trivial
    · exact Triple.raise fun _ _ => trivial
  · exact (runs_finishLocked (by decide) (hevidence result) (by decide)).conseq
      (fun _ h => h.1 result rfl) (fun _ _ h => h) fun _ _ h => h

end Approving

/-! ### The other operations -/

section Others

variable {F : QueueDir → Prop} {q : Queue}

theorem status_of_buildAction {missionId planId skillId tier now : String}
    {charter decision extra a : Dict}
    (h : buildAction py missionId planId skillId tier charter decision extra now = .ok a) :
    HasStatus a "proposed" := by
  unfold buildAction at h
  split at h
  · cases h
  · obtain ⟨arguments, -, h⟩ := bind_eq_ok.mp h
    obtain rfl := Except.ok.inj h
    rfl

theorem evidence_of_buildAction {missionId planId skillId tier now : String}
    {charter decision extra a : Dict}
    (h : buildAction py missionId planId skillId tier charter decision extra now = .ok a) :
    isDict (fieldOf a "evidence") = false := by
  unfold buildAction at h
  split at h
  · cases h
  · obtain ⟨arguments, -, h⟩ := bind_eq_ok.mp h
    obtain rfl := Except.ok.inj h
    rfl

/-- What has been built and has passed the checkpoint may be proposed. -/
theorem bound_of_validateActionAuthority {missionId planId skillId tier now : String}
    {charter decision extra a : Dict} {phase : Phase}
    (hbuilt : buildAction py missionId planId skillId tier charter decision extra now = .ok a)
    (hvalid : validateActionAuthority py dir authority a phase = .ok ()) :
    HasStatus a "proposed" ∧ Bound py dir authority a := by
  obtain ⟨-, charter', decision', hauth, hbinding⟩ := validateActionAuthority_eq_ok.mp hvalid
  exact ⟨status_of_buildAction hbuilt, fields_of_validateActionAuthority hvalid,
    ⟨charter', decision', loadAuthoritativeState_eq_ok.mpr hauth, hbinding⟩,
    evidence_of_buildAction hbuilt⟩

theorem runs_proposeAction {missionId planId tier skillId : String} {charter decision extra : Dict}
    {A : QueueDir → Prop} (hA : ∀ {d d'}, A d → QueueRelies t d d' → A d') :
    Runs py dir authority standing t A
      (proposeAction py missionId planId tier charter decision extra skillId) fun a d =>
        (∃ now, buildAction py missionId planId skillId tier charter decision extra now = .ok a) ∧
          A d :=
  Triple.bind (runs_look (o := .utcNow) rfl hA) fun now =>
    runs_ofExcept.conseq (fun _ h => h) (fun _ _ h => ⟨⟨now.1, h.1⟩, h.2⟩) fun _ _ h => h

/-- `_restore_locked` only looks. -/
theorem runs_restoreLocked {A : QueueDir → Prop} (hA : ∀ {d d'}, A d → QueueRelies t d d' → A d') :
    Runs py dir authority standing t A (restoreLocked py dir q) fun _ => A := by
  refine Triple.bind (triple_forM (Q := fun _ => True) fun action _ => ?_) fun _ =>
    Triple.ret fun _ h => h.2
  refine Triple.bind ((triple_validateAuthority hA).conseq (fun _ h => h) (fun _ _ h => h.2)
    fun _ _ _ => trivial) fun _ => ?_
  show Triple _ _ (if _ then _ else _) _ _
  split
  · exact (triple_verifyExecutionClaim hA).conseq (fun _ h => h) (fun _ _ h => ⟨trivial, h.1⟩)
      fun _ _ _ => trivial
  · exact Triple.ret fun _ h => ⟨trivial, h⟩

theorem runs_restore : Runs py dir authority standing t (fun _ => True) (restore py dir) fun _ _ => True := by
  refine runs_withQueueLock frame_true.toSettled (fun _ => frame_true.toSettled) ?_
  refine Triple.bind (runs_loadPayload frame_true) fun q => ?_
  exact (runs_restoreLocked (stable_under frame_true)).conseq (fun _ h => h)
    (fun _ _ _ => trivial) fun _ _ h => h

/-- `initialize` -/
theorem runs_initializeQueue {missionId planId : String} :
    Runs py dir authority standing t (fun _ => True) (initializeQueue py dir missionId planId)
      fun _ _ => True := by
  refine runs_withQueueLock frame_true.toSettled (fun _ => frame_true.toSettled) ?_
  refine Triple.bind (Q := fun found => Under t (fun _ => True) fun x => found = x.isSome) ?_
    fun found => ?_
  · refine (triple_look (o := .queueExists) rfl
      (fun {d d'} h hr => ⟨trivial, (hr.locked h.2).1⟩) ?_).conseq (fun _ h => h) (fun _ _ h => h)
      fun _ _ _ => trivial
    exact fun v d hd _ hstep => ⟨trivial, hd.2, hstep.2 v rfl⟩
  cases found with
  | true =>
      refine Triple.bind (runs_load frame_true) fun q => ?_
      exact (runs_restoreLocked (stable_under frame_true)).conseq (fun _ h => h)
        (fun _ _ _ => trivial) fun _ _ h => h
  | false =>
      refine Triple.bind ((triple_loadAuthority (stable_under frame_true)).conseq (fun _ h => h)
        (fun _ _ h => h) fun _ _ _ => trivial)
        fun ⟨charter, decision⟩ => Triple.of_pure fun hload => ?_
      refine Triple.bind runs_ofExcept fun _ => Triple.of_pure fun _ => ?_
      refine Triple.bind (triple_mapM fun skillId _ =>
        runs_proposeAction (stable_under frame_true)) fun actions => Triple.of_pure fun hbuilt => ?_
      refine Triple.bind (triple_forM fun action _ => (triple_validateAuthority
        (stable_under frame_true)).conseq (fun _ h => h) (fun _ _ h => h)
        fun _ _ _ => trivial) fun _ => Triple.of_pure fun hvalid => ?_
      refine (runs_writeLocked frame_true fun d now _ hq hi => ?_).conseq (fun _ h => h)
        (fun _ _ _ => trivial) fun _ _ h => h
      refine Persists.first hi (by simpa using hq.symm)
        ⟨charter, decision, missionId, planId, ⟨rfl, rfl⟩, hload, hbuilt⟩ ?_
      intro a ha
      obtain ⟨skillId, -, now, hnow⟩ := hbuilt.exists_left ha
      exact bound_of_validateActionAuthority hnow (hvalid a ha)

/-- `append_action_checked` -/
theorem runs_appendActionChecked {missionId planId skillId : String} {extra : Dict} :
    Runs py dir authority standing t (fun _ => True)
      (appendActionChecked py dir missionId planId skillId extra) fun _ _ => True := by
  refine runs_withQueueLock frame_true.toSettled (fun _ => frame_true.toSettled) ?_
  refine Triple.bind (runs_loadPayload frame_true) fun q => ?_
  refine Triple.bind runs_ofExcept fun _ => Triple.of_pure fun hmission => ?_
  refine Triple.bind ((triple_loadAuthority (stable_under frame_true)).conseq (fun _ h => h)
    (fun _ _ h => h) fun _ _ _ => trivial)
    fun ⟨charter, decision⟩ => Triple.of_pure fun hload => ?_
  refine Triple.bind (runs_proposeAction (stable_under frame_true)) fun candidate =>
    Triple.of_pure fun ⟨now, hbuilt⟩ => ?_
  have hfind : q.find (actionId candidate) = findIn (actionId candidate) q.actions := rfl
  rw [hfind]
  rcases hfound : findIn (actionId candidate) q.actions with - | existing
  · refine Triple.bind ((triple_validateAuthority (stable_under frame_true)).conseq (fun _ h => h)
      (fun _ _ h => h) fun _ _ _ => trivial) fun _ => Triple.of_pure fun hvalid => ?_
    refine Triple.bind (runs_writeLocked frame_true fun d now _ hq hi => ?_) fun _ =>
      Triple.ret fun _ _ => trivial
    have hsome : d.queue = some q := by
      rcases e : d.queue with - | q'
      · rw [e] at hq
        obtain rfl : Queue.empty = q := hq
        cases require_eq_ok.mp hmission
      · rw [e] at hq
        exact congrArg some hq
    exact Persists.append hi hsome hfound (bound_of_validateActionAuthority hbuilt hvalid)
  · refine Triple.bind runs_ofExcept fun _ => Triple.of_pure fun _ => ?_
    refine Triple.bind ((triple_validateAuthority (stable_under frame_true)).conseq (fun _ h => h)
      (fun _ _ h => h.2) fun _ _ _ => trivial) fun _ => Triple.ret fun _ _ => trivial

/-- `reject_action_checked` -/
theorem runs_rejectActionChecked {id phrase expectedHash : String} :
    Runs py dir authority standing t (fun _ => True) (rejectActionChecked py dir id phrase expectedHash)
      fun _ _ => True := by
  refine runs_withQueueLock frame_true.toSettled (fun _ => frame_true.toSettled) ?_
  refine Triple.bind (runs_loadPayload frame_true) fun q => ?_
  refine Triple.bind runs_ofExcept fun a => Triple.of_pure fun hfound => ?_
  have ha : findIn id q.actions = some a := findLocked_eq_ok.mp hfound
  refine Triple.bind runs_ofExcept fun _ => Triple.of_pure fun hstatus => ?_
  have hproposed : HasStatus a "proposed" := require_eq_ok.mp hstatus
  refine Triple.bind runs_ofExcept fun _ => Triple.of_pure fun _ => ?_
  refine Triple.bind (runs_look (o := .claimExists id) rfl (stable_under frame_true)) fun found => ?_
  cases found with
  | true =>
      exact Triple.bind ((triple_verifyExecutionClaim (stable_under frame_true)).conseq
        (fun _ h => h) (fun _ _ h => h.1) fun _ _ _ => trivial) fun _ =>
          Triple.raise fun _ _ => trivial
  | false =>
      refine Triple.bind ((triple_validateAuthority (stable_under frame_true)).conseq
        (fun _ h => h) (fun _ _ h => h.2) fun _ _ _ => trivial) fun _ => ?_
      refine Triple.bind runs_ofExcept fun _ => Triple.of_pure fun _ => ?_
      refine Triple.bind (runs_look (o := .utcNow) rfl (stable_under frame_true)) fun now => ?_
      set a' := setField "updated_at" (.str now.1) (setField "status" (.str "rejected") a)
      have hrejected : HasStatus a' "rejected" := by
        show fieldOf _ "status" = _
        rw [fieldOf_setField_ne (by decide), fieldOf_setField_self]
      have hedge : ("proposed", "rejected") ∈ edges := by decide
      have hadvances : Advances a a' :=
        advances_setField hedge hproposed (later_setField (by decide))
          fieldOf_setField_self (by decide) (by decide) fun h => absurd h (by decide)
      have hid : actionId a' = id := hadvances.actionId.trans (findIn_some ha).1
      refine Triple.bind (runs_writeLocked frame_true fun d now _ hq hi => ?_) fun _ =>
        Triple.ret fun _ _ => trivial
      refine Persists.change hi (hq.of_find ha) (hid.symm ▸ ha) hadvances ?_ ?_
      · intro hrunning
        exact absurd (hproposed.unique hrunning) (by decide)
      · intro s hs hs'
        obtain rfl := hrejected.unique hs'
        simp [claimedStatuses] at hs

/-- `_lease_is_held` takes the lease and gives it back, or does not get it. -/
theorem runs_leaseIsHeld {id : String} :
    Runs py dir authority standing t (fun _ => True) (leaseIsHeld id) fun _ _ => True := by
  refine Triple.bind (runs_look (o := .mkdir) rfl fun _ _ => trivial) fun _ => ?_
  refine Triple.bind (runs_look (o := .openLease id) rfl fun _ _ => trivial) fun _ => ?_
  refine Triple.bind (runs_flockLease (F := fun _ => True) (fun _ _ => trivial)
    fun _ => trivial).caught fun r => ?_
  rcases r with (⟨code, text⟩ | e) | ⟨⟩
  · exact Triple.raise fun _ _ => trivial
  · show Triple _ _ (if _ then _ else _) _ _
    split
    · exact Triple.ret fun _ _ => trivial
    · exact Triple.raise fun _ _ => trivial
  · refine Triple.bind ((runs_releaseLease (A := fun _ => True) (fun _ _ => trivial)
      fun _ => trivial).conseq (fun _ _ => trivial) (fun _ _ h => h) fun _ _ h => h) fun _ => ?_
    exact Triple.ret fun _ _ => trivial

theorem runs_classify {action : Dict} :
    Runs py dir authority standing t (fun _ => True) (classify dir action) fun _ _ => True := by
  have hverify : Runs py dir authority standing t (fun _ => True) (verifyExecutionClaim dir action)
      fun _ _ => True :=
    (triple_verifyExecutionClaim fun _ _ => trivial).conseq (fun _ h => h) (fun _ _ _ => trivial)
      fun _ _ _ => trivial
  refine Triple.bind (runs_look (o := .claimExists (actionId action)) rfl fun _ _ => trivial)
    fun found => ?_
  show Triple _ _ (if _ then _ else _) _ _
  split
  · cases found with
    | true => exact Triple.bind hverify fun _ => Triple.ret fun _ _ => trivial
    | false => exact Triple.ret fun _ _ => trivial
  · cases found with
    | true =>
        exact Triple.bind hverify fun _ => Triple.bind runs_leaseIsHeld fun _ =>
          Triple.ret fun _ _ => trivial
    | false => exact Triple.raise fun _ _ => trivial

/-- `find_recovery_candidates` -/
theorem runs_findRecoveryCandidates :
    Runs py dir authority standing t (fun _ => True) (findRecoveryCandidates dir) fun _ _ => True := by
  refine runs_withQueueLock frame_true.toSettled (fun _ => frame_true.toSettled) ?_
  refine Triple.bind (runs_loadPayload frame_true) fun q => ?_
  refine (triple_mapM (A := fun _ => True) (Q := fun _ _ => True) fun action _ =>
    runs_classify.conseq (fun _ h => h) (fun _ _ _ => ⟨trivial, trivial⟩) fun _ _ h => h).conseq
    (fun _ _ => trivial) (fun _ _ _ => trivial) fun _ _ h => h

/-- `block_interrupted_action_checked` -/
theorem runs_blockInterruptedActionChecked {id phrase expectedHash reason : String} :
    Runs py dir authority standing t (fun _ => True)
      (blockInterruptedActionChecked py dir id phrase expectedHash reason) fun _ _ => True := by
  refine runs_withQueueLock frame_true.toSettled (fun _ => frame_true.toSettled) ?_
  refine Triple.bind (runs_loadPayload frame_true) fun q => ?_
  refine Triple.bind runs_ofExcept fun a => Triple.of_pure fun hfound => ?_
  have ha : findIn id q.actions = some a := findLocked_eq_ok.mp hfound
  refine Triple.bind runs_ofExcept fun _ => Triple.of_pure fun hpending => ?_
  refine Triple.bind runs_ofExcept fun _ => Triple.of_pure fun _ => ?_
  refine Triple.bind runs_ofExcept fun _ => Triple.of_pure fun _ => ?_
  refine Triple.bind ((triple_verifyExecutionClaim (stable_under frame_true)).conseq
    (fun _ h => h) (fun _ _ h => h.1) fun _ _ _ => trivial) fun _ => ?_
  refine Triple.bind ((triple_validateAuthority (stable_under frame_true)).conseq
    (fun _ h => h) (fun _ _ h => h.2) fun _ _ _ => trivial) fun _ => ?_
  refine Triple.bind (runs_acquireLease (stable_under frame_true)
    fun h => ⟨trivial, h.2.lock, h.2.queue⟩) fun _ => ?_
  have hunder : ∀ {d d'}, Under t (fun _ => True) (Loads q) d ∧ Leased t id d →
      QueueRelies t d d' → Under t (fun _ => True) (Loads q) d' ∧ Leased t id d' :=
    fun h hr => ⟨stable_under frame_true h.1 hr, frame_leased.stable h.2 hr⟩
  refine runs_releasing (Triple.bind ((triple_verifyExecutionClaim hunder).conseq
    (fun _ h => h) (fun _ _ h => h.1) fun _ _ _ => trivial) fun _ => ?_)
  have hedge : (status a, "blocked") ∈ edges := by
    have h : isPending a = true := require_eq_ok.mp hpending
    simp only [isPending, Bool.or_eq_true, beq_iff_eq] at h
    rcases h with h | h <;> simp [status, h, textOf, edges]
  exact (runs_markBlockedLocked frame_leased hedge fun _ h => h).conseq
    (fun _ h => ⟨h.2, h.1.2⟩) (fun _ _ _ => trivial) fun _ _ h => h

/-- Every call keeps to the rules. -/
theorem runs_call (c : QueueCall) :
    Runs py dir authority standing t (Unsent t) (c.run py dir) fun _ _ => True := by
  have hdiscard : ∀ {α : Type} {m : QueueRun α} {A : QueueDir → Prop},
      Runs py dir authority standing t A m (fun _ _ => True) →
      Runs py dir authority standing t A (discard m) fun _ _ => True :=
    fun h => Triple.bind h fun _ => Triple.ret fun _ _ => trivial
  have hpre : ∀ {m : QueueRun Unit}, Runs py dir authority standing t (fun _ => True) m (fun _ _ => True) →
      Runs py dir authority standing t (Unsent t) m fun _ _ => True :=
    fun h => h.conseq (fun _ _ => trivial) (fun _ _ h => h) fun _ _ h => h
  cases c with
  | init missionId planId => exact hpre (hdiscard runs_initializeQueue)
  | append missionId planId skillId extra => exact hpre (hdiscard runs_appendActionChecked)
  | approve id phrase approvedBy => exact hdiscard runs_approveAndDispatch
  | reject id phrase expectedHash => exact hpre (hdiscard runs_rejectActionChecked)
  | recover => exact hpre (hdiscard runs_findRecoveryCandidates)
  | block id phrase expectedHash reason =>
      exact hpre (hdiscard runs_blockInterruptedActionChecked)
  | restore => exact hpre (hdiscard (runs_restore))

end Others

/-! ### Every run -/

/-- The death of another thread takes only its own locks. -/
theorem queueRelies_afterDeath {t t' : Tid} {d : QueueDir} (hne : t ≠ t') :
    QueueRelies t' d (d.afterDeath t) :=
  .locks (without_of_ne hne) fun _ => without_of_ne hne

def queueOutline (py : Stdlib) (dir : MissionPath) (authority : AuthorityFiles)
    (standing : String → Content) : (queueCalls py dir).Outline where
  inv := QueueInv py dir authority standing
  rely := QueueRelies
  guar := fun t d d' => ∀ t', t ≠ t' → QueueRelies t' d d'
  start := Unsent
  rely_refl := QueueRelies.refl
  rely_trans := QueueRelies.trans
  start_stable := frame_unsent.stable
  guar_rely := fun hne h => h _ hne
  die_inv := by
    rintro t d d' h rfl
    exact h.locks
  die_rely := by
    rintro t t' d d' hne rfl
    exact queueRelies_afterDeath hne
  env_inv := by
    rintro _ d d' h rfl
    exact h
  env_rely := by
    rintro _ t d d' rfl -
    exact QueueRelies.refl t _
  call_ok := fun t c => (runs_call c).conseq (fun _ h => h.2) (fun _ _ h => h) fun _ _ h => h

theorem queueInv_init : QueueInv py dir authority standing (QueueDir.init authority standing) where
  files := rfl
  history := .nil
  current := rfl
  created := by rintro id t ⟨⟩
  unclaimed := fun _ _ => rfl
  written := by rintro id t v ⟨⟩
  dispatched := by
    intro t a ha
    cases ha
  claimed := by
    intro q hq
    cases hq

/-- The configurations of a mission that begins without a queue. -/
abbrev QueueReaches (py : Stdlib) (dir : MissionPath) (authority : AuthorityFiles)
    (standing : String → Content) (c : Conf QueueDir QueueOp.Ans AuthorityExc Unit) : Prop :=
  (queueCalls py dir).Reachable (QueueDir.init authority standing) c

/-- **The invariant holds in every run.** -/
theorem queueInv_reachable {c : Conf QueueDir QueueOp.Ans AuthorityExc Unit}
    (h : QueueReaches py dir authority standing c) :
    QueueInv py dir authority standing c.world :=
  (queueOutline py dir authority standing).reachable queueInv_init (fun _ _ ha => by cases ha) h

/-- **At most one dispatch.**  Whatever calls run, in whatever order, and whoever dies,
no id is dispatched twice; and of an event and an older one, what is dispatched has not
been persisted as rejected or blocked, nor is what has been dispatched persisted as
rejected, before or after. -/
theorem dispatched_once {c : Conf QueueDir QueueOp.Ans AuthorityExc Unit}
    (h : QueueReaches py dir authority standing c) :
    (dispatchedIds c.world.events).Nodup ∧ c.world.events.Pairwise Follows :=
  ⟨(queueInv_reachable h).history.nodup_dispatchedIds, (queueInv_reachable h).history.follows⟩

/-- The time of a sample run. -/
def sampleNow : Timestamp := newYear

def sampleAuthority : AuthorityFiles := sampleFiles (.json (.obj sampleReceipt))

/-- A run on the sample mission: the queue is initialized, and its one action is approved
by a call that gets as far as `turns` operations. -/
def dispatchRun (turns : Nat) : Conf QueueDir QueueOp.Ans AuthorityExc Unit :=
  (queueCalls exactHashes sampleDir).play (queueAnswer sampleNow)
    (.spawn (.init "mission-a" "mission-a-plan") :: List.replicate 20 (.run 0) ++
      .spawn (.approve "action-b0e8355524" "APROBAR ACCION-B0E8355524" "ana") ::
      List.replicate turns (.run 1))
    (Conf.init (QueueDir.init sampleAuthority fun _ => .absent))

theorem dispatchRun_reached (turns : Nat) :
    QueueReaches exactHashes sampleDir sampleAuthority (fun _ => .absent) (dispatchRun turns) :=
  System.reaches_play (queueAnswer_step sampleNow) _ (by simp) _

/-- The claim of the action is complete, and nobody has its lease. -/
def claimComplete (d : QueueDir) (a : Dict) : Bool :=
  match d.claim (actionId a) with
  | .json _ => (d.lease (actionId a)).isNone
  | _ => false

/-- The action is proposed, and its claim is an empty file. -/
def claimBroken (d : QueueDir) (a : Dict) : Bool :=
  decide (HasStatus a "proposed" ∧ d.claim (actionId a) = emptyFile)

/-- One evaluation of the run: when it has got to its end, and where the call that approves has written
its claim, or has only created it. -/
theorem dispatchRun_evaluates :
    dispatchedIds (dispatchRun 60).world.events = ["action-b0e8355524"] ∧
      ((dispatchRun 10).Live 1 ∧ ((dispatchRun 10).world.afterDeath 1).lock = none ∧
        (((dispatchRun 10).world.afterDeath 1).queue.all fun q =>
          q.actions.all (claimComplete ((dispatchRun 10).world.afterDeath 1))) = true) ∧
      (dispatchRun 9).Live 1 ∧ ((dispatchRun 9).world.afterDeath 1).lock = none ∧
        (((dispatchRun 9).world.afterDeath 1).queue.any fun q =>
          q.actions.any (claimBroken ((dispatchRun 9).world.afterDeath 1))) = true := by
  unfold Conf.Live
  decide +kernel

theorem dispatchRun_dispatches :
    dispatchedIds (dispatchRun 60).world.events = ["action-b0e8355524"] :=
  dispatchRun_evaluates.1

/-- A call that gets to its end dispatches its action once. -/
theorem dispatchRun_dispatched_once :
    dispatchedIds (dispatchRun 60).world.events = ["action-b0e8355524"] ∧
      (dispatchedIds (dispatchRun 60).world.events).Nodup ∧
      (dispatchRun 60).world.events.Pairwise Follows :=
  ⟨dispatchRun_dispatches, dispatched_once (dispatchRun_reached 60)⟩

/-! ### The ids of a queue -/

/-- Of the actions that `initialize` proposes for a mission and a plan, no two are named
by the same ten digits: the truncated digests do not collide. -/
def DistinctIds (py : Stdlib) (charter decision : Dict) (missionId planId : String) : Prop :=
  ∀ s ∈ skillsOf charter "proposed_skills", ∀ s' ∈ skillsOf charter "proposed_skills", s ≠ s' →
    ∀ arguments arguments',
      actionArguments py planId s "initial" charter decision [] = .ok arguments →
      actionArguments py planId s' "initial" charter decision [] = .ok arguments' →
      computeActionId py missionId s (computeArgumentsHash py arguments) ≠
        computeActionId py missionId s' (computeArgumentsHash py arguments')

/-- The id of an action that has been built. -/
theorem actionId_of_buildAction {missionId planId skillId tier now : String}
    {charter decision extra a : Dict}
    (h : buildAction py missionId planId skillId tier charter decision extra now = .ok a) :
    ∃ arguments, actionArguments py planId skillId tier charter decision extra = .ok arguments ∧
      actionId a = computeActionId py missionId skillId (computeArgumentsHash py arguments) := by
  unfold buildAction at h
  split at h
  · cases h
  · obtain ⟨arguments, harguments, h⟩ := bind_eq_ok.mp h
    obtain rfl := Except.ok.inj h
    exact ⟨arguments, harguments, rfl⟩

/-- What is built for different things has different ids. -/
theorem nodup_of_forall₂ {α : Type} {R : α → Dict → Prop} {xs : List α} {as : List Dict}
    (h : List.Forall₂ R xs as) (hxs : xs.Nodup)
    (hne : ∀ x ∈ xs, ∀ y ∈ xs, ∀ a b, x ≠ y → R x a → R y b → actionId a ≠ actionId b) :
    (as.map actionId).Nodup := by
  induction h with
  | nil => exact List.nodup_nil
  | @cons x a xs as hxa hrest ih =>
      obtain ⟨hx, hnodup⟩ := List.nodup_cons.mp hxs
      refine List.nodup_cons.mpr ⟨?_, ih hnodup fun y hy z hz =>
        hne y (List.mem_cons_of_mem _ hy) z (List.mem_cons_of_mem _ hz)⟩
      intro hmem
      obtain ⟨b, hb, hab⟩ := List.mem_map.mp hmem
      obtain ⟨y, hy, hyb⟩ := hrest.exists_left hb
      refine hne x List.mem_cons_self y (List.mem_cons_of_mem _ hy) a b ?_ hxa hyb hab.symm
      rintro rfl
      exact hx hy

theorem Proposed.nodup {q : Queue} (h : Proposed py dir authority q) {missionId planId : String}
    (hq : q.missionId = some missionId ∧ q.planId = some planId)
    (hids : ∀ charter decision, loadAuthoritativeState py dir authority = .ok (charter, decision) →
      DistinctIds py charter decision missionId planId) : (q.actions.map actionId).Nodup := by
  obtain ⟨charter, decision, missionId', planId', ⟨hm, hp⟩, hload, hbuilt⟩ := h.built
  obtain rfl := Option.some.inj (hm.symm.trans hq.1)
  obtain rfl := Option.some.inj (hp.symm.trans hq.2)
  have hshape : CharterShape charter := (loadAuthoritativeState_eq_ok.mp hload).approved.shape
  refine nodup_of_forall₂ hbuilt (hshape.nodup_skillsOf (by decide)) ?_
  rintro s hs s' hs' a b hne ⟨now, ha⟩ ⟨now', hb⟩
  obtain ⟨arguments, harguments, hida⟩ := actionId_of_buildAction ha
  obtain ⟨arguments', harguments', hidb⟩ := actionId_of_buildAction hb
  rw [hida, hidb]
  exact hids charter decision hload s hs s' hs' hne arguments arguments' harguments harguments'

/-- What holds of the queues of a mission. -/
structure QueueKept (d : QueueDir) : Prop where
  current : d.queue = newest d.events
  succeeds : (persistedQueues d.events).IsChain fun q' q => Succeeds q q'
  claimed : ∀ q, .persisted q ∈ d.events → ∀ a ∈ q.actions, ∀ s ∈ claimedStatuses,
    HasStatus a s → Claimed d a

/-- The ids of a queue are different. -/
theorem nodup_of_reaches {c : Conf QueueDir QueueOp.Ans AuthorityExc Unit}
    (h : QueueReaches py dir authority standing c)
    (hids : ∀ q charter decision missionId planId, c.world.queue = some q →
      q.missionId = some missionId ∧ q.planId = some planId →
      loadAuthoritativeState py dir authority = .ok (charter, decision) →
      DistinctIds py charter decision missionId planId) {q : Queue}
    (hq : .persisted q ∈ c.world.events) : (q.actions.map actionId).Nodup := by
  have hinv := queueInv_reachable h
  obtain ⟨q', hq'⟩ := History.newest_isSome hq
  refine (hinv.history.same_plan hq').nodup ?_ q hq
  rintro q₀ ⟨hproposed, hm, hp⟩
  obtain ⟨-, -, missionId, planId, hids₀, -, -⟩ := hproposed.built
  refine hproposed.nodup hids₀ fun charter decision hload => ?_
  exact hids q' charter decision missionId planId (hinv.current.trans hq')
    ⟨hm.symm.trans hids₀.1, hp.symm.trans hids₀.2⟩ hload

/-- **Nothing is lost.**  Whatever calls run, in whatever order, and whoever dies, the
queue file is what has been persisted last, each persisted queue succeeds the one before,
and what is running, completed or failed has its claim.  No two actions have one id, if the
ids of the proposed skills do not collide. -/
theorem queue_kept {c : Conf QueueDir QueueOp.Ans AuthorityExc Unit}
    (h : QueueReaches py dir authority standing c) : QueueKept c.world ∧
      ((∀ q charter decision missionId planId, c.world.queue = some q →
        q.missionId = some missionId ∧ q.planId = some planId →
        loadAuthoritativeState py dir authority = .ok (charter, decision) →
        DistinctIds py charter decision missionId planId) →
      ∀ q, .persisted q ∈ c.world.events → (q.actions.map actionId).Nodup) :=
  ⟨⟨(queueInv_reachable h).current, (queueInv_reachable h).history.succeeds,
    (queueInv_reachable h).claimed⟩, fun hids _ hq => nodup_of_reaches h hids hq⟩

/-- The sample mission proposes one skill. -/
theorem sampleAuthority_distinctIds {charter decision : Dict}
    (hload : loadAuthoritativeState exactHashes sampleDir sampleAuthority = .ok (charter, decision))
    (missionId planId : String) : DistinctIds exactHashes charter decision missionId planId := by
  obtain ⟨rfl, rfl⟩ := Prod.mk.inj (Except.ok.inj (hload.symm.trans sample_evaluates.2.2.1))
  have hskills : skillsOf sampleApproved "proposed_skills" = ["inspect_git_status"] := rfl
  intro s hs s' hs' hne
  rw [hskills] at hs hs'
  exact absurd ((List.mem_singleton.mp hs).trans (List.mem_singleton.mp hs').symm) hne

theorem dispatchRun_kept :
    dispatchedIds (dispatchRun 60).world.events = ["action-b0e8355524"] ∧
      QueueKept (dispatchRun 60).world ∧
      ∀ q, .persisted q ∈ (dispatchRun 60).world.events → (q.actions.map actionId).Nodup :=
  ⟨dispatchRun_dispatches, (queue_kept (dispatchRun_reached 60)).1,
    (queue_kept (dispatchRun_reached 60)).2 fun _ _ _ missionId planId _ _ hload =>
      sampleAuthority_distinctIds hload missionId planId⟩

end Konoha.Hokage
