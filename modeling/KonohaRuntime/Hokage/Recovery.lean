/-
Hokage/Recovery.lean

Recovery after calls that have died.  A claim is created and then written, so a call
that dies in between leaves a file that is not JSON; `find_recovery_candidates` verifies
the claim of every pending action and raises for all of them when one is broken.

`recovers_iff`: on a healthy machine, while nobody holds the queue lock, every pending
action is classified and every interrupted one can be blocked exactly when the claim of
no proposed action is broken and nobody holds the lease of a claimed one.
-/
import Mathlib.Tactic.IntervalCases
import KonohaRuntime.Base.Strip
import KonohaRuntime.Effects.Eval
import KonohaRuntime.Hokage.Operations

namespace Konoha.Hokage

open Effects Json Prog

variable {py : Stdlib} {dir : MissionPath} {now : Timestamp} {t : Tid} {d : QueueDir}

/-! ### What a healthy machine sees -/

/-- In `d`, program `m` only looks, and what it returns or raises is `x`. -/
abbrev Sees (now : Timestamp) (t : Tid) (d : QueueDir) {α : Type} (m : QueueRun α)
    (x : Except AuthorityExc α) : Prop :=
  Computes (queueAnswer now t) d m x

theorem sees_load : Sees now t d load (.ok (d.queue.getD Queue.empty)) := by
  rcases e : d.queue with - | q <;> simp [Computes, load, Prog.ask, eval, queueAnswer, e]

theorem sees_validateAuthority {action : Dict} {phase : Phase} :
    Sees now t d (validateAuthority py dir action phase)
      (validateActionAuthority py dir d.authority action phase) := by
  have hread : Sees now t d (onQueue .readAuthority) (.ok d.authority) := rfl
  have hload : Sees now t d (loadAuthority py dir) (loadAuthoritativeState py dir d.authority) :=
    hread.after .ofExcept
  exact Computes.bind .ofExcept fun _ _ => hload.bind fun ⟨charter, decision⟩ _ => .ofExcept

/-- What `verify_execution_claim` says of an action. -/
def verifiedClaim (dir : MissionPath) (d : QueueDir) (action : Dict) : Except AuthorityExc Unit :=
  if (d.claim (actionId action)).isFile then do
    let claim ← parseClaim (d.claim (actionId action))
    validateClaim claim action
  else
    .error (.binding .executionClaimMissing
      ("no execution claim at " ++ claimPath dir (actionId action)))

theorem sees_verifyExecutionClaim {action : Dict} :
    Sees now t d (verifyExecutionClaim dir action) (verifiedClaim dir d action) := by
  have hexists : Sees now t d (onQueue (.claimExists (actionId action)))
      (.ok (d.claim (actionId action)).isFile) := rfl
  have hread : Sees now t d (onQueue (.readClaim (actionId action)))
      (.ok (d.claim (actionId action))) := rfl
  refine hexists.after ?_
  unfold verifiedClaim
  split
  · exact hread.after (Computes.bind .ofExcept fun _ _ => .ofExcept)
  · rfl

/-- Taking a lease that is free and giving it back leaves the directory as it was. -/
theorem setLease_back {id : String} (h : d.lease id = none) :
    (d.setLease id (some t)).setLease id none = d := by
  have hlease : Function.update (Function.update d.lease id (some t)) id none = d.lease := by
    rw [Function.update_idem, ← h, Function.update_eq_self]
  show { d with lease := Function.update (Function.update d.lease id (some t)) id none } = d
  rw [hlease]

theorem sees_leaseIsHeld {id : String} : Sees now t d (leaseIsHeld id) (.ok (d.lease id).isSome) := by
  have hmkdir : Sees now t d (onQueue .mkdir) (.ok ()) := rfl
  have hopen : Sees now t d (onQueue (.openLease id)) (.ok ()) := rfl
  refine hmkdir.after (hopen.after ?_)
  rcases e : d.lease id with - | t'
  · have hflock : (onQueue (.flockLease id)).attempt.eval (queueAnswer now t) d =
        (.ok (.ok ()), d.setLease id (some t)) := by
      rw [eval_attempt]
      simp [Prog.ask, eval, queueAnswer, e]
    refine (eval_bind_ok hflock).trans ?_
    have hunlock : (onQueue (.unlockLease id)).eval (queueAnswer now t) (d.setLease id (some t)) =
        (.ok (), d) := by
      simp only [Prog.ask, eval, queueAnswer]
      rw [show QueueDir.without t ((d.setLease id (some t)).lease id) = none by
        simp [QueueDir.setLease, QueueDir.without], setLease_back e]
    exact (eval_bind_ok hunlock).trans rfl
  · have hflock : (onQueue (.flockLease id)).attempt.eval (queueAnswer now t) d =
        (.ok (.error (.python (.osError ""))), d) := by
      rw [eval_attempt]
      simp [Prog.ask, eval, queueAnswer, e]
    exact (eval_bind_ok hflock).trans rfl

/-- What `find_recovery_candidates` makes of one pending action. -/
def classification (dir : MissionPath) (d : QueueDir) (action : Dict) :
    Except AuthorityExc RecoveryCandidate :=
  if HasStatus action "proposed" then
    if (d.claim (actionId action)).isFile then do
      verifiedClaim dir d action
      return ⟨actionId action, "proposed", .interruptedClaimed⟩
    else return ⟨actionId action, "proposed", .normalPending⟩
  else if (d.claim (actionId action)).isFile then do
    verifiedClaim dir d action
    return ⟨actionId action, "running",
      if (d.lease (actionId action)).isSome then .activeRunning else .interruptedRunning⟩
  else
    .error (.binding .executionClaimMissing
      ("running action " ++ actionId action ++ " has no execution claim; " ++
        "this is corruption, not a recoverable state"))

theorem sees_classify {action : Dict} :
    Sees now t d (classify dir action) (classification dir d action) := by
  have hexists : Sees now t d (onQueue (.claimExists (actionId action)))
      (.ok (d.claim (actionId action)).isFile) := rfl
  refine hexists.after ?_
  unfold classification
  show Computes _ _ (if HasStatus action "proposed" then _ else _) _
  rcases e : (d.claim (actionId action)).isFile with - | -
  · split <;> rfl
  · split
    · exact sees_verifyExecutionClaim.bind fun _ _ => rfl
    · have hheld : Sees now t d (leaseIsHeld (actionId action))
          (.ok (d.lease (actionId action)).isSome) := sees_leaseIsHeld
      exact sees_verifyExecutionClaim.bind fun _ _ => hheld.after rfl

/-- Under a queue lock that is free. -/
theorem eval_withQueueLock {α : Type} {body : QueueRun α} {r : Except AuthorityExc α}
    {d' : QueueDir} (hlock : d.lock = none)
    (hbody : body.eval (queueAnswer now t) { d with lock := some t } = (r, d')) :
    (withQueueLock body).eval (queueAnswer now t) d =
      (r, { d' with lock := QueueDir.without t d'.lock }) := by
  have hopen : Sees now t d (onQueue .openLock) (.ok ()) := rfl
  have htake : (onQueue .lock).eval (queueAnswer now t) d = (.ok (), { d with lock := some t }) := by
    simp [Prog.ask, eval, queueAnswer, hlock]
  have hattempt : body.attempt.eval (queueAnswer now t) { d with lock := some t } = (.ok r, d') := by
    rw [eval_attempt, hbody]
  refine (eval_bind_ok hopen).trans ((eval_bind_ok htake).trans ((eval_bind_ok hattempt).trans ?_))
  exact eval_ofExcept r _

theorem sees_withQueueLock {α : Type} {body : QueueRun α} {x : Except AuthorityExc α}
    (hlock : d.lock = none) (hbody : Sees now t { d with lock := some t } body x) :
    Sees now t d (withQueueLock body) x := by
  refine (eval_withQueueLock hlock hbody).trans ?_
  have hback : { d with lock := QueueDir.without t (some t) } = d := by
    rw [QueueDir.without, if_pos rfl, ← hlock]
  exact congrArg (Prod.mk x) hback

/-- **`find_recovery_candidates`** is a traversal of the pending actions. -/
theorem sees_findRecoveryCandidates (hlock : d.lock = none) :
    Sees now t d (findRecoveryCandidates dir)
      (((d.queue.getD Queue.empty).actions.filter isPending).mapM (classification dir d)) :=
  sees_withQueueLock hlock (sees_load.after (Computes.mapM fun _ _ => sees_classify))

/-! ### What a run leaves to recovery -/

/-- A mission without claims, its directory at some time of a run, and a queue of actions
with different ids in it. -/
structure Left (py : Stdlib) (dir : MissionPath) (authority : AuthorityFiles) (d : QueueDir)
    (q : Queue) : Prop where
  inv : QueueInv py dir authority (fun _ => .absent) d
  queue : d.queue = some q
  nodup : (q.actions.map actionId).Nodup

theorem findIn_of_nodup {l : List Dict} (h : (l.map actionId).Nodup) {a : Dict} (ha : a ∈ l) :
    findIn (actionId a) l = some a := by
  induction l with
  | nil => cases ha
  | cons x rest ih =>
      obtain ⟨hx, hrest⟩ := List.nodup_cons.mp h
      rcases List.mem_cons.mp ha with rfl | ha
      · exact findIn_cons_self rfl
      · have hne : actionId x ≠ actionId a := by
          intro heq
          exact hx (heq ▸ List.mem_map_of_mem ha)
        rw [findIn_cons_ne hne]
        exact ih hrest ha

namespace Left

variable {authority : AuthorityFiles} {q : Queue} {a : Dict}

theorem grown (h : Left py dir authority d q) (ha : a ∈ q.actions) :
    History.Grown (Bound py dir authority) a :=
  h.inv.history.grown q (h.inv.persisted h.queue) a ha

theorem fields (h : Left py dir authority d q) (ha : a ∈ q.actions) : ActionFields py a := by
  obtain ⟨a₀, hbound, hlater, -⟩ := (h.grown ha).proposal
  exact hbound.fields.later hlater

/-- The checkpoint accepts every action of the queue. -/
theorem valid (h : Left py dir authority d q) (ha : a ∈ q.actions) :
    validateActionAuthority py dir d.authority a .restore = .ok () := by
  obtain ⟨a₀, hbound, hlater, -⟩ := (h.grown ha).proposal
  obtain ⟨charter, decision, hload, hbinding⟩ := hbound.binding
  rw [h.inv.files, validateActionAuthority_eq_ok]
  refine ⟨?_, charter, decision, loadAuthoritativeState_eq_ok.mp hload, ?_⟩
  · rw [validateActionIdentity, check_bind_eq_ok, validateActionFields_eq_ok]
    refine ⟨⟨h.fields ha, rfl⟩, ?_⟩
    show (if HasStatus a "running" then _ else _) = _
    split
    · rename_i hrunning
      exact validateApprovalEvidence_eq_ok.mpr ((h.grown ha).approved hrunning)
    · rfl
  · rwa [validateActionBinding_later hlater]

/-- A complete claim is the claim of the action of its id. -/
theorem verified (h : Left py dir authority d q) (ha : a ∈ q.actions) (hpending : isPending a = true)
    {v : Json} (hv : d.claim (actionId a) = .json v) : verifiedClaim dir d a = .ok () := by
  obtain ⟨t, hcreator⟩ : ∃ t, d.creator (actionId a) = some t := by
    rcases e : d.creator (actionId a) with - | t
    · rw [h.inv.unclaimed _ e] at hv
      cases hv
    · exact ⟨t, rfl⟩
  obtain ⟨payload, rfl, hclaim⟩ := h.inv.written _ t v hcreator hv
  obtain ⟨q₀, a₀, approvedBy, approvedAt, now, hq₀, ha₀, rfl⟩ := hclaim.action
  -- the action that was claimed is this one, earlier
  have hlater : Later a₀ a := by
    obtain ⟨q', hq', a', ha', hlater⟩ := h.inv.history.lasting
      (fun hadvances hl => Later.trans hl hadvances.later) hq₀ ha₀ (Later.refl a₀)
    obtain rfl := Option.some.inj (hq'.symm.trans (h.inv.current.symm.trans h.queue))
    rw [findIn_of_nodup h.nodup ha] at ha'
    obtain rfl := Option.some.inj ha'
    exact hlater
  have hbinding : ∀ key ∈ claimBindingFields,
      fieldOf (claimOf a₀ approvedBy approvedAt now) key = fieldOf a key := by
    intro key hkey
    have hmutable : ∀ key ∈ claimBindingFields, key ∉ mutableKeys := by decide
    rw [hlater.fieldOf (hmutable key hkey)]
    simp only [claimBindingFields, List.mem_cons, List.not_mem_nil, or_false] at hkey
    rcases hkey with rfl | rfl | rfl | rfl <;> rfl
  have hvalid : validateClaim (claimOf a₀ approvedBy approvedAt now) a = .ok () := by
    simp only [validateClaim, check_bind_eq_ok, require_eq_ok]
    refine ⟨rfl, hbinding, fun hevidence => ?_⟩
    have hrunning : HasStatus a "running" := by
      simp only [isPending, Bool.or_eq_true, beq_iff_eq] at hpending
      rcases hpending with hproposed | hrunning
      · obtain ⟨a₁, hbound, -, heq⟩ := (h.grown ha).proposal
        obtain rfl := heq hproposed
        rw [hbound.evidence] at hevidence
        cases hevidence
      · exact hrunning
    obtain ⟨claim, hfile, hfor⟩ := h.inv.claimed q (h.inv.persisted h.queue) a ha "running"
      (by decide) hrunning
    obtain rfl : claimOf a₀ approvedBy approvedAt now = claim :=
      Json.obj.inj (Content.json.inj (hv.symm.trans hfile))
    intro key hkey
    simp only [List.mem_cons, List.not_mem_nil, or_false] at hkey
    rcases hkey with rfl | rfl | rfl
    · exact hfor.approval _ (by decide)
    · exact hfor.approval _ (by decide)
    · rw [hbinding _ (by decide), ((h.grown ha).approved hrunning).hash]
  unfold verifiedClaim
  rw [hv]
  exact hvalid

end Left

/-! ### The phrase -/

/-- An upper-case hexadecimal digit is no blank. -/
theorem toUpper_not_space {c : Char} (h : isLowerHex c = true) : isPySpace c.toUpper = false := by
  simp only [isLowerHex, Bool.or_eq_true, Bool.and_eq_true, decide_eq_true_eq, Char.le_def,
    UInt32.le_iff_toNat_le] at h
  have hc : (48 ≤ c.toNat ∧ c.toNat ≤ 57) ∨ (97 ≤ c.toNat ∧ c.toNat ≤ 102) := h
  have hof : Char.ofNat c.toNat = c := Char.ofNat_toNat c
  rw [← hof]
  generalize c.toNat = n at hc
  rcases hc with ⟨h₁, h₂⟩ | ⟨h₁, h₂⟩ <;> interval_cases n <;> decide

/-- The phrase that blocks an interrupted action is not changed by `strip`. -/
theorem strip_interruptedRecoveryPhrase {a : Dict} (h : ActionFields py a) :
    strip (interruptedRecoveryPhrase (actionId a)) = interruptedRecoveryPhrase (actionId a) := by
  obtain ⟨digest, hdigest⟩ : ∃ digest : Digest,
      actionId a = "action-" ++ String.ofList (digest.1.toList.take 10) :=
    ⟨_, h.actionId.symm⟩
  have hhex := digest.2
  simp only [isHex, Bool.and_eq_true, beq_iff_eq, List.all_eq_true] at hhex
  -- what follows the dash
  set suffix := (digest.1.toList.take 10).map Char.toUpper with hsuffix
  have hphrase : (interruptedRecoveryPhrase (actionId a)).toList =
      "BLOQUEAR INTERRUMPIDA-".toList ++ suffix := by
    have hdrop : (actionId a).toList.drop "action-".toList.length = digest.1.toList.take 10 := by
      have htoList : (actionId a).toList = "action-".toList ++ digest.1.toList.take 10 := by
        calc (actionId a).toList
            = "action-".toList ++ (String.ofList (digest.1.toList.take 10)).toList := by
              rw [hdigest]; exact String.toList_append
          _ = "action-".toList ++ digest.1.toList.take 10 :=
              congrArg ("action-".toList ++ ·) String.toList_ofList
      rw [htoList]
      exact List.drop_left
    calc (interruptedRecoveryPhrase (actionId a)).toList
        = "BLOQUEAR INTERRUMPIDA-".toList ++ (String.ofList
            (((actionId a).toList.drop "action-".toList.length).map Char.toUpper)).toList :=
          String.toList_append
      _ = "BLOQUEAR INTERRUMPIDA-".toList ++ suffix := by
          rw [hdrop, hsuffix]
          exact congrArg ("BLOQUEAR INTERRUMPIDA-".toList ++ ·) String.toList_ofList
  have hne : suffix ≠ [] := by
    intro hnil
    have hlength := congrArg List.length hnil
    rw [hsuffix, List.length_map, List.length_take, hhex.1] at hlength
    exact absurd hlength (by decide)
  have hstrip : stripChars ("BLOQUEAR INTERRUMPIDA-".toList ++ suffix) =
      "BLOQUEAR INTERRUMPIDA-".toList ++ suffix := by
    refine stripChars_eq_self ?_ ?_
    · intro c hc
      obtain rfl : 'B' = c := Option.some.inj hc
      decide
    · intro c hc
      rw [List.getLast?_append_of_ne_nil _ hne] at hc
      obtain ⟨c₀, hc₀, rfl⟩ := List.mem_map.mp (List.mem_of_mem_getLast? hc)
      exact toUpper_not_space (hhex.2 c₀ (List.mem_of_mem_take hc₀))
  rw [strip, hphrase, hstrip, ← hphrase, String.ofList_toList]

/-! ### Blocking -/

section Blocking

variable {authority : AuthorityFiles} {q : Queue} {a : Dict}

theorem eval_writeLocked : (writeLocked q).eval (queueAnswer now t) d =
    (.ok { q with updatedAt := some now.1 }, d.persist { q with updatedAt := some now.1 }) := rfl

theorem eval_acquireLease_free {id : String} (h : d.lease id = none) :
    (acquireLease dir id).eval (queueAnswer now t) d = (.ok (), d.setLease id (some t)) := by
  have hmkdir : Sees now t d (onQueue .mkdir) (.ok ()) := rfl
  have hopen : Sees now t d (onQueue (.openLease id)) (.ok ()) := rfl
  have hflock : (onQueue (.flockLease id)).attempt.eval (queueAnswer now t) d =
      (.ok (.ok ()), d.setLease id (some t)) := by
    rw [eval_attempt]
    simp [Prog.ask, eval, queueAnswer, h]
  exact (eval_bind_ok hmkdir).trans ((eval_bind_ok hopen).trans (eval_bind_ok hflock))

theorem eval_acquireLease_held {id : String} {t' : Tid} (h : d.lease id = some t') :
    ∃ e, (acquireLease dir id).eval (queueAnswer now t) d = (.error e, d) := by
  have hmkdir : Sees now t d (onQueue .mkdir) (.ok ()) := rfl
  have hopen : Sees now t d (onQueue (.openLease id)) (.ok ()) := rfl
  have hflock : (onQueue (.flockLease id)).attempt.eval (queueAnswer now t) d =
      (.ok (.error (.python (.osError ""))), d) := by
    rw [eval_attempt]
    simp [Prog.ask, eval, queueAnswer, h]
  exact ⟨_, (eval_bind_ok hmkdir).trans ((eval_bind_ok hopen).trans (eval_bind_ok hflock))⟩

/-- A pending action has the status it is compared with. -/
theorem hasStatus_status (h : isPending a = true) : HasStatus a (status a) := by
  simp only [isPending, Bool.or_eq_true, beq_iff_eq] at h
  rcases h with h | h <;> simp [HasStatus, status, h, textOf]

/-- `_mark_blocked_locked` of a pending action whose claim and authority are in order. -/
theorem eval_markBlockedLocked {hash : Json} {reason : String}
    (hfound : findIn (actionId a) q.actions = some a) (hpending : isPending a = true)
    (hhash : fieldOf a "arguments_hash" = hash) (hverified : verifiedClaim dir d a = .ok ())
    (hvalid : validateActionAuthority py dir d.authority a .restore = .ok ()) :
    ∃ a' q', (markBlockedLocked py dir q (actionId a) (status a) hash reason).eval
        (queueAnswer now t) d = (.ok a', d.persist q') ∧
      HasStatus a' "blocked" ∧ findIn (actionId a) q'.actions = some a' := by
  have hfind : Sees now t d (ofExcept (findLocked py q (actionId a))) (.ok a) :=
    findLocked_eq_ok.mpr hfound ▸ .ofExcept
  have hcompare : Sees now t d (ofExcept (compareAction a (status a) hash)) (.ok ()) :=
    compareAction_eq_ok.mpr ⟨hasStatus_status hpending, hhash⟩ ▸ .ofExcept
  have hclaim : Sees now t d (verifyExecutionClaim dir a) (.ok ()) :=
    hverified ▸ sees_verifyExecutionClaim
  have hauthority : Sees now t d (validateAuthority py dir a .restore) (.ok ()) :=
    hvalid ▸ sees_validateAuthority
  have hnow : Sees now t d (onQueue .utcNow) (.ok now) := rfl
  set a' := setField "blocked_reason" (.str reason)
    (setField "updated_at" (.str now.1) (setField "status" (.str "blocked") a))
  have hid : actionId a' = actionId a := by
    unfold actionId
    rw [fieldOf_setField_ne (by decide), fieldOf_setField_ne (by decide),
      fieldOf_setField_ne (by decide)]
  refine ⟨a', _, (eval_bind_ok hfind).trans ((eval_bind_ok hcompare).trans
    ((eval_bind_ok hclaim).trans ((eval_bind_ok hauthority).trans ((eval_bind_ok hnow).trans
      ((eval_bind_ok eval_writeLocked).trans rfl))))), ?_, ?_⟩
  · show fieldOf _ "status" = _
    rw [fieldOf_setField_ne (by decide), fieldOf_setField_ne (by decide), fieldOf_setField_self]
  · rw [← hid] at hfound ⊢
    exact findIn_replaceFirst_self hfound

/-- `block_interrupted_action_checked` under the queue lock, once it has checked what can
be checked without the lease. -/
theorem eval_blockInterrupted (h : Left py dir authority d q) (ha : a ∈ q.actions)
    (hpending : isPending a = true) (hverified : verifiedClaim dir d a = .ok ())
    (hlock : d.lock = none) (reason : String) {r : Except AuthorityExc Dict} {d' : QueueDir}
    (hrest : (do
      acquireLease dir (actionId a)
      releasing (actionId a) do
        verifyExecutionClaim dir a
        markBlockedLocked py dir q (actionId a) (status a)
          (.str (textOf (fieldOf a "arguments_hash"))) reason :
        QueueRun Dict).eval (queueAnswer now t) { d with lock := some t } = (r, d')) :
    (blockInterruptedActionChecked py dir (actionId a) (interruptedRecoveryPhrase (actionId a))
      (textOf (fieldOf a "arguments_hash")) reason).eval (queueAnswer now t) d =
      (r, { d' with lock := QueueDir.without t d'.lock }) := by
  refine eval_withQueueLock hlock ?_
  have hload : Sees now t { d with lock := some t } load (.ok q) := by
    have hq : ({ d with lock := some t } : QueueDir).queue.getD Queue.empty = q := by
      rw [h.queue]
      rfl
    exact hq ▸ sees_load
  have hfind : Sees now t { d with lock := some t } (ofExcept (findLocked py q (actionId a)))
      (.ok a) := findLocked_eq_ok.mpr (findIn_of_nodup h.nodup ha) ▸ .ofExcept
  obtain ⟨hash, hhash, -⟩ := isText_iff.mp ((h.fields ha).texts "arguments_hash" (by decide))
  have hcheck : ∀ {p : Prop} [Decidable p] {code : BindingCode} {detail : String}, p →
      Sees now t { d with lock := some t } (ofExcept (require p code detail)) (.ok ()) :=
    fun hp => require_eq_ok.mpr hp ▸ .ofExcept
  have hclaim : Sees now t { d with lock := some t } (verifyExecutionClaim dir a) (.ok ()) := by
    have hsame : verifiedClaim dir { d with lock := some t } a = .ok () := hverified
    exact hsame ▸ sees_verifyExecutionClaim
  have hauthority : Sees now t { d with lock := some t } (validateAuthority py dir a .restore)
      (.ok ()) := by
    have hsame := h.valid ha
    exact hsame ▸ sees_validateAuthority
  refine (eval_bind_ok hload).trans ((eval_bind_ok hfind).trans ((eval_bind_ok (hcheck hpending)).trans
    ((eval_bind_ok (hcheck ?_)).trans ((eval_bind_ok (hcheck ?_)).trans
      ((eval_bind_ok hclaim).trans ((eval_bind_ok hauthority).trans hrest))))))
  · rw [hhash]
    rfl
  · exact strip_interruptedRecoveryPhrase (h.fields ha)

end Blocking

/-! ### Every run -/

/-- What `find_recovery_candidates` makes of an action whose claim is in order. -/
def candidate (d : QueueDir) (a : Dict) : RecoveryCandidate where
  actionId := actionId a
  status := status a
  recoveryStatus :=
    if HasStatus a "proposed" then
      if (d.claim (actionId a)).isFile then .interruptedClaimed else .normalPending
    else if (d.lease (actionId a)).isSome then .activeRunning else .interruptedRunning

/-- On a healthy machine recovery gets through: every pending action is classified, and
what is neither waiting nor active can be blocked. -/
def Recovers (py : Stdlib) (dir : MissionPath) (d : QueueDir) : Prop :=
  ∀ now t q, d.queue = some q →
    (findRecoveryCandidates dir).eval (queueAnswer now t) d =
      (.ok ((q.actions.filter isPending).map (candidate d)), d) ∧
    ∀ a ∈ q.actions, isPending a = true → (candidate d a).recoveryStatus ≠ .normalPending →
      (candidate d a).recoveryStatus ≠ .activeRunning → ∀ reason, ∃ a' d' q',
        (blockInterruptedActionChecked py dir (actionId a) (interruptedRecoveryPhrase (actionId a))
          (textOf (fieldOf a "arguments_hash")) reason).eval (queueAnswer now t) d = (.ok a', d') ∧
        HasStatus a' "blocked" ∧ d'.queue = some q' ∧ findIn (actionId a) q'.actions = some a'

/-- The claim of a proposed action is complete where there is one, and nobody holds its
lease. -/
def Recoverable (d : QueueDir) : Prop :=
  ∀ q, d.queue = some q → ∀ a ∈ q.actions, HasStatus a "proposed" →
    (d.claim (actionId a)).isFile = true →
      (∃ v, d.claim (actionId a) = .json v) ∧ d.lease (actionId a) = none

/-- A traversal of steps that all go through. -/
theorem mapM_eq_ok_map {ε α β : Type} {f : α → Except ε β} {g : α → β} {l : List α}
    (h : ∀ a ∈ l, f a = .ok (g a)) : l.mapM f = .ok (l.map g) := by
  induction l with
  | nil => rfl
  | cons a rest ih =>
      rw [List.mapM_cons, h a List.mem_cons_self]
      show (rest.mapM f >>= fun bs => pure (g a :: bs)) = _
      rw [ih fun b hb => h b (List.mem_cons_of_mem _ hb)]
      rfl

theorem ok_of_mapM {α β : Type} {f : α → Except AuthorityExc β} {l : List α} {bs : List β}
    (h : l.mapM f = .ok bs) : ∀ a ∈ l, ∃ b, f a = .ok b := by
  induction l generalizing bs with
  | nil => exact fun a ha => absurd ha List.not_mem_nil
  | cons x rest ih =>
      rw [List.mapM_cons] at h
      obtain ⟨b, hb, h⟩ := bind_eq_ok.mp h
      obtain ⟨bs', hbs', -⟩ := bind_eq_ok.mp h
      rintro a (_ | ⟨_, ha⟩)
      · exact ⟨b, hb⟩
      · exact ih hbs' a ha

/-- A claim that is not complete cannot be verified. -/
theorem complete_of_verifiedClaim {a : Dict} (h : verifiedClaim dir d a = .ok ()) :
    ∃ v, d.claim (actionId a) = .json v := by
  unfold verifiedClaim at h
  split at h
  · obtain ⟨claim, hclaim, -⟩ := bind_eq_ok.mp h
    unfold parseClaim at hclaim
    split at hclaim
    · cases hclaim
    · cases hclaim
    · cases hclaim
    · cases hclaim
    · cases hclaim
    · rename_i e
      exact ⟨_, e⟩
    · rename_i e
      exact ⟨_, e⟩
  · cases h

namespace Left

variable {authority : AuthorityFiles} {q : Queue} {a : Dict}

/-- A pending action is proposed or running. -/
theorem pending (hpending : isPending a = true) : HasStatus a "proposed" ∨ HasStatus a "running" := by
  simp only [isPending, Bool.or_eq_true, beq_iff_eq] at hpending
  exact hpending

theorem complete_of_running (h : Left py dir authority d q) (ha : a ∈ q.actions)
    (hrunning : HasStatus a "running") : ∃ v, d.claim (actionId a) = .json v := by
  obtain ⟨claim, hfile, -⟩ := h.inv.claimed q (h.inv.persisted h.queue) a ha "running"
    (by decide) hrunning
  exact ⟨_, hfile⟩

/-- An action is classified when its claim is complete or not there. -/
theorem classification_eq (h : Left py dir authority d q) (ha : a ∈ q.actions)
    (hpending : isPending a = true)
    (hcomplete : (d.claim (actionId a)).isFile = true → ∃ v, d.claim (actionId a) = .json v) :
    classification dir d a = .ok (candidate d a) := by
  have hverified : (d.claim (actionId a)).isFile = true → verifiedClaim dir d a = .ok () :=
    fun hfile => h.verified ha hpending (hcomplete hfile).choose_spec
  rcases pending hpending with hproposed | hrunning
  · have hstatus : status a = "proposed" := by rw [status, hproposed]; rfl
    unfold classification candidate
    rw [if_pos hproposed, if_pos hproposed, hstatus]
    split
    · rename_i hfile
      rw [hverified hfile]
      rfl
    · rfl
  · have hstatus : status a = "running" := by rw [status, hrunning]; rfl
    have hne : ¬ HasStatus a "proposed" := by
      intro hproposed
      exact absurd (hproposed.symm.trans hrunning) (by decide)
    have hfile : (d.claim (actionId a)).isFile = true := by
      obtain ⟨v, hv⟩ := h.complete_of_running ha hrunning
      rw [hv]
      rfl
    unfold classification candidate
    rw [if_neg hne, if_neg hne, if_pos hfile, hverified hfile, hstatus]
    rfl

/-- An action whose claim is complete and whose lease is free can be blocked. -/
theorem blocks (h : Left py dir authority d q) (ha : a ∈ q.actions) (hpending : isPending a = true)
    (hlock : d.lock = none) (hverified : verifiedClaim dir d a = .ok ())
    (hlease : d.lease (actionId a) = none) (reason : String) : ∃ a' d' q',
      (blockInterruptedActionChecked py dir (actionId a) (interruptedRecoveryPhrase (actionId a))
        (textOf (fieldOf a "arguments_hash")) reason).eval (queueAnswer now t) d = (.ok a', d') ∧
      HasStatus a' "blocked" ∧ d'.queue = some q' ∧ findIn (actionId a) q'.actions = some a' := by
  obtain ⟨hash, hhash, -⟩ := isText_iff.mp ((h.fields ha).texts "arguments_hash" (by decide))
  set taken : QueueDir := { d with lock := some t }.setLease (actionId a) (some t) with htaken
  obtain ⟨a', q', hmark, hblocked, hfound⟩ :
      ∃ a' q', (markBlockedLocked py dir q (actionId a) (status a)
          (.str (textOf (fieldOf a "arguments_hash"))) reason).eval (queueAnswer now t) taken =
          (.ok a', taken.persist q') ∧
        HasStatus a' "blocked" ∧ findIn (actionId a) q'.actions = some a' :=
    eval_markBlockedLocked (findIn_of_nodup h.nodup ha) hpending (by rw [hhash]; rfl) hverified
      (h.valid ha)
  have hclaim : Sees now t taken (verifyExecutionClaim dir a) (.ok ()) := by
    have hsame : verifiedClaim dir taken a = .ok () := hverified
    exact hsame ▸ sees_verifyExecutionClaim
  have hattempt := eval_attempt (h := queueAnswer now t) (do
    verifyExecutionClaim dir a
    markBlockedLocked py dir q (actionId a) (status a)
      (.str (textOf (fieldOf a "arguments_hash"))) reason) taken
  rw [eval_bind_ok hclaim, hmark] at hattempt
  have hlease' : ({ d with lock := some t } : QueueDir).lease (actionId a) = none := hlease
  refine ⟨a', _, q', eval_blockInterrupted h ha hpending hverified hlock reason
    ((eval_bind_ok (eval_acquireLease_free hlease')).trans ((eval_bind_ok hattempt).trans rfl)),
    hblocked, rfl, hfound⟩

/-- An action whose lease is held cannot be blocked. -/
theorem blocks_not (h : Left py dir authority d q) (ha : a ∈ q.actions)
    (hpending : isPending a = true) (hlock : d.lock = none)
    (hverified : verifiedClaim dir d a = .ok ()) {t' : Tid}
    (hlease : d.lease (actionId a) = some t') (reason : String) : ∃ e d',
      (blockInterruptedActionChecked py dir (actionId a) (interruptedRecoveryPhrase (actionId a))
        (textOf (fieldOf a "arguments_hash")) reason).eval (queueAnswer now t) d =
      (.error e, d') := by
  obtain ⟨e, he⟩ :
      ∃ e, (acquireLease dir (actionId a)).eval (queueAnswer now t) { d with lock := some t } =
        (.error e, { d with lock := some t }) :=
    eval_acquireLease_held hlease
  exact ⟨e, _, eval_blockInterrupted h ha hpending hverified hlock reason (eval_bind_error he)⟩

end Left

/-- Where recovery gets through, no claim is broken. -/
theorem Recovers.recoverable {authority : AuthorityFiles}
    (hleft : ∀ q, d.queue = some q → Left py dir authority d q) (hlock : d.lock = none)
    (hrecovers : Recovers py dir d) : Recoverable d := by
  intro q hq a ha hproposed hfile
  have hpending : isPending a = true := by
    simp [isPending, show fieldOf a "status" = .str "proposed" from hproposed]
  have now : Timestamp := ⟨"2026-01-01T00:00:00+00:00", by decide⟩
  obtain ⟨hfind, hblock⟩ := hrecovers now 0 q hq
  -- it has been classified, so its claim has been verified
  have hclassified : ((d.queue.getD Queue.empty).actions.filter isPending).mapM
      (classification dir d) = .ok ((q.actions.filter isPending).map (candidate d)) :=
    congrArg Prod.fst ((sees_findRecoveryCandidates hlock).symm.trans hfind)
  rw [hq] at hclassified
  obtain ⟨found, hfound⟩ := ok_of_mapM hclassified a (List.mem_filter.mpr ⟨ha, hpending⟩)
  unfold classification at hfound
  rw [if_pos hproposed, if_pos hfile] at hfound
  obtain ⟨⟨⟩, hverified, -⟩ := bind_eq_ok.mp hfound
  refine ⟨complete_of_verifiedClaim hverified, ?_⟩
  -- it can be blocked, so its lease is free
  have hstatus : (candidate d a).recoveryStatus = .interruptedClaimed := by
    unfold candidate
    dsimp only
    rw [if_pos hproposed, if_pos hfile]
  obtain ⟨a', d', q', heval, -⟩ :=
    hblock a ha hpending (by rw [hstatus]; decide) (by rw [hstatus]; decide) ""
  rcases e : d.lease (actionId a) with - | t'
  · rfl
  · obtain ⟨x, d'', hx⟩ :
        ∃ e d', (blockInterruptedActionChecked py dir (actionId a)
          (interruptedRecoveryPhrase (actionId a)) (textOf (fieldOf a "arguments_hash")) "").eval
            (queueAnswer now 0) d = (.error e, d') :=
      (hleft q hq).blocks_not ha hpending hlock hverified e ""
    cases heval.symm.trans hx

theorem Recoverable.recovers {authority : AuthorityFiles}
    (hleft : ∀ q, d.queue = some q → Left py dir authority d q) (hlock : d.lock = none)
    (hrecoverable : Recoverable d) : Recovers py dir d := by
  intro now t q hq
  have hcomplete : ∀ a ∈ q.actions, isPending a = true →
      (d.claim (actionId a)).isFile = true →
      ∃ v, d.claim (actionId a) = .json v := by
    intro a ha hpending hfile
    rcases Left.pending hpending with hproposed | hrunning
    · exact (hrecoverable q hq a ha hproposed hfile).1
    · exact (hleft q hq).complete_of_running ha hrunning
  refine ⟨?_, ?_⟩
  · refine (sees_findRecoveryCandidates hlock).trans ?_
    rw [hq]
    refine congrArg (Prod.mk · d) (mapM_eq_ok_map fun a ha => ?_)
    obtain ⟨ha, hpending⟩ := List.mem_filter.mp ha
    exact (hleft q hq).classification_eq ha hpending (hcomplete a ha hpending)
  · intro a ha hpending hnormal hactive reason
    -- it has a claim, and a running one has its lease free
    obtain ⟨hfile, hlease⟩ : (d.claim (actionId a)).isFile = true ∧
        d.lease (actionId a) = none := by
      unfold candidate at hnormal hactive
      dsimp only at hnormal hactive
      rcases Left.pending hpending with hproposed | hrunning
      · rw [if_pos hproposed] at hnormal
        have hfile : (d.claim (actionId a)).isFile = true := by
          by_contra hno
          exact hnormal (if_neg hno)
        exact ⟨hfile, (hrecoverable q hq a ha hproposed hfile).2⟩
      · have hne : ¬ HasStatus a "proposed" := by
          intro hproposed
          exact absurd (hproposed.symm.trans hrunning) (by decide)
        obtain ⟨v, hv⟩ := (hleft q hq).complete_of_running ha hrunning
        rw [if_neg hne] at hactive
        refine ⟨by rw [hv]; rfl, ?_⟩
        rcases e : d.lease (actionId a) with - | t'
        · rfl
        · exact absurd (by rw [e]; rfl) hactive
    have hverified : verifiedClaim dir d a = .ok () :=
      (hleft q hq).verified ha hpending (hcomplete a ha hpending hfile).choose_spec
    exact (hleft q hq).blocks ha hpending hlock hverified hlease reason

theorem left_of_reaches {authority : AuthorityFiles}
    {c : Conf QueueDir QueueOp.Ans AuthorityExc Unit}
    (h : QueueReaches py dir authority (fun _ => .absent) c)
    (hids : ∀ q charter decision missionId planId, c.world.queue = some q →
      q.missionId = some missionId ∧ q.planId = some planId →
      loadAuthoritativeState py dir authority = .ok (charter, decision) →
      DistinctIds py charter decision missionId planId) (q : Queue)
    (hq : c.world.queue = some q) : Left py dir authority c.world q :=
  ⟨queueInv_reachable h, hq, nodup_of_reaches h hids ((queueInv_reachable h).persisted hq)⟩

/-- **Recovery gets through exactly when no claim is broken.**  In every run, whatever
calls were made and whoever died: while nobody holds the queue lock, all pending actions
are classified and the interrupted ones can be blocked if and only if the claim of every
proposed action is complete, where there is one, and its lease is free. -/
theorem recovers_iff {authority : AuthorityFiles}
    {c : Conf QueueDir QueueOp.Ans AuthorityExc Unit}
    (h : QueueReaches py dir authority (fun _ => .absent) c)
    (hids : ∀ q charter decision missionId planId, c.world.queue = some q →
      q.missionId = some missionId ∧ q.planId = some planId →
      loadAuthoritativeState py dir authority = .ok (charter, decision) →
      DistinctIds py charter decision missionId planId)
    (hlock : c.world.lock = none) : Recovers py dir c.world ↔ Recoverable c.world :=
  ⟨Recovers.recoverable (left_of_reaches h hids) hlock,
    Recoverable.recovers (left_of_reaches h hids) hlock⟩

/-- The thread that approves dies after `turns` of its operations. -/
def interruptedRun (turns : Nat) : Conf QueueDir QueueOp.Ans AuthorityExc Unit where
  world := (dispatchRun turns).world.afterDeath 1
  thread := Function.update (dispatchRun turns).thread 1 none
  next := (dispatchRun turns).next

theorem interruptedRun_reached {turns : Nat} (h : (dispatchRun turns).Live 1) :
    QueueReaches exactHashes sampleDir sampleAuthority (fun _ => .absent) (interruptedRun turns) :=
  (dispatchRun_reached turns).tail (.die _ h rfl)

theorem interruptedRun_left {turns : Nat} (h : (dispatchRun turns).Live 1) (q : Queue)
    (hq : (interruptedRun turns).world.queue = some q) :
    Left exactHashes sampleDir sampleAuthority (interruptedRun turns).world q :=
  left_of_reaches (interruptedRun_reached h) (fun _ _ _ missionId planId _ _ hload =>
    sampleAuthority_distinctIds hload missionId planId) q hq

theorem interruptedRun_world (turns : Nat) :
    (interruptedRun turns).world = (dispatchRun turns).world.afterDeath 1 := rfl

/-- Complete claims that nobody has the lease of can be recovered. -/
theorem recoverable_of_claimComplete {d : QueueDir}
    (h : (d.queue.all fun q => q.actions.all (claimComplete d)) = true) : Recoverable d := by
  intro q hq a ha _ _
  rw [hq] at h
  have hclaim := List.all_eq_true.mp h a ha
  unfold claimComplete at hclaim
  split at hclaim
  · rename_i v hv
    exact ⟨⟨v, hv⟩, Option.isNone_iff_eq_none.mp hclaim⟩
  · cases hclaim

/-- A call that dies with its claim written leaves a mission that can be recovered. -/
theorem interruptedRun_recovers : Recovers exactHashes sampleDir (interruptedRun 10).world := by
  obtain ⟨hlive, hlock, hclaims⟩ := dispatchRun_evaluates.2.1
  rw [← interruptedRun_world] at hlock hclaims
  exact (recovers_iff (interruptedRun_reached hlive) (fun _ _ _ missionId planId _ _ hload =>
    sampleAuthority_distinctIds hload missionId planId) hlock).mpr
      (recoverable_of_claimComplete hclaims)

/-- **A broken claim stops recovery**: a call creates its claim and dies before it has
written it; nobody holds the lock any more, and `find_recovery_candidates` raises. -/
theorem brokenClaim_stops_recovery :
    ∃ c, QueueReaches exactHashes sampleDir sampleAuthority (fun _ => .absent) c ∧
      c.world.lock = none ∧ ¬ Recovers exactHashes sampleDir c.world := by
  obtain ⟨hlive, hlock, hclaims⟩ : (dispatchRun 9).Live 1 ∧
      (interruptedRun 9).world.lock = none ∧ ((interruptedRun 9).world.queue.any fun q =>
        q.actions.any (claimBroken (interruptedRun 9).world)) = true :=
    dispatchRun_evaluates.2.2
  refine ⟨interruptedRun 9, interruptedRun_reached hlive, hlock, fun hrecovers => ?_⟩
  obtain ⟨q, hq, hbroken⟩ := (Option.any_eq_true _ _).mp hclaims
  obtain ⟨a, ha, hbroken⟩ := List.any_eq_true.mp hbroken
  obtain ⟨hproposed, hempty⟩ := of_decide_eq_true hbroken
  obtain ⟨⟨v, hv⟩, -⟩ := hrecovers.recoverable (interruptedRun_left hlive) hlock q hq a ha hproposed
    (by rw [hempty]; rfl)
  cases hempty.symm.trans hv

end Konoha.Hokage
