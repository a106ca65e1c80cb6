/-
Hokage/History.lean

What an action queue is for, apart from how it is kept: the queues that have been
persisted and the actions that have been dispatched, as one sequence of events, newest
first.  `History` says which sequences there are: a queue begins with proposals, then
an action is proposed at its end, or one action takes an edge of the life of an
action, or a running action is dispatched that has not been dispatched before.

What such a sequence never does is proved here once (`History.follows`), for whoever
produces one.
-/
import KonohaRuntime.Hokage.Queue

namespace Konoha.Hokage

open Json

/-! ### The life of an action -/

/-- `action["status"] == s` -/
def HasStatus (action : Dict) (s : String) : Prop := fieldOf action "status" = .str s

instance (action : Dict) (s : String) : Decidable (HasStatus action s) :=
  inferInstanceAs (Decidable (_ = _))

theorem HasStatus.unique {action : Dict} {s s' : String} (h : HasStatus action s)
    (h' : HasStatus action s') : s = s' :=
  Json.str.inj (h.symm.trans h')

/-- The changes of status there are. -/
def edges : List (String × String) :=
  [("proposed", "running"), ("running", "completed"), ("running", "failed"),
   ("running", "blocked"), ("proposed", "blocked"), ("proposed", "rejected")]

/-- Action `a` becomes `a'` along an edge; nothing else of it changes but its evidence,
its time and the reason of a block.  What runs has been approved. -/
structure Advances (a a' : Dict) : Prop where
  later : Later a a'
  edge : ∃ e ∈ edges, HasStatus a e.1 ∧ HasStatus a' e.2
  approved : HasStatus a' "running" → Approved a'

theorem Advances.actionId {a a' : Dict} (h : Advances a a') : actionId a' = actionId a := by
  unfold Hokage.actionId
  rw [h.later.fieldOf (by decide)]

/-- No edge leaves a status that is terminal, and none leads back. -/
theorem Advances.not_terminal {a a' : Dict} (h : Advances a a') {s : String}
    (hs : s ∈ ["completed", "failed", "blocked", "rejected"]) : ¬ HasStatus a s := by
  intro hstatus
  obtain ⟨e, he, hfrom, -⟩ := h.edge
  obtain rfl := hstatus.unique hfrom
  simp only [edges, List.mem_cons, List.not_mem_nil, or_false] at he
  rcases he with rfl | rfl | rfl | rfl | rfl | rfl <;> simp at hs

/-- No edge leads to `proposed`. -/
theorem Advances.not_proposed {a a' : Dict} (h : Advances a a') : ¬ HasStatus a' "proposed" := by
  intro hstatus
  obtain ⟨e, he, -, hto⟩ := h.edge
  have hne : ∀ e ∈ edges, e.2 ≠ "proposed" := by decide
  exact hne e he (hto.unique hstatus)

/-- An action that has been running does not become `proposed` or `rejected`. -/
theorem Advances.started {a a' : Dict} (h : Advances a a') {s : String}
    (hs : s ∈ ["running", "completed", "failed", "blocked"]) (hstatus : HasStatus a s) :
    ∃ s' ∈ ["running", "completed", "failed", "blocked"], HasStatus a' s' := by
  obtain ⟨e, he, hfrom, hto⟩ := h.edge
  obtain rfl := hstatus.unique hfrom
  refine ⟨e.2, ?_, hto⟩
  simp only [edges, List.mem_cons, List.not_mem_nil, or_false] at he
  rcases he with rfl | rfl | rfl | rfl | rfl | rfl <;> simp at hs ⊢

/-- What a later queue may be. -/
inductive Succeeds (q q' : Queue) : Prop
  | append {a : Dict} (hactions : q'.actions = q.actions ++ [a]) (hproposed : HasStatus a "proposed")
      (hids : q'.missionId = q.missionId ∧ q'.planId = q.planId)
  | change {older newer : List Dict} {a a' : Dict} (hactions : q.actions = older ++ a :: newer)
      (hactions' : q'.actions = older ++ a' :: newer) (hadvances : Advances a a')
      (hids : q'.missionId = q.missionId ∧ q'.planId = q.planId)

/-! ### Finding an action -/

section Find

variable {a a' b : Dict} {id : String} {l : List Dict}

/-- The first action of an id, in a list. -/
def findIn (id : String) (l : List Dict) : Option Dict := l.find? fun a => actionId a == id

theorem findIn_cons_self (h : actionId a = id) : findIn id (a :: l) = some a := by
  simp [findIn, h]

theorem findIn_cons_ne (h : actionId a ≠ id) : findIn id (a :: l) = findIn id l := by
  simp [findIn, h]

theorem findIn_some (h : findIn id l = some a) : actionId a = id ∧ a ∈ l :=
  ⟨by simpa using List.find?_some h, List.mem_of_find?_eq_some h⟩

theorem findIn_none (h : findIn id l = none) : ∀ a ∈ l, actionId a ≠ id := by
  simpa [findIn] using h

/-- An action at the end hides nothing. -/
theorem findIn_append (h : findIn id l = some b) : findIn id (l ++ [a]) = some b := by
  simp only [findIn, List.find?_append] at h ⊢
  rw [h]
  rfl

/-- A replaced action is found in place of the one that was. -/
theorem findIn_replaceFirst_self (h : findIn (actionId a') l = some a) :
    findIn (actionId a') (replaceFirst a' l) = some a' := by
  induction l with
  | nil => cases h
  | cons x rest ih =>
      rcases eq_or_ne (actionId x) (actionId a') with hx | hx
      · rw [replaceFirst, if_pos hx, findIn_cons_self rfl]
      · rw [findIn_cons_ne hx] at h
        rw [replaceFirst, if_neg hx, findIn_cons_ne hx, ih h]

/-- The actions of other ids are found as before. -/
theorem findIn_replaceFirst_ne (h : id ≠ actionId a') :
    findIn id (replaceFirst a' l) = findIn id l := by
  induction l with
  | nil => rfl
  | cons x rest ih =>
      rcases eq_or_ne (actionId x) (actionId a') with hx | hx
      · rw [replaceFirst, if_pos hx, findIn_cons_ne h.symm, findIn_cons_ne (hx ▸ h.symm)]
      · rw [replaceFirst, if_neg hx]
        rcases eq_or_ne (actionId x) id with hid | hid
        · rw [findIn_cons_self hid, findIn_cons_self hid]
        · rw [findIn_cons_ne hid, findIn_cons_ne hid, ih]

/-- Where the replaced action was. -/
theorem replaceFirst_split (h : findIn (actionId a') l = some a) :
    ∃ older newer, l = older ++ a :: newer ∧ replaceFirst a' l = older ++ a' :: newer ∧
      ∀ x ∈ older, actionId x ≠ actionId a' := by
  induction l with
  | nil => cases h
  | cons x rest ih =>
      rcases eq_or_ne (actionId x) (actionId a') with hx | hx
      · rw [findIn_cons_self hx] at h
        obtain rfl := Option.some.inj h
        exact ⟨[], rest, rfl, if_pos hx, by simp⟩
      · rw [findIn_cons_ne hx] at h
        obtain ⟨older, newer, hl, hr, hne⟩ := ih h
        refine ⟨x :: older, newer, by rw [hl]; rfl, ?_, ?_⟩
        · rw [replaceFirst, if_neg hx, hr]
          rfl
        · simpa using ⟨hx, hne⟩

/-- The ids of a queue do not change with an action of it. -/
theorem map_actionId_replaceFirst (l : List Dict) :
    (replaceFirst a' l).map actionId = l.map actionId := by
  induction l with
  | nil => rfl
  | cons x rest ih =>
      rcases eq_or_ne (actionId x) (actionId a') with hx | hx
      · rw [replaceFirst, if_pos hx, List.map_cons, List.map_cons, hx]
      · rw [replaceFirst, if_neg hx, List.map_cons, List.map_cons, ih]

/-- Of the actions of one id only the first is not `proposed`. -/
def OnlyFirst (l : List Dict) : Prop :=
  l.Pairwise fun a b => actionId a = actionId b → HasStatus b "proposed"

/-- An action that is not `proposed` is the one that is found. -/
theorem OnlyFirst.find (h : OnlyFirst l) (ha : a ∈ l) (hstatus : ¬ HasStatus a "proposed") :
    findIn (actionId a) l = some a := by
  induction l with
  | nil => cases ha
  | cons x rest ih =>
      obtain ⟨hx, hrest⟩ := List.pairwise_cons.mp h
      rcases List.mem_cons.mp ha with rfl | ha
      · exact findIn_cons_self rfl
      · have hne : actionId x ≠ actionId a := fun hid => hstatus (hx a ha hid)
        rw [findIn_cons_ne hne]
        exact ih hrest ha

theorem OnlyFirst.append (h : OnlyFirst l) (ha : HasStatus a "proposed") :
    OnlyFirst (l ++ [a]) := by
  refine List.pairwise_append.mpr ⟨h, List.pairwise_singleton _ _, ?_⟩
  intro x _ b hb _
  obtain rfl := List.mem_singleton.mp hb
  exact ha

theorem OnlyFirst.replaceFirst (h : OnlyFirst l) (ha : findIn (actionId a') l = some a) :
    OnlyFirst (Hokage.replaceFirst a' l) := by
  obtain ⟨older, newer, rfl, hr, hne⟩ := replaceFirst_split ha
  have hid : actionId a = actionId a' := (findIn_some ha).1
  rw [hr]
  obtain ⟨h₁, h₂, h₃⟩ := List.pairwise_append.mp h
  obtain ⟨h₄, h₅⟩ := List.pairwise_cons.mp h₂
  refine List.pairwise_append.mpr ⟨h₁, List.pairwise_cons.mpr ⟨?_, h₅⟩, ?_⟩
  · intro b hb hab
    exact h₄ b hb (hid.trans hab)
  · intro x hx b hb hxb
    rcases List.mem_cons.mp hb with rfl | hb
    · exact absurd hxb (hne x hx)
    · exact h₃ x hx b (List.mem_cons_of_mem _ hb) hxb

end Find

/-! ### Histories -/

/-- The queues that have been persisted, newest first. -/
def persistedQueues (es : List QueueEvent) : List Queue :=
  es.filterMap fun
    | .persisted q => some q
    | .dispatched _ _ => none

theorem mem_persistedQueues {q : Queue} {es : List QueueEvent} :
    q ∈ persistedQueues es ↔ .persisted q ∈ es := by
  simp only [persistedQueues, List.mem_filterMap]
  constructor
  · rintro ⟨e, he, hq⟩
    cases e with
    | persisted q' =>
        obtain rfl := Option.some.inj hq
        exact he
    | dispatched t a => cases hq
  · exact fun h => ⟨_, h, rfl⟩

/-- The queue that has been persisted last. -/
def newest (es : List QueueEvent) : Option Queue := (persistedQueues es).head?

/-- The histories of a queue whose first state satisfies `Initial`, and whose proposals
satisfy `Fresh`. -/
inductive History (Initial : Queue → Prop) (Fresh : Dict → Prop) : List QueueEvent → Prop
  | nil : History Initial Fresh []
  | first {q : Queue} (hinitial : Initial q)
      (hproposed : ∀ a ∈ q.actions, HasStatus a "proposed" ∧ Fresh a) :
      History Initial Fresh [.persisted q]
  | append {es : List QueueEvent} {q : Queue} {a : Dict} {now : Option String}
      (h : History Initial Fresh es) (hq : newest es = some q) (hnew : findIn (actionId a) q.actions = none)
      (hproposed : HasStatus a "proposed" ∧ Fresh a) :
      History Initial Fresh
        (.persisted { q with actions := q.actions ++ [a], updatedAt := now } :: es)
  | change {es : List QueueEvent} {q : Queue} {a a' : Dict} {now : Option String}
      (h : History Initial Fresh es) (hq : newest es = some q)
      (ha : findIn (actionId a') q.actions = some a) (hadvances : Advances a a') :
      History Initial Fresh
        (.persisted { q with actions := replaceFirst a' q.actions, updatedAt := now } :: es)
  | dispatch {es : List QueueEvent} {q : Queue} {t : Effects.Tid} {a b : Dict}
      (h : History Initial Fresh es) (hq : newest es = some q)
      (hb : findIn (actionId a) q.actions = some b) (hrunning : HasStatus b "running")
      (hnew : ∀ t' a', .dispatched t' a' ∈ es → actionId a' ≠ actionId a) :
      History Initial Fresh (.dispatched t a :: es)

/-- The ids of the actions that have been dispatched, newest first. -/
def dispatchedIds (es : List QueueEvent) : List String :=
  es.filterMap fun
    | .persisted _ => none
    | .dispatched _ a => some (actionId a)

/-- What a newer event and an older one have to do with each other: an action is
dispatched once, not after it has been persisted as rejected or blocked, and it is not
persisted as rejected after it has been dispatched. -/
def Follows : QueueEvent → QueueEvent → Prop
  | .dispatched _ a, .dispatched _ b => actionId a ≠ actionId b
  | .dispatched _ a, .persisted q => ∀ b ∈ q.actions, actionId b = actionId a →
      ¬ HasStatus b "rejected" ∧ ¬ HasStatus b "blocked"
  | .persisted q, .dispatched _ a => ∀ b ∈ q.actions, actionId b = actionId a →
      ¬ HasStatus b "rejected"
  | .persisted _, .persisted _ => True

namespace History

variable {Initial : Queue → Prop} {Fresh : Dict → Prop} {es : List QueueEvent}

theorem newest_isSome {q : Queue} (h : .persisted q ∈ es) : ∃ q', newest es = some q' := by
  have hmem : q ∈ persistedQueues es := mem_persistedQueues.mpr h
  rw [newest]
  cases hp : persistedQueues es with
  | nil =>
      rw [hp] at hmem
      cases hmem
  | cons q' rest => exact ⟨q', rfl⟩

/-- Before the first queue nothing happens. -/
theorem eq_nil (h : History Initial Fresh es) (hnone : newest es = none) : es = [] := by
  cases h with
  | nil => rfl
  | first => cases hnone
  | append => cases hnone
  | change => cases hnone
  | dispatch h hq => exact absurd (hq.symm.trans hnone) (by simp)

/-- Consecutive persisted queues succeed one another. -/
theorem succeeds (h : History Initial Fresh es) :
    (persistedQueues es).IsChain fun q' q => Succeeds q q' := by
  -- a queue on top of the newest one
  have hcons : ∀ {es : List QueueEvent} {q q' : Queue},
      (persistedQueues es).IsChain (fun q' q => Succeeds q q') → newest es = some q →
      Succeeds q q' → (q' :: persistedQueues es).IsChain fun q' q => Succeeds q q' := by
    intro es q q' hchain hq hsucc
    obtain ⟨rest, hrest⟩ : ∃ rest, persistedQueues es = q :: rest :=
      List.head?_eq_some_iff.mp hq
    rw [hrest] at hchain ⊢
    exact .cons_cons hsucc hchain
  induction h with
  | nil => exact .nil
  | first => exact .singleton _
  | append h hq hnew hproposed ih =>
      exact hcons ih hq (.append rfl hproposed.1 ⟨rfl, rfl⟩)
  | change h hq ha hadvances ih =>
      obtain ⟨older, newer, hl, hr, -⟩ := replaceFirst_split ha
      exact hcons ih hq (.change hl hr hadvances ⟨rfl, rfl⟩)
  | dispatch h hq hb hrunning hnew ih => exact ih

/-- What the first queue has, and proposals and changes keep, every persisted queue has. -/
theorem forall_persisted {P : List Dict → Prop}
    (hfirst : ∀ q, Initial q → (∀ a ∈ q.actions, HasStatus a "proposed" ∧ Fresh a) → P q.actions)
    (happend : ∀ l a, P l → findIn (actionId a) l = none → HasStatus a "proposed" ∧ Fresh a →
      P (l ++ [a]))
    (hchange : ∀ l a a', P l → findIn (actionId a') l = some a → Advances a a' →
      P (replaceFirst a' l))
    (h : History Initial Fresh es) : ∀ q, .persisted q ∈ es → P q.actions := by
  have hmem : ∀ {es : List QueueEvent} {q : Queue}, newest es = some q → .persisted q ∈ es :=
    fun hq => mem_persistedQueues.mp (List.mem_of_mem_head? hq)
  induction h with
  | nil => simp
  | @first q hinitial hproposed =>
      intro q' hq'
      obtain rfl : q' = q := by simpa using hq'
      exact hfirst q' hinitial hproposed
  | @append es q a now h hq hnew hproposed ih =>
      intro q' hq'
      rcases List.mem_cons.mp hq' with heq | hq'
      · obtain rfl := QueueEvent.persisted.inj heq
        exact happend q.actions a (ih q (hmem hq)) hnew hproposed
      · exact ih q' hq'
  | @change es q a a' now h hq ha hadvances ih =>
      intro q' hq'
      rcases List.mem_cons.mp hq' with heq | hq'
      · obtain rfl := QueueEvent.persisted.inj heq
        exact hchange q.actions a a' (ih q (hmem hq)) ha hadvances
      · exact ih q' hq'
  | dispatch h hq hb hrunning hnew ih =>
      intro q' hq'
      rcases List.mem_cons.mp hq' with heq | hq'
      · cases heq
      · exact ih q' hq'

/-- In every persisted queue only the first action of an id is not `proposed`. -/
theorem onlyFirst (h : History Initial Fresh es) : ∀ q, .persisted q ∈ es → OnlyFirst q.actions := by
  refine forall_persisted ?_ ?_ ?_ h
  · intro q _ hproposed
    exact List.pairwise_of_forall_mem_list fun a _ b hb _ => (hproposed b hb).1
  · exact fun l a hl _ hproposed => hl.append hproposed.1
  · exact fun l a a' hl ha _ => hl.replaceFirst ha

/-- The ids of a queue stay different from one another. -/
theorem nodup (hinitial : ∀ q, Initial q → (q.actions.map actionId).Nodup)
    (h : History Initial Fresh es) : ∀ q, .persisted q ∈ es → (q.actions.map actionId).Nodup := by
  refine forall_persisted (P := fun l => (l.map actionId).Nodup) ?_ ?_ ?_ h
  · exact fun q hq _ => hinitial q hq
  · intro l a hl hnew _
    rw [List.map_append]
    refine List.nodup_append'.mpr ⟨hl, List.nodup_singleton _, ?_⟩
    intro id hid hid'
    obtain rfl := List.mem_singleton.mp hid'
    obtain ⟨b, hb, hab⟩ := List.mem_map.mp hid
    exact findIn_none hnew b hb hab
  · intro l a a' hl _ _
    rw [map_actionId_replaceFirst]
    exact hl

/-- The mission and the plan of the newest queue are those of the first. -/
theorem same_plan (h : History Initial Fresh es) {q : Queue} (hq : newest es = some q) :
    History (fun q₀ => Initial q₀ ∧ q₀.missionId = q.missionId ∧ q₀.planId = q.planId) Fresh
      es := by
  induction h generalizing q with
  | nil => exact .nil
  | first hinitial hproposed =>
      obtain rfl := Option.some.inj hq
      exact .first ⟨hinitial, rfl, rfl⟩ hproposed
  | append h hq₁ hnew hproposed ih =>
      obtain rfl := Option.some.inj hq
      have htail := ih hq₁
      exact .append htail hq₁ hnew hproposed
  | change h hq₁ ha hadvances ih =>
      obtain rfl := Option.some.inj hq
      have htail := ih hq₁
      exact .change htail hq₁ ha hadvances
  | dispatch h hq₁ hb hrunning hnew ih => exact .dispatch (ih hq) hq₁ hb hrunning hnew

/-- What an action has come to: a proposal at a later time. -/
structure Grown (Fresh : Dict → Prop) (a : Dict) : Prop where
  proposal : ∃ a₀, Fresh a₀ ∧ Later a₀ a ∧ (HasStatus a "proposed" → a = a₀)
  approved : HasStatus a "running" → Approved a

theorem grown (h : History Initial Fresh es) :
    ∀ q, .persisted q ∈ es → ∀ a ∈ q.actions, Grown Fresh a := by
  have hnew : ∀ a, HasStatus a "proposed" ∧ Fresh a → Grown Fresh a := by
    rintro a ⟨hstatus, hfresh⟩
    refine ⟨⟨a, hfresh, Later.refl a, fun _ => rfl⟩, fun hrunning => ?_⟩
    exact absurd (hstatus.unique hrunning) (by decide)
  refine forall_persisted (P := fun l => ∀ a ∈ l, Grown Fresh a) ?_ ?_ ?_ h
  · exact fun q _ hproposed a ha => hnew a (hproposed a ha)
  · intro l a hl _ hproposed b hb
    rcases List.mem_append.mp hb with hb | hb
    · exact hl b hb
    · obtain rfl := List.mem_singleton.mp hb
      exact hnew b hproposed
  · intro l a a' hl ha hadvances b hb
    obtain ⟨older, newer, rfl, hr, -⟩ := replaceFirst_split ha
    rw [hr, List.mem_append, List.mem_cons] at hb
    rcases hb with hb | rfl | hb
    · exact hl b (List.mem_append_left _ hb)
    · obtain ⟨⟨a₀, hfresh, hlater, -⟩, -⟩ := hl a (List.mem_append_right _ List.mem_cons_self)
      refine ⟨⟨a₀, hfresh, hlater.trans hadvances.later, fun hstatus => ?_⟩, hadvances.approved⟩
      exact absurd hstatus hadvances.not_proposed
    · exact hl b (List.mem_append_right _ (List.mem_cons_of_mem _ hb))

/-- How the action of an id goes on, with a property that advancing keeps, from the
newest queue over one event. -/
theorem onward {K : Dict → Prop} (hK : ∀ {a a'}, Advances a a' → K a → K a') {q : Queue}
    {e : QueueEvent} (h : History Initial Fresh (e :: es)) (hq : newest es = some q) {id : String}
    {b : Dict} (hb : findIn id q.actions = some b) (hKb : K b) :
    ∃ q', newest (e :: es) = some q' ∧ ∃ b', findIn id q'.actions = some b' ∧ K b' := by
  cases h with
  | first => cases hq
  | @append _ q₁ a now h hq₁ hnew hproposed =>
      obtain rfl := Option.some.inj (hq₁.symm.trans hq)
      exact ⟨_, rfl, b, findIn_append hb, hKb⟩
  | @change _ q₁ a a' now h hq₁ ha hadvances =>
      obtain rfl := Option.some.inj (hq₁.symm.trans hq)
      refine ⟨_, rfl, ?_⟩
      rcases eq_or_ne id (actionId a') with rfl | hne
      · obtain rfl := Option.some.inj (ha.symm.trans hb)
        exact ⟨a', findIn_replaceFirst_self ha, hK hadvances hKb⟩
      · exact ⟨b, (findIn_replaceFirst_ne hne).trans hb, hKb⟩
  | dispatch => exact ⟨q, hq, b, hb, hKb⟩

theorem tail {e : QueueEvent} (h : History Initial Fresh (e :: es)) : History Initial Fresh es := by
  cases h with
  | first => exact .nil
  | append h => exact h
  | change h => exact h
  | dispatch h => exact h

/-- What was found in some queue is found in the newest, with a property that advancing
keeps. -/
theorem lasting {K : Dict → Prop} (hK : ∀ {a a'}, Advances a a' → K a → K a')
    (h : History Initial Fresh es) {q : Queue} (hq : .persisted q ∈ es) {id : String} {b : Dict}
    (hb : findIn id q.actions = some b) (hKb : K b) :
    ∃ q', newest es = some q' ∧ ∃ b', findIn id q'.actions = some b' ∧ K b' := by
  induction es with
  | nil => cases hq
  | cons e es ih =>
      rcases List.mem_cons.mp hq with rfl | hmem
      · exact ⟨q, rfl, b, hb, hKb⟩
      · obtain ⟨q₁, hq₁, b₁, hb₁, hKb₁⟩ := ih h.tail hmem
        exact onward hK h hq₁ hb₁ hKb₁

/-- A terminal status is what the newest queue still says. -/
theorem ended {s : String} (hs : s ∈ ["completed", "failed", "blocked", "rejected"])
    (h : History Initial Fresh es) {q : Queue} (hq : .persisted q ∈ es) {b : Dict}
    (hb : b ∈ q.actions) (hstatus : HasStatus b s) :
    ∃ q', newest es = some q' ∧ ∃ b', findIn (actionId b) q'.actions = some b' ∧ HasStatus b' s := by
  have hnot : ¬ HasStatus b "proposed" := by
    intro hp
    obtain rfl := hstatus.unique hp
    simp at hs
  refine lasting (K := fun b => HasStatus b s) ?_ h hq ((h.onlyFirst q hq).find hb hnot) hstatus
  exact fun hadvances ha => absurd ha (hadvances.not_terminal hs)

/-- An action that has been dispatched is not `proposed` or `rejected` in the newest queue. -/
theorem started (h : History Initial Fresh es) {t : Effects.Tid} {a : Dict}
    (ha : .dispatched t a ∈ es) :
    ∃ q, newest es = some q ∧ ∃ b, findIn (actionId a) q.actions = some b ∧
      ∃ s ∈ ["running", "completed", "failed", "blocked"], HasStatus b s := by
  induction es with
  | nil => cases ha
  | cons e es ih =>
      rcases List.mem_cons.mp ha with rfl | hmem
      · cases h with
        | @dispatch _ q _ _ b h hq hb hrunning hnew =>
            exact ⟨q, hq, b, hb, "running", by simp, hrunning⟩
      · obtain ⟨q, hq, b, hb, hstarted⟩ := ih h.tail hmem
        refine onward (K := fun b => ∃ s ∈ ["running", "completed", "failed", "blocked"],
          HasStatus b s) ?_ h hq hb hstarted
        exact fun hadvances ⟨s, hs, hstatus⟩ => hadvances.started hs hstatus

/-- No queue of a history says that a dispatched action is rejected. -/
theorem not_rejected (h : History Initial Fresh es) {t : Effects.Tid} {a : Dict}
    (ha : .dispatched t a ∈ es) {q : Queue} (hq : .persisted q ∈ es) {b : Dict} (hb : b ∈ q.actions)
    (hid : actionId b = actionId a) : ¬ HasStatus b "rejected" := by
  intro hstatus
  obtain ⟨q₁, hq₁, b₁, hb₁, hrejected⟩ := h.ended (by simp) hq hb hstatus
  obtain ⟨q₂, hq₂, b₂, hb₂, s, hs, hs₂⟩ := h.started ha
  obtain rfl := Option.some.inj (hq₁.symm.trans hq₂)
  rw [hid, hb₂] at hb₁
  obtain rfl := Option.some.inj hb₁
  obtain rfl := hs₂.unique hrejected
  simp at hs

/-- **Dispatched at most once, never what was rejected or blocked, and never rejected.** -/
theorem follows (h : History Initial Fresh es) : es.Pairwise Follows := by
  induction es with
  | nil => exact .nil
  | cons e es ih =>
      refine List.pairwise_cons.mpr ⟨?_, ih h.tail⟩
      intro e' he'
      cases e with
      | persisted q =>
          cases e' with
          | persisted q' => trivial
          | dispatched t a =>
              exact fun b hb => h.not_rejected (List.mem_cons_of_mem _ he') List.mem_cons_self hb
      | dispatched t a =>
          cases h with
          | @dispatch _ q _ _ b₀ h hq hb₀ hrunning hnew =>
              cases e' with
              | dispatched t' a' => exact fun hid => hnew t' a' he' hid.symm
              | persisted q' =>
                  -- whatever ended before is what the queue says now, but it says `running`
                  have hrun : ∀ s ∈ ["completed", "failed", "blocked", "rejected"],
                      ∀ b ∈ q'.actions, actionId b = actionId a → ¬ HasStatus b s := by
                    intro s hs b hb hid hstatus
                    obtain ⟨q₁, hq₁, b₁, hb₁, hs₁⟩ := h.ended hs he' hb hstatus
                    obtain rfl := Option.some.inj (hq₁.symm.trans hq)
                    rw [hid, hb₀] at hb₁
                    obtain rfl := Option.some.inj hb₁
                    obtain rfl := hs₁.unique hrunning
                    simp at hs
                  exact fun b hb hid =>
                    ⟨hrun "rejected" (by simp) b hb hid, hrun "blocked" (by simp) b hb hid⟩

theorem nodup_dispatchedIds (h : History Initial Fresh es) : (dispatchedIds es).Nodup := by
  refine List.Pairwise.filterMap _ ?_ h.follows
  rintro (q | ⟨t, a⟩) (q' | ⟨t', a'⟩) hfollows id hid id' hid'
  · cases hid
  · cases hid
  · cases hid'
  · obtain rfl := Option.some.inj hid
    obtain rfl := Option.some.inj hid'
    exact hfollows

end History

end Konoha.Hokage
