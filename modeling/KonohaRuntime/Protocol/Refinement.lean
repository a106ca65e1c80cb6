/-
Protocol/Refinement.lean

The runtime as a concurrent system, and the proof that it refines the protocol:
in every configuration that any number of calls can reach, interleaved
operation by operation, killed at any point and with plans and evidence edited
by hand in between, the events of every mission are `Legal`
(`runtime_legal`).

Each call is proved alone.  What makes the parts fit is the mission lock:

* a call that owns `execution.lock` relies on nobody else touching the state
  file, the temporary file, the events and the lock of that mission;
* in return it changes those only for a mission whose lock it owns.
-/
import KonohaRuntime.Protocol.Legal

namespace Konoha

open Effects Json

/-! ### Rules of a thread -/

/-- Rules under which operations do what they do for thread `t`. -/
class OfThread (R : Prog.Rules World Op.Ans) (t : outParam Tid) : Prop where
  step : ∀ {w o r w'}, R.step w o r w' → step t w o r w'
  guar_refl : ∀ w, R.guar w w

section OfThread

variable {R : Prog.Rules World Op.Ans} {t : Tid} [ht : OfThread R t] {α : Type}
variable {A : World → Prop}

include ht in
/-- A program that only reads keeps every stable assertion. -/
theorem triple_reading {m : Run α} {Q : α → Prop} {E : PyExc → Prop} (h : Reading Q E m)
    (hA : Prog.Stable R A) :
    Prog.Triple R A m (fun a w => Q a ∧ A w) (fun e w => E e ∧ A w) :=
  h.triple (fun _ ho _ _ _ hst => step_of_reads ho (ht.step hst)) ht.guar_refl hA

include ht in
/-- A single reading operation. -/
theorem triple_read (o : Op) (ho : o.reads = true) (hA : Prog.Stable R A) :
    Prog.Triple R A (perform o) (fun _ => A) (fun _ => A) :=
  (triple_reading (reading_perform o ho) hA).conseq (fun _ h => h) (fun _ _ h => h.2)
    fun _ _ h => h.2

/-- A single reading operation whose answer says something about the world. -/
theorem triple_observe (o : Op) (ho : o.reads = true) {B : o.Value → Prop}
    (hA : Prog.Stable R A)
    (hB : ∀ w v, A w → R.inv w → Konoha.step t w o (.ok v) w → B v) :
    Prog.Triple R A (perform o) (fun v w => B v ∧ A w) (fun _ => A) := by
  refine Prog.Triple.op (B := fun r w => (∀ v, r = .ok v → B v) ∧ A w) hA ?_ fun r => ?_
  · intro w r w' hw hi hst
    have hst := ht.step hst
    obtain rfl := step_of_reads ho hst
    exact ⟨hi, ht.guar_refl _, fun v hv => hB _ v hw hi (hv ▸ hst), hw⟩
  · cases r with
    | ok v => exact Prog.Triple.ret fun w hw => ⟨hw.1 v rfl, hw.2⟩
    | error e => exact Prog.Triple.raise fun w hw => hw.2

/-- Catching every exception, when value and exception lead to one assertion. -/
theorem triple_caught {m : Run α} {B : α → World → Prop} {E : PyExc → World → Prop}
    (h : Prog.Triple R A m B E) :
    Prog.Triple R A m.attempt
      (fun r w => (∀ a, r = .ok a → B a w) ∧ ∀ e, r = .error e → E e w) (fun _ _ => False) :=
  h.attempt (fun a w hb => ⟨by rintro _ ⟨⟩; exact hb, by rintro _ ⟨⟩⟩)
    fun e w he => ⟨by rintro _ ⟨⟩, by rintro _ ⟨⟩; exact he⟩

end OfThread

/-! ### The system -/

/-- One call of `execute_or_resume_plan`. -/
structure Call where
  missionId : String
  approval : ApprovalArg

/-- What may happen to a mission directory from outside, when `allowed` are the
contents that `plan.json` may take and `live` the calls that are not dead: plan
and evidence are edited at will, the state is left to the runtime, and the lock
is removed only after its owner has died. -/
structure Outside (allowed : File → Prop) (live : Tid → Prop) (d d' : MissionDir) : Prop where
  plan : allowed d.plan → allowed d'.plan
  state : d'.state = d.state
  tmp : d'.tmp = d.tmp
  events : d'.events = d.events
  lock : d'.lock = d.lock ∨ ∃ t, d.lock = some t ∧ ¬ live t ∧ d'.lock = none

/-- The resumable runtime: any number of calls, on any missions; the `t`-th call
to start is `calls t`. -/
def runtime (py : Stdlib) (calls : Tid → Call) (allowed : String → File → Prop) :
    System World Unit Op.Ans PyExc ExecutionAttempt where
  call := fun t _ => executeOrResumePlan py (calls t).missionId (calls t).approval
  step := step
  die := fun _ w w' => w' = w
  env := fun live w w' => ∀ m, Outside (allowed m) live (w m) (w' m)

variable (py : Stdlib) (calls : Tid → Call) (allowed : String → File → Prop)
variable (f₀ : String → File)

/-- The plans that can be read for a mission. -/
def PlanAllowed (m : String) (plan : MissionPlan) : Prop :=
  ∃ v, allowed m (.json v) ∧ parsePlan py m v = .ok plan

/-- What call `t` can work with: a plan it can read, and its own approval. -/
structure Permits (m : String) (t : Tid) (fr : Frame) : Prop where
  plan : PlanAllowed py allowed m fr.plan
  approval : fr.approval = (calls t).approval

/-- The part of a mission directory that only the owner of the lock changes. -/
def SameCore (d d' : MissionDir) : Prop :=
  d'.state = d.state ∧ d'.tmp = d.tmp ∧ d'.events = d.events ∧ d'.lock = d.lock

/-- What thread `t` relies on. -/
def Relies (t : Tid) (w w' : World) : Prop :=
  ∀ m, ((w m).lock = some t → SameCore (w m) (w' m)) ∧
    ((w m).lock ≠ some t → (w' m).lock ≠ some t)

/-- What thread `t` guarantees: whatever any other thread relies on. -/
def Guarantees (t : Tid) (w w' : World) : Prop := ∀ t', t ≠ t' → Relies t' w w'

/-- The invariant of the system. -/
def Sound (w : World) : Prop :=
  ∀ m, allowed m (w m).plan ∧
    Legal py m (Permits py calls allowed m) (f₀ m) (w m).events (w m).state

/-- A thread that has not started owns no lock. -/
def Fresh (t : Tid) (w : World) : Prop := ∀ m, (w m).lock ≠ some t

/-- The rules a call is proved under. -/
def callRules (t : Tid) : Prog.Rules World Op.Ans :=
  ⟨step t, Relies t, Guarantees t, Sound py calls allowed f₀⟩

theorem Relies.refl (t : Tid) (w : World) : Relies t w w :=
  fun _ => ⟨fun _ => ⟨rfl, rfl, rfl, rfl⟩, id⟩

theorem Relies.trans {t : Tid} {w₁ w₂ w₃ : World} (h₁ : Relies t w₁ w₂) (h₂ : Relies t w₂ w₃) :
    Relies t w₁ w₃ := by
  intro m
  refine ⟨fun hl => ?_, fun hl => (h₂ m).2 ((h₁ m).2 hl)⟩
  obtain ⟨hs, ht, he, hk⟩ := (h₁ m).1 hl
  obtain ⟨hs', ht', he', hk'⟩ := (h₂ m).1 (hk.trans hl)
  exact ⟨hs'.trans hs, ht'.trans ht, he'.trans he, hk'.trans hk⟩

theorem Guarantees.refl (t : Tid) (w : World) : Guarantees t w w := fun t' _ => Relies.refl t' w

/-! ### Steps of the owner of a lock -/

section Owner

variable {py calls allowed f₀} {t : Tid} {m : String} {w : World}

/-- A change of a mission directory by the owner of its lock, who may at most
give the lock up. -/
theorem guarantees_modify {g : MissionDir → MissionDir} (hl : (w m).lock = some t)
    (hg : (g (w m)).lock = some t ∨ (g (w m)).lock = none) : Guarantees t w (w.modify m g) := by
  intro t' hne m'
  by_cases hm : m' = m
  · subst hm
    rw [World.modify_same]
    refine ⟨fun h => absurd (hl.symm.trans h) (by simpa using hne), fun _ => ?_⟩
    rcases hg with hg | hg <;> simp [hg, hne]
  · rw [World.modify_of_ne hm]
    exact ⟨fun _ => ⟨rfl, rfl, rfl, rfl⟩, id⟩

theorem sound_modify {g : MissionDir → MissionDir} (hs : Sound py calls allowed f₀ w)
    (hp : (g (w m)).plan = (w m).plan)
    (hg : Legal py m (Permits py calls allowed m) (f₀ m) (g (w m)).events (g (w m)).state) :
    Sound py calls allowed f₀ (w.modify m g) := by
  intro m'
  by_cases hm : m' = m
  · subst hm
    rw [World.modify_same, hp]
    exact ⟨(hs m').1, hg⟩
  · rw [World.modify_of_ne hm]
    exact hs m'

end Owner

/-! ### Assertions -/

/-- Thread `t` owns the lock of `m`. -/
def Held (t : Tid) (m : String) (w : World) : Prop := (w m).lock = some t

/-- It does, and the events and the state file are these. -/
def Holds (t : Tid) (m : String) (h : List Event) (f : File) (w : World) : Prop :=
  (w m).lock = some t ∧ (w m).events = h ∧ (w m).state = f

/-- Furthermore the temporary file is ready to become the state. -/
def Staged (t : Tid) (m : String) (h : List Event) (f g : File) (w : World) : Prop :=
  Holds t m h f w ∧ (w m).tmp = g

section Stable

variable {py calls allowed f₀} {t : Tid} {m : String} {h : List Event} {f g : File}

theorem stable_held : Prog.Stable (callRules py calls allowed f₀ t) (Held t m) := by
  intro w w' hw hr
  obtain ⟨-, -, -, hk⟩ := (hr m).1 hw
  exact hk.trans hw

theorem stable_holds : Prog.Stable (callRules py calls allowed f₀ t) (Holds t m h f) := by
  rintro w w' ⟨hl, he, hs⟩ hr
  obtain ⟨hs', -, he', hk⟩ := (hr m).1 hl
  exact ⟨hk.trans hl, he'.trans he, hs'.trans hs⟩

theorem stable_staged : Prog.Stable (callRules py calls allowed f₀ t) (Staged t m h f g) := by
  rintro w w' ⟨hw, ht⟩ hr
  obtain ⟨-, ht', -, -⟩ := (hr m).1 hw.1
  exact ⟨stable_holds w w' hw hr, ht'.trans ht⟩

theorem stable_notOwner :
    Prog.Stable (callRules py calls allowed f₀ t) (fun w => (w m).lock ≠ some t) :=
  fun _ _ hw hr => (hr m).2 hw

theorem Holds.held {w : World} (hw : Holds t m h f w) : Held t m w := hw.1

end Stable

instance : OfThread (callRules py calls allowed f₀ t) t := ⟨fun h => h, Guarantees.refl t⟩

/-! ### Rules for single operations -/

section Rules

variable {py calls allowed f₀} {t : Tid} {α : Type} {A : World → Prop}

/-- One operation that raises what it is answered. -/
theorem triple_perform {o : Op} {B : o.Value → World → Prop} {E : PyExc → World → Prop}
    (hA : Prog.Stable (callRules py calls allowed f₀ t) A)
    (hs : ∀ w r w', A w → Sound py calls allowed f₀ w → step t w o r w' →
      Sound py calls allowed f₀ w' ∧ Guarantees t w w' ∧
        (∀ v, r = .ok v → B v w') ∧ ∀ e, r = .error e → E e w') :
    Prog.Triple (callRules py calls allowed f₀ t) A (perform o) B E := by
  refine Prog.Triple.op (B := fun r w' => (∀ v, r = .ok v → B v w') ∧ ∀ e, r = .error e → E e w')
    hA hs fun r => ?_
  cases r with
  | ok v => exact Prog.Triple.ret fun w hw => hw.1 v rfl
  | error e => exact Prog.Triple.raise fun w hw => hw.2 e rfl

end Rules

end Konoha
