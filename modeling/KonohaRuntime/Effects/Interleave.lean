/-
Effects/Interleave.lean

Any number of threads, each running a program of `Effects.Prog` against one
shared world, interleaved operation by operation.  A thread may be killed
between any two of its operations, and the surroundings may change the world
at any moment.

The one theorem is `Outline.reachable`: if every program is proved, alone,
under rely and guarantee conditions that fit together, then the invariant
holds in every configuration any interleaving can reach.  All the pieces that
have to fit are the fields of `Outline`.
-/
import Mathlib.Logic.Function.Basic
import Mathlib.Order.Basic
import KonohaRuntime.Effects.Prog

namespace Effects

open Prog

variable {W Arg : Type} {Op : Type} {Ans : Op → Type} {ε α : Type}

/-- Threads are numbered in the order in which they start. -/
abbrev Tid := Nat

/-- A concurrent system: the program each call runs, what an operation of a
thread does, what the death of a thread does, and what the surroundings do
while the threads in `live` are there. -/
structure System (W Arg : Type) {Op : Type} (Ans : Op → Type) (ε α : Type) where
  call : Tid → Arg → Prog Ans ε α
  step : Tid → W → (o : Op) → Ans o → W → Prop
  die : Tid → W → W → Prop
  env : (live : Tid → Prop) → W → W → Prop

/-- A configuration.  A thread that has run to its end stays in the pool until
it dies: its process may still be alive. -/
structure Conf (W : Type) {Op : Type} (Ans : Op → Type) (ε α : Type) where
  world : W
  thread : Tid → Option (Prog Ans ε α)
  next : Tid

/-- The threads of a configuration that have not died. -/
def Conf.Live (c : Conf W Ans ε α) (t : Tid) : Prop := (c.thread t).isSome

/-- No thread has started. -/
def Conf.init (w : W) : Conf W Ans ε α where
  world := w
  thread := fun _ => none
  next := 0

namespace System

variable (S : System W Arg Ans ε α)

/-- One step of the interleaved system. -/
inductive Step : Conf W Ans ε α → Conf W Ans ε α → Prop
  | spawn (c : Conf W Ans ε α) (x : Arg) :
      Step c { c with
        thread := Function.update c.thread c.next (some (S.call c.next x))
        next := c.next + 1 }
  | perform (c : Conf W Ans ε α) {t : Tid} {o : Op} {k : Ans o → Prog Ans ε α} {r : Ans o}
      {w : W} (ht : c.thread t = some (.op o k)) (hs : S.step t c.world o r w) :
      Step c { c with world := w, thread := Function.update c.thread t (some (k r)) }
  | die (c : Conf W Ans ε α) {t : Tid} {w : W} (ht : c.Live t) (hd : S.die t c.world w) :
      Step c { c with world := w, thread := Function.update c.thread t none }
  | env (c : Conf W Ans ε α) {w : W} (he : S.env c.Live c.world w) :
      Step c { c with world := w }

/-- The configurations that runs from `w₀` reach. -/
def Reachable (w₀ : W) (c : Conf W Ans ε α) : Prop :=
  Relation.ReflTransGen S.Step (Conf.init w₀) c

/-- What has to be shown of a system thread by thread: an invariant, the
interference each thread relies on and the one it guarantees to cause, and
what is true of the world for a thread that has not started. -/
structure Outline where
  inv : W → Prop
  rely : Tid → W → W → Prop
  guar : Tid → W → W → Prop
  start : Tid → W → Prop
  rely_refl : ∀ t w, rely t w w
  rely_trans : ∀ {t w₁ w₂ w₃}, rely t w₁ w₂ → rely t w₂ w₃ → rely t w₁ w₃
  start_stable : ∀ {t w w'}, start t w → rely t w w' → start t w'
  guar_rely : ∀ {t t' w w'}, t ≠ t' → guar t w w' → rely t' w w'
  die_inv : ∀ {t w w'}, inv w → S.die t w w' → inv w'
  die_rely : ∀ {t t' w w'}, t ≠ t' → S.die t w w' → rely t' w w'
  env_inv : ∀ {live w w'}, inv w → S.env live w w' → inv w'
  env_rely : ∀ {live t w w'}, S.env live w w' → live t ∨ start t w → rely t w w'
  call_ok : ∀ t x, Triple ⟨S.step t, rely t, guar t, inv⟩ (fun w => inv w ∧ start t w)
    (S.call t x) (fun _ _ => True) (fun _ _ => True)

namespace Outline

variable {S} (O : S.Outline)

/-- The rules of thread `t` under the outline. -/
def rules (t : Tid) : Rules W Ans := ⟨S.step t, O.rely t, O.guar t, O.inv⟩

/-- The running thread `t` has been proved from the world it last left. -/
def Proved (t : Tid) (m : Prog Ans ε α) (w : W) : Prop :=
  ∃ w₁, O.rely t w₁ w ∧ wp (O.rules t) (fun _ _ => True) (fun _ _ => True) m w₁

theorem Proved.rely {t : Tid} {m : Prog Ans ε α} {w w' : W} (h : O.Proved t m w)
    (hr : O.rely t w w') : O.Proved t m w' := by
  obtain ⟨w₁, h₁, hw⟩ := h
  exact ⟨w₁, O.rely_trans h₁ hr, hw⟩

/-- What every reachable configuration satisfies. -/
structure Good (c : Conf W Ans ε α) : Prop where
  inv : O.inv c.world
  proved : ∀ t m, c.thread t = some m → O.Proved t m c.world
  fresh : ∀ t, c.next ≤ t → c.thread t = none ∧ O.start t c.world

/-- A change of the world that every other thread may rely on keeps the pool
good, whatever the changed thread itself becomes. -/
theorem Good.update {c : Conf W Ans ε α} (h : O.Good c) {t : Tid} {w : W}
    {m : Option (Prog Ans ε α)} (ht : c.Live t) (hi : O.inv w)
    (hr : ∀ t', t ≠ t' → O.rely t' c.world w) (hm : ∀ m', m = some m' → O.Proved t m' w) :
    O.Good { c with world := w, thread := Function.update c.thread t m } where
  inv := hi
  proved := by
    intro t' m' hm'
    dsimp only at hm'
    rcases eq_or_ne t' t with rfl | hne
    · rw [Function.update_self] at hm'
      exact hm m' hm'
    · rw [Function.update_of_ne hne] at hm'
      exact (h.proved t' m' hm').rely O (hr t' hne.symm)
  fresh := by
    intro t' ht'
    obtain ⟨hnone, hstart⟩ := h.fresh t' ht'
    have hne : t ≠ t' := by
      rintro rfl
      simp [Conf.Live, hnone] at ht
    exact ⟨(Function.update_of_ne hne.symm _ _).trans hnone,
      O.start_stable hstart (hr t' hne)⟩

/-- One step keeps a configuration good. -/
theorem Good.step {c c' : Conf W Ans ε α} (h : O.Good c) (hs : S.Step c c') : O.Good c' := by
  cases hs with
  | spawn x =>
      obtain ⟨-, hstart⟩ := h.fresh c.next (Nat.le_refl _)
      refine ⟨h.inv, ?_, ?_⟩
      · intro t m hm
        dsimp only at hm
        rcases eq_or_ne t c.next with rfl | hne
        · rw [Function.update_self] at hm
          obtain rfl := Option.some.inj hm
          exact ⟨c.world, O.rely_refl _ _, O.call_ok _ x _ ⟨h.inv, hstart⟩⟩
        · rw [Function.update_of_ne hne] at hm
          exact h.proved t m hm
      · intro t ht
        have hne : t ≠ c.next := by
          rintro rfl
          exact absurd ht (by simp)
        obtain ⟨hnone, hst⟩ := h.fresh t (Nat.le_of_succ_le ht)
        exact ⟨(Function.update_of_ne hne _ _).trans hnone, hst⟩
  | @perform t o k r w ht hs =>
      obtain ⟨w₁, hr₁, hw⟩ := h.proved t _ ht
      obtain ⟨hi, hg, hk⟩ := hw c.world hr₁ h.inv r w hs
      refine h.update O (by simp [Conf.Live, ht]) hi (fun t' hne => O.guar_rely hne hg) ?_
      rintro m' hm'
      obtain rfl := Option.some.inj hm'
      exact ⟨w, O.rely_refl t w, hk⟩
  | die ht hd =>
      exact h.update O ht (O.die_inv h.inv hd) (fun t' hne => O.die_rely hne hd) (by simp)
  | env he =>
      refine ⟨O.env_inv h.inv he, ?_, ?_⟩
      · intro t m hm
        exact (h.proved t m hm).rely O (O.env_rely he (.inl (Option.isSome_iff_exists.mpr ⟨m, hm⟩)))
      · intro t ht
        obtain ⟨hnone, hst⟩ := h.fresh t ht
        exact ⟨hnone, O.start_stable hst (O.env_rely he (.inr hst))⟩

/-- **Soundness of the outline**: the invariant holds in every configuration
that any interleaving, any deaths and any interference reach. -/
theorem reachable {w₀ : W} (hi : O.inv w₀) (hst : ∀ t, O.start t w₀) {c : Conf W Ans ε α}
    (h : S.Reachable w₀ c) : O.inv c.world := by
  have hgood : O.Good c := by
    induction h with
    | refl => exact ⟨hi, by simp [Conf.init], fun t _ => ⟨rfl, hst t⟩⟩
    | tail _ hs ih => exact ih.step O hs
  exact hgood.inv

end Outline

end System

end Effects
