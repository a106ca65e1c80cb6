/-
Effects/Deliver.lean

What holds of the value a thread returns.  `Outline.reachable` speaks of the world
only.  A postcondition of the calls that the other threads cannot undo (`Delivers`)
holds, in every configuration an interleaving reaches, of each thread that has run to
its end.
-/
import KonohaRuntime.Effects.Interleave

namespace Effects

open Prog

variable {W Arg : Type} {Op : Type} {Ans : Op → Type} {ε α : Type}

namespace System.Outline

variable {S : System W Arg Ans ε α} (O : S.Outline)

/-- The calls end in `Q`, and nobody undoes it. -/
structure Delivers (Q : Tid → α → W → Prop) : Prop where
  call : ∀ t x, Triple (O.rules t) (fun w => O.inv w ∧ O.start t w) (S.call t x) (Q t)
    (fun _ _ => True)
  stable : ∀ {t a w w'}, Q t a w → O.rely t w w' → Q t a w'

variable {O} {Q : Tid → α → W → Prop}

/-- Thread `t` has been proved to end in `Q`, from the world it last left. -/
def Delivering (O : S.Outline) (Q : Tid → α → W → Prop) (c : Conf W Ans ε α) (t : Tid) : Prop :=
  ∀ m, c.thread t = some m → ∃ w, O.rely t w c.world ∧ wp (O.rules t) (Q t) (fun _ _ => True) m w

/-- A change of the world that `t` may rely on, which leaves its program alone. -/
theorem Delivering.frame {c c' : Conf W Ans ε α} {t : Tid} (h : Delivering O Q c t)
    (ht : c'.thread t = c.thread t) (hr : O.rely t c.world c'.world) : Delivering O Q c' t := by
  intro m hm
  obtain ⟨w, hw, hwp⟩ := h m (ht ▸ hm)
  exact ⟨w, O.rely_trans hw hr, hwp⟩

/-- One step keeps every thread on its way to `Q`. -/
theorem Delivering.step (hd : O.Delivers Q) {c c' : Conf W Ans ε α} (hgood : O.Good c)
    (h : ∀ t, Delivering O Q c t) (hs : S.Step c c') : ∀ t, Delivering O Q c' t := by
  intro t
  cases hs with
  | spawn x =>
      rcases eq_or_ne t c.next with rfl | hne
      · intro m hm
        obtain ⟨-, hstart⟩ := hgood.fresh c.next (Nat.le_refl _)
        dsimp only at hm
        rw [Function.update_self] at hm
        obtain rfl := Option.some.inj hm
        exact ⟨c.world, O.rely_refl _ _, hd.call _ x _ ⟨hgood.inv, hstart⟩⟩
      · exact (h t).frame (Function.update_of_ne hne _ _) (O.rely_refl _ _)
  | @perform t' o k r w ht hs =>
      rcases eq_or_ne t t' with rfl | hne
      · intro m hm
        dsimp only at hm
        rw [Function.update_self] at hm
        obtain rfl := Option.some.inj hm
        obtain ⟨w₁, hr₁, hwp⟩ := h t _ ht
        exact ⟨w, O.rely_refl _ _, (hwp c.world hr₁ hgood.inv r w hs).2.2⟩
      · obtain ⟨w₁, hr₁, hwp⟩ := hgood.proved t' _ ht
        obtain ⟨-, hg, -⟩ := hwp c.world hr₁ hgood.inv r w hs
        exact (h t).frame (Function.update_of_ne hne _ _) (O.guar_rely hne.symm hg)
  | @die t' w ht hdie =>
      rcases eq_or_ne t t' with rfl | hne
      · intro m hm
        dsimp only at hm
        rw [Function.update_self] at hm
        cases hm
      · exact (h t).frame (Function.update_of_ne hne _ _) (O.die_rely hne.symm hdie)
  | env he =>
      intro m hm
      obtain ⟨w₁, hr₁, hwp⟩ := h t m hm
      have hlive : c.Live t := Option.isSome_iff_exists.mpr ⟨m, hm⟩
      exact ⟨w₁, O.rely_trans hr₁ (O.env_rely he (.inl hlive)), hwp⟩

/-- **Every thread that has returned has delivered.** -/
theorem Delivers.returned (hd : O.Delivers Q) {w₀ : W} (hi : O.inv w₀)
    (hst : ∀ t, O.start t w₀) {c : Conf W Ans ε α} (h : S.Reachable w₀ c) {t : Tid} {a : α}
    (ht : c.thread t = some (.ret a)) : Q t a c.world := by
  have hall : O.Good c ∧ ∀ t, Delivering O Q c t := by
    clear ht
    induction h with
    | refl =>
        exact ⟨⟨hi, by simp [Conf.init], fun t _ => ⟨rfl, hst t⟩⟩, by simp [Delivering, Conf.init]⟩
    | tail _ hs ih => exact ⟨ih.1.step O hs, Delivering.step hd ih.1 ih.2 hs⟩
  obtain ⟨w, hr, hq⟩ := hall.2 t _ ht
  exact hd.stable hq hr

end System.Outline

end Effects
