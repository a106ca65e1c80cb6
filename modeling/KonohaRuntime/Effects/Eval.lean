/-
Effects/Eval.lean

Evaluating a program against operations that are answered by a function.  The rules
follow the program; the last ones are for code that leaves the world as it is, which
evaluates as the computation that it is.
-/
import KonohaRuntime.Effects.Loops

namespace Effects

namespace Prog

variable {Op : Type} {Ans : Op → Type} {ε α β W : Type} {h : W → (o : Op) → Ans o × W}

/-- Going on after a first part. -/
def andThen (h : W → (o : Op) → Ans o × W) (f : α → Prog Ans ε β) :
    Except ε α × W → Except ε β × W
  | (.ok a, w) => (f a).eval h w
  | (.error e, w) => (.error e, w)

theorem eval_bind (m : Prog Ans ε α) (f : α → Prog Ans ε β) (w : W) :
    (m >>= f).eval h w = andThen h f (m.eval h w) := by
  induction m generalizing w with
  | ret a => rfl
  | raise e => rfl
  | op o k ih => exact ih (h w o).1 (h w o).2

theorem eval_bind_ok {m : Prog Ans ε α} {f : α → Prog Ans ε β} {w w' : W} {a : α}
    (hm : m.eval h w = (.ok a, w')) : (m >>= f).eval h w = (f a).eval h w' := by
  rw [eval_bind, hm]
  rfl

theorem eval_bind_error {m : Prog Ans ε α} {f : α → Prog Ans ε β} {w w' : W} {e : ε}
    (hm : m.eval h w = (.error e, w')) : (m >>= f).eval h w = (.error e, w') := by
  rw [eval_bind, hm]
  rfl

/-- What has gone through has gone through in parts. -/
theorem eval_bind_eq_ok {m : Prog Ans ε α} {f : α → Prog Ans ε β} {w w' : W} {b : β} :
    (m >>= f).eval h w = (.ok b, w') ↔
      ∃ a w₁, m.eval h w = (.ok a, w₁) ∧ (f a).eval h w₁ = (.ok b, w') := by
  rw [eval_bind]
  rcases m.eval h w with ⟨e | a, w₁⟩
  · simp [andThen]
  · simp [andThen]

theorem eval_attempt (m : Prog Ans ε α) (w : W) :
    (m.attempt : Prog Ans ε (Except ε α)).eval h w = (.ok (m.eval h w).1, (m.eval h w).2) := by
  induction m generalizing w with
  | ret a => rfl
  | raise e => rfl
  | op o k ih => exact ih (h w o).1 (h w o).2

theorem eval_ofExcept (x : Except ε α) (w : W) :
    (ofExcept x : Prog Ans ε α).eval h w = (x, w) := by
  cases x <;> rfl

theorem eval_ask {V : Op → Type} {h : W → (o : Op) → Except ε (V o) × W} (o : Op) (w : W) :
    (ask o).eval h w = h w o := by
  rw [ask, eval]
  rcases h w o with ⟨e | v, w'⟩ <;> rfl

/-- A program does not notice operations that it does not perform. -/
theorem eval_congr {P : Op → Prop} {h' : W → (o : Op) → Ans o × W} {m : Prog Ans ε α}
    (hm : m.Always P (fun _ => True) fun _ => True) (hh : ∀ w o, P o → h w o = h' w o) (w : W) :
    m.eval h w = m.eval h' w := by
  induction m generalizing w with
  | ret a => rfl
  | raise e => rfl
  | op o k ih =>
      obtain ⟨ho, hk⟩ := hm
      simp only [eval, hh w o ho]
      exact ih _ (hk _) _

/-! ### Code that leaves the world -/

/-- In `w`, program `m` is the computation `x`. -/
def Computes (h : W → (o : Op) → Ans o × W) (w : W) (m : Prog Ans ε α) (x : Except ε α) : Prop :=
  m.eval h w = (x, w)

variable {w : W}

theorem Computes.bind {m : Prog Ans ε α} {x : Except ε α} {f : α → Prog Ans ε β}
    {g : α → Except ε β} (hm : Computes h w m x) (hf : ∀ a, x = .ok a → Computes h w (f a) (g a)) :
    Computes h w (m >>= f) (x >>= g) := by
  unfold Computes
  rw [eval_bind, hm]
  cases x with
  | ok a => exact hf a rfl
  | error e => rfl

/-- Going on with what a first part has returned. -/
theorem Computes.after {m : Prog Ans ε α} {a : α} {f : α → Prog Ans ε β} {x : Except ε β}
    (hm : Computes h w m (.ok a)) (hf : Computes h w (f a) x) : Computes h w (m >>= f) x :=
  (eval_bind_ok hm).trans hf

theorem Computes.ofExcept {x : Except ε α} : Computes h w (Prog.ofExcept x) x :=
  eval_ofExcept x w

theorem Computes.forM {l : List β} {f : β → Prog Ans ε PUnit} {g : β → Except ε PUnit}
    (hf : ∀ b ∈ l, Computes h w (f b) (g b)) : Computes h w (l.forM f) (l.forM g) := by
  induction l with
  | nil => rfl
  | cons b rest ih =>
      refine (hf b List.mem_cons_self).bind fun _ _ => ?_
      exact ih fun b' hb' => hf b' (List.mem_cons_of_mem _ hb')

theorem Computes.mapM {l : List β} {f : β → Prog Ans ε α} {g : β → Except ε α}
    (hf : ∀ b ∈ l, Computes h w (f b) (g b)) : Computes h w (l.mapM f) (l.mapM g) := by
  induction l with
  | nil => rfl
  | cons b rest ih =>
      rw [List.mapM_cons, List.mapM_cons]
      refine (hf b List.mem_cons_self).bind fun _ _ => ?_
      exact (ih fun b' hb' => hf b' (List.mem_cons_of_mem _ hb')).bind fun _ _ => rfl

end Prog

end Effects
