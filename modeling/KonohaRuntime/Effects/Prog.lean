/-
Effects/Prog.lean

Programs with effects, as a free monad.  A program returns a value, raises an
exception, or performs an operation `o` and goes on from whatever answer of
type `Ans o` it is given.  Nothing is said here about what the operations do:
the meaning comes from a step relation

    step w o r w'

"performed in world `w`, operation `o` may answer `r` and leave `w'`".

Two judgements about programs follow.

* `Always P Q E m` looks at no world: whatever the answers, `m` performs only
  operations in `P`, its value satisfies `Q` and its exception `E`.  It is the
  judgement for code that only reads.
* `wp R Q E m w` is the weakest precondition of `m` under rules `R`, in which
  other threads may move the world by `R.rely` before every operation, every
  own step must respect `R.guar`, and `R.inv` is an invariant of all of them.

`Triple` packages `wp` with a precondition, and the rules below (sequencing,
`attempt`, consequence, quiet code) are the ones the proofs about concrete
programs go through; no such proof unfolds `wp` on a compound program.
-/
import Mathlib

namespace Effects

/-- Programs over operations `Op` answered in `Ans`, with exceptions `ε`. -/
inductive Prog {Op : Type} (Ans : Op → Type) (ε : Type) (α : Type) : Type
  | ret (a : α) : Prog Ans ε α
  | raise (e : ε) : Prog Ans ε α
  | op (o : Op) (k : Ans o → Prog Ans ε α) : Prog Ans ε α

variable {Op : Type} {Ans : Op → Type} {ε α β : Type}

namespace Prog

/-! ### The monad -/

/-- Sequencing: an exception skips the rest. -/
def bind : Prog Ans ε α → (α → Prog Ans ε β) → Prog Ans ε β
  | ret a, f => f a
  | raise e, _ => raise e
  | op o k, f => op o fun r => (k r).bind f

instance : Monad (Prog Ans ε) where
  pure := ret
  bind := bind

/-- Run `m` and return its exception, if any, as a value: every `try` of a
modelled program is a `match` on an `attempt`. -/
def attempt : Prog Ans ε α → Prog Ans ε (Except ε α)
  | ret a => ret (.ok a)
  | raise e => ret (.error e)
  | op o k => op o fun r => (k r).attempt

@[simp] theorem pure_eq_ret (a : α) : (pure a : Prog Ans ε α) = ret a := rfl

@[simp] theorem ret_bind (a : α) (f : α → Prog Ans ε β) : ret a >>= f = f a := rfl

@[simp] theorem raise_bind (e : ε) (f : α → Prog Ans ε β) :
    (raise e : Prog Ans ε α) >>= f = raise e := rfl

@[simp] theorem op_bind (o : Op) (k : Ans o → Prog Ans ε α) (f : α → Prog Ans ε β) :
    op o k >>= f = op o fun r => k r >>= f := rfl

@[simp] theorem attempt_ret (a : α) : (ret a : Prog Ans ε α).attempt = ret (.ok a) := rfl

@[simp] theorem attempt_raise (e : ε) :
    (raise e : Prog Ans ε α).attempt = ret (.error e) := rfl

@[simp] theorem attempt_op (o : Op) (k : Ans o → Prog Ans ε α) :
    (op o k).attempt = op o fun r => (k r).attempt := rfl

/-! ### What a program does whatever it is answered -/

/-- Whatever the answers, `m` performs only operations in `P`, and ends in a
value satisfying `Q` or an exception satisfying `E`. -/
def Always (P : Op → Prop) (Q : α → Prop) (E : ε → Prop) : Prog Ans ε α → Prop
  | ret a => Q a
  | raise e => E e
  | op o k => P o ∧ ∀ r, (k r).Always P Q E

section Always

variable {P : Op → Prop} {Q Q' : α → Prop} {E E' : ε → Prop} {m : Prog Ans ε α}

@[simp] theorem always_ret (a : α) : (ret a : Prog Ans ε α).Always P Q E ↔ Q a := Iff.rfl

@[simp] theorem always_raise (e : ε) : (raise e : Prog Ans ε α).Always P Q E ↔ E e :=
  Iff.rfl

@[simp] theorem always_op (o : Op) (k : Ans o → Prog Ans ε α) :
    (op o k).Always P Q E ↔ P o ∧ ∀ r, (k r).Always P Q E := Iff.rfl

theorem Always.mono (h : m.Always P Q E) (hQ : ∀ a, Q a → Q' a) (hE : ∀ e, E e → E' e) :
    m.Always P Q' E' := by
  induction m with
  | ret a => exact hQ a h
  | raise e => exact hE e h
  | op o k ih => exact ⟨h.1, fun r => ih r (h.2 r)⟩

theorem Always.bind {B : β → Prop} {f : α → Prog Ans ε β} (h : m.Always P Q E)
    (hf : ∀ a, Q a → (f a).Always P B E) : (m >>= f).Always P B E := by
  induction m with
  | ret a => exact hf a h
  | raise e => exact h
  | op o k ih => exact ⟨h.1, fun r => ih r (h.2 r)⟩

theorem Always.attempt {B : Except ε α → Prop} (h : m.Always P Q E)
    (hQ : ∀ a, Q a → B (.ok a)) (hE : ∀ e, E e → B (.error e)) :
    m.attempt.Always P B E' := by
  induction m with
  | ret a => exact hQ a h
  | raise e => exact hE e h
  | op o k ih => exact ⟨h.1, fun r => ih r (h.2 r)⟩

/-- Catching the failures of a program adds no operation. -/
theorem Always.caught (h : m.Always P Q E) :
    m.attempt.Always P (fun _ => True) fun _ : ε => True :=
  h.attempt (fun _ _ => trivial) fun _ _ => trivial

/-- More operations may be allowed. -/
theorem Always.weaken {P' : Op → Prop} (h : m.Always P Q E) (hP : ∀ o, P o → P' o) :
    m.Always P' Q E := by
  induction m with
  | ret a => exact h
  | raise e => exact h
  | op o k ih => exact ⟨hP o h.1, fun r => ih r (h.2 r)⟩

variable {D : α → Prop}

end Always

/-! ### Weakest preconditions under interference -/

/-- The rules a thread runs under: what an operation may answer and do to the
world, what the other threads may do to the world between two own operations,
what an own step may do, and the invariant of all steps. -/
structure Rules (W : Type) {Op : Type} (Ans : Op → Type) where
  step : W → (o : Op) → Ans o → W → Prop
  rely : W → W → Prop
  guar : W → W → Prop
  inv : W → Prop

/-- The rules of a program that runs alone. -/
def Rules.alone {W : Type} (step : W → (o : Op) → Ans o → W → Prop) : Rules W Ans where
  step := step
  rely := Eq
  guar := fun _ _ => True
  inv := fun _ => True

variable {W : Type}

/-- Weakest precondition of a program under `R`, for a value satisfying `Q` or
an exception satisfying `E`. -/
def wp (R : Rules W Ans) (Q : α → W → Prop) (E : ε → W → Prop) :
    Prog Ans ε α → W → Prop
  | ret a, w => Q a w
  | raise e, w => E e w
  | op o k, w => ∀ w₁, R.rely w w₁ → R.inv w₁ → ∀ r w₂, R.step w₁ o r w₂ →
      R.inv w₂ ∧ R.guar w₁ w₂ ∧ wp R Q E (k r) w₂

/-- `A` is not disturbed by the other threads. -/
def Stable (R : Rules W Ans) (A : W → Prop) : Prop :=
  ∀ w w', A w → R.rely w w' → A w'

/-- From a world satisfying `A`, program `m` ends in `Q` or raises in `E`. -/
def Triple (R : Rules W Ans) (A : W → Prop) (m : Prog Ans ε α) (Q : α → W → Prop)
    (E : ε → W → Prop) : Prop :=
  ∀ w, A w → wp R Q E m w

section Rules

variable {R : Rules W Ans} {A A' : W → Prop} {Q Q' : α → W → Prop} {E E' : ε → W → Prop}
variable {m : Prog Ans ε α}

theorem wp_mono {w : W} (h : wp R Q E m w) (hQ : ∀ a w, Q a w → Q' a w)
    (hE : ∀ e w, E e w → E' e w) : wp R Q' E' m w := by
  induction m generalizing w with
  | ret a => exact hQ a w h
  | raise e => exact hE e w h
  | op o k ih =>
      intro w₁ hr hi r w₂ hs
      obtain ⟨hi₂, hg, hk⟩ := h w₁ hr hi r w₂ hs
      exact ⟨hi₂, hg, ih r hk⟩

theorem Triple.ret {a : α} (h : ∀ w, A w → Q a w) :
    Triple R A (Prog.ret a : Prog Ans ε α) Q E := h

theorem Triple.raise {e : ε} (h : ∀ w, A w → E e w) :
    Triple R A (Prog.raise e : Prog Ans ε α) Q E := h

theorem Triple.conseq {B : α → W → Prop} (h : Triple R A m Q E) (hA : ∀ w, A' w → A w)
    (hQ : ∀ a w, Q a w → B a w) (hE : ∀ e w, E e w → E' e w) :
    Triple R A' m B E' :=
  fun w hw => wp_mono (h w (hA w hw)) hQ hE

theorem Triple.bind {B : β → W → Prop} {f : α → Prog Ans ε β} (h : Triple R A m Q E)
    (hf : ∀ a, Triple R (Q a) (f a) B E) : Triple R A (m >>= f) B E := by
  intro w hw
  have hm := h w hw
  clear h hw
  induction m generalizing w with
  | ret a => exact hf a w hm
  | raise e => exact hm
  | op o k ih =>
      intro w₁ hr hi r w₂ hs
      obtain ⟨hi₂, hg, hk⟩ := hm w₁ hr hi r w₂ hs
      exact ⟨hi₂, hg, ih r w₂ hk⟩

theorem Triple.attempt {B : Except ε α → W → Prop} {D : ε → W → Prop} (h : Triple R A m Q E)
    (hQ : ∀ a w, Q a w → B (.ok a) w) (hE : ∀ e w, E e w → B (.error e) w) :
    Triple R A m.attempt B D := by
  intro w hw
  have hm := h w hw
  clear h hw
  induction m generalizing w with
  | ret a => exact hQ a w hm
  | raise e => exact hE e w hm
  | op o k ih =>
      intro w₁ hr hi r w₂ hs
      obtain ⟨hi₂, hg, hk⟩ := hm w₁ hr hi r w₂ hs
      exact ⟨hi₂, hg, ih r w₂ hk⟩

/-- One operation from a stable assertion: each possible answer carries the
assertion `B r` to the continuation. -/
theorem Triple.op {o : Op} {k : Ans o → Prog Ans ε α} {B : Ans o → W → Prop}
    (hA : Stable R A)
    (hs : ∀ w r w', A w → R.inv w → R.step w o r w' → R.inv w' ∧ R.guar w w' ∧ B r w')
    (hk : ∀ r, Triple R (B r) (k r) Q E) : Triple R A (Prog.op o k) Q E := by
  intro w hw w₁ hr hi r w₂ hst
  obtain ⟨hi₂, hg, hB⟩ := hs w₁ r w₂ (hA w w₁ hw hr) hi hst
  exact ⟨hi₂, hg, hk r w₂ hB⟩

/-- An operation is quiet under `R` when it leaves the world as it is. -/
def Quiet (R : Rules W Ans) (o : Op) : Prop :=
  ∀ w r w', R.step w o r w' → w' = w

/-- Code that performs only quiet operations keeps every stable assertion, and
ends as it does whatever it is answered. -/
theorem Always.triple {P : Op → Prop} {Qv : α → Prop} {Ev : ε → Prop}
    (h : m.Always P Qv Ev) (hP : ∀ o, P o → Quiet R o) (hg : ∀ w, R.guar w w)
    (hA : Stable R A) :
    Triple R A m (fun a w => Qv a ∧ A w) (fun e w => Ev e ∧ A w) := by
  induction m with
  | ret a => exact fun w hw => ⟨h, hw⟩
  | raise e => exact fun w hw => ⟨h, hw⟩
  | op o k ih =>
      have hstep : ∀ w r w', A w → R.inv w → R.step w o r w' →
          R.inv w' ∧ R.guar w w' ∧ A w' := by
        intro w r w' hw hi hst
        obtain rfl := hP o h.1 w r w' hst
        exact ⟨hi, hg _, hw⟩
      exact Triple.op hA hstep fun r => ih r (h.2 r)

/-- A fact that holds of no world may be assumed when it fails. -/
theorem Triple.of_pure {p : Prop} (h : p → Triple R A m Q E) :
    Triple R (fun w => p ∧ A w) m Q E :=
  fun w hw => h hw.1 w hw.2

/-- An assertion about some `x` may be used for each `x`. -/
theorem Triple.of_exists {ι : Sort*} {B : ι → W → Prop} (h : ∀ x, Triple R (B x) m Q E) :
    Triple R (fun w => ∃ x, B x w) m Q E := by
  rintro w ⟨x, hx⟩
  exact h x w hx

end Rules

/-! ### Running alone to the end -/

/-- `m`, run alone from `w`, may end with outcome `out` in `w'`. -/
inductive Exec (step : W → (o : Op) → Ans o → W → Prop) :
    Prog Ans ε α → W → Except ε α → W → Prop
  | ret (a : α) (w : W) : Exec step (ret a) w (.ok a) w
  | raise (e : ε) (w : W) : Exec step (raise e) w (.error e) w
  | op {o : Op} {k : Ans o → Prog Ans ε α} {w w₁ w₂ : W} {r : Ans o} {out : Except ε α}
      (hs : step w o r w₁) (hk : Exec step (k r) w₁ out w₂) : Exec step (op o k) w out w₂

/-- A pair of postconditions as one predicate on outcomes. -/
def Ends (Q : α → W → Prop) (E : ε → W → Prop) : Except ε α → W → Prop
  | .ok a, w => Q a w
  | .error e, w => E e w

/-- The weakest precondition under the rules of a lone program bounds its
executions. -/
theorem Exec.sound {step : W → (o : Op) → Ans o → W → Prop} {m : Prog Ans ε α}
    {w w' : W} {out : Except ε α} {Q : α → W → Prop} {E : ε → W → Prop}
    (h : Exec step m w out w') (hw : wp (Rules.alone step) Q E m w) : Ends Q E out w' := by
  induction h with
  | ret a w => exact hw
  | raise e w => exact hw
  | op hs hk ih => exact ih (hw _ rfl trivial _ _ hs).2.2

/-- Running `m` against an environment that answers by a function. -/
def eval (h : W → (o : Op) → Ans o × W) : Prog Ans ε α → W → Except ε α × W
  | ret a, w => (.ok a, w)
  | raise e, w => (.error e, w)
  | op o k, w => eval h (k (h w o).1) (h w o).2

end Prog

end Effects
