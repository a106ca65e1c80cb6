/-
Effects/Lone.lean

One program that runs by itself, with its history: the operations that it has performed,
each with the world that it met.  The surroundings may move the world between two
operations, and the program may be stopped anywhere, so a run is any sequence of steps.

A property of performed operations that every operation of a proof meets (`Audited`) holds
of the whole history of every run, and the postcondition of every run that ends
(`Audited.sound`).
-/
import KonohaRuntime.Effects.Fallible

namespace Effects

open Prog

variable {W Op : Type} {Ans : Op → Type} {ε α β : Type}

/-- A world with the operations that have been performed, each with the world it met. -/
structure Logged (W Op : Type) where
  world : W
  log : List (W × Op)

namespace Logged

/-- Nothing has been performed. -/
def init (w : W) : Logged W Op := ⟨w, []⟩

/-- Operation `o` has been performed, and has left `w`. -/
def performed (l : Logged W Op) (o : Op) (w : W) : Logged W Op := ⟨w, l.log ++ [(l.world, o)]⟩

/-- The surroundings have left `w`. -/
def moved (l : Logged W Op) (w : W) : Logged W Op := ⟨w, l.log⟩

theorem mem_log_performed {l : Logged W Op} {o : Op} {w : W} {e : W × Op} :
    e ∈ (l.performed o w).log ↔ e ∈ l.log ∨ e = (l.world, o) := by
  simp [performed]

end Logged

/-- What the operations do, and what the surroundings do, given the history. -/
structure Scene (W : Type) {Op : Type} (Ans : Op → Type) where
  step : Logged W Op → (o : Op) → Ans o → W → Prop
  env : Logged W Op → W → Prop

namespace Scene

variable (S : Scene W Ans)

/-- One step of a run. -/
inductive Step : Prog Ans ε α × Logged W Op → Prog Ans ε α × Logged W Op → Prop
  | perform {o : Op} {k : Ans o → Prog Ans ε α} {r : Ans o} {l : Logged W Op} {w : W}
      (hs : S.step l o r w) : Step (.op o k, l) (k r, l.performed o w)
  | env {m : Prog Ans ε α} {l : Logged W Op} {w : W} (he : S.env l w) : Step (m, l) (m, l.moved w)

/-- The runs of a program, up to any point. -/
abbrev Runs (m : Prog Ans ε α) (l : Logged W Op) (m' : Prog Ans ε α) (l' : Logged W Op) : Prop :=
  Relation.ReflTransGen S.Step (m, l) (m', l')

/-- What the surroundings do before the next operation. -/
def Moves : Logged W Op → Logged W Op → Prop :=
  Relation.ReflTransGen fun l l' => ∃ w, S.env l w ∧ l' = l.moved w

/-- The rules of a program whose operations all have to satisfy `P`. -/
def audit (P : W → Op → Prop) : Rules (Logged W Op) Ans where
  step := fun l o r l' => ∃ w, S.step l o r w ∧ l' = l.performed o w
  rely := S.Moves
  guar := fun _ _ => True
  inv := fun l => ∀ e ∈ l.log, P e.1 e.2

/-- From `A`, the operations that `m` performs satisfy `P`, and it ends in `Q` or raises
in `E`. -/
def Audited (P : W → Op → Prop) (A : Logged W Op → Prop) (m : Prog Ans ε α)
    (Q : α → Logged W Op → Prop) (E : ε → Logged W Op → Prop) : Prop :=
  Triple (S.audit P) A m Q E

variable {S} {P : W → Op → Prop} {A A' : Logged W Op → Prop}

/-- The surroundings leave `A`. -/
def Undisturbed (S : Scene W Ans) (A : Logged W Op → Prop) : Prop :=
  ∀ l w, A l → S.env l w → A (l.moved w)

theorem Undisturbed.stable (h : Undisturbed S A) : Stable (S.audit P) A := by
  intro l l' hl hm
  induction hm with
  | refl => exact hl
  | tail _ hs ih =>
      obtain ⟨w, he, rfl⟩ := hs
      exact h _ w ih he

namespace Audited

variable {Q Q' : α → Logged W Op → Prop} {E E' : ε → Logged W Op → Prop} {m : Prog Ans ε α}

theorem ret {a : α} (h : ∀ l, A l → Q a l) : S.Audited P A (Prog.ret a : Prog Ans ε α) Q E :=
  Triple.ret h

theorem raise {e : ε} (h : ∀ l, A l → E e l) : S.Audited P A (Prog.raise e : Prog Ans ε α) Q E :=
  Triple.raise h

theorem bind {B : β → Logged W Op → Prop} {f : α → Prog Ans ε β} (h : S.Audited P A m Q E)
    (hf : ∀ a, S.Audited P (Q a) (f a) B E) : S.Audited P A (m >>= f) B E :=
  Triple.bind h hf

theorem conseq (h : S.Audited P A m Q E) (hA : ∀ l, A' l → A l) (hQ : ∀ a l, Q a l → Q' a l)
    (hE : ∀ e l, E e l → E' e l) : S.Audited P A' m Q' E' :=
  Triple.conseq h hA hQ hE

/-- A fact that the assertion contains may be assumed. -/
theorem of_pure {p : Prop} (h : p → S.Audited P A m Q E) :
    S.Audited P (fun l => p ∧ A l) m Q E :=
  Triple.of_pure h

theorem attempt {B : Except ε α → Logged W Op → Prop} (h : S.Audited P A m Q E)
    (hQ : ∀ a l, Q a l → B (.ok a) l) (hE : ∀ e l, E e l → B (.error e) l) :
    S.Audited P A m.attempt B E' :=
  Triple.attempt h hQ hE

/-- **Soundness**: in a run, up to any point, every operation satisfies `P`; and where the
program has returned, `Q` holds if the surroundings leave it. -/
theorem sound (h : S.Audited P A m Q E) {l l' : Logged W Op} {m' : Prog Ans ε α}
    (hA : A l) (hlog : ∀ e ∈ l.log, P e.1 e.2) (hrun : S.Runs m l m' l') :
    (∀ e ∈ l'.log, P e.1 e.2) ∧
      ∀ a, m' = .ret a → Undisturbed S (Q a) → Q a l' := by
  have key : ∀ c c' : Prog Ans ε α × Logged W Op, Relation.ReflTransGen S.Step c c' →
      ((∀ e ∈ c.2.log, P e.1 e.2) ∧ ∃ l₁, S.Moves l₁ c.2 ∧ wp (S.audit P) Q E c.1 l₁) →
      (∀ e ∈ c'.2.log, P e.1 e.2) ∧ ∃ l₁, S.Moves l₁ c'.2 ∧ wp (S.audit P) Q E c'.1 l₁ := by
    intro c c' hr hc
    induction hr with
    | refl => exact hc
    | tail _ hs ih =>
        obtain ⟨hi, l₁, hmoves, hwp⟩ := ih
        cases hs with
        | @perform o k r l w hs =>
            obtain ⟨hi', -, hk⟩ := hwp l hmoves hi r _ ⟨w, hs, rfl⟩
            exact ⟨hi', _, .refl, hk⟩
        | @env m l w he => exact ⟨hi, l₁, hmoves.tail ⟨w, he, rfl⟩, hwp⟩
  obtain ⟨hi, l₁, hmoves, hwp⟩ := key _ _ hrun ⟨hlog, l, .refl, h l hA⟩
  refine ⟨hi, ?_⟩
  rintro a rfl hQ
  exact hQ.stable (P := P) l₁ l' hwp hmoves

/-- Operations that satisfy `P` and keep the assertion, whatever they are answered. -/
theorem of_always {O : Op → Prop} {B : α → Prop} {D : ε → Prop} (h : m.Always O B D)
    (hA : Undisturbed S A) (hP : ∀ o, O o → ∀ l, A l → P l.world o)
    (hk : ∀ o, O o → ∀ l r w, A l → S.step l o r w → A (l.performed o w)) :
    S.Audited P A m (fun a l => B a ∧ A l) fun e l => D e ∧ A l := by
  induction m with
  | ret a => exact ret fun l hl => ⟨h, hl⟩
  | raise e => exact raise fun l hl => ⟨h, hl⟩
  | op o k ih =>
      refine Triple.op (B := fun _ => A) hA.stable ?_ fun r => ih r (h.2 r)
      rintro l r l' hl hi ⟨w, hs, rfl⟩
      refine ⟨fun e he => ?_, trivial, hk o h.1 l r w hl hs⟩
      rcases Logged.mem_log_performed.mp he with he | rfl
      · exact hi e he
      · exact hP o h.1 l hl

end Audited

/-! ### Operations that may fail -/

section Ask

variable {V : Op → Type} {S : Scene W fun o => Except ε (V o)} {P : W → Op → Prop}
variable {A : Logged W Op → Prop} {E : ε → Logged W Op → Prop}

/-- One operation, which satisfies `P` wherever the assertion holds. -/
theorem Audited.ask {o : Op} {B : V o → Logged W Op → Prop} (hA : Undisturbed S A)
    (hP : ∀ l, A l → P l.world o)
    (hs : ∀ l v w, A l → S.step l o (.ok v) w → B v (l.performed o w))
    (hE : ∀ l e w, A l → S.step l o (.error e) w → E e (l.performed o w)) :
    S.Audited P A (Prog.ask o) B E := by
  refine triple_ask hA.stable fun l r l' hl hi hstep => ?_
  obtain ⟨w, hs', rfl⟩ := hstep
  refine ⟨?_, trivial, ?_, ?_⟩
  · intro e he
    rcases Logged.mem_log_performed.mp he with he | rfl
    · exact hi e he
    · exact hP l hl
  · rintro v rfl
    exact hs l v w hl hs'
  · rintro e rfl
    exact hE l e w hl hs'

theorem Audited.ofExcept {x : Except ε α} :
    S.Audited P A (Prog.ofExcept x) (fun a l => x = .ok a ∧ A l) fun e l => x = .error e ∧ A l :=
  triple_ofExcept

end Ask

/-! ### Runs given by answers -/

/-- The first `n` operations of a program, when they are answered by a function. -/
def play (answer : Logged W Op → (o : Op) → Ans o × W) :
    Nat → Prog Ans ε α × Logged W Op → Prog Ans ε α × Logged W Op
  | 0, c => c
  | n + 1, (.op o k, l) => play answer n (k (answer l o).1, l.performed o (answer l o).2)
  | _ + 1, c => c

/-- What is played is a run. -/
theorem runs_play {S : Scene W Ans} {answer : Logged W Op → (o : Op) → Ans o × W}
    (ha : ∀ l o, S.step l o (answer l o).1 (answer l o).2) (n : Nat)
    (c : Prog Ans ε α × Logged W Op) : Relation.ReflTransGen S.Step c (play answer n c) := by
  induction n generalizing c with
  | zero => exact .refl
  | succ n ih =>
      obtain ⟨m, l⟩ := c
      cases m with
      | op o k => exact .head (.perform (ha l o)) (ih _)
      | ret a => exact .refl
      | raise e => exact .refl

end Scene

end Effects
