/-
Effects/Fallible.lean

Programs whose operations may fail: an answer is a value or an exception.
`ask` performs an operation and raises what it raises; the rules for it and for
catching are what proofs about such programs go through.
-/
import KonohaRuntime.Effects.Prog

namespace Effects

namespace Prog

variable {Op : Type} {V : Op → Type} {ε α : Type} {W : Type}

/-- Perform an operation; an exception it raises is raised here. -/
def ask (o : Op) : Prog (fun o => Except ε (V o)) ε (V o) :=
  .op o fun
    | .ok v => .ret v
    | .error e => .raise e

/-- A pure computation that may raise. -/
def ofExcept {Ans : Op → Type} : Except ε α → Prog Ans ε α
  | .ok a => .ret a
  | .error e => .raise e

section Rules

variable {R : Rules W fun o => Except ε (V o)} {A : W → Prop}

/-- One operation: every answer it may give leads to the assertion for it. -/
theorem triple_ask {o : Op} {B : V o → W → Prop} {E : ε → W → Prop} (hA : Stable R A)
    (hs : ∀ w r w', A w → R.inv w → R.step w o r w' →
      R.inv w' ∧ R.guar w w' ∧ (∀ v, r = .ok v → B v w') ∧ ∀ e, r = .error e → E e w') :
    Triple R A (ask o) B E := by
  refine Triple.op (B := fun r w => (∀ v, r = .ok v → B v w) ∧ ∀ e, r = .error e → E e w) hA hs ?_
  intro r
  cases r with
  | ok v => exact Triple.ret fun w hw => hw.1 v rfl
  | error e => exact Triple.raise fun w hw => hw.2 e rfl

/-- A computation that raises leaves the world to the exception. -/
theorem triple_ofExcept {x : Except ε α} :
    Triple R A (ofExcept x) (fun a w => x = .ok a ∧ A w) (fun e w => x = .error e ∧ A w) := by
  cases x with
  | ok a => exact Triple.ret fun w hw => ⟨rfl, hw⟩
  | error e => exact Triple.raise fun w hw => ⟨rfl, hw⟩

/-- Catching every exception. -/
theorem Triple.caught {m : Prog (fun o => Except ε (V o)) ε α} {B : α → W → Prop}
    {E D : ε → W → Prop} (h : Triple R A m B E) :
    Triple R A m.attempt
      (fun r w => (∀ a, r = .ok a → B a w) ∧ ∀ e, r = .error e → E e w) D := by
  refine h.attempt ?_ ?_
  · intro a w hb
    exact ⟨by rintro _ ⟨⟩; exact hb, by rintro _ ⟨⟩⟩
  · intro e w he
    exact ⟨by rintro _ ⟨⟩, by rintro _ ⟨⟩; exact he⟩

end Rules

end Prog

end Effects
