/-
Effects/Verdict.lean

Checks that come one after the other.  Each one passes a value on, refuses with a complaint,
or raises; the first that does not pass ends them all.

`passed_bind_iff` and `raised_bind_iff` say of a chain of checks when it passes and when it
raises, check by check, and `Refuses.bind` what its complaints are.
-/
import Mathlib

namespace Effects

/-- The end of a check: a value, a complaint `p`, or an exception. -/
inductive Verdict (ε π α : Type) where
  | passed (a : α)
  | refused (p : π)
  | raised (e : ε)

namespace Verdict

variable {ε π α β : Type}

instance : Monad (Verdict ε π) where
  pure := passed
  bind
    | passed a, f => f a
    | refused p, _ => refused p
    | raised e, _ => raised e

/-- A condition, or the complaint that it does not hold. -/
def demand (b : Bool) (p : π) : Verdict ε π Unit := if b then passed () else refused p

/-- A value that may be missing. -/
def demandSome (a : Option α) (p : π) : Verdict ε π α :=
  match a with
  | some a => passed a
  | none => refused p

/-- A condition, or a complaint the text of which may raise. -/
def demandTold (b : Bool) (p : Except ε π) : Verdict ε π Unit :=
  if b then passed ()
  else
    match p with
    | .ok p => refused p
    | .error e => raised e

/-- A condition the test of which may raise, as the text of the complaint may. -/
def demandOk (b : Except ε Bool) (p : Except ε π) : Verdict ε π Unit :=
  match b with
  | .ok b => demandTold b p
  | .error e => raised e

@[simp] theorem passed_pure_iff {a b : α} : (pure a : Verdict ε π α) = passed b ↔ a = b :=
  ⟨fun h => passed.inj h, fun h => congrArg passed h⟩

@[simp] theorem raised_pure_iff {a : α} {e : ε} : (pure a : Verdict ε π α) = raised e ↔ False := by
  constructor
  · intro h
    cases h
  · exact False.elim

@[simp] theorem passed_bind_iff {m : Verdict ε π α} {f : α → Verdict ε π β} {b : β} :
    m >>= f = passed b ↔ ∃ a, m = passed a ∧ f a = passed b := by
  constructor
  · intro h
    cases m with
    | passed a => exact ⟨a, rfl, h⟩
    | refused p => cases h
    | raised e => cases h
  · rintro ⟨a, rfl, h⟩
    exact h

@[simp] theorem raised_bind_iff {m : Verdict ε π α} {f : α → Verdict ε π β} {e : ε} :
    m >>= f = raised e ↔ m = raised e ∨ ∃ a, m = passed a ∧ f a = raised e := by
  constructor
  · intro h
    cases m with
    | passed a => exact .inr ⟨a, rfl, h⟩
    | refused p => cases h
    | raised e =>
        cases h
        exact .inl rfl
  · rintro (rfl | ⟨a, rfl, h⟩)
    · rfl
    · exact h

@[simp] theorem passed_demand_iff {b : Bool} {p : π} {u : Unit} :
    (demand b p : Verdict ε π Unit) = passed u ↔ b = true := by
  cases b <;> simp [demand]

@[simp] theorem raised_demand_iff {b : Bool} {p : π} {e : ε} :
    (demand b p : Verdict ε π Unit) = raised e ↔ False := by
  cases b <;> simp [demand]

@[simp] theorem passed_demandSome_iff {a : Option α} {p : π} {b : α} :
    (demandSome a p : Verdict ε π α) = passed b ↔ a = some b := by
  cases a <;> simp [demandSome]

@[simp] theorem raised_demandSome_iff {a : Option α} {p : π} {e : ε} :
    (demandSome a p : Verdict ε π α) = raised e ↔ False := by
  cases a <;> simp [demandSome]

@[simp] theorem passed_demandTold_iff {b : Bool} {p : Except ε π} {u : Unit} :
    demandTold b p = passed u ↔ b = true := by
  cases b <;> cases p <;> simp [demandTold]

@[simp] theorem raised_demandTold_iff {b : Bool} {p : Except ε π} {e : ε} :
    demandTold b p = raised e ↔ b = false ∧ p = .error e := by
  cases b <;> cases p <;> simp [demandTold]

@[simp] theorem passed_demandOk_iff {b : Except ε Bool} {p : Except ε π} {u : Unit} :
    demandOk b p = passed u ↔ b = .ok true := by
  cases b <;> simp [demandOk]

@[simp] theorem raised_demandOk_iff {b : Except ε Bool} {p : Except ε π} {e : ε} :
    demandOk b p = raised e ↔ b = .error e ∨ b = .ok false ∧ p = .error e := by
  cases b <;> simp [demandOk]

/-! ### What the complaints say -/

/-- Whatever the complaint is, it is one of these. -/
def Refuses (P : π → Prop) (m : Verdict ε π α) : Prop := ∀ p, m = refused p → P p

variable {P : π → Prop}

theorem Refuses.bind {m : Verdict ε π α} {f : α → Verdict ε π β} (hm : Refuses P m)
    (hf : ∀ a, m = passed a → Refuses P (f a)) : Refuses P (m >>= f) := by
  intro p hp
  cases m with
  | passed a => exact hf a rfl p hp
  | refused q =>
      cases hp
      exact hm p rfl
  | raised e => cases hp

theorem Refuses.of_pure (a : α) : Refuses P (pure a : Verdict ε π α) := by
  intro p hp
  cases hp

theorem refuses_demand {b : Bool} {p : π} (h : P p) : Refuses P (demand b p : Verdict ε π Unit) := by
  intro q hq
  cases b <;> cases hq
  exact h

theorem refuses_demandSome {a : Option α} {p : π} (h : P p) :
    Refuses P (demandSome a p : Verdict ε π α) := by
  intro q hq
  cases a <;> cases hq
  exact h

theorem refuses_demandTold {b : Bool} {p : Except ε π} (h : ∀ q, p = .ok q → P q) :
    Refuses P (demandTold b p) := by
  intro q hq
  cases b <;> cases p <;> cases hq
  exact h _ rfl

theorem refuses_demandOk {b : Except ε Bool} {p : Except ε π} (h : ∀ q, p = .ok q → P q) :
    Refuses P (demandOk b p) := by
  cases b with
  | ok b => exact refuses_demandTold h
  | error e =>
      intro q hq
      cases hq

end Verdict

end Effects
