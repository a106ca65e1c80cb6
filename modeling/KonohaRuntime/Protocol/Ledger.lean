/-
Protocol/Ledger.lean

What the resumable runtime is for, apart from files, plans and processes: a
ledger that walks through positions `0, 1, 2, …` and runs each at most once,
asking for leave before some of them, and that never goes on from where it
stopped.

`Ledger.Step` is the whole of it.  The main results are about any number of
steps: once a position has begun it is spent for good (`Spent.steps`), no step
begins a spent position (`Step.not_spent`), and so the positions that a trace
begins are distinct (`Trace.begun_nodup`).
-/
import Mathlib

namespace Konoha

/-- Where a ledger stands at its cursor; `ν` are the tokens it asks with. -/
inductive Phase (ν : Type)
  | ready
  | asking (n : ν)
  | running
  | halted
  deriving DecidableEq

structure Ledger (ν : Type) where
  cursor : Nat
  phase : Phase ν
  deriving DecidableEq

namespace Ledger

variable {ν : Type}

/-- The steps of a ledger: ask for leave, begin, pass to the next position
(ready for it, or halted because it was the last), halt. -/
inductive Step : Ledger ν → Ledger ν → Prop
  | ask (i : Nat) (n : ν) : Step ⟨i, .ready⟩ ⟨i, .asking n⟩
  | begin (i : Nat) : Step ⟨i, .ready⟩ ⟨i, .running⟩
  | beginAsked (i : Nat) (n : ν) : Step ⟨i, .asking n⟩ ⟨i, .running⟩
  | pass (i : Nat) (p : Phase ν) (hp : p = .ready ∨ p = .halted) :
      Step ⟨i, .running⟩ ⟨i + 1, p⟩
  | halt (i : Nat) (p : Phase ν) : Step ⟨i, p⟩ ⟨i, .halted⟩

/-- Position `i` has begun: the cursor is beyond it, or stopped or runs at it. -/
def Spent (i : Nat) (l : Ledger ν) : Prop :=
  i < l.cursor ∨ (i = l.cursor ∧ (l.phase = .running ∨ l.phase = .halted))

/-- A spent position stays spent. -/
theorem Spent.step {i : Nat} {l l' : Ledger ν} (hs : Spent i l) (h : Step l l') :
    Spent i l' := by
  cases h with
  | ask j n => simpa [Spent] using hs
  | begin j => exact hs.imp_right fun ⟨hi, _⟩ => ⟨hi, .inl rfl⟩
  | beginAsked j n => exact hs.imp_right fun ⟨hi, _⟩ => ⟨hi, .inl rfl⟩
  | pass j p hp =>
      refine .inl ?_
      rcases hs with hs | ⟨rfl, -⟩
      · exact Nat.lt_succ_of_lt hs
      · exact Nat.lt_succ_self _
  | halt j p => exact hs.imp_right fun ⟨hi, _⟩ => ⟨hi, .inr rfl⟩

/-- A spent position stays spent through any number of steps. -/
theorem Spent.steps {i : Nat} {l l' : Ledger ν} (hs : Spent i l)
    (h : Relation.ReflTransGen Step l l') : Spent i l' := by
  induction h with
  | refl => exact hs
  | tail _ hstep ih => exact ih.step hstep

/-- The position a ledger runs at is spent. -/
theorem spent_of_running {l : Ledger ν} (h : l.phase = .running) : Spent l.cursor l :=
  .inr ⟨rfl, .inl h⟩

/-- No step begins a position that is spent. -/
theorem Step.not_spent {l l' : Ledger ν} (h : Step l l') (hrun : l'.phase = .running) :
    ¬ Spent l'.cursor l := by
  cases h with
  | ask j n => cases hrun
  | begin j => simp [Spent]
  | beginAsked j n => simp [Spent]
  | pass j p hp =>
      obtain rfl : p = .running := hrun
      simp at hp
  | halt j p => cases hrun

/-! ### Traces -/

/-- A sequence of ledgers, newest first, each one step after the next. -/
def Trace (ls : List (Ledger ν)) : Prop := ls.IsChain fun new old => Step old new

/-- Where the ledgers of a sequence run. -/
def begun (ls : List (Ledger ν)) : List Nat :=
  (ls.filter fun l => decide (l.phase matches .running)).map (·.cursor)

theorem mem_begun {i : Nat} {ls : List (Ledger ν)} :
    i ∈ begun ls ↔ ∃ l ∈ ls, l.phase = .running ∧ l.cursor = i := by
  simp only [begun, List.mem_map, List.mem_filter, decide_eq_true_eq, and_assoc]
  refine exists_congr fun l => and_congr_right fun _ => and_congr_left fun _ => ?_
  cases l.phase <;> simp

/-- What has begun anywhere in a trace is spent at its newest ledger. -/
theorem Trace.spent {l : Ledger ν} {ls : List (Ledger ν)} (h : Trace (l :: ls)) {i : Nat}
    (hi : i ∈ begun (l :: ls)) : Spent i l := by
  obtain ⟨b, hb, hrun, rfl⟩ := mem_begun.mp hi
  rcases List.mem_cons.mp hb with rfl | hb
  · exact spent_of_running hrun
  · have hsteps : (l :: ls).Pairwise fun new old => Relation.ReflTransGen Step old new := by
      have htrans : IsTrans (Ledger ν) fun new old => Relation.ReflTransGen Step old new :=
        ⟨fun _ _ _ hab hbc => hbc.trans hab⟩
      exact List.isChain_iff_pairwise.mp (h.imp fun _ _ hs => Relation.ReflTransGen.single hs)
    exact (spent_of_running hrun).steps ((List.pairwise_cons.mp hsteps).1 b hb)

/-- **Each position begins at most once in a trace.** -/
theorem Trace.begun_nodup {ls : List (Ledger ν)} (h : Trace ls) : (begun ls).Nodup := by
  induction ls with
  | nil => exact List.nodup_nil
  | cons l ls ih =>
      have hnodup := ih h.tail
      by_cases hrun : l.phase = .running
      · have hcons : begun (l :: ls) = l.cursor :: begun ls := by simp [begun, hrun]
        rw [hcons, List.nodup_cons]
        refine ⟨fun hmem => ?_, hnodup⟩
        cases ls with
        | nil => simp [begun] at hmem
        | cons p ls =>
            have htail : Trace (p :: ls) := h.tail
            exact (List.isChain_cons_cons.mp h).1.not_spent hrun (htail.spent hmem)
      · have hskip : begun (l :: ls) = begun ls := by
          cases hp : l.phase <;> simp_all [begun]
        rwa [hskip]

end Ledger

end Konoha
