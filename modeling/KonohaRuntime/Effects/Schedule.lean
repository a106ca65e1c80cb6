/-
Effects/Schedule.lean

Runs given by a schedule.  When operations are answered by a function, the order
in which the threads take their turns determines the run, and `System.play`
computes the configuration it ends in.  `reaches_play` says that it is reached,
so a race is exhibited by naming its schedule and evaluating.
-/
import KonohaRuntime.Effects.Interleave

namespace Effects

open Prog

variable {W Arg : Type} {Op : Type} {Ans : Op → Type} {ε α : Type}

/-- A turn of a schedule: a call starts, a thread performs its next operation,
or a thread dies. -/
inductive Turn (Arg : Type) : Type
  | spawn (x : Arg)
  | run (t : Tid)
  | die (t : Tid)

/-- The call of thread `t` has returned. -/
def Conf.Returned (c : Conf W Ans ε α) (t : Tid) : Bool :=
  match c.thread t with
  | some (.ret _) => true
  | _ => false

/-- What a program does against answers that the operations allow, it may do. -/
theorem Prog.exec_eval {step : W → (o : Op) → Ans o → W → Prop} {answer : W → (o : Op) → Ans o × W}
    (ha : ∀ w o, step w o (answer w o).1 (answer w o).2) (m : Prog Ans ε α) (w : W) :
    Exec step m w (m.eval answer w).1 (m.eval answer w).2 := by
  induction m generalizing w with
  | ret a => exact .ret a w
  | raise e => exact .raise e w
  | op o k ih => exact .op (ha w o) (ih _ _)

namespace System

variable (S : System W Arg Ans ε α) (answer : Tid → W → (o : Op) → Ans o × W)

/-- One turn; a thread that has nothing to perform lets its turn pass. -/
def turn (c : Conf W Ans ε α) : Turn Arg → Conf W Ans ε α
  | .spawn x =>
      { c with
        thread := Function.update c.thread c.next (some (S.call c.next x))
        next := c.next + 1 }
  | .run t =>
      match c.thread t with
      | some (.op o k) =>
          { c with
            world := (answer t c.world o).2
            thread := Function.update c.thread t (some (k (answer t c.world o).1)) }
      | _ => c
  | .die t =>
      match c.thread t with
      | some _ => { c with thread := Function.update c.thread t none }
      | none => c

/-- The turns of a schedule, one after the other. -/
def play (turns : List (Turn Arg)) (c : Conf W Ans ε α) : Conf W Ans ε α :=
  turns.foldl (S.turn answer) c

variable {S answer}

/-- A turn is a step of the system, or none. -/
theorem reaches_turn (ha : ∀ t w o, S.step t w o (answer t w o).1 (answer t w o).2)
    {u : Turn Arg} (hd : ∀ t w, u = .die t → S.die t w w) (c : Conf W Ans ε α) :
    Relation.ReflTransGen S.Step c (S.turn answer c u) := by
  cases u with
  | spawn x => exact .single (.spawn c x)
  | run t =>
      rcases e : c.thread t with - | m
      · simp only [turn, e]
        exact .refl
      · cases m with
        | op o k =>
            simp only [turn, e]
            exact .single (.perform c e (ha t c.world o))
        | ret a =>
            simp only [turn, e]
            exact .refl
        | raise x =>
            simp only [turn, e]
            exact .refl
  | die t =>
      rcases e : c.thread t with - | m
      · simp only [turn, e]
        exact .refl
      · simp only [turn, e]
        exact .single (.die c (by simp [Conf.Live, e]) (hd t c.world rfl))

/-- **Schedules are runs**, when a death in them may leave the world as it is. -/
theorem reaches_play (ha : ∀ t w o, S.step t w o (answer t w o).1 (answer t w o).2)
    (turns : List (Turn Arg)) (hd : ∀ t w, .die t ∈ turns → S.die t w w) (c : Conf W Ans ε α) :
    Relation.ReflTransGen S.Step c (S.play answer turns c) := by
  induction turns generalizing c with
  | nil => exact .refl
  | cons u turns ih =>
      have hu : ∀ t w, u = .die t → S.die t w w := fun t w h => hd t w (h ▸ List.mem_cons_self)
      have hrest : ∀ t w, .die t ∈ turns → S.die t w w :=
        fun t w h => hd t w (List.mem_cons_of_mem u h)
      exact (reaches_turn ha hu c).trans (ih hrest (S.turn answer c u))

end System

end Effects
