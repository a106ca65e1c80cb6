/-
Effects/Loops.lean

Programs that go through a list.  `Prog` is a lawful monad, so the loops of the
library are what one expects, and each judgement about a body extends to the loop.
-/
import KonohaRuntime.Base.Lists
import KonohaRuntime.Effects.Fallible

namespace Effects

namespace Prog

variable {Op : Type} {Ans : Op → Type} {ε α β γ W : Type}

theorem bind_ret (m : Prog Ans ε α) : m >>= ret = m := by
  induction m with
  | ret a => rfl
  | raise e => rfl
  | op o k ih => exact congrArg (op o) (funext ih)

theorem bind_assoc (m : Prog Ans ε α) (f : α → Prog Ans ε β) (g : β → Prog Ans ε γ) :
    m >>= f >>= g = m >>= fun a => f a >>= g := by
  induction m with
  | ret a => rfl
  | raise e => rfl
  | op o k ih => exact congrArg (op o) (funext ih)

instance : LawfulMonad (Prog Ans ε) :=
  LawfulMonad.mk' _ bind_ret (fun _ _ => rfl) bind_assoc

/-! ### Whatever the answers -/

section Always

variable {P : Op → Prop} {E : ε → Prop} {l : List β}

theorem Always.forM {f : β → Prog Ans ε PUnit} (h : ∀ b ∈ l, (f b).Always P (fun _ => True) E) :
    (l.forM f).Always P (fun _ => True) E := by
  induction l with
  | nil => trivial
  | cons b rest ih =>
      refine (h b List.mem_cons_self).bind fun _ _ => ?_
      exact ih fun b' hb' => h b' (List.mem_cons_of_mem _ hb')

end Always

/-! ### Under rules -/

section Triple

variable {R : Rules W Ans} {A : W → Prop} {E : ε → W → Prop} {l : List β}

/-- A body that keeps an assertion may be repeated; what it makes of each item is true of
all of them. -/
theorem triple_forM {f : β → Prog Ans ε PUnit} {Q : β → Prop}
    (h : ∀ b ∈ l, Triple R A (f b) (fun _ w => Q b ∧ A w) E) :
    Triple R A (l.forM f) (fun _ w => (∀ b ∈ l, Q b) ∧ A w) E := by
  induction l with
  | nil => exact Triple.ret fun _ hw => ⟨by simp, hw⟩
  | cons b rest ih =>
      refine Triple.bind (h b List.mem_cons_self) fun _ => Triple.of_pure fun hb => ?_
      refine (ih fun b' hb' => h b' (List.mem_cons_of_mem _ hb')).conseq (fun _ hw => hw) ?_
        fun _ _ he => he
      exact fun _ w hw => ⟨List.forall_mem_cons.mpr ⟨hb, hw.1⟩, hw.2⟩

theorem triple_mapM {f : β → Prog Ans ε α} {Q : β → α → Prop}
    (h : ∀ b ∈ l, Triple R A (f b) (fun a w => Q b a ∧ A w) E) :
    Triple R A (l.mapM f) (fun as w => List.Forall₂ Q l as ∧ A w) E := by
  induction l with
  | nil => exact Triple.ret fun _ hw => ⟨.nil, hw⟩
  | cons b rest ih =>
      rw [List.mapM_cons]
      refine Triple.bind (h b List.mem_cons_self) fun a => Triple.of_pure fun ha => ?_
      refine Triple.bind (ih fun b' hb' => h b' (List.mem_cons_of_mem _ hb')) fun as =>
        Triple.of_pure fun has => ?_
      exact Triple.ret fun _ hw => ⟨.cons ha has, hw⟩

end Triple

end Prog

end Effects
