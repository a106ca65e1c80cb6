/-
Effects/Traces.lean

The whole runs of a program, with everything that it has been answered.  A run of a
compound program is taken apart into runs of its parts (`Traced.of_bind`,
`Traced.of_attempt`, `Traced.of_ask`).

`LeadsTo P S m` is for long programs of which only the last part matters: the
operations that `m` performs are in `P` until it goes on as one of the programs in `S`.
A run with any other operation in it is then a run of such a program, from some point on
(`LeadsTo.sound`).
-/
import KonohaRuntime.Effects.Fallible

namespace Effects

namespace Prog

variable {W Op : Type} {Ans : Op → Type} {ε α β : Type}

/-- An operation and its answer. -/
abbrev Reply {Op : Type} (Ans : Op → Type) : Type := (o : Op) × Ans o

/-- `m`, run from `w`, may be answered `tr` and end with outcome `out` in `w'`. -/
inductive Traced (step : W → (o : Op) → Ans o → W → Prop) :
    Prog Ans ε α → W → List (Reply Ans) → Except ε α → W → Prop
  | ret (a : α) (w : W) : Traced step (Prog.ret a) w [] (.ok a) w
  | raise (e : ε) (w : W) : Traced step (Prog.raise e) w [] (.error e) w
  | op {o : Op} {k : Ans o → Prog Ans ε α} {w w₁ w₂ : W} {r : Ans o} {tr : List (Reply Ans)}
      {out : Except ε α} (hs : step w o r w₁) (hk : Traced step (k r) w₁ tr out w₂) :
      Traced step (Prog.op o k) w (⟨o, r⟩ :: tr) out w₂

variable {step : W → (o : Op) → Ans o → W → Prop} {m : Prog Ans ε α} {w w' : W}
variable {tr : List (Reply Ans)}

/-! ### Taking runs apart -/

theorem Traced.of_ret {a : α} {out : Except ε α}
    (h : Traced step (Prog.ret a : Prog Ans ε α) w tr out w') :
    tr = [] ∧ out = .ok a ∧ w' = w := by
  cases h
  exact ⟨rfl, rfl, rfl⟩

theorem Traced.of_raise {e : ε} {out : Except ε α}
    (h : Traced step (Prog.raise e : Prog Ans ε α) w tr out w') :
    tr = [] ∧ out = .error e ∧ w' = w := by
  cases h
  exact ⟨rfl, rfl, rfl⟩

/-- The first part raises, or the second part goes on with its value. -/
theorem Traced.of_bind {f : α → Prog Ans ε β} {out : Except ε β}
    (h : Traced step (m >>= f) w tr out w') :
    (∃ e, Traced step m w tr (.error e) w' ∧ out = .error e) ∨
      ∃ a tr₁ w₁ tr₂, Traced step m w tr₁ (.ok a) w₁ ∧ Traced step (f a) w₁ tr₂ out w' ∧
        tr = tr₁ ++ tr₂ := by
  induction m generalizing w tr with
  | ret a => exact .inr ⟨a, [], w, tr, .ret a w, h, rfl⟩
  | raise e =>
      obtain ⟨rfl, rfl, rfl⟩ := h.of_raise
      exact .inl ⟨e, .raise e _, rfl⟩
  | op o k ih =>
      cases h with
      | op hs hk =>
          rcases ih _ hk with ⟨e, he, rfl⟩ | ⟨a, tr₁, w₁, tr₂, ha, hf, rfl⟩
          · exact .inl ⟨e, .op hs he, rfl⟩
          · exact .inr ⟨a, _, w₁, tr₂, .op hs ha, hf, rfl⟩

theorem Traced.of_attempt {out : Except ε (Except ε α)}
    (h : Traced step (m.attempt : Prog Ans ε (Except ε α)) w tr out w') :
    ∃ r, Traced step m w tr r w' ∧ out = .ok r := by
  induction m generalizing w tr with
  | ret a =>
      obtain ⟨rfl, rfl, rfl⟩ := Traced.of_ret h
      exact ⟨_, .ret a _, rfl⟩
  | raise e =>
      obtain ⟨rfl, rfl, rfl⟩ := Traced.of_ret h
      exact ⟨_, .raise e _, rfl⟩
  | op o k ih =>
      cases h with
      | op hs hk =>
          obtain ⟨r, hr, rfl⟩ := ih _ hk
          exact ⟨r, .op hs hr, rfl⟩

/-- What is caught is handed to the second part. -/
theorem Traced.of_attempt_bind {f : Except ε α → Prog Ans ε β} {out : Except ε β}
    (h : Traced step ((m.attempt : Prog Ans ε (Except ε α)) >>= f) w tr out w') :
    ∃ r tr₁ w₁ tr₂, Traced step m w tr₁ r w₁ ∧ Traced step (f r) w₁ tr₂ out w' ∧
      tr = tr₁ ++ tr₂ := by
  rcases h.of_bind with ⟨e, he, rfl⟩ | ⟨_, tr₁, w₁, tr₂, hm, hf, rfl⟩
  · obtain ⟨_, -, he⟩ := he.of_attempt
    cases he
  · obtain ⟨r, hr, heq⟩ := hm.of_attempt
    cases heq
    exact ⟨_, tr₁, w₁, tr₂, hr, hf, rfl⟩

/-- What the operations of a run are, whatever is answered. -/
theorem Always.traced {P : Op → Prop} {Q : α → Prop} {E : ε → Prop} {out : Except ε α}
    (h : m.Always P Q E) (hr : Traced step m w tr out w') :
    (∀ x ∈ tr, P x.1) ∧ (∀ a, out = .ok a → Q a) ∧ ∀ e, out = .error e → E e := by
  induction hr with
  | ret a w =>
      refine ⟨by simp, ?_, by simp⟩
      rintro _ ⟨⟩
      exact h
  | raise e w =>
      refine ⟨by simp, by simp, ?_⟩
      rintro _ ⟨⟩
      exact h
  | op hs hk ih =>
      obtain ⟨htr, hout⟩ := ih (h.2 _)
      exact ⟨List.forall_mem_cons.mpr ⟨h.1, htr⟩, hout⟩

/-- Code whose operations keep a property of the world. -/
theorem Always.traced_keeps {P : Op → Prop} {Q : α → Prop} {E : ε → Prop} {I : W → Prop}
    {out : Except ε α} (h : m.Always P Q E)
    (hP : ∀ o, P o → ∀ w r w', step w o r w' → I w → I w') (hr : Traced step m w tr out w')
    (hw : I w) : I w' := by
  induction hr with
  | ret a w => exact hw
  | raise e w => exact hw
  | op hs hk ih => exact ih (h.2 _) (hP _ h.1 _ _ _ hs hw)

section Fallible

variable {V : Op → Type} {step : W → (o : Op) → Except ε (V o) → W → Prop}
variable {tr : List (Reply fun o => Except ε (V o))}

theorem Traced.of_ask {o : Op} {out : Except ε (V o)} (h : Traced step (ask o) w tr out w') :
    tr = [⟨o, out⟩] ∧ step w o out w' := by
  cases h with
  | @op _ _ _ _ _ r _ _ hs hk =>
      cases r with
      | ok v =>
          obtain ⟨rfl, rfl, rfl⟩ := Traced.of_ret hk
          exact ⟨rfl, hs⟩
      | error e =>
          obtain ⟨rfl, rfl, rfl⟩ := Traced.of_raise hk
          exact ⟨rfl, hs⟩

end Fallible

theorem Traced.of_ofExcept {x out : Except ε α}
    (h : Traced step (ofExcept x : Prog Ans ε α) w tr out w') : tr = [] ∧ out = x ∧ w' = w := by
  cases x with
  | ok a => exact h.of_ret
  | error e => exact h.of_raise

/-! ### The run that is played -/

/-- The answers of a run against an environment that answers by a function. -/
def replies (h : W → (o : Op) → Ans o × W) : Prog Ans ε α → W → List (Reply Ans)
  | ret _, _ => []
  | raise _, _ => []
  | op o k, w => ⟨o, (h w o).1⟩ :: replies h (k (h w o).1) (h w o).2

theorem traced_eval {h : W → (o : Op) → Ans o × W} (hs : ∀ w o, step w o (h w o).1 (h w o).2)
    (m : Prog Ans ε α) (w : W) :
    Traced step m w (m.replies h w) (m.eval h w).1 (m.eval h w).2 := by
  induction m generalizing w with
  | ret a => exact .ret a w
  | raise e => exact .raise e w
  | op o k ih => exact .op (hs w o) (ih _ _)

/-- Each reply of such a run is what the environment answers in some state. -/
theorem mem_replies {h : W → (o : Op) → Ans o × W} {m : Prog Ans ε α} {w : W} {x : Reply Ans}
    (hx : x ∈ m.replies h w) : ∃ w', x.2 = (h w' x.1).1 := by
  induction m generalizing w with
  | ret a => cases hx
  | raise e => cases hx
  | op o k ih =>
      rcases List.mem_cons.mp hx with rfl | hx
      · exact ⟨w, rfl⟩
      · exact ih _ hx

/-! ### The last part -/

/-- Whatever the answers, `m` performs only operations in `P` until it goes on as a program
in `S`. -/
inductive LeadsTo (P : Op → Prop) (S : Prog Ans ε α → Prop) : Prog Ans ε α → Prop
  | goes {m : Prog Ans ε α} (h : S m) : LeadsTo P S m
  | stops {m : Prog Ans ε α} (h : m.Always P (fun _ => True) fun _ => True) : LeadsTo P S m
  | op {o : Op} {k : Ans o → Prog Ans ε α} (ho : P o) (hk : ∀ r, LeadsTo P S (k r)) :
      LeadsTo P S (.op o k)

variable {P : Op → Prop} {S : Prog Ans ε β → Prop}

theorem LeadsTo.bind {Q : α → Prop} {E : ε → Prop} {f : α → Prog Ans ε β} (h : m.Always P Q E)
    (hf : ∀ a, Q a → LeadsTo P S (f a)) : LeadsTo P S (m >>= f) := by
  induction m with
  | ret a => exact hf a h
  | raise e => exact .stops trivial
  | op o k ih => exact .op h.1 fun r => ih r (h.2 r)

/-- **A run with another operation in it** is a run of a program in `S`, from some point on. -/
theorem LeadsTo.sound {m : Prog Ans ε β} {out : Except ε β} (h : LeadsTo P S m)
    (hr : Traced step m w tr out w') (hx : ∃ x ∈ tr, ¬ P x.1) :
    ∃ m' tr₁ w₁ tr₂, S m' ∧ Traced step m' w₁ tr₂ out w' ∧ tr = tr₁ ++ tr₂ ∧
      ∀ x ∈ tr₁, P x.1 := by
  induction h generalizing w tr with
  | goes h => exact ⟨_, [], w, tr, h, hr, rfl, by simp⟩
  | stops h =>
      obtain ⟨x, hx, hP⟩ := hx
      exact absurd ((h.traced hr).1 x hx) hP
  | op ho hk ih =>
      cases hr with
      | @op _ _ _ _ _ _ tr _ hs hr =>
          have hx' : ∃ x ∈ tr, ¬ P x.1 := by
            obtain ⟨x, hx, hP⟩ := hx
            rcases List.mem_cons.mp hx with rfl | hx
            · exact absurd ho hP
            · exact ⟨x, hx, hP⟩
          obtain ⟨m', tr₁, w₁, tr₂, hm', hr', rfl, htr₁⟩ := ih _ hr hx'
          exact ⟨m', _, w₁, tr₂, hm', hr', rfl, List.forall_mem_cons.mpr ⟨ho, htr₁⟩⟩

end Prog

end Effects
