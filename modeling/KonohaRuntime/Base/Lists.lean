/-
Base/Lists.lean

Lists that are related element by element, and lists that are parted at an element.
-/
import Mathlib

namespace List

section Related

variable {α β : Type} {R S : α → β → Prop} {xs : List α} {ys : List β}

theorem Forall₂.exists_left (h : Forall₂ R xs ys) {y : β} (hy : y ∈ ys) : ∃ x ∈ xs, R x y := by
  induction h with
  | nil => cases hy
  | cons hxy _ ih =>
      rcases mem_cons.mp hy with rfl | hy
      · exact ⟨_, mem_cons_self, hxy⟩
      · obtain ⟨x, hx, hxy⟩ := ih hy
        exact ⟨x, mem_cons_of_mem _ hx, hxy⟩

theorem Forall₂.exists_right (h : Forall₂ R xs ys) {x : α} (hx : x ∈ xs) : ∃ y ∈ ys, R x y :=
  h.flip.exists_left hx

theorem Forall₂.imp_of_mem (h : Forall₂ R xs ys)
    (himp : ∀ x ∈ xs, ∀ y ∈ ys, R x y → S x y) : Forall₂ S xs ys := by
  induction h with
  | nil => exact .nil
  | cons hxy _ ih =>
      exact .cons (himp _ mem_cons_self _ mem_cons_self hxy)
        (ih fun x hx y hy => himp x (.tail _ hx) y (.tail _ hy))

end Related

section Parted

variable {α : Type} {x : α} {as bs cs ds : List α}

theorem parted_at_first (ha : x ∉ as) (hc : x ∉ cs) (h : as ++ x :: bs = cs ++ x :: ds) :
    as = cs ∧ bs = ds := by
  induction as generalizing cs with
  | nil =>
      cases cs with
      | nil => exact ⟨rfl, (List.cons.inj h).2⟩
      | cons c cs =>
          obtain ⟨rfl, -⟩ := List.cons.inj h
          exact absurd mem_cons_self hc
  | cons a as ih =>
      cases cs with
      | nil =>
          obtain ⟨rfl, -⟩ := List.cons.inj h
          exact absurd mem_cons_self ha
      | cons c cs =>
          obtain ⟨rfl, htail⟩ := List.cons.inj h
          obtain ⟨rfl, rfl⟩ := ih (fun hx => ha (.tail _ hx)) (fun hx => hc (.tail _ hx)) htail
          exact ⟨rfl, rfl⟩

theorem parted_at_last (hb : x ∉ bs) (hd : x ∉ ds) (h : as ++ x :: bs = cs ++ x :: ds) :
    as = cs ∧ bs = ds := by
  have hreverse : bs.reverse ++ x :: as.reverse = ds.reverse ++ x :: cs.reverse := by
    simpa using congrArg reverse h
  obtain ⟨hbd, hac⟩ := parted_at_first (by simpa using hb) (by simpa using hd) hreverse
  exact ⟨reverse_injective hac, reverse_injective hbd⟩

/-- Nothing is dropped before an element that is kept. -/
theorem prefix_rdropWhile {p : α → Bool} (as : List α) (hx : p x = false) (bs : List α) :
    as ++ [x] <+: (as ++ [x] ++ bs).rdropWhile p := by
  induction bs using reverseRecOn with
  | nil =>
    exact ⟨[], by rw [append_nil, rdropWhile_concat_neg _ _ _ (by rw [hx]; decide)]⟩
  | append_singleton bs b ih =>
    rw [← append_assoc, rdropWhile_concat]
    split_ifs
    · exact ih
    · exact ⟨bs ++ [b], by simp⟩

end Parted

end List
