/-
Base/Search.lean

Searching a list for the first place, or for all places, where a scanner succeeds.  A scanner reads
items from the front of a list; it never looks back, and gives up at the first item that it does not
want.

* `search_append`: a scanner that cannot get past the border of two lists finds its first place in
  the first list, or else in the second.
* `findAll_skip`, `findAll_match`: all places, one after the other.
-/
import Mathlib

namespace Konoha.Search

variable {α β γ : Type}

/-- What has been read, and what is left. -/
abbrev Scanner (α β : Type) := StateT (List α) Option β

/-- One item. -/
def item (p : α → Bool) : Scanner α α
  | [] => none
  | a :: s => if p a then some (a, s) else none

/-- All that follow each other. -/
def many (p : α → Bool) : Scanner α (List α) := fun s => some (s.takeWhile p, s.dropWhile p)

/-- At least one. -/
def several (p : α → Bool) : Scanner α (List α) := do
  let first ← item p
  let rest ← many p
  return first :: rest

/-- These items, one after the other. -/
def literal : List (α → Bool) → Scanner α Unit
  | [] => return ()
  | p :: ps => do
      let _ ← item p
      literal ps

/-- The first place: what is found there, and what comes after it. -/
def search (m : Scanner α β) : List α → Option (β × List α)
  | [] => m []
  | a :: s => (m (a :: s)).or (search m s)

/-- All places after the next `skip` items. -/
def findFrom (m : Scanner α β) : Nat → List α → List β
  | _, [] => []
  | skip + 1, _ :: s => findFrom m skip s
  | 0, a :: s =>
      match m (a :: s) with
      | some (b, rest) => b :: findFrom m (s.length - rest.length) s
      | none => findFrom m 0 s

def findAll (m : Scanner α β) (s : List α) : List β := findFrom m 0 s

/-! ### Reading -/

variable {p : α → Bool} {m : Scanner α β} {f : β → Scanner α γ}

theorem bind_of_eq {s : List α} {r : β × List α} (h : m s = some r) : (m >>= f) s = f r.1 r.2 := by
  show (m s).bind (fun r => f r.1 r.2) = _
  rw [h]
  rfl

theorem bind_eq_some {s : List α} {r : γ × List α} :
    (m >>= f) s = some r ↔ ∃ b t, m s = some (b, t) ∧ f b t = some r := by
  show (m s).bind (fun r => f r.1 r.2) = some r ↔ _
  rw [Option.bind_eq_some_iff, Prod.exists]

theorem item_cons {a : α} (ha : p a = true) (s : List α) : item p (a :: s) = some (a, s) :=
  if_pos ha

theorem takeWhile_append_of {xs ys : List α} (hxs : ∀ a ∈ xs, p a = true)
    (hys : ∀ a ∈ ys.head?, p a = false) : (xs ++ ys).takeWhile p = xs ∧ (xs ++ ys).dropWhile p = ys := by
  induction xs with
  | nil =>
      cases ys with
      | nil => exact ⟨rfl, rfl⟩
      | cons b ys => simp [hys b rfl]
  | cons a xs ih =>
      obtain ⟨ha, hxs⟩ := List.forall_mem_cons.mp hxs
      simpa [ha] using ih hxs

theorem many_append {xs ys : List α} (hxs : ∀ a ∈ xs, p a = true)
    (hys : ∀ a ∈ ys.head?, p a = false) : many p (xs ++ ys) = some (xs, ys) := by
  obtain ⟨htake, hdrop⟩ := takeWhile_append_of hxs hys
  rw [many, htake, hdrop]

theorem several_append {xs ys : List α} (hne : xs ≠ []) (hxs : ∀ a ∈ xs, p a = true)
    (hys : ∀ a ∈ ys.head?, p a = false) : several p (xs ++ ys) = some (xs, ys) := by
  obtain ⟨a, xs, rfl⟩ := List.exists_cons_of_ne_nil hne
  obtain ⟨ha, hxs⟩ := List.forall_mem_cons.mp hxs
  refine (bind_of_eq (item_cons ha (xs ++ ys))).trans ?_
  exact (bind_of_eq (many_append hxs hys)).trans rfl

/-- All that is read satisfies `q`. -/
def Reads (q : α → Prop) (m : Scanner α β) : Prop :=
  ∀ s b r, m s = some (b, r) → ∃ t, s = t ++ r ∧ ∀ a ∈ t, q a

variable {q : α → Prop}

theorem Reads.pure (b : β) : Reads q (pure b : Scanner α β) := by
  intro s b' r h
  obtain ⟨-, rfl⟩ := Prod.mk.inj (Option.some.inj h)
  exact ⟨[], rfl, List.forall_mem_nil _⟩

theorem Reads.bind (hm : Reads q m) (hf : ∀ b, Reads q (f b)) : Reads q (m >>= f) := by
  intro s c r h
  obtain ⟨b, s', hb, hc⟩ := bind_eq_some.mp h
  obtain ⟨t, rfl, ht⟩ := hm s b s' hb
  obtain ⟨t', rfl, ht'⟩ := hf b s' c r hc
  exact ⟨t ++ t', (List.append_assoc _ _ _).symm, List.forall_mem_append.mpr ⟨ht, ht'⟩⟩

theorem reads_item (hp : ∀ a, p a = true → q a) : Reads q (item p) := by
  intro s b r h
  cases s with
  | nil => cases h
  | cons a s =>
      rw [item] at h
      split_ifs at h with ha
      obtain ⟨rfl, rfl⟩ := Prod.mk.inj (Option.some.inj h)
      exact ⟨[a], rfl, List.forall_mem_singleton.mpr (hp a ha)⟩

theorem reads_many (hp : ∀ a, p a = true → q a) : Reads q (many p) := by
  intro s b r h
  obtain ⟨-, rfl⟩ := Prod.mk.inj (Option.some.inj h)
  exact ⟨s.takeWhile p, List.takeWhile_append_dropWhile.symm,
    fun a ha => hp a (List.mem_takeWhile_imp ha)⟩

theorem reads_literal {ps : List (α → Bool)} (hps : ∀ p ∈ ps, ∀ a, p a = true → q a) :
    Reads q (literal ps) := by
  induction ps with
  | nil => exact .pure ()
  | cons p ps ih =>
      obtain ⟨hp, hps⟩ := List.forall_mem_cons.mp hps
      exact (reads_item hp).bind fun _ => ih hps

/-! ### Scanners that stop at an item -/

/-- The scanner never reads `c`, and stops in front of it as it does at the end. -/
def StopsAt (c : α) (m : Scanner α β) : Prop :=
  ∀ t f, m (t ++ c :: f) = (m t).map fun r => (r.1, r.2 ++ c :: f)

variable {c : α}

theorem StopsAt.pure (b : β) : StopsAt c (pure b : Scanner α β) := fun _ _ => rfl

theorem StopsAt.bind (hm : StopsAt c m)
    (hf : ∀ b, StopsAt c (f b)) : StopsAt c (m >>= f) := by
  intro t g
  show (m (t ++ c :: g)).bind (fun r => f r.1 r.2) = _
  rw [hm]
  show _ = ((m t).bind fun r => f r.1 r.2).map _
  cases m t with
  | none => rfl
  | some r => exact hf r.1 r.2 g

theorem stopsAt_item (hc : p c = false) : StopsAt c (item p) := by
  intro t f
  cases t with
  | nil =>
      show (if p c = true then some (c, f) else none) = none
      rw [hc]
      rfl
  | cons a t =>
      show (if p a = true then some (a, t ++ c :: f) else none) = Option.map _ (if p a = true then _ else none)
      split <;> rfl

theorem stopsAt_many (hc : p c = false) : StopsAt c (many p) := by
  intro t f
  show some ((t ++ c :: f).takeWhile p, (t ++ c :: f).dropWhile p) = some (t.takeWhile p, t.dropWhile p ++ c :: f)
  induction t with
  | nil => simp [hc]
  | cons a t ih =>
      rcases ha : p a with - | -
      · simp [ha]
      · simpa [ha] using ih

theorem stopsAt_several (hc : p c = false) : StopsAt c (several p) :=
  (stopsAt_item hc).bind fun _ => (stopsAt_many hc).bind fun _ => .pure _

theorem stopsAt_literal {ps : List (α → Bool)} (hc : ∀ p ∈ ps, p c = false) :
    StopsAt c (literal ps) := by
  induction ps with
  | nil => exact .pure ()
  | cons p ps ih =>
      obtain ⟨hp, hps⟩ := List.forall_mem_cons.mp hc
      exact (stopsAt_item hp).bind fun _ => ih hps

/-! ### The first place -/

/-- Going on after a first item that `m` wants. -/
def after (p : α → Bool) (m : Scanner α β) : Scanner α β := do
  let _ ← item p
  m

theorem search_cons (m : Scanner α β) (a : α) (s : List α) :
    search m (a :: s) = (m (a :: s)).or (search m s) := rfl

theorem after_cons (m : Scanner α β) (a : α) (s : List α) :
    after p m (a :: s) = if p a then m s else none := by
  show (if p a = true then some (a, s) else none).bind (fun r => m r.2) = _
  split <;> rfl

/-- Nothing begins with these items. -/
theorem search_skip {t : List α} (ht : ∀ a ∈ t, p a = false) (s : List α) :
    search (after p m) (t ++ s) = search (after p m) s := by
  induction t with
  | nil => rfl
  | cons a t ih =>
      obtain ⟨ha, ht⟩ := List.forall_mem_cons.mp ht
      rw [List.cons_append, search_cons, after_cons, ha, ih ht]
      rfl

theorem search_append (hm : StopsAt c m) (t f : List α) :
    search (after p m) (t ++ c :: f) =
      ((search (after p m) t).map fun r => (r.1, r.2 ++ c :: f)).or (search (after p m) (c :: f)) := by
  induction t with
  | nil => rfl
  | cons a t ih =>
      rw [List.cons_append, search_cons, search_cons, ih, after_cons, after_cons]
      split
      · rw [hm]
        cases m t <;> rfl
      · rfl

theorem search_suffix {m : Scanner α β} (hm : Reads (fun _ => True) m) {s r : List α} {b : β}
    (h : search m s = some (b, r)) : r <:+ s := by
  induction s with
  | nil =>
      obtain ⟨t, ht, -⟩ := hm [] b r h
      exact ⟨t, ht.symm⟩
  | cons a s ih =>
      rcases Option.or_eq_some_iff.mp h with h | ⟨-, h⟩
      · obtain ⟨t, ht, -⟩ := hm (a :: s) b r h
        exact ⟨t, ht.symm⟩
      · exact (ih h).trans (List.suffix_cons a s)

/-! ### All places -/

theorem findFrom_skip (m : Scanner α β) (t s : List α) :
    findFrom m t.length (t ++ s) = findFrom m 0 s := by
  induction t with
  | nil => rfl
  | cons a t ih => exact ih

/-- A place, and those after it. -/
theorem findAll_match {a : α} {t s : List α} {b : β}
    (h : m (a :: t ++ s) = some (b, s)) : findAll m (a :: t ++ s) = b :: findAll m s := by
  show findFrom m 0 (a :: (t ++ s)) = _
  rw [findFrom, show m (a :: (t ++ s)) = _ from h]
  show b :: findFrom m ((t ++ s).length - s.length) (t ++ s) = _
  rw [List.length_append, Nat.add_sub_cancel, findFrom_skip]
  rfl

/-- No place. -/
theorem findAll_skip {t s : List α}
    (h : ∀ t', t' ≠ [] → t' <:+ t → m (t' ++ s) = none) : findAll m (t ++ s) = findAll m s := by
  induction t with
  | nil => rfl
  | cons a t ih =>
      show findFrom m 0 (a :: (t ++ s)) = _
      rw [findFrom, show m (a :: (t ++ s)) = none from h (a :: t) nofun (List.suffix_refl _)]
      exact ih fun t' hne hsuffix => h t' hne (hsuffix.trans (List.suffix_cons _ _))

end Konoha.Search
