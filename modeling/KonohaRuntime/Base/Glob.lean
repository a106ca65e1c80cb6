/-
Base/Glob.lean

Patterns of single letters and stars, over any alphabet.

A word lies under a path when its first letters spell the path, each read through a relation that
may forget something (the case of a letter), and it ends there or goes on with a separator.
`exists_matches_under_iff` decides from the pattern alone whether it matches such a word: only what
stands before the first star is compared with the path, and the rest must match anything at all.
-/
import Mathlib

namespace Konoha.Glob

variable {α β : Type}

/-- One letter that a predicate accepts, or any letters. -/
inductive Token (α : Type)
  | one (accepts : α → Bool)
  | star

/-- The word is matched as a whole. -/
def Matches : List (Token α) → List α → Prop
  | [], w => w = []
  | .one accepts :: ts, w => ∃ c v, w = c :: v ∧ accepts c = true ∧ Matches ts v
  | .star :: ts, w => ∃ u v, w = u ++ v ∧ Matches ts v

/-- `Matches`, as a test -/
def matchesWord : List (Token α) → List α → Bool
  | [], w => w.isEmpty
  | .one _ :: _, [] => false
  | .one accepts :: ts, c :: w => accepts c && matchesWord ts w
  | .star :: ts, w => w.tails.any (matchesWord ts)

theorem matchesWord_iff {ts : List (Token α)} {w : List α} :
    matchesWord ts w = true ↔ Matches ts w := by
  induction ts generalizing w with
  | nil => exact List.isEmpty_iff
  | cons t ts ih =>
    cases t with
    | one accepts =>
      cases w with
      | nil => exact iff_of_false (fun h => nomatch h) fun ⟨_, _, h, _⟩ => nomatch h
      | cons c w =>
        rw [matchesWord, Bool.and_eq_true, ih]
        constructor
        · rintro ⟨hc, hw⟩
          exact ⟨c, w, rfl, hc, hw⟩
        · rintro ⟨c', w', h, hc, hw⟩
          obtain ⟨rfl, rfl⟩ := List.cons.inj h
          exact ⟨hc, hw⟩
    | star =>
      rw [matchesWord, List.any_eq_true]
      constructor
      · rintro ⟨v, hv, h⟩
        obtain ⟨u, rfl⟩ := (List.mem_tails ..).mp hv
        exact ⟨u, v, rfl, ih.mp h⟩
      · rintro ⟨u, v, rfl, h⟩
        exact ⟨v, (List.mem_tails ..).mpr ⟨u, rfl⟩, ih.mpr h⟩

/-- Every letter that is asked for is one that there is. -/
def Satisfiable (ts : List (Token α)) : Prop :=
  ∀ accepts, Token.one accepts ∈ ts → ∃ c, accepts c = true

theorem exists_matches_iff {ts : List (Token α)} : (∃ w, Matches ts w) ↔ Satisfiable ts := by
  induction ts with
  | nil => exact iff_of_true ⟨[], rfl⟩ fun _ h => nomatch h
  | cons t ts ih =>
    cases t with
    | one accepts =>
      constructor
      · rintro ⟨w, c, v, rfl, hc, hv⟩ accepts' hmem
        rcases List.mem_cons.mp hmem with h | h
        · obtain rfl := Token.one.inj h
          exact ⟨c, hc⟩
        · exact ih.mp ⟨v, hv⟩ accepts' h
      · intro h
        obtain ⟨c, hc⟩ := h accepts List.mem_cons_self
        obtain ⟨v, hv⟩ := ih.mpr fun accepts' hmem => h accepts' (List.mem_cons_of_mem _ hmem)
        exact ⟨c :: v, c, v, rfl, hc, hv⟩
    | star =>
      constructor
      · rintro ⟨w, u, v, rfl, hv⟩ accepts hmem
        rcases List.mem_cons.mp hmem with h | h
        · cases h
        · exact ih.mp ⟨v, hv⟩ accepts h
      · intro h
        obtain ⟨v, hv⟩ := ih.mpr fun accepts hmem => h accepts (List.mem_cons_of_mem _ hmem)
        exact ⟨v, [], v, rfl, hv⟩

/-! ### Part of the alphabet -/

/-- The letters of a token that are kept. -/
def Token.restrict (keep : α → Bool) : Token α → Token α
  | one accepts => one fun c => keep c && accepts c
  | star => star

/-- A word of letters that are kept is matched as before. -/
theorem Matches.restrict {keep : α → Bool} {ts : List (Token α)} {w : List α} (h : Matches ts w)
    (hw : ∀ c ∈ w, keep c = true) : Matches (ts.map (Token.restrict keep)) w := by
  induction ts generalizing w with
  | nil => exact h
  | cons t ts ih =>
    cases t with
    | one accepts =>
      obtain ⟨c, v, rfl, hc, hv⟩ := h
      exact ⟨c, v, rfl, Bool.and_eq_true_iff.mpr ⟨hw c (.head _), hc⟩,
        ih hv fun d hd => hw d (.tail _ hd)⟩
    | star =>
      obtain ⟨u, v, rfl, hv⟩ := h
      exact ⟨u, v, rfl, ih hv fun d hd => hw d (List.mem_append_right _ hd)⟩

/-- What is matched letter by letter is matched when the other letters are changed. -/
theorem matches_map_of_restrict {keep : α → Bool} {f : α → α} (hf : ∀ c, keep c = true → f c = c)
    {ts : List (Token α)} {w : List α} (h : Matches (ts.map (Token.restrict keep)) w) :
    Matches ts (w.map f) := by
  induction ts generalizing w with
  | nil =>
    obtain rfl : w = [] := h
    rfl
  | cons t ts ih =>
    cases t with
    | one accepts =>
      obtain ⟨c, v, rfl, hc, hv⟩ := h
      obtain ⟨hkeep, haccepts⟩ := Bool.and_eq_true_iff.mp hc
      exact ⟨f c, v.map f, rfl, by rw [hf c hkeep, haccepts], ih hv⟩
    | star =>
      obtain ⟨u, v, rfl, hv⟩ := h
      exact ⟨u.map f, v.map f, List.map_append, ih hv⟩

/-! ### Words under a path -/

variable (reads : α → β → Prop) (sep : α)

/-- The word spells the path, and ends there or goes on with the separator. -/
def Under (path : List β) (w : List α) : Prop :=
  ∃ spelled rest, w = spelled ++ rest ∧ List.Forall₂ reads spelled path ∧
    (rest = [] ∨ ∃ r, rest = sep :: r)

/-- The letters before the first star agree with the path, as far as it goes, and then with the
separator; what comes after is satisfiable. -/
def Agrees : List (Token α) → List β → Prop
  | .star :: ts, _ => Satisfiable ts
  | [], [] => True
  | [], _ :: _ => False
  | .one accepts :: ts, [] => accepts sep = true ∧ Satisfiable ts
  | .one accepts :: ts, x :: path => (∃ c, accepts c = true ∧ reads c x) ∧ Agrees ts path

theorem under_nil_iff {w : List α} : Under reads sep [] w ↔ w = [] ∨ ∃ r, w = sep :: r := by
  constructor
  · rintro ⟨spelled, rest, rfl, hspelled, hrest⟩
    obtain rfl := List.forall₂_nil_right_iff.mp hspelled
    exact hrest
  · exact fun h => ⟨[], w, rfl, .nil, h⟩

theorem under_cons_iff {x : β} {path : List β} {w : List α} : Under reads sep (x :: path) w ↔
    ∃ c v, w = c :: v ∧ reads c x ∧ Under reads sep path v := by
  constructor
  · rintro ⟨spelled, rest, rfl, hspelled, hrest⟩
    obtain ⟨c, tail, hc, htail, rfl⟩ := List.forall₂_cons_right_iff.mp hspelled
    exact ⟨c, tail ++ rest, rfl, hc, tail, rest, rfl, htail, hrest⟩
  · rintro ⟨c, v, rfl, hc, spelled, rest, rfl, hspelled, hrest⟩
    exact ⟨c :: spelled, rest, rfl, .cons hc hspelled, hrest⟩

/-- **Whether a pattern matches a word under a path.** -/
theorem exists_matches_under_iff {ts : List (Token α)} {path : List β}
    (hpath : ∀ x ∈ path, ∃ c, reads c x) :
    (∃ w, Matches ts w ∧ Under reads sep path w) ↔ Agrees reads sep ts path := by
  induction ts generalizing path with
  | nil =>
    cases path with
    | nil => exact iff_of_true ⟨[], rfl, (under_nil_iff reads sep).mpr (.inl rfl)⟩ trivial
    | cons x path =>
      refine iff_of_false ?_ id
      rintro ⟨w, rfl, h⟩
      obtain ⟨c, v, hw, -⟩ := (under_cons_iff reads sep).mp h
      cases hw
  | cons t ts ih =>
    cases t with
    | star =>
      have hagrees : Agrees reads sep (.star :: ts) path ↔ Satisfiable ts := by
        cases path <;> exact Iff.rfl
      rw [hagrees, ← exists_matches_iff]
      constructor
      · rintro ⟨w, ⟨u, v, rfl, hv⟩, -⟩
        exact ⟨v, hv⟩
      · rintro ⟨v, hv⟩
        -- the star takes the whole path and a separator
        have hspelled : ∃ spelled, List.Forall₂ reads spelled path := by
          induction path with
          | nil => exact ⟨[], .nil⟩
          | cons x path ihpath =>
            obtain ⟨c, hc⟩ := hpath x List.mem_cons_self
            obtain ⟨spelled, h⟩ := ihpath (fun y hy => hpath y (List.mem_cons_of_mem _ hy))
              (by cases path <;> exact Iff.rfl)
            exact ⟨c :: spelled, .cons hc h⟩
        obtain ⟨spelled, hspelled⟩ := hspelled
        exact ⟨spelled ++ sep :: v, ⟨spelled ++ [sep], v, by simp, hv⟩, spelled, sep :: v, rfl,
          hspelled, .inr ⟨v, rfl⟩⟩
    | one accepts =>
      cases path with
      | nil =>
        rw [Agrees, ← exists_matches_iff]
        constructor
        · rintro ⟨w, ⟨c, v, rfl, hc, hv⟩, hunder⟩
          rcases (under_nil_iff reads sep).mp hunder with h | ⟨r, h⟩
          · cases h
          · obtain ⟨rfl, -⟩ := List.cons.inj h
            exact ⟨hc, v, hv⟩
        · rintro ⟨hc, v, hv⟩
          exact ⟨sep :: v, ⟨sep, v, rfl, hc, hv⟩, (under_nil_iff reads sep).mpr (.inr ⟨v, rfl⟩)⟩
      | cons x path =>
        rw [Agrees, ← ih fun y hy => hpath y (List.mem_cons_of_mem _ hy)]
        constructor
        · rintro ⟨w, ⟨c, v, rfl, hc, hv⟩, hunder⟩
          obtain ⟨c', v', h, hreads, hunder⟩ := (under_cons_iff reads sep).mp hunder
          obtain ⟨rfl, rfl⟩ := List.cons.inj h
          exact ⟨⟨c, hc, hreads⟩, v, hv, hunder⟩
        · rintro ⟨⟨c, hc, hreads⟩, v, hv, hunder⟩
          exact ⟨c :: v, ⟨c, v, rfl, hc, hv⟩,
            (under_cons_iff reads sep).mpr ⟨c, v, rfl, hreads, hunder⟩⟩

end Konoha.Glob
