/-
Base/Quoted.lean

Where a backquote can stand in a JSON text.  Outside of strings there is none, and a
string does not go over the end of a line; so on the line of a backquote there is
something before it, and a quotation mark after it.

`loads_quoted`: every text that `json.loads` accepts is `Quoted`.  Each scanner is shown
to use up a quoted part of the text, in the order of the scanners.
-/
import KonohaRuntime.Base.Loads

namespace Konoha

open CodePoint

/-- The end of a line. -/
def endsLine (p : CodePoint) : Bool := p = scalar '\n' ∨ p = scalar '\r'

def backquote : CodePoint := scalar '`'

def quotationMark : CodePoint := scalar '"'

/-- On the line of every backquote there is something before it, and a quotation mark
after it. -/
def Quoted (s : PyStr) : Prop :=
  ∀ a b, s = a ++ backquote :: b →
    (∃ a' p, a = a' ++ [p] ∧ endsLine p = false) ∧
      ∃ c d, b = c ++ quotationMark :: d ∧ ∀ p ∈ c, endsLine p = false

/-! ### Quoted texts -/

theorem quoted_of_notMem {s : PyStr} (h : backquote ∉ s) : Quoted s := by
  rintro a b rfl
  exact absurd (List.mem_append_right a List.mem_cons_self) h

theorem Quoted.append {x y : PyStr} (hx : Quoted x) (hy : Quoted y) : Quoted (x ++ y) := by
  intro a b h
  rcases List.append_eq_append_iff.mp h with ⟨a', rfl, hr⟩ | ⟨c, hc, hr⟩
  · -- the backquote is in the second part
    obtain ⟨⟨a'', p, rfl, hp⟩, hafter⟩ := hy a' b hr
    exact ⟨⟨x ++ a'', p, (List.append_assoc _ _ _).symm, hp⟩, hafter⟩
  · cases c with
    | nil =>
        -- it would be the first of the second part
        obtain ⟨⟨a', p, ha, -⟩, -⟩ := hy [] b hr.symm
        exact absurd ha (by simp)
    | cons q c =>
        obtain ⟨rfl, rfl⟩ := List.cons.inj hr
        obtain ⟨hbefore, c', d, rfl, hc'⟩ := hx a c hc
        exact ⟨hbefore, c', d ++ y, by simp, hc'⟩

/-- A string literal, whatever its one line holds. -/
theorem quoted_literal {s : PyStr} (h : ∀ p ∈ s, endsLine p = false) :
    Quoted (quotationMark :: s ++ [quotationMark]) := by
  intro a b hab
  cases a with
  | nil => exact absurd (List.cons.inj hab).1 (by decide)
  | cons q a =>
      obtain ⟨rfl, hs⟩ := List.cons.inj hab
      replace hs : s ++ [quotationMark] = a ++ backquote :: b := hs
      constructor
      · rcases List.eq_nil_or_concat a with rfl | ⟨a', p, rfl⟩
        · exact ⟨[], quotationMark, rfl, by decide⟩
        · refine ⟨quotationMark :: a', p, by simp, h p ?_⟩
          -- the part before the backquote does not reach the closing mark
          rcases List.append_eq_append_iff.mp hs with ⟨c, hc, hd⟩ | ⟨c, rfl, -⟩
          · cases c with
            | nil =>
                rw [List.append_nil] at hc
                exact hc ▸ (by simp)
            | cons r c => simp at hd
          · simp
      · rcases List.eq_nil_or_concat b with rfl | ⟨b', p, rfl⟩
        · exact absurd (List.append_inj_right' hs rfl) (by decide)
        · have hlast : s ++ [quotationMark] = (a ++ backquote :: b') ++ [p] := by
            rw [hs]
            simp
          obtain ⟨rfl, hp⟩ := List.append_inj' hlast rfl
          obtain rfl := (List.cons.inj hp).1
          refine ⟨b', [], by simp, fun r hr => h r ?_⟩
          exact List.mem_append_right a (List.mem_cons_of_mem _ hr)

/-! ### What a scanner uses up -/

/-- Before `rest` a quoted part of `s` has been used up. -/
def Uses (s rest : PyStr) : Prop := ∃ used, s = used ++ rest ∧ Quoted used

theorem Uses.refl (s : PyStr) : Uses s s := ⟨[], rfl, quoted_of_notMem List.not_mem_nil⟩

theorem Uses.trans {s t rest : PyStr} (h : Uses s t) (h' : Uses t rest) : Uses s rest := by
  obtain ⟨u, rfl, hu⟩ := h
  obtain ⟨v, rfl, hv⟩ := h'
  exact ⟨u ++ v, (List.append_assoc _ _ _).symm, hu.append hv⟩

theorem Uses.cons {p : CodePoint} {s rest : PyStr} (hp : p ≠ backquote) (h : Uses s rest) :
    Uses (p :: s) rest := by
  have hone : Uses (p :: s) s :=
    ⟨[p], rfl, quoted_of_notMem fun hmem => hp (List.mem_singleton.mp hmem).symm⟩
  exact hone.trans h

theorem uses_of_notMem {used rest : PyStr} (h : backquote ∉ used) : Uses (used ++ rest) rest :=
  ⟨used, rfl, quoted_of_notMem h⟩

namespace Loads

theorem uses_skipSpace (s : PyStr) : Uses s (skipSpace s) := by
  refine ⟨s.takeWhile isSpace, List.takeWhile_append_dropWhile.symm, quoted_of_notMem fun h => ?_⟩
  exact absurd (List.mem_takeWhile_imp h) (by decide)

theorem Uses.skip {s rest : PyStr} (h : Uses (skipSpace s) rest) : Uses s rest :=
  (uses_skipSpace s).trans h

theorem endsLine_of_hex4 {a b c d : CodePoint} {n : Nat} (h : hex4 a b c d = some n) :
    endsLine a = false ∧ endsLine b = false ∧ endsLine c = false ∧ endsLine d = false := by
  have hhex : ∀ {p : CodePoint} {n : Nat}, hexValue p = some n → endsLine p = false := by
    intro p n hp
    rcases p with c | k
    · by_contra hc
      have hc : endsLine (scalar c) = true := by simpa using hc
      rcases (by simpa [endsLine] using hc : c = '\n' ∨ c = '\r') with rfl | rfl <;> cases hp
    · rfl
  simp only [hex4, bind, Option.bind_eq_some_iff] at h
  obtain ⟨_, ha, _, hb, _, hc, _, hd, -⟩ := h
  exact ⟨hhex ha, hhex hb, hhex hc, hhex hd⟩

theorem endsLine_of_escaped {q e : CodePoint} (h : escaped q = some e) : endsLine q = false := by
  unfold escaped at h
  split at h <;> first | rfl | cases h

theorem endsLine_of_not_isControl {p : CodePoint} (h : ¬ isControl p = true) :
    endsLine p = false := by
  rcases p with c | k
  · by_contra hc
    have hc : endsLine (scalar c) = true := by simpa using hc
    rcases (by simpa [endsLine] using hc : c = '\n' ∨ c = '\r') with rfl | rfl <;>
      exact h (by decide)
  · rfl

theorem map_eq_ok {ε α β : Type} {f : α → β} {x : Except ε α} {b : β} :
    x.map f = .ok b ↔ ∃ a, x = .ok a ∧ f a = b := by
  cases x <;> simp [Except.map]

/-- A string that ends on the line on which it begins. -/
def OneLine (s rest : PyStr) : Prop :=
  ∃ used, s = used ++ quotationMark :: rest ∧ ∀ p ∈ used, endsLine p = false

theorem OneLine.cons {p : CodePoint} {s rest : PyStr} (hp : endsLine p = false)
    (h : OneLine s rest) : OneLine (p :: s) rest := by
  obtain ⟨used, rfl, hu⟩ := h
  exact ⟨p :: used, rfl, List.forall_mem_cons.mpr ⟨hp, hu⟩⟩

theorem oneLine_scanPieces {s rest : PyStr} {ps : List Piece}
    (h : scanPieces s = .ok (ps, rest)) : OneLine s rest := by
  fun_induction scanPieces s generalizing ps with
  | case1 => cases h
  | case2 s =>
      cases h
      exact ⟨[], rfl, by simp⟩
  | case3 => cases h
  | case4 => cases h
  | case5 a b c d s n hn _ ih =>
      obtain ⟨r, hr, heq⟩ := map_eq_ok.mp h
      cases heq
      obtain ⟨ha, hb, hc, hd⟩ := endsLine_of_hex4 hn
      have hu : endsLine (scalar 'u') = false := by decide
      exact ((((ih hr).cons hd |>.cons hc).cons hb).cons ha).cons hu |>.cons (by decide)
  | case6 => cases h
  | case7 => cases h
  | case8 q s _ e he _ ih =>
      obtain ⟨r, hr, heq⟩ := map_eq_ok.mp h
      cases heq
      exact ((ih hr).cons (endsLine_of_escaped he)).cons (by decide)
  | case9 => cases h
  | case10 p s _ _ hp ih =>
      obtain ⟨r, hr, heq⟩ := map_eq_ok.mp h
      cases heq
      exact (ih hr).cons (endsLine_of_not_isControl hp)

theorem uses_scanString {s rest : PyStr} {v : PyStr} (h : scanString s = .ok (v, rest)) :
    Uses (quotationMark :: s) rest := by
  obtain ⟨r, hr, heq⟩ := map_eq_ok.mp h
  cases heq
  obtain ⟨used, rfl, hu⟩ := oneLine_scanPieces hr
  exact ⟨quotationMark :: used ++ [quotationMark], by simp, quoted_literal hu⟩

/-! ### Numbers and constants -/

theorem ne_backquote_of_isDigit {c : Char} (h : isDigit c = true) : scalar c ≠ backquote := by
  intro hc
  obtain rfl : c = '`' := by simpa [backquote] using hc
  exact absurd h (by decide)

theorem uses_spanDigits (s : PyStr) : Uses s (spanDigits s).2 := by
  induction s with
  | nil => exact Uses.refl []
  | cons p s ih =>
      rcases p with c | k
      · rw [spanDigits]
        split
        · rename_i hc
          exact ih.cons (ne_backquote_of_isDigit hc)
        · exact Uses.refl _
      · exact Uses.refl _

theorem uses_scanInteger {s rest : PyStr} {ds : List Char} (h : scanInteger s = some (ds, rest)) :
    Uses s rest := by
  unfold scanInteger at h
  split at h
  · rename_i c s
    split at h
    · rename_i hc
      cases h
      exact (Uses.refl _).cons (by rw [hc]; decide)
    · split at h
      · rename_i hc
        cases h
        exact (uses_spanDigits s).cons (ne_backquote_of_isDigit hc)
      · cases h
  · cases h

theorem uses_scanFraction (s : PyStr) : Uses s (scanFraction s).2 := by
  unfold scanFraction
  split
  · rename_i rest
    have hdigits := uses_spanDigits rest
    split
    · exact Uses.refl _
    · rename_i ds rest' hspan
      rw [hspan] at hdigits
      exact hdigits.cons (by decide)
  · exact Uses.refl _

theorem uses_scanSign (s : PyStr) : Uses s (scanSign s).2 := by
  unfold scanSign
  split
  · exact (Uses.refl _).cons (by decide)
  · exact (Uses.refl _).cons (by decide)
  · exact Uses.refl _

theorem uses_scanExponent (s : PyStr) : Uses s (scanExponent s).2 := by
  unfold scanExponent
  split
  · rename_i c rest
    split
    · rename_i hc
      have hdigits := (uses_scanSign rest).trans (uses_spanDigits (scanSign rest).2)
      split
      · exact Uses.refl _
      · rename_i ds rest' _ hspan
        rw [hspan] at hdigits
        refine hdigits.cons ?_
        rcases hc with rfl | rfl <;> decide
    · exact Uses.refl _
  · exact Uses.refl _

variable {py : Interpreter}

theorem uses_scanNumber {negative : Bool} {s rest : PyStr} {v : PyJson}
    (h : scanNumber py negative s = .ok (v, rest)) : Uses s rest := by
  unfold scanNumber at h
  split at h
  · cases h
  · rename_i ds t hi
    have ht : Uses s (scanExponent (scanFraction t).2).2 :=
      (uses_scanInteger hi).trans ((uses_scanFraction t).trans (uses_scanExponent _))
    dsimp only at h
    split at h
    · obtain ⟨i, -, heq⟩ := map_eq_ok.mp h
      cases heq
      exact ht
    · cases h
      exact ht

theorem uses_scanConstant {s rest : PyStr} {v : PyJson} (h : scanConstant s = some (v, rest)) :
    Uses s rest := by
  obtain ⟨c, hc, heq⟩ := List.exists_of_findSome?_eq_some h
  split at heq
  · rename_i hstarts
    cases heq
    obtain ⟨t, rfl⟩ := List.isPrefixOf_iff_prefix.mp hstarts
    have hnone : ∀ c ∈ constants, backquote ∉ PyStr.ofString c.1 := by
      simp only [constants, List.forall_mem_cons]
      decide
    have hlen : c.1.length = (PyStr.ofString c.1).length := by
      rw [PyStr.ofString, List.length_map, String.length_toList]
    rw [hlen, List.drop_left]
    exact uses_of_notMem (hnone c hc)
  · cases heq

theorem uses_scanAtom {s rest : PyStr} {v : PyJson} (h : scanAtom py s = .ok (v, rest)) :
    Uses s rest := by
  unfold scanAtom at h
  split at h
  · rename_i r hr
    cases h
    exact uses_scanConstant hr
  · split at h
    · exact (uses_scanNumber h).cons (by decide)
    · exact uses_scanNumber h

/-! ### Values -/

section

variable {scan : PyStr → Except LoadError (PyJson × PyStr)}

theorem uses_scanItems (hscan : ∀ s v rest, scan s = .ok (v, rest) → Uses s rest) {fuel : Nat}
    {s rest : PyStr} {vs : List PyJson} (h : scanItems scan fuel s = .ok (vs, rest)) :
    Uses s rest := by
  induction fuel generalizing s vs with
  | zero => cases h
  | succ fuel ih =>
      obtain ⟨⟨v, t⟩, hv, h⟩ := bind_eq_ok.mp h
      refine (hscan s v t hv).trans (Uses.skip ?_)
      dsimp only at h
      split at h
      · rename_i t' ht
        cases h
        rw [ht]
        exact (Uses.refl _).cons (by decide)
      · rename_i t' ht
        obtain ⟨r, hr, heq⟩ := map_eq_ok.mp h
        cases heq
        rw [ht]
        exact (Uses.skip (ih hr)).cons (by decide)
      · cases h

theorem uses_scanFields (hscan : ∀ s v rest, scan s = .ok (v, rest) → Uses s rest) {fuel : Nat}
    {s rest : PyStr} {kvs : List (PyStr × PyJson)}
    (h : scanFields scan fuel s = .ok (kvs, rest)) : Uses s rest := by
  induction fuel generalizing s kvs with
  | zero => cases h
  | succ fuel ih =>
      unfold scanFields at h
      split at h
      · rename_i fuel' s heq
        cases heq
        obtain ⟨⟨key, t⟩, hkey, h⟩ := bind_eq_ok.mp h
        refine (uses_scanString hkey).trans (Uses.skip ?_)
        dsimp only at h
        split at h
        · rename_i t₁ ht
          obtain ⟨⟨v, t₂⟩, hv, h⟩ := bind_eq_ok.mp h
          rw [ht]
          refine Uses.cons (by decide) (Uses.skip ((hscan _ v t₂ hv).trans (Uses.skip ?_)))
          dsimp only at h
          split at h
          · rename_i t' ht'
            cases h
            rw [ht']
            exact (Uses.refl _).cons (by decide)
          · rename_i t' ht'
            obtain ⟨r, hr, heq⟩ := map_eq_ok.mp h
            cases heq
            rw [ht']
            exact (Uses.skip (ih hr)).cons (by decide)
          · cases h
        · cases h
      · cases h

theorem uses_scanArray (hscan : ∀ s v rest, scan s = .ok (v, rest) → Uses s rest)
    {s rest : PyStr} {v : PyJson} (h : scanArray scan s = .ok (v, rest)) : Uses s rest := by
  refine Uses.skip ?_
  unfold scanArray at h
  split at h
  · rename_i t ht
    cases h
    rw [ht]
    exact (Uses.refl _).cons (by decide)
  · obtain ⟨r, hr, heq⟩ := map_eq_ok.mp h
    cases heq
    exact uses_scanItems hscan hr

theorem uses_scanObject (hscan : ∀ s v rest, scan s = .ok (v, rest) → Uses s rest)
    {s rest : PyStr} {v : PyJson} (h : scanObject scan s = .ok (v, rest)) : Uses s rest := by
  refine Uses.skip ?_
  unfold scanObject at h
  split at h
  · rename_i t ht
    cases h
    rw [ht]
    exact (Uses.refl _).cons (by decide)
  · obtain ⟨r, hr, heq⟩ := map_eq_ok.mp h
    cases heq
    exact uses_scanFields hscan hr

end

/-- A value is quoted text, at every depth. -/
theorem uses_scanValue {depth : Nat} {s rest : PyStr} {v : PyJson}
    (h : scanValue py depth s = .ok (v, rest)) : Uses s rest := by
  induction depth generalizing s rest v with
  | zero =>
      unfold scanValue at h
      split at h
      · obtain ⟨r, hr, heq⟩ := map_eq_ok.mp h
        cases heq
        exact uses_scanString hr
      · cases h
      · cases h
      · exact uses_scanAtom h
  | succ depth ih =>
      unfold scanValue at h
      split at h
      · obtain ⟨r, hr, heq⟩ := map_eq_ok.mp h
        cases heq
        exact uses_scanString hr
      · exact (uses_scanArray (fun _ _ _ => ih) h).cons (by decide)
      · exact (uses_scanObject (fun _ _ _ => ih) h).cons (by decide)
      · exact uses_scanAtom h

end Loads

open Loads in
/-- **Backquotes in a JSON text** stand in its strings, each of which is on one line. -/
theorem loads_quoted {py : Interpreter} {s : PyStr} {v : PyJson} (h : loads py s = .ok v) :
    Quoted s := by
  unfold loads at h
  split at h
  · cases h
  · obtain ⟨⟨v', rest⟩, hv, h⟩ := bind_eq_ok.mp h
    dsimp only at h
    split at h
    · rename_i hrest
      obtain ⟨used, rfl, hu⟩ := Uses.skip ((uses_scanValue hv).trans (uses_skipSpace rest))
      rw [hrest, List.append_nil]
      exact hu
    · cases h

end Konoha
