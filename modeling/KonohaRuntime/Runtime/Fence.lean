/-
Runtime/Fence.lean

Code fences in the text of a provider.  `_extract_single_fenced_block` looks at the first
line and at the end of the text, never for a second fence.  That there is none follows
from the grammar of JSON: no line of a JSON text begins with a backquote
(`Base.Quoted`), so the two lines of the fence are the only ones (`fenceLines_block`).

`accepted_text` collects what is accepted and what is not.
-/
import KonohaRuntime.Base.Quoted
import KonohaRuntime.Runtime.Result

namespace Konoha

open CodePoint

/-! ### Lines -/

/-- The lines of a text, without their ends; `\r\n` is two ends. -/
def lines (s : PyStr) : List PyStr := s.splitOnP endsLine

/-- The lines that begin with three backquotes. -/
def fenceLines (s : PyStr) : List PyStr := (lines s).filter fence.isPrefixOf

theorem lines_of_oneLine {s : PyStr} (h : ∀ p ∈ s, endsLine p = false) : lines s = [s] :=
  List.splitOnP_eq_singleton h

theorem lines_append {e : CodePoint} (he : endsLine e = true) (s t : PyStr) :
    lines (s ++ e :: t) = lines s ++ lines t :=
  List.splitOnP_append_cons s t he

theorem fenceLines_append {e : CodePoint} (he : endsLine e = true) (s t : PyStr) :
    fenceLines (s ++ e :: t) = fenceLines s ++ fenceLines t := by
  rw [fenceLines, lines_append he, List.filter_append]
  rfl

/-- A text is one line, or a line and the rest. -/
theorem first_line (s : PyStr) :
    (∀ p ∈ s, endsLine p = false) ∨
      ∃ x e y, s = x ++ e :: y ∧ endsLine e = true ∧ ∀ p ∈ x, endsLine p = false := by
  induction s with
  | nil => exact .inl (by simp)
  | cons p s ih =>
      by_cases hp : endsLine p = true
      · exact .inr ⟨[], p, s, rfl, hp, by simp⟩
      · have hp : endsLine p = false := by simpa using hp
        rcases ih with h | ⟨x, e, y, rfl, he, hx⟩
        · exact .inl (List.forall_mem_cons.mpr ⟨hp, h⟩)
        · exact .inr ⟨p :: x, e, y, rfl, he, List.forall_mem_cons.mpr ⟨hp, hx⟩⟩

/-- Where the lines of a text are in it. -/
theorem mem_lines {s line : PyStr} (h : line ∈ lines s) :
    ∃ a b, s = a ++ line ++ b ∧ (a = [] ∨ ∃ a' e, a = a' ++ [e] ∧ endsLine e = true) ∧
      (b = [] ∨ ∃ e b', b = e :: b' ∧ endsLine e = true) := by
  induction hn : s.length using Nat.strong_induction_on generalizing s with
  | _ n ih =>
      rcases first_line s with hs | ⟨x, e, y, rfl, he, hx⟩
      · rw [lines_of_oneLine hs, List.mem_singleton] at h
        exact ⟨[], [], by simp [h], .inl rfl, .inl rfl⟩
      · rw [lines_append he, lines_of_oneLine hx, List.singleton_append, List.mem_cons] at h
        rcases h with rfl | h
        · exact ⟨[], e :: y, by simp, .inl rfl, .inr ⟨e, y, rfl, he⟩⟩
        · have hlen : y.length < n := by
            rw [← hn, List.length_append, List.length_cons]
            omega
          obtain ⟨a, b, rfl, ha, hb⟩ := ih _ hlen h rfl
          refine ⟨x ++ e :: a, b, by simp, .inr ?_, hb⟩
          rcases ha with rfl | ⟨a', e', rfl, he'⟩
          · exact ⟨x, e, by simp, he⟩
          · exact ⟨x ++ e :: a', e', by simp, he'⟩

/-! ### Fence lines -/

theorem isPrefixOf_fence (s : PyStr) : fence.isPrefixOf (fence ++ s) = true :=
  List.isPrefixOf_iff_prefix.mpr (List.prefix_append fence s)

theorem fence_oneLine : ∀ p ∈ fence, endsLine p = false := by decide

theorem fenceLines_of_oneLine {s : PyStr} (h : ∀ p ∈ s, endsLine p = false) :
    fenceLines (fence ++ s) = [fence ++ s] := by
  have hs : ∀ p ∈ fence ++ s, endsLine p = false :=
    List.forall_mem_append.mpr ⟨fence_oneLine, h⟩
  rw [fenceLines, lines_of_oneLine hs, List.filter_cons_of_pos (isPrefixOf_fence s)]
  rfl

/-- The first line of a text that begins with a fence is a fence line. -/
theorem fenceLines_cons (s : PyStr) :
    ∃ x rest, fenceLines (fence ++ s) = (fence ++ x) :: rest ∧ ∀ p ∈ x, endsLine p = false := by
  rcases first_line s with h | ⟨x, e, y, rfl, he, hx⟩
  · exact ⟨s, [], fenceLines_of_oneLine h, h⟩
  · refine ⟨x, fenceLines y, ?_, hx⟩
    rw [← List.append_assoc, fenceLines_append he, fenceLines_of_oneLine hx]
    rfl

/-- A JSON text has no fence line. -/
theorem Quoted.fenceLines {s : PyStr} (h : Quoted s) : fenceLines s = [] := by
  refine List.filter_eq_nil_iff.mpr fun line hline hfence => ?_
  obtain ⟨rest, rfl⟩ := List.isPrefixOf_iff_prefix.mp hfence
  obtain ⟨a, b, rfl, ha, -⟩ := mem_lines hline
  obtain ⟨⟨a', p, ha', hp⟩, -⟩ := h a _ (List.append_assoc _ _ _)
  rcases ha with rfl | ⟨a'', e, rfl, he⟩
  · exact absurd ha' (by simp)
  · obtain rfl : e = p := by simpa using List.append_inj_right' ha' rfl
    rw [hp] at he
    cases he

/-! ### Blocks -/

/-- What may follow the backquotes of an opening line. -/
def markers : List PyStr := [[], PyStr.ofString "json"]

/-- `\n` and `\r\n` -/
def lineEnds : List PyStr := [[scalar '\n'], [scalar '\r', scalar '\n']]

/-- `s` is one code fence around `body`. -/
inductive Block : PyStr → PyStr → Prop
  | mk (body : PyStr) {marker eol eol' : PyStr} (hm : marker ∈ markers) (he : eol ∈ lineEnds)
      (he' : eol' ∈ lineEnds) : Block (fence ++ marker ++ eol ++ body ++ eol' ++ fence) body

/-- `s` is one code fence around `body`; its last line end is taken as long as it can be. -/
def Encloses (s body : PyStr) : Prop :=
  ∃ marker ∈ markers, ∃ eol ∈ lineEnds, ∃ eol' ∈ lineEnds,
    s = fence ++ marker ++ eol ++ body ++ eol' ++ fence ∧
      (eol' = [scalar '\n'] → ¬ [scalar '\r'] <:+ body)

theorem Encloses.block {s body : PyStr} (h : Encloses s body) : Block s body := by
  obtain ⟨_, hm, _, he, _, he', rfl, -⟩ := h
  exact .mk body hm he he'

theorem marker_oneLine : ∀ marker ∈ markers, ∀ p ∈ marker, endsLine p = false := by decide

theorem marker_notMem : ∀ marker ∈ markers, quotationMark ∉ marker := by decide

/-- The lines on both sides of a line end. -/
theorem fenceLines_eol {eol : PyStr} (h : eol ∈ lineEnds) (s t : PyStr) :
    fenceLines (s ++ eol ++ t) = fenceLines s ++ fenceLines t := by
  have hn : endsLine (scalar '\n') = true := by decide
  have hr : endsLine (scalar '\r') = true := by decide
  rcases (by simpa [lineEnds] using h : eol = _ ∨ eol = _) with rfl | rfl
  · rw [List.append_assoc]
    exact fenceLines_append hn s t
  · rw [List.append_assoc]
    show fenceLines (s ++ scalar '\r' :: ([] ++ scalar '\n' :: t)) = _
    rw [fenceLines_append hr, fenceLines_append hn]
    rfl

/-- **The fence lines of a block** are its opening line, those of the body, and its closing
line. -/
theorem fenceLines_block {marker eol eol' : PyStr} (hm : marker ∈ markers) (he : eol ∈ lineEnds)
    (he' : eol' ∈ lineEnds) (body t : PyStr) :
    fenceLines (fence ++ marker ++ eol ++ body ++ eol' ++ t) =
      (fence ++ marker) :: (fenceLines body ++ fenceLines t) := by
  rw [fenceLines_eol he', fenceLines_eol he, fenceLines_of_oneLine (marker_oneLine marker hm)]
  rfl

/-! ### What is extracted -/

theorem dropSuffix?_eq_some_iff {suffix s t : PyStr} :
    dropSuffix? suffix s = some t ↔ s = t ++ suffix := by
  unfold dropSuffix?
  constructor
  · intro h
    split at h
    · rename_i hs
      obtain ⟨u, rfl⟩ := List.isSuffixOf_iff_suffix.mp hs
      rw [List.length_append, Nat.add_sub_cancel, List.take_left] at h
      rw [Option.some.inj h]
    · cases h
  · rintro rfl
    rw [if_pos (List.isSuffixOf_iff_suffix.mpr (List.suffix_append t suffix)), List.length_append,
      Nat.add_sub_cancel, List.take_left]

theorem afterFenceHeader_eq_some {s rest : PyStr} (h : afterFenceHeader s = some rest) :
    ∃ marker ∈ markers, ∃ eol ∈ lineEnds, s = fence ++ marker ++ eol ++ rest := by
  unfold afterFenceHeader at h
  split at h
  · rename_i hfence
    obtain ⟨t, rfl⟩ := List.isPrefixOf_iff_prefix.mp hfence
    have hdrop : (fence ++ t).drop fence.length = t := List.drop_left
    change (fence ++ t).drop 3 = t at hdrop
    rw [hdrop] at h
    dsimp only at h
    obtain ⟨marker, u, hm, rfl, hu⟩ : ∃ marker u, marker ∈ markers ∧ t = marker ++ u ∧
        (if (PyStr.ofString "json").isPrefixOf t then t.drop 4 else t) = u := by
      by_cases hj : (PyStr.ofString "json").isPrefixOf t = true
      · obtain ⟨u, rfl⟩ := List.isPrefixOf_iff_prefix.mp hj
        rw [if_pos hj]
        have hjson : (PyStr.ofString "json" ++ u).drop (PyStr.ofString "json").length = u :=
          List.drop_left
        exact ⟨_, u, by decide, rfl, hjson⟩
      · rw [if_neg hj]
        exact ⟨[], t, by decide, rfl, rfl⟩
    rw [hu] at h
    split at h
    · cases h
      exact ⟨marker, hm, [scalar '\r', scalar '\n'], by decide, by simp⟩
    · cases h
      exact ⟨marker, hm, [scalar '\n'], by decide, by simp⟩
    · cases h
  · cases h

theorem afterFenceHeader_block {marker eol : PyStr} (hm : marker ∈ markers) (he : eol ∈ lineEnds)
    (rest : PyStr) : afterFenceHeader (fence ++ marker ++ eol ++ rest) = some rest := by
  unfold afterFenceHeader
  rw [List.append_assoc, List.append_assoc, if_pos (isPrefixOf_fence _)]
  have hdrop : (fence ++ (marker ++ (eol ++ rest))).drop fence.length = marker ++ (eol ++ rest) :=
    List.drop_left
  change (fence ++ (marker ++ (eol ++ rest))).drop 3 = marker ++ (eol ++ rest) at hdrop
  rw [hdrop]
  simp only [markers, lineEnds, List.mem_cons, List.not_mem_nil, or_false] at hm he
  rcases hm with rfl | rfl <;> rcases he with rfl | rfl <;> rfl

theorem encloses_of_extract {s body : PyStr} (h : extractSingleFencedBlock s = .ok body) :
    Encloses s body := by
  unfold extractSingleFencedBlock at h
  split at h
  · cases h
  · rename_i rest hrest
    obtain ⟨marker, hm, eol, he, rfl⟩ := afterFenceHeader_eq_some hrest
    refine ⟨marker, hm, eol, he, ?_⟩
    split at h
    · cases h
    · rename_i inner hinner
      obtain rfl := dropSuffix?_eq_some_iff.mp hinner
      split at h
      · rename_i hb
        cases h
        obtain rfl := dropSuffix?_eq_some_iff.mp hb
        exact ⟨[scalar '\r', scalar '\n'], by decide, by simp only [List.append_assoc], by simp⟩
      · rename_i hnone
        split at h
        · rename_i hb
          cases h
          obtain rfl := dropSuffix?_eq_some_iff.mp hb
          refine ⟨[scalar '\n'], by decide, by simp only [List.append_assoc], fun _ => ?_⟩
          rintro ⟨t, rfl⟩
          have hsome : dropSuffix? [scalar '\r', scalar '\n'] (t ++ [scalar '\r'] ++ [scalar '\n']) =
              some t := dropSuffix?_eq_some_iff.mpr (by simp)
          rw [hsome] at hnone
          cases hnone
        · cases h

/-- The body of a block; a line end is taken as long as it can be. -/
theorem extract_block {body marker eol eol' : PyStr} (hm : marker ∈ markers) (he : eol ∈ lineEnds)
    (he' : eol' ∈ lineEnds)
    (hbody : eol' = [scalar '\n'] → ¬ [scalar '\r'] <:+ body) :
    extractSingleFencedBlock (fence ++ marker ++ eol ++ body ++ eol' ++ fence) = .ok body := by
  have hclose : dropSuffix? fence (body ++ eol' ++ fence) = some (body ++ eol') :=
    dropSuffix?_eq_some_iff.mpr rfl
  unfold extractSingleFencedBlock
  rw [List.append_assoc (fence ++ marker ++ eol ++ body), List.append_assoc (fence ++ marker ++ eol),
    afterFenceHeader_block hm he, ← List.append_assoc]
  dsimp only
  rw [hclose]
  dsimp only
  simp only [lineEnds, List.mem_cons, List.not_mem_nil, or_false] at he'
  rcases he' with rfl | rfl
  · have hn : dropSuffix? [scalar '\r', scalar '\n'] (body ++ [scalar '\n']) = none := by
      rw [← Option.not_isSome_iff_eq_none, Option.isSome_iff_exists]
      rintro ⟨t, ht⟩
      have ht : body ++ [scalar '\n'] = (t ++ [scalar '\r']) ++ [scalar '\n'] := by
        rw [dropSuffix?_eq_some_iff.mp ht]
        simp
      exact hbody rfl ⟨t, (List.append_inj_left' ht rfl).symm⟩
    rw [hn]
    dsimp only
    rw [dropSuffix?_eq_some_iff.mpr rfl]
  · rw [dropSuffix?_eq_some_iff.mpr rfl]

/-- **What is extracted.** -/
theorem extract_eq_ok_iff {s body : PyStr} :
    extractSingleFencedBlock s = .ok body ↔ Encloses s body := by
  constructor
  · exact encloses_of_extract
  · rintro ⟨marker, hm, eol, he, eol', he', rfl, hbody⟩
    exact extract_block hm he he' hbody

theorem Block.fenced {s body : PyStr} (h : Block s body) : fence <+: s := by
  cases h
  simp only [List.append_assoc]
  exact List.prefix_append _ _

/-- The text carries a JSON value: it is its JSON text, up to outer space, or a fence around
it. -/
def Carries (it : Interpreter) (text : PyStr) (v : PyJson) : Prop :=
  (∃ body, Encloses text.strip body ∧ loads it body = .ok v) ∨
    (¬ fence <+: text.strip ∧ loads it text.strip = .ok v)

section

variable {it : Interpreter} {text body : PyStr} {v : PyJson}

theorem loadsOrRaise_eq_ok_iff : loadsOrRaise it body = .ok v ↔ loads it body = .ok v := by
  unfold loadsOrRaise
  cases loads it body <;> simp [Except.mapError]

/-- A text that is accepted is one that carries a value. -/
theorem parse_eq_ok_iff : parseAssignmentResultText it text = .ok v ↔ Carries it text v := by
  have hstarts : fence.isPrefixOf text.strip = true ↔ fence <+: text.strip :=
    List.isPrefixOf_iff_prefix
  unfold parseAssignmentResultText
  dsimp only
  constructor
  · intro h
    split at h
    · obtain ⟨body, hbody, h⟩ := bind_eq_ok.mp h
      exact .inl ⟨body, extract_eq_ok_iff.mp hbody, loadsOrRaise_eq_ok_iff.mp h⟩
    · rename_i hf
      exact .inr ⟨fun hp => hf (hstarts.mpr hp), loadsOrRaise_eq_ok_iff.mp h⟩
  · rintro (⟨body, hbody, hload⟩ | ⟨hf, hload⟩)
    · rw [if_pos (hstarts.mpr hbody.block.fenced)]
      exact bind_eq_ok.mpr ⟨body, extract_eq_ok_iff.mpr hbody, loadsOrRaise_eq_ok_iff.mpr hload⟩
    · rw [if_neg fun hp => hf (hstarts.mp hp)]
      exact loadsOrRaise_eq_ok_iff.mpr hload

/-! ### A fence inside -/

/-- In a JSON text no line ends in a fence and a marker. -/
theorem Quoted.not_opening {s a b marker : PyStr} {e : CodePoint} (h : Quoted s)
    (hm : marker ∈ markers) (he : endsLine e = true) (hs : s = a ++ fence ++ marker ++ e :: b) :
    False := by
  obtain ⟨-, c, d, hcd, hc⟩ := h a (backquote :: backquote :: marker ++ e :: b) (by
    rw [hs]
    simp [fence, backquote, PyStr.ofString])
  have hmark : quotationMark ∉ backquote :: backquote :: marker := by
    simpa [quotationMark, backquote] using marker_notMem marker hm
  rcases List.append_eq_append_iff.mp hcd with ⟨x, rfl, hx⟩ | ⟨x, hx, hx'⟩
  · -- the line would end before its quotation mark
    cases x with
    | nil =>
        obtain ⟨rfl, -⟩ := List.cons.inj hx
        exact absurd he (by decide)
    | cons y x =>
        obtain ⟨rfl, -⟩ := List.cons.inj hx
        exact absurd (hc e (by simp)) (by simp [he])
  · cases x with
    | nil =>
        obtain ⟨rfl, -⟩ := List.cons.inj hx'
        exact absurd he (by decide)
    | cons y x =>
        obtain ⟨rfl, -⟩ := List.cons.inj hx'
        exact hmark (hx ▸ by simp)

theorem quoted_lineEnd {eol : PyStr} (h : eol ∈ lineEnds) : Quoted eol := by
  have hnone : ∀ eol ∈ lineEnds, backquote ∉ eol := by decide
  exact quoted_of_notMem (hnone eol h)

theorem lineEnd_cons {eol : PyStr} (h : eol ∈ lineEnds) :
    ∃ e t, eol = e :: t ∧ endsLine e = true := by
  rcases (by simpa [lineEnds] using h : eol = _ ∨ eol = _) with rfl | rfl
  · exact ⟨_, _, rfl, by decide⟩
  · exact ⟨_, _, rfl, by decide⟩

theorem lineEnd_concat {eol : PyStr} (h : eol ∈ lineEnds) :
    ∃ t e, eol = t ++ [e] ∧ endsLine e = true := by
  rcases (by simpa [lineEnds] using h : eol = _ ∨ eol = _) with rfl | rfl
  · exact ⟨[], _, rfl, by decide⟩
  · exact ⟨[scalar '\r'], _, rfl, by decide⟩

theorem oneLine_unique {x y s t : PyStr} {e e' : CodePoint} (hx : ∀ p ∈ x, endsLine p = false)
    (hy : ∀ p ∈ y, endsLine p = false) (he : endsLine e = true) (he' : endsLine e' = true)
    (h : x ++ e :: s = y ++ e' :: t) : x = y := by
  have hlines := congrArg lines h
  rw [lines_append he, lines_append he', lines_of_oneLine hx, lines_of_oneLine hy] at hlines
  exact (List.cons.inj hlines).1

/-- Behind its opening line a block around a JSON text has no opening line. -/
theorem Quoted.not_opening_tail {s a rest marker : PyStr} {e : CodePoint} (h : Quoted s)
    (hm : marker ∈ markers) (he : endsLine e = true)
    (hs : s ++ fence = a ++ fence ++ marker ++ e :: rest) : False := by
  rcases List.append_eq_append_iff.mp hs with ⟨c, hc, hfence⟩ | ⟨c, rfl, hc⟩
  · exact absurd (fence_oneLine e (hfence ▸ by simp)) (by simp [he])
  · cases c with
    | nil =>
        obtain ⟨rfl, -⟩ := List.cons.inj hc
        exact absurd he (by decide)
    | cons q c =>
        obtain ⟨rfl, -⟩ := List.cons.inj hc
        exact h.not_opening hm he rfl

/-- An opening line in an accepted block is its first line. -/
theorem before_eq_nil {before marker marker₀ eol₀ body₀ eol₀' rest : PyStr} {e : CodePoint}
    (hbody : Quoted body₀) (hm₀ : marker₀ ∈ markers) (he₀ : eol₀ ∈ lineEnds)
    (he₀' : eol₀' ∈ lineEnds) (hm : marker ∈ markers) (he : endsLine e = true)
    (h : fence ++ marker₀ ++ eol₀ ++ body₀ ++ eol₀' ++ fence =
      before ++ fence ++ marker ++ e :: rest) : before = [] := by
  have htail : Quoted (eol₀ ++ body₀ ++ eol₀') :=
    ((quoted_lineEnd he₀).append hbody).append (quoted_lineEnd he₀')
  have h' : (fence ++ marker₀) ++ ((eol₀ ++ body₀ ++ eol₀') ++ fence) =
      before ++ (fence ++ marker ++ e :: rest) := by
    simpa only [List.append_assoc] using h
  rcases List.append_eq_append_iff.mp h' with ⟨u, rfl, hu⟩ | ⟨c, hc, hrest⟩
  · have hopen : (eol₀ ++ body₀ ++ eol₀') ++ fence = u ++ fence ++ marker ++ e :: rest := by
      rw [hu]
      simp only [List.append_assoc]
    exact (htail.not_opening_tail hm he hopen).elim
  · -- what `before` leaves of the first line is the opening line
    obtain ⟨e₀, t, rfl, hend⟩ := lineEnd_cons he₀
    have hopening : ∀ p ∈ fence ++ marker₀, endsLine p = false :=
      List.forall_mem_append.mpr ⟨fence_oneLine, marker_oneLine marker₀ hm₀⟩
    have hc' : ∀ p ∈ c, endsLine p = false := fun p hp =>
      hopening p (hc ▸ List.mem_append_right before hp)
    have hc'' : fence ++ marker = c := by
      refine oneLine_unique (s := rest) (t := t ++ body₀ ++ eol₀' ++ fence)
        (List.forall_mem_append.mpr ⟨fence_oneLine, marker_oneLine marker hm⟩) hc' he hend ?_
      rw [hrest]
      simp
    rw [← hc''] at hc
    have hlen := congrArg List.length hc
    simp only [markers, List.mem_cons, List.not_mem_nil, or_false] at hm hm₀
    rcases hm₀ with rfl | rfl <;> rcases hm with rfl | rfl
    · exact List.eq_nil_of_length_eq_zero (by simpa [fence, PyStr.ofString] using hlen)
    · exact absurd hlen (by simp [fence, PyStr.ofString])
    · -- `json` does not end in backquotes
      have hlast := congrArg List.getLast? hc
      rw [List.append_nil, List.getLast?_append_of_ne_nil _ (by decide),
        List.getLast?_append_of_ne_nil _ (by decide)] at hlast
      exact absurd hlast (by decide)
    · exact List.eq_nil_of_length_eq_zero (by simpa [fence, PyStr.ofString] using hlen)

/-- A text that ends in a line of backquotes has a fence line after any line end. -/
theorem fenceLines_ne_nil {s t y : PyStr} {e e' : CodePoint} (he : endsLine e = true)
    (he' : endsLine e' = true) (h : s ++ e' :: y = t ++ e :: fence) : fenceLines y ≠ [] := by
  have hfence : fenceLines fence ≠ [] := by decide
  rcases List.append_eq_append_iff.mp h with ⟨u, -, hu⟩ | ⟨u, -, hu⟩
  · cases u with
    | nil =>
        obtain ⟨-, rfl⟩ := List.cons.inj hu
        exact hfence
    | cons q u =>
        obtain ⟨-, hu⟩ := List.cons.inj hu
        rw [show y = u ++ e :: fence from hu, fenceLines_append he]
        exact fun hnil => hfence (List.append_eq_nil_iff.mp hnil).2
  · cases u with
    | nil =>
        obtain ⟨-, rfl⟩ := List.cons.inj hu
        exact hfence
    | cons q u =>
        obtain ⟨-, hu⟩ := List.cons.inj hu
        exact absurd (fence_oneLine e' (hu ▸ by simp)) (by simp [he'])

/-- Nothing follows the second of two fence lines, in a text that ends in a fence line. -/
theorem after_eq_nil {s t after : PyStr} {e : CodePoint} (he : endsLine e = true)
    (hfences : fenceLines (fence ++ after) = [fence])
    (h : s ++ fence ++ after = t ++ e :: fence) : after = [] := by
  rcases first_line after with hone | ⟨x, e', y, rfl, he', hx⟩
  · rw [fenceLines_of_oneLine hone] at hfences
    simpa using hfences
  · rw [← List.append_assoc, fenceLines_append he', fenceLines_of_oneLine hx] at hfences
    have hy : fenceLines y ≠ [] :=
      fenceLines_ne_nil (s := s ++ fence ++ x) (t := t) he he' (by rw [← h]; simp)
    exact absurd (List.cons.inj hfences).2 hy

/-! ### What is accepted -/

/-- **A complete fence in an accepted text** is the whole of it. -/
theorem block_is_whole {before block inner after : PyStr}
    (h : parseAssignmentResultText it text = .ok v) (hb : Block block inner)
    (htext : text.strip = before ++ block ++ after) : before = [] ∧ after = [] := by
  obtain @⟨_, marker, eol, eol', hm, he, he'⟩ := hb
  obtain ⟨e, t, rfl, hend⟩ := lineEnd_cons he
  have hsplit : text.strip = before ++ fence ++ marker ++
      e :: (t ++ inner ++ eol' ++ fence ++ after) := by
    rw [htext]
    simp only [List.append_assoc, List.cons_append]
  rcases parse_eq_ok_iff.mp h with ⟨body₀, hbody₀, hload⟩ | ⟨-, hload⟩
  · have hquoted := loads_quoted hload
    generalize hstripped : text.strip = stripped at *
    obtain ⟨marker₀, hm₀, eol₀, he₀, eol₀', he₀', rfl, -⟩ := hbody₀
    obtain rfl : before = [] := before_eq_nil hquoted hm₀ he₀ he₀' hm hend hsplit
    refine ⟨rfl, ?_⟩
    have hfences := fenceLines_block hm₀ he₀ he₀' body₀ fence
    rw [htext, List.nil_append, List.append_assoc, fenceLines_block hm he he', hquoted.fenceLines]
      at hfences
    obtain ⟨x, rest, hcons, -⟩ := fenceLines_cons after
    obtain ⟨hinner, hafter⟩ : fenceLines inner = [] ∧ fenceLines (fence ++ after) = [fence] := by
      have htail := (List.cons.inj hfences).2
      have hone : fenceLines fence = [fence] := by decide
      rw [List.nil_append, hone, hcons] at htail
      rcases hi : fenceLines inner with - | ⟨l, ls⟩
      · rw [hi, List.nil_append] at htail
        exact ⟨rfl, hcons.trans htail⟩
      · rw [hi] at htail
        exact absurd (List.cons.inj htail).2 (by simp)
    obtain ⟨t', e', rfl, hend'⟩ := lineEnd_concat he₀'
    refine after_eq_nil (s := fence ++ marker ++ e :: t ++ inner ++ eol')
      (t := fence ++ marker₀ ++ eol₀ ++ body₀ ++ t') hend' hafter ?_
    simpa only [List.append_assoc, List.nil_append, List.cons_append] using htext.symm
  · exact ((loads_quoted hload).not_opening hm hend hsplit).elim

theorem parse_bare (h : loads it text.strip = .ok v) : parseAssignmentResultText it text = .ok v := by
  refine parse_eq_ok_iff.mpr (.inr ⟨?_, h⟩)
  rintro ⟨t, ht⟩
  -- a JSON text does not begin with a backquote
  obtain ⟨⟨a', p, ha, -⟩, -⟩ := loads_quoted h [] (backquote :: backquote :: t) ht.symm
  exact absurd ha (by simp)

end

/-! ### Strings with backquotes -/

/-- A code point that stands for itself in a JSON string. -/
def isPlain (p : CodePoint) : Bool := p ≠ quotationMark ∧ p ≠ scalar '\\' ∧ ¬ Loads.isControl p

/-- The literal of a string. -/
def literal (s : PyStr) : PyStr := quotationMark :: s ++ [quotationMark]

open Loads in
theorem scanPieces_plain {s : PyStr} (h : ∀ p ∈ s, isPlain p = true) (rest : PyStr) :
    scanPieces (s ++ quotationMark :: rest) = .ok (s.map .point, rest) := by
  induction s with
  | nil =>
      rw [List.nil_append, scanPieces.eq_def]
      exact if_pos rfl
  | cons p s ih =>
      obtain ⟨hp, hs⟩ := List.forall_mem_cons.mp h
      obtain ⟨hmark, hslash, hcontrol⟩ : p ≠ scalar '"' ∧ p ≠ scalar '\\' ∧
          ¬ isControl p = true := by
        simpa [isPlain, quotationMark] using hp
      rw [List.cons_append, scanPieces.eq_def]
      dsimp only
      rw [if_neg hmark, if_neg hslash, if_neg hcontrol, ih hs]
      rfl

open Loads in
theorem join_points (s : PyStr) : join (s.map .point) = s := by
  induction s with
  | nil => rfl
  | cons p s ih =>
      rw [List.map_cons, join, joinAfter]
      exact congrArg (p :: ·) ih

open Loads in
theorem loads_literal {it : Interpreter} {s : PyStr} (h : ∀ p ∈ s, isPlain p = true) :
    loads it (literal s) = .ok (.str s) := by
  have hscan : scanString (s ++ [quotationMark]) = .ok (s, []) := by
    rw [scanString, scanPieces_plain h []]
    exact congrArg (fun x => Except.ok (x, ([] : PyStr))) (join_points s)
  have hvalue : ∀ depth, scanValue it depth (literal s) = .ok (.str s, []) := by
    intro depth
    cases depth <;>
      exact congrArg (Except.map fun r : PyStr × PyStr => (PyJson.str r.1, r.2)) hscan
  unfold loads
  split
  · next heq => cases heq
  · rw [show skipSpace (literal s) = literal s from rfl, hvalue]
    rfl

/-! ### The rule -/

/-- **What `_parse_assignment_result_text` accepts.**

* A text that begins with a fence has two fence lines, its first and its last, and its value
  is that of the JSON text between them; any other text is a JSON text itself.
* A complete fence with anything before or after it is refused, and so is a fence that the
  text does not close.
* A JSON text is accepted, bare or in a fence; and a string may have backquotes in it. -/
theorem accepted_text (it : Interpreter) :
    (∀ text v, parseAssignmentResultText it text = .ok v →
      (fence <+: text.strip → ∃ marker ∈ markers, ∃ eol ∈ lineEnds, ∃ body, ∃ eol' ∈ lineEnds,
        text.strip = fence ++ marker ++ eol ++ body ++ eol' ++ fence ∧
          fenceLines text.strip = [fence ++ marker, fence] ∧ loads it body = .ok v) ∧
        (¬ fence <+: text.strip → loads it text.strip = .ok v)) ∧
    (∀ text before block inner after, Block block inner → text.strip = before ++ block ++ after →
      before ≠ [] ∨ after ≠ [] → ∃ e, parseAssignmentResultText it text = .error e) ∧
    (∀ text, fence <+: text.strip → (¬ ∃ s, ∃ eol ∈ lineEnds, text.strip = s ++ eol ++ fence) →
      ∃ e, parseAssignmentResultText it text = .error e) ∧
    (∀ text v, loads it text.strip = .ok v → parseAssignmentResultText it text = .ok v) ∧
    (∀ text body v, Block text.strip body → ¬ [scalar '\r'] <:+ body → loads it body = .ok v →
      parseAssignmentResultText it text = .ok v) ∧
    ∀ s, (∀ p ∈ s, isPlain p = true) →
      ∀ text : PyStr, text.strip = literal s ∨ Block text.strip (literal s) →
        parseAssignmentResultText it text = .ok (.str s) := by
  have hblock : ∀ text body v, Block text.strip body → ¬ [scalar '\r'] <:+ body →
      loads it body = .ok v → parseAssignmentResultText it text = .ok v := by
    intro text body v hb hbody hload
    refine parse_eq_ok_iff.mpr (.inl ⟨body, ?_, hload⟩)
    generalize text.strip = stripped at hb
    obtain @⟨_, marker, eol, eol', hm, he, he'⟩ := hb
    exact ⟨marker, hm, eol, he, eol', he', rfl, fun _ => hbody⟩
  have hrefused : ∀ text : PyStr, (∀ v, ¬ parseAssignmentResultText it text = .ok v) →
      ∃ e, parseAssignmentResultText it text = .error e := by
    intro text hnone
    rcases h : parseAssignmentResultText it text with e | v
    · exact ⟨e, rfl⟩
    · exact absurd h (hnone v)
  refine ⟨?_, ?_, ?_, fun _ _ => parse_bare, hblock, ?_⟩
  · intro text v h
    rcases parse_eq_ok_iff.mp h with ⟨body, hb, hload⟩ | ⟨hf, hload⟩
    · refine ⟨fun _ => ?_, fun hf => absurd hb.block.fenced hf⟩
      generalize text.strip = stripped at hb
      obtain ⟨marker, hm, eol, he, eol', he', rfl, -⟩ := hb
      refine ⟨marker, hm, eol, he, body, eol', he', rfl, ?_, hload⟩
      rw [fenceLines_block hm he he', (loads_quoted hload).fenceLines]
      rfl
    · exact ⟨fun hf' => absurd hf' hf, fun _ => hload⟩
  · intro text before block inner after hb htext hmore
    refine hrefused text fun v h => ?_
    obtain ⟨rfl, rfl⟩ := block_is_whole h hb htext
    simp at hmore
  · intro text hf hopen
    refine hrefused text fun v h => ?_
    rcases parse_eq_ok_iff.mp h with ⟨body, hb, -⟩ | ⟨hf', -⟩
    · generalize text.strip = stripped at hb hopen
      obtain ⟨marker, hm, eol, he, eol', he', rfl, -⟩ := hb
      exact hopen ⟨_, eol', he', rfl⟩
    · exact hf' hf
  · rintro s hs text (htext | htext)
    · exact parse_bare (htext ▸ loads_literal hs)
    · refine hblock text _ _ htext ?_ (loads_literal hs)
      rintro ⟨t, ht⟩
      have ht : t ++ [.scalar '\r'] = (quotationMark :: s) ++ [quotationMark] := ht
      exact absurd (List.append_inj_right' ht rfl) (by decide)

end Konoha
