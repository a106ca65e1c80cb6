/-
Base/Strip.lean

What `str.strip` leaves of a text: all but the whitespace in front and behind.
-/
import KonohaRuntime.Base.Text

namespace Konoha

theorem stripChars_parts (cs : List Char) : ∃ a b, cs = a ++ stripChars cs ++ b ∧
    (∀ c ∈ a, isPySpace c = true) ∧ ∀ c ∈ b, isPySpace c = true := by
  refine ⟨cs.takeWhile isPySpace, (cs.dropWhile isPySpace).rtakeWhile isPySpace, ?_,
    fun c hc => List.mem_takeWhile_imp hc, fun c hc => List.mem_rtakeWhile_imp hc⟩
  rw [stripChars, List.append_assoc, List.rdropWhile_append_rtakeWhile,
    List.takeWhile_append_dropWhile]

theorem dropWhile_space {ws : List Char} (hws : ∀ c ∈ ws, isPySpace c = true) (cs : List Char) :
    (ws ++ cs).dropWhile isPySpace = cs.dropWhile isPySpace := by
  induction ws with
  | nil => rfl
  | cons c ws ih =>
      rw [List.cons_append, List.dropWhile_cons_of_pos (hws c List.mem_cons_self),
        ih fun d hd => hws d (List.mem_cons_of_mem _ hd)]

/-- Whitespace in front is stripped. -/
theorem stripChars_prepend {ws : List Char} (hws : ∀ c ∈ ws, isPySpace c = true) (cs : List Char) :
    stripChars (ws ++ cs) = stripChars cs := by
  rw [stripChars, dropWhile_space hws, stripChars]

/-- Whitespace behind is stripped. -/
theorem stripChars_append {ws : List Char} (hws : ∀ c ∈ ws, isPySpace c = true) (cs : List Char) :
    stripChars (cs ++ ws) = stripChars cs := by
  by_cases hcs : ∀ c ∈ cs, isPySpace c = true
  · rw [stripChars_eq_nil_iff.mpr hcs, stripChars_eq_nil_iff]
    intro c hc
    exact (List.mem_append.mp hc).elim (hcs c) (hws c)
  · have hdrop : (cs ++ ws).dropWhile isPySpace = cs.dropWhile isPySpace ++ ws := by
      induction cs with
      | nil => exact absurd (fun c hc => absurd hc List.not_mem_nil) hcs
      | cons c cs ih =>
          by_cases hc : isPySpace c = true
          · rw [List.cons_append, List.dropWhile_cons_of_pos hc, List.dropWhile_cons_of_pos hc]
            refine ih fun hall => hcs fun d hd => ?_
            exact (List.mem_cons.mp hd).elim (fun h => h ▸ hc) (hall d)
          · rw [List.cons_append, List.dropWhile_cons_of_neg hc, List.dropWhile_cons_of_neg hc,
              List.cons_append]
    rw [stripChars, hdrop, stripChars, List.rdropWhile, List.reverse_append,
      dropWhile_space fun c hc => hws c (List.mem_reverse.mp hc)]
    rfl

theorem stripChars_stripChars (cs : List Char) : stripChars (stripChars cs) = stripChars cs := by
  obtain ⟨a, b, hcs, ha, hb⟩ := stripChars_parts cs
  conv_rhs => rw [hcs, stripChars_append hb, stripChars_prepend ha]

/-- Stripping keeps what is no whitespace. -/
theorem filter_stripChars (cs : List Char) :
    (stripChars cs).filter (fun c => !isPySpace c) = cs.filter fun c => !isPySpace c := by
  obtain ⟨a, b, hcs, ha, hb⟩ := stripChars_parts cs
  have hnone {ws : List Char} (hws : ∀ c ∈ ws, isPySpace c = true) :
      (ws.filter fun c => !isPySpace c) = [] :=
    List.filter_eq_nil_iff.mpr fun c hc => by rw [hws c hc]; decide
  conv_rhs => rw [hcs, List.filter_append, List.filter_append, hnone ha, hnone hb]
  rw [List.nil_append, List.append_nil]

theorem stripChars_eq_self {cs : List Char} (hhead : ∀ c ∈ cs.head?, isPySpace c = false)
    (hlast : ∀ c ∈ cs.getLast?, isPySpace c = false) : stripChars cs = cs := by
  have hdrop : cs.dropWhile isPySpace = cs := by
    cases cs with
    | nil => rfl
    | cons c rest => exact List.dropWhile_cons_of_neg (by simp [hhead c rfl])
  rw [stripChars, hdrop, List.rdropWhile_eq_self_iff]
  intro hl
  rw [hlast _ (List.getLast?_eq_some_getLast hl)]
  decide

theorem head_stripChars {cs rest : List Char} {c : Char} (h : stripChars cs = c :: rest) :
    isPySpace c = false := by
  obtain ⟨t, ht⟩ := List.rdropWhile_prefix isPySpace (cs.dropWhile isPySpace)
  change stripChars cs ++ t = _ at ht
  rw [h] at ht
  have hhead := List.head?_dropWhile_not isPySpace cs
  rw [← ht] at hhead
  simpa using hhead

/-- A character that is no whitespace is not stripped. -/
theorem mem_stripChars {c : Char} {cs : List Char} (hc : isPySpace c = false) (h : c ∈ cs) :
    c ∈ stripChars cs := by
  have hdrop : c ∈ cs.dropWhile isPySpace := by
    rw [← List.takeWhile_append_dropWhile (p := isPySpace) (l := cs)] at h
    obtain h | h := List.mem_append.mp h
    · rw [List.mem_takeWhile_imp h] at hc
      cases hc
    · exact h
  rw [← List.rdropWhile_append_rtakeWhile (p := isPySpace) (l := cs.dropWhile isPySpace)] at hdrop
  obtain h | h := List.mem_append.mp hdrop
  · exact h
  · rw [List.mem_rtakeWhile_imp h] at hc
    cases hc

/-- The pieces of a text have no separator in them. -/
theorem notMem_of_mem_splitOn {α : Type} [DecidableEq α] {sep : α} {text piece : List α}
    (h : piece ∈ text.splitOn sep) : sep ∉ piece := by
  induction text generalizing piece with
  | nil =>
      rw [List.splitOn_nil, List.mem_singleton] at h
      rw [h]
      exact List.not_mem_nil
  | cons c text ih =>
      rw [List.splitOn_cons_eq_if_modifyHead] at h
      split_ifs at h with hc
      · obtain rfl | h := List.mem_cons.mp h
        · exact List.not_mem_nil
        · exact ih h
      · obtain ⟨first, rest, hpieces⟩ := List.exists_cons_of_ne_nil (List.splitOn_ne_nil sep text)
        rw [hpieces, List.modifyHead_cons] at h
        have hc : sep ≠ c := fun heq => hc (by rw [heq]; exact beq_self_eq_true c)
        obtain rfl | h := List.mem_cons.mp h
        · rw [List.mem_cons, not_or]
          exact ⟨hc, ih (hpieces ▸ .head _)⟩
        · exact ih (hpieces ▸ .tail _ h)

end Konoha
