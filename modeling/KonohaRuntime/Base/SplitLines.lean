/-
Base/SplitLines.lean

Lines of a text, cut in two ways: `str.splitlines` ends a line at ten characters, a file that
is read by lines at the end of a line only.  The first cut refines the second
(`flatMap_linePieces`).
-/
import KonohaRuntime.Base.Text

namespace Konoha

/-! ### `str.splitlines` -/

def isLineBreak (c : Char) : Bool :=
  c.toNat ∈ [0x0a, 0x0b, 0x0c, 0x0d, 0x1c, 0x1d, 0x1e, 0x85, 0x2028, 0x2029]

/-- `str.splitlines`, with the characters of the line so far, last first. -/
def splitLines (line : List Char) : List Char → List (List Char)
  | [] => if line.isEmpty then [] else [line.reverse]
  | '\r' :: '\n' :: rest => line.reverse :: splitLines [] rest
  | c :: rest =>
      if isLineBreak c then line.reverse :: splitLines [] rest else splitLines (c :: line) rest

theorem splitLines_break {c : Char} (hc : isLineBreak c = true) (line : List Char)
    {rest : List Char} (h : c = '\r' → rest.head? ≠ some '\n') :
    splitLines line (c :: rest) = line.reverse :: splitLines [] rest := by
  rw [splitLines.eq_3 _ _ _ fun rest' hr hn => h hr (by rw [hn]; rfl), if_pos hc]

theorem splitLines_char {c : Char} (hc : ¬ isLineBreak c = true) (line rest : List Char) :
    splitLines line (c :: rest) = splitLines (c :: line) rest := by
  rw [splitLines.eq_3 _ _ _ fun rest' hr hn => hc (by rw [hr]; decide), if_neg hc]

/-! ### Lines that end with a newline -/

/-- The lines of a text, which end with `\n`, `\r\n` or `\r`; with the characters of the line so
far, last first. -/
def newlineLines (line : List Char) : List Char → List (List Char)
  | [] => if line.isEmpty then [] else [line.reverse]
  | '\r' :: '\n' :: rest => line.reverse :: newlineLines [] rest
  | c :: rest =>
      if c = '\n' ∨ c = '\r' then line.reverse :: newlineLines [] rest
      else newlineLines (c :: line) rest

/-- The pieces of a line between its breaks. -/
def linePieces (piece : List Char) : List Char → List (List Char)
  | [] => [piece.reverse]
  | c :: rest =>
      if isLineBreak c then piece.reverse :: linePieces [] rest else linePieces (c :: piece) rest

/-- The pieces of lines are those of `str.splitlines`, but for an empty one at the end. -/
def Refines (pieces split : List (List Char)) : Prop := pieces = split ∨ pieces = split ++ [[]]

theorem Refines.append {pieces split : List (List Char)} (h : Refines pieces split)
    (done : List (List Char)) : Refines (done ++ pieces) (done ++ split) := by
  rcases h with rfl | rfl
  · exact .inl rfl
  · exact .inr (List.append_assoc _ _ _).symm

/-- `str.splitlines` cuts each line into its pieces; `done` are the pieces of the line so far,
up to its last break. -/
theorem refines_splitLines {line piece : List Char} {done : List (List Char)} (cs : List Char)
    (h : ∀ rest, linePieces [] (line.reverse ++ rest) = done ++ linePieces piece rest)
    (hnil : line = [] → done = [] ∧ piece = []) :
    Refines ((newlineLines line cs).flatMap (linePieces [])) (done ++ splitLines piece cs) := by
  have hline : linePieces [] line.reverse = done ++ [piece.reverse] := by
    have hempty := h []
    rwa [List.append_nil] at hempty
  fun_induction newlineLines line cs generalizing piece done with
  | case1 line hempty =>
      obtain ⟨rfl, rfl⟩ := hnil (List.isEmpty_iff.mp hempty)
      exact .inl rfl
  | case2 line hempty =>
      rw [List.flatMap_singleton, hline]
      cases piece with
      | nil => exact .inr (congrArg (· ++ [[]]) (List.append_nil done).symm)
      | cons c piece => exact .inl rfl
  | case3 line rest ih =>
      rw [List.flatMap_cons, hline, splitLines, List.append_assoc, List.singleton_append]
      exact ((ih (fun _ => rfl) (fun _ => ⟨rfl, rfl⟩) rfl).append [piece.reverse]).append done
  | case4 line c rest hnot hc ih =>
      have hbreak : isLineBreak c = true := by
        rcases hc with rfl | rfl <;> decide
      have hsplit : splitLines piece (c :: rest) = piece.reverse :: splitLines [] rest :=
        splitLines_break hbreak piece fun hr hn => by
          obtain ⟨rest', rfl⟩ := List.head?_eq_some_iff.mp hn
          exact hnot rest' hr rfl
      rw [List.flatMap_cons, hline, hsplit, List.append_assoc, List.singleton_append]
      exact ((ih (fun _ => rfl) (fun _ => ⟨rfl, rfl⟩) rfl).append [piece.reverse]).append done
  | case5 line c rest hnot hc ih =>
      have hnewline := not_or.mp hc
      have hstep (rest' : List Char) : linePieces [] ((c :: line).reverse ++ rest') =
          done ++ linePieces piece (c :: rest') := by
        rw [List.reverse_cons, List.append_assoc, List.singleton_append, h]
      rcases hbreak : isLineBreak c
      · have hnot : ¬ isLineBreak c = true := by rw [hbreak]; decide
        rw [splitLines_char hnot]
        have hpiece (rest' : List Char) : linePieces [] ((c :: line).reverse ++ rest') =
            done ++ linePieces (c :: piece) rest' := by
          rw [hstep, linePieces, if_neg hnot]
        have hempty := hpiece []
        rw [List.append_nil] at hempty
        exact ih hpiece (fun h => nomatch h) hempty
      · rw [splitLines_break hbreak _ fun hr => absurd hr hnewline.2]
        have hpiece (rest' : List Char) : linePieces [] ((c :: line).reverse ++ rest') =
            (done ++ [piece.reverse]) ++ linePieces [] rest' := by
          rw [hstep, linePieces, if_pos hbreak, List.append_assoc, List.singleton_append]
        have hempty := hpiece []
        rw [List.append_nil] at hempty
        have hrest := ih hpiece (fun h => nomatch h) hempty
        rwa [List.append_assoc, List.singleton_append] at hrest

/-- `str.splitlines` cuts the lines of a text further. -/
theorem flatMap_linePieces (cs : List Char) :
    Refines ((newlineLines [] cs).flatMap (linePieces [])) (splitLines [] cs) :=
  have hstart : ∀ rest, linePieces [] (([] : List Char).reverse ++ rest) = [] ++ linePieces [] rest :=
    fun _ => rfl
  refines_splitLines cs hstart fun _ => ⟨rfl, rfl⟩

/-! ### Pieces of a line -/

/-- A line without breaks. -/
def Unbroken (line : List Char) : Prop := ∀ c ∈ line, isLineBreak c = false

theorem linePieces_unbroken {cs : List Char} (h : Unbroken cs) (piece rest : List Char) :
    linePieces piece (cs ++ rest) = linePieces (cs.reverse ++ piece) rest := by
  induction cs generalizing piece with
  | nil => rfl
  | cons c cs ih =>
      have hc : ¬ isLineBreak c = true := by rw [h c List.mem_cons_self]; decide
      rw [List.cons_append, linePieces, if_neg hc, ih fun d hd => h d (List.mem_cons_of_mem _ hd),
        List.reverse_cons, List.append_assoc, List.singleton_append]

theorem mem_linePieces {piece cs p : List Char} (hp : p ∈ linePieces piece cs) :
    ∀ c ∈ p, c ∈ piece ∨ c ∈ cs := by
  induction cs generalizing piece with
  | nil =>
      rw [linePieces, List.mem_singleton] at hp
      subst hp
      exact fun c hc => .inl (List.mem_reverse.mp hc)
  | cons d cs ih =>
      rw [linePieces] at hp
      split_ifs at hp with hbreak
      · rcases List.mem_cons.mp hp with rfl | hp
        · exact fun c hc => .inl (List.mem_reverse.mp hc)
        · intro c hc
          exact (ih hp c hc).elim (fun h => nomatch h) fun h => .inr (List.mem_cons_of_mem _ h)
      · intro c hc
        rcases ih hp c hc with h | h
        · rcases List.mem_cons.mp h with rfl | h
          · exact .inr List.mem_cons_self
          · exact .inl h
        · exact .inr (List.mem_cons_of_mem _ h)

theorem linePieces_ne_nil (piece cs : List Char) : linePieces piece cs ≠ [] := by
  induction cs generalizing piece with
  | nil => exact List.cons_ne_nil _ _
  | cons c cs ih =>
      rw [linePieces]
      split_ifs
      · exact List.cons_ne_nil _ _
      · exact ih _

/-- A line is its first piece and what follows, from which the other pieces are. -/
theorem linePieces_eq (line : List Char) : ∃ first rest pieces,
    line = first ++ rest ∧ linePieces [] line = first :: pieces ∧ Unbroken first ∧
      (∀ p ∈ pieces, ∀ c ∈ p, c ∈ rest) ∧ (pieces = [] → rest = []) := by
  have hfirst : Unbroken (line.takeWhile fun c => !isLineBreak c) := by
    intro c hc
    have hkept := List.mem_takeWhile_imp hc
    rwa [Bool.not_eq_true'] at hkept
  have hline := List.takeWhile_append_dropWhile (p := fun c => !isLineBreak c) (l := line)
  have hhead := List.head?_dropWhile_not (fun c => !isLineBreak c) line
  generalize line.takeWhile (fun c => !isLineBreak c) = first at hfirst hline
  generalize line.dropWhile (fun c => !isLineBreak c) = rest at hhead hline
  subst hline
  have hpieces := linePieces_unbroken hfirst [] rest
  rw [List.append_nil] at hpieces
  cases rest with
  | nil =>
      refine ⟨first, [], [], rfl, ?_, hfirst, fun p hp => (nomatch hp), fun _ => rfl⟩
      rw [hpieces, linePieces, List.reverse_reverse]
  | cons c rest =>
      have hbreak : isLineBreak c = true := by simpa using hhead
      refine ⟨first, c :: rest, linePieces [] rest, rfl, ?_, hfirst, ?_, ?_⟩
      · rw [hpieces, linePieces, if_pos hbreak, List.reverse_reverse]
      · intro p hp d hd
        exact (mem_linePieces hp d hd).elim (fun h => nomatch h) fun h => List.mem_cons_of_mem _ h
      · exact fun hnil => absurd hnil (linePieces_ne_nil [] rest)

end Konoha
