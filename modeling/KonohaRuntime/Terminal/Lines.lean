/-
Terminal/Lines.lean

The turns of a person at the terminal.

`TerminalTurnReader` has three reading calls over one reader of lines.  What they do with the
lines is the same wherever the lines come from, so the calls are defined over a `LineSource`;
the two sources of the code are in `Terminal.Reader`.

* `Simulates.values`: sources that give the same lines give the same values in every sequence of
  calls.
* `values_ofList`: over a list of lines, each call takes the lines at the front, and a block
  that is not ended is cancelled.
-/
import KonohaRuntime.Base.Text

namespace Konoha.Terminal

/-! ### Calls -/

/-- `_read_line_blocking`, with a measure of what is left to read. -/
structure LineSource (σ : Type) where
  next : σ → Option String × σ
  size : σ → Nat
  next_lt : ∀ s line s', next s = (some line, s') → size s' < size s

/-- The arguments of `read_block_until`, less the two prompts. -/
structure Block where
  firstLine : Option String
  terminator : String := ":fin"
  cancelToken : String := ":cancelar"

inductive Call
  | line
  | exactLine
  | block (b : Block)

inductive Value
  | line (text : Option String)
  | block (text : Option String) (cancelled : Bool)
  deriving DecidableEq

section Calls

variable {σ : Type} (casefold : String → String) (src : LineSource σ)

/-- `line.strip().casefold()` -/
def command (line : String) : String := casefold (strip line)

/-- `"\n".join(lines).strip() or None` -/
def captured (lines : List String) : Option String :=
  let feedback := strip ("\n".intercalate lines)
  if feedback = "" then none else some feedback

/-- The loop of `read_block_until`. -/
def captureBlock (b : Block) (lines : List String) (s : σ) : Value × σ :=
  match _h : src.next s with
  | (none, s') => (.block none true, s')
  | (some line, s') =>
      if command casefold line = casefold b.cancelToken then (.block none true, s')
      else if command casefold line = casefold b.terminator then
        (.block (captured lines) false, s')
      else captureBlock b (lines ++ [line]) s'
termination_by src.size s
decreasing_by exact src.next_lt _ _ _ ‹_›

theorem captureBlock_none {b : Block} {lines : List String} {s s' : σ}
    (h : src.next s = (none, s')) :
    captureBlock casefold src b lines s = (.block none true, s') := by
  rw [captureBlock]
  split
  · next heq =>
      rw [h] at heq
      cases heq
      rfl
  · next heq =>
      rw [h] at heq
      cases heq

theorem captureBlock_some {b : Block} {lines : List String} {s s' : σ} {line : String}
    (h : src.next s = (some line, s')) :
    captureBlock casefold src b lines s =
      if command casefold line = casefold b.cancelToken then (.block none true, s')
      else if command casefold line = casefold b.terminator then
        (.block (captured lines) false, s')
      else captureBlock casefold src b (lines ++ [line]) s' := by
  rw [captureBlock]
  split
  · next heq =>
      rw [h] at heq
      cases heq
  · next heq =>
      rw [h] at heq
      cases heq
      rfl

/-- `read_line`, `read_exact_line` and `read_block_until` -/
def Call.run : Call → σ → Value × σ
  | .line, s => (.line ((src.next s).1.map strip), (src.next s).2)
  | .exactLine, s => (.line (src.next s).1, (src.next s).2)
  | .block b, s => captureBlock casefold src b b.firstLine.toList s

/-- The values of a sequence of calls. -/
def values : List Call → σ → List Value
  | [], _ => []
  | c :: cs, s => (c.run casefold src s).1 :: values cs (c.run casefold src s).2

end Calls

/-! ### Sources that give the same lines -/

section Simulation

variable {σ τ : Type}

/-- The lines of related states agree, and so do the states that are left. -/
def Simulates (src : LineSource σ) (src' : LineSource τ) (r : σ → τ → Prop) : Prop :=
  ∀ s t, r s t → (src.next s).1 = (src'.next t).1 ∧ r (src.next s).2 (src'.next t).2

variable {src : LineSource σ} {src' : LineSource τ} {r : σ → τ → Prop}

theorem Simulates.captureBlock (h : Simulates src src' r) (casefold : String → String)
    (b : Block) (lines : List String) {s : σ} {t : τ} (hst : r s t) :
    (captureBlock casefold src b lines s).1 = (captureBlock casefold src' b lines t).1 ∧
      r (captureBlock casefold src b lines s).2 (captureBlock casefold src' b lines t).2 := by
  -- induction on what is left of the first source
  induction hsize : src.size s using Nat.strong_induction_on generalizing lines s t with
  | h n ih =>
      obtain ⟨hline, hrest⟩ := h s t hst
      obtain ⟨line, s', hs⟩ : ∃ line s', src.next s = (line, s') := ⟨_, _, rfl⟩
      obtain ⟨line', t', ht⟩ : ∃ line t', src'.next t = (line, t') := ⟨_, _, rfl⟩
      rw [hs, ht] at hline hrest
      obtain rfl : line = line' := hline
      cases line with
      | none =>
          rw [captureBlock_none casefold src hs, captureBlock_none casefold src' ht]
          exact ⟨rfl, hrest⟩
      | some line =>
          rw [captureBlock_some casefold src hs, captureBlock_some casefold src' ht]
          split_ifs
          · exact ⟨rfl, hrest⟩
          · exact ⟨rfl, hrest⟩
          · exact ih _ (hsize ▸ src.next_lt s line s' hs) (lines ++ [line]) hrest rfl

theorem Simulates.run (h : Simulates src src' r) (casefold : String → String) (c : Call)
    {s : σ} {t : τ} (hst : r s t) :
    (c.run casefold src s).1 = (c.run casefold src' t).1 ∧
      r (c.run casefold src s).2 (c.run casefold src' t).2 := by
  obtain ⟨hline, hrest⟩ := h s t hst
  cases c with
  | line => exact ⟨congrArg (fun line => Value.line (Option.map strip line)) hline, hrest⟩
  | exactLine => exact ⟨congrArg Value.line hline, hrest⟩
  | block b => exact h.captureBlock casefold b _ hst

/-- Related states give the same values in every sequence of calls. -/
theorem Simulates.values (h : Simulates src src' r) (casefold : String → String)
    (cs : List Call) {s : σ} {t : τ} (hst : r s t) :
    values casefold src cs s = values casefold src' cs t := by
  induction cs generalizing s t with
  | nil => rfl
  | cons c cs ih =>
      obtain ⟨hvalue, hrest⟩ := h.run casefold c hst
      rw [Terminal.values, Terminal.values, hvalue, ih hrest]

end Simulation

/-! ### Over a list of lines -/

/-- The lines of a list, one after the other. -/
def ofList : LineSource (List String) where
  next
    | [] => (none, [])
    | line :: lines => (some line, lines)
  size := List.length
  next_lt s line s' h := by
    cases s with
    | nil => cases h
    | cons l ls =>
        cases h
        exact Nat.lt_succ_self _

section Lines

variable (casefold : String → String)

/-- A line that does not end a block. -/
def Block.keeps (b : Block) (line : String) : Bool :=
  command casefold line ≠ casefold b.cancelToken && command casefold line ≠ casefold b.terminator

/-- What a call does with the lines that are left: it takes one, or those up to the first that
ends the block. -/
def Call.take : Call → List String → Value × List String
  | .line, lines => (.line (lines.head?.map strip), lines.tail)
  | .exactLine, lines => (.line lines.head?, lines.tail)
  | .block b, lines =>
      match lines.dropWhile (b.keeps casefold) with
      | [] => (.block none true, [])
      | last :: rest =>
          if command casefold last = casefold b.cancelToken then (.block none true, rest)
          else (.block (captured (b.firstLine.toList ++ lines.takeWhile (b.keeps casefold))) false,
            rest)

/-- The values of calls that take the lines in their order. -/
def valuesOf : List Call → List String → List Value
  | [], _ => []
  | c :: cs, lines => (c.take casefold lines).1 :: valuesOf cs (c.take casefold lines).2

variable {casefold}

theorem captureBlock_ofList (b : Block) (before lines : List String) :
    captureBlock casefold ofList b before lines =
      match lines.dropWhile (b.keeps casefold) with
      | [] => (.block none true, [])
      | last :: rest =>
          if command casefold last = casefold b.cancelToken then (.block none true, rest)
          else (.block (captured (before ++ lines.takeWhile (b.keeps casefold))) false, rest) := by
  induction lines generalizing before with
  | nil => exact captureBlock_none casefold ofList rfl
  | cons line lines ih =>
      have hnext : ofList.next (line :: lines) = (some line, lines) := rfl
      rw [captureBlock_some casefold ofList hnext]
      by_cases hcancel : command casefold line = casefold b.cancelToken
      · have hkeeps : ¬ b.keeps casefold line = true := by simp [Block.keeps, hcancel]
        rw [if_pos hcancel, List.dropWhile_cons_of_neg hkeeps]
        exact (if_pos hcancel).symm
      by_cases hend : command casefold line = casefold b.terminator
      · have hkeeps : ¬ b.keeps casefold line = true := by simp [Block.keeps, hend]
        rw [if_neg hcancel, if_pos hend, List.dropWhile_cons_of_neg hkeeps,
          List.takeWhile_cons_of_neg hkeeps, List.append_nil]
        exact (if_neg hcancel).symm
      · have hkeeps : b.keeps casefold line = true := by simp [Block.keeps, hcancel, hend]
        rw [if_neg hcancel, if_neg hend, ih, List.dropWhile_cons_of_pos hkeeps,
          List.takeWhile_cons_of_pos hkeeps, List.append_assoc]
        rfl

theorem run_ofList (c : Call) (lines : List String) :
    c.run casefold ofList lines = c.take casefold lines := by
  cases c with
  | line => cases lines <;> rfl
  | exactLine => cases lines <;> rfl
  | block b => exact captureBlock_ofList b _ lines

theorem values_ofList (cs : List Call) (lines : List String) :
    values casefold ofList cs lines = valuesOf casefold cs lines := by
  induction cs generalizing lines with
  | nil => rfl
  | cons c cs ih => rw [values, valuesOf, run_ofList, ih]

/-- The values of all calls tell the lines. -/
theorem eq_of_valuesOf_eq {lines lines' : List String}
    (h : ∀ cs, valuesOf casefold cs lines = valuesOf casefold cs lines') : lines = lines' := by
  induction lines generalizing lines' with
  | nil =>
      have hhead := h [.exactLine]
      cases lines' with
      | nil => rfl
      | cons line' lines' => cases hhead
  | cons line lines ih =>
      have hhead := h [.exactLine]
      cases lines' with
      | nil => cases hhead
      | cons line' lines' =>
          cases hhead
          refine congrArg (line :: ·) (ih fun cs => ?_)
          exact (List.cons.inj (h (.exactLine :: cs))).2

end Lines

end Konoha.Terminal
