/-
Release/TestCounts.lean

What the canonical test gate reads of a run of unittest: `parse_unittest_counts` searches the output
of the tests and of the runner for the first "Ran n tests" and for the first parenthesis behind
"FAILED" or "OK".

`details_finalLines` and `findAll_infos`: what is read of the runner's own last lines.  When this gives
the numbers of the run as a whole is told in `TestReport` (`faithful_iff`).
-/
import KonohaRuntime.Base.RoundTrip
import KonohaRuntime.Base.Search
import KonohaRuntime.Release.Workflow

namespace Konoha.Release

open Search
open Loads (isDigit natOfDigits)

/-! ### The patterns -/

/-- The interpreter, as far as `\d` and `int` depend on it. -/
structure Decimals where
  /-- `unicodedata.decimal` -/
  value : Char → Option Nat
  /-- `sys.get_int_max_str_digits()` -/
  maxStrDigits : Nat
  ascii : ∀ c, c.toNat < 128 → value c = if isDigit c then some (c.toNat - 48) else none

variable (py : Decimals)

/-- `\d` -/
def Decimals.isDecimal (c : Char) : Bool := (py.value c).isSome

/-- `int(digits)` -/
def Decimals.int (digits : List Char) : Except PyExc Nat :=
  if py.maxStrDigits ≠ 0 ∧ py.maxStrDigits < digits.length then .error LoadError.digits.exc
  else .ok (digits.foldl (fun n c => n * 10 + (py.value c).getD 0) 0)

/-- The character is this letter, with `re.IGNORECASE`. -/
def isLetter (lower upper : Char) (c : Char) : Bool :=
  c = lower || c = upper || (lower = 's' && c = Char.ofNat 0x17f)

/-- `RAN_RE`, after its first letter; a last `s` changes nothing. -/
def ranTail : Scanner Char (List Char) := do
  literal [isLetter 'a' 'A', isLetter 'n' 'N']
  let _ ← several isPySpace
  let digits ← several py.isDecimal
  let _ ← several isPySpace
  literal [isLetter 't' 'T', isLetter 'e' 'E', isLetter 's' 'S', isLetter 't' 'T']
  return digits

/-- `RAN_RE` -/
def ran : Scanner Char (List Char) := after (isLetter 'r' 'R') (ranTail py)

/-- The rest of a word, and the parenthesis behind it. -/
def openingTail (word : List Char) : Scanner Char Unit := do
  literal (word.map fun c d => d = c)
  let _ ← many isPySpace
  let _ ← item fun d => d = '('
  return ()

/-- The text in a parenthesis, up to its end. -/
def inParenthesis : Scanner Char (List Char) := do
  let text ← many fun d => d ≠ ')'
  let _ ← item fun d => d = ')'
  return text

/-- A word, and the text in the parenthesis behind it. -/
def detail (first : Char) (word : List Char) : Scanner Char (List Char) :=
  after (fun d => d = first) do
    openingTail word
    inParenthesis

/-- `FAILED_DETAIL_RE` -/
def failedDetail : Scanner Char (List Char) := detail 'F' "AILED".toList

/-- `OK_DETAIL_RE` -/
def okDetail : Scanner Char (List Char) := detail 'O' "K".toList

/-- `[A-Za-z_]` -/
def isKeyChar (c : Char) : Bool := ('a' ≤ c ∧ c ≤ 'z') || ('A' ≤ c ∧ c ≤ 'Z') || c = '_'

/-- `COUNT_RE` -/
def count : Scanner Char (List Char × List Char) := do
  let key ← several isKeyChar
  let _ ← item fun d => d = '='
  let digits ← several py.isDecimal
  return (key, digits)

/-! ### `parse_unittest_counts` -/

structure Counts where
  tests : Nat := 0
  failures : Nat := 0
  errors : Nat := 0
  skipped : Nat := 0
  expectedFailures : Nat := 0
  unexpectedSuccesses : Nat := 0
  deriving DecidableEq

/-- The setters of the keys. -/
def Counts.setters : List (String × (Counts → Nat → Counts)) :=
  [("tests", fun c n => { c with tests := n }),
    ("failures", fun c n => { c with failures := n }),
    ("errors", fun c n => { c with errors := n }),
    ("skipped", fun c n => { c with skipped := n }),
    ("expected_failures", fun c n => { c with expectedFailures := n }),
    ("unexpected_successes", fun c n => { c with unexpectedSuccesses := n })]

/-- `if key in counts: counts[key] = int(value)` -/
def Counts.record (counts : Counts) (entry : List Char × List Char) : Except PyExc Counts :=
  match Counts.setters.lookup (String.ofList (entry.1.map Char.toLower)) with
  | none => .ok counts
  | some set => (py.int entry.2).map (set counts)

/-- The counts in a text. -/
def Counts.recordAll (counts : Counts) (text : List Char) : Except PyExc Counts :=
  (findAll (count py) text).foldlM (Counts.record py) counts

/-- The text with the details. -/
def details (output : List Char) : Option (List Char) :=
  ((search failedDetail output).map (·.1)).or ((search okDetail output).map (·.1))

/-- `parse_unittest_counts` -/
def parseUnittestCounts (output : List Char) : Except PyExc Counts := do
  let tests ← match search (ran py) output with
    | none => pure 0
    | some (digits, _) => py.int digits
  match details output with
  | none => return { tests := tests }
  | some text => Counts.recordAll py { tests := tests } text

/-! ### The runner -/

/-- A number that the runner can print. -/
def Decimals.Prints (n : Nat) : Prop :=
  py.maxStrDigits = 0 ∨ (Nat.toDigits 10 n).length ≤ py.maxStrDigits

/-- How a run of unittest ends. -/
structure Outcome where
  tests : Nat
  failures : Nat
  errors : Nat
  skipped : Nat
  expectedFailures : Nat
  unexpectedSuccesses : Nat
  /-- `%.3f` -/
  seconds : List Char
  seconds_ascii : ∀ c ∈ seconds, isDigit c = true ∨ c = '.'
  printed : ∀ n ∈ [tests, failures, errors, skipped, expectedFailures, unexpectedSuccesses], py.Prints n

namespace Outcome

variable {py} (o : Outcome py)

/-- `wasSuccessful()`, and the exit status 0 -/
def successful : Bool := o.failures = 0 ∧ o.errors = 0 ∧ o.unexpectedSuccesses = 0

/-- The labels of the numbers, each as a prefix and the word before the number. -/
def labelled : List (String × String × Nat) :=
  [("", "failures", o.failures), ("", "errors", o.errors), ("", "skipped", o.skipped),
    ("expected ", "failures", o.expectedFailures), ("unexpected ", "successes", o.unexpectedSuccesses)]

/-- The numbers that are printed. -/
def shown : List (String × String × Nat) := o.labelled.filter fun entry => entry.2.2 ≠ 0

/-- One number. -/
def shownText (entry : String × String × Nat) : List Char :=
  entry.1.toList ++ entry.2.1.toList ++ '=' :: Nat.toDigits 10 entry.2.2

/-- `", ".join(infos)` -/
def infos : List Char := [',', ' '].intercalate (o.shown.map shownText)

/-- `Ran n tests in s` -/
def ranLine : List Char :=
  "Ran ".toList ++ Nat.toDigits 10 o.tests ++ (if o.tests = 1 then " test in " else " tests in ").toList ++
    o.seconds ++ "s\n\n".toList

theorem ranLine_eq : o.ranLine =
    "Ran ".toList ++ Nat.toDigits 10 o.tests ++
      (if o.tests = 1 then " test in " else " tests in ").toList ++ o.seconds ++ "s\n\n".toList :=
  rfl

/-- `OK (…)` or `FAILED (…)` -/
def verdict : List Char :=
  (if o.successful then "OK" else "FAILED").toList ++
    (if o.shown = [] then [] else " (".toList ++ o.infos ++ [')']) ++ ['\n']

/-- The last lines of the runner. -/
def finalLines : List Char := o.ranLine ++ o.verdict

end Outcome

/-! ### Letters and digits -/

section Characters

variable {py}

theorem Decimals.value_digit {c : Char} (hc : isDigit c = true) :
    py.value c = some (c.toNat - 48) := by
  have hlt : c.toNat < 128 := by
    simp only [isDigit, decide_eq_true_eq, Char.le_def, UInt32.le_iff_toNat_le] at hc
    exact lt_of_le_of_lt hc.2 (by decide)
  rw [py.ascii c hlt, if_pos hc]

theorem Decimals.isDecimal_ascii {c : Char} (hc : c.toNat < 128) : py.isDecimal c = isDigit c := by
  rw [Decimals.isDecimal, py.ascii c hc]
  cases isDigit c <;> rfl

theorem Decimals.isDecimal_digit {c : Char} (hc : isDigit c = true) : py.isDecimal c = true := by
  rw [Decimals.isDecimal, Decimals.value_digit hc]
  rfl

/-- What is printed is read again. -/
theorem Decimals.int_toDigits {n : Nat} (h : py.Prints n) : py.int (Nat.toDigits 10 n) = .ok n := by
  have hfold : (Nat.toDigits 10 n).foldl (fun n c => n * 10 + (py.value c).getD 0) 0 =
      natOfDigits (Nat.toDigits 10 n) := by
    refine List.foldl_ext _ _ _ fun a c hc => ?_
    rw [Decimals.value_digit (Loads.isDigit_of_mem_toDigits hc)]
    rfl
  rw [Decimals.int, if_neg, hfold, Loads.natOfDigits_toDigits]
  rintro ⟨hne, hlt⟩
  rcases h with h | h
  · exact hne h
  · omega

end Characters

/-! ### "Ran n tests" -/

section Ran

variable {py} (o : Outcome py)

/-- The digits in the first "Ran n tests". -/
def ranDigits (py : Decimals) (output : List Char) : Option (List Char) :=
  (search (ran py) output).map (·.1)

theorem stopsAt_ranTail : StopsAt 'R' (ranTail py) := by
  have hdecimal : py.isDecimal 'R' = false := Decimals.isDecimal_ascii (by decide)
  have hspace : isPySpace 'R' = false := by decide
  refine (stopsAt_literal (by decide)).bind fun _ => (stopsAt_several hspace).bind fun _ => ?_
  refine (stopsAt_several hdecimal).bind fun _ => (stopsAt_several hspace).bind fun _ => ?_
  exact (stopsAt_literal (by decide)).bind fun _ => .pure _

theorem isPySpace_digit {c : Char} (hc : isDigit c = true) : isPySpace c = false := by
  simp only [isDigit, decide_eq_true_eq, Char.le_def, UInt32.le_iff_toNat_le] at hc
  have hlow : 48 ≤ c.toNat := hc.1
  have hhigh : c.toNat ≤ 57 := hc.2
  clear hc
  simp only [isPySpace, Bool.or_eq_false_iff, Bool.and_eq_false_iff, decide_eq_false_iff_not,
    beq_eq_false_iff_ne, ne_eq]
  omega

theorem digits_printed (n : Nat) : ∀ c ∈ Nat.toDigits 10 n, py.isDecimal c = true :=
  fun _ hc => Decimals.isDecimal_digit (Loads.isDigit_of_mem_toDigits hc)

/-- The number that is read of a line. -/
theorem ranTail_line (n : Nat) (rest : List Char) :
    ranTail py (['a', 'n', ' '] ++ (Nat.toDigits 10 n ++ ([' ', 't', 'e', 's', 't'] ++ rest))) =
      some (Nat.toDigits 10 n, rest) := by
  have hfirst : ∀ c ∈ (Nat.toDigits 10 n ++ ([' ', 't', 'e', 's', 't'] ++ rest)).head?,
      isPySpace c = false := by
    obtain ⟨d, ds, h⟩ := List.exists_cons_of_ne_nil (Nat.toDigits_ne_nil (n := n) (b := 10))
    have hd : isDigit d = true := Loads.isDigit_of_mem_toDigits (h ▸ List.mem_cons_self)
    rw [h]
    rintro c ⟨⟩
    exact isPySpace_digit hd
  have hspace : ∀ c ∈ ([' ', 't', 'e', 's', 't'] ++ rest).head?, py.isDecimal c = false := by
    rintro c ⟨⟩
    exact Decimals.isDecimal_ascii (by decide)
  have ht : ∀ c ∈ (['t', 'e', 's', 't'] ++ rest).head?, isPySpace c = false := by
    rintro c ⟨⟩
    decide
  have hblank : ∀ c ∈ [' '], isPySpace c = true := List.forall_mem_singleton.mpr (by decide)
  have hletters : literal [isLetter 'a' 'A', isLetter 'n' 'N']
      (['a', 'n', ' '] ++ (Nat.toDigits 10 n ++ ([' ', 't', 'e', 's', 't'] ++ rest))) =
        some ((), [' '] ++ (Nat.toDigits 10 n ++ ([' ', 't', 'e', 's', 't'] ++ rest))) := rfl
  have hblanks : several isPySpace ([' '] ++ (['t', 'e', 's', 't'] ++ rest)) =
      some ([' '], ['t', 'e', 's', 't'] ++ rest) :=
    several_append (List.cons_ne_nil _ _) hblank ht
  refine (bind_of_eq hletters).trans ?_
  refine (bind_of_eq (several_append (List.cons_ne_nil _ _) hblank hfirst)).trans ?_
  refine (bind_of_eq (several_append Nat.toDigits_ne_nil (digits_printed n) hspace)).trans ?_
  exact (bind_of_eq hblanks).trans rfl

theorem finalLines_eq : ∃ rest, o.finalLines =
    'R' :: (['a', 'n', ' '] ++ (Nat.toDigits 10 o.tests ++ ([' ', 't', 'e', 's', 't'] ++ rest))) := by
  have hran : "Ran ".toList = 'R' :: ['a', 'n', ' '] := String.toList_ofList
  have hline : ∃ rest, (if o.tests = 1 then " test in " else " tests in ").toList =
      [' ', 't', 'e', 's', 't'] ++ rest := by
    split
    · exact ⟨[' ', 'i', 'n', ' '], String.toList_ofList⟩
    · exact ⟨['s', ' ', 'i', 'n', ' '], String.toList_ofList⟩
  obtain ⟨rest, hrest⟩ := hline
  refine ⟨rest ++ (o.seconds ++ ("s\n\n".toList ++ o.verdict)), ?_⟩
  simp only [Outcome.finalLines, Outcome.ranLine_eq, hran, hrest, List.append_assoc, List.cons_append,
    List.nil_append]

/-- The first "Ran n tests" is one that the tests have printed, or else that of the runner. -/
theorem ranDigits_finalLines (before : List Char) : ranDigits py (before ++ o.finalLines) =
    (ranDigits py before).or (some (Nat.toDigits 10 o.tests)) := by
  obtain ⟨rest, hlines⟩ := finalLines_eq o
  have hown : (search (ran py) o.finalLines).map (·.1) = some (Nat.toDigits 10 o.tests) := by
    rw [hlines, search_cons, ran, after_cons, if_pos (by decide), ranTail_line]
    rfl
  rw [ranDigits, hlines, ran, search_append stopsAt_ranTail, ← hlines, ← ran, ranDigits]
  rcases search (ran py) before with - | r
  · exact hown
  · rfl

end Ran

/-! ### Details -/

/-- What comes after the first place where a parenthesis opens behind the word. -/
def opened (first : Char) (word output : List Char) : Option (List Char) :=
  (search (after (fun d => d = first) (openingTail word)) output).map (·.2)

/-- A text up to the parenthesis that closes. -/
def closed (text : List Char) : Option (List Char) :=
  if ')' ∈ text then some (text.takeWhile fun d => d ≠ ')') else none

section Details

variable {first : Char} {word : List Char}

theorem reads_openingTail (hword : ')' ∉ word) : Reads (fun d => d ≠ ')') (openingTail word) := by
  refine (reads_literal ?_).bind fun _ => (reads_many ?_).bind fun _ => (reads_item ?_).bind fun _ => .pure _
  · intro p hp d hd
    obtain ⟨c, hc, rfl⟩ := List.mem_map.mp hp
    rintro rfl
    exact hword (of_decide_eq_true hd ▸ hc)
  · rintro d hd rfl
    exact absurd hd (by decide)
  · rintro d hd rfl
    exact absurd hd (by decide)

theorem closed_append {text rest : List Char} (h : ')' ∉ text) :
    closed (text ++ ')' :: rest) = some text := by
  have hkeep : ∀ d ∈ text, decide (d ≠ ')') = true := fun d hd =>
    decide_eq_true fun e => h (e ▸ hd)
  have hstop : ∀ d ∈ (')' :: rest).head?, decide (d ≠ ')') = false := by
    rintro d ⟨⟩
    rfl
  rw [closed, if_pos (List.mem_append_right _ List.mem_cons_self),
    (takeWhile_append_of hkeep hstop).1]

theorem inParenthesis_eq (s : List Char) : (inParenthesis s).map (·.1) = closed s := by
  by_cases hs : ')' ∈ s
  · obtain ⟨text, rest, rfl, htext⟩ := List.eq_append_cons_of_mem hs
    have hkeep : ∀ d ∈ text, decide (d ≠ ')') = true := fun d hd =>
      decide_eq_true fun e => htext (e ▸ hd)
    have hstop : ∀ d ∈ (')' :: rest).head?, decide (d ≠ ')') = false := by
      rintro d ⟨⟩
      rfl
    rw [closed_append htext, inParenthesis, bind_of_eq (many_append hkeep hstop)]
    rfl
  · have hkeep : ∀ d ∈ s, decide (d ≠ ')') = true := fun d hd =>
      decide_eq_true fun e => hs (e ▸ hd)
    have hall : many (fun d => decide (d ≠ ')')) (s ++ []) = some (s, []) := many_append hkeep nofun
    rw [List.append_nil] at hall
    rw [closed, if_neg hs, inParenthesis, bind_of_eq hall]
    rfl

theorem suffix_of_opened {output r : List Char} (h : opened first word output = some r) :
    r <:+ output := by
  have hreads : Reads (fun _ => True) (after (fun d => decide (d = first)) (openingTail word)) := by
    refine (reads_item fun _ _ => trivial).bind fun _ => (reads_literal fun _ _ _ _ => trivial).bind ?_
    exact fun _ => (reads_many fun _ _ => trivial).bind fun _ =>
      (reads_item fun _ _ => trivial).bind fun _ => .pure _
  obtain ⟨⟨u, r⟩, hsearch, rfl⟩ := Option.map_eq_some_iff.mp h
  exact search_suffix hreads hsearch

/-- The first parenthesis that opens is also the first that closes. -/
theorem search_detail (hword : ')' ∉ first :: word) (output : List Char) :
    (search (detail first word) output).map (·.1) = (opened first word output).bind closed := by
  obtain ⟨hfirst, hword⟩ := not_or.mp (List.mem_cons.not.mp hword)
  induction output with
  | nil => rfl
  | cons d output ih =>
      rw [search_cons, opened, search_cons, detail, after_cons, after_cons, ← detail]
      by_cases hd : d = first
      · rw [if_pos (decide_eq_true hd), if_pos (decide_eq_true hd)]
        rcases e : openingTail word output with - | ⟨u, r⟩
        · have hnone : (openingTail word >>= fun _ => inParenthesis) output = none := by
            show (openingTail word output).bind _ = none
            rw [e]
            rfl
          rw [hnone]
          exact ih
        · rw [bind_of_eq e]
          show ((inParenthesis r).or _).map _ = closed r
          rw [← inParenthesis_eq]
          rcases e' : inParenthesis r with - | found
          · -- nothing closes after this place, so nothing closes after a later one
            have hunclosed : ')' ∉ r := fun hr => by
              have := inParenthesis_eq r
              rw [e', closed, if_pos hr] at this
              exact nomatch this
            obtain ⟨t, ht, hread⟩ := reads_openingTail hword output u r e
            have hlate : ')' ∉ output := by
              rw [ht, List.mem_append]
              rintro (h | h)
              · exact hread _ h rfl
              · exact hunclosed h
            show (search (detail first word) output).map _ = none
            rw [ih]
            rcases e'' : opened first word output with - | r'
            · rfl
            · show closed r' = none
              rw [closed, if_neg fun h => hlate ((suffix_of_opened e'').subset h)]
          · rfl
      · rw [if_neg (by simpa using hd), if_neg (by simpa using hd)]
        exact ih

theorem opened_append (hword : 'R' ∉ word) (before f : List Char) :
    opened first word (before ++ 'R' :: f) =
      ((opened first word before).map (· ++ 'R' :: f)).or (opened first word ('R' :: f)) := by
  have hstops : StopsAt 'R' (openingTail word) := by
    refine (stopsAt_literal fun p hp => ?_).bind fun _ => (stopsAt_many (by decide)).bind fun _ =>
      (stopsAt_item (by decide)).bind fun _ => .pure _
    obtain ⟨c, hc, rfl⟩ := List.mem_map.mp hp
    exact decide_eq_false fun e => hword (e ▸ hc)
  rw [opened, search_append hstops, opened, opened]
  rcases search (after (fun d => decide (d = first)) (openingTail word)) before with - | r <;> rfl

/-- A text without the first letter of the word. -/
theorem opened_skip {text : List Char} (h : first ∉ text) (s : List Char) :
    opened first word (text ++ s) = opened first word s := by
  have hskip : ∀ d ∈ text, decide (d = first) = false := fun d hd =>
    decide_eq_false fun e => h (e ▸ hd)
  rw [opened, search_skip hskip, opened]

/-- The word, blanks, and a parenthesis. -/
theorem opened_word {blanks rest : List Char} (hblanks : ∀ d ∈ blanks, isPySpace d = true) :
    opened first word (first :: (word ++ (blanks ++ '(' :: rest))) = some rest := by
  have hliteral (s : List Char) : literal (word.map fun c d => decide (d = c)) (word ++ s) =
      some ((), s) := by
    induction word with
    | nil => rfl
    | cons c word ih =>
        have hitem : item (fun d => decide (d = c)) (c :: (word ++ s)) = some (c, word ++ s) :=
          if_pos (decide_eq_true rfl)
        exact (bind_of_eq hitem).trans ih
  have hstop : ∀ d ∈ ('(' :: rest).head?, isPySpace d = false := by
    rintro d ⟨⟩
    decide
  have htail : openingTail word (word ++ (blanks ++ '(' :: rest)) = some ((), rest) := by
    refine (bind_of_eq (hliteral _)).trans ((bind_of_eq (many_append hblanks hstop)).trans ?_)
    exact bind_of_eq (item_cons (by decide) rest)
  rw [opened, search_cons, after_cons, if_pos (decide_eq_true rfl), htail]
  rfl

end Details

/-! ### The details of the runner -/

section Runner

variable {py} (o : Outcome py)

theorem notMem_toDigits {c : Char} (hc : isDigit c = false) (n : Nat) : c ∉ Nat.toDigits 10 n :=
  fun h => by
    rw [Loads.isDigit_of_mem_toDigits h] at hc
    exact nomatch hc

/-- The words of the runner. -/
def runnerWords : List String :=
  ["", "failures", "errors", "skipped", "expected ", "unexpected ", "successes", "Ran ", " test in ",
    " tests in ", "s\n\n", "=", ", ", "."]

/-- A character that is no digit, and in none of the words, is not printed. -/
theorem notMem_infos {c : Char} (hc : isDigit c = false) (hwords : ∀ l ∈ runnerWords, c ∉ l.toList) :
    c ∉ o.infos := by
  refine Loads.notMem_intercalate (hwords ", " (by decide)) fun text htext => ?_
  obtain ⟨entry, hentry, rfl⟩ := List.mem_map.mp htext
  have hlabels : entry.1 ∈ runnerWords ∧ entry.2.1 ∈ runnerWords := by
    have hmem := List.mem_of_mem_filter hentry
    simp only [Outcome.labelled, List.mem_cons, List.not_mem_nil, or_false] at hmem
    rcases hmem with rfl | rfl | rfl | rfl | rfl <;> simp [runnerWords]
  have heq : c ≠ '=' := fun e => hwords "=" (by decide) (e ▸ List.mem_cons_self)
  simp only [Outcome.shownText, List.mem_append, List.mem_cons, not_or]
  exact ⟨⟨hwords _ hlabels.1, hwords _ hlabels.2⟩, heq, notMem_toDigits hc _⟩

theorem notMem_ranLine {c : Char} (hc : isDigit c = false)
    (hwords : ∀ l ∈ runnerWords, c ∉ l.toList) : c ∉ o.ranLine := by
  have hpoint : c ≠ '.' := fun e => hwords "." (by decide) (e ▸ List.mem_cons_self)
  have hseconds : c ∉ o.seconds := fun h => by
    rcases o.seconds_ascii c h with h | h
    · rw [hc] at h
      exact nomatch h
    · exact hpoint h
  have htests : c ∉ (if o.tests = 1 then " test in " else " tests in ").toList := by
    split
    · exact hwords _ (by decide)
    · exact hwords _ (by decide)
  simp only [Outcome.ranLine_eq, List.mem_append, not_or]
  exact ⟨⟨⟨⟨hwords _ (by decide), notMem_toDigits hc _⟩, htests⟩, hseconds⟩, hwords _ (by decide)⟩

theorem shown_ne_nil (h : o.successful = false) : o.shown ≠ [] := by
  intro hnil
  have hall : ∀ entry ∈ o.labelled, entry.2.2 = 0 := fun entry hentry => by
    by_contra hne
    have : entry ∈ o.shown := List.mem_filter.mpr ⟨hentry, decide_eq_true hne⟩
    rw [hnil] at this
    exact nomatch this
  have hzero : o.successful = true := decide_eq_true
    ⟨hall ("", "failures", o.failures) (by simp [Outcome.labelled]),
      hall ("", "errors", o.errors) (by simp [Outcome.labelled]),
      hall ("unexpected ", "successes", o.unexpectedSuccesses) (by simp [Outcome.labelled])⟩
  rw [hzero] at h
  exact nomatch h

/-- The parenthesis of the runner, as it is read back. -/
def ownDetails : Option (List Char) := if o.shown = [] then none else some o.infos

theorem opened_failed : opened 'F' "AILED".toList o.finalLines =
    if o.successful then none else some (o.infos ++ [')', '\n']) := by
  have hline : 'F' ∉ o.ranLine := notMem_ranLine o (by decide) (by decide)
  rw [Outcome.finalLines, opened_skip hline, Outcome.verdict]
  cases hsuccess : o.successful with
  | true =>
      have hinfos : 'F' ∉ o.infos := notMem_infos o (by decide) (by decide)
      have hverdict : 'F' ∉ "OK".toList ++ (if o.shown = [] then [] else
          " (".toList ++ o.infos ++ [')']) ++ ['\n'] := by
        split <;> simp [hinfos]
      rw [if_pos rfl, if_pos rfl, ← List.append_nil (_ ++ ['\n']), opened_skip hverdict]
      rfl
  | false =>
      have hword : "FAILED".toList = 'F' :: "AILED".toList := rfl
      have hopen : " (".toList = [' '] ++ ['('] := rfl
      have hblank : ∀ d ∈ [' '], isPySpace d = true := List.forall_mem_singleton.mpr (by decide)
      show opened 'F' "AILED".toList ("FAILED".toList ++
        (if o.shown = [] then [] else " (".toList ++ o.infos ++ [')']) ++ ['\n']) = _
      rw [if_neg (shown_ne_nil o hsuccess), hword, hopen]
      refine (congrArg _ ?_).trans (opened_word hblank)
      simp only [List.append_assoc, List.cons_append, List.nil_append]

theorem opened_ok (hsuccess : o.successful = true) : opened 'O' "K".toList o.finalLines =
    if o.shown = [] then none else some (o.infos ++ [')', '\n']) := by
  have hline : 'O' ∉ o.ranLine := notMem_ranLine o (by decide) (by decide)
  rw [Outcome.finalLines, opened_skip hline, Outcome.verdict, hsuccess]
  by_cases hnil : o.shown = []
  · rw [if_pos hnil, if_pos hnil]
    rfl
  · have hword : "OK".toList = 'O' :: "K".toList := rfl
    have hopen : " (".toList = [' '] ++ ['('] := rfl
    have hblank : ∀ d ∈ [' '], isPySpace d = true := List.forall_mem_singleton.mpr (by decide)
    rw [if_neg hnil, if_neg hnil, if_pos rfl, hword, hopen]
    refine (congrArg _ ?_).trans (opened_word hblank)
    simp only [List.append_assoc, List.cons_append, List.nil_append]

theorem closed_infos : closed (o.infos ++ [')', '\n']) = some o.infos :=
  closed_append (notMem_infos o (by decide) (by decide))

theorem mem_finalLines (h : o.shown ≠ []) : ')' ∈ o.finalLines := by
  rw [Outcome.finalLines, Outcome.verdict, if_neg h]
  simp

/-- The text with the details, where it begins before the last lines: a parenthesis that the tests
have printed behind "FAILED", or, of a run that succeeds, one behind "OK". -/
def strayDetails (before : List Char) : Option (List Char) :=
  ((opened 'F' "AILED".toList before).bind fun text => closed (text ++ o.finalLines)).or
    (if o.successful then
      (opened 'O' "K".toList before).bind fun text => closed (text ++ o.finalLines)
    else none)

theorem closed_finalLines (h : o.shown ≠ []) (text : List Char) :
    ∃ found, closed (text ++ o.finalLines) = some found :=
  ⟨_, if_pos (List.mem_append_right _ (mem_finalLines o h))⟩

theorem finalLines_cons : ∃ f, o.finalLines = 'R' :: f := by
  obtain ⟨rest, h⟩ := finalLines_eq o
  exact ⟨_, h⟩

theorem opened_finalLines (first : Char) {word : List Char} (hword : 'R' ∉ word)
    (before : List Char) : opened first word (before ++ o.finalLines) =
      ((opened first word before).map (· ++ o.finalLines)).or (opened first word o.finalLines) := by
  obtain ⟨f, hf⟩ := finalLines_cons o
  rw [hf]
  exact opened_append hword before f

/-- The details are those that the tests have printed, or else those of the runner. -/
theorem details_finalLines (before : List Char) :
    details (before ++ o.finalLines) = (strayDetails o before).or (ownDetails o) := by
  have hfailed := opened_finalLines o 'F' (show 'R' ∉ "AILED".toList by decide) before
  have hok := opened_finalLines o 'O' (show 'R' ∉ "K".toList by decide) before
  rw [opened_failed] at hfailed
  rw [details, failedDetail, okDetail, search_detail (by decide), search_detail (by decide), hfailed,
    hok, strayDetails, ownDetails]
  cases hsuccess : o.successful with
  | false =>
      -- the parenthesis of the runner closes every one that is open
      have hshown := shown_ne_nil o hsuccess
      rw [if_neg hshown]
      rcases opened 'F' "AILED".toList before with - | text
      · show ((some (o.infos ++ [')', '\n'])).bind closed).or _ = _
        rw [Option.bind_some, closed_infos]
        rfl
      · obtain ⟨found, hfound⟩ := closed_finalLines o hshown text
        show (closed (text ++ o.finalLines)).or _ = ((closed (text ++ o.finalLines)).or none).or _
        rw [hfound]
        rfl
  | true =>
      have hown : ((opened 'O' "K".toList o.finalLines).bind closed) =
          if o.shown = [] then none else some o.infos := by
        rw [opened_ok o hsuccess]
        split
        · rfl
        · exact closed_infos o
      have hbefore : (((opened 'F' "AILED".toList before).map (· ++ o.finalLines)).or
          (if true = true then none else some (o.infos ++ [')', '\n']))).bind closed =
          (opened 'F' "AILED".toList before).bind fun text => closed (text ++ o.finalLines) := by
        rcases opened 'F' "AILED".toList before with - | text <;> rfl
      rw [hbefore, if_pos rfl, Option.or_assoc]
      refine congrArg _ ?_
      rcases opened 'O' "K".toList before with - | text
      · exact hown
      · show closed (text ++ o.finalLines) = (closed (text ++ o.finalLines)).or _
        split
        · exact Option.or_none.symm
        · obtain ⟨found, hfound⟩ := closed_finalLines o ‹_› text
          rw [hfound]
          rfl

/-! ### The numbers of the runner -/

/-- A word with a blank behind it is no key. -/
theorem count_blank {word : List Char} (hword : ∀ c ∈ word, isKeyChar c = true) (s : List Char) :
    count py (word ++ ' ' :: s) = none := by
  cases word with
  | nil => rfl
  | cons c word =>
      have hstop : ∀ d ∈ (' ' :: s).head?, isKeyChar d = false := by
        rintro d ⟨⟩
        decide
      exact bind_of_eq (several_append (List.cons_ne_nil c word) hword hstop)

/-- What stands before a key and is not read. -/
def Skipped (text : List Char) : Prop :=
  text = [] ∨ ∃ word, text = word ++ [' '] ∧ ∀ c ∈ word, isKeyChar c = true

theorem findAll_skipped {text : List Char} (h : Skipped text) (s : List Char) :
    findAll (count py) (text ++ s) = findAll (count py) s := by
  obtain rfl | ⟨word, rfl, hword⟩ := h
  · rfl
  · refine findAll_skip fun t hne hsuffix => ?_
    obtain ⟨word', rfl, hword'⟩ := (List.suffix_concat_iff.mp hsuffix).resolve_left hne
    have hsub : ∀ c ∈ word', isKeyChar c = true := fun c hc => hword c (hword'.subset hc)
    rw [List.append_assoc]
    exact count_blank hsub s

theorem findAll_entry {word : List Char} (hne : word ≠ []) (hword : ∀ c ∈ word, isKeyChar c = true)
    (n : Nat) {s : List Char} (hs : ∀ d ∈ s.head?, py.isDecimal d = false) :
    findAll (count py) (word ++ '=' :: Nat.toDigits 10 n ++ s) =
      (word, Nat.toDigits 10 n) :: findAll (count py) s := by
  obtain ⟨c, word, rfl⟩ := List.exists_cons_of_ne_nil hne
  have hstop : ∀ d ∈ ('=' :: (Nat.toDigits 10 n ++ s)).head?, isKeyChar d = false := by
    rintro d ⟨⟩
    decide
  have hcount : count py (c :: word ++ '=' :: (Nat.toDigits 10 n ++ s)) =
      some ((c :: word, Nat.toDigits 10 n), s) := by
    refine (bind_of_eq (several_append hne hword hstop)).trans ?_
    refine (bind_of_eq (item_cons (by decide) _)).trans ?_
    exact (bind_of_eq (several_append Nat.toDigits_ne_nil (digits_printed n) hs)).trans rfl
  have heq : c :: word ++ '=' :: Nat.toDigits 10 n ++ s =
      c :: (word ++ '=' :: Nat.toDigits 10 n) ++ s := rfl
  rw [heq]
  refine findAll_match ?_
  simpa using hcount

/-- A label whose word is a key, and whose prefix is not read. -/
def Readable (entry : String × String × Nat) : Prop :=
  Skipped entry.1.toList ∧ entry.2.1.toList ≠ [] ∧ ∀ c ∈ entry.2.1.toList, isKeyChar c = true

theorem findAll_intercalate {entries : List (String × String × Nat)}
    (h : ∀ entry ∈ entries, Readable entry) :
    findAll (count py) ([',', ' '].intercalate (entries.map Outcome.shownText)) =
      entries.map fun entry => (entry.2.1.toList, Nat.toDigits 10 entry.2.2) := by
  induction entries with
  | nil => rfl
  | cons entry entries ih =>
      obtain ⟨⟨hskip, hne, hword⟩, hentries⟩ := List.forall_mem_cons.mp h
      have htext : Outcome.shownText entry =
          entry.1.toList ++ (entry.2.1.toList ++ '=' :: Nat.toDigits 10 entry.2.2) :=
        List.append_assoc _ _ _
      cases entries with
      | nil =>
          rw [List.map_singleton, List.intercalate_singleton, htext, findAll_skipped hskip]
          have hlast : ∀ d ∈ ([] : List Char).head?, py.isDecimal d = false := nofun
          have := findAll_entry hne hword entry.2.2 hlast
          rwa [List.append_nil] at this
      | cons entry' entries =>
          have hcomma : ∀ s : List Char, findAll (count py) (',' :: ' ' :: s) = findAll (count py) s :=
            fun s => rfl
          have hstop : ∀ s : List Char, ∀ d ∈ (',' :: ' ' :: s).head?, py.isDecimal d = false := by
            rintro s d ⟨⟩
            exact Decimals.isDecimal_ascii (by decide)
          rw [List.map_cons, List.map_cons, List.intercalate_cons_cons, htext, List.append_assoc,
            List.append_assoc, findAll_skipped hskip, ← List.append_assoc]
          rw [List.append_assoc _ [',', ' '] _]
          refine (findAll_entry hne hword entry.2.2 (hstop _)).trans ?_
          exact congrArg (List.cons _) ((hcomma _).trans (ih hentries))

theorem readable_labelled : ∀ entry ∈ o.labelled, Readable entry := by
  have hwords : ["failures", "errors", "skipped", "successes", "expected", "unexpected"].all
      (fun w => w.toList.all isKeyChar) = true := by decide
  have hword := fun w hw => List.all_eq_true.mp (List.all_eq_true.mp hwords w hw)
  have hnone : Skipped "".toList := .inl rfl
  have hexpected : "expected ".toList = "expected".toList ++ [' '] := rfl
  have hunexpected : "unexpected ".toList = "unexpected".toList ++ [' '] := rfl
  intro entry hentry
  simp only [Outcome.labelled, List.mem_cons, List.not_mem_nil, or_false] at hentry
  rcases hentry with rfl | rfl | rfl | rfl | rfl
  · exact ⟨hnone, by simp, hword _ (by simp)⟩
  · exact ⟨hnone, by simp, hword _ (by simp)⟩
  · exact ⟨hnone, by simp, hword _ (by simp)⟩
  · exact ⟨.inr ⟨"expected".toList, hexpected, hword _ (by simp)⟩, by simp, hword _ (by simp)⟩
  · exact ⟨.inr ⟨"unexpected".toList, hunexpected, hword _ (by simp)⟩, by simp, hword _ (by simp)⟩

theorem findAll_infos : findAll (count py) o.infos =
    o.shown.map fun entry => (entry.2.1.toList, Nat.toDigits 10 entry.2.2) :=
  findAll_intercalate fun entry h => readable_labelled o entry (List.mem_of_mem_filter h)

end Runner

/-! ### The last number of a key -/

section Recorded

variable {py}

/-- A number, as it is found in a text. -/
abbrev Entry := List Char × List Char

/-- `key.lower()` -/
def keyOf (entry : Entry) : String := String.ofList (entry.1.map Char.toLower)

/-- The digits of the last number of a key. -/
def lastOf (key : String) : List Entry → Option (List Char)
  | [] => none
  | entry :: entries => (lastOf key entries).or (if keyOf entry = key then some entry.2 else none)

/-- The numbers can be read. -/
def Legible (py : Decimals) (entries : List Entry) : Prop :=
  ∀ entry ∈ entries, keyOf entry ∈ Counts.setters.map (·.1) → ∃ n, py.int entry.2 = .ok n

/-- What the entries say of a key that was `n`. -/
def Says (py : Decimals) (entries : List Entry) (key : String) (n : Nat) (found : Nat) : Prop :=
  match lastOf key entries with
  | none => found = n
  | some digits => py.int digits = .ok found

/-- This field has this key. -/
def FieldOf (key : String) (get : Counts → Nat) : Prop :=
  ∀ setter ∈ Counts.setters, ∀ counts n,
    get (setter.2 counts n) = if setter.1 = key then n else get counts

theorem fieldOf_each : FieldOf "tests" Counts.tests ∧ FieldOf "failures" Counts.failures ∧
    FieldOf "errors" Counts.errors ∧ FieldOf "skipped" Counts.skipped := by
  refine ⟨?_, ?_, ?_, ?_⟩ <;>
    · intro setter hsetter counts n
      simp only [Counts.setters, List.mem_cons, List.not_mem_nil, or_false] at hsetter
      rcases hsetter with rfl | rfl | rfl | rfl | rfl | rfl <;> rfl

theorem mem_of_lookup {key : String} {set : Counts → Nat → Counts}
    (h : Counts.setters.lookup key = some set) : (key, set) ∈ Counts.setters := by
  obtain ⟨l, r, heq, -⟩ := List.lookup_eq_some_iff.mp h
  rw [heq]
  exact List.mem_append_right l List.mem_cons_self

/-- One entry. -/
theorem record_eq (py : Decimals) (counts : Counts) (entry : Entry) :
    (keyOf entry ∉ Counts.setters.map (·.1) ∧ counts.record py entry = .ok counts) ∨
      ∃ set, (keyOf entry, set) ∈ Counts.setters ∧
        counts.record py entry = (py.int entry.2).map (set counts) := by
  rcases e : Counts.setters.lookup (keyOf entry) with - | set
  · refine .inl ⟨fun hmem => ?_, ?_⟩
    · obtain ⟨⟨key, set⟩, hset, hkey⟩ := List.mem_map.mp hmem
      have := List.lookup_eq_none_iff.mp e (key, set) hset
      simp [← hkey] at this
    · rw [Counts.record, ← keyOf, e]
  · refine .inr ⟨set, mem_of_lookup e, ?_⟩
    rw [Counts.record, ← keyOf, e]

theorem ok_record_iff (counts : Counts) (entry : Entry) :
    (∃ c, counts.record py entry = .ok c) ↔
      (keyOf entry ∈ Counts.setters.map (·.1) → ∃ n, py.int entry.2 = .ok n) := by
  rcases record_eq py counts entry with ⟨hnot, hrecord⟩ | ⟨set, hset, hrecord⟩
  · exact iff_of_true ⟨_, hrecord⟩ fun h => absurd h hnot
  · have hkey : keyOf entry ∈ Counts.setters.map (·.1) := List.mem_map_of_mem hset
    rw [hrecord]
    rcases py.int entry.2 with exc | n
    · exact iff_of_false nofun fun h => nomatch h hkey
    · exact iff_of_true ⟨_, rfl⟩ fun _ => ⟨n, rfl⟩

/-- All entries are recorded if and only if their numbers can be read. -/
theorem ok_foldlM_record_iff (counts : Counts) (entries : List Entry) :
    (∃ c, entries.foldlM (Counts.record py) counts = .ok c) ↔ Legible py entries := by
  induction entries generalizing counts with
  | nil => exact iff_of_true ⟨counts, rfl⟩ (List.forall_mem_nil _)
  | cons entry entries ih =>
      rw [Legible, List.forall_mem_cons, ← Legible, ← ok_record_iff counts entry, List.foldlM_cons]
      rcases hrecord : counts.record py entry with exc | c
      · exact iff_of_false nofun fun h => nomatch h.1
      · exact (ih c).trans (and_iff_right ⟨c, rfl⟩).symm

theorem get_record {key : String} {get : Counts → Nat} (hget : FieldOf key get) {counts c : Counts}
    {entry : Entry} (h : counts.record py entry = .ok c) (hkey : key ∈ Counts.setters.map (·.1)) :
    if keyOf entry = key then py.int entry.2 = .ok (get c) else get c = get counts := by
  rcases record_eq py counts entry with ⟨hnot, hrecord⟩ | ⟨set, hset, hrecord⟩
  · have hne : keyOf entry ≠ key := fun e => hnot (e ▸ hkey)
    rw [hrecord] at h
    rw [if_neg hne, Except.ok.inj h]
  · rw [hrecord] at h
    rcases hint : py.int entry.2 with exc | n
    · rw [hint] at h
      exact nomatch h
    · rw [hint] at h
      have hc : get c = if keyOf entry = key then n else get counts :=
        (congrArg get (Except.ok.inj h).symm).trans (hget _ hset counts n)
      split_ifs with he
      · rw [hc, if_pos he]
      · rw [hc, if_neg he]

/-- A field is the last number of its key. -/
theorem says_foldlM {key : String} {get : Counts → Nat} (hget : FieldOf key get)
    (hkey : key ∈ Counts.setters.map (·.1)) {entries : List Entry} {counts c : Counts}
    (h : entries.foldlM (Counts.record py) counts = .ok c) :
    Says py entries key (get counts) (get c) := by
  induction entries generalizing counts with
  | nil =>
      show get c = get counts
      rw [Except.ok.inj h]
  | cons entry entries ih =>
      rw [List.foldlM_cons] at h
      rcases hrecord : counts.record py entry with exc | c'
      · rw [hrecord] at h
        exact nomatch h
      · rw [hrecord] at h
        have hlast := ih h
        have hfirst := get_record hget hrecord hkey
        rw [Says, lastOf]
        rw [Says] at hlast
        rcases e : lastOf key entries with - | digits
        · rw [e] at hlast
          replace hlast : get c = get c' := hlast
          rw [Option.none_or, hlast]
          split_ifs at hfirst ⊢
          · exact hfirst
          · exact hfirst
        · rw [e] at hlast
          exact hlast

theorem Says.inj {entries : List Entry} {key : String} {n found found' : Nat}
    (h : Says py entries key n found) (h' : Says py entries key n found') : found = found' := by
  rw [Says] at h h'
  rcases e : lastOf key entries with - | digits
  · rw [e] at h h'
    exact Eq.trans h (Eq.symm h')
  · rw [e] at h h'
    exact Except.ok.inj (Eq.trans (Eq.symm h) h')

end Recorded

end Konoha.Release
