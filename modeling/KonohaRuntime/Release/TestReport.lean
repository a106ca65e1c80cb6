/-
Release/TestReport.lean

The canonical test gate: every suite is run by unittest, the numbers that are read of its output are
summed up, and the release workflow asks for the planned sums.

`faithful_iff`: when the gate reports the numbers of the suites.
-/
import KonohaRuntime.Release.TestCounts

namespace Konoha.Release

open Loads (isDigit)

variable (py : Decimals)

/-! ### `run_suite` and `build_report` -/

/-- How the process of a suite ends. -/
inductive Ending
  | completed (returncode : Int) (stdout stderr : List Char)
  | timeoutExpired (stdout stderr : List Char)

/-- `"\n".join(part for part in (stdout, stderr) if part)` -/
def combined (stdout stderr : List Char) : List Char :=
  ['\n'].intercalate ([stdout, stderr].filter fun part => part ≠ [])

structure SuiteResult where
  passed : Bool
  timedOut : Bool
  counts : Counts

/-- `run_suite` -/
def runSuite : Ending → Except PyExc SuiteResult
  | .completed returncode stdout stderr =>
      (parseUnittestCounts py (combined stdout stderr)).map fun counts =>
        { passed := returncode = 0, timedOut := false, counts }
  | .timeoutExpired stdout stderr =>
      (parseUnittestCounts py (combined stdout stderr)).map fun counts =>
        { passed := false, timedOut := true, counts }

/-- `summary` of `build_report` -/
def summaryOf (discovered : Nat) (results : List SuiteResult) : TestSummary where
  discoveredSuiteCount := discovered
  selectedSuiteCount := results.length
  passedSuiteCount := results.countP (·.passed)
  failedSuiteCount := results.length - results.countP (·.passed)
  testCount := (results.map (·.counts.tests)).sum
  failureCount := (results.map (·.counts.failures)).sum
  errorCount := (results.map (·.counts.errors)).sum
  timeoutCount := results.countP (·.timedOut)

structure TestReport where
  summary : TestSummary
  passed : Bool

/-- `build_report`, of the suites that are selected -/
def buildReport (discovered : Nat) (selected : List Ending) : Except PyExc TestReport := do
  if selected = [] then throw (.exception "no test suite directories were discovered")
  let results ← selected.mapM (runSuite py)
  let summary := summaryOf discovered results
  return { summary, passed := summary.failedSuiteCount = 0 }

/-! ### Runs of unittest -/

/-- A run of unittest. -/
structure SuiteRun where
  outcome : Outcome py
  /-- What the tests print. -/
  stdout : List Char
  /-- What is printed on the other stream before the last lines. -/
  progress : List Char

namespace SuiteRun

variable {py} (r : SuiteRun py)

def stderr : List Char := r.progress ++ r.outcome.finalLines

/-- The process of a run. -/
def ending : Ending :=
  .completed (if r.outcome.successful then 0 else 1) r.stdout r.stderr

/-- What is read before the last lines. -/
def before : List Char := (if r.stdout = [] then [] else r.stdout ++ ['\n']) ++ r.progress

/-- The numbers are those of the run. -/
structure Exact (counts : Counts) : Prop where
  tests : counts.tests = r.outcome.tests
  failures : counts.failures = r.outcome.failures
  errors : counts.errors = r.outcome.errors
  skipped : counts.skipped = r.outcome.skipped

/-- What a text in a parenthesis says, where `n` tests have been read. -/
structure Matches (entries : List Entry) (n : Nat) : Prop where
  legible : Legible py entries
  tests : Says py entries "tests" n r.outcome.tests
  failures : Says py entries "failures" 0 r.outcome.failures
  errors : Says py entries "errors" 0 r.outcome.errors
  skipped : Says py entries "skipped" 0 r.outcome.skipped

/-- The digits behind the first "Ran". -/
def digits : List Char := (ranDigits py r.before).getD (Nat.toDigits 10 r.outcome.tests)

/-- The tests print nothing that is taken for the last lines and differs from them; and of the last
lines, the number of the expected failures is not taken for another number of failures. -/
def Harmless : Prop :=
  ∃ n, py.int r.digits = .ok n ∧
    match strayDetails r.outcome r.before with
    | none => n = r.outcome.tests ∧
        (r.outcome.expectedFailures = 0 ∨ r.outcome.expectedFailures = r.outcome.failures)
    | some text => r.Matches (Search.findAll (count py) text) n

end SuiteRun

/-! ### One run -/

section Run

variable {py} (r : SuiteRun py)

theorem finalLines_ne_nil (o : Outcome py) : o.finalLines ≠ [] := by
  obtain ⟨f, hf⟩ := finalLines_cons o
  rw [hf]
  exact List.cons_ne_nil _ _

theorem combined_stderr : combined r.stdout r.stderr = r.before ++ r.outcome.finalLines := by
  have hne : r.stderr ≠ [] := fun h => finalLines_ne_nil r.outcome (List.append_eq_nil_iff.mp h).2
  rw [SuiteRun.before, List.append_assoc, ← SuiteRun.stderr, combined]
  by_cases hout : r.stdout = []
  · simp [hout, hne]
  · simp [hout, hne]

theorem mem_setters : ∀ key ∈ ["tests", "failures", "errors", "skipped"],
    key ∈ Counts.setters.map (·.1) := by
  intro key hkey
  simp only [List.mem_cons, List.not_mem_nil, or_false] at hkey
  rcases hkey with rfl | rfl | rfl | rfl <;> simp [Counts.setters]

/-- What is read of a text. -/
theorem exact_recordAll_iff (text : List Char) (n : Nat) :
    (∃ counts, Counts.recordAll py { tests := n } text = .ok counts ∧ r.Exact counts) ↔
      r.Matches (Search.findAll (count py) text) n := by
  have hkey := mem_setters
  obtain ⟨htests, hfailures, herrors, hskipped⟩ := fieldOf_each
  constructor
  · rintro ⟨counts, h, hexact⟩
    exact {
      legible := (ok_foldlM_record_iff _ _).mp ⟨counts, h⟩
      tests := hexact.tests ▸ says_foldlM htests (hkey _ (by simp)) h
      failures := hexact.failures ▸ says_foldlM hfailures (hkey _ (by simp)) h
      errors := hexact.errors ▸ says_foldlM herrors (hkey _ (by simp)) h
      skipped := hexact.skipped ▸ says_foldlM hskipped (hkey _ (by simp)) h }
  · intro hm
    obtain ⟨counts, h⟩ := (ok_foldlM_record_iff { tests := n } _).mpr hm.legible
    refine ⟨counts, h, ?_⟩
    exact {
      tests := (says_foldlM htests (hkey _ (by simp)) h).inj hm.tests
      failures := (says_foldlM hfailures (hkey _ (by simp)) h).inj hm.failures
      errors := (says_foldlM herrors (hkey _ (by simp)) h).inj hm.errors
      skipped := (says_foldlM hskipped (hkey _ (by simp)) h).inj hm.skipped }

/-! ### The last lines -/

/-- A number of the runner, as it is found in its text. -/
def foundIn (entry : String × String × Nat) : Entry :=
  (entry.2.1.toList, Nat.toDigits 10 entry.2.2)

/-- The entries of the numbers that are printed. -/
def printedEntries (entries : List (String × String × Nat)) : List Entry :=
  (entries.filter fun entry => entry.2.2 ≠ 0).map foundIn

theorem lastOf_printedEntries (key : String) (entry : String × String × Nat)
    (entries : List (String × String × Nat)) :
    lastOf key (printedEntries (entry :: entries)) =
      (lastOf key (printedEntries entries)).or
        (if entry.2.2 ≠ 0 ∧ keyOf (foundIn entry) = key then some (Nat.toDigits 10 entry.2.2)
        else none) := by
  by_cases hn : entry.2.2 = 0
  · have hskip : printedEntries (entry :: entries) = printedEntries entries :=
      congrArg (List.map foundIn) (List.filter_cons_of_neg (by simpa using hn))
    rw [hskip, if_neg fun h => h.1 hn, Option.or_none]
  · have hkeep : printedEntries (entry :: entries) = foundIn entry :: printedEntries entries :=
      congrArg (List.map foundIn) (List.filter_cons_of_pos (by simpa using hn))
    rw [hkeep, lastOf]
    by_cases hkey : keyOf (foundIn entry) = key
    · rw [if_pos hkey, if_pos ⟨hn, hkey⟩]
      rfl
    · rw [if_neg hkey, if_neg fun h => hkey h.2]

theorem keyOf_foundIn (label word : String) (n : Nat) :
    keyOf (foundIn (label, word, n)) = String.ofList (word.toList.map Char.toLower) := by
  rw [keyOf, foundIn]

/-- What the runner says of a key. -/
theorem lastOf_shown (o : Outcome py) (key : String) : lastOf key (o.shown.map foundIn) =
    (((((if o.unexpectedSuccesses ≠ 0 ∧ "successes" = key then
      some (Nat.toDigits 10 o.unexpectedSuccesses) else none).or
    (if o.expectedFailures ≠ 0 ∧ "failures" = key then
      some (Nat.toDigits 10 o.expectedFailures) else none)).or
    (if o.skipped ≠ 0 ∧ "skipped" = key then some (Nat.toDigits 10 o.skipped) else none)).or
    (if o.errors ≠ 0 ∧ "errors" = key then some (Nat.toDigits 10 o.errors) else none)).or
    (if o.failures ≠ 0 ∧ "failures" = key then some (Nat.toDigits 10 o.failures) else none)) := by
  have hfailures (label : String) (n : Nat) : keyOf (foundIn (label, "failures", n)) = "failures" :=
    (keyOf_foundIn label "failures" n).trans (by decide)
  have herrors (n : Nat) : keyOf (foundIn ("", "errors", n)) = "errors" :=
    (keyOf_foundIn "" "errors" n).trans (by decide)
  have hskipped (n : Nat) : keyOf (foundIn ("", "skipped", n)) = "skipped" :=
    (keyOf_foundIn "" "skipped" n).trans (by decide)
  have hsuccesses (n : Nat) : keyOf (foundIn ("unexpected ", "successes", n)) = "successes" :=
    (keyOf_foundIn "unexpected " "successes" n).trans (by decide)
  show lastOf key (printedEntries o.labelled) = _
  simp only [Outcome.labelled, lastOf_printedEntries, hfailures, herrors, hskipped, hsuccesses]
  rfl

/-- A key that is said once. -/
theorem says_ite {entries : List Entry} {key : String} {m : Nat} (hm : py.Prints m)
    (h : lastOf key entries = if m ≠ 0 then some (Nat.toDigits 10 m) else none) (found : Nat) :
    Says py entries key 0 found ↔ found = m := by
  rw [Says, h]
  split_ifs with h0
  · show py.int (Nat.toDigits 10 m) = .ok found ↔ _
    rw [Decimals.int_toDigits hm, Except.ok.injEq]
    exact eq_comm
  · rw [not_not.mp h0]

theorem prints_all (o : Outcome py) : py.Prints o.failures ∧ py.Prints o.errors ∧
    py.Prints o.skipped ∧ py.Prints o.expectedFailures ∧ py.Prints o.unexpectedSuccesses := by
  have h := o.printed
  simp only [List.forall_mem_cons] at h
  exact ⟨h.2.1, h.2.2.1, h.2.2.2.1, h.2.2.2.2.1, h.2.2.2.2.2.1⟩

theorem legible_shown (o : Outcome py) : Legible py (o.shown.map foundIn) := by
  rintro entry hentry -
  obtain ⟨labelled, hmem, rfl⟩ := List.mem_map.mp hentry
  refine ⟨labelled.2.2, Decimals.int_toDigits ?_⟩
  obtain ⟨hfailures, herrors, hskipped, hexpected, hunexpected⟩ := prints_all o
  have hlabelled := List.mem_of_mem_filter hmem
  simp only [Outcome.labelled, List.mem_cons, List.not_mem_nil, or_false] at hlabelled
  rcases hlabelled with rfl | rfl | rfl | rfl | rfl
  · exact hfailures
  · exact herrors
  · exact hskipped
  · exact hexpected
  · exact hunexpected

/-- The numbers of the runner are read, except that the expected failures are taken for failures. -/
theorem matches_shown_iff (n : Nat) : r.Matches (r.outcome.shown.map foundIn) n ↔
    n = r.outcome.tests ∧
      (r.outcome.expectedFailures = 0 ∨ r.outcome.expectedFailures = r.outcome.failures) := by
  obtain ⟨hfailures, herrors, hskipped, hexpected, -⟩ := prints_all r.outcome
  have htests : Says py (r.outcome.shown.map foundIn) "tests" n r.outcome.tests ↔
      r.outcome.tests = n := by
    rw [Says, lastOf_shown]
    simp
  have hfound : Says py (r.outcome.shown.map foundIn) "failures" 0 r.outcome.failures ↔
      r.outcome.expectedFailures = 0 ∨ r.outcome.expectedFailures = r.outcome.failures := by
    by_cases hx : r.outcome.expectedFailures = 0
    · refine (says_ite hfailures ?_ _).trans (iff_of_true rfl (.inl hx))
      rw [lastOf_shown]
      simp [hx]
    · refine (says_ite hexpected ?_ _).trans ?_
      · rw [lastOf_shown]
        simp [hx]
      · exact eq_comm.trans (or_iff_right hx).symm
  have herrors' : Says py (r.outcome.shown.map foundIn) "errors" 0 r.outcome.errors := by
    refine (says_ite herrors ?_ _).mpr rfl
    rw [lastOf_shown]
    simp
  have hskipped' : Says py (r.outcome.shown.map foundIn) "skipped" 0 r.outcome.skipped := by
    refine (says_ite hskipped ?_ _).mpr rfl
    rw [lastOf_shown]
    simp
  constructor
  · intro hm
    exact ⟨(htests.mp hm.tests).symm, hfound.mp hm.failures⟩
  · rintro ⟨hn, hx⟩
    exact ⟨legible_shown _, htests.mpr hn.symm, hfound.mpr hx, herrors', hskipped'⟩

theorem ranDigits_run : ranDigits py (r.before ++ r.outcome.finalLines) = some r.digits := by
  rw [ranDigits_finalLines, SuiteRun.digits]
  rcases ranDigits py r.before with - | digits <;> rfl

/-- What is read of a run. -/
theorem parse_run {n : Nat} (hn : py.int r.digits = .ok n) :
    parseUnittestCounts py (combined r.stdout r.stderr) =
      match (strayDetails r.outcome r.before).or (ownDetails r.outcome) with
      | none => .ok { tests := n }
      | some text => Counts.recordAll py { tests := n } text := by
  obtain ⟨⟨digits, rest⟩, hsearch, rfl⟩ := Option.map_eq_some_iff.mp (ranDigits_run r)
  rw [combined_stderr, parseUnittestCounts, hsearch, details_finalLines]
  show (do let tests ← py.int r.digits; _) = _
  rw [hn]
  rfl

theorem parse_run_error {exc : PyExc} (h : py.int r.digits = .error exc) :
    parseUnittestCounts py (combined r.stdout r.stderr) = .error exc := by
  obtain ⟨⟨digits, rest⟩, hsearch, rfl⟩ := Option.map_eq_some_iff.mp (ranDigits_run r)
  rw [combined_stderr, parseUnittestCounts, hsearch]
  show (do let tests ← py.int r.digits; _) = _
  rw [h]
  rfl

/-- The numbers that are read are those of the run if and only if nothing is taken for them that is
not. -/
theorem exact_iff_harmless : (∃ counts, parseUnittestCounts py (combined r.stdout r.stderr) =
    .ok counts ∧ r.Exact counts) ↔ r.Harmless := by
  rw [SuiteRun.Harmless]
  rcases hint : py.int r.digits with exc | n
  · rw [parse_run_error r hint]
    exact iff_of_false (fun ⟨_, h, _⟩ => nomatch h) fun ⟨_, h, _⟩ => nomatch h
  · have hone {P : Nat → Prop} : (∃ m, (Except.ok n : Except PyExc Nat) = .ok m ∧ P m) ↔ P n :=
      ⟨fun ⟨_, hm, h⟩ => Except.ok.inj hm ▸ h, fun h => ⟨n, rfl, h⟩⟩
    rw [parse_run r hint, hone]
    rcases strayDetails r.outcome r.before with - | text
    · show _ ↔ n = r.outcome.tests ∧ (_ ∨ _)
      rw [← matches_shown_iff, Option.none_or, ownDetails]
      split_ifs with hshown
      · rw [hshown]
        exact exact_recordAll_iff r [] n
      · have hfound : Search.findAll (count py) r.outcome.infos = r.outcome.shown.map foundIn :=
          findAll_infos r.outcome
        rw [← hfound]
        exact exact_recordAll_iff r r.outcome.infos n
    · exact exact_recordAll_iff r text n

end Run

/-! ### The gate -/

section Gate

variable {py}

/-- What the gate makes of runs of unittest: the numbers of each are read; and when all pass, nothing
has failed by the report, and the release workflow accepts it, if it has planned these suites and
tests. -/
structure Faithful (runs : List (SuiteRun py)) : Prop where
  exact : ∀ r ∈ runs, ∃ counts,
    parseUnittestCounts py (combined r.stdout r.stderr) = .ok counts ∧ r.Exact counts
  passes : runs ≠ [] → (∀ r ∈ runs, r.outcome.successful = true) →
    ∃ report, buildReport py runs.length (runs.map SuiteRun.ending) = .ok report ∧
      report.summary.failureCount = 0 ∧ report.summary.errorCount = 0 ∧
        ∀ (plan : Plan) (closure : ClosureReport), plan.expectedTestGate.suiteCount = runs.length →
          plan.expectedTestGate.testCount = (runs.map (·.outcome.tests)).sum →
          closure.testGate.summary = report.summary → closure.testGate.passed = report.passed →
          closure.testGate.headUnchanged = true →
            validateTestSummary plan closure = .ok report.summary

/-- The result of a suite that passes, with the numbers of its run. -/
def SuiteRun.Passes (r : SuiteRun py) (result : SuiteResult) : Prop :=
  result.passed = true ∧ result.timedOut = false ∧ r.Exact result.counts

theorem runSuite_passes {r : SuiteRun py} (hsuccess : r.outcome.successful = true) {counts : Counts}
    (h : parseUnittestCounts py (combined r.stdout r.stderr) = .ok counts) (hexact : r.Exact counts) :
    ∃ result, runSuite py r.ending = .ok result ∧ r.Passes result := by
  refine ⟨⟨true, false, counts⟩, ?_, rfl, rfl, hexact⟩
  rw [SuiteRun.ending, hsuccess, runSuite, h]
  rfl

theorem mapM_passes {runs : List (SuiteRun py)} (hexact : ∀ r ∈ runs, ∃ counts,
      parseUnittestCounts py (combined r.stdout r.stderr) = .ok counts ∧ r.Exact counts)
    (hsuccess : ∀ r ∈ runs, r.outcome.successful = true) :
    ∃ results, (runs.map SuiteRun.ending).mapM (runSuite py) = .ok results ∧
      List.Forall₂ SuiteRun.Passes runs results := by
  induction runs with
  | nil => exact ⟨[], rfl, .nil⟩
  | cons r runs ih =>
      obtain ⟨⟨counts, hparse, hcounts⟩, hruns⟩ := List.forall_mem_cons.mp hexact
      obtain ⟨hr, hsuccess⟩ := List.forall_mem_cons.mp hsuccess
      obtain ⟨result, hresult, hpass⟩ := runSuite_passes hr hparse hcounts
      obtain ⟨results, hresults, hall⟩ := ih hruns hsuccess
      refine ⟨result :: results, ?_, .cons hpass hall⟩
      rw [List.map_cons, List.mapM_cons, hresult, hresults]
      rfl

/-- The sums over suites that pass. -/
theorem summaryOf_passes {runs : List (SuiteRun py)} {results : List SuiteResult}
    (h : List.Forall₂ SuiteRun.Passes runs results)
    (hsuccess : ∀ r ∈ runs, r.outcome.successful = true) (discovered : Nat) :
    summaryOf discovered results =
      ⟨discovered, runs.length, runs.length, 0, (runs.map (·.outcome.tests)).sum, 0, 0, 0⟩ := by
  have hsums : results.length = runs.length ∧ results.countP (·.passed) = runs.length ∧
      (results.map (·.counts.tests)).sum = (runs.map (·.outcome.tests)).sum ∧
      (results.map (·.counts.failures)).sum = 0 ∧ (results.map (·.counts.errors)).sum = 0 ∧
      results.countP (·.timedOut) = 0 := by
    induction h with
    | nil => exact ⟨rfl, rfl, rfl, rfl, rfl, rfl⟩
    | @cons r result runs results hpass _ ih =>
        obtain ⟨hr, hsuccess⟩ := List.forall_mem_cons.mp hsuccess
        obtain ⟨hpassed, htimed, hexact⟩ := hpass
        obtain ⟨hf, he, -⟩ := of_decide_eq_true hr
        obtain ⟨h₁, h₂, h₃, h₄, h₅, h₆⟩ := ih hsuccess
        refine ⟨?_, ?_, ?_, ?_, ?_, ?_⟩
        · rw [List.length_cons, List.length_cons, h₁]
        · rw [List.countP_cons_of_pos hpassed, h₂, List.length_cons]
        · rw [List.map_cons, List.map_cons, List.sum_cons, List.sum_cons, h₃, hexact.tests]
        · rw [List.map_cons, List.sum_cons, h₄, hexact.failures, hf]
        · rw [List.map_cons, List.sum_cons, h₅, hexact.errors, he]
        · rw [List.countP_cons_of_neg (by simp [htimed]), h₆]
  obtain ⟨h₁, h₂, h₃, h₄, h₅, h₆⟩ := hsums
  rw [summaryOf, h₁, h₂, h₃, h₄, h₅, h₆, Nat.sub_self]

/-- The gate is faithful if and only if the output of every suite is harmless. -/
theorem faithful_iff (runs : List (SuiteRun py)) :
    Faithful runs ↔ ∀ r ∈ runs, r.Harmless := by
  constructor
  · intro h r hr
    exact (exact_iff_harmless r).mp (h.exact r hr)
  · intro h
    have hexact := fun r hr => (exact_iff_harmless r).mpr (h r hr)
    refine ⟨hexact, fun hne hsuccess => ?_⟩
    obtain ⟨results, hresults, hall⟩ := mapM_passes hexact hsuccess
    have hsummary := summaryOf_passes hall hsuccess runs.length
    refine ⟨⟨summaryOf runs.length results, true⟩, ?_, ?_, ?_, ?_⟩
    · have hsome : runs.map SuiteRun.ending ≠ [] := fun h => hne (List.map_eq_nil_iff.mp h)
      rw [buildReport, if_neg hsome]
      show (do let results ← (runs.map SuiteRun.ending).mapM (runSuite py); _) = _
      rw [hresults]
      show Except.ok (TestReport.mk (summaryOf runs.length results) _) = _
      rw [hsummary]
      rfl
    · rw [hsummary]
    · rw [hsummary]
    · intro plan closure hsuites htests hreport hpassed hhead
      have hwanted : plan.wantedSummary = summaryOf runs.length results := by
        rw [hsummary, Plan.wantedSummary, hsuites, htests]
      rw [validateTestSummary, hreport, hpassed, hhead, hwanted]
      simp

/-- The digits of ASCII. -/
def asciiDecimals : Decimals where
  value c := if isDigit c then some (c.toNat - 48) else none
  maxStrDigits := 4300
  ascii _ _ := rfl

theorem ascii_thousandth : ∀ c ∈ ['0', '.', '0', '0', '1'], isDigit c = true ∨ c = '.' := by
  simp [isDigit]

theorem prints_sample : ∀ n ∈ [3, 0, 0, 0, 1, 0], asciiDecimals.Prints n :=
  fun n hn => .inr <| of_decide_eq_true <| List.all_eq_true.mp
    (show ([3, 0, 0, 0, 1, 0].all fun n => decide ((Nat.toDigits 10 n).length ≤ 4300)) = true by
      decide +kernel)
    n hn

/-- `Ran 3 tests in 0.001s` and `OK (expected failures=1)` -/
def expectedFailure : SuiteRun asciiDecimals where
  outcome := {
    tests := 3
    failures := 0
    errors := 0
    skipped := 0
    expectedFailures := 1
    unexpectedSuccesses := 0
    seconds := ['0', '.', '0', '0', '1']
    seconds_ascii := ascii_thousandth
    printed := prints_sample }
  stdout := []
  progress := "..x\n".toList

/-- A suite that passes is counted as one with a failure. -/
theorem expectedFailure_counted :
    ¬ ∀ (py : Decimals) (runs : List (SuiteRun py)), Faithful runs := by
  intro h
  obtain ⟨counts, hparse, hexact⟩ :=
    (h asciiDecimals [expectedFailure]).exact expectedFailure List.mem_cons_self
  have hcounted : (parseUnittestCounts asciiDecimals
      (combined expectedFailure.stdout expectedFailure.stderr)).map (·.failures) = .ok 1 := by
    decide +kernel
  rw [hparse] at hcounted
  have hone : counts.failures = 1 := Except.ok.inj hcounted
  rw [hexact.failures] at hone
  exact absurd hone (by decide)

end Gate

end Konoha.Release
