/-
Protocol/Outcome.lean

What comes of the answer of a provider, within one assignment: a text that it has returned, or
an exception with what it has printed.  `_run_assignment` parses a text, compares the workspace,
and builds a record; two things it does not catch: a text that is nested deeper than the stack
(`TooDeep`), and an output with a surrogate in it, which cannot be hashed unless another one takes
its place.

Its end is one of the four of `RunEnds` (`traced_runAssignment`), and the status is what the
result contract says exactly for the other texts (`asContracted_iff`).
-/
import KonohaRuntime.Protocol.Reached
import KonohaRuntime.Runtime.Contract

namespace Konoha

open Effects Json Prog CodePoint

variable {py : Stdlib} {t : Tid}

/-! ### One assignment -/

/-- Clock and identifiers are there, and git answers or says why it does not. -/
def Answered : (o : Op) → o.Ans → Prop
  | .time, r => ∃ v, r = .ok v
  | .evidenceId, r => ∃ v, r = .ok v
  | .gitStatus, r => (∃ s, r = .ok s) ∨ ∃ d detail, r = .error (.gitStatusError d detail)
  | _, _ => True

/-- Every reply of a run is such. -/
abbrev AllAnswered (tr : List (Reply Op.Ans)) : Prop := ∀ x ∈ tr, Answered x.1 x.2

/-- What git has answered, in order. -/
def statuses (tr : List (Reply Op.Ans)) : List (Except PyExc String) :=
  tr.filterMap fun
    | ⟨.gitStatus, r⟩ => some r
    | _ => none

@[simp] theorem statuses_append (tr tr' : List (Reply Op.Ans)) :
    statuses (tr ++ tr') = statuses tr ++ statuses tr' :=
  List.filterMap_append

@[simp] theorem statuses_invoke {m : String} {provider model : Json} {prompt : String}
    {frame : Frame} {inv : Invocation} (r : (Op.invoke m provider prompt model frame inv).Ans)
    (tr : List (Reply Op.Ans)) :
    statuses (⟨.invoke m provider prompt model frame inv, r⟩ :: tr) = statuses tr := rfl

/-! ### Answers of a provider -/

/-- What a provider answers: it returns, or raises. -/
abbrev Provided := Except PyExc ProviderResult

namespace Provided

/-- `except Exception` catches what it has raised. -/
def Caught (reply : Provided) : Prop := ∀ e, reply = .error e → e.isException = true

/-- `output_text`: what it has returned, or `str` of what it has raised. -/
def text : Provided → PyStr
  | .ok result => result.text
  | .error e => e.text

/-- `status` and `diagnostic`, before the workspace is looked at. -/
def outcome (it : Interpreter) (family : Json) : Provided → Except PyExc (EvidenceStatus × String)
  | .ok result => assignmentOutcome it result.text family
  | .error _ => .ok (.failed, "process_error")

/-- Its text is nested deeper than the stack; only a text that is returned is parsed. -/
def TooDeep (it : Interpreter) (reply : Provided) : Prop :=
  ∃ result, reply = .ok result ∧ Overflows it result.text

theorem caught_ok (result : ProviderResult) : Caught (.ok result) := by
  rintro e ⟨⟩

theorem tooDeep_ok {it : Interpreter} {result : ProviderResult} :
    TooDeep it (.ok result) ↔ Overflows it result.text := by
  constructor
  · rintro ⟨_, ⟨⟩, h⟩
    exact h
  · exact fun h => ⟨result, rfl, h⟩

/-- Only a text that is nested too deep has no outcome. -/
theorem outcome_cases (it : Interpreter) (family : Json) (reply : Provided) :
    TooDeep it reply ∧ (∃ e, reply.outcome it family = .error e) ∨
      ¬ TooDeep it reply ∧ ∃ status d, reply.outcome it family = .ok (status, d) := by
  rcases reply with e | result
  · refine .inr ⟨?_, _, _, rfl⟩
    rintro ⟨_, ⟨⟩, -⟩
  · rw [tooDeep_ok]
    rcases assignmentOutcome_status it result.text family with ⟨he, hover⟩ | ⟨hover, status, d, ho, -⟩
    · exact .inl ⟨hover, he⟩
    · exact .inr ⟨hover, status, d, ho⟩

end Provided

/-- How an assignment ends whose answer does not overflow the stack, given what git says. -/
inductive RunEnds (it : Interpreter) (reply : Provided) (family : Json) (baseline m : String) :
    Except PyExc String → Except PyExc (EvidenceRecord × String) → Prop
  | kept {record : EvidenceRecord} {d : String}
      (ho : reply.outcome it family = .ok (record.status, d))
      (ht : ¬ HasSurrogate reply.text) (hm : record.missionId = m) :
      RunEnds it reply family baseline m (.ok baseline) (.ok (record, d))
  | unhashed {e : PyExc} (ht : HasSurrogate reply.text) :
      RunEnds it reply family baseline m (.ok baseline) (.error e)
  | mutated {after : String} {record : EvidenceRecord} (ha : after ≠ baseline)
      (hs : record.status = .failed) (hm : record.missionId = m) :
      RunEnds it reply family baseline m (.ok after) (.ok (record, "workspace_mutation_detected"))
  | unchecked {diagnostic : GitDiagnostic} {detail : String} {record : EvidenceRecord}
      (hs : record.status = .failed) (hm : record.missionId = m) :
      RunEnds it reply family baseline m (.error (.gitStatusError diagnostic detail))
        (.ok (record, diagnostic.text))

variable {frame : Frame} {inv : Invocation} {baseline : String} {bundle : List (String × Json)}
variable {w w' : World} {tr : List (Reply Op.Ans)}

/-- The end of a run, after the provider: the workspace and the record. -/
theorem traced_checkWorkspace {status : EvidenceStatus} {d : String} {text : PyStr}
    {usage command : Json} {out : Except PyExc Outcome}
    (h : Traced (step t) (checkWorkspace baseline ⟨status, d, text, usage, command⟩) w tr out w')
    (hans : AllAnswered tr) :
    ∃ r, tr = [⟨.gitStatus, r⟩] ∧
      (r = .ok baseline ∧ out = .ok ⟨status, d, text, usage, command⟩ ∨
        (∃ after, after ≠ baseline ∧ r = .ok after ∧ ∃ output : String,
          out = .ok ⟨.failed, "workspace_mutation_detected", output, usage, command⟩) ∨
        ∃ diagnostic detail, r = .error (.gitStatusError diagnostic detail) ∧ ∃ output : String,
          out = .ok ⟨.failed, diagnostic.text, output, usage, command⟩) := by
  obtain ⟨r, w₁, tr₁, hs, rfl, hk⟩ := Traced.of_caught_bind h
  refine ⟨r, ?_⟩
  have hr := hans _ List.mem_cons_self
  rcases hr with ⟨after, rfl⟩ | ⟨diagnostic, detail, rfl⟩
  · dsimp only at hk
    split at hk
    · rename_i hsame
      obtain ⟨rfl, rfl, -⟩ := hk.of_ret
      exact ⟨rfl, .inl ⟨by rw [hsame], rfl⟩⟩
    · rename_i hdiff
      obtain ⟨rfl, rfl, -⟩ := hk.of_ret
      exact ⟨rfl, .inr (.inl ⟨after, hdiff, rfl, _, rfl⟩)⟩
  · obtain ⟨rfl, rfl, -⟩ := hk.of_ret
    exact ⟨rfl, .inr (.inr ⟨diagnostic, detail, rfl, _, rfl⟩)⟩

/-- From the comparison of the workspace to the record. -/
theorem traced_record {status : EvidenceStatus} {d : String} {reply : Provided}
    {usage command started : Json} {it : Interpreter}
    {out : Except PyExc (EvidenceRecord × String)}
    (ho : reply.outcome it inv.task.family = .ok (status, d))
    (h : Traced (step t) (do
      let outcome ← checkWorkspace baseline ⟨status, d, reply.text, usage, command⟩
      let finished ← perform .time
      let id ← perform .evidenceId
      let output ← lift outcome.output.encode
      return ({
        evidenceId := id
        missionId := frame.plan.missionId
        taskId := inv.task.taskId
        provider := inv.task.provider
        model := inv.task.model
        status := outcome.status
        output := output
        tokenUsage := outcome.usage
        command := outcome.command
        startedAt := started
        finishedAt := .float finished
        outputHash := py.sha256 output }, outcome.diagnostic)) w tr out w')
    (hans : AllAnswered tr) :
    ∃ r, statuses tr = [r] ∧
      RunEnds it reply inv.task.family baseline frame.plan.missionId r out := by
  rcases h.of_bind with ⟨e, he, rfl⟩ | ⟨outcome, tr₁, w₁, tr₂, h₁, h₂, rfl⟩
  · obtain ⟨r, -, h⟩ := traced_checkWorkspace he hans
    rcases h with ⟨-, h⟩ | ⟨_, -, -, _, h⟩ | ⟨_, _, -, _, h⟩ <;> cases h
  have hans₁ : AllAnswered tr₁ := fun x hx => hans x (List.mem_append_left _ hx)
  have hans₂ : AllAnswered tr₂ := fun x hx => hans x (List.mem_append_right _ hx)
  obtain ⟨r, rfl, hr⟩ := traced_checkWorkspace h₁ hans₁
  -- the two readings of the host do not fail
  obtain ⟨r₁, w₂, tr₃, hs₁, rfl, h₃⟩ := Traced.of_perform_bind h₂
  obtain ⟨finished, rfl⟩ : ∃ v, r₁ = .ok v := hans₂ _ List.mem_cons_self
  rcases h₃ with ⟨v, hv, h₃⟩ | ⟨_, hv, -⟩ <;> cases hv
  obtain ⟨r₂, w₃, tr₄, hs₂, rfl, h₄⟩ := Traced.of_perform_bind h₃
  obtain ⟨id, rfl⟩ : ∃ v, r₂ = .ok v :=
    hans₂ _ (List.mem_cons_of_mem _ List.mem_cons_self)
  rcases h₄ with ⟨v, hv, h₄⟩ | ⟨_, hv, -⟩ <;> cases hv
  have hnil : tr₄ = [] := by
    rcases Traced.of_bind h₄ with ⟨_, he, -⟩ | ⟨_, tr₅, w₄, tr₆, h₅, h₆, rfl⟩
    · exact (Traced.of_lift he).1
    · rw [(Traced.of_lift h₅).1, (Traced.of_ret h₆).1]
      rfl
  refine ⟨r, by rw [hnil]; rfl, ?_⟩
  have hencoded : ∀ output : String, outcome.output = PyStr.ofString output →
      ∃ record : EvidenceRecord, out = .ok (record, outcome.diagnostic) ∧
        record.status = outcome.status ∧ record.missionId = frame.plan.missionId := by
    intro output houtput
    rw [houtput, PyStr.encode_ofString] at h₄
    obtain ⟨-, rfl, -⟩ := h₄.of_ret
    exact ⟨_, rfl, rfl, rfl⟩
  rcases hr with ⟨rfl, hout⟩ | ⟨after, ha, rfl, output, hout⟩ | ⟨diagnostic, detail, rfl, output, hout⟩
  · -- only here the provider's own text is hashed
    obtain rfl := Except.ok.inj hout
    by_cases ht : HasSurrogate reply.text
    · obtain ⟨e, he⟩ := encode_eq_error ht
      dsimp only at h₄
      rw [he] at h₄
      obtain ⟨-, rfl, -⟩ := Traced.of_raise h₄
      exact .unhashed ht
    · obtain ⟨s, hs⟩ := encode_eq_ok ht
      obtain ⟨record, rfl, hstatus, hm⟩ := hencoded s (PyStr.encode_eq_ok_iff.mp hs)
      exact .kept (by rw [hstatus]; exact ho) ht hm
  · obtain rfl := Except.ok.inj hout
    obtain ⟨record, rfl, hstatus, hm⟩ := hencoded output rfl
    exact .mutated ha hstatus hm
  · obtain rfl := Except.ok.inj hout
    obtain ⟨record, rfl, hstatus, hm⟩ := hencoded output rfl
    exact .unchecked hstatus hm

/-- The provider is called at most once, and its answer is looked up. -/
theorem traced_callProvider {step : World → (o : Op) → o.Ans → World → Prop}
    {out : Except PyExc Outcome}
    (h : Traced step (callProvider py frame inv bundle) w tr out w') :
    (∀ x ∈ tr, x.1.silent = true) ∨
      ∃ prompt, ∃ reply : Provided, tr = [⟨.invoke frame.plan.missionId inv.task.provider prompt
        inv.task.model frame inv, reply⟩] ∧ (reply.Caught →
          (∃ e, reply.outcome py.interpreter inv.task.family = .error e ∧ out = .error e) ∨
          ∃ status d usage command,
            reply.outcome py.interpreter inv.task.family = .ok (status, d) ∧
            out = .ok ⟨status, d, reply.text, usage, command⟩) := by
  unfold callProvider at h
  dsimp only at h
  split at h
  · obtain ⟨rfl, -, -⟩ := h.of_ret
    exact .inl (by simp)
  · rename_i prompt _
    obtain ⟨r, w₁, tr₁, -, rfl, hk⟩ := Traced.of_caught_bind h
    refine .inr ⟨prompt, r, ?_⟩
    cases r with
    | error e =>
        dsimp only at hk
        split at hk
        · obtain ⟨rfl, rfl, -⟩ := hk.of_ret
          exact ⟨rfl, fun _ => .inr ⟨_, _, _, _, rfl, rfl⟩⟩
        · rename_i hraised
          obtain ⟨rfl, -, -⟩ := hk.of_raise
          exact ⟨rfl, fun hcaught => absurd (hcaught e rfl) hraised⟩
    | ok result =>
        dsimp only at hk
        cases ho : assignmentOutcome py.interpreter result.text inv.task.family with
        | error e =>
            rw [ho] at hk
            obtain ⟨rfl, rfl, -⟩ := Traced.of_raise hk
            exact ⟨rfl, fun _ => .inl ⟨e, ho, rfl⟩⟩
        | ok sd =>
            rw [ho] at hk
            obtain ⟨rfl, rfl, -⟩ := Traced.of_ret hk
            exact ⟨rfl, fun _ => .inr ⟨sd.1, sd.2, _, _, ho, rfl⟩⟩

/-- The parts of a run around the provider's answer. -/
structure Around (frame : Frame) (inv : Invocation) (reply : Provided)
    (tr before after : List (Reply Op.Ans)) : Prop where
  replies : ∃ prompt, tr = before ++ ⟨.invoke frame.plan.missionId inv.task.provider prompt
    inv.task.model frame inv, reply⟩ :: after
  before_silent : ∀ x ∈ before, x.1.silent = true
  after_silent : ∀ x ∈ after, x.1.silent = true

/-- **How `_run_assignment` ends**, once the provider has answered. -/
theorem traced_runAssignment {m' prompt : String} {provider model : Json} {frame' : Frame}
    {inv' : Invocation} {reply : Provided} {out : Except PyExc (EvidenceRecord × String)}
    (h : Traced (step t) (runAssignment py frame inv baseline bundle) w tr out w')
    (hans : AllAnswered tr) (hcaught : reply.Caught)
    (hinv : ⟨.invoke m' provider prompt model frame' inv', reply⟩ ∈ tr) :
    ∃ before after, Around frame inv reply tr before after ∧ statuses before = [] ∧
      (reply.TooDeep py.interpreter ∧ (∃ e, out = .error e) ∨
        ¬ reply.TooDeep py.interpreter ∧ ∃ r, statuses after = [r] ∧
          RunEnds py.interpreter reply inv.task.family baseline frame.plan.missionId r out) := by
  have hrest : ∀ (started : PyFloat) (called : Outcome), Silent (do
      let outcome ← checkWorkspace baseline called
      let finished ← perform .time
      let id ← perform .evidenceId
      let output ← lift outcome.output.encode
      return (({
        evidenceId := id
        missionId := frame.plan.missionId
        taskId := inv.task.taskId
        provider := inv.task.provider
        model := inv.task.model
        status := outcome.status
        output := output
        tokenUsage := outcome.usage
        command := outcome.command
        startedAt := .float started
        finishedAt := .float finished
        outputHash := py.sha256 output }, outcome.diagnostic) : EvidenceRecord × String)) := by
    intro started called
    have hworkspace : Silent (checkWorkspace baseline called) := by
      refine (silent_perform rfl).caught.seq fun r => ?_
      split
      · trivial
      · trivial
      · split <;> trivial
    refine hworkspace.seq fun outcome => (silent_perform rfl).seq fun _ =>
      (silent_perform rfl).seq fun _ => (silent_of_reading (reading_lift _)).seq fun _ => trivial
  unfold runAssignment at h
  obtain ⟨r₀, w₀, tr₀, hs₀, rfl, h₀⟩ := Traced.of_perform_bind h
  obtain ⟨started, rfl⟩ : ∃ v, r₀ = .ok v := hans _ List.mem_cons_self
  rcases h₀ with ⟨v, hv, h₀⟩ | ⟨_, hv, -⟩ <;> cases hv
  replace hinv := (List.mem_cons.mp hinv).resolve_left (by rintro ⟨⟩)
  have htime : ∀ x ∈ [(⟨.time, .ok started⟩ : Reply Op.Ans)], x.1.silent = true := by
    intro x hx
    obtain rfl := List.mem_singleton.mp hx
    rfl
  rcases h₀.of_bind with ⟨e, he, rfl⟩ | ⟨called, tr₁, w₁, tr₂, h₁, h₂, rfl⟩
  · rcases traced_callProvider he with hsilent | ⟨prompt', r, rfl, hr⟩
    · exact absurd (hsilent _ hinv) (by simp [Op.silent])
    · -- the text of the answer overflows the stack
      obtain ⟨⟩ := List.mem_singleton.mp hinv
      refine ⟨[⟨.time, .ok started⟩], [], ⟨⟨_, rfl⟩, htime, by simp⟩, rfl, ?_⟩
      rcases hr hcaught with ⟨e', ho, -⟩ | ⟨status, d, usage, command, -, hout⟩
      · rcases reply.outcome_cases py.interpreter inv.task.family with
          ⟨hdeep, -⟩ | ⟨-, status, d, ho'⟩
        · exact .inl ⟨hdeep, e, rfl⟩
        · rw [ho] at ho'
          cases ho'
      · cases hout
  · have hsilent₂ := ((hrest started called).traced h₂).1
    rcases traced_callProvider h₁ with hsilent | ⟨prompt', r, rfl, hr⟩
    · rcases List.mem_append.mp hinv with hinv | hinv
      · exact absurd (hsilent _ hinv) (by simp [Op.silent])
      · exact absurd (hsilent₂ _ hinv) (by simp [Op.silent])
    · rcases List.mem_append.mp hinv with hinv | hinv
      swap
      · exact absurd (hsilent₂ _ hinv) (by simp [Op.silent])
      -- the answer has an outcome, and the workspace is looked at
      obtain ⟨⟩ := List.mem_singleton.mp hinv
      refine ⟨[⟨.time, .ok started⟩], tr₂, ⟨⟨_, rfl⟩, htime, hsilent₂⟩, rfl, ?_⟩
      rcases hr hcaught with ⟨e, -, hout⟩ | ⟨status, d, usage, command, ho, hout⟩
      · cases hout
      · obtain rfl := Except.ok.inj hout
        rcases reply.outcome_cases py.interpreter inv.task.family with ⟨-, e, he⟩ | ⟨hdeep, -⟩
        · rw [ho] at he
          cases he
        · have hans₂ : AllAnswered tr₂ := fun x hx =>
            hans x (List.mem_cons_of_mem _ (List.mem_append_right _ hx))
          exact .inr ⟨hdeep, traced_record ho h₂ hans₂⟩

/-! ### The status -/

/-- The status is what the contract says of the text, when git says afterwards what it has
said before, and `failed` when it does not. -/
def AsContracted (it : Interpreter) (text : PyStr) (family : Json) (baseline : String)
    (after : Except PyExc String) (out : Except PyExc (EvidenceRecord × String)) : Prop :=
  ∃ record d, out = .ok (record, d) ∧
    (record.status = .completed ↔
      after = .ok baseline ∧ ∃ kvs, Carries it text (.obj kvs) ∧ Completes family kvs) ∧
    (record.status = .blocked ↔
      after = .ok baseline ∧ ∃ kvs, Carries it text (.obj kvs) ∧ Blocks family kvs) ∧
    (record.status = .failed ↔ ¬ (after = .ok baseline ∧
      ∃ kvs, Carries it text (.obj kvs) ∧ (Completes family kvs ∨ Blocks family kvs)))

theorem asContracted_of_iff {it : Interpreter} {text : PyStr} {family : Json}
    {after : Except PyExc String} {record : EvidenceRecord} {d : String}
    (hc : record.status = .completed ↔
      after = .ok baseline ∧ ∃ kvs, Carries it text (.obj kvs) ∧ Completes family kvs)
    (hb : record.status = .blocked ↔
      after = .ok baseline ∧ ∃ kvs, Carries it text (.obj kvs) ∧ Blocks family kvs) :
    AsContracted it text family baseline after (.ok (record, d)) := by
  refine ⟨record, d, rfl, hc, hb, ?_⟩
  have hsplit : (after = .ok baseline ∧
      ∃ kvs, Carries it text (.obj kvs) ∧ (Completes family kvs ∨ Blocks family kvs)) ↔
      record.status = .completed ∨ record.status = .blocked := by
    rw [hc, hb]
    constructor
    · rintro ⟨ha, kvs, hk, h | h⟩
      · exact .inl ⟨ha, kvs, hk, h⟩
      · exact .inr ⟨ha, kvs, hk, h⟩
    · rintro (⟨ha, kvs, hk, h⟩ | ⟨ha, kvs, hk, h⟩)
      · exact ⟨ha, kvs, hk, .inl h⟩
      · exact ⟨ha, kvs, hk, .inr h⟩
  rw [hsplit]
  cases record.status <;> simp

/-- The texts whose status is the contract's. -/
theorem asContracted_iff {m' prompt : String} {provider model : Json} {frame' : Frame}
    {inv' : Invocation} {result : ProviderResult} {out : Except PyExc (EvidenceRecord × String)}
    {after : Except PyExc String}
    (h : Traced (step t) (runAssignment py frame inv baseline bundle) w tr out w')
    (hans : AllAnswered tr)
    (hinv : ⟨.invoke m' provider prompt model frame' inv', .ok result⟩ ∈ tr)
    (hafter : ∀ r ∈ statuses tr, r = after) :
    AsContracted py.interpreter result.text inv.task.family baseline after out ↔
      ¬ Overflows py.interpreter result.text ∧
        (after = .ok baseline → ¬ HasSurrogate result.text) := by
  obtain ⟨before, rest, haround, -, hends⟩ :=
    traced_runAssignment h hans (Provided.caught_ok result) hinv
  rw [Provided.tooDeep_ok] at hends
  have herror : ∀ e, ¬ AsContracted py.interpreter result.text inv.task.family baseline after
      (.error e) := by
    rintro e ⟨_, _, h, -⟩
    cases h
  rcases hends with ⟨hover, e, rfl⟩ | ⟨hover, r, hr, hends⟩
  · exact ⟨fun h => absurd h (herror e), fun h => absurd hover h.1⟩
  obtain ⟨prompt', htr⟩ := haround.replies
  obtain rfl : r = after := hafter r (by simp [htr, hr])
  have hdiffers : ∀ {a : String}, a ≠ baseline → (.ok a : Except PyExc String) ≠ .ok baseline :=
    fun ha h => ha (Except.ok.inj h)
  cases hends with
  | @kept record d ho ht hm =>
      refine ⟨fun _ => ⟨hover, fun _ => ht⟩, fun _ => ?_⟩
      rcases assignmentOutcome_status py.interpreter result.text inv.task.family with
        ⟨⟨e, he⟩, -⟩ | ⟨-, status, d', ho', hc, hb⟩
      · cases he.symm.trans ho
      · obtain ⟨rfl, rfl⟩ := Prod.mk.inj (Except.ok.inj (ho.symm.trans ho'))
        exact asContracted_of_iff (by simpa using hc) (by simpa using hb)
  | unhashed ht => exact ⟨fun h => absurd h (herror _), fun h => absurd ht (h.2 rfl)⟩
  | mutated ha hs hm =>
      refine ⟨fun _ => ⟨hover, fun h => absurd h (hdiffers ha)⟩, fun _ => ?_⟩
      exact asContracted_of_iff (by simp [hs, ha]) (by simp [hs, ha])
  | unchecked hs hm =>
      refine ⟨fun _ => ⟨hover, fun h => by cases h⟩, fun _ => ?_⟩
      exact asContracted_of_iff (by simp [hs]) (by simp [hs])

end Konoha
