/-
Study/Responses.lean

What becomes of concurrent responses to one study.  `teachback-update.json` is
created exclusively, so no two calls replace the record at once; but a call reads
the record before it creates that file, and by the time it replaces it the record
may be another.

`Recorded` is the history that every interleaving keeps.  Where each call
replaces the record it has read (`Undisturbed`) an understood record stays so, and
where each of these is awaiting an answer the record contains all responses in
order (`responses_contained`); `lateReply_loses_response` is the interleaving in
which one does not.
-/
import KonohaRuntime.Study.Workflow

namespace Konoha

open Effects Json Prog

/-! ### Histories -/

/-- The teachback in a record. -/
def teachbackOf (record : List (String × Json)) : List (String × Json) :=
  match fieldOf record "teachback" with
  | .obj kvs => kvs
  | _ => []

/-- The record after a response to it. -/
def answered (humanInput : String) (record : List (String × Json)) : List (String × Json) :=
  setField "teachback" (.obj (reply humanInput (teachbackOf record))) record

/-- The record after the given responses, newest first. -/
def afterResponses (record : List (String × Json)) (responses : List Response) :
    List (String × Json) :=
  responses.foldr (fun r record => answered r.humanInput record) record

/-- The teachback that a call has read was valid. -/
def ReadsValid (read : List (String × Json)) : Prop :=
  ∃ study, validateRepositoryTeachback (fieldOf read "teachback") study = .ok (teachbackOf read)

/-- The responses, newest first, have led from `record` to the content `f`. -/
def Recorded (record : List (String × Json)) : List Response → File → Prop
  | [], f => f = .json (.obj record)
  | r :: older, f =>
      Recorded record older r.found ∧ (ReadsValid r.read ∧ r.written = answered r.humanInput r.read) ∧
        f = .json (.obj r.written)

/-- Every call has replaced the record that it had read. -/
def Undisturbed (responses : List Response) : Prop :=
  ∀ r ∈ responses, r.found = .json (.obj r.read)

instance (responses : List Response) : Decidable (Undisturbed responses) := by
  unfold Undisturbed; infer_instance

theorem Undisturbed.tail {r : Response} {responses : List Response}
    (h : Undisturbed (r :: responses)) : Undisturbed responses :=
  fun r' hr' => h r' (List.mem_cons_of_mem _ hr')

/-- An undisturbed history is the fold of its responses. -/
theorem Recorded.contains {record : List (String × Json)} {responses : List Response} {f : File}
    (h : Recorded record responses f) (hu : Undisturbed responses) :
    f = .json (.obj (afterResponses record responses)) := by
  induction responses generalizing f with
  | nil => exact h
  | cons r older ih =>
      obtain ⟨hold, ⟨-, hw⟩, rfl⟩ := h
      have hfound := ih hold hu.tail
      have hread : r.read = afterResponses record older := by
        have e := (hu r List.mem_cons_self).symm.trans hfound
        exact Json.obj.inj (File.json.inj e)
      show File.json (.obj r.written) = .json (.obj (answered r.humanInput _))
      rw [hw, hread]
      rfl

theorem teachbackOf_answered (humanInput : String) (record : List (String × Json)) :
    teachbackOf (answered humanInput record) = reply humanInput (teachbackOf record) := by
  have h : fieldOf (answered humanInput record) "teachback" =
      .obj (reply humanInput (teachbackOf record)) := by
    unfold fieldOf answered
    rw [lookup_setField_self]
    rfl
  rw [teachbackOf, h]

/-- Once closed, a record stays closed under all further responses. -/
theorem understood_afterResponses {record : List (String × Json)} (newer older : List Response)
    (h : Understood (teachbackOf (afterResponses record older))) :
    Understood (teachbackOf (afterResponses record (newer ++ older))) := by
  induction newer with
  | nil => exact h
  | cons r newer ih =>
      show Understood (teachbackOf (answered r.humanInput _))
      rw [teachbackOf_answered, understood_reply_iff]
      exact .inl ih

/-- In an undisturbed history each response has written the fold so far. -/
theorem Recorded.written {record : List (String × Json)} {newer older : List Response}
    {r : Response} {f : File} (h : Recorded record (newer ++ r :: older) f)
    (hu : Undisturbed (newer ++ r :: older)) :
    r.written = afterResponses record (r :: older) := by
  induction newer generalizing f with
  | nil =>
      have hfile := Recorded.contains (f := f) h hu
      obtain ⟨-, -, rfl⟩ := h
      exact Json.obj.inj (File.json.inj hfile)
  | cons r' newer ih => exact ih h.1 hu.tail

/-! ### What a record contains -/

/-- The inputs of the responses, in the order of their success. -/
def inputsOf (responses : List Response) : List String := (responses.map (·.humanInput)).reverse

/-- All responses but the command are questions. -/
def questions (inputs : List String) : List String := inputs.filter fun s => s ≠ ":entendido"

/-- The teachback `final` contains the responses to `initial`, each of them once and in order: a
question by its place in the count, the last one with its text, and the command, after which there is
no other, by the status. -/
structure Contained (initial final : List (String × Json)) (inputs : List String) : Prop where
  counted : clarificationCount final = clarificationCount initial + (questions inputs).length
  asked : ∀ q ∈ (questions inputs).getLast?,
    fieldOf final "last_question" = .str (String.ofList (q.toList.take 2000)) ∧
      fieldOf final "last_question_truncated" = .bool (decide (2000 < q.toList.length))
  closed : ":entendido" ∈ inputs →
    Understood final ∧ fieldOf final "human_command" = .str ":entendido"
  unclosed : ":entendido" ∉ inputs → (Understood final ↔ Understood initial)
  last : ":entendido" ∉ inputs.dropLast

/-- Every call has read a record that is awaiting an answer. -/
def Awaited (responses : List Response) : Prop :=
  ∀ r ∈ responses, ¬ Understood (teachbackOf r.read)

instance (responses : List Response) : Decidable (Awaited responses) := by
  unfold Awaited; infer_instance

theorem contained_nil (initial : List (String × Json)) : Contained initial initial [] where
  counted := (Int.add_zero _).symm
  asked _ hq := by cases hq
  closed h := absurd h List.not_mem_nil
  unclosed _ := Iff.rfl
  last := List.not_mem_nil

/-- The command closes a record that contains what came before. -/
theorem Contained.command {initial kvs : List (String × Json)} {inputs : List String}
    (h : Contained initial kvs inputs) (hawaits : ¬ Understood kvs) :
    Contained initial (reply ":entendido" kvs) (inputs ++ [":entendido"]) := by
  obtain ⟨hclosed, hcommand, hother⟩ := fieldOf_reply_command hawaits
  have hquestions : questions (inputs ++ [":entendido"]) = questions inputs := by
    simp [questions]
  refine ⟨?_, fun q hq => ?_, fun _ => ⟨hclosed, hcommand⟩, fun hnot => ?_, ?_⟩
  · rw [hquestions, ← h.counted, clarificationCount, clarificationCount,
      hother _ (by decide) (by decide) (by decide)]
  · rw [hquestions] at hq
    rw [hother _ (by decide) (by decide) (by decide), hother _ (by decide) (by decide) (by decide)]
    exact h.asked q hq
  · exact absurd (List.mem_append_right _ (List.mem_singleton_self _)) hnot
  · rw [List.dropLast_concat]
    exact fun hmem => hawaits (h.closed hmem).1

/-- A question is counted by a record that contains what came before. -/
theorem Contained.question {initial kvs : List (String × Json)} {inputs : List String}
    {question : String} (h : Contained initial kvs inputs) (hawaits : ¬ Understood kvs)
    (hquestion : question ≠ ":entendido") {n : Int}
    (hn : fieldOf kvs "clarification_count" = .int n) :
    Contained initial (reply question kvs) (inputs ++ [question]) := by
  obtain ⟨hcount, hlast, htruncated, hother⟩ := fieldOf_reply_question hawaits hquestion
  have hquestions : questions (inputs ++ [question]) = questions inputs ++ [question] := by
    simp [questions, hquestion]
  have hnot : ":entendido" ∉ inputs := fun hmem => hawaits (h.closed hmem).1
  refine ⟨?_, fun q hq => ?_, fun hmem => ?_, fun _ => ?_, ?_⟩
  · -- the count goes up by one
    have hbefore := h.counted
    rw [clarificationCount, hn] at hbefore
    rw [hquestions, List.length_append, List.length_singleton, clarificationCount, hcount, hn]
    dsimp only [increment] at hbefore ⊢
    omega
  · rw [hquestions, List.getLast?_concat] at hq
    obtain rfl := Option.some.inj hq
    exact ⟨hlast, htruncated⟩
  · rcases List.mem_append.mp hmem with hmem | hmem
    · exact absurd hmem hnot
    · exact absurd (List.mem_singleton.mp hmem).symm hquestion
  · rw [← h.unclosed hnot, Understood, Understood, hother _ (by decide) (by decide) (by decide)]
  · rwa [List.dropLast_concat]

/-- An undisturbed history of records that were awaiting an answer contains its responses. -/
theorem Recorded.contained {record : List (String × Json)} {responses : List Response} {f : File}
    (h : Recorded record responses f) (hu : Undisturbed responses) (ha : Awaited responses) :
    ∃ final, f = .json (.obj final) ∧
      Contained (teachbackOf record) (teachbackOf final) (inputsOf responses) := by
  induction responses generalizing f with
  | nil => exact ⟨record, h, contained_nil _⟩
  | cons r older ih =>
      obtain ⟨hold, ⟨⟨study, hvalid⟩, hw⟩, rfl⟩ := h
      obtain ⟨found, hfound, hcontained⟩ :=
        ih hold hu.tail fun r' hr' => ha r' (List.mem_cons_of_mem _ hr')
      -- the call has read what the earlier responses have left
      obtain rfl : r.read = found :=
        Json.obj.inj (File.json.inj ((hu r List.mem_cons_self).symm.trans hfound))
      have hawaits := ha r List.mem_cons_self
      refine ⟨r.written, rfl, ?_⟩
      rw [hw, teachbackOf_answered, inputsOf, List.map_cons, List.reverse_cons]
      by_cases hcommand : r.humanInput = ":entendido"
      · rw [hcommand]
        exact hcontained.command hawaits
      · obtain ⟨n, hn⟩ := count_of_validateRepositoryTeachback hvalid
        exact hcontained.question hawaits hcommand hn

/-! ### Every interleaving keeps a history -/

variable {record : List (String × Json)} {t : Tid}

/-- Thread `t` has created the update file, and it is there. -/
def OwnsUpdate (t : Tid) (d : StudyDir) : Prop := d.owner = some t ∧ d.update ≠ .absent

/-- What thread `t` relies on: nobody else touches its update file. -/
structure StudyRelies (t : Tid) (d d' : StudyDir) : Prop where
  owned : OwnsUpdate t d → d'.owner = d.owner ∧ d'.update = d.update
  foreign : d.owner ≠ some t → d'.owner ≠ some t

/-- The rules a call is proved under. -/
def studyRules (record : List (String × Json)) (t : Tid) : Rules StudyDir StudyOp.Ans where
  step := studyStep t
  rely := StudyRelies t
  guar := fun d d' => ∀ t', t ≠ t' → StudyRelies t' d d'
  inv := fun d => Recorded record d.responses d.record

theorem StudyRelies.refl (t : Tid) (d : StudyDir) : StudyRelies t d d := ⟨fun _ => ⟨rfl, rfl⟩, id⟩

theorem StudyRelies.trans {d₁ d₂ d₃ : StudyDir} (h₁ : StudyRelies t d₁ d₂)
    (h₂ : StudyRelies t d₂ d₃) : StudyRelies t d₁ d₃ := by
  refine ⟨fun ho => ?_, fun hf => h₂.foreign (h₁.foreign hf)⟩
  obtain ⟨ho₁, hu₁⟩ := h₁.owned ho
  have howns : OwnsUpdate t d₂ := ⟨ho₁.trans ho.1, hu₁ ▸ ho.2⟩
  obtain ⟨ho₂, hu₂⟩ := h₂.owned howns
  exact ⟨ho₂.trans ho₁, hu₂.trans hu₁⟩

/-- The owner of the update file may do with it what it likes. -/
theorem studyRelies_of_owner {d d' : StudyDir} (ho : d.owner = some t)
    (ho' : d'.owner = some t ∨ d'.owner = none) (t' : Tid) (hne : t ≠ t') :
    StudyRelies t' d d' := by
  refine ⟨fun h => ?_, fun _ => ?_⟩
  · exact absurd (Option.some.inj (ho.symm.trans h.1)) hne
  · rcases ho' with ho' | ho' <;> simp [ho', hne]

/-- `t` does not own the update file. -/
def Waits (t : Tid) (d : StudyDir) : Prop := d.owner ≠ some t

/-- `t` owns it, and it has this content. -/
def Prepared (t : Tid) (v : Json) (d : StudyDir) : Prop :=
  d.owner = some t ∧ d.update = .json v

theorem stable_waits : Stable (studyRules record t) (Waits t) := fun _ _ h hr => hr.foreign h

theorem stable_ownsUpdate : Stable (studyRules record t) (OwnsUpdate t) := by
  intro d d' h hr
  obtain ⟨ho, hu⟩ := hr.owned h
  exact ⟨ho.trans h.1, hu ▸ h.2⟩

theorem stable_prepared {v : Json} : Stable (studyRules record t) (Prepared t v) := by
  rintro d d' ⟨ho, hu⟩ hr
  obtain ⟨ho', hu'⟩ := hr.owned ⟨ho, by simp [hu]⟩
  exact ⟨ho'.trans ho, hu'.trans hu⟩

/-- Operations that leave the directory as it is. -/
def StudyOp.reads : StudyOp → Bool
  | .prepare | .readState | .loadEvidence _ => true
  | _ => false

theorem triple_onStudy_reads {A : StudyDir → Prop} (o : StudyOp) (ho : o.reads = true)
    (hA : Stable (studyRules record t) A) :
    Triple (studyRules record t) A (onStudy o) (fun _ => A) (fun _ _ => True) := by
  refine Prog.triple_ask hA ?_
  intro d r d' hd hi hs
  obtain rfl : d' = d := by
    cases o with
    | readState => exact hs.1
    | prepare => exact hs
    | loadEvidence study => exact hs
    | _ => cases ho
  exact ⟨hi, fun t' _ => StudyRelies.refl t' d', fun _ _ => hd, fun _ _ => trivial⟩

theorem triple_loadStudy {authorization : Json} {studyId : String} :
    Triple (studyRules record t) (Waits t) (loadStudy authorization studyId)
      (fun _ => Waits t) (fun _ _ => True) := by
  refine (triple_onStudy_reads .prepare rfl stable_waits).bind fun _ => ?_
  refine (triple_onStudy_reads .readState rfl stable_waits).bind fun raw => ?_
  split
  · split
    · exact Triple.raise fun _ _ => trivial
    refine (triple_onStudy_reads (.loadEvidence _) rfl stable_waits).bind fun study => ?_
    split
    · exact Triple.raise fun _ _ => trivial
    refine (triple_ofExcept.conseq (fun _ h => h) (fun _ _ h => h.2) fun _ _ _ => trivial).bind ?_
    exact fun _ => Triple.ret fun _ h => h
  · exact Triple.raise fun _ _ => trivial

theorem triple_writeNew {v : Json} :
    Triple (studyRules record t) (Waits t) (writeNew v) (fun _ => Prepared t v)
      (fun _ _ => True) := by
  have hcreate : Triple (studyRules record t) (Waits t) (onStudy .createUpdate)
      (fun _ => OwnsUpdate t) (fun _ _ => True) := by
    refine Prog.triple_ask stable_waits ?_
    intro d r d' hd hi hs
    rcases hs with ⟨habs, htakes⟩ | ⟨-, rfl, e, rfl⟩
    · -- the file was not there: it is made, whether or not the call is told so
      have hguar : ∀ t', t ≠ t' → StudyRelies t' d (d.create t) := by
        refine fun t' hne => ⟨fun h => absurd habs h.2, fun _ => ?_⟩
        simpa [StudyDir.create] using hne
      have howns : OwnsUpdate t (d.create t) := ⟨rfl, by simp [StudyDir.create]⟩
      cases r with
      | ok v =>
          obtain rfl : d' = d.create t := htakes
          exact ⟨hi, hguar, fun _ _ => howns, fun _ _ => trivial⟩
      | error e =>
          rcases htakes with rfl | ⟨-, rfl⟩
          · exact ⟨hi, fun t' _ => StudyRelies.refl t' _, by rintro _ ⟨⟩, fun _ _ => trivial⟩
          · exact ⟨hi, hguar, by rintro _ ⟨⟩, fun _ _ => trivial⟩
    · exact ⟨hi, fun t' _ => StudyRelies.refl t' _, by rintro _ ⟨⟩, fun _ _ => trivial⟩
  refine hcreate.bind fun _ => Prog.triple_ask stable_ownsUpdate ?_
  rintro d r d' ⟨ho, -⟩ hi ⟨content, -, rfl, hr⟩
  refine ⟨hi, studyRelies_of_owner ho (.inl ho), fun u hu => ⟨ho, hr u hu⟩, fun _ _ => trivial⟩

theorem triple_replaceRecord {humanInput : String} {read written : List (String × Json)}
    (hw : ReadsValid read ∧ written = answered humanInput read) :
    Triple (studyRules record t) (Prepared t (.obj written))
      (onStudy (.replaceRecord humanInput read written)) (fun _ _ => True) (fun _ _ => True) := by
  refine Prog.triple_ask stable_prepared ?_
  rintro d r d' ⟨ho, hu⟩ hi htakes
  have hdone : Recorded record (d.replace t humanInput read written).responses
      (d.replace t humanInput read written).record := ⟨hi, hw, hu⟩
  have hguar : ∀ t', t ≠ t' → StudyRelies t' d (d.replace t humanInput read written) :=
    studyRelies_of_owner ho (.inr rfl)
  cases r with
  | ok v =>
      obtain rfl : d' = d.replace t humanInput read written := htakes
      exact ⟨hdone, hguar, fun _ _ => trivial, fun _ _ => trivial⟩
  | error e =>
      rcases htakes with rfl | ⟨-, rfl⟩
      · exact ⟨hi, fun t' _ => StudyRelies.refl t' _, fun _ _ => trivial, fun _ _ => trivial⟩
      · exact ⟨hdone, hguar, fun _ _ => trivial, fun _ _ => trivial⟩

theorem triple_respondToStudy {authorization : Json} {studyId humanInput actor : String} :
    Triple (studyRules record t) (Waits t)
      (respondToStudy authorization studyId humanInput actor)
      (fun _ _ => True) (fun _ _ => True) := by
  refine triple_loadStudy.bind fun loaded => ?_
  obtain ⟨read, study⟩ := loaded
  refine (triple_ofExcept.conseq (fun _ h => h) (fun _ _ h => h) fun _ _ _ => trivial).bind ?_
  refine fun teachback => Triple.of_pure fun hreply => ?_
  -- the response was made to the record as it was read
  have hwritten : ReadsValid read ∧
      setField "teachback" (.obj teachback) read = answered humanInput read := by
    obtain ⟨kvs, hkvs, rfl⟩ := respondRepositoryTeachback_ok hreply
    have hread : teachbackOf read = kvs := by
      rw [teachbackOf, validateRepositoryTeachback_ok hkvs]
    exact ⟨⟨study, hread ▸ hkvs⟩, by rw [answered, hread]⟩
  refine (triple_writeNew.caught (D := fun _ _ => True)).bind fun r => ?_
  cases r with
  | error e =>
      intro d _
      split
      · trivial
      · trivial
      · contradiction
  | ok u =>
      refine Triple.conseq ?_ (fun d hd => hd.1 u rfl) (fun _ _ h => h) fun _ _ h => h
      exact (triple_replaceRecord hwritten).bind fun _ => Triple.ret fun _ _ => trivial

/-- The calls fit together. -/
def studyOutline (record : List (String × Json)) : studyWorkflow.Outline where
  inv := fun d => Recorded record d.responses d.record
  rely := StudyRelies
  guar := fun t d d' => ∀ t', t ≠ t' → StudyRelies t' d d'
  start := Waits
  rely_refl := StudyRelies.refl
  rely_trans := StudyRelies.trans
  start_stable := fun hst hr => hr.foreign hst
  guar_rely := fun hne hg => hg _ hne
  die_inv := by
    rintro t d d' hi rfl
    exact hi
  die_rely := by
    rintro t t' d d' - rfl
    exact StudyRelies.refl _ _
  env_inv := by
    rintro live d d' hi (rfl | ⟨t, -, -, rfl⟩)
    · exact hi
    · exact hi
  env_rely := by
    rintro live t d d' (rfl | ⟨t', ho, hdead, rfl⟩) ht
    · exact StudyRelies.refl _ _
    · refine ⟨fun h => ?_, fun _ => by simp⟩
      obtain rfl : t = t' := Option.some.inj (h.1.symm.trans ho)
      exact absurd h.1 (ht.resolve_left hdead)
  call_ok := fun t _ =>
    triple_respondToStudy.conseq (fun _ h => h.2) (fun _ _ h => h) fun _ _ h => h

/-- Every interleaving keeps a history. -/
theorem studyReaches_recorded {d : StudyDir} (h : StudyReaches record d) :
    Recorded record d.responses d.record := by
  obtain ⟨c, hreach, rfl⟩ := h
  refine (studyOutline record).reachable ?_ (fun t => ?_) hreach
  · exact (rfl : File.json (.obj record) = .json (.obj record))
  · simp [studyOutline, Waits]

/-- A study whose other files are in order. -/
def sampleStudy : Study := ⟨"study-00000000000000000000000000000000", .obj []⟩

def sampleStudyRecord : List (String × Json) :=
  [("schema_version", .str "1.0.0"), ("authorization", .obj []), ("study", .obj []),
   ("teachback", .obj (startRepositoryTeachback sampleStudy))]

/-- The answers of a healthy machine. -/
def studyAnswer (t : Tid) (d : StudyDir) : (o : StudyOp) → o.Ans × StudyDir
  | .prepare => (.ok (), d)
  | .readState =>
      match d.record with
      | .json v => (.ok v, d)
      | _ => (.error (.repositoryEvidenceError "study_state_unavailable"), d)
  | .loadEvidence _ => (.ok sampleStudy, d)
  | .createUpdate =>
      if d.update = .absent then (.ok (), d.create t) else (.error (.fileExistsError ""), d)
  | .writeUpdate v => (.ok (), { d with update := .json v })
  | .replaceRecord humanInput read written => (.ok (), d.replace t humanInput read written)

theorem studyAnswer_step (t : Tid) (d : StudyDir) (o : StudyOp) :
    studyStep t d o (studyAnswer t d o).1 (studyAnswer t d o).2 := by
  cases o with
  | readState =>
      rcases e : d.record with - | - | v <;> simp [studyStep, studyAnswer, e]
  | createUpdate =>
      by_cases h : d.update = .absent
      · exact .inl ⟨h, by simp [studyAnswer, h, StudyTakes]⟩
      · exact .inr ⟨h, by simp [studyAnswer, h]⟩
  | writeUpdate v => exact ⟨.json v, by simp, rfl, fun _ _ => rfl⟩
  | prepare => rfl
  | loadEvidence study => rfl
  | replaceRecord humanInput read written => rfl

def studyRun (turns : List (Turn StudyCall)) :
    Conf StudyDir StudyOp.Ans PyExc (List (String × Json)) :=
  studyWorkflow.play studyAnswer turns
    (Conf.init ⟨.json (.obj sampleStudyRecord), .absent, none, []⟩)

theorem studyReaches_studyRun (turns : List (Turn StudyCall)) :
    StudyReaches sampleStudyRecord (studyRun turns).world :=
  ⟨_, System.reaches_play studyAnswer_step turns (fun _ _ _ => rfl) _, rfl⟩

def sampleStudyCall (humanInput : String) : StudyCall :=
  ⟨.obj [], "study-00000000000000000000000000000000", humanInput, "human"⟩

/-- A question, and then the closing of the loop. -/
def twoReplies : List (Turn StudyCall) :=
  .spawn (sampleStudyCall "why?") :: List.replicate 6 (.run 0) ++
    .spawn (sampleStudyCall ":entendido") :: List.replicate 6 (.run 1)

/-- The question has been read before the loop is closed, and is written after. -/
def lateReply : List (Turn StudyCall) :=
  .spawn (sampleStudyCall "why?") :: List.replicate 3 (.run 0) ++
    .spawn (sampleStudyCall ":entendido") :: List.replicate 6 (.run 1) ++ List.replicate 3 (.run 0)

/-- What can be read of the teachback in a file. -/
def commandIn : File → Option Json
  | .json (.obj kvs) => some (fieldOf (teachbackOf kvs) "human_command")
  | _ => none

/-- One evaluation of what the late reply leaves. -/
theorem lateReply_evaluates :
    (studyRun lateReply).Returned 0 = true ∧ (studyRun lateReply).Returned 1 = true ∧
      inputsOf (studyRun lateReply).world.responses = [":entendido", "why?"] ∧
      (studyRun lateReply).world.responses.map (fun r => decide (Understood (teachbackOf r.written)))
        = [false, true] ∧
      commandIn (studyRun lateReply).world.record = some null := by
  decide +kernel

end Konoha
