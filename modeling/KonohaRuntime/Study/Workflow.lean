/-
Study/Workflow.lean

`respond_to_study` as a program, and any number of such calls on one study as a
concurrent system.  The directory of the study holds `study.json` and, while a
call is updating it, `teachback-update.json`, which is created exclusively and
then renamed over `study.json`.

What `load_study` reads besides `study.json` (the authorised repository, the
evidence pack, the study built from it) is answered by the surroundings.
-/
import KonohaRuntime.Study.Teachback
import KonohaRuntime.Runtime.Host
import KonohaRuntime.Effects.Fallible
import KonohaRuntime.Effects.Schedule

namespace Konoha

open Effects Json

/-! ### The directory of a study -/

/-- A response that has replaced the record: what its call had read, and what
the record was at that moment. -/
structure Response where
  t : Tid
  humanInput : String
  read : List (String × Json)
  found : File
  written : List (String × Json)
  deriving DecidableEq

/-- The directory of one study.  The creator of `teachback-update.json` is not
written in the file; `responses` are the replacements so far, newest first. -/
structure StudyDir where
  record : File
  update : File
  owner : Option Tid
  responses : List Response

/-- The operations of a call. -/
inductive StudyOp
  /-- the authorisation, the location of the state and the path of the session -/
  | prepare
  /-- the bytes of `study.json`, parsed -/
  | readState
  /-- `load_evidence_pack`, `is_evidence_current` and `validate_repository_study` -/
  | loadEvidence (study : Json)
  /-- `os.open(teachback-update.json, O_CREAT | O_EXCL | O_WRONLY)` -/
  | createUpdate
  /-- write and close it -/
  | writeUpdate (v : Json)
  /-- `temporary.replace(study.json)`; all that is given only labels the response -/
  | replaceRecord (humanInput : String) (read written : List (String × Json))

abbrev StudyOp.Value : StudyOp → Type
  | .prepare => Unit
  | .readState => Json
  | .loadEvidence _ => Study
  | .createUpdate => Unit
  | .writeUpdate _ => Unit
  | .replaceRecord _ _ _ => Unit

abbrev StudyOp.Ans (o : StudyOp) : Type := Except PyExc o.Value

abbrev StudyRun (α : Type) := Prog StudyOp.Ans PyExc α

open Prog (ofExcept)

/-- Perform an operation on the directory of the study. -/
abbrev onStudy (o : StudyOp) : StudyRun o.Value := Prog.ask o

/-! ### A call -/

/-- The keys of the record in `study.json`. -/
def studyRecordKeys : List String := ["schema_version", "authorization", "study", "teachback"]

def isObj : Json → Bool
  | .obj _ => true
  | _ => false

/-- `load_study`; `authorization` is `asdict(authorization)`. -/
def loadStudy (authorization : Json) (studyId : String) :
    StudyRun (List (String × Json) × Study) := do
  onStudy .prepare
  match ← onStudy .readState with
  | .obj record =>
      if ¬ hasKeys studyRecordKeys record ∨ fieldOf record "schema_version" ≠ .str "1.0.0" ∨
          fieldOf record "authorization" ≠ authorization ∨
          ¬ isObj (fieldOf record "study") then
        .raise (.repositoryEvidenceError "study_authorization_or_record_mismatch")
      else
        let study ← onStudy (.loadEvidence (fieldOf record "study"))
        if study.studyId ≠ studyId then
          .raise (.repositoryEvidenceError "study_identity_mismatch")
        else
          let _ ← ofExcept (validateRepositoryTeachback (fieldOf record "teachback") study)
          return (record, study)
  | _ => .raise (.repositoryEvidenceError "study_state_unavailable")

/-- `_write_new` of `teachback-update.json` -/
def writeNew (value : Json) : StudyRun Unit := do
  onStudy .createUpdate
  onStudy (.writeUpdate value)

/-- `respond_to_study` -/
def respondToStudy (authorization : Json) (studyId humanInput actor : String) :
    StudyRun (List (String × Json)) := do
  let (read, study) ← loadStudy authorization studyId
  let teachback ← ofExcept
    (respondRepositoryTeachback (fieldOf read "teachback") study humanInput actor)
  let record := setField "teachback" (.obj teachback) read
  match ← Prog.attempt (writeNew (.obj record)) with
  | .error (.fileExistsError _) =>
      .raise (.repositoryEvidenceError "study_update_pending_human_reconciliation")
  | .error e => .raise e
  | .ok _ => do
      onStudy (.replaceRecord humanInput read record)
      return record

/-! ### What operations do -/

/-- The response is counted and the update becomes the record. -/
def StudyDir.replace (d : StudyDir) (t : Tid) (humanInput : String)
    (read written : List (String × Json)) : StudyDir where
  record := d.update
  update := .absent
  owner := none
  responses := ⟨t, humanInput, read, d.record, written⟩ :: d.responses

/-- The update file has been created by `t`, empty. -/
def StudyDir.create (d : StudyDir) (t : Tid) : StudyDir :=
  { d with update := .garbage, owner := some t }

/-- As `Takes`, for the directory of a study. -/
def StudyTakes {α : Type} (r : Except PyExc α) (d done d' : StudyDir) : Prop :=
  match r with
  | .ok _ => d' = done
  | .error e => d' = d ∨ (e.isOSError = false ∧ d' = done)

/-- `studyStep t d o r d'`: performed by thread `t` in `d`, operation `o` may
answer `r` and leave `d'`. -/
def studyStep (t : Tid) (d : StudyDir) : (o : StudyOp) → o.Ans → StudyDir → Prop
  | .readState, r, d' => d' = d ∧ ∀ v, r = .ok v → d.record = .json v
  | .createUpdate, r, d' =>
      d.update = .absent ∧ StudyTakes r d (d.create t) d' ∨
        d.update ≠ .absent ∧ d' = d ∧ ∃ e, r = .error e
  | .writeUpdate v, r, d' =>
      ∃ content, content ≠ .absent ∧ d' = { d with update := content } ∧
        ∀ u, r = .ok u → content = .json v
  | .replaceRecord humanInput read written, r, d' =>
      StudyTakes r d (d.replace t humanInput read written) d'
  | _, _, d' => d' = d

/-! ### The system -/

/-- One call of `respond_to_study`. -/
structure StudyCall where
  authorization : Json
  studyId : String
  humanInput : String
  actor : String

/-- Any number of calls on one study.  Nobody else writes into its directory;
a left-over update may be removed once its creator has died. -/
def studyWorkflow : System StudyDir StudyCall StudyOp.Ans PyExc (List (String × Json)) where
  call := fun _ c => respondToStudy c.authorization c.studyId c.humanInput c.actor
  step := studyStep
  die := fun _ d d' => d' = d
  env := fun live d d' =>
    d' = d ∨ ∃ t, d.owner = some t ∧ ¬ live t ∧ d' = { d with update := .absent, owner := none }

/-- The directories that runs from a fresh record reach. -/
def StudyReaches (record : List (String × Json)) (d : StudyDir) : Prop :=
  ∃ c, studyWorkflow.Reachable ⟨.json (.obj record), .absent, none, []⟩ c ∧ c.world = d

end Konoha
