/-
Runtime/Host.lean

The surroundings of the runtime: the files of the missions, the operations a
call performs on them and on the rest of the host, and what each operation may
answer.

* Every operation may raise anything instead of answering: the disk may fail,
  the operator may press Ctrl-C.  The model constrains only successful answers,
  and what a failed write leaves behind.
* `os.replace` and the exclusive creation of `execution.lock` are atomic;
  writing the temporary file is not.
* A call may be interrupted after the kernel has done its part: an operation
  that fails with something else than an `OSError` may still have taken effect.
* The registry, the provider, the clock, git and the files behind the sources
  of a family answer what they like.

The events of a mission record, newest first, the nonces drawn, the states
persisted and the provider calls made for it, each with what the call knew at
that moment (`Frame`).  Programs never read them.
-/
import KonohaRuntime.Effects.Interleave
import KonohaRuntime.Runtime.Approval
import KonohaRuntime.Runtime.Evidence

namespace Konoha

open Effects

/-! ### Answers of the host -/

inductive SourceAvailability
  | available
  | pendingProducer
  | missing
  | unauthorized
  | notApplicable
  deriving DecidableEq

/-- `SourceAvailability.value` -/
def SourceAvailability.text : SourceAvailability → String
  | available => "available"
  | pendingProducer => "pending_producer"
  | missing => "missing"
  | unauthorized => "unauthorized"
  | notApplicable => "not_applicable"

structure SourceResolution where
  canonicalId : String
  availability : SourceAvailability
  reason : Option String
  producerTaskIds : List Json
  /-- `None` or a mapping -/
  materialization : Json
  deriving DecidableEq

/-- What the runtime looks at of a `RepositoryEvidencePack`. -/
structure RepositoryEvidencePack where
  authorizedRepoRoot : Json
  excludedPaths : List Json
  /-- `bounded_evidence_view(pack)` -/
  boundedView : Json
  deriving DecidableEq

structure ProviderReadiness where
  available : Bool
  models : List String
  deriving DecidableEq

structure ProviderResult where
  text : PyStr
  usage : Json
  command : Json
  deriving DecidableEq

/-! ### Events -/

/-- What a call works with once it has read the disk. -/
structure Frame where
  plan : MissionPlan
  /-- the state loaded, or the new one when there was none -/
  state : ExecutionState
  approval : ApprovalArg
  deriving DecidableEq

/-- What a call knows when it calls the provider. -/
structure Invocation where
  task : AgentAssignment
  family : Json
  records : List EvidenceRecord
  /-- the state persisted right before -/
  executing : ExecutionState
  deriving DecidableEq

inductive Event
  | drew (nonce : Nonce)
  | persisted (t : Tid) (frame : Frame) (written : ExecutionState)
  | invoked (t : Tid) (frame : Frame) (invocation : Invocation)
  deriving DecidableEq

/-! ### The disk -/

/-- A file: not there, not readable as UTF-8 JSON, or a JSON value. -/
inductive File
  | absent
  | garbage
  | json (v : Json)
  deriving DecidableEq

/-- The directory of one mission.  The owner of `execution.lock` is not written
in the file. -/
structure MissionDir where
  plan : File
  state : File
  tmp : File
  evidence : EvidenceId → File
  lock : Option Tid
  events : List Event

abbrev World := String → MissionDir

/-- The files a call reads. -/
inductive FileRef
  | plan
  | state
  | evidence (id : EvidenceId)
  deriving DecidableEq

def MissionDir.file (d : MissionDir) : FileRef → File
  | .plan => d.plan
  | .state => d.state
  | .evidence id => d.evidence id

/-! ### Operations -/

/-- The operations of a call.  In `replaceState` and `invoke`, the frame and
what follows it only label the event. -/
inductive Op
  /-- `utc_now()` -/
  | utcNow
  /-- `time.time()` -/
  | time
  /-- `secrets.token_hex(16)`, drawn for a mission -/
  | tokenHex (m : String)
  /-- `"evidence-" + uuid.uuid4().hex[:12]` -/
  | evidenceId
  /-- the resolved mission directory lies directly in `missions` -/
  | missionDirConfined (m : String)
  /-- `mission_dir.mkdir(parents=True, exist_ok=True)` -/
  | mkdirMission (m : String)
  /-- `path.is_file()` -/
  | isFile (m : String) (f : FileRef)
  /-- `json.loads(path.read_text(encoding="utf-8"))` -/
  | readJson (m : String) (f : FileRef)
  /-- the resolved evidence directory lies directly in the mission directory -/
  | evidenceDirConfined (m : String)
  /-- the resolved evidence file lies directly in the evidence directory -/
  | evidenceFileConfined (m : String) (id : EvidenceId)
  /-- write `execution_state.json.tmp` -/
  | writeTmp (m : String) (v : Json)
  /-- `os.replace(tmp_path, path)` -/
  | replaceState (m : String) (frame : Frame) (written : ExecutionState)
  /-- `out.mkdir(parents=True, exist_ok=True)` for the evidence directory -/
  | mkdirEvidence (m : String)
  /-- `write_text` of an evidence file -/
  | writeEvidence (m : String) (id : EvidenceId) (v : Json)
  /-- `os.open(execution.lock, O_CREAT | O_EXCL | O_WRONLY)` -/
  | createLock (m : String)
  /-- `os.close(fd)` -/
  | closeLock (m : String)
  /-- `os.unlink(execution.lock)` -/
  | unlinkLock (m : String)
  /-- `registry.agent_family(name)` -/
  | agentFamily (name : Json)
  /-- `getattr(registry, "data", None)` -/
  | registryData
  /-- `load_evidence_pack(mission_dir, reference)` -/
  | loadEvidencePack (m : String) (reference : Json)
  /-- `str(repo.resolve())` -/
  | repoRoot
  /-- `is_evidence_current(pack, repo)` -/
  | isEvidenceCurrent (pack : RepositoryEvidencePack)
  /-- the bounded read of `continuity.json`; `None` if it is no regular file or
  too long -/
  | readContinuity (m : String)
  /-- the resolver of a source that is read from files of the repository -/
  | resolveFileSource (id : String) (inputs : Json) (excludedPaths : List Json)
  /-- `probe_provider_readiness(provider, repo)` -/
  | probeProvider (provider : Json)
  /-- `_git_status(repo)` -/
  | gitStatus
  /-- `invoke(provider, prompt, cwd=repo, model=model, schema=…)` -/
  | invoke (m : String) (provider : Json) (prompt : String) (model : Json) (frame : Frame)
      (invocation : Invocation)

/-- A timestamp: `isoformat` never returns a blank string. -/
abbrev Timestamp := { s : String // nonBlank s = true }

/-- The first moment of a year. -/
def newYear : Timestamp := ⟨"2026-01-01T00:00:00+00:00", by decide⟩

/-- What an operation returns when it does not raise. -/
abbrev Op.Value : Op → Type
  | .utcNow => Timestamp
  | .time => PyFloat
  | .tokenHex _ => Nonce
  | .evidenceId => EvidenceId
  | .missionDirConfined _ => Bool
  | .mkdirMission _ => Unit
  | .isFile _ _ => Bool
  | .readJson _ _ => Json
  | .evidenceDirConfined _ => Bool
  | .evidenceFileConfined _ _ => Bool
  | .writeTmp _ _ => Unit
  | .replaceState _ _ _ => Unit
  | .mkdirEvidence _ => Unit
  | .writeEvidence _ _ _ => Unit
  | .createLock _ => Unit
  | .closeLock _ => Unit
  | .unlinkLock _ => Unit
  | .agentFamily _ => Json
  | .registryData => Json
  | .loadEvidencePack _ _ => RepositoryEvidencePack
  | .repoRoot => String
  | .isEvidenceCurrent _ => Bool
  | .readContinuity _ => Option Json
  | .resolveFileSource _ _ _ => SourceResolution
  | .probeProvider _ => ProviderReadiness
  | .gitStatus => String
  | .invoke _ _ _ _ _ _ => ProviderResult

abbrev Op.Ans (o : Op) : Type := Except PyExc o.Value

/-- Programs of the runtime. -/
abbrev Run (α : Type) := Prog Op.Ans PyExc α

/-- Perform an operation; an exception it raises is raised here. -/
def perform (o : Op) : Run o.Value :=
  .op o fun
    | .ok v => .ret v
    | .error e => .raise e

/-- The operations that leave the disk and the events as they are. -/
def Op.reads : Op → Bool
  | .tokenHex _ | .writeTmp _ _ | .replaceState _ _ _ | .writeEvidence _ _ _ | .createLock _
  | .unlinkLock _ | .invoke _ _ _ _ _ _ => false
  | _ => true

/-! ### What operations do -/

namespace World

/-- Change one mission directory. -/
def modify (w : World) (m : String) (f : MissionDir → MissionDir) : World :=
  fun m' => if m' = m then f (w m) else w m'

@[simp] theorem modify_same (w : World) (m : String) (f : MissionDir → MissionDir) :
    w.modify m f m = f (w m) := by simp [modify]

theorem modify_of_ne {w : World} {m m' : String} {f : MissionDir → MissionDir} (h : m' ≠ m) :
    w.modify m f m' = w m' := by simp [modify, h]

/-- `os.replace`: the temporary file becomes `execution_state.json`. -/
def commit (w : World) (t : Tid) (m : String) (frame : Frame) (written : ExecutionState) : World :=
  w.modify m fun d =>
    { d with
      state := d.tmp
      tmp := .absent
      events := .persisted t frame written :: d.events }

def setLock (w : World) (m : String) (owner : Option Tid) : World :=
  w.modify m fun d => { d with lock := owner }

end World

/-- An operation takes effect when it succeeds; when it is interrupted it may
have, and when it fails with an `OSError` it has not. -/
def Takes {α : Type} (r : Except PyExc α) (w done w' : World) : Prop :=
  match r with
  | .ok _ => w' = done
  | .error e => w' = w ∨ (e.isOSError = false ∧ w' = done)

/-- `step t w o r w'`: performed by thread `t` in `w`, operation `o` may answer
`r` and leave `w'`. -/
def step (t : Tid) (w : World) : (o : Op) → o.Ans → World → Prop
  | .isFile m f, r, w' => w' = w ∧ ∀ b, r = .ok b → (b = true ↔ (w m).file f ≠ .absent)
  | .readJson m f, r, w' => w' = w ∧ ∀ v, r = .ok v → (w m).file f = .json v
  | .tokenHex m, r, w' =>
      match r with
      | .ok nonce => w' = w.modify m fun d => { d with events := .drew nonce :: d.events }
      | .error _ => w' = w
  | .writeTmp m v, r, w' =>
      ∃ content, w' = (w.modify m fun d => { d with tmp := content }) ∧
        ∀ u, r = .ok u → content = .json v
  | .replaceState m frame written, r, w' => Takes r w (w.commit t m frame written) w'
  | .writeEvidence m id v, r, w' =>
      ∃ content, w' = (w.modify m fun d =>
          { d with evidence := fun i => if i = id then content else d.evidence i }) ∧
        ∀ u, r = .ok u → content = .json v
  | .createLock m, r, w' =>
      (w m).lock = none ∧ Takes r w (w.setLock m (some t)) w' ∨
        (w m).lock ≠ none ∧ w' = w ∧ ∃ e, r = .error e
  | .unlinkLock m, r, w' => Takes r w (w.setLock m none) w'
  | .invoke m _ _ _ frame invocation, _, w' =>
      w' = w.modify m fun d => { d with events := .invoked t frame invocation :: d.events }
  | _, _, w' => w' = w

theorem step_of_reads {t : Tid} {w w' : World} {o : Op} {r : o.Ans} (ho : o.reads = true)
    (h : step t w o r w') : w' = w := by
  cases o
  case isFile => exact h.1
  case readJson => exact h.1
  all_goals first
    | exact h
    | cases ho

end Konoha
