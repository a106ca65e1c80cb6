/-
Hokage/Approval.lean

`approve_charter_1_1` as a program on the directory of a mission, and any number of
such calls on one directory as a concurrent system.

The directory is modelled down to its inodes, because the two calls of
`atomic_write_json` write temporary files of fixed names: a call may hold a temporary
file open that another call has meanwhile renamed over the charter.  Writing a file
takes two operations, so that a call can die in the middle.

Two marks are kept that no program reads.  A call is `fresh` from its receipt check,
if that finds none, until another call writes; `raced` is set when a call writes that
is not.
-/
import KonohaRuntime.Effects.Fallible
import KonohaRuntime.Effects.Deliver
import KonohaRuntime.Effects.Schedule
import KonohaRuntime.Runtime.Host
import KonohaRuntime.Hokage.Checkpoint

namespace Konoha.Hokage

open Effects Json

/-! ### Files -/

/-- The names a call uses in the directory. -/
inductive FileName
  | charter
  | charterTmp
  | decision
  | decisionTmp
  | receipt
  deriving DecidableEq

/-- The files that `atomic_write_json` replaces. -/
inductive Target
  | charter
  | decision
  deriving DecidableEq

namespace Target

def file : Target → FileName
  | charter => .charter
  | decision => .decision

/-- `path.with_suffix(path.suffix + ".tmp")` -/
def tmp : Target → FileName
  | charter => .charterTmp
  | decision => .decisionTmp

end Target

/-- An inode, with the thread that has last opened or written it. -/
structure Inode where
  content : Content
  author : Option Tid

structure Files where
  entry : FileName → Option Nat
  inode : Nat → Inode
  next : Nat

namespace Files

def hasFile (f : Files) (n : FileName) : Bool := (f.entry n).isSome

def content (f : Files) (n : FileName) : Content :=
  match f.entry n with
  | some i => (f.inode i).content
  | none => .absent

/-- The inode that thread `t` gets for a name, and the files once it is there. -/
def openTrunc (f : Files) (t : Tid) (n : FileName) : Nat × Files :=
  match f.entry n with
  | some i => (i, { f with inode := Function.update f.inode i ⟨emptyFile, some t⟩ })
  | none =>
      (f.next,
        { entry := Function.update f.entry n (some f.next)
          inode := Function.update f.inode f.next ⟨emptyFile, some t⟩
          next := f.next + 1 })

def write (f : Files) (i : Nat) (c : Content) (t : Tid) : Files :=
  { f with inode := Function.update f.inode i ⟨c, some t⟩ }

/-- `temporary.replace(path)` -/
def rename (f : Files) (target : Target) (i : Nat) : Files :=
  { f with
    entry := Function.update (Function.update f.entry target.file (some i)) target.tmp none }

/-- The authoritative files, for a checkpoint. -/
def authority (f : Files) : AuthorityFiles :=
  ⟨f.content .charter, f.content .decision, f.content .receipt⟩

/-- A directory with the given contents. -/
def ofContents (c : FileName → Content) : Files :=
  let index : FileName → Nat
    | .charter => 0
    | .charterTmp => 1
    | .decision => 2
    | .decisionTmp => 3
    | .receipt => 4
  let name : Nat → FileName
    | 0 => .charter
    | 1 => .charterTmp
    | 2 => .decision
    | 3 => .decisionTmp
    | _ => .receipt
  { entry := fun n => if c n = .absent then none else some (index n)
    inode := fun i => ⟨c (name i), none⟩
    next := 5 }

end Files

/-- A receipt that has been written to its end, with the charter and the decision it
was written for. -/
structure Publication where
  t : Tid
  charter : Dict
  decision : Dict
  deriving DecidableEq

/-- The directory of a mission; `frozen` are the charter file and the decision file at
the moment the receipt was created. -/
structure CharterDir where
  files : Files
  fresh : Tid → Bool
  raced : Bool
  frozen : Option (Content × Content)
  published : List Publication

/-! ### Operations -/

/-- The operations of a call.  The charter and the decision of `writeReceipt` only
label the publication. -/
inductive CharterOp
  /-- `mission_authority_receipt_path(mission_dir).is_file()` -/
  | receiptIsFile
  /-- `utc_now()` -/
  | utcNow
  /-- `path.parent.mkdir(parents=True, exist_ok=True)` -/
  | mkdir
  /-- `open(temporary, "w")` -/
  | openTmp (target : Target)
  /-- the first part of a text has been written -/
  | writePart (i : Nat)
  /-- the rest of the text of `v` -/
  | writeRest (i : Nat) (v : Dict)
  /-- `temporary.replace(path)` -/
  | replace (target : Target)
  /-- `os.open(path, O_CREAT | O_EXCL | O_WRONLY)` -/
  | createReceipt
  /-- `path.read_text(encoding="utf-8")`, parsed -/
  | readReceipt
  /-- the rest of the text of the receipt -/
  | writeReceipt (i : Nat) (receipt charter decision : Dict)
  /-- `os.fsync(descriptor)` -/
  | fsync (i : Nat)
  /-- `os.close(descriptor)` -/
  | close (i : Nat)

abbrev CharterOp.Value : CharterOp → Type
  | .receiptIsFile => Bool
  | .utcNow => Timestamp
  | .openTmp _ => Nat
  | .createReceipt => Nat
  | .readReceipt => Content
  | _ => Unit

abbrev CharterOp.Ans (o : CharterOp) : Type := Except AuthorityExc o.Value

abbrev CharterRun (α : Type) := Prog CharterOp.Ans AuthorityExc α

open Prog (ofExcept)

/-- Perform an operation on the directory of the mission. -/
abbrev onCharter (o : CharterOp) : CharterRun o.Value := Prog.ask o

/-! ### A call -/

/-- `atomic_write_json` -/
def atomicWriteJson (target : Target) (payload : Dict) : CharterRun Unit := do
  onCharter .mkdir
  let i ← onCharter (.openTmp target)
  onCharter (.writePart i)
  onCharter (.writeRest i payload)
  onCharter (.replace target)

/-- The checks of `write_authority_receipt`. -/
def receiptChecks (py : Stdlib) (charter decision : Dict) (approvedAt approvalPhrase : String) :
    Except AuthorityExc Unit := do
  validateCharterShape py charter true
  validateDecisionShape py decision
  require (isText (fieldOf charter "mission_id")) .missionBindingMismatch
    "mission_id argument must be a non-empty string"
  require (fieldOf charter "mission_id" = fieldOf decision "mission_id") .missionBindingMismatch
    "mission_id argument does not match charter/decision"
  require (fieldOf charter "decision_id" = fieldOf decision "decision_id")
    .decisionBindingMismatch "charter.decision_id does not match decision.decision_id"
  require (fieldOf charter "decision_digest" = .str (canonicalDigest py decision))
    .decisionBindingMismatch "charter.decision_digest does not match decision"
  require (approvedAt ≠ "") .authorityReceiptInvalid "approved_at must be a non-empty string"
  require (approvalPhrase ≠ "") .authorityReceiptInvalid
    "approval_phrase must be a non-empty string"
  require (fieldOf charter "approval_phrase" = .str approvalPhrase) .authorityReceiptInvalid
    "approval_phrase does not match charter.approval_phrase"

/-- The receipt of an approval. -/
def receiptOf (py : Stdlib) (charter decision : Dict) (approvedAt approvalPhrase : String) : Dict :=
  [("schema_version", .str "1.1.0"),
   ("report_type", .str "conversational_mission_authority_receipt"),
   ("mission_id", fieldOf charter "mission_id"),
   ("charter_id", fieldOf charter "charter_id"),
   ("charter_digest", .str (canonicalDigest py charter)),
   ("decision_id", fieldOf decision "decision_id"),
   ("decision_digest", .str (canonicalDigest py decision)),
   ("approved_at", .str approvedAt),
   ("approval_phrase_hash", .str (py.sha256 approvalPhrase).1)]

/-- The `identity_fields` of a receipt. -/
def receiptIdentityFields : List String :=
  ["mission_id", "charter_id", "charter_digest", "decision_id", "decision_digest",
   "approval_phrase_hash"]

/-- `publish_once` of a receipt. -/
def publishReceipt (dir : MissionPath) (receipt charter decision : Dict) : CharterRun Dict := do
  onCharter .mkdir
  match ← Prog.attempt (onCharter .createReceipt) with
  | .error (.python (.fileExistsError _)) => do
      let content ← onCharter .readReceipt
      let existing ← ofExcept (readAuthoritativeJson dir.receipt content .authorityReceiptInvalid)
      if receiptIdentityFields.any fun key => fieldOf existing key ≠ fieldOf receipt key then
        .raise (.binding .authorityReceiptInvalid
          ("a different payload was already published at " ++ dir.receipt))
      else return existing
  | .error e => .raise (osErrorAs .authorityReceiptInvalid ("could not create " ++ dir.receipt) e)
  | .ok i => do
      let written ← Prog.attempt (do
        onCharter (.writePart i)
        onCharter (.writeReceipt i receipt charter decision)
        onCharter (.fsync i))
      onCharter (.close i)
      match written with
      | .error e =>
          .raise (osErrorAs .authorityReceiptInvalid ("could not write " ++ dir.receipt) e)
      | .ok _ => return receipt

/-- `write_authority_receipt`; the `mission_id` passed is that of the charter. -/
def writeAuthorityReceipt (py : Stdlib) (dir : MissionPath) (charter decision : Dict)
    (approvedAt approvalPhrase : String) : CharterRun Dict := do
  ofExcept (receiptChecks py charter decision approvedAt approvalPhrase)
  let published ← publishReceipt dir (receiptOf py charter decision approvedAt approvalPhrase)
    charter decision
  ofExcept (validateReceiptShape py published)
  return published

/-- The checks of `approve_charter_1_1` before it looks at the directory. -/
def approvalChecks (py : Stdlib) (charter decision : Dict) (approvalPhrase approvedBy : String) :
    Except AuthorityExc Unit := do
  require (fieldOf charter "approval_phrase" = .str (strip approvalPhrase))
    .approvalBindingMismatch "approval_phrase does not match charter.approval_phrase"
  require (strip approvedBy ≠ "") .approvalBindingMismatch
    "approved_by must be a non-empty string"
  require (fieldOf charter "schema_version" = .str "1.1.0") .charterSchemaMigrationRequired
    ("charter schema_version=" ++ py.repr (fieldOf charter "schema_version"))
  require (fieldOf charter "state" = .str "proposed") .charterBindingMismatch
    ("only a proposed charter can be approved, found state=" ++ py.repr (fieldOf charter "state"))
  validateCharterConstruction py charter decision

/-- The charter that an approval persists. -/
def approvedCharter (charter : Dict) (approvedAt approvedBy : String) : Dict :=
  setField "approved_by" (.str approvedBy)
    (setField "approved_at" (.str approvedAt) (setField "state" (.str "approved") charter))

/-- `approve_charter_1_1` -/
def approveCharter (py : Stdlib) (dir : MissionPath) (charter decision : Dict)
    (approvalPhrase approvedBy : String) : CharterRun Dict := do
  ofExcept (approvalChecks py charter decision approvalPhrase approvedBy)
  if ← onCharter .receiptIsFile then
    .raise (.binding .authorityReceiptInvalid
      ("a mission authority receipt already exists for this mission; " ++
        "approve_charter_1_1() cannot run again - re-approval is not " ++
        "reentrant and never overwrites already-frozen authoritative files"))
  else
    let now ← onCharter .utcNow
    let approved := approvedCharter charter now.1 (strip approvedBy)
    atomicWriteJson .decision decision
    atomicWriteJson .charter approved
    let _ ← writeAuthorityReceipt py dir approved decision now.1 (strip approvalPhrase)
    return approved

/-! ### What operations do -/

/-- The operation answers `v` and makes the files `done`; if it fails it does nothing,
or, when it was interrupted, may have done it. -/
def TakesAs {α : Type} (r : Except AuthorityExc α) (v : α) (f done f' : Files) : Prop :=
  match r with
  | .ok a => a = v ∧ f' = done
  | .error (.python e) => f' = f ∨ (e.isOSError = false ∧ f' = done)
  | .error (.binding _ _) => False

/-- `fileStep t f o r f'`: what operation `o` of thread `t` does to the files. -/
def fileStep (t : Tid) (f : Files) : (o : CharterOp) → o.Ans → Files → Prop
  | .openTmp target, r, f' =>
      TakesAs r (f.openTrunc t target.tmp).1 f (f.openTrunc t target.tmp).2 f'
  -- no part of the text of a JSON object is one
  | .writePart i, _, f' => ∃ c, c ≠ .absent ∧ (∀ v, c ≠ .json v) ∧ f' = f.write i c t
  -- two texts written to one file at the same time may end up in any mixture
  | .writeRest i v, r, f' =>
      ∃ c, c ≠ .absent ∧ f' = f.write i c t ∧
        (r = .ok () → (f.inode i).author = some t → c = .json (.obj v))
  | .writeReceipt i v _ _, r, f' =>
      ∃ c, c ≠ .absent ∧ f' = f.write i c t ∧
        (r = .ok () → (f.inode i).author = some t → c = .json (.obj v))
  | .replace target, r, f' =>
      match f.entry target.tmp with
      | some i => TakesAs r () f (f.rename target i) f'
      | none => f' = f ∧ ∃ e, r = .error e
  | .createReceipt, r, f' =>
      match f.entry .receipt with
      | none =>
          TakesAs r f.next f (f.openTrunc t .receipt).2 f' ∧
            ∀ text, r ≠ .error (.python (.fileExistsError text))
      | some _ => f' = f ∧ ∃ e, r = .error e
  | _, _, f' => f' = f

/-- Operations that change files. -/
def CharterOp.writes : CharterOp → Bool
  | .openTmp _ | .writePart _ | .writeRest _ _ | .replace _ | .createReceipt
  | .writeReceipt _ _ _ _ => true
  | _ => false

/-- The publication that an operation is. -/
def publishes (t : Tid) : (o : CharterOp) → o.Ans → List Publication
  | .writeReceipt _ _ charter decision, .ok _ => [⟨t, charter, decision⟩]
  | _, _ => []

/-- Thread `t` has written. -/
def CharterDir.touch (d : CharterDir) (t : Tid) (f : Files) (new : List Publication) :
    CharterDir where
  files := f
  fresh t' := d.fresh t' && t' == t
  raced := d.raced || !d.fresh t
  frozen :=
    if d.files.hasFile .receipt = false ∧ f.hasFile .receipt = true then
      some (d.files.content .charter, d.files.content .decision)
    else d.frozen
  published := new ++ d.published

/-- `charterStep t d o r d'`: performed by thread `t` in `d`, operation `o` may answer
`r` and leave `d'`. -/
def charterStep (t : Tid) (d : CharterDir) (o : CharterOp) (r : o.Ans) (d' : CharterDir) : Prop :=
  if o.writes then ∃ f, fileStep t d.files o r f ∧ d' = d.touch t f (publishes t o r)
  else
    match o, r with
    | .receiptIsFile, .ok found =>
        found = d.files.hasFile .receipt ∧
          d' = { d with fresh := Function.update d.fresh t (!found) }
    | .readReceipt, .ok c => c = d.files.content .receipt ∧ d' = d
    | _, _ => d' = d

/-! ### The system -/

/-- One call of `approve_charter_1_1`. -/
structure ApprovalCall where
  charter : Dict
  decision : Dict
  approvalPhrase : String
  approvedBy : String

/-- Any number of calls on one directory, in which nobody else writes.  A call that
returns is taken to return its decision as well. -/
def approvals (py : Stdlib) (dir : MissionPath) :
    System CharterDir ApprovalCall CharterOp.Ans AuthorityExc (Dict × Dict) where
  call := fun _ c => do
    let approved ← approveCharter py dir c.charter c.decision c.approvalPhrase c.approvedBy
    return (approved, c.decision)
  step := charterStep
  die := fun _ d d' => d' = d
  env := fun _ d d' => d' = d

/-- A directory in which no call has begun. -/
def CharterDir.init (c : FileName → Content) : CharterDir where
  files := .ofContents c
  fresh := fun _ => false
  raced := false
  frozen := if c .receipt = .absent then none else some (c .charter, c .decision)
  published := []

end Konoha.Hokage
