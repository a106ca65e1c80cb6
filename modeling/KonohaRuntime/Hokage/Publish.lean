/-
Hokage/Publish.lean

`publish_once`: any number of calls publish to one path, interleaved between the exclusive create,
the write and the read.

The name is there before its content is, and what a creator leaves behind when it fails is never
taken away.  So a call that reads in between, or after a failure, raises although its payload
agrees.  In a run in which that does not happen the first payload is the one that every call
returns or is compared with (`publishes_of_careful`).
-/
import Mathlib.Logic.Function.Basic
import KonohaRuntime.Base.PyEq
import KonohaRuntime.Hokage.Reading

namespace Konoha.Hokage

open CodePoint PyJson

/-! ### The calls -/

/-- What `publish_once` is called with, for one path. -/
structure PublishCall where
  payload : PyDict
  identityFields : List String
  errorCode : BindingCode

/-- What the calls have in common: the path, and how deep a value may be nested for
`json.dumps`. -/
structure Publishing where
  py : Stdlib
  depth : Nat
  path : String
  call : Nat → PublishCall

/-- `encoded` -/
def encodePayload (py : Stdlib) (depth : Nat) (payload : PyDict) : Except PyExc ByteArray := do
  let text ← dumpsSorted py depth .indented (.obj payload)
  let text ← PyStr.encode (text ++ [scalar '\n'])
  return text.toUTF8

/-- What happens when the path was there. -/
def PublishCall.reenter (call : PublishCall) (path : String) (existing : PyDict) :
    Except AuthorityExc (PyDict × Bool) :=
  if call.identityFields.any fun f => ! pyEq (field existing f) (field call.payload f) then
    .error (.binding call.errorCode ("a different payload was already published at " ++ path))
  else .ok (existing, false)

/-- How a write ends; the bytes that were written are not counted. -/
inductive WriteEnd
  /-- `os.write` and `os.fsync` return -/
  | returned
  /-- one of them raises an `OSError` -/
  | failed (text : String)
  /-- the process dies -/
  | died

/-- Where a call is. -/
inductive Stage
  | ready
  /-- it has created the file -/
  | created (encoded : ByteArray)
  /-- `FileExistsError` -/
  | found
  | ended (result : Except AuthorityExc (PyDict × Bool))
  | dead

/-- The file, the call that has created it, and where the calls are. -/
structure Publishings where
  file : Option ByteArray
  creator : Option Nat
  phase : Nat → Stage

namespace Publishings

def init : Publishings := ⟨none, none, fun _ => .ready⟩

/-- A call moves on. -/
def move (s : Publishings) (i : Nat) (phase : Stage) : Publishings :=
  { s with phase := Function.update s.phase i phase }

end Publishings

/-- One step of a call. -/
inductive PublishEvent
  /-- `json.dumps` and `os.open` with `O_CREAT | O_EXCL` -/
  | start (i : Nat)
  /-- `os.write`, of the first `n` bytes, and `os.fsync` -/
  | write (i n : Nat) (outcome : WriteEnd)
  /-- `read_authoritative_json`, and the comparison -/
  | read (i : Nat)
  | die (i : Nat)

namespace Publishing

variable (p : Publishing)

/-- The result of a call whose write has ended. -/
def written (i : Nat) : WriteEnd → Stage
  | .returned => .ended (.ok ((p.call i).payload, true))
  | .failed text => .ended (.error (.binding (p.call i).errorCode
      ("could not write " ++ p.path ++ ": " ++ text)))
  | .died => .dead

/-- The result of a call that reads the file. -/
def readBack (i : Nat) (content : ByteArray) : Except AuthorityExc (PyDict × Bool) := do
  let existing ← readJson p.py p.path (.bytes content) (p.call i).errorCode
  (p.call i).reenter p.path existing

/-- What a step does, when it can take place. -/
def step (s : Publishings) : PublishEvent → Option Publishings
  | .start i =>
      match s.phase i with
      | .ready =>
          match encodePayload p.py p.depth (p.call i).payload with
          | .error e => some (s.move i (.ended (.error (.python e))))
          | .ok encoded =>
              match s.file with
              | none => some { (s.move i (.created encoded)) with
                  file := some ByteArray.empty, creator := some i }
              | some _ => some (s.move i .found)
      | _ => none
  | .write i n outcome =>
      match s.phase i with
      | .created encoded =>
          some { (s.move i (p.written i outcome)) with file := some (encoded.extract 0 n) }
      | _ => none
  | .read i =>
      match s.phase i, s.file with
      | .found, some content => some (s.move i (.ended (p.readBack i content)))
      | _, _ => none
  | .die i =>
      match s.phase i with
      | .ended _ => none
      | _ => some (s.move i .dead)

/-- The states that are reached when every step is `allowed`. -/
inductive Reached (allowed : Publishings → PublishEvent → Prop) : Publishings → Prop
  | init : Reached allowed .init
  | step {s s' : Publishings} {e : PublishEvent} (h : Reached allowed s) (ha : allowed s e)
      (hs : p.step s e = some s') : Reached allowed s'

section Step

variable {p} {s : Publishings} {i : Nat} {encoded content : ByteArray}

theorem step_start_new (hphase : s.phase i = .ready)
    (hencoded : encodePayload p.py p.depth (p.call i).payload = .ok encoded)
    (hfile : s.file = none) : p.step s (.start i) = some { (s.move i (.created encoded)) with
      file := some ByteArray.empty, creator := some i } := by
  rw [step, hphase, hencoded, hfile]

theorem step_start_old (hphase : s.phase i = .ready)
    (hencoded : encodePayload p.py p.depth (p.call i).payload = .ok encoded)
    (hfile : s.file = some content) : p.step s (.start i) = some (s.move i .found) := by
  rw [step, hphase, hencoded, hfile]

theorem step_write (hphase : s.phase i = .created encoded) (n : Nat) (outcome : WriteEnd) :
    p.step s (.write i n outcome) =
      some { (s.move i (p.written i outcome)) with file := some (encoded.extract 0 n) } := by
  rw [step, hphase]

theorem step_read (hphase : s.phase i = .found) (hfile : s.file = some content) :
    p.step s (.read i) = some (s.move i (.ended (p.readBack i content))) := by
  rw [step, hphase, hfile]

end Step

/-! ### What is asked -/

/-- Two payloads agree on the identity fields of a call. -/
def Agrees (i : Nat) (existing : PyDict) : Prop :=
  ∀ f ∈ (p.call i).identityFields, pyEq (field existing f) (field (p.call i).payload f) = true

/-- A payload, or the payload with sorted keys. -/
def Yields (d payload : PyDict) : Prop := d = payload ∨ sortKeys (.obj payload) = .obj d

/-- The call that has created the file is at its end and has not returned. -/
def Failed (s : Publishings) (j : Nat) : Prop :=
  s.phase j = .dead ∨ ∃ e, s.phase j = .ended (.error e)

/-- A call that is made now publishes, if nothing goes wrong. -/
def CanPublish (s : Publishings) (i : Nat) : Prop :=
  ∃ s₁ s₂ n d, p.step s (.start i) = some s₁ ∧ p.step s₁ (.write i n .returned) = some s₂ ∧
    s₂.phase i = .ended (.ok (d, true))

/-- One payload is published. -/
structure Publishes (s : Publishings) : Prop where
  once : ∀ i j d d', s.phase i = .ended (.ok (d, true)) → s.phase j = .ended (.ok (d', true)) →
    i = j
  yields : ∀ i d b, s.phase i = .ended (.ok (d, b)) →
    ∃ j, s.creator = some j ∧ Yields d (p.call j).payload
  returns : ∀ i e j, s.phase i = .ended (.error e) → s.creator = some j →
    ¬ p.Agrees i (p.call j).payload
  retry : ∀ i j, s.creator = some j → Failed s j → s.phase i = .ready → p.CanPublish s i

/-- The payload can be written, and read back. -/
structure Readable (payload : PyDict) : Prop where
  fits : Loads.Fits p.py (.obj payload)
  nested : nesting (.obj payload) ≤ p.py.interpreter.depth

/-- The step neither fails nor reads what is not complete. -/
def Careful (s : Publishings) : PublishEvent → Prop
  | .start i => (∃ encoded, encodePayload p.py p.depth (p.call i).payload = .ok encoded) ∧
      (s.file = none → p.Readable (p.call i).payload)
  | .write i n outcome => outcome = .returned ∧
      ∀ encoded, s.phase i = .created encoded → encoded.size ≤ n
  | .read _ => ∀ j encoded, s.phase j ≠ .created encoded
  | .die i => ∀ encoded, s.phase i ≠ .created encoded

/-! ### What is written is read back -/

section ReadBack

variable {p}

theorem encodePayload_eq_ok {payload : PyDict} {encoded : ByteArray}
    (h : encodePayload p.py p.depth payload = .ok encoded) : ∃ cs : List Char,
      encoded = (String.ofList cs).toUTF8 ∧
        cs.map scalar = dumps p.py .indented 0 (sortKeys (.obj payload)) ++ [scalar '\n'] := by
  obtain ⟨text, htext, h⟩ := bind_eq_ok.mp h
  obtain ⟨s, hs, h⟩ := bind_eq_ok.mp h
  have htext' : text = dumps p.py .indented 0 (sortKeys (.obj payload)) := by
    unfold dumpsSorted at htext
    split_ifs at htext
    exact (Except.ok.inj htext).symm
  rw [htext', PyStr.encode_eq_ok_iff] at hs
  refine ⟨s.toList, ?_, hs.symm⟩
  rw [String.ofList_toList]
  exact (Except.ok.inj h).symm

/-- The content that a readable payload is written as gives the payload back, with sorted keys. -/
theorem readJson_encoded {payload : PyDict} {encoded : ByteArray}
    (h : encodePayload p.py p.depth payload = .ok encoded) (hreadable : p.Readable payload)
    (path : String) (code : BindingCode) {d : PyDict} (hd : sortKeys (.obj payload) = .obj d) :
    readJson p.py path (.bytes encoded) code = .ok d := by
  obtain ⟨cs, rfl, hcs⟩ := encodePayload_eq_ok h
  have hfits : Loads.Fits p.py (sortKeys (.obj payload)) :=
    (Loads.fits_sortKeys_iff p.py _).mpr hreadable.fits
  have hreturn : '\r' ∉ cs := by
    intro hmem
    have hmem' : scalar '\r' ∈ cs.map scalar := List.mem_map_of_mem hmem
    rw [hcs, List.mem_append] at hmem'
    rcases hmem' with h | h
    · exact Loads.notMem_dumps p.py Loads.returnless_indented _ 0 hfits h
    · cases List.mem_singleton.mp h
  refine readJson_eq_ok_iff.mpr ⟨_, _, rfl, readText_written hreturn, ?_⟩
  rw [hcs, ← hd]
  refine loads_dumps Loads.spaced_indented ?_ hfits (by decide)
  exact (nesting_sortKeys_le_iff _ _).mpr hreadable.nested

/-- A call that finds the payload returns it when it agrees, and raises when it does not. -/
theorem readBack_encoded {i j : Nat} {encoded : ByteArray}
    (h : encodePayload p.py p.depth (p.call j).payload = .ok encoded)
    (hreadable : p.Readable (p.call j).payload) :
    (∃ d, p.readBack i encoded = .ok (d, false) ∧ Yields d (p.call j).payload) ∨
      ∃ e, p.readBack i encoded = .error e ∧ ¬ p.Agrees i (p.call j).payload := by
  obtain ⟨d, hd, -⟩ := sortKeys_obj_perm (p.call j).payload
  have hread := readJson_encoded h hreadable p.path (p.call i).errorCode hd
  have hfield (f : String) : pyEq (field d f) (field (p.call i).payload f) =
      pyEq (field (p.call j).payload f) (field (p.call i).payload f) := by
    rw [field_sortKeys hreadable.fits.1 hd, pyEq_sortKeys]
  unfold readBack PublishCall.reenter
  rw [hread]
  by_cases hagrees : p.Agrees i (p.call j).payload
  · refine .inl ⟨d, ?_, .inr hd⟩
    show (if _ then _ else _) = _
    rw [if_neg]
    intro hany
    obtain ⟨f, hf, hne⟩ := List.any_eq_true.mp hany
    rw [hfield, hagrees f hf] at hne
    cases hne
  · refine .inr ⟨_, if_pos ?_, hagrees⟩
    unfold Agrees at hagrees
    push Not at hagrees
    obtain ⟨f, hf, hne⟩ := hagrees
    refine List.any_eq_true.mpr ⟨f, hf, ?_⟩
    rw [hfield, Bool.eq_false_iff.mpr hne]
    rfl

end ReadBack

/-! ### Careful runs -/

/-- How a call has ended once `j` has created the file. -/
def EndedWell (i j : Nat) (result : Except AuthorityExc (PyDict × Bool)) : Prop :=
  (i = j ∧ result = .ok ((p.call j).payload, true)) ∨
    (∃ d, result = .ok (d, false) ∧ Yields d (p.call j).payload) ∨
      ∃ e, result = .error e ∧ ¬ p.Agrees i (p.call j).payload

/-- The file of the creator `j`: it is still to be written, or complete. -/
structure Holds (s : Publishings) (j : Nat) (content encoded : ByteArray) : Prop where
  creator : s.creator = some j
  readable : p.Readable (p.call j).payload
  encodes : encodePayload p.py p.depth (p.call j).payload = .ok encoded
  stage : s.phase j = .created encoded ∨
    (content = encoded ∧ s.phase j = .ended (.ok ((p.call j).payload, true)))
  only : ∀ i encoded', s.phase i = .created encoded' → i = j
  ended : ∀ i result, s.phase i = .ended result → p.EndedWell i j result

/-- What holds in every state of a careful run. -/
structure Inv (s : Publishings) : Prop where
  nothing : s.file = none → s.creator = none ∧ ∀ i, s.phase i = .ready ∨ s.phase i = .dead
  something : ∀ content, s.file = some content → ∃ j encoded, p.Holds s j content encoded

theorem inv_init : p.Inv .init :=
  ⟨fun _ => ⟨rfl, fun _ => .inl rfl⟩, fun _ h => nomatch h⟩

section Steps

variable {p} {s s' : Publishings} {i j : Nat}

theorem phase_move (s : Publishings) (i k : Nat) (phase : Stage) :
    (s.move i phase).phase k = if k = i then phase else s.phase k :=
  Function.update_apply s.phase i phase k

/-- A call that has not created the file moves on. -/
theorem Holds.move {content encoded : ByteArray} (h : p.Holds s j content encoded) {phase : Stage}
    (hcreator : i ≠ j) (hcreated : ∀ encoded', phase ≠ .created encoded')
    (hended : ∀ result, phase = .ended result → p.EndedWell i j result) :
    p.Holds (s.move i phase) j content encoded where
  creator := h.creator
  readable := h.readable
  encodes := h.encodes
  stage := by
    rw [phase_move, if_neg fun heq => hcreator heq.symm]
    exact h.stage
  only k encoded' hk := by
    rw [phase_move] at hk
    split_ifs at hk with heq
    · exact absurd hk (hcreated encoded')
    · exact h.only k encoded' hk
  ended k result hk := by
    rw [phase_move] at hk
    split_ifs at hk with heq
    · exact heq ▸ hended result hk
    · exact h.ended k result hk

theorem Holds.ne_of_phase {content encoded : ByteArray} (h : p.Holds s j content encoded)
    (hcreated : ∀ encoded', s.phase i ≠ .created encoded')
    (hended : ∀ result, s.phase i ≠ .ended result) : i ≠ j := by
  rintro rfl
  rcases h.stage with hphase | ⟨-, hphase⟩
  · exact hcreated _ hphase
  · exact hended _ hphase

theorem inv_start (h : p.Inv s) (ha : p.Careful s (.start i))
    (hs : p.step s (.start i) = some s') : p.Inv s' := by
  obtain ⟨⟨encoded, hencoded⟩, hreadable⟩ := ha
  rcases hphase : s.phase i with - | text | - | result | -
  case ready =>
    rcases hfile : s.file with - | content
    · rw [step_start_new hphase hencoded hfile] at hs
      obtain rfl := Option.some.inj hs
      obtain ⟨-, hphases⟩ := h.nothing hfile
      refine ⟨fun h => (nomatch h), fun content _ => ⟨i, encoded, ?_⟩⟩
      have hother {k : Nat} {phase : Stage} (hk : (s.move i (.created encoded)).phase k = phase)
          (hready : phase ≠ .ready) (hdead : phase ≠ .dead) :
          k = i ∧ phase = .created encoded := by
        rw [phase_move] at hk
        split_ifs at hk with heq
        · exact ⟨heq, hk.symm⟩
        · rcases hphases k with hphase | hphase
          · exact absurd (hk.symm.trans hphase) hready
          · exact absurd (hk.symm.trans hphase) hdead
      exact
        { creator := rfl
          readable := hreadable hfile
          encodes := hencoded
          stage := .inl ((phase_move s i i _).trans (if_pos rfl))
          only := fun k encoded' hk => (hother hk (fun h => nomatch h) fun h => nomatch h).1
          ended := fun k result hk => by
            cases (hother hk (fun h => nomatch h) fun h => nomatch h).2 }
    · rw [step_start_old hphase hencoded hfile] at hs
      obtain rfl := Option.some.inj hs
      refine ⟨fun hnone => ?_, fun content' hcontent => ?_⟩
      · cases hfile.symm.trans hnone
      · obtain ⟨j, encoded', hj⟩ := h.something content' hcontent
        refine ⟨j, encoded', hj.move ?_ (fun _ h => nomatch h) fun _ h => nomatch h⟩
        exact hj.ne_of_phase (by rw [hphase]; exact fun _ h => nomatch h)
          (by rw [hphase]; exact fun _ h => nomatch h)
  all_goals
    rw [step, hphase] at hs
    cases hs

theorem inv_write {n : Nat} {outcome : WriteEnd} (h : p.Inv s)
    (ha : p.Careful s (.write i n outcome)) (hs : p.step s (.write i n outcome) = some s') :
    p.Inv s' := by
  obtain ⟨rfl, hsize⟩ := ha
  rcases hphase : s.phase i with - | text | - | result | -
  case created =>
    rw [step_write hphase] at hs
    obtain rfl := Option.some.inj hs
    have hwhole : text.extract 0 n = text := by
      have := ByteArray.extract_zero_max_size (a := text) (i := n)
      rwa [Nat.max_eq_left (hsize text hphase)] at this
    rw [hwhole]
    rcases hfile : s.file with - | content
    · rcases (h.nothing hfile).2 i with hready | hdead
      · cases hphase.symm.trans hready
      · cases hphase.symm.trans hdead
    · obtain ⟨j, encoded, hj⟩ := h.something content hfile
      obtain rfl := hj.only i text hphase
      have hsame : text = encoded := by
        rcases hj.stage with hstage | ⟨-, hstage⟩
        · exact Stage.created.inj (hphase.symm.trans hstage)
        · cases hphase.symm.trans hstage
      subst hsame
      refine ⟨fun h => (nomatch h), fun content' hcontent => ⟨i, text, ?_⟩⟩
      obtain rfl := Option.some.inj hcontent
      exact
        { creator := hj.creator
          readable := hj.readable
          encodes := hj.encodes
          stage := .inr ⟨rfl, (phase_move s i i _).trans (if_pos rfl)⟩
          only := fun k encoded' hk => by
            rw [phase_move] at hk
            split_ifs at hk with heq
            · cases hk
            · exact hj.only k encoded' hk
          ended := fun k result hk => by
            rw [phase_move] at hk
            split_ifs at hk with heq
            · exact .inl ⟨heq, (Stage.ended.inj hk).symm⟩
            · exact hj.ended k result hk }
  all_goals
    rw [step, hphase] at hs
    cases hs

theorem inv_read (h : p.Inv s) (ha : p.Careful s (.read i))
    (hs : p.step s (.read i) = some s') : p.Inv s' := by
  rcases hphase : s.phase i with - | text | - | result | -
  case found =>
    rcases hfile : s.file with - | content
    · rw [step, hphase, hfile] at hs
      cases hs
    · rw [step_read hphase hfile] at hs
      obtain rfl := Option.some.inj hs
      refine ⟨fun hnone => ?_, fun content' hcontent => ?_⟩
      · cases hfile.symm.trans hnone
      · obtain rfl := Option.some.inj (hfile.symm.trans hcontent)
        obtain ⟨j, encoded, hj⟩ := h.something content hfile
        obtain ⟨rfl, -⟩ := hj.stage.resolve_left (ha j encoded)
        refine ⟨j, content, hj.move ?_ (fun _ h => nomatch h) fun result hresult => ?_⟩
        · exact hj.ne_of_phase (by rw [hphase]; exact fun _ h => nomatch h)
            (by rw [hphase]; exact fun _ h => nomatch h)
        · obtain rfl := Stage.ended.inj hresult
          rcases readBack_encoded (i := i) hj.encodes hj.readable with hback | hback
          · exact .inr (.inl hback)
          · exact .inr (.inr hback)
  all_goals
    rw [step, hphase] at hs
    cases hs

theorem inv_die (h : p.Inv s) (ha : p.Careful s (.die i))
    (hs : p.step s (.die i) = some s') : p.Inv s' := by
  have hended : ∀ result, s.phase i ≠ .ended result := by
    intro result hphase
    rw [step, hphase] at hs
    cases hs
  have hdead : s' = s.move i .dead := by
    rw [step] at hs
    split at hs
    · cases hs
    · exact (Option.some.inj hs).symm
  subst hdead
  refine ⟨fun hnone => ?_, fun content hcontent => ?_⟩
  · obtain ⟨hcreator, hphases⟩ := h.nothing hnone
    refine ⟨hcreator, fun k => ?_⟩
    rw [phase_move]
    split_ifs
    · exact .inr rfl
    · exact hphases k
  · obtain ⟨j, encoded, hj⟩ := h.something content hcontent
    exact ⟨j, encoded, hj.move (hj.ne_of_phase ha hended) (fun _ h => nomatch h)
      fun _ h => nomatch h⟩

theorem Inv.step {e : PublishEvent} (h : p.Inv s) (ha : p.Careful s e)
    (hs : p.step s e = some s') : p.Inv s' := by
  cases e with
  | start i => exact inv_start h ha hs
  | write i n outcome => exact inv_write h ha hs
  | read i => exact inv_read h ha hs
  | die i => exact inv_die h ha hs

theorem inv_of_reached (h : p.Reached p.Careful s) : p.Inv s := by
  induction h with
  | init => exact p.inv_init
  | step _ ha hs ih => exact ih.step ha hs

end Steps

/-- In a run of careful steps one payload is published. -/
theorem publishes_of_careful {s : Publishings} (h : p.Reached p.Careful s) : p.Publishes s := by
  have hinv := inv_of_reached h
  have hended {i : Nat} {result : Except AuthorityExc (PyDict × Bool)}
      (hi : s.phase i = .ended result) :
      ∃ j content encoded, p.Holds s j content encoded ∧ p.EndedWell i j result := by
    rcases hfile : s.file with - | content
    · rcases (hinv.nothing hfile).2 i with hready | hdead
      · cases hi.symm.trans hready
      · cases hi.symm.trans hdead
    · obtain ⟨j, encoded, hj⟩ := hinv.something content hfile
      exact ⟨j, content, encoded, hj, hj.ended i result hi⟩
  have hcreates {i : Nat} {d : PyDict} (hi : s.phase i = .ended (.ok (d, true))) :
      s.creator = some i := by
    obtain ⟨j, content, encoded, hj, ⟨rfl, -⟩ | ⟨d', hd', -⟩ | ⟨e, he, -⟩⟩ := hended hi
    · exact hj.creator
    · cases hd'
    · cases he
  refine ⟨fun i j d d' hi hj => ?_, fun i d b hi => ?_, fun i e j hi hj => ?_,
    fun i j hj hfailed hready => ?_⟩
  · exact Option.some.inj ((hcreates hi).symm.trans (hcreates hj))
  · obtain ⟨j, content, encoded, hj, ⟨rfl, hresult⟩ | ⟨d', hresult, hd'⟩ | ⟨e, he, -⟩⟩ := hended hi
    · exact ⟨i, hj.creator, .inl (congrArg Prod.fst (Except.ok.inj hresult))⟩
    · obtain rfl : d = d' := congrArg Prod.fst (Except.ok.inj hresult)
      exact ⟨j, hj.creator, hd'⟩
    · cases he
  · obtain ⟨k, content, encoded, hk, ⟨rfl, hresult⟩ | ⟨d', hresult, -⟩ | ⟨e', -, hagrees⟩⟩ := hended hi
    · cases hresult
    · cases hresult
    · obtain rfl := Option.some.inj (hj.symm.trans hk.creator)
      exact hagrees
  · -- the creator has not failed
    rcases hfile : s.file with - | content
    · cases hj.symm.trans (hinv.nothing hfile).1
    · obtain ⟨k, encoded, hk⟩ := hinv.something content hfile
      obtain rfl := Option.some.inj (hj.symm.trans hk.creator)
      rcases hk.stage with hstage | ⟨-, hstage⟩
      · rcases hfailed with hdead | ⟨e, he⟩
        · cases hstage.symm.trans hdead
        · cases hstage.symm.trans he
      · rcases hfailed with hdead | ⟨e, he⟩
        · cases hstage.symm.trans hdead
        · cases hstage.symm.trans he

end Publishing

/-! ### Two calls with one payload -/

section Sample

/-- A standard library; none of its functions but `json.loads` matters here. -/
def plainStdlib : Stdlib where
  sha256 _ := zeroDigest
  floatRepr _ := "0.0"
  lower s := s
  format _ := "None"
  repr _ := "''"
  interpreter := usualInterpreter

/-- Every call publishes the same. -/
def twins : Publishing where
  py := plainStdlib
  depth := 900
  path := "mission_authority.json"
  call _ := ⟨[(.ofString "mission_id", .str (.ofString "m"))], ["mission_id"],
    .authorityReceiptInvalid⟩

theorem twins_encodes : ∃ encoded, ∀ i,
    encodePayload twins.py twins.depth (twins.call i).payload = .ok encoded := by
  have hok : (encodePayload twins.py twins.depth (twins.call 0).payload).isOk = true := by
    decide +kernel
  rcases h : encodePayload twins.py twins.depth (twins.call 0).payload with e | encoded
  · rw [h] at hok
    cases hok
  · exact ⟨encoded, fun _ => h⟩

theorem twins_agree (i j : Nat) : twins.Agrees i (twins.call j).payload := by
  have hagree : ∀ f ∈ ["mission_id"], pyEq (field (twins.call 0).payload f)
      (field (twins.call 0).payload f) = true := by decide +kernel
  exact hagree

/-- The first call has created the file. -/
def twinsCreated (encoded : ByteArray) : Publishings where
  file := some ByteArray.empty
  creator := some 0
  phase := Function.update (fun _ => .ready) 0 (.created encoded)

theorem step_twinsCreated {encoded : ByteArray} (h : ∀ i,
    encodePayload twins.py twins.depth (twins.call i).payload = .ok encoded) :
    twins.step .init (.start 0) = some (twinsCreated encoded) :=
  Publishing.step_start_new rfl (h 0) rfl

/-- The second call reads the file that the first one has only created. -/
theorem early_read_raises :
    ¬ ∀ (p : Publishing) (s : Publishings), p.Reached (fun _ _ => True) s → p.Publishes s := by
  intro hall
  obtain ⟨encoded, hencoded⟩ := twins_encodes
  have hread : ∃ e, twins.readBack 1 ByteArray.empty = .error e := by
    have hok : (twins.readBack 1 ByteArray.empty).isOk = false := by decide +kernel
    rcases hread : twins.readBack 1 ByteArray.empty with e | result
    · exact ⟨e, rfl⟩
    · rw [hread] at hok
      cases hok
  obtain ⟨e, he⟩ := hread
  have hcreated : twins.Reached (fun _ _ => True) (twinsCreated encoded) :=
    .step .init trivial (step_twinsCreated hencoded)
  have hfound : twins.Reached (fun _ _ => True) ((twinsCreated encoded).move 1 .found) :=
    .step hcreated trivial (Publishing.step_start_old rfl (hencoded 1) rfl)
  have hreached := Publishing.Reached.step hfound (e := .read 1) trivial
    (Publishing.step_read rfl rfl)
  refine (hall twins _ hreached).returns 1 e 0 ?_ rfl (twins_agree 1 0)
  exact congrArg Stage.ended he

/-- The first call has returned. -/
def twinsWritten (encoded : ByteArray) : Publishings where
  file := some (encoded.extract 0 encoded.size)
  creator := some 0
  phase := ((twinsCreated encoded).move 0 (twins.written 0 .returned)).phase

/-- The second call comes when the first one has returned. -/
theorem twins_publish : ∃ s, (∃ d, s.phase 1 = .ended (.ok (d, false))) ∧ twins.Publishes s := by
  obtain ⟨encoded, hencoded⟩ := twins_encodes
  have hreadable : twins.Readable (twins.call 0).payload :=
    ⟨⟨by simp [twins], trivial, trivial⟩, by decide⟩
  have hcreated : twins.Reached twins.Careful (twinsCreated encoded) :=
    .step (e := .start 0) .init ⟨⟨encoded, hencoded 0⟩, fun _ => hreadable⟩
      (step_twinsCreated hencoded)
  have hwritten : twins.Reached twins.Careful (twinsWritten encoded) := by
    refine .step hcreated (e := .write 0 encoded.size .returned) ⟨rfl, fun encoded' h => ?_⟩
      (Publishing.step_write rfl _ _)
    obtain rfl : encoded = encoded' := Stage.created.inj h
    exact le_rfl
  have hphase (j : Nat) (encoded' : ByteArray) :
      ((twinsWritten encoded).move 1 .found).phase j ≠ .created encoded' := by
    rw [Publishing.phase_move, twinsWritten, Publishing.phase_move]
    split_ifs with h₁ h₀
    · exact fun h => nomatch h
    · exact fun h => nomatch h
    · show Function.update (fun _ => Stage.ready) 0 (.created encoded) j ≠ _
      rw [Function.update_of_ne h₀]
      exact fun h => nomatch h
  have hfound : twins.Reached twins.Careful ((twinsWritten encoded).move 1 .found) :=
    .step (e := .start 1) hwritten ⟨⟨encoded, hencoded 1⟩, fun h => (nomatch h)⟩
      (Publishing.step_start_old rfl (hencoded 1) rfl)
  have hread := Publishing.Reached.step hfound (e := .read 1) hphase (Publishing.step_read rfl rfl)
  refine ⟨_, ?_, Publishing.publishes_of_careful twins hread⟩
  rcases Publishing.readBack_encoded (i := 1) (hencoded 0) hreadable with ⟨d, hd, -⟩ | ⟨e, -, hno⟩
  · refine ⟨d, ?_⟩
    rw [Publishing.phase_move, if_pos rfl]
    refine congrArg Stage.ended ?_
    rw [ByteArray.extract_zero_size]
    exact hd
  · exact absurd (twins_agree 1 0) hno

end Sample

end Konoha.Hokage
