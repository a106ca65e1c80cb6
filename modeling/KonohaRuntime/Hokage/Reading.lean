/-
Hokage/Reading.lean

`read_authoritative_json` on the bytes of a file.

The reader turns what is missing, an `OSError`, a text that is no JSON and a value that is no
object into `AuthorityBindingError`.  A `UnicodeDecodeError`, and what `json.loads` raises besides
`JSONDecodeError`, pass through it.
-/
import KonohaRuntime.Runtime.EvidenceFile
import KonohaRuntime.Hokage.Contract
import KonohaRuntime.Base.RoundTrip

namespace Konoha.Hokage

open CodePoint

/-- A Python dict whose strings may have surrogates. -/
abbrev PyDict := List (PyStr × PyJson)

/-- What is found at a path. -/
inductive FileBytes
  | absent
  /-- reading it raises an `OSError` -/
  | unreadable (text : String)
  | bytes (content : ByteArray)

/-- `json.loads(raw)` in `read_authoritative_json`, and what follows -/
def readObject (py : Stdlib) (path : String) (code : BindingCode) (text : PyStr) :
    Except AuthorityExc PyDict :=
  match loads py.interpreter text with
  | .ok (.obj payload) => .ok payload
  | .ok _ => .error (.binding code ("file is not a JSON object: " ++ path))
  | .error .decode => .error (.binding code ("file is not valid JSON: " ++ path))
  | .error e => .error (.python e.exc)

/-- `read_authoritative_json` -/
def readJson (py : Stdlib) (path : String) (file : FileBytes) (code : BindingCode) :
    Except AuthorityExc PyDict :=
  match file with
  | .absent => .error (.binding code ("file missing: " ++ path))
  | .unreadable text => .error (.binding code ("file unreadable: " ++ path ++ ": " ++ text))
  | .bytes content =>
      match readText content with
      | none => .error (.python (.valueError "'utf-8' codec can't decode byte"))
      | some text => readObject py path code text

/-- What is read is the object in the bytes. -/
theorem readJson_eq_ok_iff {py : Stdlib} {path : String} {file : FileBytes} {code : BindingCode}
    {d : PyDict} : readJson py path file code = .ok d ↔ ∃ content text,
      file = .bytes content ∧ readText content = some text ∧
        loads py.interpreter text = .ok (.obj d) := by
  cases file with
  | bytes content =>
      unfold readJson
      dsimp only
      rcases hread : readText content with - | text
      · refine iff_of_false (fun h => nomatch h) ?_
        rintro ⟨content', text, hfile, htext, -⟩
        rw [FileBytes.bytes.inj hfile, htext] at hread
        cases hread
      · unfold readObject
        constructor
        · intro h
          refine ⟨content, text, rfl, hread, ?_⟩
          dsimp only at h
          split at h
          · next hload => rw [hload, Except.ok.inj h]
          all_goals cases h
        · rintro ⟨content', text', hfile, htext, hload⟩
          obtain rfl := FileBytes.bytes.inj hfile
          rw [hread] at htext
          obtain rfl := Option.some.inj htext
          dsimp only
          rw [hload]
  | _ => exact iff_of_false (fun h => nomatch h) fun ⟨_, _, h, _⟩ => nomatch h

end Konoha.Hokage
