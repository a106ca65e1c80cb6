/-
Base/PyStr.lean

Python's `str`: a sequence of code points, among which surrogates may stand by
themselves.  `json.loads` builds such strings from `\ud800` and the like; UTF-8
cannot encode them, and `encode` says so.

The strings that can be encoded are those of Lean, by `ofString`.
-/
import KonohaRuntime.Base.Json

namespace Konoha

namespace CodePoint

/-- `chr(n)`, below `0x110000` -/
def ofNat (n : Nat) : CodePoint :=
  if h : 0xd800 ≤ n ∧ n < 0xe000 then surrogate ⟨n - 0xd800, by omega⟩ else scalar (Char.ofNat n)

/-- `str.isspace` of one code point. -/
def isSpace : CodePoint → Bool
  | scalar c => isPySpace c
  | surrogate _ => false

end CodePoint

namespace PyStr

open CodePoint

/-- The characters of a string, when there are no surrogates among them. -/
def chars : PyStr → Option (List Char)
  | [] => some []
  | scalar c :: s => (chars s).map (c :: ·)
  | surrogate _ :: _ => none

/-- `s.encode("utf-8")`: the text that is encoded. -/
def encode (s : PyStr) : Except PyExc String :=
  match chars s with
  | some cs => .ok (String.ofList cs)
  | none => .error (.valueError "'utf-8' codec can't encode character: surrogates not allowed")

/-- `s.strip()` -/
def strip (s : PyStr) : PyStr := (s.dropWhile isSpace).rdropWhile isSpace

/-- `s.strip() != ""` -/
def nonBlank (s : PyStr) : Bool := strip s != []

/-! ### Encoding -/

@[simp] theorem chars_map_scalar (cs : List Char) : chars (cs.map scalar) = some cs := by
  induction cs with
  | nil => rfl
  | cons c cs ih => rw [List.map_cons, chars, ih, Option.map_some]

theorem chars_eq_some_iff {s : PyStr} {cs : List Char} : chars s = some cs ↔ s = cs.map scalar := by
  constructor
  · intro h
    induction s generalizing cs with
    | nil =>
        cases h
        rfl
    | cons p s ih =>
        cases p with
        | scalar c =>
            obtain ⟨ds, hds, rfl⟩ := Option.map_eq_some_iff.mp h
            rw [ih hds, List.map_cons]
        | surrogate n => cases h
  · rintro rfl
    exact chars_map_scalar cs

@[simp] theorem encode_ofString (s : String) : encode (ofString s) = .ok s := by
  rw [encode, ofString, chars_map_scalar]
  exact congrArg Except.ok String.ofList_toList

/-- A string is encoded exactly when it is one of Lean's. -/
theorem encode_eq_ok_iff {s : PyStr} {t : String} : encode s = .ok t ↔ s = ofString t := by
  constructor
  · intro h
    unfold encode at h
    rcases e : chars s with - | cs
    · rw [e] at h
      cases h
    · rw [e] at h
      rw [← Except.ok.inj h, ofString, String.toList_ofList]
      exact chars_eq_some_iff.mp e
  · rintro rfl
    exact encode_ofString t

theorem ofString_injective : Function.Injective ofString := by
  intro s t h
  have := encode_ofString s
  rw [h, encode_ofString] at this
  exact (Except.ok.inj this).symm

/-- A string that is not encoded has a surrogate in it. -/
theorem encode_eq_error_iff {s : PyStr} :
    (∃ e, encode s = .error e) ↔ ∃ n, surrogate n ∈ s := by
  induction s with
  | nil =>
      constructor
      · rintro ⟨_, h⟩
        cases h
      · rintro ⟨_, h⟩
        cases h
  | cons p s ih =>
      have hcons : (∃ e, encode (p :: s) = .error e) ↔
          (∃ n, p = surrogate n) ∨ ∃ e, encode s = .error e := by
        cases p with
        | surrogate n => exact ⟨fun _ => .inl ⟨n, rfl⟩, fun _ => ⟨_, rfl⟩⟩
        | scalar c =>
            unfold encode
            rw [chars]
            rcases chars s with - | cs <;> simp
      rw [hcons, ih]
      constructor
      · rintro (⟨n, rfl⟩ | ⟨n, hn⟩)
        · exact ⟨n, List.mem_cons_self⟩
        · exact ⟨n, List.mem_cons_of_mem _ hn⟩
      · rintro ⟨n, hn⟩
        rcases List.mem_cons.mp hn with h | h
        · exact .inl ⟨n, h.symm⟩
        · exact .inr ⟨n, h⟩

/-! ### Blank strings -/

theorem strip_eq_nil_iff {s : PyStr} : strip s = [] ↔ ∀ p ∈ s, p.isSpace = true := by
  rw [strip, List.rdropWhile_eq_nil_iff]
  constructor
  · intro h p hp
    rw [← List.takeWhile_append_dropWhile (p := isSpace) (l := s), List.mem_append] at hp
    rcases hp with hp | hp
    · exact List.mem_takeWhile_imp hp
    · exact h p hp
  · intro h p hp
    exact h p ((List.dropWhile_sublist _).mem hp)

/-- A string is not blank when one of its code points is no whitespace. -/
theorem nonBlank_iff {s : PyStr} : nonBlank s = true ↔ ∃ p ∈ s, p.isSpace = false := by
  rw [nonBlank, bne_iff_ne, ne_eq, strip_eq_nil_iff]
  simp

@[simp] theorem nonBlank_ofString (s : String) : nonBlank (ofString s) = Konoha.nonBlank s := by
  rw [Bool.eq_iff_iff, nonBlank_iff, Konoha.nonBlank_iff, ofString]
  simp [isSpace]

end PyStr

open CodePoint

/-- The text has a surrogate in it. -/
def HasSurrogate (text : PyStr) : Prop := ∃ n, surrogate n ∈ text

theorem encode_eq_error {text : PyStr} (h : HasSurrogate text) :
    ∃ e, PyStr.encode text = .error e :=
  PyStr.encode_eq_error_iff.mpr h

theorem encode_eq_ok {text : PyStr} (h : ¬ HasSurrogate text) :
    ∃ s, PyStr.encode text = .ok s := by
  rcases e : PyStr.encode text with err | s
  · exact absurd (PyStr.encode_eq_error_iff.mp ⟨err, e⟩) h
  · exact ⟨s, rfl⟩

end Konoha
