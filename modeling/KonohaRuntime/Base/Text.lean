/-
Base/Text.lean

The text operations of Python that the runtime uses, on Lean strings, and the
string formats it recognises with regular expressions:

* `strip` and the blank test built on it;
* lowercase hexadecimal strings of a fixed length (`HexString n`): SHA-256
  digests have 64 digits, approval nonces 32;
* evidence ids, `evidence-` and 12 hexadecimal digits;
* mission ids, `mission-` and one or more of `a-z`, `0-9`, `-`.

A format that the code checks before it uses a value is a subtype here, so that
a value of the type needs no further check.  Strings are sequences of Unicode
scalar values; where a lone surrogate makes a difference, a text is a `PyStr`.
-/
import Mathlib

namespace Konoha

/-! ### Code points -/

/-- A code point: a Unicode scalar value, or `0xd800` and so many. -/
inductive CodePoint
  | scalar (c : Char)
  | surrogate (n : Fin 2048)
  deriving DecidableEq

/-- `str` -/
abbrev PyStr := List CodePoint

/-- A string without surrogates. -/
def PyStr.ofString (s : String) : PyStr := s.toList.map CodePoint.scalar

instance : Coe String PyStr := ⟨PyStr.ofString⟩

/-! ### Whitespace -/

/-- `str.isspace` of one character. -/
def isPySpace (c : Char) : Bool :=
  let n := c.toNat
  (9 ≤ n && n ≤ 13) || (28 ≤ n && n ≤ 32) || n == 0x85 || n == 0xa0 || n == 0x1680 ||
    (0x2000 ≤ n && n ≤ 0x200a) || n == 0x2028 || n == 0x2029 || n == 0x202f ||
    n == 0x205f || n == 0x3000

/-- `str.strip()`, on the characters. -/
def stripChars (cs : List Char) : List Char := (cs.dropWhile isPySpace).rdropWhile isPySpace

/-- `str.strip()`. -/
def strip (s : String) : String := String.ofList (stripChars s.toList)

/-- `s.strip() != ""`. -/
def nonBlank (s : String) : Bool := stripChars s.toList != []

theorem stripChars_eq_nil_iff {cs : List Char} : stripChars cs = [] ↔ ∀ c ∈ cs, isPySpace c := by
  rw [stripChars, List.rdropWhile_eq_nil_iff]
  constructor
  · intro h c hc
    rw [← List.takeWhile_append_dropWhile (p := isPySpace) (l := cs), List.mem_append] at hc
    rcases hc with hc | hc
    · exact List.mem_takeWhile_imp hc
    · exact h c hc
  · intro h c hc
    exact h c ((List.dropWhile_sublist _).mem hc)

/-- A string is not blank when one of its characters is no whitespace. -/
theorem nonBlank_iff {s : String} : nonBlank s = true ↔ ∃ c ∈ s.toList, isPySpace c = false := by
  rw [nonBlank, bne_iff_ne, ne_eq, stripChars_eq_nil_iff]
  simp

/-- A string that starts with no whitespace is not blank. -/
theorem nonBlank_ofList_cons {c : Char} {cs : List Char} (h : isPySpace c = false) :
    nonBlank (String.ofList (c :: cs)) = true :=
  nonBlank_iff.mpr ⟨c, by rw [String.toList_ofList]; exact List.mem_cons_self, h⟩

/-! ### Hexadecimal strings -/

/-- `[0-9a-f]`. -/
def isLowerHex (c : Char) : Bool := ('0' ≤ c && c ≤ '9') || ('a' ≤ c && c ≤ 'f')

/-- `^[0-9a-f]{n}$`, on the characters. -/
def isHex (n : Nat) (cs : List Char) : Bool := cs.length == n && cs.all isLowerHex

/-- The strings of `n` lowercase hexadecimal digits. -/
abbrev HexString (n : Nat) := { s : String // isHex n s.toList = true }

theorem isHex_ofList {n : Nat} {cs : List Char} (h : isHex n cs = true) :
    isHex n (String.ofList cs).toList = true := by
  rw [String.toList_ofList]
  exact h

/-- A SHA-256 digest in hexadecimal: `SHA256_HEX_PATTERN`. -/
abbrev Digest := HexString 64

/-- The digest of sixty-four zeros. -/
def zeroDigest : Digest := ⟨String.ofList (List.replicate 64 '0'), isHex_ofList (by decide)⟩

/-- The output of `secrets.token_hex(16)`: `APPROVAL_NONCE_PATTERN`. -/
abbrev Nonce := HexString 32

theorem isLowerHex_not_space {c : Char} (h : isLowerHex c = true) : isPySpace c = false := by
  simp only [isLowerHex, Bool.or_eq_true, Bool.and_eq_true, decide_eq_true_eq, Char.le_def,
    UInt32.le_iff_toNat_le] at h
  have hc : (48 ≤ c.toNat ∧ c.toNat ≤ 57) ∨ (97 ≤ c.toNat ∧ c.toNat ≤ 102) := h
  simp only [isPySpace, Bool.or_eq_false_iff, Bool.and_eq_false_iff, decide_eq_false_iff_not,
    beq_eq_false_iff_ne]
  omega

/-- No digest, and no nonce, is a blank string. -/
theorem HexString.nonBlank {n : Nat} (s : HexString (n + 1)) : nonBlank s.1 = true := by
  obtain ⟨s, hs⟩ := s
  simp only [isHex, Bool.and_eq_true, beq_iff_eq] at hs
  obtain ⟨c, cs, hc⟩ := List.exists_cons_of_length_eq_add_one hs.1
  refine nonBlank_iff.mpr ⟨c, by simp [hc], ?_⟩
  exact isLowerHex_not_space (List.all_eq_true.mp hs.2 c (by simp [hc]))

/-! ### Ids with a prefix -/

/-- The characters of `s` after the prefix `p`. -/
def afterPrefix (p s : String) : Option (List Char) :=
  if p.toList.isPrefixOf s.toList then some (s.toList.drop p.toList.length) else none

/-- `EVIDENCE_ID_PATTERN`. -/
def isEvidenceId (s : String) : Bool := (afterPrefix "evidence-" s).any (isHex 12)

/-- The ids `"evidence-" + uuid.uuid4().hex[:12]`. -/
abbrev EvidenceId := { s : String // isEvidenceId s = true }

/-- `MISSION_ID_PATTERN`. -/
def isMissionId (s : String) : Bool :=
  (afterPrefix "mission-" s).any fun cs =>
    cs != [] && cs.all fun c => ('a' ≤ c && c ≤ 'z') || ('0' ≤ c && c ≤ '9') || c == '-'

end Konoha
