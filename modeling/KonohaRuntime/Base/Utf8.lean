/-
Base/Utf8.lean

UTF-8 as the bytes of a text, and the decoder with replacement characters.

* `decodeReplace_encode`: the decoder gives back a text from its bytes.
* `getLast?_encode`: an ASCII character is found among
  the bytes where it is in the text, since no other character has its byte.
-/
import Mathlib

namespace Konoha.Utf8

/-! ### Encoding -/

/-- `text.encode("utf-8")` -/
def encode (cs : List Char) : List UInt8 := cs.flatMap String.utf8EncodeChar

@[simp] theorem encode_nil : encode [] = [] := rfl

theorem encode_cons (c : Char) (cs : List Char) :
    encode (c :: cs) = String.utf8EncodeChar c ++ encode cs := rfl

theorem encode_append (cs ds : List Char) : encode (cs ++ ds) = encode cs ++ encode ds :=
  List.flatMap_append

/-- A character is one ASCII byte, or bytes that are not ASCII. -/
theorem utf8EncodeChar_cases (c : Char) :
    (c.toNat < 128 ∧ String.utf8EncodeChar c = [UInt8.ofNat c.toNat]) ∨
      (128 ≤ c.toNat ∧ ∀ b ∈ String.utf8EncodeChar c, 128 ≤ b.toNat) := by
  unfold String.utf8EncodeChar
  dsimp only
  split_ifs with h₁ h₂ h₃
  · have h₁ : c.toNat ≤ 127 := h₁
    exact .inl ⟨by omega, rfl⟩
  · have h₁ : ¬ c.toNat ≤ 127 := h₁
    refine .inr ⟨by omega, ?_⟩
    intro b hb
    simp only [List.mem_cons, List.not_mem_nil, or_false] at hb
    rcases hb with rfl | rfl
    · rw [UInt8.toNat_ofNat']
      omega
    · rw [UInt8.toNat_ofNat']
      omega
  · have h₁ : ¬ c.toNat ≤ 127 := h₁
    refine .inr ⟨by omega, ?_⟩
    intro b hb
    simp only [List.mem_cons, List.not_mem_nil, or_false] at hb
    rcases hb with rfl | rfl | rfl
    · rw [UInt8.toNat_ofNat']
      omega
    · rw [UInt8.toNat_ofNat']
      omega
    · rw [UInt8.toNat_ofNat']
      omega
  · have h₁ : ¬ c.toNat ≤ 127 := h₁
    refine .inr ⟨by omega, ?_⟩
    intro b hb
    simp only [List.mem_cons, List.not_mem_nil, or_false] at hb
    rcases hb with rfl | rfl | rfl | rfl
    · rw [UInt8.toNat_ofNat']
      omega
    · rw [UInt8.toNat_ofNat']
      omega
    · rw [UInt8.toNat_ofNat']
      omega
    · rw [UInt8.toNat_ofNat']
      omega

/-! ### ASCII characters among the bytes -/

section Ascii

variable {a : Char}

/-- The byte of an ASCII character is in the encoding of no other character. -/
theorem byte_mem_utf8EncodeChar (ha : a.toNat < 128) {c : Char} :
    UInt8.ofNat a.toNat ∈ String.utf8EncodeChar c ↔ c = a := by
  have hbyte : (UInt8.ofNat a.toNat).toNat = a.toNat := by
    rw [UInt8.toNat_ofNat']
    omega
  obtain ⟨hc, henc⟩ | ⟨hc, hbytes⟩ := utf8EncodeChar_cases c
  · rw [henc, List.mem_singleton]
    constructor
    · intro h
      have hnat := congrArg UInt8.toNat h
      rw [hbyte, UInt8.toNat_ofNat'] at hnat
      apply Char.toNat_inj.mp
      omega
    · rintro rfl
      rfl
  · constructor
    · intro h
      have hle := hbytes _ h
      omega
    · rintro rfl
      omega

theorem utf8EncodeChar_ascii (ha : a.toNat < 128) :
    String.utf8EncodeChar a = [UInt8.ofNat a.toNat] := by
  obtain ⟨-, henc⟩ | ⟨hc, -⟩ := utf8EncodeChar_cases a
  · exact henc
  · omega

theorem byte_mem_encode (ha : a.toNat < 128) {cs : List Char} :
    UInt8.ofNat a.toNat ∈ encode cs ↔ a ∈ cs := by
  rw [encode, List.mem_flatMap]
  constructor
  · rintro ⟨c, hc, hmem⟩
    rwa [← (byte_mem_utf8EncodeChar ha).mp hmem]
  · intro h
    exact ⟨a, h, (byte_mem_utf8EncodeChar ha).mpr rfl⟩

/-- A text ends with `a` when its bytes end with the byte of `a`. -/
theorem getLast?_encode (ha : a.toNat < 128) (cs : List Char) :
    (encode cs).getLast? = some (UInt8.ofNat a.toNat) ↔ cs.getLast? = some a := by
  rcases List.eq_nil_or_concat cs with rfl | ⟨ds, c, rfl⟩
  · simp
  · rw [List.concat_eq_append, List.getLast?_concat, Option.some_inj, encode_append, encode_cons,
      encode_nil, List.append_nil]
    constructor
    · intro h
      apply (byte_mem_utf8EncodeChar ha).mp
      rw [List.getLast?_append, Option.or_eq_some_iff, List.getLast?_eq_none_iff] at h
      obtain h | ⟨h, -⟩ := h
      · exact List.mem_of_getLast? h
      · exact absurd h String.utf8EncodeChar_ne_nil
    · rintro rfl
      rw [utf8EncodeChar_ascii ha]
      exact List.getLast?_concat

theorem dropLast_encode (ha : a.toNat < 128) (cs : List Char) :
    (encode (cs ++ [a])).dropLast = encode cs := by
  rw [encode_append, encode_cons, utf8EncodeChar_ascii ha]
  exact List.dropLast_concat

end Ascii

/-! ### Decoding -/

def isContinuation (b : UInt8) : Bool := 0x80 ≤ b && b ≤ 0xbf

/-- The bytes that may follow the first byte of a character. -/
def follows (b c : UInt8) : Bool :=
  if b = 0xe0 then 0xa0 ≤ c && c ≤ 0xbf
  else if b = 0xed then 0x80 ≤ c && c ≤ 0x9f
  else if b = 0xf0 then 0x90 ≤ c && c ≤ 0xbf
  else if b = 0xf4 then 0x80 ≤ c && c ≤ 0x8f
  else isContinuation c

/-- How many bytes one replacement character stands for, where no character is encoded: the
longest beginning of a character, or one byte. -/
def malformedLength (b : UInt8) : List UInt8 → Nat
  | [] => 1
  | [c] => if 0xe0 ≤ b ∧ b ≤ 0xf4 ∧ follows b c then 2 else 1
  | c :: d :: _ =>
      if 0xe0 ≤ b ∧ b ≤ 0xf4 ∧ follows b c then
        if 0xf0 ≤ b ∧ isContinuation d then 3 else 2
      else 1

/-- `raw.decode("utf-8", errors="replace")` -/
def decodeReplace : List UInt8 → List Char
  | [] => []
  | b :: bs =>
      match ByteArray.utf8DecodeChar? (b :: bs).toByteArray 0 with
      | some c => c :: decodeReplace (bs.drop (c.utf8Size - 1))
      | none => '\ufffd' :: decodeReplace (bs.drop (malformedLength b bs - 1))
termination_by bs => bs.length
decreasing_by
  · simp only [List.length_cons, List.length_drop]
    omega
  · simp only [List.length_cons, List.length_drop]
    omega

theorem decodeReplace_append (c : Char) (bs : List UInt8) :
    decodeReplace (String.utf8EncodeChar c ++ bs) = c :: decodeReplace bs := by
  have hdecode : ByteArray.utf8DecodeChar? (String.utf8EncodeChar c ++ bs).toByteArray 0 = some c := by
    rw [List.toByteArray_append]
    exact ByteArray.utf8DecodeChar?_utf8EncodeChar_append
  have hlength := String.length_utf8EncodeChar c
  cases henc : String.utf8EncodeChar c with
  | nil => exact absurd henc String.utf8EncodeChar_ne_nil
  | cons b rest =>
      rw [henc] at hdecode hlength
      rw [List.cons_append, decodeReplace]
      rw [List.cons_append] at hdecode
      rw [hdecode]
      have hsize : c.utf8Size - 1 = rest.length := by
        rw [← hlength, List.length_cons]
        omega
      dsimp only
      rw [hsize, List.drop_left]

/-- What is valid is decoded without a replacement. -/
theorem decodeReplace_encode (cs : List Char) : decodeReplace (encode cs) = cs := by
  induction cs with
  | nil => rw [encode_nil, decodeReplace]
  | cons c cs ih => rw [encode_cons, decodeReplace_append, ih]

example : decodeReplace [0x61, 0xe2, 0x82, 0x62, 0xff] = ['a', '\ufffd', 'b', '\ufffd'] := by
  decide +kernel

end Konoha.Utf8
