/-
Base/RoundTrip.lean

`json.loads` reads back what `json.dumps` writes.

`loads_dumps`: a value is read back from its text in every layout that only adds space, when it is
not nested deeper than the reader goes, its integers are not too long for it, its floats are read
back and no object has a key twice.  A text is followed by something that ends it, so each scanner
is shown to give the value and to leave what follows.
-/
import KonohaRuntime.Base.PyDumps

namespace Konoha

open CodePoint

/-! ### Strings -/

namespace Loads

/-- Control characters with a letter of their own. -/
def shortEscapes : List Char := ['\n', '\r', '\t', Char.ofNat 8, Char.ofNat 12]

/-- How a code point is read back. -/
def pieceOf : CodePoint → Piece
  | scalar c => if c.toNat < 32 ∧ c ∉ shortEscapes then .unit c.toNat else .point (scalar c)
  | surrogate n => .point (surrogate n)

theorem scanPieces_point {p : CodePoint} (hquote : p ≠ scalar '"') (hslash : p ≠ scalar '\\')
    (hcontrol : isControl p = false) (rest : PyStr) :
    scanPieces (p :: rest) = (scanPieces rest).map fun r => (.point p :: r.1, r.2) := by
  rw [scanPieces.eq_def]
  dsimp only
  rw [if_neg hquote, if_neg hslash, if_neg (by rw [hcontrol]; decide)]

theorem scanPieces_escaped {q e : CodePoint} (hu : q ≠ scalar 'u') (he : escaped q = some e)
    (rest : PyStr) : scanPieces (scalar '\\' :: q :: rest) =
      (scanPieces rest).map fun r => (.point e :: r.1, r.2) := by
  rw [scanPieces.eq_def]
  dsimp only
  rw [if_neg (by decide), if_pos rfl, if_neg hu, he]

theorem scanPieces_unit {a b c d : CodePoint} {n : Nat} (h : hex4 a b c d = some n)
    (rest : PyStr) : scanPieces (scalar '\\' :: scalar 'u' :: a :: b :: c :: d :: rest) =
      (scanPieces rest).map fun r => (.unit n :: r.1, r.2) := by
  rw [scanPieces.eq_def]
  dsimp only
  rw [if_neg (by decide), if_pos rfl, if_pos rfl, h]

theorem hex4_hexDigit {n : Nat} (h : n < 32) :
    hex4 (scalar '0') (scalar '0') (scalar (Json.hexDigit (n / 16)))
      (scalar (Json.hexDigit (n % 16))) = some n := by
  revert n
  decide

theorem char_eq_of_toNat {c d : Char} (h : c.toNat = d.toNat) : c = d := by
  rw [← Char.ofNat_toNat c, h, Char.ofNat_toNat]

/-- A character with a letter of its own is written with it. -/
theorem scanPieces_short {c q : Char} (hc : Json.escapeChar c = ['\\', q])
    (hq : escaped (scalar q) = some (scalar c)) (hu : q ≠ 'u')
    (hpiece : pieceOf (scalar c) = .point (scalar c)) (rest : PyStr) :
    scanPieces (PyJson.escapePoint (scalar c) ++ rest) =
      (scanPieces rest).map fun r => (pieceOf (scalar c) :: r.1, r.2) := by
  rw [PyJson.escapePoint, hc, hpiece]
  exact scanPieces_escaped (fun h => hu (CodePoint.scalar.inj h)) hq rest

/-- A code point is written so that it is read back. -/
theorem scanPieces_escapePoint (p : CodePoint) (rest : PyStr) :
    scanPieces (PyJson.escapePoint p ++ rest) =
      (scanPieces rest).map fun r => (pieceOf p :: r.1, r.2) := by
  cases p with
  | surrogate n =>
      exact scanPieces_point (p := surrogate n) (fun h => nomatch h) (fun h => nomatch h) rfl rest
  | scalar c =>
      by_cases hshort : c ∈ ['"', '\\', '\n', '\r', '\t', Char.ofNat 8, Char.ofNat 12]
      · simp only [List.mem_cons, List.not_mem_nil, or_false] at hshort
        rcases hshort with rfl | rfl | rfl | rfl | rfl | rfl | rfl
        · exact scanPieces_short (q := '"') rfl rfl (by decide) (by decide) rest
        · exact scanPieces_short (q := '\\') rfl rfl (by decide) (by decide) rest
        · exact scanPieces_short (q := 'n') rfl rfl (by decide) (by decide) rest
        · exact scanPieces_short (q := 'r') rfl rfl (by decide) (by decide) rest
        · exact scanPieces_short (q := 't') rfl rfl (by decide) (by decide) rest
        · exact scanPieces_short (q := 'b') rfl rfl (by decide) (by decide) rest
        · exact scanPieces_short (q := 'f') rfl rfl (by decide) (by decide) rest
      · simp only [List.mem_cons, List.not_mem_nil, or_false, not_or] at hshort
        obtain ⟨h₁, h₂, h₃, h₄, h₅, h₆, h₇⟩ := hshort
        have h₆' : c.toNat ≠ 8 := fun h => h₆ (char_eq_of_toNat h)
        have h₇' : c.toNat ≠ 12 := fun h => h₇ (char_eq_of_toNat h)
        have hnone : c ∉ shortEscapes := by simp [shortEscapes, *]
        rw [PyJson.escapePoint, Json.escapeChar, if_neg h₁, if_neg h₂, if_neg h₃, if_neg h₄,
          if_neg h₅, if_neg h₆', if_neg h₇', pieceOf]
        by_cases h₈ : c.toNat < 32
        · rw [if_pos h₈, if_pos ⟨h₈, hnone⟩]
          exact scanPieces_unit (hex4_hexDigit h₈) rest
        · rw [if_neg h₈, if_neg fun h => h₈ h.1]
          refine scanPieces_point (p := scalar c) ?_ ?_ (decide_eq_false h₈) rest
          · exact fun h => h₁ (CodePoint.scalar.inj h)
          · exact fun h => h₂ (CodePoint.scalar.inj h)

/-- The code units that are written are none of a pair. -/
theorem joinAfter_unit {h : Nat} (hlow : h < 0xd800) (ps : List Piece) :
    joinAfter (some h) ps = CodePoint.ofNat h :: joinAfter none ps := by
  rcases ps with - | ⟨p | n, ps⟩
  · rfl
  · rfl
  · have hpair : isPair h n = false := by
      have : ¬ 0xd800 ≤ h := by omega
      simp [isPair, this]
    show (if isPair h n = true then _ else _) = _
    rw [hpair]
    rfl

theorem join_pieces (s : PyStr) : join (s.map pieceOf) = s := by
  induction s with
  | nil => rfl
  | cons p s ih =>
      rw [List.map_cons]
      cases p with
      | surrogate n => exact congrArg _ ih
      | scalar c =>
          rw [pieceOf]
          split_ifs with h
          · have hlow : c.toNat < 0xd800 := by omega
            show joinAfter (some c.toNat) _ = _
            rw [joinAfter_unit hlow, CodePoint.ofNat, dif_neg (by omega), Char.ofNat_toNat]
            exact congrArg _ ih
          · exact congrArg _ ih

/-- A string is read back from its text. -/
theorem scanString_quote (s rest : PyStr) :
    scanString (s.flatMap PyJson.escapePoint ++ scalar '"' :: rest) = .ok (s, rest) := by
  have hpieces : scanPieces (s.flatMap PyJson.escapePoint ++ scalar '"' :: rest) =
      .ok (s.map pieceOf, rest) := by
    induction s with
    | nil =>
        rw [List.flatMap_nil, List.nil_append, scanPieces.eq_def]
        rfl
    | cons p s ih =>
        rw [List.flatMap_cons, List.append_assoc, scanPieces_escapePoint, ih]
        rfl
  rw [scanString, hpieces]
  show Except.ok (join (s.map pieceOf), rest) = _
  rw [join_pieces]

end Loads

/-! ### Numbers and constants -/

namespace Loads

/-- A character with which a number may go on. -/
def continuesNumber : CodePoint → Bool
  | scalar c => isDigit c ∨ c = '.' ∨ c = 'e' ∨ c = 'E'
  | surrogate _ => false

/-- A text with which no number goes on. -/
def Ends (rest : PyStr) : Prop := ∀ p ∈ rest.head?, continuesNumber p = false

theorem ends_nil : Ends [] := fun _ h => nomatch h

theorem ends_cons {p : CodePoint} (h : continuesNumber p = false) (rest : PyStr) :
    Ends (p :: rest) := fun _ hp => Option.some.inj hp ▸ h

theorem spanDigits_append {ds : List Char} (hds : ∀ c ∈ ds, isDigit c = true) {rest : PyStr}
    (hrest : Ends rest) : spanDigits (ds.map scalar ++ rest) = (ds, rest) := by
  induction ds with
  | nil =>
      rcases rest with - | ⟨c | n, rest⟩
      · rfl
      · have hc := hrest (scalar c) rfl
        have hdigit : ¬ isDigit c = true := fun h => by simp [continuesNumber, h] at hc
        show spanDigits (scalar c :: rest) = _
        rw [spanDigits, if_neg hdigit]
      · rfl
  | cons c ds ih =>
      obtain ⟨hc, hds⟩ := List.forall_mem_cons.mp hds
      show spanDigits (scalar c :: (ds.map scalar ++ rest)) = _
      rw [spanDigits, if_pos hc, ih hds]

theorem scanFraction_of_ends {rest : PyStr} (h : Ends rest) : scanFraction rest = ([], rest) := by
  unfold scanFraction
  split
  · have := h (scalar '.') rfl
    cases this
  · rfl

theorem scanExponent_of_ends {rest : PyStr} (h : Ends rest) : scanExponent rest = ([], rest) := by
  unfold scanExponent
  split
  · next c rest =>
      have hc := h (scalar c) rfl
      rw [if_neg]
      rintro (rfl | rfl) <;> cases hc
  · rfl

theorem isDigit_eq (c : Char) : isDigit c = c.isDigit := by
  unfold isDigit Char.isDigit
  simp [Char.le_def]

theorem natOfDigits_toDigits (n : Nat) : natOfDigits (Nat.toDigits 10 n) = n := by
  have hfold : natOfDigits = fun ds => Nat.ofDigitChars 10 ds 0 := by
    funext ds
    unfold natOfDigits Nat.ofDigitChars
    refine congrArg (fun f => ds.foldl f 0) ?_
    funext n c
    exact congrArg (· + (c.toNat - 48)) (Nat.mul_comm n 10)
  rw [hfold]
  exact Nat.ofDigitChars_ten_toDigits

/-- No number but zero begins with a zero. -/
theorem head_toDigits {n : Nat} (h : 0 < n) : ∃ c ds, Nat.toDigits 10 n = c :: ds ∧ c ≠ '0' := by
  induction n using Nat.strongRecOn with
  | ind n ih =>
      by_cases hn : n < 10
      · refine ⟨n.digitChar, [], Nat.toDigits_of_lt_base hn, ?_⟩
        have hdigits : ∀ n < 10, 0 < n → n.digitChar ≠ '0' := by decide
        exact hdigits n hn h
      · obtain ⟨c, ds, hds, hc⟩ := ih (n / 10) (by omega) (by omega)
        refine ⟨c, ds ++ Nat.toDigits 10 (n % 10), ?_, hc⟩
        rw [← List.cons_append, ← hds, Nat.toDigits_of_base_le (by decide) (by omega),
          Nat.toDigits_of_lt_base (Nat.mod_lt n (by decide))]

theorem isDigit_of_mem_toDigits {n : Nat} {c : Char} (h : c ∈ Nat.toDigits 10 n) :
    isDigit c = true := by
  rw [isDigit_eq]
  exact Nat.isDigit_of_mem_toDigits (by decide) (by decide) h

theorem scanInteger_toDigits (n : Nat) {rest : PyStr} (h : Ends rest) :
    scanInteger ((Nat.toDigits 10 n).map scalar ++ rest) = some (Nat.toDigits 10 n, rest) := by
  rcases Nat.eq_zero_or_pos n with rfl | hn
  · rfl
  · obtain ⟨c, ds, hds, hc⟩ := head_toDigits hn
    have hdigits : ∀ d ∈ c :: ds, isDigit d = true := fun d hd =>
      isDigit_of_mem_toDigits (hds ▸ hd)
    obtain ⟨hdigit, htail⟩ := List.forall_mem_cons.mp hdigits
    rw [hds]
    show scanInteger (scalar c :: (ds.map scalar ++ rest)) = _
    rw [scanInteger, if_neg hc, if_pos hdigit, spanDigits_append htail h]

/-- A number does not begin as a constant does. -/
theorem scanConstant_digit {c : Char} (hc : isDigit c = true) (rest : PyStr) :
    scanConstant (scalar c :: rest) = none := by
  have hne : ∀ d ∈ ['n', 't', 'f', 'N', 'I', '-'], ¬ d = c := by
    rintro d hd rfl
    have hall : (['n', 't', 'f', 'N', 'I', '-'].all fun d => !isDigit d) = true := by decide
    have hdigit := List.all_eq_true.mp hall d hd
    rw [hc] at hdigit
    exact nomatch hdigit
  simp only [List.forall_mem_cons] at hne
  obtain ⟨h₁, h₂, h₃, h₄, h₅, h₆, -⟩ := hne
  simp [scanConstant, constants, PyStr.ofString, *]

variable (py : Interpreter)

theorem scanNumber_toDigits (negative : Bool) (n : Nat)
    (hlimit : py.maxStrDigits = 0 ∨ (Nat.toDigits 10 n).length ≤ py.maxStrDigits) {rest : PyStr}
    (h : Ends rest) : scanNumber py negative ((Nat.toDigits 10 n).map scalar ++ rest) =
      .ok (.int (if negative then -(n : Int) else n), rest) := by
  have hparse : parseInt py negative (Nat.toDigits 10 n) =
      .ok (if negative then -(n : Int) else n) := by
    rw [parseInt, if_neg, natOfDigits_toDigits]
    rintro ⟨hne, hlt⟩
    rcases hlimit with h | h
    · exact hne h
    · omega
  rw [scanNumber, scanInteger_toDigits n h]
  dsimp only
  rw [scanFraction_of_ends h, scanExponent_of_ends h]
  dsimp only
  rw [List.append_nil, if_pos rfl, hparse]
  rfl

/-- The digits of an integer are not too many. -/
def IntFits (i : Int) : Prop :=
  py.maxStrDigits = 0 ∨ (Nat.toDigits 10 i.natAbs).length ≤ py.maxStrDigits

theorem scanAtom_of_digit {c : Char} (hc : isDigit c = true) (rest : PyStr) :
    scanAtom py (scalar c :: rest) = scanNumber py false (scalar c :: rest) := by
  have hminus : c ≠ '-' := by
    rintro rfl
    revert hc
    decide
  rw [scanAtom.eq_def, scanConstant_digit hc]
  dsimp only
  split
  · next heq => exact absurd (CodePoint.scalar.inj (List.cons.inj heq).1) hminus
  · rfl

theorem scanAtom_minus {c : Char} (hc : isDigit c = true) (rest : PyStr) :
    scanAtom py (scalar '-' :: scalar c :: rest) = scanNumber py true (scalar c :: rest) := by
  have hletter : ¬ 'I' = c := by
    rintro rfl
    revert hc
    decide
  have hnone : scanConstant (scalar '-' :: scalar c :: rest) = none := by
    simp [scanConstant, constants, PyStr.ofString, hletter]
  rw [scanAtom.eq_def, hnone]
  rfl

/-- An integer is read back. -/
theorem scanAtom_int {i : Int} (hi : IntFits py i) {rest : PyStr} (h : Ends rest) :
    scanAtom py (PyStr.ofString (toString i) ++ rest) = .ok (.int i, rest) := by
  obtain ⟨c, ds, hds⟩ := List.exists_cons_of_ne_nil
    (Nat.toDigits_ne_nil (n := i.natAbs) (b := 10))
  have hdigit : isDigit c = true := isDigit_of_mem_toDigits (hds ▸ List.mem_cons_self)
  have hnumber (negative : Bool) := scanNumber_toDigits py negative i.natAbs hi h
  rw [hds] at hnumber
  cases i with
  | ofNat n =>
      have htext : PyStr.ofString (toString (Int.ofNat n)) = (c :: ds).map scalar :=
        congrArg (List.map scalar) (Nat.toList_repr.trans hds)
      rw [htext]
      exact (scanAtom_of_digit py hdigit _).trans (hnumber false)
  | negSucc n =>
      have htext : PyStr.ofString (toString (Int.negSucc n)) =
          scalar '-' :: (c :: ds).map scalar := by
        rw [← hds, PyStr.ofString, Int.toString_eq_repr]
        show List.map scalar ("-" ++ (n + 1).repr).toList = _
        rw [String.toList_append, Nat.toList_repr]
        rfl
      rw [htext]
      exact (scanAtom_minus py hdigit _).trans (hnumber true)

end Loads

/-! ### Values -/

namespace Loads

variable (py : Stdlib)

/-- A character that may stand at the front of a number or a constant. -/
def startsAtom (c : Char) : Bool :=
  isDigit c ∨ c = '-' ∨ c = 'n' ∨ c = 't' ∨ c = 'f' ∨ c = 'N' ∨ c = 'I'

/-- The text of a float is read back. -/
structure FloatFits (f : PyFloat) : Prop where
  head : ∃ c cs, (py.floatRepr f).toList = c :: cs ∧ startsAtom c = true
  line : '\r' ∉ (py.floatRepr f).toList
  back : ∀ rest, Ends rest →
    scanAtom py.interpreter (PyStr.ofString (py.floatRepr f) ++ rest) = .ok (.float f, rest)

mutual

/-- The integers of a value are not too long, its floats are read back, and no object has a key
twice. -/
def Fits : PyJson → Prop
  | .int i => IntFits py.interpreter i
  | .float f => FloatFits py f
  | .arr xs => FitsList xs
  | .obj kvs => (kvs.map Prod.fst).Nodup ∧ FitsFields kvs
  | _ => True

def FitsList : List PyJson → Prop
  | [] => True
  | x :: xs => Fits x ∧ FitsList xs

def FitsFields : List (PyStr × PyJson) → Prop
  | [] => True
  | (_, v) :: kvs => Fits v ∧ FitsFields kvs

end

theorem fitsFields_iff {kvs : List (PyStr × PyJson)} :
    FitsFields py kvs ↔ ∀ kv ∈ kvs, Fits py kv.2 := by
  induction kvs with
  | nil => simp [FitsFields]
  | cons kv kvs ih => rw [FitsFields, ih, List.forall_mem_cons]

mutual

/-- The floats of a value are read back, and no object has a key twice. -/
def Regular : PyJson → Prop
  | .float f => FloatFits py f
  | .arr xs => RegularList xs
  | .obj kvs => (kvs.map Prod.fst).Nodup ∧ RegularFields kvs
  | _ => True

def RegularList : List PyJson → Prop
  | [] => True
  | x :: xs => Regular x ∧ RegularList xs

def RegularFields : List (PyStr × PyJson) → Prop
  | [] => True
  | (_, v) :: kvs => Regular v ∧ RegularFields kvs

end

mutual

theorem fits_iff : ∀ v : PyJson, Fits py v ↔ Regular py v ∧ v.intsFit py.interpreter = true
  | .int i => by
      rw [Fits, PyJson.intsFit, decide_eq_true_iff]
      exact ⟨fun h => ⟨trivial, h⟩, fun h => h.2⟩
  | .arr xs => fitsList_iff_regular xs
  | .obj kvs => by
      rw [Fits, Regular, PyJson.intsFit, fitsFields_iff_regular kvs, and_assoc]
  | .null => ⟨fun _ => ⟨trivial, rfl⟩, fun _ => trivial⟩
  | .bool _ => ⟨fun _ => ⟨trivial, rfl⟩, fun _ => trivial⟩
  | .float _ => ⟨fun h => ⟨h, rfl⟩, fun h => h.1⟩
  | .str _ => ⟨fun _ => ⟨trivial, rfl⟩, fun _ => trivial⟩

theorem fitsList_iff_regular : ∀ xs : List PyJson,
    FitsList py xs ↔ RegularList py xs ∧ PyJson.intsFitList py.interpreter xs = true
  | [] => ⟨fun _ => ⟨trivial, rfl⟩, fun _ => trivial⟩
  | x :: xs => by
      rw [FitsList, RegularList, PyJson.intsFitList, fits_iff x, fitsList_iff_regular xs,
        Bool.and_eq_true]
      exact and_and_and_comm

theorem fitsFields_iff_regular : ∀ kvs : List (PyStr × PyJson),
    FitsFields py kvs ↔ RegularFields py kvs ∧ PyJson.intsFitFields py.interpreter kvs = true
  | [] => ⟨fun _ => ⟨trivial, rfl⟩, fun _ => trivial⟩
  | (_, v) :: kvs => by
      rw [FitsFields, RegularFields, PyJson.intsFitFields, fits_iff v, fitsFields_iff_regular kvs,
        Bool.and_eq_true]
      exact and_and_and_comm

end

theorem regularFields_iff {kvs : List (PyStr × PyJson)} :
    RegularFields py kvs ↔ ∀ kv ∈ kvs, Regular py kv.2 := by
  induction kvs with
  | nil => simp [RegularFields]
  | cons kv kvs ih => rw [RegularFields, ih, List.forall_mem_cons]

mutual

/-- A test for `Regular`, of values without floats. -/
def isRegular : PyJson → Bool
  | .float _ => false
  | .arr xs => isRegularList xs
  | .obj kvs => decide (kvs.map Prod.fst).Nodup && isRegularFields kvs
  | _ => true

def isRegularList : List PyJson → Bool
  | [] => true
  | x :: xs => isRegular x && isRegularList xs

def isRegularFields : List (PyStr × PyJson) → Bool
  | [] => true
  | (_, v) :: kvs => isRegular v && isRegularFields kvs

end

mutual

theorem regular_of_isRegular : ∀ v : PyJson, isRegular v = true → Regular py v
  | .float _, h => nomatch h
  | .arr xs, h => regularList_of_isRegular xs h
  | .obj kvs, h => by
      obtain ⟨hnodup, hfields⟩ := Bool.and_eq_true_iff.mp h
      exact ⟨of_decide_eq_true hnodup, regularFields_of_isRegular kvs hfields⟩
  | .null, _ => trivial
  | .bool _, _ => trivial
  | .int _, _ => trivial
  | .str _, _ => trivial

theorem regularList_of_isRegular : ∀ xs : List PyJson, isRegularList xs = true → RegularList py xs
  | [], _ => trivial
  | x :: xs, h => by
      obtain ⟨hx, hxs⟩ := Bool.and_eq_true_iff.mp h
      exact ⟨regular_of_isRegular x hx, regularList_of_isRegular xs hxs⟩

theorem regularFields_of_isRegular : ∀ kvs : List (PyStr × PyJson),
    isRegularFields kvs = true → RegularFields py kvs
  | [], _ => trivial
  | (_, v) :: kvs, h => by
      obtain ⟨hv, hkvs⟩ := Bool.and_eq_true_iff.mp h
      exact ⟨regular_of_isRegular v hv, regularFields_of_isRegular kvs hkvs⟩

end

/-- The layout adds only space. -/
structure Spaced (l : Json.Layout) : Prop where
  item : ∃ s, PyStr.ofString l.itemSep = scalar ',' :: s ∧ ∀ p ∈ s, isSpace p = true
  key : ∃ s, PyStr.ofString l.keySep = scalar ':' :: s ∧ ∀ p ∈ s, isSpace p = true

theorem spaced_compact : Spaced .compact := ⟨⟨[], rfl, by decide⟩, [], rfl, by decide⟩

theorem spaced_indented : Spaced .indented := ⟨⟨[], rfl, by decide⟩, [scalar ' '], rfl, by decide⟩

/-- A line break and an indentation are space. -/
theorem isSpace_newline (l : Json.Layout) (level : Nat) :
    ∀ p ∈ PyStr.ofString (l.newline level), isSpace p = true := by
  intro p hp
  obtain ⟨c, hc, rfl⟩ := List.mem_map.mp hp
  unfold Json.Layout.newline at hc
  split at hc
  · exact absurd hc (by simp)
  · rw [String.toList_append, List.mem_append] at hc
    rcases hc with hc | hc
    · obtain rfl : c = '\n' := by simpa using hc
      rfl
    · rw [String.toList_ofList] at hc
      rw [List.eq_of_mem_replicate hc]
      rfl

theorem skipSpace_append {s : PyStr} (hs : ∀ p ∈ s, isSpace p = true) (rest : PyStr) :
    skipSpace (s ++ rest) = skipSpace rest := List.dropWhile_append_of_pos hs

theorem skipSpace_cons {p : CodePoint} (hp : isSpace p = false) (rest : PyStr) :
    skipSpace (p :: rest) = p :: rest := List.dropWhile_cons_of_neg (by rw [hp]; decide)

/-- What no value begins with. -/
def isGap (p : CodePoint) : Bool :=
  isSpace p ∨ p = scalar ']' ∨ p = scalar '\x7d' ∨ p = scalar '\ufeff'

/-- The text of a value begins with what is no space and no closing bracket. -/
def Visible (text : PyStr) : Prop := ∃ p rest, text = p :: rest ∧ isGap p = false

theorem isSpace_of_isGap {p : CodePoint} (h : isGap p = false) : isSpace p = false := by
  simp only [isGap, decide_eq_false_iff_not, not_or] at h
  exact Bool.not_eq_true _ ▸ h.1

theorem Visible.skipSpace {text : PyStr} (h : Visible text) (rest : PyStr) :
    skipSpace (text ++ rest) = text ++ rest := by
  obtain ⟨p, s, rfl, hp⟩ := h
  exact skipSpace_cons (isSpace_of_isGap hp) _

theorem visible_quote (s : PyStr) : Visible (PyJson.quote s) := ⟨_, _, rfl, by decide⟩

theorem isGap_startsAtom {c : Char} (h : startsAtom c = true) : isGap (scalar c) = false := by
  rcases hs : isGap (scalar c)
  · rfl
  · simp only [isGap, isSpace, decide_eq_true_eq, CodePoint.scalar.injEq, or_assoc] at hs
    rcases hs with rfl | rfl | rfl | rfl | rfl | rfl | rfl <;> cases h

variable {py}

/-- What follows an item ends a number. -/
theorem ends_space {s rest : PyStr} (hs : ∀ p ∈ s, isSpace p = true) (h : Ends rest) :
    Ends (s ++ rest) := by
  rcases s with - | ⟨p, s⟩
  · exact h
  · refine ends_cons ?_ _
    have hp := hs p List.mem_cons_self
    simp only [isSpace, decide_eq_true_eq] at hp
    rcases hp with rfl | rfl | rfl | rfl <;> rfl

/-- An item of an array: its text, which is read back whatever ends it. -/
structure Scans (scan : PyStr → Except LoadError (PyJson × PyStr)) (text : PyStr) (v : PyJson) :
    Prop where
  visible : Visible text
  back : ∀ rest, Ends rest → scan (text ++ rest) = .ok (v, rest)

/-- The texts of the items go on with the first one. -/
theorem Visible.intercalate {sep text : PyStr} (h : Visible text) (texts : List PyStr)
    (rest : PyStr) : Loads.skipSpace (sep.intercalate (text :: texts) ++ rest) =
      sep.intercalate (text :: texts) ++ rest := by
  cases texts with
  | nil =>
      rw [List.intercalate_singleton]
      exact h.skipSpace rest
  | cons text' texts =>
      rw [List.intercalate_cons_cons, List.append_assoc, List.append_assoc]
      exact h.skipSpace _

theorem intercalate_more (s text text' : PyStr) (texts : List PyStr) (rest : PyStr) :
    (scalar ',' :: s).intercalate (text :: text' :: texts) ++ rest =
      text ++ scalar ',' :: (s ++ ((scalar ',' :: s).intercalate (text' :: texts) ++ rest)) := by
  rw [List.intercalate_cons_cons, List.append_assoc, List.append_assoc]
  rfl

section Items

variable {scan : PyStr → Except LoadError (PyJson × PyStr)} {s rest rest' : PyStr} {v : PyJson}

theorem scanItems_last (h : scan s = .ok (v, rest)) (hrest : skipSpace rest = scalar ']' :: rest')
    (fuel : Nat) : scanItems scan (fuel + 1) s = .ok ([v], rest') := by
  rw [scanItems, h]
  dsimp only [bind, Except.bind]
  rw [hrest]
  rfl

theorem scanItems_more (h : scan s = .ok (v, rest)) (hrest : skipSpace rest = scalar ',' :: rest')
    (fuel : Nat) : scanItems scan (fuel + 1) s =
      (scanItems scan fuel (skipSpace rest')).map fun r => (v :: r.1, r.2) := by
  rw [scanItems, h]
  dsimp only [bind, Except.bind]
  rw [hrest]
  rfl

/-- The items of an array, each with its text. -/
theorem scanItems_texts {sep tail : PyStr}
    (hsep : ∃ s, sep = scalar ',' :: s ∧ ∀ p ∈ s, isSpace p = true)
    (htail : ∀ p ∈ tail, isSpace p = true) (rest : PyStr) {texts : List PyStr} {vs : List PyJson}
    (h : List.Forall₂ (Scans scan) texts vs) (hne : texts ≠ []) {fuel : Nat}
    (hfuel : texts.length ≤ fuel) :
    scanItems scan fuel (sep.intercalate texts ++ (tail ++ scalar ']' :: rest)) =
      .ok (vs, rest) := by
  obtain ⟨s, rfl, hs⟩ := hsep
  induction h generalizing fuel with
  | nil => exact absurd rfl hne
  | @cons text v texts vs hscan htexts ih =>
      obtain ⟨fuel, rfl⟩ : ∃ n, fuel = n + 1 :=
        ⟨fuel - 1, by rw [List.length_cons] at hfuel; omega⟩
      cases htexts with
      | nil =>
          have hend : Ends (tail ++ scalar ']' :: rest) := ends_space htail (ends_cons rfl rest)
          rw [List.intercalate_singleton]
          refine scanItems_last (hscan.back _ hend) ?_ fuel
          rw [skipSpace_append htail, skipSpace_cons (by decide)]
      | @cons text' v' texts vs hscan' htexts =>
          have hrest := ih (List.cons_ne_nil _ _) (Nat.le_of_succ_le_succ hfuel)
          rw [intercalate_more, scanItems_more (hscan.back _ (ends_cons rfl _))
            (skipSpace_cons (by decide) _), skipSpace_append hs, hscan'.visible.intercalate, hrest]
          rfl

end Items

section Fields

variable {scan : PyStr → Except LoadError (PyJson × PyStr)}

/-- A field of an object: the text of its key and its value. -/
def ScansField (scan : PyStr → Except LoadError (PyJson × PyStr)) (keySep text : PyStr)
    (kv : PyStr × PyJson) : Prop :=
  ∃ value, text = PyJson.quote kv.1 ++ keySep ++ value ∧ Scans scan value kv.2

theorem ScansField.visible {keySep text : PyStr} {kv : PyStr × PyJson}
    (h : ScansField scan keySep text kv) : Visible text := by
  obtain ⟨value, rfl, -⟩ := h
  exact ⟨_, _, rfl, by decide⟩

variable {s rest rest' : PyStr} {kv : PyStr × PyJson} {t value : PyStr}

/-- One field, and what follows it. -/
theorem scanFields_field (ht : ∀ p ∈ t, isSpace p = true) (h : Scans scan value kv.2)
    (hend : Ends rest) (fuel : Nat) :
    scanFields scan (fuel + 1) (PyJson.quote kv.1 ++ scalar ':' :: t ++ value ++ rest) =
      match skipSpace rest with
      | scalar '\x7d' :: rest => .ok ([kv], rest)
      | scalar ',' :: rest =>
          (scanFields scan fuel (skipSpace rest)).map fun r => (kv :: r.1, r.2)
      | _ => .error .decode := by
  have htext : PyJson.quote kv.1 ++ scalar ':' :: t ++ value ++ rest = scalar '"' ::
      (kv.1.flatMap PyJson.escapePoint ++ scalar '"' :: scalar ':' :: (t ++ (value ++ rest))) := by
    simp [PyJson.quote]
  have hvalue : scan (skipSpace (t ++ (value ++ rest))) = .ok (kv.2, rest) := by
    rw [skipSpace_append ht, h.visible.skipSpace, h.back rest hend]
  rw [htext, scanFields, scanString_quote]
  dsimp only [bind, Except.bind]
  rw [skipSpace_cons (by decide)]
  split
  · next heq =>
      rw [← (List.cons.inj heq).2, hvalue]
      rfl
  · next hne => exact absurd rfl (hne _)

theorem scanFields_last (ht : ∀ p ∈ t, isSpace p = true) (h : Scans scan value kv.2)
    (hend : Ends rest) (hrest : skipSpace rest = scalar '\x7d' :: rest') (fuel : Nat) :
    scanFields scan (fuel + 1) (PyJson.quote kv.1 ++ scalar ':' :: t ++ value ++ rest) =
      .ok ([kv], rest') := by
  rw [scanFields_field ht h hend, hrest]
  rfl

theorem scanFields_more (ht : ∀ p ∈ t, isSpace p = true) (h : Scans scan value kv.2)
    (hend : Ends rest) (hrest : skipSpace rest = scalar ',' :: rest') (fuel : Nat) :
    scanFields scan (fuel + 1) (PyJson.quote kv.1 ++ scalar ':' :: t ++ value ++ rest) =
      (scanFields scan fuel (skipSpace rest')).map fun r => (kv :: r.1, r.2) := by
  rw [scanFields_field ht h hend, hrest]
  rfl

/-- The fields of an object, each with its text. -/
theorem scanFields_texts {sep keySep tail : PyStr}
    (hsep : ∃ s, sep = scalar ',' :: s ∧ ∀ p ∈ s, isSpace p = true)
    (hkey : ∃ s, keySep = scalar ':' :: s ∧ ∀ p ∈ s, isSpace p = true)
    (htail : ∀ p ∈ tail, isSpace p = true) (rest : PyStr) {texts : List PyStr}
    {kvs : List (PyStr × PyJson)} (h : List.Forall₂ (ScansField scan keySep) texts kvs)
    (hne : texts ≠ []) {fuel : Nat} (hfuel : texts.length ≤ fuel) :
    scanFields scan fuel (sep.intercalate texts ++ (tail ++ scalar '\x7d' :: rest)) =
      .ok (kvs, rest) := by
  obtain ⟨s, rfl, hs⟩ := hsep
  obtain ⟨t, rfl, ht⟩ := hkey
  induction h generalizing fuel with
  | nil => exact absurd rfl hne
  | @cons text kv texts kvs hfield htexts ih =>
      obtain ⟨fuel, rfl⟩ : ∃ n, fuel = n + 1 :=
        ⟨fuel - 1, by rw [List.length_cons] at hfuel; omega⟩
      obtain ⟨value, rfl, hvalue⟩ := hfield
      cases htexts with
      | nil =>
          have hend : Ends (tail ++ scalar '\x7d' :: rest) := ends_space htail (ends_cons rfl rest)
          rw [List.intercalate_singleton]
          refine scanFields_last ht hvalue hend ?_ fuel
          rw [skipSpace_append htail, skipSpace_cons (by decide)]
      | @cons text' kv' texts kvs hfield' htexts =>
          have hrest := ih (List.cons_ne_nil _ _) (Nat.le_of_succ_le_succ hfuel)
          rw [intercalate_more, scanFields_more ht hvalue (ends_cons rfl _)
            (skipSpace_cons (by decide) _), skipSpace_append hs, hfield'.visible.intercalate, hrest]
          rfl

end Fields

end Loads

namespace Loads

variable (py : Stdlib) {l : Json.Layout}

/-- What does not begin as a string, an array or an object does is an atom. -/
theorem scanValue_atom (it : Interpreter) {c : Char} (hc : startsAtom c = true) (rest : PyStr)
    (depth : Nat) : scanValue it depth (scalar c :: rest) = scanAtom it (scalar c :: rest) := by
  have hne : c ≠ '"' ∧ c ≠ '[' ∧ c ≠ '\x7b' := by
    refine ⟨?_, ?_, ?_⟩ <;> rintro rfl <;> revert hc <;> decide
  obtain ⟨h₁, h₂, h₃⟩ := hne
  cases depth with
  | zero =>
      rw [scanValue.eq_def]
      dsimp only
      split
      · next heq => exact absurd (CodePoint.scalar.inj (List.cons.inj heq).1) h₁
      · next heq => exact absurd (CodePoint.scalar.inj (List.cons.inj heq).1) h₂
      · next heq => exact absurd (CodePoint.scalar.inj (List.cons.inj heq).1) h₃
      · rfl
  | succ depth =>
      rw [scanValue.eq_def]
      dsimp only
      split
      · next heq => exact absurd (CodePoint.scalar.inj (List.cons.inj heq).1) h₁
      · next heq => exact absurd (CodePoint.scalar.inj (List.cons.inj heq).1) h₂
      · next heq => exact absurd (CodePoint.scalar.inj (List.cons.inj heq).1) h₃
      · rfl

/-- An atom is read back when `scanAtom` reads it. -/
theorem scans_atom (it : Interpreter) {text : PyStr} {v : PyJson} {c : Char} {cs : PyStr}
    (htext : text = scalar c :: cs) (hc : startsAtom c = true)
    (h : ∀ rest, Ends rest → scanAtom it (text ++ rest) = .ok (v, rest)) (depth : Nat) :
    Scans (scanValue it depth) text v := by
  subst htext
  refine ⟨⟨_, _, rfl, isGap_startsAtom hc⟩, fun rest hrest => ?_⟩
  exact (scanValue_atom it hc _ depth).trans (h rest hrest)

theorem scans_constant (it : Interpreter) {text : PyStr} {v : PyJson} {c : Char} {cs : PyStr}
    (htext : text = scalar c :: cs) (hc : startsAtom c = true)
    (h : ∀ rest, scanConstant (text ++ rest) = some (v, rest)) (depth : Nat) :
    Scans (scanValue it depth) text v := by
  refine scans_atom it htext hc (fun rest _ => ?_) depth
  rw [scanAtom.eq_def, h rest]

theorem startsAtom_of_isDigit {c : Char} (h : isDigit c = true) : startsAtom c = true := by
  simp [startsAtom, h]

/-- The text of an integer begins with a digit or a minus sign. -/
theorem head_toString (i : Int) :
    ∃ c cs, PyStr.ofString (toString i) = scalar c :: cs ∧ startsAtom c = true := by
  cases i with
  | ofNat n =>
      obtain ⟨c, ds, hds⟩ := List.exists_cons_of_ne_nil (Nat.toDigits_ne_nil (n := n) (b := 10))
      refine ⟨c, ds.map scalar, congrArg (List.map scalar) (Nat.toList_repr.trans hds), ?_⟩
      exact startsAtom_of_isDigit (isDigit_of_mem_toDigits (hds ▸ List.mem_cons_self))
  | negSucc n =>
      refine ⟨'-', (n + 1).repr.toList.map scalar, ?_, rfl⟩
      rw [PyStr.ofString, Int.toString_eq_repr]
      show List.map scalar ("-" ++ (n + 1).repr).toList = _
      rw [String.toList_append]
      rfl

theorem scans_str (it : Interpreter) (s : PyStr) (depth : Nat) :
    Scans (scanValue it depth) (PyJson.quote s) (.str s) := by
  refine ⟨visible_quote s, fun rest _ => ?_⟩
  have htext : PyJson.quote s ++ rest =
      scalar '"' :: (s.flatMap PyJson.escapePoint ++ scalar '"' :: rest) := by
    simp [PyJson.quote]
  rw [htext]
  cases depth with
  | zero =>
      show (scanString _).map _ = _
      rw [scanString_quote]
      rfl
  | succ depth =>
      show (scanString _).map _ = _
      rw [scanString_quote]
      rfl

/-- The texts between brackets are no longer than the whole. -/
theorem length_intercalate_le (sep : PyStr) {texts : List PyStr}
    (h : ∀ text ∈ texts, Visible text) (rest : PyStr) :
    texts.length ≤ (sep.intercalate texts ++ rest).length := by
  induction texts with
  | nil => exact Nat.zero_le _
  | cons text texts ih =>
      obtain ⟨hvisible, hvisibles⟩ := List.forall_mem_cons.mp h
      obtain ⟨p, s, rfl, -⟩ := hvisible
      have ih := ih hvisibles
      cases texts with
      | nil => simp
      | cons text' texts =>
          rw [List.intercalate_cons_cons]
          simp only [List.length_append, List.length_cons] at ih ⊢
          omega

theorem sep_space (hl : Spaced l) (level : Nat) : ∃ s,
    PyStr.ofString (l.itemSep ++ l.newline level) = scalar ',' :: s ∧ ∀ p ∈ s, isSpace p = true := by
  obtain ⟨s, hs, hspace⟩ := hl.item
  refine ⟨s ++ PyStr.ofString (l.newline level), ?_, ?_⟩
  · rw [PyStr.ofString, String.toList_append, List.map_append]
    exact congrArg (· ++ PyStr.ofString (l.newline level)) hs
  · exact List.forall_mem_append.mpr ⟨hspace, isSpace_newline l level⟩

theorem visible_of_forall₂ {α : Type} {R : PyStr → α → Prop} {texts : List PyStr} {xs : List α}
    (h : List.Forall₂ R texts xs) (hR : ∀ text x, R text x → Visible text) :
    ∀ text ∈ texts, Visible text := by
  induction h with
  | nil => exact fun _ h => absurd h List.not_mem_nil
  | cons hx _ ih => exact List.forall_mem_cons.mpr ⟨hR _ _ hx, ih⟩

/-- An array with items is read item by item. -/
theorem scanArray_of_visible {scan : PyStr → Except LoadError (PyJson × PyStr)} {s text : PyStr}
    (hs : ∀ p ∈ s, isSpace p = true) (hvisible : Visible text) :
    scanArray scan (s ++ text) =
      (scanItems scan text.length text).map fun r => (.arr r.1, r.2) := by
  obtain ⟨p, rest, rfl, hp⟩ := hvisible
  rw [scanArray, skipSpace_append hs, skipSpace_cons (isSpace_of_isGap hp)]
  split
  · next heq =>
      obtain rfl := (List.cons.inj heq).1
      cases hp
  · rfl

theorem scanObject_of_visible {scan : PyStr → Except LoadError (PyJson × PyStr)} {s text : PyStr}
    (hs : ∀ p ∈ s, isSpace p = true) (hvisible : Visible text) :
    scanObject scan (s ++ text) =
      (scanFields scan text.length text).map fun r => (.obj (dictOf r.1), r.2) := by
  obtain ⟨p, rest, rfl, hp⟩ := hvisible
  rw [scanObject, skipSpace_append hs, skipSpace_cons (isSpace_of_isGap hp)]
  split
  · next heq =>
      obtain rfl := (List.cons.inj heq).1
      cases hp
  · rfl

theorem visible_intercalate (sep : PyStr) {texts : List PyStr} (hne : texts ≠ [])
    (h : ∀ text ∈ texts, Visible text) (rest : PyStr) :
    Visible (sep.intercalate texts ++ rest) := by
  obtain ⟨text, texts, rfl⟩ := List.exists_cons_of_ne_nil hne
  obtain ⟨p, s, rfl, hp⟩ := h text List.mem_cons_self
  cases texts with
  | nil =>
      rw [List.intercalate_singleton]
      exact ⟨p, _, rfl, hp⟩
  | cons text' texts =>
      rw [List.intercalate_cons_cons]
      exact ⟨p, _, rfl, hp⟩

theorem wrap_append {level : Nat} {left right : Char} {texts : List PyStr} (hne : texts ≠ [])
    (rest : PyStr) : PyJson.wrap l level left right texts ++ rest =
      scalar left :: (PyStr.ofString (l.newline (level + 1)) ++
        ((PyStr.ofString (l.itemSep ++ l.newline (level + 1))).intercalate texts ++
          (PyStr.ofString (l.newline level) ++ scalar right :: rest))) := by
  have hempty : texts.isEmpty = false := by
    cases texts with
    | nil => exact absurd rfl hne
    | cons => rfl
  rw [PyJson.wrap, hempty]
  simp

/-- An array is read back when its items are. -/
theorem scans_arr (it : Interpreter) (hl : Spaced l) {depth : Nat} (level : Nat)
    {texts : List PyStr} {xs : List PyJson}
    (h : List.Forall₂ (Scans (scanValue it depth)) texts xs) :
    Scans (scanValue it (depth + 1)) (PyJson.wrap l level '[' ']' texts) (.arr xs) := by
  by_cases hne : texts = []
  · subst hne
    cases h
    refine ⟨⟨_, _, rfl, by decide⟩, fun rest _ => ?_⟩
    show scanArray (scanValue it depth) (scalar ']' :: rest) = _
    rw [scanArray, skipSpace_cons (by decide)]
    rfl
  · have hvisible := visible_of_forall₂ h fun _ _ hx => hx.visible
    refine ⟨?_, fun rest _ => ?_⟩
    · rw [← List.append_nil (PyJson.wrap _ _ _ _ _), wrap_append hne]
      exact ⟨_, _, rfl, by decide⟩
    · have hfuel := length_intercalate_le
        (PyStr.ofString (l.itemSep ++ l.newline (level + 1))) hvisible
        (PyStr.ofString (l.newline level) ++ scalar ']' :: rest)
      have hitems := scanItems_texts (sep_space hl (level + 1)) (isSpace_newline l level) rest h
        hne hfuel
      have htext := visible_intercalate
        (PyStr.ofString (l.itemSep ++ l.newline (level + 1))) hne hvisible
        (PyStr.ofString (l.newline level) ++ scalar ']' :: rest)
      rw [wrap_append hne]
      show scanArray (scanValue it depth) _ = _
      rw [scanArray_of_visible (isSpace_newline l (level + 1)) htext, hitems]
      rfl

/-- Fields with different keys make up the dict that they are. -/
theorem insertField_of_notMem {fields : List (PyStr × PyJson)} {key : PyStr} {v : PyJson}
    (h : key ∉ fields.map Prod.fst) : insertField fields key v = fields ++ [(key, v)] := by
  induction fields with
  | nil => rfl
  | cons kv fields ih =>
      rw [List.map_cons, List.mem_cons, not_or] at h
      rw [insertField, if_neg fun heq => h.1 heq.symm, ih h.2]
      rfl

theorem foldl_insertField {fields kvs : List (PyStr × PyJson)}
    (h : ((fields ++ kvs).map Prod.fst).Nodup) :
    kvs.foldl (fun fields kv => insertField fields kv.1 kv.2) fields = fields ++ kvs := by
  induction kvs generalizing fields with
  | nil => exact (List.append_nil fields).symm
  | cons kv kvs ih =>
      have hkey : kv.1 ∉ fields.map Prod.fst := by
        rw [List.map_append, List.map_cons] at h
        exact fun hmem => (List.nodup_append.mp h).2.2 _ hmem _ List.mem_cons_self rfl
      rw [List.foldl_cons, insertField_of_notMem hkey, ih]
      · rw [List.append_assoc, List.singleton_append]
      · rwa [List.append_assoc, List.singleton_append]

theorem dictOf_of_nodup {kvs : List (PyStr × PyJson)} (h : (kvs.map Prod.fst).Nodup) :
    dictOf kvs = kvs := foldl_insertField h

/-- An object is read back when its fields are and no key stands twice in it. -/
theorem scans_obj (it : Interpreter) (hl : Spaced l) {depth : Nat} (level : Nat)
    {texts : List PyStr} {kvs : List (PyStr × PyJson)} (hkeys : (kvs.map Prod.fst).Nodup)
    (h : List.Forall₂ (ScansField (scanValue it depth) (PyStr.ofString l.keySep)) texts kvs) :
    Scans (scanValue it (depth + 1)) (PyJson.wrap l level '\x7b' '\x7d' texts) (.obj kvs) := by
  by_cases hne : texts = []
  · subst hne
    cases h
    refine ⟨⟨_, _, rfl, by decide⟩, fun rest _ => ?_⟩
    show scanObject (scanValue it depth) (scalar '\x7d' :: rest) = _
    rw [scanObject, skipSpace_cons (by decide)]
    rfl
  · have hvisible := visible_of_forall₂ h fun _ _ hx => hx.visible
    refine ⟨?_, fun rest _ => ?_⟩
    · rw [← List.append_nil (PyJson.wrap _ _ _ _ _), wrap_append hne]
      exact ⟨_, _, rfl, by decide⟩
    · have hfuel := length_intercalate_le
        (PyStr.ofString (l.itemSep ++ l.newline (level + 1))) hvisible
        (PyStr.ofString (l.newline level) ++ scalar '\x7d' :: rest)
      have hfields := scanFields_texts (sep_space hl (level + 1)) hl.key (isSpace_newline l level)
        rest h hne hfuel
      have htext := visible_intercalate
        (PyStr.ofString (l.itemSep ++ l.newline (level + 1))) hne hvisible
        (PyStr.ofString (l.newline level) ++ scalar '\x7d' :: rest)
      rw [wrap_append hne]
      show scanObject (scanValue it depth) _ = _
      rw [scanObject_of_visible (isSpace_newline l (level + 1)) htext, hfields]
      show Except.ok (PyJson.obj (dictOf kvs), rest) = _
      rw [dictOf_of_nodup hkeys]

/-! ### Carriage returns -/

/-- The separators of the layout have no carriage return. -/
structure Returnless (l : Json.Layout) : Prop where
  item : '\r' ∉ l.itemSep.toList
  key : '\r' ∉ l.keySep.toList

theorem returnless_indented : Returnless .indented := ⟨by decide, by decide⟩

theorem notMem_ofString {s : String} {c : Char} (h : c ∉ s.toList) :
    scalar c ∉ PyStr.ofString s := by
  rw [PyStr.ofString, List.mem_map]
  rintro ⟨d, hd, heq⟩
  exact h (CodePoint.scalar.inj heq ▸ hd)

theorem notMem_newline (l : Json.Layout) (level : Nat) : '\r' ∉ (l.newline level).toList := by
  unfold Json.Layout.newline
  split
  · simp
  · rw [String.toList_append, List.mem_append]
    rintro (h | h)
    · revert h
      decide
    · rw [String.toList_ofList] at h
      exact absurd (List.eq_of_mem_replicate h) (by decide)

theorem notMem_escapePoint (p : CodePoint) : scalar '\r' ∉ PyJson.escapePoint p := by
  have hhex : ∀ n < 32, Json.hexDigit (n / 16) ≠ '\r' ∧ Json.hexDigit (n % 16) ≠ '\r' := by decide
  cases p with
  | surrogate n => simp [PyJson.escapePoint]
  | scalar c =>
      rw [PyJson.escapePoint, List.mem_map]
      rintro ⟨d, hd, heq⟩
      obtain rfl := CodePoint.scalar.inj heq
      unfold Json.escapeChar at hd
      split_ifs at hd with h₁ h₂ h₃ h₄ h₅ h₆ h₇ h₈
      · revert hd; decide
      · revert hd; decide
      · revert hd; decide
      · revert hd; decide
      · revert hd; decide
      · revert hd; decide
      · revert hd; decide
      · obtain ⟨ha, hb⟩ := hhex _ h₈
        simp only [List.mem_cons, List.not_mem_nil, or_false] at hd
        rcases hd with hd | hd | hd | hd | hd | hd
        · cases hd
        · cases hd
        · cases hd
        · cases hd
        · exact ha hd.symm
        · exact hb hd.symm
      · exact h₄ (List.mem_singleton.mp hd).symm

theorem notMem_quote (s : PyStr) : scalar '\r' ∉ PyJson.quote s := by
  rw [PyJson.quote, List.mem_append, List.mem_cons, List.mem_flatMap]
  rintro ((h | ⟨p, -, h⟩) | h)
  · cases h
  · exact notMem_escapePoint p h
  · cases List.mem_singleton.mp h

theorem notMem_intercalate {α : Type} {sep : List α} {texts : List (List α)} {p : α} (hsep : p ∉ sep)
    (h : ∀ text ∈ texts, p ∉ text) : p ∉ sep.intercalate texts := by
  induction texts with
  | nil => exact List.not_mem_nil
  | cons text texts ih =>
      obtain ⟨htext, htexts⟩ := List.forall_mem_cons.mp h
      cases texts with
      | nil => rwa [List.intercalate_singleton]
      | cons text' texts =>
          rw [List.intercalate_cons_cons, List.mem_append, List.mem_append]
          rintro ((h | h) | h)
          · exact htext h
          · exact hsep h
          · exact ih htexts h

theorem notMem_wrap (hl : Returnless l) (level : Nat) {left right : Char} (hleft : left ≠ '\r')
    (hright : right ≠ '\r') {texts : List PyStr} (h : ∀ text ∈ texts, scalar '\r' ∉ text) :
    scalar '\r' ∉ PyJson.wrap l level left right texts := by
  have hl' : scalar '\r' ≠ scalar left := fun heq => hleft (CodePoint.scalar.inj heq).symm
  have hr' : scalar '\r' ≠ scalar right := fun heq => hright (CodePoint.scalar.inj heq).symm
  by_cases hne : texts = []
  · subst hne
    show scalar '\r' ∉ [scalar left, scalar right]
    simp [hl', hr']
  · rw [← List.append_nil (PyJson.wrap _ _ _ _ _), wrap_append hne]
    have hsep : scalar '\r' ∉ PyStr.ofString (l.itemSep ++ l.newline (level + 1)) := by
      refine notMem_ofString ?_
      rw [String.toList_append, List.mem_append, not_or]
      exact ⟨hl.item, notMem_newline l _⟩
    simp only [List.mem_cons, List.mem_append, not_or, List.not_mem_nil, not_false_iff, and_true]
    exact ⟨hl', notMem_ofString (notMem_newline l _), notMem_intercalate hsep h,
      notMem_ofString (notMem_newline l _), hr'⟩

mutual

/-- A text that is written has no carriage return. -/
theorem notMem_dumps (hl : Returnless l) : ∀ (v : PyJson) (level : Nat), Fits py v →
    scalar '\r' ∉ PyJson.dumps py l level v
  | .null, _, _ => notMem_ofString (by decide)
  | .bool true, _, _ => notMem_ofString (by decide)
  | .bool false, _, _ => notMem_ofString (by decide)
  | .int i, _, _ => by
      refine notMem_ofString fun hmem => ?_
      cases i with
      | ofNat n =>
          have hdigit := isDigit_of_mem_toDigits (Nat.toList_repr ▸ hmem)
          cases hdigit
      | negSucc n =>
          have hsplit : '\r' ∈ ("-" ++ (n + 1).repr).toList := hmem
          rw [String.toList_append, List.mem_append] at hsplit
          rcases hsplit with h | h
          · revert h
            decide
          · have hdigit := isDigit_of_mem_toDigits (Nat.toList_repr ▸ h)
            cases hdigit
  | .float f, _, hfits => notMem_ofString hfits.line
  | .str s, _, _ => notMem_quote s
  | .arr xs, level, hfits =>
      notMem_wrap hl level (by decide) (by decide) (notMem_dumpsList hl xs (level + 1) hfits)
  | .obj kvs, level, hfits =>
      notMem_wrap hl level (by decide) (by decide) (notMem_dumpsFields hl kvs (level + 1) hfits.2)

theorem notMem_dumpsList (hl : Returnless l) : ∀ (xs : List PyJson) (level : Nat),
    FitsList py xs → ∀ text ∈ PyJson.dumpsList py l level xs, scalar '\r' ∉ text
  | [], _, _ => fun _ h => absurd h List.not_mem_nil
  | x :: xs, level, hfits => List.forall_mem_cons.mpr
      ⟨notMem_dumps hl x level hfits.1, notMem_dumpsList hl xs level hfits.2⟩

theorem notMem_dumpsFields (hl : Returnless l) : ∀ (kvs : List (PyStr × PyJson)) (level : Nat),
    FitsFields py kvs → ∀ text ∈ PyJson.dumpsFields py l level kvs, scalar '\r' ∉ text
  | [], _, _ => fun _ h => absurd h List.not_mem_nil
  | (k, v) :: kvs, level, hfits => by
      refine List.forall_mem_cons.mpr ⟨?_, notMem_dumpsFields hl kvs level hfits.2⟩
      rw [List.mem_append, List.mem_append]
      rintro ((h | h) | h)
      · exact notMem_quote k h
      · exact notMem_ofString hl.key h
      · exact notMem_dumps hl v level hfits.1 h

end

/-! ### The round trip -/

mutual

/-- Every value is read back from its text. -/
theorem scans_dumps (hl : Spaced l) : ∀ (v : PyJson) (depth level : Nat), v.nesting ≤ depth →
    Fits py v → Scans (scanValue py.interpreter depth) (PyJson.dumps py l level v) v
  | .null, depth, level, _, _ =>
      scans_constant py.interpreter (c := 'n') rfl rfl (fun _ => rfl) depth
  | .bool true, depth, level, _, _ =>
      scans_constant py.interpreter (c := 't') rfl rfl (fun _ => rfl) depth
  | .bool false, depth, level, _, _ =>
      scans_constant py.interpreter (c := 'f') rfl rfl (fun _ => rfl) depth
  | .int i, depth, level, _, hfits => by
      obtain ⟨c, cs, htext, hc⟩ := head_toString i
      exact scans_atom py.interpreter htext hc (fun _ => scanAtom_int py.interpreter hfits) depth
  | .float f, depth, level, _, hfits => by
      obtain ⟨c, cs, htext, hc⟩ := hfits.head
      exact scans_atom py.interpreter (congrArg (List.map scalar) htext) hc hfits.back depth
  | .str s, depth, level, _, _ => scans_str py.interpreter s depth
  | .arr xs, 0, level, hdepth, _ => absurd hdepth (Nat.not_succ_le_zero _)
  | .arr xs, depth + 1, level, hdepth, hfits =>
      scans_arr py.interpreter hl level (scans_dumpsList hl xs depth (level + 1)
        (Nat.le_of_succ_le_succ hdepth) hfits)
  | .obj kvs, 0, level, hdepth, _ => absurd hdepth (Nat.not_succ_le_zero _)
  | .obj kvs, depth + 1, level, hdepth, hfits =>
      scans_obj py.interpreter hl level hfits.1 (scans_dumpsFields hl kvs depth (level + 1)
        (Nat.le_of_succ_le_succ hdepth) hfits.2)

theorem scans_dumpsList (hl : Spaced l) : ∀ (xs : List PyJson) (depth level : Nat),
    PyJson.nestingList xs ≤ depth → FitsList py xs →
      List.Forall₂ (Scans (scanValue py.interpreter depth)) (PyJson.dumpsList py l level xs) xs
  | [], _, _, _, _ => .nil
  | x :: xs, depth, level, hdepth, hfits =>
      .cons (scans_dumps hl x depth level (Nat.le_trans (Nat.le_max_left _ _) hdepth) hfits.1)
        (scans_dumpsList hl xs depth level (Nat.le_trans (Nat.le_max_right _ _) hdepth) hfits.2)

theorem scans_dumpsFields (hl : Spaced l) : ∀ (kvs : List (PyStr × PyJson)) (depth level : Nat),
    PyJson.nestingFields kvs ≤ depth → FitsFields py kvs →
      List.Forall₂ (ScansField (scanValue py.interpreter depth) (PyStr.ofString l.keySep))
        (PyJson.dumpsFields py l level kvs) kvs
  | [], _, _, _, _ => .nil
  | (_, v) :: kvs, depth, level, hdepth, hfits =>
      .cons ⟨_, rfl, scans_dumps hl v depth level (Nat.le_trans (Nat.le_max_left _ _) hdepth)
          hfits.1⟩
        (scans_dumpsFields hl kvs depth level (Nat.le_trans (Nat.le_max_right _ _) hdepth) hfits.2)

end

end Loads

open Loads in
/-- A value is read back from its text, also when space follows. -/
theorem loads_dumps {py : Stdlib} {l : Json.Layout} (hl : Spaced l) {v : PyJson}
    (hdepth : v.nesting ≤ py.interpreter.depth) (hfits : Fits py v) {space : PyStr}
    (hspace : ∀ p ∈ space, Loads.isSpace p = true) :
    loads py.interpreter (PyJson.dumps py l 0 v ++ space) = .ok v := by
  have hscan := scans_dumps py hl v py.interpreter.depth 0 hdepth hfits
  have hend : Ends space := by
    have := ends_space hspace ends_nil
    rwa [List.append_nil] at this
  have hskip : skipSpace space = [] := by
    have := skipSpace_append hspace []
    rwa [List.append_nil] at this
  unfold loads
  split
  · next heq =>
      obtain ⟨p, rest, htext, hp⟩ := hscan.visible
      rw [htext] at heq
      obtain rfl := (List.cons.inj heq).1
      cases hp
  · rw [hscan.visible.skipSpace, hscan.back space hend]
    show (if skipSpace space = [] then _ else _) = _
    rw [if_pos hskip]
    rfl

/-! ### Sorted keys -/

namespace Loads

variable (py : Stdlib)

mutual

theorem fits_sortKeys_iff : ∀ v : PyJson, Fits py v.sortKeys ↔ Fits py v
  | .arr xs => by
      rw [PyJson.sortKeys, Fits, Fits]
      exact fitsList_sortKeys_iff xs
  | .obj kvs => by
      obtain ⟨fields, heq, hperm⟩ := PyJson.sortKeys_obj_perm kvs
      have hsorted := fitsFields_sortKeys_iff kvs
      rw [fitsFields_iff, PyJson.sortKeysFields_eq_map] at hsorted
      rw [heq, Fits, Fits, fitsFields_iff, ← hsorted]
      have hkeys : (fields.map Prod.fst).Perm (kvs.map Prod.fst) := by
        have := hperm.map Prod.fst
        rwa [List.map_map] at this
      refine and_congr hkeys.nodup_iff ?_
      exact ⟨fun h kv hkv => h kv (hperm.mem_iff.mpr hkv), fun h kv hkv => h kv (hperm.mem_iff.mp hkv)⟩
  | .null => Iff.rfl
  | .bool _ => Iff.rfl
  | .int _ => Iff.rfl
  | .float _ => Iff.rfl
  | .str _ => Iff.rfl

theorem fitsList_sortKeys_iff : ∀ xs : List PyJson,
    FitsList py (PyJson.sortKeysList xs) ↔ FitsList py xs
  | [] => Iff.rfl
  | x :: xs => by
      rw [PyJson.sortKeysList, FitsList, FitsList, fits_sortKeys_iff x, fitsList_sortKeys_iff xs]

theorem fitsFields_sortKeys_iff : ∀ kvs : List (PyStr × PyJson),
    FitsFields py (PyJson.sortKeysFields kvs) ↔ FitsFields py kvs
  | [] => Iff.rfl
  | (_, v) :: kvs => by
      rw [PyJson.sortKeysFields, FitsFields, FitsFields, fits_sortKeys_iff v,
        fitsFields_sortKeys_iff kvs]

end

end Loads

end Konoha
