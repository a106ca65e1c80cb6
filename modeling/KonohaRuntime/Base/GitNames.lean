/-
Base/GitNames.lean

Names of files as git prints them, one a line, and as Python reads them back.

A name is printed as it is if its bytes are printable ASCII without quotes and backslashes, else in
quotes and with escapes; so the text of a list of names can be cut into lines, but a blank in front
of the first name is stripped with the text.

* `words_printNames`: the stripped lines are the stripped names.
* `rows_printNames`: the lines are the names, if these are plain and nothing is stripped from them.
-/
import KonohaRuntime.Base.PyStr
import KonohaRuntime.Base.SplitLines
import KonohaRuntime.Base.Strip
import KonohaRuntime.Base.Utf8

namespace Konoha.GitNames

open CodePoint

/-! ### Printing -/

/-- `os.fsencode`: a surrogate stands for a byte that is no part of a character. -/
def nameBytes (name : PyStr) : List UInt8 := name.flatMap fun
  | scalar c => String.utf8EncodeChar c
  | surrogate n => [UInt8.ofNat (n % 128 + 128)]

/-- The byte is printed as it is. -/
def isPlainByte (b : UInt8) : Bool := 0x20 ≤ b && b < 0x7f && b ≠ 0x22 && b ≠ 0x5c

def letterEscapes : List (UInt8 × Char) :=
  [(0x07, 'a'), (0x08, 'b'), (0x09, 't'), (0x0a, 'n'), (0x0b, 'v'), (0x0c, 'f'), (0x0d, 'r'),
    (0x22, '"'), (0x5c, '\\')]

def octalDigit (b : UInt8) : Char := Char.ofNat ('0'.toNat + b.toNat % 8)

/-- A byte of a quoted name. -/
def quoteByte (b : UInt8) : List Char :=
  if isPlainByte b then [Char.ofNat b.toNat]
  else match letterEscapes.lookup b with
    | some c => ['\\', c]
    | none => ['\\', octalDigit (b / 64), octalDigit (b / 8), octalDigit b]

/-- A name in a list of names, with `core.quotePath`. -/
def quotePath (name : PyStr) : List Char :=
  let bytes := nameBytes name
  if bytes.all isPlainByte then bytes.map fun b => Char.ofNat b.toNat
  else '"' :: bytes.flatMap quoteByte ++ ['"']

/-- `--name-only`: a name a line. -/
def printNames (names : List PyStr) : List Char := names.flatMap fun name => quotePath name ++ ['\n']

example : quotePath (.ofString "café\t.md") = "\"caf\\303\\251\\t.md\"".toList := by decide +kernel

/-! ### Plain names -/

/-- A printable ASCII character that is neither a quote nor a backslash. -/
def isPlainPoint : CodePoint → Bool
  | scalar c => 0x20 ≤ c.toNat && c.toNat < 0x7f && c ≠ '"' && c ≠ '\\'
  | surrogate _ => false

theorem isPlainPoint_scalar_iff {c : Char} : isPlainPoint (scalar c) = true ↔
    0x20 ≤ c.toNat ∧ c.toNat < 0x7f ∧ c ≠ '"' ∧ c ≠ '\\' := by
  simp only [isPlainPoint, Bool.and_eq_true, decide_eq_true_eq, and_assoc]

theorem isPlainByte_iff {b : UInt8} : isPlainByte b = true ↔
    0x20 ≤ b.toNat ∧ b.toNat < 0x7f ∧ b.toNat ≠ 0x22 ∧ b.toNat ≠ 0x5c := by
  have hquote : b = 0x22 ↔ b.toNat = 0x22 := UInt8.toNat_inj.symm
  have hbackslash : b = 0x5c ↔ b.toNat = 0x5c := UInt8.toNat_inj.symm
  simp only [isPlainByte, Bool.and_eq_true, decide_eq_true_eq, and_assoc, ne_eq, hquote, hbackslash,
    UInt8.le_iff_toNat_le, UInt8.lt_iff_toNat_lt]
  rfl

/-- A plain character is one plain byte; any other has a byte that is not plain. -/
theorem plain_utf8EncodeChar (c : Char) :
    (isPlainPoint (scalar c) = true ∧ String.utf8EncodeChar c = [UInt8.ofNat c.toNat] ∧
      isPlainByte (UInt8.ofNat c.toNat) = true ∧ (UInt8.ofNat c.toNat).toNat = c.toNat) ∨
    (isPlainPoint (scalar c) = false ∧ (String.utf8EncodeChar c).all isPlainByte = false) := by
  have hquote : c = '"' ↔ c.toNat = 0x22 := by
    rw [← Char.toNat_inj]
    rfl
  have hbackslash : c = '\\' ↔ c.toNat = 0x5c := by
    rw [← Char.toNat_inj]
    rfl
  rcases Utf8.utf8EncodeChar_cases c with ⟨hc, henc⟩ | ⟨hc, hbytes⟩
  · have hnat : (UInt8.ofNat c.toNat).toNat = c.toNat := by
      rw [UInt8.toNat_ofNat']
      omega
    have hiff : isPlainByte (UInt8.ofNat c.toNat) = true ↔ isPlainPoint (scalar c) = true := by
      rw [isPlainByte_iff, isPlainPoint_scalar_iff, hnat, ne_eq, ne_eq, ne_eq, ne_eq, hquote,
        hbackslash]
    by_cases hplain : isPlainPoint (scalar c) = true
    · exact .inl ⟨hplain, henc, hiff.mpr hplain, hnat⟩
    · right
      have hbyte : isPlainByte (UInt8.ofNat c.toNat) = false :=
        Bool.eq_false_iff.mpr fun h => hplain (hiff.mp h)
      rw [henc, List.all_cons, List.all_nil, Bool.and_true]
      exact ⟨Bool.eq_false_iff.mpr hplain, hbyte⟩
  · right
    constructor
    · rw [Bool.eq_false_iff, ne_eq, isPlainPoint_scalar_iff]
      omega
    · obtain ⟨b, rest, henc⟩ := List.exists_cons_of_ne_nil String.utf8EncodeChar_ne_nil
      have hb := hbytes b (by rw [henc]; exact .head _)
      have hplain : isPlainByte b = false := by
        rw [Bool.eq_false_iff, ne_eq, isPlainByte_iff]
        omega
      rw [henc, List.all_cons, hplain, Bool.false_and]

theorem not_isPlainByte_surrogate (n : Nat) : isPlainByte (UInt8.ofNat (n % 128 + 128)) = false := by
  rw [Bool.eq_false_iff, ne_eq, isPlainByte_iff, UInt8.toNat_ofNat']
  omega

/-- The bytes of a plain name are its characters. -/
theorem plain_nameBytes (name : PyStr) :
    ((nameBytes name).all isPlainByte = name.all isPlainPoint) ∧
    (name.all isPlainPoint = true →
      ((nameBytes name).map fun b => scalar (Char.ofNat b.toNat)) = name) := by
  induction name with
  | nil => exact ⟨rfl, fun _ => rfl⟩
  | cons p name ih =>
      obtain ⟨hall, hchars⟩ := ih
      cases p with
      | surrogate n =>
          have hfalse : (nameBytes (surrogate n :: name)).all isPlainByte = false := by
            show (UInt8.ofNat (n % 128 + 128) :: nameBytes name).all isPlainByte = false
            rw [List.all_cons, not_isPlainByte_surrogate, Bool.false_and]
          rw [hfalse]
          exact ⟨rfl, fun h => nomatch h⟩
      | scalar c =>
          have hbytes : nameBytes (scalar c :: name) = String.utf8EncodeChar c ++ nameBytes name := rfl
          rw [hbytes, List.all_append, List.all_cons, hall]
          rcases plain_utf8EncodeChar c with ⟨hplain, henc, hbyte, hnat⟩ | ⟨hplain, hbyte⟩
          · rw [hplain, henc, List.all_cons, List.all_nil, hbyte, Bool.and_true, Bool.true_and]
            refine ⟨rfl, fun h => ?_⟩
            rw [List.singleton_append, List.map_cons, hchars h, hnat, Char.ofNat_toNat]
          · rw [hplain, hbyte, Bool.false_and]
            exact ⟨rfl, fun h => nomatch h⟩

theorem quotePath_plain {name : PyStr} (h : name.all isPlainPoint = true) :
    (quotePath name).map scalar = name := by
  rw [quotePath, (plain_nameBytes name).1, if_pos h, List.map_map]
  exact (plain_nameBytes name).2 h

/-- In what is printed of a name that is not plain there is a backslash. -/
theorem backslash_mem_quotePath {name : PyStr} (h : name.all isPlainPoint = false) :
    '\\' ∈ quotePath name := by
  have hbytes := (plain_nameBytes name).1
  rw [h] at hbytes
  obtain ⟨b, hb, hplain⟩ := List.all_eq_false.mp hbytes
  have hquoted : '\\' ∈ quoteByte b := by
    unfold quoteByte
    rw [if_neg hplain]
    split
    · exact .head _
    · exact .head _
  unfold quotePath
  rw [if_neg (by rw [hbytes]; decide)]
  exact List.mem_cons_of_mem _ (List.mem_append_left _ (List.mem_flatMap.mpr ⟨b, hb, hquoted⟩))

theorem unbroken_quoteByte (b : UInt8) : Unbroken (quoteByte b) := by
  have hall : ∀ n < 256, (quoteByte (UInt8.ofNat n)).all fun c => !isLineBreak c := by
    decide +kernel
  intro c hc
  have hb := List.all_eq_true.mp (hall b.toNat b.toNat_lt)
  rw [UInt8.ofNat_toNat] at hb
  exact Bool.not_eq_true' _ ▸ hb c hc

/-- No line ends in a printed name. -/
theorem unbroken_quotePath (name : PyStr) : Unbroken (quotePath name) := by
  intro c hc
  unfold quotePath at hc
  dsimp only at hc
  split_ifs at hc with hall
  · obtain ⟨b, hb, rfl⟩ := List.mem_map.mp hc
    apply unbroken_quoteByte b
    rw [quoteByte, if_pos (List.all_eq_true.mp hall b hb)]
    exact .head _
  · obtain rfl | hc := List.mem_cons.mp hc
    · decide
    obtain hc | hc := List.mem_append.mp hc
    · obtain ⟨b, -, hc⟩ := List.mem_flatMap.mp hc
      exact unbroken_quoteByte b c hc
    · obtain rfl := List.mem_singleton.mp hc
      decide

/-! ### Lines of a text -/

/-- A line, stripped, if it is not blank. -/
def word (line : List Char) : Option (List Char) :=
  if stripChars line = [] then none else some (stripChars line)

/-- A line, if it is not empty. -/
def row (line : List Char) : Option (List Char) := if line = [] then none else some line

/-- `line.strip() for line in text.splitlines() if line.strip()` -/
def words (text : List Char) : List (List Char) := (splitLines [] text).filterMap word

/-- `line for line in text.splitlines() if line` -/
def rows (text : List Char) : List (List Char) := (splitLines [] text).filterMap row

/-- Lines end with a line feed only. -/
def Feeds (text : List Char) : Prop := ∀ c ∈ text, isLineBreak c = true → c = '\n'

/-- What is kept of the lines, where empty lines are not, is the same of the pieces between the line
feeds. -/
theorem filterMap_splitLines {β : Type} {f : List Char → Option β} (hnil : f [] = none)
    {text : List Char} (h : Feeds text) {line : List Char} (hline : '\n' ∉ line) :
    (splitLines line text).filterMap f = ((line.reverse ++ text).splitOn '\n').filterMap f := by
  have hwhole : ∀ {line : List Char}, '\n' ∉ line → line.reverse.splitOn '\n' = [line.reverse] :=
    fun h => List.splitOn_eq_singleton fun hmem => h (List.mem_reverse.mp hmem)
  induction text generalizing line with
  | nil =>
      rw [List.append_nil, hwhole hline, splitLines]
      split_ifs with hempty
      · rw [List.isEmpty_iff.mp hempty, List.reverse_nil, List.filterMap_cons, hnil]
      · rfl
  | cons c text ih =>
      obtain ⟨hc, htext⟩ := List.forall_mem_cons.mp h
      by_cases hbreak : isLineBreak c = true
      · obtain rfl := hc hbreak
        rw [splitLines_break hbreak line fun h => absurd h (by decide),
          List.splitOn_append_cons_self_of_not_mem fun hmem => hline (List.mem_reverse.mp hmem),
          List.filterMap_cons, List.filterMap_cons, ih htext List.not_mem_nil]
        rfl
      · have hline' : '\n' ∉ c :: line := by
          rintro (_ | ⟨_, hmem⟩)
          · exact hbreak (by decide)
          · exact hline hmem
        rw [splitLines_char hbreak, ih htext hline', List.reverse_cons, List.append_assoc,
          List.singleton_append]

theorem feeds_printNames (names : List PyStr) : Feeds (printNames names) := by
  intro c hc hbreak
  obtain ⟨name, -, hc⟩ := List.mem_flatMap.mp hc
  rcases List.mem_append.mp hc with hc | hc
  · rw [unbroken_quotePath name c hc] at hbreak
    cases hbreak
  · exact List.mem_singleton.mp hc

theorem Feeds.strip {text : List Char} (h : Feeds text) : Feeds (stripChars text) := by
  obtain ⟨a, b, htext, -, -⟩ := stripChars_parts text
  intro c hc
  apply h c
  rw [htext]
  exact List.mem_append_left _ (List.mem_append_right _ hc)

theorem Feeds.append {text text' : List Char} (h : Feeds text) (h' : Feeds text') :
    Feeds (text ++ '\n' :: text') := by
  intro c hc
  obtain hc | hc := List.mem_append.mp hc
  · exact h c hc
  · obtain rfl | hc := List.mem_cons.mp hc
    · exact fun _ => rfl
    · exact h' c hc

/-! ### Stripped lines -/

/-- The stripped pieces between the line feeds. -/
def feedWords (text : List Char) : List (List Char) := (text.splitOn '\n').filterMap word

theorem words_eq {text : List Char} (h : Feeds text) : words text = feedWords text :=
  filterMap_splitLines rfl h List.not_mem_nil

theorem feedWords_append (text text' : List Char) :
    feedWords (text ++ '\n' :: text') = feedWords text ++ feedWords text' := by
  rw [feedWords, List.splitOn_append_cons_self, List.filterMap_append]
  rfl

theorem feedWords_unbroken {line : List Char} (h : '\n' ∉ line) :
    feedWords line = (word line).toList := by
  rw [feedWords, List.splitOn_eq_singleton h, List.filterMap_cons, List.filterMap_nil]
  cases word line <;> rfl

theorem feedWords_prepend {ws : List Char} (hws : ∀ c ∈ ws, isPySpace c = true)
    (text : List Char) : feedWords (ws ++ text) = feedWords text := by
  induction ws with
  | nil => rfl
  | cons c ws ih =>
      obtain ⟨hc, hws⟩ := List.forall_mem_cons.mp hws
      rw [← ih hws, List.cons_append]
      by_cases hfeed : c = '\n'
      · rw [hfeed, ← List.nil_append ('\n' :: _), feedWords_append]
        rfl
      · obtain ⟨line, lines, hlines⟩ :=
          List.exists_cons_of_ne_nil (List.splitOn_ne_nil '\n' (ws ++ text))
        have hword : word (c :: line) = word line := by
          rw [word, word, ← List.singleton_append,
            stripChars_prepend fun d hd => List.mem_singleton.mp hd ▸ hc]
        rw [feedWords, feedWords, List.splitOn_cons_eq_if_modifyHead, hlines,
          if_neg (by simpa using hfeed), List.modifyHead_cons, List.filterMap_cons, hword,
          List.filterMap_cons]

/-- A text is its last line, or that after a line feed. -/
theorem exists_lastLine (text : List Char) : ∃ front line, '\n' ∉ line ∧
    (text = line ∨ text = front ++ '\n' :: line) := by
  induction text using List.reverseRecOn with
  | nil => exact ⟨[], [], List.not_mem_nil, .inl rfl⟩
  | append_singleton text c ih =>
      by_cases hc : c = '\n'
      · exact ⟨text, [], List.not_mem_nil, .inr (by rw [hc])⟩
      · obtain ⟨front, line, hline, htext⟩ := ih
        refine ⟨front, line ++ [c], ?_, htext.imp ?_ ?_⟩
        · rw [List.mem_append, List.mem_singleton]
          exact not_or.mpr ⟨hline, fun h => hc h.symm⟩
        · rintro rfl
          rfl
        · rintro rfl
          rw [List.append_assoc, List.cons_append]

theorem feedWords_append_space {ws : List Char} (hws : ∀ c ∈ ws, isPySpace c = true)
    (text : List Char) : feedWords (text ++ ws) = feedWords text := by
  induction ws generalizing text with
  | nil => rw [List.append_nil]
  | cons c ws ih =>
      obtain ⟨hc, hws⟩ := List.forall_mem_cons.mp hws
      rw [← List.singleton_append, ← List.append_assoc, ih hws]
      by_cases hfeed : c = '\n'
      · rw [hfeed, feedWords_append]
        exact List.append_nil _
      · obtain ⟨front, line, hline, htext⟩ := exists_lastLine text
        have hline' : '\n' ∉ line ++ [c] := by
          rw [List.mem_append, List.mem_singleton]
          exact not_or.mpr ⟨hline, fun h => hfeed h.symm⟩
        have hword : feedWords (line ++ [c]) = feedWords line := by
          rw [feedWords_unbroken hline', feedWords_unbroken hline, word, word,
            stripChars_append fun d hd => List.mem_singleton.mp hd ▸ hc]
        obtain rfl | rfl := htext
        · exact hword
        · rw [List.append_assoc, List.cons_append, feedWords_append, hword, feedWords_append]

theorem feedWords_strip (text : List Char) : feedWords (stripChars text) = feedWords text := by
  obtain ⟨a, b, htext, ha, hb⟩ := stripChars_parts text
  conv_rhs => rw [htext, feedWords_append_space hb, feedWords_prepend ha]

theorem feedWords_printNames (names : List PyStr) :
    feedWords (printNames names) = names.filterMap fun name => word (quotePath name) := by
  induction names with
  | nil => rfl
  | cons name names ih =>
      have hfeed : '\n' ∉ quotePath name := by
        intro h
        have := unbroken_quotePath name _ h
        revert this
        decide
      rw [printNames, List.flatMap_cons, List.append_assoc, List.singleton_append,
        feedWords_append, feedWords_unbroken hfeed, List.filterMap_cons]
      rw [printNames] at ih
      rw [ih]
      cases word (quotePath name) <;> rfl

/-- **The stripped lines of two lists of names are the stripped names.** -/
theorem words_printNames (names names' : List PyStr) :
    words (stripChars (printNames names) ++ '\n' :: stripChars (printNames names')) =
      (names ++ names').filterMap fun name => word (quotePath name) := by
  rw [words_eq ((feeds_printNames names).strip.append (feeds_printNames names').strip),
    feedWords_append, feedWords_strip, feedWords_strip, feedWords_printNames,
    feedWords_printNames, List.filterMap_append]

/-! ### Whole lines -/

/-- A line with something in it, from which nothing is stripped. -/
structure Trim (line : List Char) : Prop where
  ne_nil : line ≠ []
  head : ∀ c ∈ line.head?, isPySpace c = false
  last : ∀ c ∈ line.getLast?, isPySpace c = false

theorem Trim.strip {line : List Char} (h : Trim line) : stripChars line = line :=
  stripChars_eq_self h.head h.last

theorem trim_intercalate {line : List Char} {lines : List (List Char)}
    (h : ∀ l ∈ line :: lines, Trim l) : Trim (['\n'].intercalate (line :: lines)) := by
  induction lines generalizing line with
  | nil => exact List.intercalate_singleton ▸ h line (.head _)
  | cons line' lines ih =>
      have hline := h line (.head _)
      have hrest := ih fun l hl => h l (.tail _ hl)
      rw [List.intercalate_cons_cons, List.append_assoc]
      constructor
      · exact fun hnil => hline.ne_nil (List.append_eq_nil_iff.mp hnil).1
      · rw [List.head?_append_of_ne_nil _ hline.ne_nil]
        exact hline.head
      · rw [List.getLast?_append_of_ne_nil _ (by simp), List.getLast?_append_of_ne_nil _ hrest.ne_nil]
        exact hrest.last

theorem flatMap_feed (line : List Char) (lines : List (List Char)) :
    ((line :: lines).flatMap fun l => l ++ ['\n']) =
      ['\n'].intercalate (line :: lines) ++ ['\n'] := by
  induction lines generalizing line with
  | nil => rw [List.intercalate_singleton, List.flatMap_singleton]
  | cons line' lines ih =>
      rw [List.flatMap_cons, ih line', List.intercalate_cons_cons]
      simp only [List.append_assoc]

theorem filterMap_row {lines : List (List Char)} (h : ∀ l ∈ lines, Trim l) :
    lines.filterMap row = lines := by
  induction lines with
  | nil => rfl
  | cons line lines ih =>
      obtain ⟨hline, hlines⟩ := List.forall_mem_cons.mp h
      rw [List.filterMap_cons, row, if_neg hline.ne_nil, ih hlines]

/-- **The lines of a list of names are the names, if nothing is stripped from them.** -/
theorem rows_printNames {names : List PyStr} (h : ∀ name ∈ names, Trim (quotePath name)) :
    rows (stripChars (printNames names)) = names.map quotePath := by
  cases names with
  | nil => rfl
  | cons name names =>
      have htrim : ∀ line ∈ (name :: names).map quotePath, Trim line := List.forall_mem_map.mpr h
      have hfeed : ∀ line ∈ (name :: names).map quotePath, '\n' ∉ line := by
        rw [List.forall_mem_map]
        intro name' _ hmem
        have := unbroken_quotePath name' _ hmem
        revert this
        decide
      have htext : printNames (name :: names) =
          ['\n'].intercalate ((name :: names).map quotePath) ++ ['\n'] := by
        rw [List.map_cons, ← flatMap_feed, ← List.map_cons, List.flatMap_map]
        rfl
      have hstrip : stripChars (printNames (name :: names)) =
          ['\n'].intercalate ((name :: names).map quotePath) := by
        rw [htext, stripChars_append fun c hc => List.mem_singleton.mp hc ▸ rfl]
        exact (trim_intercalate htrim).strip
      have hrows := @filterMap_splitLines _ row rfl _ (feeds_printNames (name :: names)).strip []
        List.not_mem_nil
      rw [rows, hrows, hstrip, List.reverse_nil, List.nil_append,
        List.splitOn_intercalate '\n' hfeed (by simp), filterMap_row htrim]

end Konoha.GitNames
