/-
Terminal/Reader.lean

The two sources of lines of `TerminalTurnReader`: the buffer over `os.read`, and the text stream
without a file descriptor.

What the buffer gives depends only on the bytes up to the end of input (`readLineBlocking_remaining`),
however they are cut into chunks.  The text stream is read by `readline`, and its lines are
stripped of every carriage return at their end, where the buffer drops the one before the line
feed (`framed_iff`).
-/
import KonohaRuntime.Terminal.Lines
import KonohaRuntime.Base.Utf8

namespace Konoha.Terminal

open Utf8

/-! ### Up to a separator -/

section Separator

variable {α : Type} [DecidableEq α] {a : α} {l : List α}

theorem forall_ne_of_notMem (h : a ∉ l) : ∀ b ∈ l, decide (b ≠ a) = true := by
  intro b hb
  rw [decide_eq_true_eq]
  rintro rfl
  exact h hb

theorem takeWhile_separator (h : a ∉ l) (rest : List α) :
    (l ++ a :: rest).takeWhile (· ≠ a) = l := by
  rw [List.takeWhile_append_of_pos (forall_ne_of_notMem h)]
  simp

theorem dropWhile_separator (h : a ∉ l) (rest : List α) :
    (l ++ a :: rest).dropWhile (· ≠ a) = a :: rest := by
  rw [List.dropWhile_append_of_pos (forall_ne_of_notMem h)]
  simp

end Separator

/-! ### The buffer over a file descriptor -/

/-- What `os.read` does: bytes, or `OSError` with `EIO` because the other side is gone.  No
bytes are the end of input. -/
inductive Chunk
  | bytes (bs : List UInt8)
  | eio

/-- The reader, and what `os.read` will do; it gives no bytes from then on. -/
structure TurnReader where
  buffer : List UInt8
  eof : Bool
  reads : List Chunk

/-- A reader over chunks that are still to come. -/
def TurnReader.start (reads : List Chunk) : TurnReader := ⟨[], false, reads⟩

/-- `b"\n"` and `b"\r"` -/
def newline : UInt8 := UInt8.ofNat '\n'.toNat

def carriageReturn : UInt8 := UInt8.ofNat '\r'.toNat

/-- `raw[:-1]` if it ends with `b"\r"` -/
def dropReturn (raw : List UInt8) : List UInt8 :=
  if raw.getLast? = some carriageReturn then raw.dropLast else raw

/-- `_extract_line`, with the buffer that is left -/
def extractLine (buffer : List UInt8) : Option (String × List UInt8) :=
  if newline ∈ buffer then
    some (String.ofList (decodeReplace (dropReturn (buffer.takeWhile (· ≠ newline)))),
      (buffer.dropWhile (· ≠ newline)).drop 1)
  else none

/-- `_read_chunk` -/
def readChunk (r : TurnReader) : TurnReader :=
  match r.reads with
  | [] => { r with eof := true }
  | .eio :: reads | .bytes [] :: reads => { r with eof := true, reads := reads }
  | .bytes (b :: bs) :: reads => { r with buffer := r.buffer ++ b :: bs, reads := reads }

theorem readChunk_lt {r : TurnReader} (h : ¬ r.eof = true) :
    (if (readChunk r).eof then 0 else (readChunk r).reads.length + 1) <
      if r.eof then 0 else r.reads.length + 1 := by
  rw [if_neg h]
  unfold readChunk
  split
  · simp
  · simp
  · simp
  · next hreads =>
      rw [hreads]
      simp [h]

/-- `_read_line_blocking` with a file descriptor -/
def readLineBlocking (r : TurnReader) : Option String × TurnReader :=
  match extractLine r.buffer with
  | some (line, buffer) => (some line, { r with buffer := buffer })
  | none =>
      if _h : r.eof then
        if r.buffer = [] then (none, r)
        else (some (String.ofList (decodeReplace r.buffer)), { r with buffer := [] })
      else readLineBlocking (readChunk r)
termination_by if r.eof then 0 else r.reads.length + 1
decreasing_by exact readChunk_lt ‹_›

/-! ### The bytes that count -/

/-- The bytes up to the end of input. -/
def received : List Chunk → List UInt8
  | [] | .eio :: _ | .bytes [] :: _ => []
  | .bytes (b :: bs) :: reads => (b :: bs) ++ received reads

/-- The bytes of the stream that are still to be given as lines. -/
def TurnReader.remaining (r : TurnReader) : List UInt8 :=
  r.buffer ++ if r.eof then [] else received r.reads

theorem remaining_readChunk {r : TurnReader} (h : ¬ r.eof = true) :
    (readChunk r).remaining = r.remaining := by
  unfold TurnReader.remaining readChunk
  rw [if_neg h]
  split
  · next hreads => simp [hreads, received]
  · next hreads => simp [hreads, received]
  · next hreads => simp [hreads, received]
  · next hreads => simp [hreads, received, h]

/-- The next line of a stream of bytes, and the bytes after it. -/
def nextBytes (bs : List UInt8) : Option String × List UInt8 :=
  match extractLine bs with
  | some (line, rest) => (some line, rest)
  | none => if bs = [] then (none, []) else (some (String.ofList (decodeReplace bs)), [])

theorem extractLine_newline {line : List UInt8} (h : newline ∉ line) (rest : List UInt8) :
    extractLine (line ++ newline :: rest) =
      some (String.ofList (decodeReplace (dropReturn line)), rest) := by
  rw [extractLine, if_pos (List.mem_append_right _ List.mem_cons_self), takeWhile_separator h,
    dropWhile_separator h]
  rfl

theorem extractLine_none {bs : List UInt8} (h : newline ∉ bs) : extractLine bs = none := if_neg h

/-- A line that is complete in the buffer is the next one of the stream. -/
theorem extractLine_append {buffer rest : List UInt8} {line : String}
    (h : extractLine buffer = some (line, rest)) (more : List UInt8) :
    extractLine (buffer ++ more) = some (line, rest ++ more) := by
  by_cases hmem : newline ∈ buffer
  · obtain ⟨as, bs, rfl, has⟩ := List.eq_append_cons_of_mem hmem
    rw [extractLine_newline has] at h
    cases h
    rw [List.append_assoc, List.cons_append, extractLine_newline has]
  · rw [extractLine_none hmem] at h
    cases h

/-- What the reader gives depends on the bytes only. -/
theorem readLineBlocking_remaining (r : TurnReader) :
    (readLineBlocking r).1 = (nextBytes r.remaining).1 ∧
      (readLineBlocking r).2.remaining = (nextBytes r.remaining).2 := by
  induction r using readLineBlocking.induct with
  | case1 r line buffer hline =>
      rw [readLineBlocking, hline]
      have hstream := extractLine_append hline (if r.eof then [] else received r.reads)
      rw [nextBytes, TurnReader.remaining, hstream]
      exact ⟨rfl, rfl⟩
  | case2 r hline heof hempty =>
      have hremaining : r.remaining = [] := by simp [TurnReader.remaining, heof, hempty]
      rw [readLineBlocking, hline]
      dsimp only
      rw [dif_pos heof, if_pos hempty, hremaining]
      exact ⟨rfl, rfl⟩
  | case3 r hline heof hbuffer =>
      have hremaining : r.remaining = r.buffer := by simp [TurnReader.remaining, heof]
      rw [readLineBlocking, hline]
      dsimp only
      rw [dif_pos heof, if_neg hbuffer, hremaining, nextBytes, hline]
      dsimp only
      rw [if_neg hbuffer]
      exact ⟨rfl, by simp [TurnReader.remaining, heof]⟩
  | case4 r hline heof ih =>
      rw [readLineBlocking, hline]
      dsimp only
      rw [dif_neg heof, ← remaining_readChunk heof]
      exact ih

theorem nextBytes_lt {bs rest : List UInt8} {line : String}
    (h : nextBytes bs = (some line, rest)) : rest.length < bs.length := by
  unfold nextBytes at h
  by_cases hmem : newline ∈ bs
  · obtain ⟨as, ds, rfl, has⟩ := List.eq_append_cons_of_mem hmem
    rw [extractLine_newline has] at h
    cases h
    rw [List.length_append, List.length_cons]
    omega
  · rw [extractLine_none hmem] at h
    dsimp only at h
    split_ifs at h with hempty
    · cases h
    · obtain rfl : [] = rest := congrArg Prod.snd h
      exact List.length_pos_iff.mpr hempty

/-- The reader with a file descriptor. -/
def descriptor : LineSource TurnReader where
  next := readLineBlocking
  size r := r.remaining.length
  next_lt r line r' h := by
    obtain ⟨hline, hrest⟩ := readLineBlocking_remaining r
    rw [h] at hline hrest
    exact hrest ▸ nextBytes_lt (Prod.ext hline.symm rfl)

/-! ### The text stream -/

/-- `line.rstrip("\r\n")` -/
def rstripReturns (line : List Char) : List Char := line.rdropWhile fun c => c = '\r' ∨ c = '\n'

/-- `stream.readline()` -/
def readline (text : List Char) : List Char × List Char :=
  (text.takeWhile (· ≠ '\n') ++ (text.dropWhile (· ≠ '\n')).take 1,
    (text.dropWhile (· ≠ '\n')).drop 1)

/-- `_read_line_blocking` without a file descriptor -/
def nextText (text : List Char) : Option String × List Char :=
  match readline text with
  | ([], rest) => (none, rest)
  | (line, rest) => (some (String.ofList (rstripReturns line)), rest)

theorem readline_newline {line : List Char} (h : '\n' ∉ line) (rest : List Char) :
    readline (line ++ '\n' :: rest) = (line ++ ['\n'], rest) := by
  rw [readline, takeWhile_separator h, dropWhile_separator h]
  rfl

theorem readline_last {text : List Char} (h : '\n' ∉ text) : readline text = (text, []) := by
  rw [readline, List.takeWhile_eq_self_iff.mpr (forall_ne_of_notMem h),
    List.dropWhile_eq_nil_iff.mpr (forall_ne_of_notMem h)]
  exact Prod.ext (List.append_nil text) rfl

theorem nextText_newline {line : List Char} (h : '\n' ∉ line) (rest : List Char) :
    nextText (line ++ '\n' :: rest) = (some (String.ofList (rstripReturns line)), rest) := by
  rw [nextText, readline_newline h]
  split
  · next heq => simp at heq
  · next heq =>
      cases heq
      rw [rstripReturns, List.rdropWhile_concat_pos]
      · rfl
      · simp

theorem nextText_last {text : List Char} (h : '\n' ∉ text) (hne : text ≠ []) :
    nextText text = (some (String.ofList (rstripReturns text)), []) := by
  rw [nextText, readline_last h]
  split
  · next heq =>
      cases heq
      exact absurd rfl hne
  · next heq =>
      cases heq
      rfl

/-- The reader without a file descriptor. -/
def textStream : LineSource (List Char) where
  next := nextText
  size := List.length
  next_lt text line text' h := by
    by_cases hmem : '\n' ∈ text
    · obtain ⟨as, bs, rfl, has⟩ := List.eq_append_cons_of_mem hmem
      rw [nextText_newline has] at h
      cases h
      rw [List.length_append, List.length_cons]
      omega
    · by_cases hempty : text = []
      · subst hempty
        cases h
      · rw [nextText_last hmem hempty] at h
        cases h
        exact List.length_pos_iff.mpr hempty

/-! ### The lines of a text -/

/-- The lines that end with a line feed, and what comes after the last of them. -/
def splitText : List Char → List (List Char) × List Char
  | [] => ([], [])
  | c :: cs =>
      match splitText cs with
      | (lines, last) =>
          if c = '\n' then ([] :: lines, last)
          else match lines with
            | [] => ([], c :: last)
            | line :: lines => ((c :: line) :: lines, last)

/-- The line without the carriage return before its line feed. -/
def dropReturnChars (line : List Char) : List Char :=
  if line.getLast? = some '\r' then line.dropLast else line

/-- What comes after the last line feed is a line as well, unless it is empty. -/
def lastLine (last : List Char) : List String := if last = [] then [] else [String.ofList last]

/-- The lines of a text, CRLF being one separator. -/
def framedLines (text : List Char) : List String :=
  (splitText text).1.map (fun line => String.ofList (dropReturnChars line)) ++
    lastLine (splitText text).2

/-- The lines of a text as the text stream gives them. -/
def strippedLines (text : List Char) : List String :=
  (splitText text).1.map (fun line => String.ofList (rstripReturns line)) ++
    if (splitText text).2 = [] then [] else [String.ofList (rstripReturns (splitText text).2)]

theorem splitText_newline {line : List Char} (h : '\n' ∉ line) (rest : List Char) :
    splitText (line ++ '\n' :: rest) = (line :: (splitText rest).1, (splitText rest).2) := by
  induction line with
  | nil => rfl
  | cons c line ih =>
      have hc : c ≠ '\n' := fun hc => h (List.mem_cons.mpr (.inl hc.symm))
      rw [List.cons_append, splitText, ih fun hmem => h (List.mem_cons_of_mem c hmem)]
      exact if_neg hc

theorem splitText_last {text : List Char} (h : '\n' ∉ text) : splitText text = ([], text) := by
  induction text with
  | nil => rfl
  | cons c cs ih =>
      have hc : c ≠ '\n' := fun hc => h (List.mem_cons.mpr (.inl hc.symm))
      rw [splitText, ih fun hmem => h (List.mem_cons_of_mem c hmem)]
      exact if_neg hc

/-- No line of `splitText` has a line feed in it. -/
theorem notMem_splitText (text : List Char) :
    (∀ line ∈ (splitText text).1, '\n' ∉ line) ∧ '\n' ∉ (splitText text).2 := by
  induction hlen : text.length using Nat.strong_induction_on generalizing text with
  | h n ih =>
      by_cases hmem : '\n' ∈ text
      · obtain ⟨as, bs, rfl, has⟩ := List.eq_append_cons_of_mem hmem
        obtain ⟨hlines, hlast⟩ := ih bs.length (by
          rw [← hlen, List.length_append, List.length_cons]
          omega) bs rfl
        rw [splitText_newline has]
        exact ⟨List.forall_mem_cons.mpr ⟨has, hlines⟩, hlast⟩
      · rw [splitText_last hmem]
        exact ⟨fun _ h => (nomatch h), hmem⟩

theorem decode_dropReturn (line : List Char) :
    decodeReplace (dropReturn (encode line)) = dropReturnChars line := by
  have hreturn : '\r'.toNat < 128 := by decide
  have hlast : (encode line).getLast? = some carriageReturn ↔ line.getLast? = some '\r' :=
    getLast?_encode hreturn line
  unfold dropReturn dropReturnChars
  by_cases h : line.getLast? = some '\r'
  · rw [if_pos h, if_pos (hlast.mpr h)]
    obtain ⟨as, rfl⟩ : ∃ as, line = as ++ ['\r'] := List.getLast?_eq_some_iff.mp h
    rw [dropLast_encode hreturn, decodeReplace_encode, List.dropLast_concat]
  · rw [if_neg h, if_neg fun hbytes => h (hlast.mp hbytes), decodeReplace_encode]

/-- The reader over a stream of bytes gives the lines of the text. -/
theorem simulates_descriptor :
    Simulates descriptor ofList fun r lines =>
      ∃ text, r.remaining = encode text ∧ lines = framedLines text := by
  rintro r lines ⟨text, hbytes, rfl⟩
  obtain ⟨hline, hrest⟩ := readLineBlocking_remaining r
  rw [hbytes] at hline hrest
  have hnewline : '\n'.toNat < 128 := by decide
  change (readLineBlocking r).1 = _ ∧ ∃ text', (readLineBlocking r).2.remaining = _ ∧ _
  rw [hline, hrest]
  by_cases hmem : '\n' ∈ text
  · obtain ⟨as, bs, rfl, has⟩ := List.eq_append_cons_of_mem hmem
    have hbyte : newline ∉ encode as := fun h => has ((byte_mem_encode hnewline).mp h)
    have hsplit : encode (as ++ '\n' :: bs) = encode as ++ newline :: encode bs := by
      rw [encode_append, encode_cons, utf8EncodeChar_ascii hnewline]
      rfl
    rw [hsplit, nextBytes, extractLine_newline hbyte, decode_dropReturn, framedLines,
      splitText_newline has]
    exact ⟨rfl, bs, rfl, rfl⟩
  · have hbyte : newline ∉ encode text := fun h => hmem ((byte_mem_encode hnewline).mp h)
    rw [nextBytes, extractLine_none hbyte, framedLines, splitText_last hmem]
    by_cases hempty : text = []
    · subst hempty
      exact ⟨rfl, [], rfl, rfl⟩
    · have hne : encode text ≠ [] := by
        intro henc
        apply hempty
        rw [← decodeReplace_encode text, henc, ← encode_nil, decodeReplace_encode]
      dsimp only
      rw [if_neg hne, decodeReplace_encode, lastLine, if_neg hempty]
      exact ⟨rfl, [], rfl, rfl⟩

theorem simulates_textStream :
    Simulates textStream ofList fun text lines => lines = strippedLines text := by
  rintro text lines rfl
  change (nextText text).1 = _ ∧ _ = strippedLines (nextText text).2
  by_cases hmem : '\n' ∈ text
  · obtain ⟨as, bs, rfl, has⟩ := List.eq_append_cons_of_mem hmem
    rw [nextText_newline has, strippedLines, splitText_newline has]
    exact ⟨rfl, rfl⟩
  · by_cases hempty : text = []
    · subst hempty
      exact ⟨rfl, rfl⟩
    · rw [nextText_last hmem hempty, strippedLines, splitText_last hmem]
      dsimp only
      rw [if_neg hempty]
      exact ⟨rfl, rfl⟩

/-! ### When the two agree -/

/-- A line that ends with a line feed has at most one carriage return before it, and the last
line, without a line feed, does not end with one. -/
structure PlainReturns (text : List Char) : Prop where
  lines : ∀ line ∈ (splitText text).1, ¬ ['\r', '\r'] <:+ line
  last : (splitText text).2.getLast? ≠ some '\r'

theorem rstripReturns_eq_self_iff {line : List Char} (h : '\n' ∉ line) :
    rstripReturns line = line ↔ line.getLast? ≠ some '\r' := by
  rw [rstripReturns, List.rdropWhile_eq_self_iff]
  constructor
  · intro hlast hreturn
    have hne : line ≠ [] := by
      rintro rfl
      cases hreturn
    apply hlast hne
    rw [List.getLast?_eq_some_getLast hne, Option.some_inj] at hreturn
    rw [hreturn]
    decide
  · intro hlast hne
    rw [decide_eq_true_eq]
    rintro (hreturn | hnewline)
    · apply hlast
      rw [List.getLast?_eq_some_getLast hne, hreturn]
    · exact h (hnewline ▸ List.getLast_mem hne)

theorem dropReturnChars_eq_iff {line : List Char} (h : '\n' ∉ line) :
    rstripReturns line = dropReturnChars line ↔ ¬ ['\r', '\r'] <:+ line := by
  by_cases hreturn : line.getLast? = some '\r'
  · obtain ⟨as, rfl⟩ : ∃ as, line = as ++ ['\r'] := List.getLast?_eq_some_iff.mp hreturn
    have has : '\n' ∉ as := fun hmem => h (List.mem_append_left _ hmem)
    have hdrop : rstripReturns (as ++ ['\r']) = rstripReturns as :=
      List.rdropWhile_concat_pos _ _ _ (by decide)
    rw [dropReturnChars, if_pos hreturn, List.dropLast_concat, hdrop,
      rstripReturns_eq_self_iff has, ne_eq, not_iff_not, List.getLast?_eq_some_iff]
    constructor
    · rintro ⟨bs, rfl⟩
      exact ⟨bs, by simp⟩
    · rintro ⟨bs, hbs⟩
      refine ⟨bs, ?_⟩
      have hcut := congrArg List.dropLast hbs
      rw [List.dropLast_concat] at hcut
      rw [← hcut]
      simp
  · rw [dropReturnChars, if_neg hreturn, rstripReturns_eq_self_iff h]
    refine iff_of_true hreturn ?_
    rintro ⟨bs, rfl⟩
    simp at hreturn

theorem strippedLines_eq_iff (text : List Char) :
    strippedLines text = framedLines text ↔ PlainReturns text := by
  have hlines : (splitText text).1.map (fun line => String.ofList (rstripReturns line)) =
      (splitText text).1.map (fun line => String.ofList (dropReturnChars line)) ↔
        ∀ line ∈ (splitText text).1, ¬ ['\r', '\r'] <:+ line := by
    rw [List.map_inj_left]
    refine forall₂_congr fun line hline => ?_
    rw [String.ofList_inj, dropReturnChars_eq_iff ((notMem_splitText text).1 _ hline)]
  have hlast : (if (splitText text).2 = [] then []
      else [String.ofList (rstripReturns (splitText text).2)]) = lastLine (splitText text).2 ↔
        (splitText text).2.getLast? ≠ some '\r' := by
    unfold lastLine
    split_ifs with hempty
    · simp [hempty]
    · rw [List.singleton_inj, String.ofList_inj, rstripReturns_eq_self_iff (notMem_splitText text).2]
  constructor
  · intro h
    obtain ⟨h₁, h₂⟩ := List.append_inj h (by rw [List.length_map, List.length_map])
    exact ⟨hlines.mp h₁, hlast.mp h₂⟩
  · rintro ⟨h₁, h₂⟩
    rw [strippedLines, framedLines, hlines.mpr h₁, hlast.mpr h₂]

/-- The values of the calls of a reader of bytes, however they are cut, are those over the lines
of the text, and the values of a reader of the text are the same. -/
structure Framed (casefold : String → String) (text : List Char) : Prop where
  chunks : ∀ reads, received reads = encode text → ∀ cs,
    values casefold descriptor cs (.start reads) = valuesOf casefold cs (framedLines text)
  agree : ∀ cs, values casefold textStream cs text = valuesOf casefold cs (framedLines text)

theorem values_descriptor (casefold : String → String) {text : List Char} {reads : List Chunk}
    (h : received reads = encode text) (cs : List Call) :
    values casefold descriptor cs (.start reads) = valuesOf casefold cs (framedLines text) := by
  rw [← values_ofList]
  exact simulates_descriptor.values casefold cs ⟨text, h, rfl⟩

theorem values_textStream (casefold : String → String) (text : List Char) (cs : List Call) :
    values casefold textStream cs text = valuesOf casefold cs (strippedLines text) := by
  rw [← values_ofList]
  exact simulates_textStream.values casefold cs rfl

/-- The two paths of the reader give the same values exactly for the texts without a carriage
return that only one of them drops. -/
theorem framed_iff (casefold : String → String) (text : List Char) :
    Framed casefold text ↔ PlainReturns text := by
  rw [← strippedLines_eq_iff]
  constructor
  · rintro ⟨-, hagree⟩
    apply eq_of_valuesOf_eq
    intro cs
    rw [← values_textStream]
    exact hagree cs
  · intro hlines
    refine ⟨fun reads h => values_descriptor casefold h, fun cs => ?_⟩
    rw [values_textStream, hlines]

/-- A line with two carriage returns before its line feed keeps one of them only when it comes
from a file descriptor. -/
theorem twoReturns_not_framed :
    ¬ ∃ casefold, Framed casefold ['a', '\r', '\r', '\n'] := by
  rintro ⟨casefold, -, hagree⟩
  have hline := hagree [.exactLine]
  rw [values_textStream] at hline
  have hhead : (strippedLines ['a', '\r', '\r', '\n']).head? =
      (framedLines ['a', '\r', '\r', '\n']).head? := Value.line.inj (List.cons.inj hline).1
  exact absurd hhead (by decide)

end Konoha.Terminal
