/-
Base/TomlKeys.lean

The lines on which a TOML document defines its keys.  Its characters are cut into tokens (`scan`),
and the tokens are read as headers of tables, keys and values, with a stack of the braces and
brackets that are open (`Reader.step`).  A key is told by its path from the root, be it through
headers, dotted keys or tables in braces; what is inside an array has no path.

What is read is meant to be a document, so nothing is refused.  A key, its equals sign and the
start of its value stand on one line, and that is the line of the sign (`definition_line`).
-/
import KonohaRuntime.Base.Text

namespace Konoha.Toml

/-! ### Tokens -/

inductive Token
  | word (name : String)
  /-- a string on one line -/
  | text (value : String)
  /-- a string of several lines -/
  | block
  | dot
  | equals
  | comma
  | openBracket
  | closeBracket
  | openBrace
  | closeBrace
  | newline
  deriving DecidableEq

def apostrophe : Char := Char.ofNat 39

/-- Where a character stands; what is read of a word or a string comes last first. -/
inductive Mode
  | plain (word : List Char)
  | comment
  | text (quote : Char) (done : List Char)
  /-- after a backslash -/
  | escape (done : List Char)
  /-- in `\uXXXX` or `\UXXXXXXXX`, with the number of digits to come and the value so far -/
  | code (done : List Char) (left value : Nat)
  /-- in the three quotes before a string of several lines -/
  | opening (quote : Char) (left : Nat)
  /-- in a string of several lines, after so many quotes -/
  | block (quote : Char) (quotes : Nat)
  | blockEscape (quote : Char)

def punctuation (c : Char) : Option Token :=
  match c with
  | '.' => some .dot
  | '=' => some .equals
  | ',' => some .comma
  | '[' => some .openBracket
  | ']' => some .closeBracket
  | '\x7b' => some .openBrace
  | '\x7d' => some .closeBrace
  | '\n' => some .newline
  | _ => none

/-- The word that ends here. -/
def ended (word : List Char) : List Token :=
  if word.isEmpty then [] else [.word (String.ofList word.reverse)]

def plainStep (word : List Char) (c : Char) (rest : List Char) : Mode × List Token :=
  match punctuation c with
  | some token => (.plain [], ended word ++ [token])
  | none =>
      if c = '#' then (.comment, ended word)
      else if c = '"' ∨ c = apostrophe then
        (if [c, c].isPrefixOf rest then .opening c 2 else .text c [], ended word)
      else if c = ' ' ∨ c = '\t' ∨ c = '\r' then (.plain [], ended word)
      else (.plain (c :: word), [])

/-- What a backslash and a letter stand for. -/
def unescaped (c : Char) : Char :=
  match c with
  | 'b' => Char.ofNat 8
  | 't' => '\t'
  | 'n' => '\n'
  | 'f' => Char.ofNat 12
  | 'r' => '\r'
  | 'e' => Char.ofNat 27
  | c => c

def digit (c : Char) : Nat :=
  if c ≤ '9' then c.toNat - 48 else if c ≤ 'F' then c.toNat - 55 else c.toNat - 87

/-- One character, with those after it: where the next one stands, and the tokens that are over. -/
def Mode.step (mode : Mode) (c : Char) (rest : List Char) : Mode × List Token :=
  match mode with
  | .plain word => plainStep word c rest
  | .comment => if c = '\n' then (.plain [], [.newline]) else (.comment, [])
  | .text quote done =>
      if c = quote then (.plain [], [.text (String.ofList done.reverse)])
      else if c = '\\' ∧ quote = '"' then (.escape done, [])
      else (.text quote (c :: done), [])
  | .escape done =>
      if c = 'u' then (.code done 4 0, [])
      else if c = 'U' then (.code done 8 0, [])
      else (.text '"' (unescaped c :: done), [])
  | .code done left value =>
      if left = 1 then (.text '"' (Char.ofNat (16 * value + digit c) :: done), [])
      else (.code done (left - 1) (16 * value + digit c), [])
  | .opening quote left =>
      if left = 1 then (.block quote 0, []) else (.opening quote (left - 1), [])
  | .block quote quotes =>
      if c = quote then (.block quote (quotes + 1), [])
      else if 3 ≤ quotes then ((plainStep [] c rest).1, .block :: (plainStep [] c rest).2)
      else if c = '\\' ∧ quote = '"' then (.blockEscape quote, [])
      else (.block quote 0, [])
  | .blockEscape quote => (.block quote 0, [])

/-- The tokens that the end of the text is the end of. -/
def Mode.finish : Mode → List Token
  | .plain word => ended word
  | .block _ quotes => if 3 ≤ quotes then [.block] else []
  | _ => []

/-- The tokens of a text that starts on the given line, each with the line on which it ends. -/
def scan (mode : Mode) (line : Nat) : List Char → List (Token × Nat)
  | [] => mode.finish.map fun token => (token, line)
  | c :: rest =>
      ((mode.step c rest).2.map fun token => (token, line)) ++
        scan (mode.step c rest).1 (if c = '\n' then line + 1 else line) rest

theorem equals_notMem_ended (word : List Char) : Token.equals ∉ ended word := by
  unfold ended
  split_ifs
  · exact List.not_mem_nil
  · exact fun h => Token.noConfusion (List.mem_singleton.mp h)

theorem eq_of_punctuation {c : Char} (h : punctuation c = some .equals) : c = '=' := by
  unfold punctuation at h
  split at h <;> first | rfl | cases h

theorem eq_of_mem_plainStep {word rest : List Char} {c : Char}
    (h : Token.equals ∈ (plainStep word c rest).2) : c = '=' := by
  unfold plainStep at h
  split at h
  · next token htoken =>
    rcases List.mem_append.mp h with h | h
    · exact absurd h (equals_notMem_ended word)
    · exact eq_of_punctuation (htoken.trans (congrArg some (List.mem_singleton.mp h).symm))
  · split_ifs at h
    all_goals first
      | exact absurd h (equals_notMem_ended word)
      | exact absurd h List.not_mem_nil

/-- An equals sign is a token of its own character only. -/
theorem eq_of_mem_step {mode : Mode} {c : Char} {rest : List Char}
    (h : Token.equals ∈ (mode.step c rest).2) : c = '=' := by
  cases mode with
  | plain word => exact eq_of_mem_plainStep h
  | block quote quotes =>
      rw [Mode.step] at h
      split_ifs at h
      · exact absurd h List.not_mem_nil
      · exact eq_of_mem_plainStep ((List.mem_cons.mp h).resolve_left Token.noConfusion)
      · exact absurd h List.not_mem_nil
      · exact absurd h List.not_mem_nil
  | blockEscape quote => exact absurd h List.not_mem_nil
  | _ =>
      rw [Mode.step] at h
      split_ifs at h <;> simp at h

theorem equals_notMem_finish (mode : Mode) : Token.equals ∉ mode.finish := by
  unfold Mode.finish
  split
  · exact equals_notMem_ended _
  · split_ifs <;> simp
  · exact List.not_mem_nil

/-- The line of an equals sign is told by the newlines before it. -/
theorem line_of_mem_scan {mode : Mode} {text : List Char} {line n : Nat}
    (h : (Token.equals, n) ∈ scan mode line text) :
    ∃ pre post, text = pre ++ '=' :: post ∧ n = line + pre.count '\n' := by
  induction text generalizing mode line with
  | nil =>
      obtain ⟨token, htoken, heq⟩ := List.mem_map.mp h
      exact absurd ((Prod.mk.inj heq).1 ▸ htoken) (equals_notMem_finish mode)
  | cons c rest ih =>
      rcases List.mem_append.mp h with h | h
      · obtain ⟨token, htoken, heq⟩ := List.mem_map.mp h
        obtain ⟨rfl, rfl⟩ := Prod.mk.inj heq
        obtain rfl := eq_of_mem_step htoken
        exact ⟨[], rest, rfl, rfl⟩
      · obtain ⟨pre, post, rfl, hn⟩ := ih h
        refine ⟨c :: pre, post, rfl, ?_⟩
        rw [List.count_cons]
        by_cases hc : c = '\n'
        · rw [if_pos hc] at hn
          rw [if_pos (beq_iff_eq.mpr hc)]
          omega
        · rw [if_neg hc] at hn
          rw [if_neg fun heq => hc (beq_iff_eq.mp heq)]
          omega

/-! ### Keys -/

/-- A key that a document gives a value. -/
structure Definition where
  path : List String
  line : Nat
  /-- its value is a string -/
  isText : Bool
  deriving DecidableEq

/-- An open bracket, or an open brace with the path of its table. -/
inductive Frame
  | array
  | table (path : Option (List String))

inductive Phase
  | key (parts : List String)
  | header (nested : Bool) (parts : List String)
  /-- before a value, with the path and the line of its key; an item of an array has none -/
  | value (key : Option (List String × Nat))
  | rest

structure Reader where
  phase : Phase
  frames : List Frame
  /-- the path of the table under the last header -/
  table : Option (List String)
  /-- the paths of arrays of tables -/
  arrays : List (List String)
  found : List Definition

namespace Reader

def start : Reader := ⟨.key [], [], some [], [], []⟩

/-- The path of the innermost table. -/
def base (r : Reader) : Option (List String) :=
  match r.frames with
  | [] => r.table
  | .table path :: _ => path
  | .array :: _ => none

/-- The end of a value in brackets or braces. -/
def close (r : Reader) : Reader := { r with phase := .rest, frames := r.frames.tail }

/-- The end of a header. -/
def openTable (r : Reader) (nested : Bool) (parts : List String) : Reader :=
  let arrays := if nested then parts :: r.arrays else r.arrays
  { r with
    phase := .rest
    arrays := arrays
    table := if arrays.any fun path => path.isPrefixOf parts then none else some parts }

/-- A value starts. -/
def define (r : Reader) (key : Option (List String × Nat)) (isText : Bool) : Reader :=
  { r with
    phase := .rest
    found := r.found ++ key.toList.map fun key => ⟨key.1, key.2, isText⟩ }

def stepKey (r : Reader) (parts : List String) (token : Token) (line : Nat) : Reader :=
  match token with
  | .word name => { r with phase := .key (parts ++ [name]) }
  | .text name => { r with phase := .key (parts ++ [name]) }
  | .equals => { r with phase := .value (r.base.map fun base => (base ++ parts, line)) }
  | .openBracket => { r with phase := .header false [] }
  | .closeBrace => r.close
  | .newline => { r with phase := .key [] }
  | .comma => { r with phase := .key [] }
  | _ => r

def stepHeader (r : Reader) (nested : Bool) (parts : List String) (token : Token) : Reader :=
  match token with
  | .word name => { r with phase := .header nested (parts ++ [name]) }
  | .text name => { r with phase := .header nested (parts ++ [name]) }
  | .openBracket => { r with phase := .header true parts }
  | .closeBracket => r.openTable nested parts
  | .newline => { r with phase := .key [] }
  | _ => r

def stepValue (r : Reader) (key : Option (List String × Nat)) (token : Token) : Reader :=
  match token with
  | .text _ => r.define key true
  | .block => r.define key true
  | .word _ => r.define key false
  | .openBrace =>
      { r.define key false with
        phase := .key [], frames := .table (key.map Prod.fst) :: r.frames }
  | .openBracket =>
      { r.define key false with phase := .value none, frames := .array :: r.frames }
  | .closeBracket => r.close
  | _ => r

def stepRest (r : Reader) (token : Token) : Reader :=
  match token, r.frames with
  | .newline, [] => { r with phase := .key [] }
  | .comma, .table _ :: _ => { r with phase := .key [] }
  | .comma, .array :: _ => { r with phase := .value none }
  | .closeBracket, .array :: _ => r.close
  | .closeBrace, _ => r.close
  | _, _ => r

def step (r : Reader) (token : Token × Nat) : Reader :=
  match r.phase with
  | .key parts => r.stepKey parts token.1 token.2
  | .header nested parts => r.stepHeader nested parts token.1
  | .value key => r.stepValue key token.1
  | .rest => r.stepRest token.1

/-- The lines that are noted down, also that of the key before a value, have a property. -/
structure Lines (P : Nat → Prop) (r : Reader) : Prop where
  found : ∀ d ∈ r.found, P d.line
  key : ∀ path line, r.phase = .value (some (path, line)) → P line

variable {P : Nat → Prop} {r : Reader}

theorem Lines.keep (h : r.Lines P) {r' : Reader} (hfound : r'.found = r.found)
    (hphase : ∀ path line, r'.phase ≠ .value (some (path, line))) : r'.Lines P where
  found := hfound ▸ h.found
  key path line hkey := absurd hkey (hphase path line)

theorem Lines.define {key : Option (List String × Nat)} (h : r.Lines P)
    (hkey : ∀ path line, key = some (path, line) → P line) (isText : Bool) :
    (r.define key isText).Lines P where
  found d hd := by
    rcases List.mem_append.mp hd with hd | hd
    · exact h.found d hd
    · obtain ⟨⟨path, line⟩, hline, rfl⟩ := List.mem_map.mp hd
      exact hkey path line (Option.mem_toList.mp hline)
  key _ _ hvalue := Phase.noConfusion hvalue

theorem Lines.stepValue {key : Option (List String × Nat)} (h : r.Lines P)
    (hphase : r.phase = .value key) (token : Token) : (r.stepValue key token).Lines P := by
  have hkey : ∀ path line, key = some (path, line) → P line := fun path line hkey =>
    h.key path line (hphase.trans (congrArg _ hkey))
  cases token with
  | text value => exact h.define hkey true
  | block => exact h.define hkey true
  | word name => exact h.define hkey false
  | openBrace => exact (h.define hkey false).keep rfl fun _ _ hvalue => Phase.noConfusion hvalue
  | openBracket => exact (h.define hkey false).keep rfl fun _ _ hvalue => by cases hvalue
  | closeBracket => exact h.keep rfl fun _ _ hvalue => Phase.noConfusion hvalue
  | _ => exact h

theorem Lines.step (h : r.Lines P) {token : Token × Nat} (htoken : token.1 = .equals → P token.2) :
    (r.step token).Lines P := by
  unfold Reader.step
  split
  · next parts hphase =>
    unfold stepKey
    split
    case h_3 heq =>
      -- an equals sign: the line of the key is noted
      refine ⟨h.found, fun path line hvalue => ?_⟩
      obtain ⟨base, -, hbase⟩ := Option.map_eq_some_iff.mp (Phase.value.inj hvalue)
      exact (Prod.mk.inj hbase).2 ▸ htoken heq
    all_goals first | exact h | exact h.keep rfl fun _ _ hvalue => Phase.noConfusion hvalue
  · next nested parts hphase =>
    unfold stepHeader
    split
    all_goals first | exact h | exact h.keep rfl fun _ _ hvalue => Phase.noConfusion hvalue
  · next key hphase => exact h.stepValue hphase token.1
  · next hphase =>
    unfold stepRest
    split
    all_goals first | exact h | exact h.keep rfl fun _ _ hvalue => by cases hvalue

end Reader

/-- The keys of a document. -/
def definitions (text : List Char) : List Definition :=
  ((scan (.plain []) 1 text).foldl Reader.step .start).found

/-- The line of a key is one with an equals sign. -/
theorem definition_line {text : List Char} {d : Definition} (h : d ∈ definitions text) :
    ∃ pre post, text = pre ++ '=' :: post ∧ d.line = 1 + pre.count '\n' := by
  have hlines : (((scan (.plain []) 1 text).foldl Reader.step .start)).Lines fun n =>
      (Token.equals, n) ∈ scan (.plain []) 1 text := by
    refine List.foldlRecOn _ _ ⟨fun d hd => absurd hd List.not_mem_nil, fun _ _ hvalue =>
      Phase.noConfusion hvalue⟩ fun r hr token htoken => hr.step fun heq => ?_
    rw [← heq]
    exact htoken
  exact line_of_mem_scan (hlines.found d h)

/-- What reads like a key inside a string of several lines is none. -/
example : definitions
    "[a]\nb.\"c d\" = \"\"\"\ne = 1\n\"\"\"\nx = \x7b y = \"z\" \x7d\n".toList =
      [⟨["a", "b", "c d"], 2, true⟩, ⟨["a", "x"], 5, false⟩, ⟨["a", "x", "y"], 5, true⟩] := by
  decide +kernel

/-- The line on which the key at a path gets a string for its value. -/
def textLine (path : List String) (text : List Char) : Option Nat :=
  ((definitions text).find? fun d => d.path = path ∧ d.isText = true).map (·.line)

theorem line_of_textLine {path : List String} {text : List Char} {line : Nat}
    (h : textLine path text = some line) :
    ∃ pre post, text = pre ++ '=' :: post ∧ line = 1 + pre.count '\n' := by
  obtain ⟨d, hd, rfl⟩ := Option.map_eq_some_iff.mp h
  exact definition_line (List.mem_of_find?_eq_some hd)

end Konoha.Toml
