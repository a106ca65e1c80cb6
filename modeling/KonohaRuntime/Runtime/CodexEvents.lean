/-
Runtime/CodexEvents.lean

What `invoke_codex` makes of the events that Codex prints, one to a line.

The adapter cuts the output with `str.splitlines`, which ends a line at ten characters; JSON
permits three of them in a string as they are.  A line that is cut is not read, and its event is
lost.  The other events are read without a check of the types in them.

* `readPieces_printed`: the adapter reads what it reads of each line.
* `invokeCodex_read`, `invokeCodex_unread`: the answer, by the events that are read.
* `codex_iff`: over lines that stay whole, the adapter is right exactly about regular events;
  with each of the three characters a message is lost.
-/
import Mathlib.Data.Bool.AllAny
import KonohaRuntime.Base.Strip
import KonohaRuntime.Runtime.Adapters

namespace Konoha

open Json

/-! ### The events that are read -/

section Pieces

variable (py : Stdlib)

/-- What `json.loads` makes of the pieces of a text that are JSON. -/
def readPieces (pieces : List (List Char)) : List (Except LoadError Json) :=
  pieces.filterMap fun piece =>
    match py.jsonLoads (String.ofList piece) with
    | .error .decode => none
    | loaded => some loaded

/-- A loop over what is loaded. -/
def eachLoaded {σ : Type} (f : σ → Json → Except PyExc σ) (s : σ)
    (loaded : List (Except LoadError Json)) : Except PyExc σ :=
  loaded.foldlM (fun s v =>
    match v with
    | .ok event => f s event
    | .error e => .error e.exc) s

variable {py}

theorem eachEvent_eq {σ : Type} (raw : String) (f : σ → Json → Except PyExc σ) (s : σ) :
    eachEvent py raw f s = eachLoaded f s (readPieces py (splitLines [] raw.toList)) := by
  unfold eachEvent
  generalize splitLines [] raw.toList = pieces
  induction pieces generalizing s with
  | nil => rfl
  | cons piece pieces ih =>
      rw [List.foldlM_cons, readPieces, List.filterMap_cons]
      cases hload : py.jsonLoads (String.ofList piece) with
      | ok event =>
          change (f s event >>= _) = (f s event >>= _)
          exact congrArg (f s event >>= ·) (funext ih)
      | error e =>
          cases e with
          | decode => exact ih s
          | digits => rfl
          | recursion => rfl

theorem jsonLoads_empty : py.jsonLoads (String.ofList []) = .error .decode := by
  rw [Stdlib.jsonLoads, show PyStr.ofString (String.ofList []) = [] by simp [PyStr.ofString]]
  unfold loads
  cases py.interpreter.depth with
  | zero => rfl
  | succ depth => rfl

theorem readPieces_nil : readPieces py [[]] = [] := by
  rw [readPieces, List.filterMap_cons, jsonLoads_empty]
  rfl

theorem readPieces_append (as bs : List (List Char)) :
    readPieces py (as ++ bs) = readPieces py as ++ readPieces py bs := List.filterMap_append

theorem readPieces_cons (a : List Char) (bs : List (List Char)) :
    readPieces py (a :: bs) = readPieces py [a] ++ readPieces py bs := readPieces_append [a] bs

end Pieces

/-! ### Lines -/

section Lines

variable {py : Stdlib}

/-- The pieces of a line that ends with a line feed, and of what follows. -/
theorem readPieces_newline {cs : List Char} (h : '\n' ∉ cs) (line rest : List Char) :
    readPieces py (splitLines line (cs ++ '\n' :: rest)) =
      readPieces py (splitLines line cs) ++ readPieces py (splitLines [] rest) := by
  induction cs generalizing line with
  | nil =>
      have hbreak : isLineBreak '\n' = true := by decide
      rw [List.nil_append, splitLines_break hbreak line (fun h => nomatch h), readPieces_cons, splitLines]
      cases line with
      | nil =>
          rw [List.reverse_nil, readPieces_nil]
          rfl
      | cons c line => rfl
  | cons c cs ih =>
      have hcs : '\n' ∉ cs := fun hmem => h (List.mem_cons_of_mem c hmem)
      by_cases hc : isLineBreak c = true
      · cases cs with
        | nil =>
            by_cases hr : c = '\r'
            · subst hr
              exact readPieces_cons line.reverse (splitLines [] rest)
            · rw [List.cons_append, splitLines_break hc line fun h => absurd h hr,
                splitLines_break hc line fun h => absurd h hr, readPieces_cons, ih hcs,
                ← List.append_assoc, ← readPieces_cons]
        | cons d cs =>
            have hd : (d :: cs).head? ≠ some '\n' := by
              intro hd
              cases hd
              exact hcs List.mem_cons_self
            have hd' : (d :: cs ++ '\n' :: rest).head? ≠ some '\n' := hd
            rw [List.cons_append, splitLines_break hc line fun _ => hd,
              splitLines_break hc line fun _ => hd', readPieces_cons, ih hcs, ← List.append_assoc,
              ← readPieces_cons]
      · rw [List.cons_append, splitLines_char hc, splitLines_char hc, ih hcs]

/-- Lines, each of which ends with a line feed; the last one only if `ended`. -/
def printed (ended : Bool) : List (List Char) → List Char
  | [] => []
  | [line] => if ended then line ++ ['\n'] else line
  | line :: lines => line ++ '\n' :: printed ended lines

/-- What is read of lines is what is read of each of them. -/
theorem readPieces_printed (ended : Bool) {lines : List (List Char)}
    (h : ∀ line ∈ lines, '\n' ∉ line) :
    readPieces py (splitLines [] (printed ended lines)) =
      lines.flatMap fun line => readPieces py (splitLines [] line) := by
  induction lines with
  | nil => rfl
  | cons line lines ih =>
      obtain ⟨hline, hlines⟩ := List.forall_mem_cons.mp h
      cases lines with
      | nil =>
          cases ended with
          | false => exact (List.append_nil _).symm
          | true => exact readPieces_newline hline [] []
      | cons line' lines =>
          rw [printed, readPieces_newline hline, ih hlines]
          · rfl
          · exact fun h => nomatch h

/-- A JSON text on a line of its own. -/
structure EventLine (py : Stdlib) where
  chars : List Char
  oneLine : '\n' ∉ chars
  isJson : py.jsonLoads (String.ofList chars) ≠ .error .decode

/-- What the line holds, if it is within the limits of the interpreter. -/
def EventLine.loaded (line : EventLine py) : Except LoadError Json :=
  py.jsonLoads (String.ofList line.chars)

/-- Of the pieces of the line, what is JSON is the line's own event. -/
def EventLine.Whole (line : EventLine py) : Prop :=
  readPieces py (splitLines [] line.chars) = [line.loaded]

theorem splitLines_unbroken {line : List Char} (h : ∀ c ∈ line, isLineBreak c = false)
    (before : List Char) (hne : before ++ line ≠ []) :
    splitLines before line = [before.reverse ++ line] := by
  induction line generalizing before with
  | nil =>
      cases before with
      | nil => exact absurd rfl hne
      | cons c before => rw [List.append_nil]; rfl
  | cons c line ih =>
      obtain ⟨hc, hline⟩ := List.forall_mem_cons.mp h
      rw [splitLines_char (by rw [hc]; decide), ih hline (c :: before) (fun h => nomatch h)]
      simp

/-- A line is cut at the first of the ten characters. -/
theorem splitLines_cut {line : List Char} (h : ∀ c ∈ line, isLineBreak c = false) {c : Char}
    (hc : isLineBreak c = true) (hr : c ≠ '\r') (before rest : List Char) :
    splitLines before (line ++ c :: rest) = (before.reverse ++ line) :: splitLines [] rest := by
  induction line generalizing before with
  | nil =>
      rw [List.append_nil]
      exact splitLines_break hc before fun h => absurd h hr
  | cons d line ih =>
      obtain ⟨hd, hline⟩ := List.forall_mem_cons.mp h
      rw [List.cons_append, splitLines_char (by rw [hd]; decide), ih hline]
      simp

/-- A line without one of the ten characters stays whole. -/
theorem EventLine.whole_of_unbroken {line : EventLine py}
    (h : ∀ c ∈ line.chars, isLineBreak c = false) : line.Whole := by
  have hne : line.chars ≠ [] := by
    intro hempty
    exact line.isJson (hempty ▸ jsonLoads_empty)
  rw [Whole, splitLines_unbroken h [] hne, List.reverse_nil, List.nil_append, readPieces,
    List.filterMap_cons, loaded]
  cases hload : py.jsonLoads (String.ofList line.chars) with
  | ok event => rfl
  | error e =>
      cases e with
      | decode => exact absurd hload line.isJson
      | digits => rfl
      | recursion => rfl

/-- The output of Codex. -/
def output (ended : Bool) (lines : List (EventLine py)) : List Char :=
  printed ended (lines.map EventLine.chars)

theorem readPieces_output (ended : Bool) {lines : List (EventLine py)}
    (h : ∀ line ∈ lines, line.Whole) :
    readPieces py (splitLines [] (output ended lines)) = lines.map EventLine.loaded := by
  rw [output, readPieces_printed, List.flatMap_map]
  · induction lines with
    | nil => rfl
    | cons line lines ih =>
        obtain ⟨hline, hlines⟩ := List.forall_mem_cons.mp h
        rw [List.flatMap_cons, ih hlines, hline]
        rfl
  · rw [List.forall_mem_map]
    exact fun line _ => line.oneLine

end Lines

/-! ### Loops over events -/

/-- An exception that is not a `ProviderError`. -/
def Foreign (e : PyExc) : Prop := ∀ text, e ≠ .providerError text

theorem foreign_loadError (e : LoadError) : Foreign e.exc := by
  intro text
  cases e <;> exact fun h => nomatch h

/-- All of the output is loaded, and the values satisfy `good`. -/
def AllGood (good : Json → Prop) (loaded : List (Except LoadError Json)) (values : List Json) : Prop :=
  loaded = values.map Except.ok ∧ ∀ v ∈ values, good v

section Loop

variable {σ : Type} {f : σ → Json → Except PyExc σ} {g : σ → Json → σ} {good : Json → Prop}

theorem eachLoaded_good (hgood : ∀ s v, good v → f s v = .ok (g s v)) (s : σ) {values : List Json}
    (h : ∀ v ∈ values, good v) :
    eachLoaded f s (values.map Except.ok) = .ok (values.foldl g s) := by
  induction values generalizing s with
  | nil => rfl
  | cons v values ih =>
      obtain ⟨hv, hvalues⟩ := List.forall_mem_cons.mp h
      rw [List.map_cons, eachLoaded, List.foldlM_cons]
      change (f s v >>= _) = _
      rw [hgood s v hv]
      exact ih (g s v) hvalues

/-- A loop ends at the first value that is not loaded or not good. -/
theorem eachLoaded_bad (hgood : ∀ s v, good v → f s v = .ok (g s v))
    (hbad : ∀ s v, ¬ good v → ∃ e, f s v = .error e ∧ Foreign e) (s : σ)
    {loaded : List (Except LoadError Json)} (h : ∀ values, ¬ AllGood good loaded values) :
    ∃ e, eachLoaded f s loaded = .error e ∧ Foreign e := by
  induction loaded generalizing s with
  | nil => exact absurd ⟨rfl, fun v hv => nomatch hv⟩ (h [])
  | cons first loaded ih =>
      rw [eachLoaded, List.foldlM_cons]
      cases first with
      | error e => exact ⟨e.exc, rfl, foreign_loadError e⟩
      | ok v =>
          by_cases hv : good v
          · change ∃ e, (f s v >>= _) = _ ∧ _
            rw [hgood s v hv]
            refine ih (g s v) ?_
            rintro values ⟨rfl, hvalues⟩
            exact h (v :: values) ⟨rfl, List.forall_mem_cons.mpr ⟨hv, hvalues⟩⟩
          · obtain ⟨e, he, hforeign⟩ := hbad s v hv
            change ∃ e, (f s v >>= _) = _ ∧ _
            rw [he]
            exact ⟨e, rfl, hforeign⟩

end Loop

/-! ### One event -/

/-- `event_type in {…}`, for a failure event -/
def isFailure (py : Stdlib) : Json → Bool
  | .obj kvs => py.str (orElse (fieldOf kvs "type") (.str "")) ∈
      ["error", "turn.failed", "response.failed", "item.failed"]
  | _ => false

/-- The diagnostics of a failure event. -/
def diagnostics (py : Stdlib) (event : Json) : List String := (failureTexts py event).toOption.getD []

/-- The text of an agent message in an `item.completed` event. -/
def completedMessage : Json → Option String
  | .obj kvs =>
      match fieldOf kvs "type", fieldOf kvs "item" with
      | .str "item.completed", .obj item =>
          match fieldOf item "type", fieldOf item "text" with
          | .str "agent_message", .str text => if text = "" then none else some text
          | _, _ => none
      | _, _ => none
  | _ => none

/-- The text that is kept of an item. -/
def itemText (py : Stdlib) (item : List (String × Json)) : Option String :=
  if fieldOf item "type" = .str "agent_message" ∧ (fieldOf item "text").truthy then
    some (py.str (fieldOf item "text"))
  else none

/-- The text of an agent message in an event. -/
def messageText (py : Stdlib) : Json → Option String
  | .obj kvs =>
      match orElse (fieldOf kvs "item") (.obj []) with
      | .obj item => itemText py item
      | _ => none
  | _ => none

/-- `event.get("type") in {"turn.completed", "response.completed"}` -/
def isTurn (kvs : List (String × Json)) : Bool :=
  fieldOf kvs "type" ∈ [.str "turn.completed", .str "response.completed"]

/-- The usage that a completed turn carries, itself or in its response. -/
def carriedUsage : Json → Option Json
  | .obj kvs =>
      if ¬ isTurn kvs then none
      else if (fieldOf kvs "usage").truthy then some (fieldOf kvs "usage")
      else match lookup "response" kvs with
        | some (.obj response) =>
            if (fieldOf response "usage").truthy then some (fieldOf response "usage") else none
        | _ => none
  | _ => none

/-- An object of which the adapter can read the item, the type and the usage. -/
def ReadableEvent : Json → Prop
  | .obj kvs =>
      ((fieldOf kvs "item").truthy → ∃ item, fieldOf kvs "item" = .obj item) ∧
      (fieldOf kvs "type").hashable ∧
      (isTurn kvs → ¬ (fieldOf kvs "usage").truthy →
        ∀ response, lookup "response" kvs = some response → ∃ fields, response = .obj fields)
  | _ => False

section Event

variable {py : Stdlib}

theorem failureTexts_obj (kvs : List (String × Json)) :
    failureTexts py (.obj kvs) = .ok (diagnostics py (.obj kvs)) := by
  have hok : ∃ texts, failureTexts py (.obj kvs) = .ok texts := by
    unfold failureTexts
    by_cases hnot : py.str (orElse (fieldOf kvs "type") (.str "")) ∉
        ["error", "turn.failed", "response.failed", "item.failed"]
    · exact ⟨_, if_pos hnot⟩
    · exact ⟨_, if_neg hnot⟩
  obtain ⟨texts, htexts⟩ := hok
  rw [diagnostics, htexts]
  rfl

/-- Only a failure event has a diagnostic. -/
theorem diagnostics_eq_nil {v : Json} (h : isFailure py v = false) : diagnostics py v = [] := by
  cases v with
  | obj kvs =>
      have hnot : py.str (orElse (fieldOf kvs "type") (.str "")) ∉
          ["error", "turn.failed", "response.failed", "item.failed"] := of_decide_eq_false h
      have hnone : failureTexts py (.obj kvs) = .ok [] := if_pos hnot
      rw [diagnostics, hnone]
      rfl
  | _ => rfl

theorem orElse_obj {v : Json} (h : v.truthy → ∃ kvs, v = .obj kvs) :
    ∃ kvs, orElse v (.obj []) = .obj kvs := by
  unfold orElse
  split_ifs with hv
  · exact h hv
  · exact ⟨[], rfl⟩

/-- What is kept of an event, after its item. -/
def turnEvent (seen : List String × Json) (messages : List String) (kvs : List (String × Json)) :
    Except PyExc (List String × Json) :=
  if ¬ (fieldOf kvs "type").hashable then .error (.typeError "unhashable type")
  else if isTurn kvs then
    if (fieldOf kvs "usage").truthy then .ok (messages, fieldOf kvs "usage")
    else do
      let usage ← ((lookup "response" kvs).getD (.obj [])).get "usage"
      return (messages, orElse usage seen.2)
  else .ok (messages, seen.2)

theorem codexEvent_obj (seen : List String × Json) {kvs item : List (String × Json)}
    (hitem : orElse (fieldOf kvs "item") (.obj []) = .obj item) :
    codexEvent py seen (.obj kvs) = turnEvent seen (seen.1 ++ (itemText py item).toList) kvs := by
  have hget (k : String) (fields : List (String × Json)) :
      (Json.obj fields).get k = .ok (fieldOf fields k) := rfl
  unfold codexEvent turnEvent itemText isTurn
  rw [hget]
  change (do
    let t ← (orElse (fieldOf kvs "item") (.obj [])).get "type"
    _ : Except PyExc (List String × Json)) = _
  rw [hitem, hget]
  by_cases hmessage : fieldOf item "type" = .str "agent_message"
  · by_cases htext : (fieldOf item "text").truthy = true
    · simp [hmessage, htext, hget, bind, Except.bind, pure, Except.pure]
    · simp [hmessage, htext, hget, bind, Except.bind, pure, Except.pure]
  · simp [hmessage, hget, Json.truthy, bind, Except.bind, pure, Except.pure]

theorem codexEvent_readable (seen : List String × Json) (v : Json) (h : ReadableEvent v) :
    codexEvent py seen v =
      .ok (seen.1 ++ (messageText py v).toList, (carriedUsage v).getD seen.2) := by
  cases v with
  | obj kvs =>
      obtain ⟨hitem, htype, hresponse⟩ := h
      obtain ⟨item, hobj⟩ := orElse_obj hitem
      rw [codexEvent_obj seen hobj, turnEvent, if_neg (not_not.mpr htype), messageText, hobj,
        carriedUsage]
      by_cases hturn : isTurn kvs = true
      · rw [if_pos hturn, if_neg (not_not.mpr hturn)]
        by_cases husage : (fieldOf kvs "usage").truthy = true
        · rw [if_pos husage, if_pos husage]
          rfl
        · rw [if_neg husage, if_neg husage]
          cases hlookup : lookup "response" kvs with
          | none => rfl
          | some response =>
              obtain ⟨fields, rfl⟩ := hresponse hturn husage response hlookup
              change Except.ok (_, orElse (fieldOf fields "usage") seen.2) = Except.ok (_, _)
              unfold orElse
              by_cases hcarried : (fieldOf fields "usage").truthy = true
              · rw [if_pos hcarried]
                dsimp only
                rw [if_pos hcarried]
                rfl
              · rw [if_neg hcarried]
                dsimp only
                rw [if_neg hcarried]
                rfl
      · rw [if_neg hturn, if_pos hturn]
        rfl
  | _ => exact absurd h id

theorem foreign_attributeError (text : String) : Foreign (.attributeError text) :=
  fun _ h => nomatch h

theorem foreign_typeError (text : String) : Foreign (.typeError text) := fun _ h => nomatch h

/-- A value without keys. -/
theorem get_error {v : Json} (h : ∀ kvs, v ≠ .obj kvs) (k : String) :
    v.get k = .error (.attributeError "get") := by
  cases v with
  | obj kvs => exact absurd rfl (h kvs)
  | _ => rfl

theorem codexEvent_unreadable (seen : List String × Json) (v : Json) (h : ¬ ReadableEvent v) :
    ∃ e, codexEvent py seen v = .error e ∧ Foreign e := by
  cases v with
  | obj kvs =>
      by_cases hitem : ∃ item, orElse (fieldOf kvs "item") (.obj []) = .obj item
      · obtain ⟨item, hobj⟩ := hitem
        have hitem : (fieldOf kvs "item").truthy → ∃ item, fieldOf kvs "item" = .obj item := by
          intro htruthy
          rw [orElse, if_pos htruthy] at hobj
          exact ⟨item, hobj⟩
        rw [codexEvent_obj seen hobj, turnEvent]
        by_cases htype : (fieldOf kvs "type").hashable = true
        · rw [if_neg (not_not.mpr htype)]
          by_cases hturn : isTurn kvs = true
          · rw [if_pos hturn]
            by_cases husage : (fieldOf kvs "usage").truthy = true
            · exact absurd ⟨hitem, htype, fun _ hnot => absurd husage hnot⟩ h
            · rw [if_neg husage]
              cases hlookup : lookup "response" kvs with
              | none =>
                  exact absurd ⟨hitem, htype, fun _ _ response hresponse => by
                    rw [hlookup] at hresponse
                    cases hresponse⟩ h
              | some response =>
                  by_cases hobj : ∃ fields, response = .obj fields
                  · exact absurd ⟨hitem, htype, fun _ _ response' hresponse => by
                      rw [hlookup] at hresponse
                      exact Option.some.inj hresponse ▸ hobj⟩ h
                  · refine ⟨.attributeError "get", ?_, foreign_attributeError "get"⟩
                    rw [Option.getD_some, get_error fun fields hf => hobj ⟨fields, hf⟩]
                    rfl
          · exact absurd ⟨hitem, htype, fun ht => absurd ht hturn⟩ h
        · rw [if_pos htype]
          exact ⟨_, rfl, foreign_typeError _⟩
      · refine ⟨.attributeError "get", ?_, foreign_attributeError "get"⟩
        have hget : (orElse (fieldOf kvs "item") (.obj [])).get "type" =
            .error (.attributeError "get") :=
          get_error (fun fields hf => hitem ⟨fields, hf⟩) "type"
        change (do
          let t ← (orElse (fieldOf kvs "item") (.obj [])).get "type"
          _ : Except PyExc (List String × Json)) = _
        rw [hget]
        rfl
  | _ => exact ⟨_, rfl, foreign_attributeError _⟩

/-- The loop for the diagnostics stops at a value that is no object. -/
def IsObject (v : Json) : Prop := ∃ kvs, v = .obj kvs

theorem ReadableEvent.isObject {v : Json} (h : ReadableEvent v) : IsObject v := by
  cases v with
  | obj kvs => exact ⟨kvs, rfl⟩
  | _ => exact absurd h id

/-- The loop body of `_extract_jsonl_error` -/
def diagnosticsEvent (py : Stdlib) (messages : List String) (event : Json) :
    Except PyExc (List String) := do
  return messages ++ (← failureTexts py event)

theorem diagnosticsEvent_object (messages : List String) (v : Json) (h : IsObject v) :
    diagnosticsEvent py messages v = .ok (messages ++ diagnostics py v) := by
  obtain ⟨kvs, rfl⟩ := h
  rw [diagnosticsEvent, failureTexts_obj]
  rfl

theorem diagnosticsEvent_other (messages : List String) (v : Json) (h : ¬ IsObject v) :
    ∃ e, diagnosticsEvent py messages v = .error e ∧ Foreign e := by
  refine ⟨.attributeError "get", ?_, foreign_attributeError "get"⟩
  have hget : v.get "type" = .error (.attributeError "get") :=
    get_error (fun kvs hv => h ⟨kvs, hv⟩) "type"
  unfold diagnosticsEvent failureTexts
  rw [hget]
  rfl

theorem extractJsonlError_eq (raw : String) :
    extractJsonlError py raw = (do
      let messages ← eachLoaded (diagnosticsEvent py) [] (readPieces py (splitLines [] raw.toList))
      return truncate (" | ".intercalate messages.eraseDups)) := by
  rw [← eachEvent_eq]
  rfl

end Event

/-! ### The text of the diagnostics -/

theorem strip_eq_empty_iff {s : String} : strip s = "" ↔ nonBlank s = false := by
  rw [nonBlank, bne_eq_false_iff_eq, strip]
  constructor
  · intro h
    rw [← String.toList_ofList (l := stripChars s.toList)]
    exact congrArg String.toList h
  · intro h
    rw [h]

/-- A stripped text is empty or not blank. -/
theorem nonBlank_strip {s : String} (h : strip s ≠ "") : nonBlank (strip s) = true := by
  have hs : nonBlank s = true := by
    rw [← Bool.not_eq_false, ← strip_eq_empty_iff]
    exact h
  obtain ⟨c, hmem, hc⟩ := nonBlank_iff.mp hs
  refine nonBlank_iff.mpr ⟨c, ?_, hc⟩
  rw [strip, String.toList_ofList]
  exact mem_stripChars hc hmem

theorem truncate_eq_empty_iff {s : String} : truncate s = "" ↔ nonBlank s = false := by
  rw [← strip_eq_empty_iff]
  unfold truncate
  dsimp only
  split_ifs with hlen
  · rw [String.ofList_toList]
  · have hpos : 0 < (strip s).toList.length := by omega
    have hdrop : ((strip s).toList.drop ((strip s).toList.length - 3000)) ≠ [] := by
      intro h
      have hlength := congrArg List.length h
      rw [List.length_drop, List.length_nil] at hlength
      omega
    refine iff_of_false ?_ ?_
    · intro h
      apply hdrop
      rw [← String.toList_ofList (l := (strip s).toList.drop _)]
      exact congrArg String.toList h
    · intro h
      rw [h] at hpos
      exact absurd hpos (by decide)

theorem mem_intercalate {c : Char} {sep m : String} {ms : List String} (hm : m ∈ ms)
    (hc : c ∈ m.toList) : c ∈ (sep.intercalate ms).toList := by
  induction ms with
  | nil => cases hm
  | cons first ms ih =>
      cases ms with
      | nil =>
          obtain rfl := List.mem_singleton.mp hm
          rw [String.intercalate_singleton]
          exact hc
      | cons second ms =>
          rw [String.intercalate_cons_cons, String.toList_append, String.toList_append]
          obtain rfl | hm := List.mem_cons.mp hm
          · exact List.mem_append_left _ (List.mem_append_left _ hc)
          · exact List.mem_append_right _ (ih hm)

theorem eraseDups_blank {ms : List String} (h : ∀ m ∈ ms, m = "") :
    " | ".intercalate ms.eraseDups = "" := by
  cases ms with
  | nil => rfl
  | cons m ms =>
      have hrest : ms.filter (fun b => !b == m) = [] := by
        rw [List.filter_eq_nil_iff]
        intro b hb
        rw [h b (List.mem_cons_of_mem m hb), h m List.mem_cons_self]
        decide
      rw [List.eraseDups_cons, hrest, List.eraseDups_nil, String.intercalate_singleton]
      exact h m List.mem_cons_self

/-- The adapter has a failure to report when one of the texts is not empty. -/
theorem failureText_eq_empty_iff {ms : List String} (h : ∀ m ∈ ms, ∃ t, m = strip t) :
    truncate (" | ".intercalate ms.eraseDups) = "" ↔ ∀ m ∈ ms, m = "" := by
  rw [truncate_eq_empty_iff]
  constructor
  · intro hblank m hm
    by_contra hne
    obtain ⟨t, rfl⟩ := h m hm
    obtain ⟨c, hmem, hc⟩ := nonBlank_iff.mp (nonBlank_strip hne)
    have hjoined : nonBlank (" | ".intercalate ms.eraseDups) = true :=
      nonBlank_iff.mpr ⟨c, mem_intercalate (List.mem_eraseDups.mpr hm) hmem, hc⟩
    rw [hjoined] at hblank
    cases hblank
  · intro hall
    rw [eraseDups_blank hall]
    decide

theorem diagnostics_strip {py : Stdlib} {v : Json} {m : String} (h : m ∈ diagnostics py v) :
    ∃ t, m = strip t := by
  cases v with
  | obj kvs =>
      by_cases hnot : py.str (orElse (fieldOf kvs "type") (.str "")) ∉
          ["error", "turn.failed", "response.failed", "item.failed"]
      · have hnone : failureTexts py (.obj kvs) = .ok [] := if_pos hnot
        rw [diagnostics, hnone] at h
        cases h
      · have hsome : failureTexts py (.obj kvs) = _ := if_neg hnot
        rw [diagnostics, hsome] at h
        obtain ⟨candidate, -, hcandidate⟩ := List.mem_filterMap.mp h
        dsimp only at hcandidate
        split_ifs at hcandidate
        exact ⟨_, (Option.some.inj hcandidate).symm⟩
  | _ => cases h

/-! ### The answer -/

/-- The values that were loaded. -/
def valuesOf (events : List (Except LoadError Json)) : List Json :=
  events.filterMap Except.toOption

/-- The diagnostic of one of the events is a text. -/
def Diagnosed (py : Stdlib) (values : List Json) : Prop :=
  ∃ v ∈ values, ∃ m ∈ diagnostics py v, m ≠ ""

/-- The usage of the last turn that carries one. -/
def sentUsage (values : List Json) : Json :=
  (values.filterMap carriedUsage).getLast?.getD (.obj [])

/-- The text of the last agent message, or all that was printed. -/
def answerText (py : Stdlib) (stdout : String) (values : List Json) : String :=
  (values.filterMap (messageText py)).getLast?.getD (strip stdout)

/-- `command` of `invoke_codex` -/
def codexCommand (exe schema cwd : String) (model : Json) : List Json :=
  [.str exe, .str "exec", .str "--sandbox", .str "read-only", .str "--ephemeral",
    .str "--json", .str "-C", .str cwd] ++ modelArguments model ++
    [.str "--output-schema", .str schema, .str "-"]

/-- Codex is there, has been run and has ended with exit code 0. -/
structure Ran (host : CliHost) (prompt cwd : String) (model : Json) (exe schema : String)
    (cp : CompletedProcess) : Prop where
  which : host.which "codex" = some exe
  schemaPath : host.schemaPath = .ok schema
  run : runCli host (codexCommand exe schema cwd model) (some prompt) = .ok cp
  success : cp.returncode = 0

section Answer

variable {py : Stdlib} {host : CliHost} {prompt cwd exe schema : String} {model : Json}
variable {cp : CompletedProcess}

/-- `invoke_codex` after the run. -/
theorem invokeCodex_ran (h : Ran host prompt cwd model exe schema cp) :
    invokeCodex py host prompt cwd model = (do
      let failureEvent ← extractJsonlError py cp.stdout
      let (messages, usage) ← eachEvent py cp.stdout (codexEvent py) ([], .obj [])
      if failureEvent ≠ "" then
        .error (providerError "Codex reportó un evento de fallo" failureEvent (truncate cp.stderr))
      else
        let text := messages.getLast?.getD (strip cp.stdout)
        if text = "" then
          .error (providerError "Codex terminó sin producir un mensaje de agente"
            (truncate cp.stdout) (truncate cp.stderr))
        else return ⟨text, ← usageOf usage, .arr (codexCommand exe schema cwd model)⟩) := by
  unfold invokeCodex
  rw [h.which]
  dsimp only
  rw [h.schemaPath]
  change (runCli host (codexCommand exe schema cwd model) (some prompt) >>= _) = _
  rw [h.run]
  exact if_neg (not_not.mpr h.success)

theorem foldl_messages (values : List Json) (seen : List String × Json) :
    values.foldl (fun seen v =>
        (seen.1 ++ (messageText py v).toList, (carriedUsage v).getD seen.2)) seen =
      (seen.1 ++ values.filterMap (messageText py),
        (values.filterMap carriedUsage).getLast?.getD seen.2) := by
  induction values generalizing seen with
  | nil => simp
  | cons v values ih =>
      rw [List.foldl_cons, ih]
      refine Prod.ext ?_ ?_
      · cases hv : messageText py v with
        | none => simp [hv]
        | some text => simp [hv]
      · cases hv : carriedUsage v with
        | none => simp [hv]
        | some usage => simp [hv, List.getLast?_cons]

/-- The loop for the diagnostics, over what is read. -/
theorem extractJsonlError_read {values : List Json}
    (hread : AllGood ReadableEvent (readPieces py (splitLines [] cp.stdout.toList)) values) :
    ∃ text, extractJsonlError py cp.stdout = .ok text ∧ (text ≠ "" ↔ Diagnosed py values) := by
  obtain ⟨hloaded, hvalues⟩ := hread
  have hloop : eachLoaded (diagnosticsEvent py) [] (values.map Except.ok) =
      .ok (values.foldl (fun messages v => messages ++ diagnostics py v) []) :=
    eachLoaded_good diagnosticsEvent_object [] fun v hv => (hvalues v hv).isObject
  have hfold : values.foldl (fun messages v => messages ++ diagnostics py v) [] =
      values.flatMap (diagnostics py) := by
    rw [List.flatMap_eq_foldl]
  refine ⟨truncate (" | ".intercalate (values.flatMap (diagnostics py)).eraseDups), ?_, ?_⟩
  · rw [extractJsonlError_eq, hloaded, hloop, hfold]
    rfl
  · rw [ne_eq, failureText_eq_empty_iff]
    · simp only [List.mem_flatMap, Diagnosed]
      push Not
      constructor
      · rintro ⟨m, ⟨v, hv, hm⟩, hne⟩
        exact ⟨v, hv, m, hm, hne⟩
      · rintro ⟨v, hv, m, hm, hne⟩
        exact ⟨m, ⟨v, hv, hm⟩, hne⟩
    · intro m hm
      obtain ⟨v, -, hm⟩ := List.mem_flatMap.mp hm
      exact diagnostics_strip hm

/-- The answer, when all that is read are readable events. -/
theorem invokeCodex_read (h : Ran host prompt cwd model exe schema cp) {values : List Json}
    (hread : AllGood ReadableEvent (readPieces py (splitLines [] cp.stdout.toList)) values) :
    (Diagnosed py values ∧ ∃ text, invokeCodex py host prompt cwd model = .error (.providerError text)) ∨
    (¬ Diagnosed py values ∧ answerText py cp.stdout values = "" ∧
      ∃ text, invokeCodex py host prompt cwd model = .error (.providerError text)) ∨
    (¬ Diagnosed py values ∧ answerText py cp.stdout values ≠ "" ∧
      invokeCodex py host prompt cwd model = do
        return ⟨answerText py cp.stdout values, ← usageOf (sentUsage values),
          .arr (codexCommand exe schema cwd model)⟩) := by
  obtain ⟨text, hextract, hdiagnosed⟩ := extractJsonlError_read hread
  have hevents : eachEvent py cp.stdout (codexEvent py) ([], .obj []) =
      .ok (values.filterMap (messageText py), sentUsage values) := by
    rw [eachEvent_eq, hread.1, eachLoaded_good codexEvent_readable _ hread.2, foldl_messages]
    rfl
  have herror (message a b : String) : ∃ text, providerError message a b = .providerError text := by
    unfold providerError
    dsimp only
    split_ifs
    · exact ⟨_, rfl⟩
    · exact ⟨_, rfl⟩
    · exact ⟨_, rfl⟩
    · exact ⟨_, rfl⟩
  rw [invokeCodex_ran h, hextract, hevents]
  change (_ ∧ ∃ t, (if text ≠ "" then _ else if answerText py cp.stdout values = "" then _ else _) =
    Except.error (PyExc.providerError t)) ∨ (_ ∧ _ ∧ ∃ t,
      (if text ≠ "" then _ else if answerText py cp.stdout values = "" then _ else _) =
        Except.error (PyExc.providerError t)) ∨
    (_ ∧ _ ∧ (if text ≠ "" then _ else if answerText py cp.stdout values = "" then _ else _) = _)
  by_cases hd : Diagnosed py values
  · obtain ⟨t, ht⟩ := herror "Codex reportó un evento de fallo" text (truncate cp.stderr)
    rw [if_pos (hdiagnosed.mpr hd), ht]
    exact .inl ⟨hd, t, rfl⟩
  · rw [if_neg fun hne => hd (hdiagnosed.mp hne)]
    by_cases hempty : answerText py cp.stdout values = ""
    · obtain ⟨t, ht⟩ := herror "Codex terminó sin producir un mensaje de agente"
        (truncate cp.stdout) (truncate cp.stderr)
      rw [if_pos hempty, ht]
      exact .inr (.inl ⟨hd, hempty, t, rfl⟩)
    · rw [if_neg hempty]
      exact .inr (.inr ⟨hd, hempty, rfl⟩)

/-- Anything else that is read makes the adapter fail in another way. -/
theorem invokeCodex_unread (h : Ran host prompt cwd model exe schema cp)
    (hread : ∀ values,
      ¬ AllGood ReadableEvent (readPieces py (splitLines [] cp.stdout.toList)) values) :
    ∃ e, invokeCodex py host prompt cwd model = .error e ∧ Foreign e := by
  rw [invokeCodex_ran h]
  have hevents : ∃ e, eachEvent py cp.stdout (codexEvent py) ([], .obj []) = .error e ∧
      Foreign e := by
    rw [eachEvent_eq]
    exact eachLoaded_bad codexEvent_readable codexEvent_unreadable _ hread
  obtain ⟨e, hevents, hforeign⟩ := hevents
  cases hextract : extractJsonlError py cp.stdout with
  | ok text =>
      rw [hevents]
      exact ⟨e, rfl, hforeign⟩
  | error e' =>
      refine ⟨e', rfl, ?_⟩
      -- the first loop stops at a value that is no object, or is not loaded
      by_cases hobjects : ∃ values, AllGood IsObject
          (readPieces py (splitLines [] cp.stdout.toList)) values
      · obtain ⟨values, hloaded, hvalues⟩ := hobjects
        rw [extractJsonlError_eq, hloaded, eachLoaded_good diagnosticsEvent_object [] hvalues]
          at hextract
        cases hextract
      · have hobject : ∀ messages v, IsObject v → diagnosticsEvent py messages v =
            .ok (messages ++ diagnostics py v) := diagnosticsEvent_object
        obtain ⟨e'', he'', hforeign'⟩ := eachLoaded_bad hobject diagnosticsEvent_other []
          fun values hv => hobjects ⟨values, hv⟩
        rw [extractJsonlError_eq, he''] at hextract
        cases hextract
        exact hforeign'

end Answer

/-! ### What the adapter should do -/

/-- The text of the last completed agent message. -/
def lastCompleted (values : List Json) : Option String :=
  (values.filterMap completedMessage).getLast?

/-- What is expected of the answer to a list of events, of which some may be beyond the limits of
the interpreter: the last completed message with the last usage when nothing failed, a
`ProviderError` when an event has a diagnostic, and no other exception. -/
structure ReadsEvents (py : Stdlib) (events : List (Except LoadError Json))
    (answer : Except PyExc ProviderResult) : Prop where
  answered : (∀ v ∈ valuesOf events, isFailure py v = false) →
    ∀ text, lastCompleted (valuesOf events) = some text →
      ∃ raw result, answer = .ok result ∧ result.text = text ∧
        sentUsage (valuesOf events) = .obj raw ∧ result.usage = .obj (normalizeUsage raw)
  failed : Diagnosed py (valuesOf events) → ∃ text, answer = .error (.providerError text)
  only : ∀ e, answer = .error e → ∃ text, e = .providerError text

/-- Events that the adapter can read, the last message among which is a completed one and the
last usage an object. -/
structure Regular (py : Stdlib) (stdout : String) (events : List (Except LoadError Json)) : Prop where
  readable : ∀ event ∈ events, ∃ v, event = .ok v ∧ ReadableEvent v
  message : (∀ v ∈ valuesOf events, isFailure py v = false) →
    ∀ text, lastCompleted (valuesOf events) = some text →
      ((valuesOf events).filterMap (messageText py)).getLast? = some text
  usage : ¬ Diagnosed py (valuesOf events) → answerText py stdout (valuesOf events) ≠ "" →
    ∃ raw, sentUsage (valuesOf events) = .obj raw

theorem exists_allGood {events : List (Except LoadError Json)}
    (h : ∀ event ∈ events, ∃ v, event = .ok v ∧ ReadableEvent v) :
    AllGood ReadableEvent events (valuesOf events) := by
  induction events with
  | nil => exact ⟨rfl, fun v hv => nomatch hv⟩
  | cons event events ih =>
      obtain ⟨⟨v, rfl, hv⟩, hevents⟩ := List.forall_mem_cons.mp h
      obtain ⟨heq, hgood⟩ := ih hevents
      exact ⟨congrArg (Except.ok v :: ·) heq, List.forall_mem_cons.mpr ⟨hv, hgood⟩⟩

theorem not_diagnosed {py : Stdlib} {values : List Json}
    (h : ∀ v ∈ values, isFailure py v = false) : ¬ Diagnosed py values := by
  rintro ⟨v, hv, m, hm, -⟩
  rw [diagnostics_eq_nil (h v hv)] at hm
  cases hm

theorem lastCompleted_ne_empty {values : List Json} {text : String}
    (h : lastCompleted values = some text) : text ≠ "" := by
  obtain ⟨v, -, hv⟩ := List.mem_filterMap.mp (List.mem_of_getLast? h)
  rintro rfl
  unfold completedMessage at hv
  split at hv
  · split at hv
    · split at hv
      · split_ifs at hv with hempty
        exact hempty (Option.some.inj hv)
      · cases hv
    · cases hv
  · cases hv

/-- A completed message is one that the adapter keeps. -/
theorem messageText_of_completedMessage {py : Stdlib} {v : Json} {text : String}
    (h : completedMessage v = some text) : messageText py v = some text := by
  unfold completedMessage at h
  split at h
  · next kvs =>
      split at h
      · next item htype hitem =>
          split at h
          · next t hmessage htext =>
              split_ifs at h with hempty
              cases h
              have htruthy : (fieldOf kvs "item").truthy = true := by
                rw [hitem]
                cases item with
                | nil => cases hmessage
                | cons kv item => rfl
              have hstr : (Json.str text).truthy = true := by
                rw [Json.truthy, bne_iff_ne]
                exact hempty
              rw [messageText, orElse, if_pos htruthy, hitem]
              dsimp only
              rw [itemText, htext, if_pos ⟨hmessage, hstr⟩]
              rfl
          · cases h
      · cases h
  · cases h

theorem usageOf_cases (v : Json) :
    (∃ raw, v = .obj raw ∧ usageOf v = .ok (.obj (normalizeUsage raw))) ∨
      ∃ e, usageOf v = .error e ∧ Foreign e := by
  cases v with
  | obj raw => exact .inl ⟨raw, rfl, rfl⟩
  | _ => exact .inr ⟨_, rfl, foreign_attributeError "get"⟩

section Main

variable {py : Stdlib} {host : CliHost} {prompt cwd exe schema : String} {model : Json}
variable {cp : CompletedProcess}

/-- Over lines that stay whole when the output is cut, the adapter is right exactly about
regular events. -/
theorem codex_iff (h : Ran host prompt cwd model exe schema cp) {ended : Bool}
    {lines : List (EventLine py)} (hout : cp.stdout = String.ofList (output ended lines))
    (hwhole : ∀ line ∈ lines, line.Whole) :
    ReadsEvents py (lines.map EventLine.loaded) (invokeCodex py host prompt cwd model) ↔
      Regular py cp.stdout (lines.map EventLine.loaded) := by
  have hpieces : readPieces py (splitLines [] cp.stdout.toList) = lines.map EventLine.loaded := by
    rw [hout, String.toList_ofList, readPieces_output ended hwhole]
  generalize lines.map EventLine.loaded = events at hpieces
  by_cases hgood : ∀ event ∈ events, ∃ v, event = .ok v ∧ ReadableEvent v
  · have hread : AllGood ReadableEvent (readPieces py (splitLines [] cp.stdout.toList))
        (valuesOf events) := by
      rw [hpieces]
      exact exists_allGood hgood
    obtain ⟨hd, t, ht⟩ | ⟨hd, hempty, t, ht⟩ | ⟨hd, hne, hanswer⟩ := invokeCodex_read h hread
    · -- a diagnostic is reported
      rw [ht]
      refine iff_of_true ⟨fun hno => absurd hd (not_diagnosed hno), fun _ => ⟨t, rfl⟩, ?_⟩
        ⟨hgood, fun hno => absurd hd (not_diagnosed hno), fun hnot => absurd hd hnot⟩
      intro e he
      exact ⟨t, (Except.error.inj he).symm⟩
    · -- there is no text
      rw [ht]
      constructor
      · rintro ⟨hanswered, -, -⟩
        refine ⟨hgood, fun hno text htext => ?_, fun _ hne => absurd hempty hne⟩
        obtain ⟨raw, result, hok, -⟩ := hanswered hno text htext
        cases hok
      · rintro ⟨-, hmessage, -⟩
        refine ⟨fun hno text htext => ?_, fun hdiagnosed => absurd hdiagnosed hd, ?_⟩
        · rw [answerText, hmessage hno text htext] at hempty
          exact absurd hempty (lastCompleted_ne_empty htext)
        · intro e he
          exact ⟨t, (Except.error.inj he).symm⟩
    · -- the text is delivered, if the usage can be normalized
      rw [hanswer]
      obtain ⟨raw, hraw, husage⟩ | ⟨e, he, hforeign⟩ := usageOf_cases (sentUsage (valuesOf events))
      · rw [husage]
        constructor
        · rintro ⟨hanswered, -, -⟩
          refine ⟨hgood, fun hno text htext => ?_, fun _ _ => ⟨raw, hraw⟩⟩
          obtain ⟨raw', result, hok, htext', -⟩ := hanswered hno text htext
          cases hok
          obtain ⟨v, hv, hcompleted⟩ := List.mem_filterMap.mp (List.mem_of_getLast? htext)
          have hmem : text ∈ (valuesOf events).filterMap (messageText py) :=
            List.mem_filterMap.mpr ⟨v, hv, messageText_of_completedMessage hcompleted⟩
          cases hlast : ((valuesOf events).filterMap (messageText py)).getLast? with
          | none =>
              rw [List.getLast?_eq_none_iff.mp hlast] at hmem
              cases hmem
          | some last =>
              rw [answerText, hlast] at htext'
              exact congrArg some (PyStr.ofString_injective htext')
        · rintro ⟨-, hmessage, -⟩
          refine ⟨fun hno text htext => ?_, fun hdiagnosed => absurd hdiagnosed hd, ?_⟩
          · refine ⟨raw, _, rfl, ?_, hraw, rfl⟩
            rw [answerText, hmessage hno text htext]
            rfl
          · intro e he
            cases he
      · rw [he]
        refine iff_of_false ?_ ?_
        · rintro ⟨-, -, honly⟩
          obtain ⟨text, rfl⟩ := honly e rfl
          exact hforeign text rfl
        · rintro ⟨-, -, husage⟩
          obtain ⟨raw, hraw⟩ := husage hd hne
          rw [hraw] at he
          cases he
  · -- an event that is not read ends in another exception
    refine iff_of_false ?_ fun hregular => hgood hregular.readable
    intro hreads
    have hunread : ∀ values,
        ¬ AllGood ReadableEvent (readPieces py (splitLines [] cp.stdout.toList)) values := by
      rintro values hread
      rw [hpieces] at hread
      obtain ⟨rfl, hvalues⟩ := hread
      apply hgood
      rw [List.forall_mem_map]
      exact fun v hv => ⟨v, rfl, hvalues v hv⟩
    obtain ⟨e, he, hforeign⟩ := invokeCodex_unread h hunread
    obtain ⟨text, rfl⟩ := hreads.only e he
    exact hforeign text rfl

end Main

/-- When nothing is read, all that was printed is the text. -/
theorem text_of_nothing {py : Stdlib} {host : CliHost} {prompt cwd exe schema : String}
    {model : Json} {cp : CompletedProcess} {result : ProviderResult}
    (h : Ran host prompt cwd model exe schema cp)
    (hread : readPieces py (splitLines [] cp.stdout.toList) = [])
    (hok : invokeCodex py host prompt cwd model = .ok result) :
    result.text = PyStr.ofString (strip cp.stdout) := by
  have hgood : AllGood ReadableEvent (readPieces py (splitLines [] cp.stdout.toList)) [] :=
    ⟨hread, fun v hv => nomatch hv⟩
  obtain ⟨⟨v, hv, -⟩, -⟩ | ⟨-, -, t, ht⟩ | ⟨-, -, hanswer⟩ := invokeCodex_read h hgood
  · cases hv
  · rw [ht] at hok
    cases hok
  · rw [hanswer] at hok
    obtain ⟨usage, -, hok⟩ := bind_eq_ok.mp hok
    have hresult := Except.ok.inj hok
    have hall : answerText py cp.stdout [] = strip cp.stdout := rfl
    rw [← hresult, hall]

/-! ### Messages with a separator -/

/-- A standard library; none of its functions but `json.loads` matters here. -/
def messageStdlib : Stdlib where
  sha256 _ := zeroDigest
  floatRepr _ := "0.0"
  lower s := s
  format _ := "None"
  repr _ := "''"
  interpreter := usualInterpreter

/-- The line of a completed agent message, up to its text and after it. -/
def messageStart : List Char :=
  "\x7b\"type\":\"item.completed\",\"item\":\x7b\"type\":\"agent_message\",\"text\":\"".toList

def messageEnd : List Char := "\"\x7d\x7d".toList

/-- The line of a message with a text of one character. -/
def messageChars (c : Char) : List Char := messageStart ++ c :: messageEnd

/-- The event. -/
def messageEvent (c : Char) : Json :=
  .obj [("type", .str "item.completed"),
    ("item", .obj [("type", .str "agent_message"), ("text", .str (String.ofList [c]))])]

/-- Codex prints the line. -/
def messageProcess (c : Char) : CompletedProcess := ⟨0, String.ofList (messageChars c), ""⟩

def messageHost (c : Char) : CliHost where
  which _ := some "codex"
  schemaPath := .ok "schema.json"
  transportSchema := ""
  run _ _ := .ok (messageProcess c)

theorem ran_message (c : Char) :
    Ran (messageHost c) "" "." (.str "provider_default") "codex" "schema.json"
      (messageProcess c) where
  which := rfl
  schemaPath := rfl
  run := rfl
  success := rfl

theorem toList_stdout (c : Char) : (messageProcess c).stdout.toList = messageChars c :=
  String.toList_ofList

theorem stdout_ne_text (c : Char) : strip (messageProcess c).stdout ≠ String.ofList [c] := by
  intro h
  have hchars : stripChars (messageChars c) = [c] := by
    rw [strip, toList_stdout] at h
    exact String.ofList_inj.mp h
  -- two letters of the line
  have ht : 't' ∈ stripChars (messageChars c) :=
    mem_stripChars (by decide) (List.mem_append_left _ (by decide))
  have hy : 'y' ∈ stripChars (messageChars c) :=
    mem_stripChars (by decide) (List.mem_append_left _ (by decide))
  rw [hchars, List.mem_singleton] at ht hy
  exact absurd (ht.trans hy.symm) (by decide)

theorem lastCompleted_message (c : Char) :
    lastCompleted [messageEvent c] = some (String.ofList [c]) := by
  have hne : String.ofList [c] ≠ "" := by
    intro h
    have hchars := congrArg String.toList h
    rw [String.toList_ofList] at hchars
    cases hchars
  have htext : completedMessage (messageEvent c) = some (String.ofList [c]) := by
    unfold completedMessage messageEvent
    exact if_neg hne
  rw [lastCompleted, List.filterMap_cons, htext]
  rfl

/-- Neither piece of the line is JSON. -/
theorem readPieces_message {c : Char} (hc : isLineBreak c = true) (hr : c ≠ '\r') :
    readPieces messageStdlib (splitLines [] (messageProcess c).stdout.toList) = [] := by
  have hstart : ∀ d ∈ messageStart, isLineBreak d = false :=
    List.all_iff_forall_prop.mp (by decide +kernel)
  have hend : ∀ d ∈ messageEnd, isLineBreak d = false :=
    List.all_iff_forall_prop.mp (by decide +kernel)
  have hpieces : readPieces messageStdlib [messageStart, messageEnd] = [] := by decide +kernel
  rw [toList_stdout, messageChars, splitLines_cut hstart hc hr,
    splitLines_unbroken hend [] (by decide)]
  exact hpieces

/-- A message with the character is not read: what was printed is taken for it. -/
theorem message_lost {c : Char} (hc : isLineBreak c = true) (hr : c ≠ '\r')
    (hload : messageStdlib.jsonLoads (messageProcess c).stdout = .ok (messageEvent c)) :
    ¬ ReadsEvents messageStdlib [messageStdlib.jsonLoads (messageProcess c).stdout]
      (invokeCodex messageStdlib (messageHost c) "" "." (.str "provider_default")) := by
  intro hreads
  rw [hload] at hreads
  have hno : ∀ v ∈ [messageEvent c], isFailure messageStdlib v = false :=
    List.forall_mem_singleton.mpr (by simp [messageEvent, isFailure, fieldOf, lookup, orElse,
      Json.truthy, Stdlib.str])
  have hanswered := hreads.answered
  have hvalues : valuesOf [(.ok (messageEvent c) : Except LoadError Json)] = [messageEvent c] := rfl
  rw [hvalues] at hanswered
  obtain ⟨raw, result, hok, htext, -⟩ :=
    hanswered hno (String.ofList [c]) (lastCompleted_message c)
  have hall := text_of_nothing (ran_message c) (readPieces_message hc hr) hok
  rw [hall] at htext
  exact stdout_ne_text c (PyStr.ofString_injective htext)

/-- With each of the three separators that JSON permits in a string, a message is lost. -/
theorem separators_lose :
    ¬ ReadsEvents messageStdlib [messageStdlib.jsonLoads (messageProcess '\u2028').stdout]
      (invokeCodex messageStdlib (messageHost '\u2028') "" "." (.str "provider_default")) ∧
    ¬ ReadsEvents messageStdlib [messageStdlib.jsonLoads (messageProcess '\u2029').stdout]
      (invokeCodex messageStdlib (messageHost '\u2029') "" "." (.str "provider_default")) ∧
    ¬ ReadsEvents messageStdlib [messageStdlib.jsonLoads (messageProcess '\u0085').stdout]
      (invokeCodex messageStdlib (messageHost '\u0085') "" "." (.str "provider_default")) := by
  refine ⟨message_lost (by decide) (by decide) ?_, message_lost (by decide) (by decide) ?_,
    message_lost (by decide) (by decide) ?_⟩
  · decide +kernel
  · decide +kernel
  · decide +kernel

/-- The line of a message without a separator. -/
def plainLine : EventLine messageStdlib where
  chars := messageChars 'a'
  oneLine := by decide +kernel
  isJson := by decide +kernel

/-- Such a message is delivered. -/
theorem plain_read :
    ReadsEvents messageStdlib [plainLine.loaded]
      (invokeCodex messageStdlib (messageHost 'a') "" "." (.str "provider_default")) := by
  have hwhole : ∀ line ∈ [plainLine], line.Whole :=
    List.forall_mem_singleton.mpr (EventLine.whole_of_unbroken
      (List.all_iff_forall_prop.mp (by decide +kernel)))
  have hload : plainLine.loaded = .ok (messageEvent 'a') := by decide +kernel
  have hout : (messageProcess 'a').stdout = String.ofList (output false [plainLine]) := rfl
  have hiff := codex_iff (ran_message 'a') hout hwhole
  rw [List.map_singleton, hload] at hiff
  rw [hload]
  apply hiff.mpr
  have hreadable : ReadableEvent (messageEvent 'a') := by
    refine ⟨fun _ => ⟨_, rfl⟩, rfl, fun hturn => ?_⟩
    exact absurd hturn (by decide)
  refine ⟨List.forall_mem_singleton.mpr ⟨_, rfl, hreadable⟩, ?_, fun _ _ => ⟨[], by decide⟩⟩
  intro _ text htext
  have hmessage : valuesOf [(.ok (messageEvent 'a') : Except LoadError Json)] =
      [messageEvent 'a'] := rfl
  rw [hmessage, lastCompleted_message] at htext
  rw [hmessage, ← htext]
  decide

end Konoha
