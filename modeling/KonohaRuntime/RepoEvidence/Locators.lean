/-
RepoEvidence/Locators.lean

The lines that the entries of documentation claims and of manifest scripts point at.

A claim is numbered among the pieces of `str.splitlines`, which are those of the lines of the file
cut further.  So its number is that of its line as long as nothing before it is cut
(`straight_iff`).  The line of a script is where the first match of a pattern starts, and the
whitespace that the pattern begins with may start on an earlier line (`findManifestKeyLine_iff`).
The line on which the tables of scripts define it is that of the key in the TOML document
(`definedAt`).
-/
import KonohaRuntime.Base.Strip
import KonohaRuntime.Base.TomlKeys
import KonohaRuntime.RepoEvidence.Imports

namespace Konoha.RepoEvidence

open Json

/-! ### Places of items in lists of lists -/

section Offset

variable {α β : Type} {f : α → List β}

/-- The number of items before those of the `j`-th list. -/
def offset (f : α → List β) (xs : List α) (j : Nat) : Nat :=
  ((xs.take j).map fun x => (f x).length).sum

theorem getElem?_flatMap_iff {xs : List α} {n : Nat} {y : β} :
    (xs.flatMap f)[n]? = some y ↔
      ∃ j x i, xs[j]? = some x ∧ (f x)[i]? = some y ∧ n = offset f xs j + i := by
  induction xs generalizing n with
  | nil => exact iff_of_false (fun h => nomatch h) fun ⟨j, x, i, h, _⟩ => nomatch h
  | cons x xs ih =>
      rw [List.flatMap_cons]
      constructor
      · intro h
        rcases Nat.lt_or_ge n (f x).length with hlt | hge
        · rw [List.getElem?_append_left hlt] at h
          exact ⟨0, x, n, rfl, h, (Nat.zero_add n).symm⟩
        · rw [List.getElem?_append_right hge] at h
          obtain ⟨j, z, i, hz, hy, hn⟩ := ih.mp h
          refine ⟨j + 1, z, i, hz, hy, ?_⟩
          rw [offset, List.take_succ_cons, List.map_cons, List.sum_cons, ← offset]
          omega
      · rintro ⟨j, z, i, hz, hy, rfl⟩
        cases j with
        | zero =>
            obtain rfl := Option.some.inj hz
            rw [offset, List.take_zero, List.map_nil, List.sum_nil, Nat.zero_add,
              List.getElem?_append_left (List.getElem?_eq_some_iff.mp hy).1]
            exact hy
        | succ j =>
            rw [offset, List.take_succ_cons, List.map_cons, List.sum_cons, ← offset, Nat.add_assoc,
              List.getElem?_append_right (Nat.le_add_right _ _), Nat.add_sub_cancel_left]
            exact ih.mpr ⟨j, z, i, hz, hy, rfl⟩

theorem le_offset (hf : ∀ x, 0 < (f x).length) {xs : List α} {j : Nat} (hj : j ≤ xs.length) :
    j ≤ offset f xs j := by
  induction xs generalizing j with
  | nil => exact Nat.le_trans hj (Nat.zero_le _)
  | cons x xs ih =>
      cases j with
      | zero => exact Nat.zero_le _
      | succ j =>
          rw [offset, List.take_succ_cons, List.map_cons, List.sum_cons, ← offset]
          have := ih (Nat.le_of_succ_le_succ hj)
          have := hf x
          omega

/-- The `j`-th list begins at place `j` just when the ones before it have one item each. -/
theorem offset_eq_iff (hf : ∀ x, 0 < (f x).length) {xs : List α} {j : Nat} (hj : j ≤ xs.length) :
    offset f xs j = j ↔ ∀ i < j, ∀ x, xs[i]? = some x → (f x).length = 1 := by
  induction xs generalizing j with
  | nil =>
      obtain rfl : j = 0 := Nat.le_zero.mp hj
      exact iff_of_true rfl fun i hi => absurd hi (Nat.not_lt_zero i)
  | cons x xs ih =>
      cases j with
      | zero => exact iff_of_true rfl fun i hi => absurd hi (Nat.not_lt_zero i)
      | succ j =>
          have hj := Nat.le_of_succ_le_succ hj
          have hle := le_offset hf hj
          have hx := hf x
          rw [offset, List.take_succ_cons, List.map_cons, List.sum_cons, ← offset]
          constructor
          · intro h i hi y hy
            cases i with
            | zero =>
                obtain rfl := Option.some.inj hy
                omega
            | succ i => exact (ih hj).mp (by omega) i (by omega) y hy
          · intro h
            have hfirst := h 0 (by omega) x rfl
            have hrest := (ih hj).mpr fun i hi y hy => h (i + 1) (by omega) y hy
            omega

end Offset

/-! ### The lines of claims -/

/-- A piece of the line is a claim. -/
def HoldsClaim (readme : Bool) (line : List Char) : Prop :=
  ∃ piece ∈ linePieces [] line, isClaim readme (stripChars piece) = true

/-- Up to a line that holds a claim no line has a break of another kind, and after the claim there
is only whitespace. -/
def Straight (readme : Bool) (text : List Char) : Prop :=
  ∀ (j : Nat) line, (newlineLines [] text)[j]? = some line → HoldsClaim readme line →
    (∀ i < j, ∀ earlier, (newlineLines [] text)[i]? = some earlier → Unbroken earlier) ∧
      ∃ p w, line = p ++ w ∧ Unbroken p ∧ ∀ c ∈ w, isPySpace c = true

theorem isClaim_nil (readme : Bool) : isClaim readme [] = false := by
  cases readme <;> decide

theorem mem_claimsOf {readme : Bool} {text : String} {n : Nat} {statement : List Char} :
    (n, statement) ∈ claimsOf readme text ↔
      ∃ i piece, (splitLines [] text.toList)[i]? = some piece ∧ n = i + 1 ∧
        isClaim readme (stripChars piece) = true ∧ statement = stripChars piece := by
  rw [claimsOf, List.mem_filterMap]
  constructor
  · rintro ⟨⟨stripped, m⟩, hmem, h⟩
    dsimp only at h
    split_ifs at h with hclaim
    obtain ⟨rfl, rfl⟩ := Prod.mk.inj (Option.some.inj h)
    obtain ⟨hle, hget⟩ := List.mem_zipIdx_iff_le_and_getElem?_sub.mp hmem
    rw [List.getElem?_map, Option.map_eq_some_iff] at hget
    obtain ⟨piece, hpiece, rfl⟩ := hget
    dsimp only at hle
    exact ⟨m - 1, piece, hpiece, by omega, hclaim, rfl⟩
  · rintro ⟨i, piece, hpiece, rfl, hclaim, rfl⟩
    refine ⟨(stripChars piece, i + 1), ?_, if_pos hclaim⟩
    refine List.mem_zipIdx_iff_le_and_getElem?_sub.mpr ⟨Nat.le_add_left 1 i, ?_⟩
    rw [Nat.add_sub_cancel, List.getElem?_map, hpiece]
    rfl

/-- The claims of a text, by their lines and pieces. -/
theorem mem_claimsOf_iff {readme : Bool} {text : String} {n : Nat} {statement : List Char} :
    (n, statement) ∈ claimsOf readme text ↔
      ∃ j line i piece, (newlineLines [] text.toList)[j]? = some line ∧
        (linePieces [] line)[i]? = some piece ∧
        n = offset (linePieces []) (newlineLines [] text.toList) j + i + 1 ∧
        isClaim readme (stripChars piece) = true ∧ statement = stripChars piece := by
  have hplace (i : Nat) (piece : List Char) (hclaim : isClaim readme (stripChars piece) = true) :
      (splitLines [] text.toList)[i]? = some piece ↔
        ((newlineLines [] text.toList).flatMap (linePieces []))[i]? = some piece := by
    rcases flatMap_linePieces text.toList with heq | heq
    · rw [heq]
    · rw [heq]
      have hne : piece ≠ [] := by
        rintro rfl
        rw [show stripChars [] = [] from rfl, isClaim_nil] at hclaim
        cases hclaim
      rcases Nat.lt_or_ge i (splitLines [] text.toList).length with hlt | hge
      · rw [List.getElem?_append_left hlt]
      · rw [List.getElem?_append_right hge, List.getElem?_eq_none hge]
        refine iff_of_false (fun h => nomatch h) fun h => hne ?_
        exact List.mem_singleton.mp (List.mem_of_getElem? h)
  rw [mem_claimsOf]
  constructor
  · rintro ⟨i, piece, hpiece, rfl, hclaim, rfl⟩
    obtain ⟨j, line, k, hline, hk, rfl⟩ := getElem?_flatMap_iff.mp ((hplace i piece hclaim).mp hpiece)
    exact ⟨j, line, k, piece, hline, hk, rfl, hclaim, rfl⟩
  · rintro ⟨j, line, k, piece, hline, hk, rfl, hclaim, rfl⟩
    exact ⟨_, piece, (hplace _ piece hclaim).mpr (getElem?_flatMap_iff.mpr ⟨j, line, k, hline, hk, rfl⟩),
      rfl, hclaim, rfl⟩

theorem length_linePieces_pos (line : List Char) : 0 < (linePieces [] line).length :=
  List.length_pos_iff.mpr (linePieces_ne_nil [] line)

theorem length_linePieces_eq_one_iff (line : List Char) :
    (linePieces [] line).length = 1 ↔ Unbroken line := by
  obtain ⟨first, rest, pieces, rfl, hpieces, hfirst, -, hnil⟩ := linePieces_eq line
  constructor
  · intro h
    rw [hpieces, List.length_cons, Nat.add_eq_right, List.length_eq_zero_iff] at h
    rwa [hnil h, List.append_nil]
  · intro h
    have hone := linePieces_unbroken h [] []
    rw [List.append_nil] at hone
    rw [hone]
    rfl

theorem unbroken_nil : Unbroken [] := fun _ hc => absurd hc List.not_mem_nil

theorem unbroken_stripChars {cs : List Char} (h : Unbroken cs) : Unbroken (stripChars cs) := by
  obtain ⟨a, b, hcs, -, -⟩ := stripChars_parts cs
  intro c hc
  refine h c ?_
  rw [hcs]
  exact List.mem_append_left _ (List.mem_append_right _ hc)

theorem unbroken_of_mem {piece line p : List Char} (hpiece : Unbroken piece)
    (hp : p ∈ linePieces piece line) : Unbroken p := by
  induction line generalizing piece with
  | nil =>
      rw [linePieces, List.mem_singleton] at hp
      subst hp
      exact fun c hc => hpiece c (List.mem_reverse.mp hc)
  | cons c line ih =>
      rw [linePieces] at hp
      split_ifs at hp with hbreak
      · rcases List.mem_cons.mp hp with rfl | hp
        · exact fun c hc => hpiece c (List.mem_reverse.mp hc)
        · exact ih unbroken_nil hp
      · refine ih (fun d hd => ?_) hp
        rcases List.mem_cons.mp hd with rfl | hd
        · exact Bool.not_eq_true _ ▸ hbreak
        · exact hpiece d hd

theorem linePieces_head (piece line : List Char) :
    ∃ b ps, b <+: line ∧ linePieces piece line = (piece.reverse ++ b) :: ps := by
  induction line generalizing piece with
  | nil => exact ⟨[], [], List.prefix_refl _, by rw [linePieces, List.append_nil]⟩
  | cons c line ih =>
      rw [linePieces]
      split_ifs
      · exact ⟨[], _, List.nil_prefix, by rw [List.append_nil]⟩
      · obtain ⟨b, ps, hb, heq⟩ := ih (c :: piece)
        refine ⟨c :: b, ps, (List.prefix_cons_inj c).mpr hb, ?_⟩
        rw [heq, List.reverse_cons, List.append_assoc, List.singleton_append]

/-- A line that is an unbroken text once it is stripped has it as a piece. -/
theorem exists_linePiece {line : List Char} (h : Unbroken (stripChars line)) :
    ∃ piece ∈ linePieces [] line, stripChars piece = stripChars line := by
  obtain ⟨a, b, hline, ha, hb⟩ := stripChars_parts line
  have hgo : ∀ (a piece : List Char), (∀ c ∈ a, isPySpace c = true) →
      (∀ c ∈ piece, isPySpace c = true) →
      ∃ p ∈ linePieces piece (a ++ (stripChars line ++ b)), stripChars p = stripChars line := by
    intro a
    induction a with
    | nil =>
        intro piece _ hpiece
        obtain ⟨b', ps, hb', heq⟩ := linePieces_head ((stripChars line).reverse ++ piece) b
        rw [List.nil_append, linePieces_unbroken h, heq]
        refine ⟨_, List.mem_cons_self, ?_⟩
        rw [List.reverse_append, List.reverse_reverse,
          stripChars_append fun c hc => hb c (hb'.subset hc),
          stripChars_prepend fun c hc => hpiece c (List.mem_reverse.mp hc), stripChars_stripChars]
    | cons c a ih =>
        intro piece ha hpiece
        rw [List.cons_append, linePieces]
        have hrest : ∀ d ∈ a, isPySpace d = true := fun d hd => ha d (List.mem_cons_of_mem _ hd)
        split_ifs
        · obtain ⟨p, hp, heq⟩ := ih [] hrest fun d hd => absurd hd List.not_mem_nil
          exact ⟨p, List.mem_cons_of_mem _ hp, heq⟩
        · refine ih (c :: piece) hrest fun d hd => ?_
          exact (List.mem_cons.mp hd).elim (fun h => h ▸ ha c List.mem_cons_self) (hpiece d)
  have := hgo a [] ha fun d hd => absurd hd List.not_mem_nil
  rwa [← List.append_assoc, ← hline] at this

/-- The last line that holds a claim. -/
theorem exists_last {readme : Bool} {lines : List (List Char)} {j : Nat} {line : List Char}
    (hline : lines[j]? = some line) (h : HoldsClaim readme line) :
    ∃ last, j ≤ last ∧ ∃ lastLine, lines[last]? = some lastLine ∧ HoldsClaim readme lastLine ∧
      ∀ k x, lines[k]? = some x → HoldsClaim readme x → k ≤ last := by
  classical
  have hbound {k : Nat} {x : List Char} (hx : lines[k]? = some x) : k ≤ lines.length :=
    Nat.le_of_lt (List.getElem?_eq_some_iff.mp hx).1
  have hspec := Nat.findGreatest_spec (P := fun k => ∃ x, lines[k]? = some x ∧ HoldsClaim readme x)
    (hbound hline) ⟨line, hline, h⟩
  obtain ⟨lastLine, hlast, hholds⟩ := hspec
  exact ⟨_, Nat.le_findGreatest (hbound hline) ⟨line, hline, h⟩, lastLine, hlast, hholds,
    fun k x hx hxh => Nat.le_findGreatest (hbound hx) ⟨x, hx, hxh⟩⟩

/-- The claims of a text are on their lines just when the text is straight. -/
theorem straight_iff {readme : Bool} {text : String} :
    (∀ n statement, (n, statement) ∈ claimsOf readme text →
      ∃ line, (newlineLines [] text.toList)[n - 1]? = some line ∧ stripChars line = statement) ↔
      Straight readme text.toList := by
  have hclaims (n : Nat) (statement : List Char) :
      (n, statement) ∈ claimsOf readme text ↔ _ := mem_claimsOf_iff
  unfold Straight
  generalize newlineLines [] text.toList = lines at hclaims ⊢
  constructor
  · intro hlocated
    -- a claim of a line is on a line that comes no earlier
    have hmoved {j : Nat} {line : List Char} (hline : lines[j]? = some line) {i : Nat}
        {piece : List Char} (hi : (linePieces [] line)[i]? = some piece)
        (hclaim : isClaim readme (stripChars piece) = true) :
        ∃ found, lines[offset (linePieces []) lines j + i]? = some found ∧
          HoldsClaim readme found ∧ stripChars found = stripChars piece := by
      obtain ⟨found, hfound, hstrip⟩ := hlocated _ _
        ((hclaims _ _).mpr ⟨j, line, i, piece, hline, hi, rfl, hclaim, rfl⟩)
      rw [Nat.add_sub_cancel] at hfound
      have hpiece : Unbroken piece := unbroken_of_mem unbroken_nil (List.mem_of_getElem? hi)
      have hunbroken : Unbroken (stripChars found) := hstrip ▸ unbroken_stripChars hpiece
      obtain ⟨piece', hpiece', heq⟩ := exists_linePiece hunbroken
      exact ⟨found, hfound, ⟨piece', hpiece', by rw [heq, hstrip, hclaim]⟩, hstrip⟩
    intro j line hline hholds
    obtain ⟨last, hle, lastLine, hlast, hlastHolds, hmax⟩ := exists_last hline hholds
    -- so those of the last such line are there and nowhere else
    have hstay {i : Nat} {piece : List Char} (hi : (linePieces [] lastLine)[i]? = some piece)
        (hclaim : isClaim readme (stripChars piece) = true) :
        offset (linePieces []) lines last = last ∧ i = 0 ∧
          stripChars lastLine = stripChars piece := by
      obtain ⟨found, hfound, hfoundHolds, hstrip⟩ := hmoved hlast hi hclaim
      have hlen := (List.getElem?_eq_some_iff.mp hlast).1
      have hoffset := le_offset length_linePieces_pos (Nat.le_of_lt hlen)
      have hbound := hmax _ found hfound hfoundHolds
      have hsame : offset (linePieces []) lines last + i = last := by omega
      rw [hsame, hlast] at hfound
      refine ⟨by omega, by omega, ?_⟩
      rw [Option.some.inj hfound, hstrip]
    obtain ⟨piece, hpiece, hclaim⟩ := hlastHolds
    obtain ⟨i, hi⟩ := List.mem_iff_getElem?.mp hpiece
    obtain ⟨hoffset, rfl, hstrip⟩ := hstay hi hclaim
    have hlen := (List.getElem?_eq_some_iff.mp hlast).1
    have hearlier : ∀ k < last, ∀ x, lines[k]? = some x → Unbroken x := fun k hk x hx =>
      (length_linePieces_eq_one_iff x).mp
        ((offset_eq_iff length_linePieces_pos (Nat.le_of_lt hlen)).mp hoffset k hk x hx)
    refine ⟨fun k hk x hx => hearlier k (by omega) x hx, ?_⟩
    rcases Nat.lt_or_ge j last with hlt | hge
    · exact ⟨line, [], (List.append_nil _).symm, hearlier j hlt line hline,
        fun c hc => (nomatch hc)⟩
    · obtain rfl := Nat.le_antisymm hle hge
      rw [hline] at hlast
      obtain rfl := Option.some.inj hlast
      obtain ⟨first, rest, pieces, rfl, hpieces, hfirst, -, -⟩ := linePieces_eq line
      rw [hpieces] at hi
      obtain rfl := Option.some.inj hi
      refine ⟨first, rest, rfl, hfirst, fun c hc => ?_⟩
      -- what is stripped away holds no other characters
      have hfilter := congrArg (List.filter fun c => !isPySpace c) hstrip
      rw [filter_stripChars, filter_stripChars, List.filter_append, List.append_right_eq_self]
        at hfilter
      simpa using List.filter_eq_nil_iff.mp hfilter c hc
  · intro hstraight n statement hmem
    obtain ⟨j, line, i, piece, hline, hi, rfl, hclaim, rfl⟩ := (hclaims n statement).mp hmem
    obtain ⟨hearlier, p, w, hpw, hp, hw⟩ :=
      hstraight j line hline ⟨piece, List.mem_of_getElem? hi, hclaim⟩
    have hj : j ≤ lines.length := Nat.le_of_lt (List.getElem?_eq_some_iff.mp hline).1
    have hoffset : offset (linePieces []) lines j = j :=
      (offset_eq_iff length_linePieces_pos hj).mpr fun k hk x hx =>
        (length_linePieces_eq_one_iff x).mpr (hearlier k hk x hx)
    subst hpw
    obtain ⟨b, ps, ⟨w', hb⟩, hhead⟩ := linePieces_head p.reverse w
    have hunbroken := linePieces_unbroken hp [] w
    rw [List.append_nil, hhead, List.reverse_reverse] at hunbroken
    obtain ⟨first, rest, pieces, hfr, hpieces, -, hchars, -⟩ := linePieces_eq (p ++ w)
    rw [hpieces, List.cons.injEq] at hunbroken
    obtain ⟨hfirst, rfl⟩ := hunbroken
    have hrest : ∀ c ∈ rest, isPySpace c = true := by
      rw [hfirst, ← hb, List.append_assoc, List.append_cancel_left_eq,
        List.append_cancel_left_eq] at hfr
      exact fun c hc => hw c (hb ▸ List.mem_append_right _ (hfr ▸ hc))
    rw [hpieces] at hi
    cases i with
    | zero =>
        obtain rfl := Option.some.inj hi
        refine ⟨p ++ w, by rw [hoffset, Nat.add_zero, Nat.add_sub_cancel]; exact hline, ?_⟩
        rw [hfr, stripChars_append hrest]
    | succ i =>
        -- the other pieces are blank
        have hblank : stripChars piece = [] := stripChars_eq_nil_iff.mpr fun c hc =>
          hrest c (hchars piece (List.mem_of_getElem? hi) c hc)
        rw [hblank, isClaim_nil] at hclaim
        cases hclaim

/-! ### Keys of a manifest -/

/-- What follows each line feed of a text. -/
def afterFeeds : List Char → List (List Char)
  | [] => []
  | c :: cs => if c = '\n' then cs :: afterFeeds cs else afterFeeds cs

/-- The text from the start of each line on. -/
def fromLines (text : List Char) : List (List Char) := text :: afterFeeds text

/-- After whitespace, blank lines included, a text goes on with the key and an equals sign. -/
def Assigns (key text : List Char) : Prop :=
  ∃ ws rest, text = ws ++ key ++ rest ∧ (∀ c ∈ ws, isPySpace c = true) ∧
    (rest.dropWhile isPySpace).head? = some '='

/-- The line is the first one from which on the text assigns the key; or it is the first line of
all, and there is none. -/
def FirstAssigned (text key : String) (line : Nat) : Prop :=
  (∃ start, (fromLines text.toList)[line - 1]? = some start ∧ Assigns key.toList start ∧
      ∀ i < line - 1, ∀ earlier, (fromLines text.toList)[i]? = some earlier →
        ¬ Assigns key.toList earlier) ∨
    (line = 1 ∧ ∀ start ∈ fromLines text.toList, ¬ Assigns key.toList start)

theorem keyFollows_iff {key cs : List Char} : keyFollows key cs = true ↔ Assigns key cs := by
  induction cs with
  | nil =>
      refine iff_of_false (fun h => nomatch h) ?_
      rintro ⟨ws, rest, heq, -, hrest⟩
      obtain ⟨-, rfl⟩ := List.append_eq_nil_iff.mp heq.symm
      cases hrest
  | cons c cs ih =>
      rw [keyFollows, Bool.or_eq_true, Bool.and_eq_true, Bool.and_eq_true, ih, beq_iff_eq,
        List.isPrefixOf_iff_prefix]
      constructor
      · rintro (⟨⟨rest, hrest⟩, heq⟩ | ⟨hc, ws, rest, rfl, hws, heq⟩)
        · refine ⟨[], rest, hrest.symm, fun c hc => (nomatch hc), ?_⟩
          rwa [← hrest, List.drop_left] at heq
        · refine ⟨c :: ws, rest, rfl, fun d hd => ?_, heq⟩
          exact (List.mem_cons.mp hd).elim (fun h => h ▸ hc) (hws d)
      · rintro ⟨ws, rest, heq, hws, hrest⟩
        cases ws with
        | nil =>
            left
            rw [heq, List.nil_append, List.drop_left]
            exact ⟨List.prefix_append _ _, hrest⟩
        | cons d ws =>
            right
            rw [List.cons_append, List.cons_append, List.cons.injEq] at heq
            obtain ⟨rfl, rfl⟩ := heq
            exact ⟨hws c List.mem_cons_self, ws, rest, rfl,
              fun e he => hws e (List.mem_cons_of_mem _ he), hrest⟩

/-- The search goes through the starts of the lines. -/
theorem firstKeyLine_eq (key cs : List Char) :
    firstKeyLine key true cs = (fromLines cs).findIdx? (keyFollows key) ∧
      firstKeyLine key false cs = ((afterFeeds cs).findIdx? (keyFollows key)).map (· + 1) := by
  induction cs with
  | nil => exact ⟨rfl, rfl⟩
  | cons c cs ih =>
      have hrest : (firstKeyLine key (c == '\n') cs).map (fun n => if c = '\n' then n + 1 else n) =
          ((afterFeeds (c :: cs)).findIdx? (keyFollows key)).map (· + 1) := by
        rw [afterFeeds]
        by_cases hc : c = '\n'
        · simp only [if_pos hc, beq_iff_eq.mpr hc, ih.1]
          rfl
        · simp only [if_neg hc, beq_eq_false_iff_ne.mpr hc, ih.2, Option.map_id']
      constructor
      · rw [firstKeyLine, hrest, Bool.true_and, fromLines, List.findIdx?_cons]
      · rw [firstKeyLine, hrest, Bool.false_and, if_neg Bool.false_ne_true]

/-- The line that is found for a key. -/
theorem findManifestKeyLine_iff {text key : String} {line : Nat} (hpos : 0 < line) :
    findManifestKeyLine text key = line ↔ FirstAssigned text key line := by
  rw [findManifestKeyLine, (firstKeyLine_eq key.toList text.toList).1, FirstAssigned]
  rcases hfind : (fromLines text.toList).findIdx? (keyFollows key.toList) with - | n
  · -- no match: the code falls back to the first line
    have hnone : ∀ start ∈ fromLines text.toList, ¬ Assigns key.toList start := fun start hstart h =>
      absurd (keyFollows_iff.mpr h) (by rw [List.findIdx?_eq_none_iff.mp hfind start hstart]; decide)
    constructor
    · rintro rfl
      exact .inr ⟨rfl, hnone⟩
    · rintro (⟨start, hstart, hassigns, -⟩ | ⟨rfl, -⟩)
      · exact absurd hassigns (hnone start (List.mem_of_getElem? hstart))
      · rfl
  · obtain ⟨hlen, hn, hbefore⟩ := List.findIdx?_eq_some_iff_getElem.mp hfind
    have hget : (fromLines text.toList)[n]? = some (fromLines text.toList)[n] :=
      List.getElem?_eq_getElem hlen
    constructor
    · rintro rfl
      refine .inl ⟨_, hget, keyFollows_iff.mp hn, fun i hi earlier hearlier => ?_⟩
      obtain ⟨hlt, rfl⟩ := List.getElem?_eq_some_iff.mp hearlier
      exact fun h => hbefore i hi (keyFollows_iff.mpr h)
    · rintro (⟨start, hstart, hassigns, hfirst⟩ | ⟨rfl, hnone⟩)
      · rcases Nat.lt_trichotomy n (line - 1) with hlt | heq | hgt
        · exact absurd (keyFollows_iff.mp hn) (hfirst n hlt _ hget)
        · show n + 1 = line
          omega
        · obtain ⟨hlt, rfl⟩ := List.getElem?_eq_some_iff.mp hstart
          exact absurd (keyFollows_iff.mpr hassigns) (hbefore (line - 1) hgt)
      · exact absurd (keyFollows_iff.mp hn) (hnone _ (List.mem_of_getElem? hget))

/-! ### Entries of the index -/

/-- What the reference of an item leads to. -/
def entryOf (index : Index) (item : Dict) : Option Dict :=
  match fieldOf item "evidence_ref" with
  | .str ref => find ref index
  | _ => none

/-- An item and the place of its entry, as they are expected. -/
structure Citation where
  rel : String
  first : Nat
  last : Nat
  method : String
  /-- the field of the item that tells it, and its value -/
  key : String
  value : String

/-- An item is the one that is expected, and its entry as well. -/
def Matches (index : Index) (item : Dict) (c : Citation) : Prop :=
  fieldOf item c.key = .str c.value ∧
    ∃ hash, entryOf index item = some (locator c.rel c.first c.last hash c.method)

/-- A step leaves the entries of the index. -/
structure Grows (s s' : Extraction) : Prop where
  numbered : s'.provenance.Numbered
  find : ∀ ref e, find ref s.provenance = some e → find ref s'.provenance = some e

/-- The items that a step adds to a collection. -/
def Extends (index : Index) (before after : List Dict) (cs : List Citation) : Prop :=
  ∃ items, after = before ++ items ∧ List.Forall₂ (Matches index) items cs

/-- A step adds the expected claims and entrypoints. -/
structure Adds (s s' : Extraction) (docs entries : List Citation) : Prop where
  grows : Grows s s'
  docs : Extends s'.provenance s.docClaims s'.docClaims docs
  entries : Extends s'.provenance s.entrypoints s'.entrypoints entries

section Steps

variable {s s' s'' : Extraction} {docs docs' entries entries' : List Citation}

theorem Grows.keep (h : s.provenance.Numbered) (hindex : s'.provenance = s.provenance) :
    Grows s s' where
  numbered := hindex ▸ h
  find _ _ he := hindex ▸ he

theorem Grows.cite (h : s.provenance.Numbered) {entry : Dict}
    (hindex : s'.provenance = s.provenance.cite entry) : Grows s s' where
  numbered := hindex ▸ h.cite entry
  find _ _ he := hindex ▸ Index.find_cite h he entry

theorem Grows.trans (h : Grows s s') (h' : Grows s' s'') : Grows s s'' where
  numbered := h'.numbered
  find ref e he := h'.find ref e (h.find ref e he)

theorem Matches.grows {item : Dict} {c : Citation} (h : Matches s.provenance item c)
    (hgrows : Grows s s') : Matches s'.provenance item c := by
  obtain ⟨hvalue, hash, hentry⟩ := h
  refine ⟨hvalue, hash, ?_⟩
  unfold entryOf at hentry ⊢
  split at hentry
  · exact hgrows.find _ _ hentry
  · cases hentry

theorem Extends.none {index : Index} {before after : List Dict} (h : after = before) :
    Extends index before after [] := ⟨[], h.trans (List.append_nil _).symm, .nil⟩

theorem Extends.trans {xs ys zs : List Dict} {cs cs' : List Citation}
    (h : Extends s.provenance xs ys cs) (hgrows : Grows s s')
    (h' : Extends s'.provenance ys zs cs') : Extends s'.provenance xs zs (cs ++ cs') := by
  obtain ⟨items, rfl, hmatch⟩ := h
  obtain ⟨items', rfl, hmatch'⟩ := h'
  exact ⟨items ++ items', List.append_assoc _ _ _,
    List.rel_append (hmatch.imp fun _ _ hm => hm.grows hgrows) hmatch'⟩

/-- The item that is made with an entry. -/
theorem Extends.cite {before after : List Dict} {c : Citation} {item : Dict} (hash : String)
    (hindex : s'.provenance = s.provenance.cite (locator c.rel c.first c.last hash c.method))
    (hfield : after = before ++ [item])
    (href : fieldOf item "evidence_ref" = .str s.provenance.nextRef)
    (hvalue : fieldOf item c.key = .str c.value) :
    Extends s'.provenance before after [c] := by
  refine ⟨[item], hfield, .cons ⟨hvalue, hash, ?_⟩ .nil⟩
  rw [entryOf, href, hindex]
  exact find_assign_self _ _ _

theorem Adds.none (h : Grows s s') (hdocs : s'.docClaims = s.docClaims)
    (hentries : s'.entrypoints = s.entrypoints) : Adds s s' [] [] :=
  ⟨h, .none hdocs, .none hentries⟩

theorem Adds.trans (h : Adds s s' docs entries) (h' : Adds s' s'' docs' entries') :
    Adds s s'' (docs ++ docs') (entries ++ entries') :=
  ⟨h.grows.trans h'.grows, h.docs.trans h'.grows h'.docs, h.entries.trans h'.grows h'.entries⟩

variable {α : Type}

theorem Adds.foldl {step : Extraction → α → Extraction} {xs : List α}
    (docs entries : α → List Citation) (h : s.provenance.Numbered)
    (hstep : ∀ s x, x ∈ xs → s.provenance.Numbered → Adds s (step s x) (docs x) (entries x)) :
    Adds s (xs.foldl step s) (xs.flatMap docs) (xs.flatMap entries) := by
  induction xs generalizing s with
  | nil => exact .none (.keep h rfl) rfl rfl
  | cons x xs ih =>
      rw [List.foldl_cons, List.flatMap_cons, List.flatMap_cons]
      have hfirst := hstep s x List.mem_cons_self h
      exact hfirst.trans (ih hfirst.grows.numbered fun s y hy => hstep s y (List.mem_cons_of_mem _ hy))

theorem Adds.foldlM {step : Extraction → α → Except PyExc Extraction} {xs : List α}
    (docs entries : α → List Citation) (h : s.provenance.Numbered)
    (hstep : ∀ s x s', x ∈ xs → s.provenance.Numbered → step s x = .ok s' →
      Adds s s' (docs x) (entries x)) (hok : xs.foldlM step s = .ok s') :
    Adds s s' (xs.flatMap docs) (xs.flatMap entries) := by
  induction xs generalizing s with
  | nil => exact Except.ok.inj hok ▸ .none (.keep h rfl) rfl rfl
  | cons x xs ih =>
      rw [List.foldlM_cons] at hok
      obtain ⟨s₁, hfirst, hrest⟩ := bind_eq_ok.mp hok
      rw [List.flatMap_cons, List.flatMap_cons]
      have hadds := hstep s x s₁ List.mem_cons_self h hfirst
      exact hadds.trans (ih hadds.grows.numbered
        (fun s y s' hy => hstep s y s' (List.mem_cons_of_mem _ hy)) hrest)

theorem flatMap_nil' (xs : List α) : (xs.flatMap fun _ => ([] : List Citation)) = [] :=
  List.flatMap_eq_nil_iff.mpr fun _ _ => rfl

/-- A loop that adds neither. -/
theorem Adds.foldl_none {step : Extraction → α → Extraction} {xs : List α}
    (h : s.provenance.Numbered)
    (hstep : ∀ s x, x ∈ xs → s.provenance.Numbered → Adds s (step s x) [] []) :
    Adds s (xs.foldl step s) [] [] := by
  have hloop := Adds.foldl (fun _ => []) (fun _ => []) h hstep
  rwa [flatMap_nil'] at hloop

end Steps

/-! ### What the steps add -/

/-- The text of a Markdown file. -/
def markdownText (r : FileRead) : Option String :=
  match r.content with
  | .text text => if endsWith ".md" r.rel then some text else none
  | _ => none

/-- The root README. -/
def isReadme (tools : Tools) (rel : String) : Bool := tools.casefold rel = "readme.md"

/-- The claims of a file. -/
def docCitations (tools : Tools) (r : FileRead) : List Citation :=
  match markdownText r with
  | some text => (claimsOf (isReadme tools r.rel) text).map fun claim =>
      ⟨r.rel, claim.1, claim.1, "regex", "statement", String.ofList claim.2⟩
  | none => []

/-- A main guard. -/
def guardCitation (rel : String) : Stmt → List Citation
  | .mainGuard lineno endLineno =>
      [⟨rel, lineno, endLineno, "ast", "reason", "if __name__ == \"__main__\""⟩]
  | _ => []

/-- A script of a manifest. -/
def scriptCitation (rel rawText : String) (script : String × String) : Citation :=
  ⟨rel, findManifestKeyLine rawText script.1, findManifestKeyLine rawText script.1,
    "manifest_parse", "reason", "pyproject.toml script '" ++ script.1 ++ "' -> " ++ script.2⟩

/-- The scripts that a manifest declares. -/
def declaredScripts (tools : Tools) (rawText : String) : List (String × String) :=
  match tools.toml rawText with
  | .ok data =>
      match manifestScriptEntries (tableOf data) with
      | .ok scripts => scripts
      | .error _ => []
  | .error _ => []

section Acquisition

variable {tools : Tools} {s s' : Extraction}

theorem endsWith_getLast {a b text : String} (ha : endsWith a text = true)
    (hb : endsWith b text = true) (hne : a ≠ "") (hne' : b ≠ "") :
    a.toList.getLast? = b.toList.getLast? := by
  have hlast {a : String} (ha : endsWith a text = true) (hne : a ≠ "") :
      a.toList.getLast? = text.toList.getLast? := by
    obtain ⟨pre, hpre⟩ := List.isSuffixOf_iff_suffix.mp ha
    rw [← hpre, List.getLast?_append_of_ne_nil]
    exact fun h => hne (String.toList_eq_nil_iff.mp h)
  rw [hlast ha hne, hlast hb hne']

theorem adds_docClaims (h : s.provenance.Numbered) (rel contentHash : String)
    (claims : List (Nat × List Char)) :
    Adds s (claims.foldl (addDocClaim rel contentHash) s)
      (claims.map fun claim =>
        ⟨rel, claim.1, claim.1, "regex", "statement", String.ofList claim.2⟩) [] := by
  have hstep : ∀ s claim, claim ∈ claims → s.provenance.Numbered →
      Adds s (addDocClaim rel contentHash s claim)
        [⟨rel, claim.1, claim.1, "regex", "statement", String.ofList claim.2⟩] [] :=
    fun s claim _ hs => ⟨.cite hs rfl, .cite contentHash rfl rfl rfl rfl, .none rfl⟩
  have hloop := Adds.foldl _ _ h hstep
  rwa [flatMap_nil', ← List.map_eq_flatMap] at hloop

theorem adds_text (h : s.provenance.Numbered) (rel contentHash text : String) :
    Adds s (addText tools rel contentHash text s)
      (if endsWith ".md" rel then
        (claimsOf (isReadme tools rel) text).map fun claim =>
          ⟨rel, claim.1, claim.1, "regex", "statement", String.ofList claim.2⟩
      else []) [] := by
  rw [addText]
  by_cases hmd : endsWith ".md" rel = true
  · have hother {suffix : String} (hne : suffix ≠ "")
        (hlast : suffix.toList.getLast? ≠ ".md".toList.getLast?) : ¬ endsWith suffix rel = true :=
      fun hsuffix => hlast (endsWith_getLast hsuffix hmd hne (by decide))
    rw [if_neg (hother (by decide) (by decide +kernel)),
      if_neg fun htoml => hother (by decide) (by decide +kernel) htoml.1, if_pos hmd, if_pos hmd]
    exact adds_docClaims h rel contentHash _
  · rw [if_neg hmd, if_neg hmd]
    split_ifs
    · exact .none (.keep h rfl) rfl rfl
    · exact .none (.keep h rfl) rfl rfl
    · exact .none (.keep h rfl) rfl rfl

theorem adds_file {r : FileRead} (h : s.provenance.Numbered) (hok : addFile tools s r = .ok s') :
    Adds s s' (docCitations tools r) [] := by
  unfold addFile at hok
  split at hok
  · cases hok
  · next contentHash hhash =>
    dsimp only at hok
    generalize hs₁ : ({ s with
        fileHash := _, languages := _, manifests := _ } : Extraction) = s₁ at hok
    have hkeep : Adds s s₁ [] [] := by
      subst hs₁
      exact .none (.keep h rfl) rfl rfl
    suffices hrest : Adds s₁ s' (docCitations tools r) [] from hkeep.trans hrest
    unfold docCitations markdownText
    split at hok <;> obtain rfl := Except.ok.inj hok
    · next hcontent => rw [hcontent]; exact .none (.keep hkeep.grows.numbered rfl) rfl rfl
    · next hcontent => rw [hcontent]; exact .none (.keep hkeep.grows.numbered rfl) rfl rfl
    · next text hcontent =>
      have htext : Adds s₁ (addText tools r.rel contentHash text s₁) _ [] :=
        adds_text hkeep.grows.numbered r.rel contentHash text
      rw [hcontent]
      by_cases hmd : endsWith ".md" r.rel = true
      · rw [if_pos hmd] at htext
        dsimp only
        rwa [if_pos hmd]
      · rw [if_neg hmd] at htext
        dsimp only
        rwa [if_neg hmd]

theorem adds_source (h : s.provenance.Numbered) {parsed : List (String × PyModule)}
    {source : String × String} {state : List (String × PyModule) × Extraction}
    (hok : parseSource tools (parsed, s) source = .ok state) : Adds s state.2 [] [] := by
  unfold parseSource at hok
  split at hok
  · exact Except.ok.inj hok ▸ .none (.keep h rfl) rfl rfl
  · exact Except.ok.inj hok ▸ .none (.keep h rfl) rfl rfl
  · cases hok

theorem adds_stmt (h : s.provenance.Numbered) (rel : String) (stmt : Stmt) :
    Adds s (addStmt rel s stmt) [] (guardCitation rel stmt) := by
  cases stmt with
  | define kind name lineno endLineno => exact .none (.cite h rfl) rfl rfl
  | mainGuard lineno endLineno =>
      exact ⟨.cite h rfl, .none rfl, .cite (s.hashOf rel) rfl rfl rfl rfl⟩
  | other => exact .none (.keep h rfl) rfl rfl

theorem adds_moduleBody (h : s.provenance.Numbered) (source : String × PyModule) :
    Adds s (addModuleBody s source) [] (source.2.body.flatMap (guardCitation source.1)) := by
  have hloop := Adds.foldl (fun _ => []) (guardCitation source.1) h
    fun _ stmt (_ : stmt ∈ source.2.body) hs => adds_stmt hs source.1 stmt
  rwa [flatMap_nil'] at hloop

theorem adds_script (h : s.provenance.Numbered) (index : ModuleIndex) (rel rawText : String)
    (script : String × String) :
    Adds s (addScript index rel rawText s script) [] [scriptCitation rel rawText script] := by
  unfold addScript
  dsimp only
  have hkeep : Adds s ((scriptTarget index s.symbols script).2.2.elim s (s.unknown rel)) [] [] := by
    cases (scriptTarget index s.symbols script).2.2 with
    | none => exact .none (.keep h rfl) rfl rfl
    | some reason => exact .none (.keep h rfl) rfl rfl
  generalize (scriptTarget index s.symbols script).2.2.elim s (s.unknown rel) = s₁ at hkeep ⊢
  refine hkeep.trans ?_
  exact ⟨.cite hkeep.grows.numbered rfl, .none rfl, .cite (s₁.hashOf rel) rfl rfl rfl rfl⟩

theorem adds_manifest (h : s.provenance.Numbered) {index : ModuleIndex}
    {manifest : String × String} (hok : addManifest tools index s manifest = .ok s') :
    Adds s s' [] ((declaredScripts tools manifest.2).map (scriptCitation manifest.1 manifest.2)) := by
  unfold addManifest at hok
  unfold declaredScripts
  split at hok
  · next htoml =>
    obtain rfl := Except.ok.inj hok
    rw [htoml]
    exact .none (.keep h rfl) rfl rfl
  · cases hok
  · next data htoml =>
    obtain ⟨scripts, hscripts, hok⟩ := bind_eq_ok.mp hok
    rw [htoml, ← Except.ok.inj hok]
    dsimp only
    rw [hscripts]
    have hloop := Adds.foldl (fun _ => []) (fun script => [scriptCitation manifest.1 manifest.2 script])
      h fun s script (_ : script ∈ scripts) hs => adds_script hs index manifest.1 manifest.2 script
    rwa [flatMap_nil', ← List.map_eq_flatMap] at hloop

theorem adds_target (h : s.provenance.Numbered) (index : ModuleIndex) (rel : String) (lineno : Nat)
    (seen : List String) (target : String × ModuleName) :
    Adds s (addTarget tools index rel lineno (seen, s) target).2 [] [] := by
  unfold addTarget
  dsimp only
  split_ifs
  · exact .none (.keep h rfl) rfl rfl
  · split
    · exact .none (.keep h rfl) rfl rfl
    · split_ifs
      · exact .none (.keep h rfl) rfl rfl
      · exact .none (.cite h rfl) rfl rfl

theorem adds_node (h : s.provenance.Numbered) (index : ModuleIndex) (rel : String) (node : Node) :
    Adds s (addNode tools index rel s node) [] [] := by
  unfold addNode
  refine List.foldlRecOn (motive := fun state : List String × Extraction => Adds s state.2 [] [])
    _ _ (.none (.keep h rfl) rfl rfl) ?_
  intro state hs target _
  exact hs.trans (adds_target hs.grows.numbered index rel node.lineno state.1 target)

theorem adds_imports (h : s.provenance.Numbered) (index : ModuleIndex)
    (source : String × PyModule) : Adds s (addImports tools index s source) [] [] :=
  .foldl_none h fun _ node _ hs => adds_node hs index source.1 node

theorem adds_module (h : s.provenance.Numbered) (source : String × PyModule) :
    Adds s (addModule s source) [] [] := .none (.cite h rfl) rfl rfl

/-- The text of a manifest. -/
def manifestText (r : FileRead) : Option (String × String) :=
  match r.content with
  | .text text =>
      if endsWith ".toml" r.rel ∧ fileName r.rel = "pyproject.toml" then some (r.rel, text) else none
  | _ => none

theorem manifestText_rel {r : FileRead} {manifest : String × String}
    (h : manifestText r = some manifest) : manifest.1 = r.rel := by
  unfold manifestText at h
  split at h
  · split_ifs at h
    exact Option.some.inj h ▸ rfl
  · cases h

theorem addFile_manifest {r : FileRead} (hok : addFile tools s r = .ok s') :
    s'.manifestRawText = (manifestText r).elim s.manifestRawText fun manifest =>
      assign manifest.1 manifest.2 s.manifestRawText := by
  have hclaims (rel contentHash : String) (claims : List (Nat × List Char)) (s : Extraction) :
      (claims.foldl (addDocClaim rel contentHash) s).manifestRawText = s.manifestRawText :=
    List.foldlRecOn (motive := fun s' : Extraction => s'.manifestRawText = s.manifestRawText)
      _ _ rfl fun s' hs claim _ => hs
  unfold addFile at hok
  split at hok
  · cases hok
  · dsimp only at hok
    generalize hs₁ : ({ s with
        fileHash := _, languages := _, manifests := _ } : Extraction) = s₁ at hok
    have hmanifests : s₁.manifestRawText = s.manifestRawText := hs₁ ▸ rfl
    rw [← hmanifests]
    unfold manifestText
    split at hok <;> obtain rfl := Except.ok.inj hok
    · next hcontent => rw [hcontent]; rfl
    · next hcontent => rw [hcontent]; rfl
    · next hcontent =>
      rw [hcontent]
      dsimp only
      unfold addText
      by_cases htoml : endsWith ".toml" r.rel = true ∧ fileName r.rel = "pyproject.toml"
      · have hpy : ¬ endsWith ".py" r.rel = true := fun hpy =>
          absurd (endsWith_getLast hpy htoml.1 (by decide) (by decide)) (by decide +kernel)
        rw [if_neg hpy, if_pos htoml, if_pos htoml]
        rfl
      · rw [if_neg htoml, if_neg htoml]
        split_ifs
        · rfl
        · exact hclaims _ _ _ _
        · rfl

theorem manifestRawText_eq {scan : Scan} {pack : Pack} {s₁ s₂ s₃ : Extraction}
    (stages : Stages tools scan pack s₁ s₂ s₃) :
    ((parsedFiles tools scan).foldl addModuleBody s₂).manifestRawText =
      scan.reads.filterMap manifestText := by
  have hread := foldlM_collect (·.manifestRawText) (fun _ _ => manifestText_rel)
    (fun _ _ _ hok => addFile_manifest hok) (nodup_reads scan)
    (fun r _ => by rw [(initial_nothing scan).2.1]; exact List.not_mem_nil) stages.read
  rw [(initial_nothing scan).2.1, List.nil_append] at hread
  have hparse : s₂.manifestRawText = s₁.manifestRawText := by
    refine foldlM_ok (fun state : List (String × PyModule) × Extraction =>
      state.2.manifestRawText = s₁.manifestRawText) ?_ rfl stages.parse
    intro state source state' _ hs hok
    unfold parseSource at hok
    split at hok
    · exact Except.ok.inj hok ▸ hs
    · exact Except.ok.inj hok ▸ hs
    · cases hok
  rw [← hread, ← hparse]
  refine List.foldlRecOn (motive := fun s : Extraction => s.manifestRawText = s₂.manifestRawText)
    _ _ rfl fun s hs source _ => ?_
  refine List.foldlRecOn (motive := fun s : Extraction => s.manifestRawText = s₂.manifestRawText)
    _ _ hs fun s hs stmt _ => ?_
  cases stmt <;> exact hs

end Acquisition

/-- The guards of the files that parse. -/
def guardCitations (tools : Tools) (scan : Scan) : List Citation :=
  (parsedFiles tools scan).flatMap fun source => source.2.body.flatMap (guardCitation source.1)

/-- The scripts of the manifests, each with the text of its manifest. -/
def scripts (tools : Tools) (scan : Scan) : List (String × String × String × String) :=
  (scan.reads.filterMap manifestText).flatMap fun manifest =>
    (declaredScripts tools manifest.2).map fun script => (manifest.1, manifest.2, script)

/-- The claims and the entrypoints of a pack, with their entries. -/
theorem acquire_citations {tools : Tools} {scan : Scan} {pack : Pack}
    (h : acquireRepoEvidence tools scan = .ok pack) :
    List.Forall₂ (Matches pack.provenanceIndex) pack.docClaims
        (scan.reads.flatMap (docCitations tools)) ∧
      List.Forall₂ (Matches pack.provenanceIndex) pack.entrypoints
        (guardCitations tools scan ++
          (scripts tools scan).map fun s => scriptCitation s.1 s.2.1 s.2.2) := by
  obtain ⟨s₁, s₂, s₃, stages⟩ := acquire_stages h
  have hinitial : (initialExtraction scan).provenance.Numbered := (linked_initial scan).numbered
  -- what each of the loops adds
  have hread := Adds.foldlM (docCitations tools) (fun _ => []) hinitial
    (fun _ _ _ _ hs hok => adds_file hs hok) stages.read
  have hparse : Adds s₁ s₂ [] [] :=
    foldlM_ok (fun state : List (String × PyModule) × Extraction => Adds s₁ state.2 [] [])
      (fun _ _ _ _ hs hok => hs.trans (adds_source hs.grows.numbered hok))
      (.none (.keep hread.grows.numbered rfl) rfl rfl) stages.parse
  have hbodies := Adds.foldl (fun _ => []) (fun source : String × PyModule =>
      source.2.body.flatMap (guardCitation source.1)) hparse.grows.numbered
    fun s source (_ : source ∈ parsedFiles tools scan) hs => adds_moduleBody hs source
  have hmanifests := Adds.foldlM (fun _ => []) (fun manifest : String × String =>
      (declaredScripts tools manifest.2).map (scriptCitation manifest.1 manifest.2))
    hbodies.grows.numbered (fun _ _ _ _ hs hok => adds_manifest hs hok) stages.manifest
  have himports : Adds s₃ ((parsedFiles tools scan).foldl
      (addImports tools (buildModuleIndex (parsedFiles tools scan))) s₃) [] [] :=
    .foldl_none hmanifests.grows.numbered fun s source _ hs => adds_imports hs _ source
  have hmodules := Adds.foldl_none himports.grows.numbered
    fun s source (_ : source ∈ parsedFiles tools scan) hs => adds_module hs source
  have hall := ((((hread.trans hparse).trans hbodies).trans hmanifests).trans himports).trans hmodules
  have hscripts : ((parsedFiles tools scan).foldl addModuleBody s₂).manifestRawText.flatMap
      (fun manifest => (declaredScripts tools manifest.2).map (scriptCitation manifest.1 manifest.2)) =
        (scripts tools scan).map fun s => scriptCitation s.1 s.2.1 s.2.2 := by
    rw [manifestRawText_eq stages, scripts, List.map_flatMap]
    simp only [List.map_map]
    rfl
  simp only [flatMap_nil', List.append_nil, List.nil_append, hscripts] at hall
  obtain ⟨docs, hdocs, hdocsMatch⟩ := hall.docs
  obtain ⟨entries, hentries, hentriesMatch⟩ := hall.entries
  have hnothing : (initialExtraction scan).docClaims = [] ∧
      (initialExtraction scan).entrypoints = [] := by
    unfold initialExtraction
    refine List.foldlRecOn (motive := fun s : Extraction => s.docClaims = [] ∧ s.entrypoints = [])
      _ _ (List.foldlRecOn
        (motive := fun s : Extraction => s.docClaims = [] ∧ s.entrypoints = []) _ _ ⟨rfl, rfl⟩
        fun s hs skip _ => hs) fun s hs rel _ => hs
  rw [hnothing.1, List.nil_append] at hdocs
  rw [hnothing.2, List.nil_append] at hentries
  rw [stages.pack]
  refine ⟨?_, ?_⟩
  · show List.Forall₂ _ (List.foldl addModule _ _).docClaims _
    rw [hdocs]
    exact hdocsMatch
  · show List.Forall₂ _ (List.foldl addModule _ _).entrypoints _
    rw [hentries]
    exact hentriesMatch

/-! ### Right locators -/

/-- The entry is one of a script. -/
def isScript (index : Index) (item : Dict) : Bool :=
  match entryOf index item with
  | some entry => fieldOf entry "extraction_method" = .str "manifest_parse"
  | none => false

/-- The entry of a claim is a line that reads like the claim once it is stripped. -/
def ClaimLocated (scan : Scan) (index : Index) (claim : Dict) : Prop :=
  ∃ r ∈ scan.reads, ∃ text, r.content = .text text ∧ ∃ n hash line,
    entryOf index claim = some (locator r.rel n n hash "regex") ∧
      (newlineLines [] text.toList)[n - 1]? = some line ∧
      fieldOf claim "statement" = .str (String.ofList (stripChars line))

/-- The line of a manifest on which a script is defined: a text that the table of poetry has for
it replaces that of the project. -/
def definedAt (rawText name : String) : Option Nat :=
  (Toml.textLine ["tool", "poetry", "scripts", name] rawText.toList).or
    (Toml.textLine ["project", "scripts", name] rawText.toList)

/-- The line has an equals sign. -/
theorem definedAt_line {rawText name : String} {line : Nat} (h : definedAt rawText name = some line) :
    ∃ pre post, rawText.toList = pre ++ '=' :: post ∧ line = 1 + pre.count '\n' := by
  rcases Option.or_eq_some_iff.mp h with h | ⟨-, h⟩
  · exact Toml.line_of_textLine h
  · exact Toml.line_of_textLine h

theorem definedAt_pos {rawText name : String} {line : Nat} (h : definedAt rawText name = some line) :
    0 < line := by
  obtain ⟨pre, post, -, rfl⟩ := definedAt_line h
  exact Nat.lt_of_lt_of_le Nat.zero_lt_one (Nat.le_add_right 1 _)

/-- The entry of a script is the line on which it is defined. -/
def ScriptLocated (index : Index) (entry : Dict) (script : String × String × String × String) :
    Prop :=
  ∃ line hash, definedAt script.2.1 script.2.2.1 = some line ∧
    entryOf index entry = some (locator script.1 line line hash "manifest_parse")

/-- The entries of a pack for claims and for scripts point at their lines. -/
structure Located (tools : Tools) (scan : Scan) (pack : Pack) : Prop where
  claims : ∀ claim ∈ pack.docClaims, ClaimLocated scan pack.provenanceIndex claim
  scripts : List.Forall₂ (ScriptLocated pack.provenanceIndex)
    (pack.entrypoints.filter (isScript pack.provenanceIndex)) (scripts tools scan)

theorem locator_inj {rel rel' : String} {a b a' b' : Nat} {hash hash' method method' : String}
    (h : locator rel a b hash method = locator rel' a' b' hash' method') :
    rel = rel' ∧ a = a' ∧ method = method' := by
  simp only [locator, List.cons.injEq, Prod.mk.injEq, Json.str.injEq, Json.int.injEq,
    Nat.cast_inj, true_and, and_true] at h
  exact ⟨h.1, h.2.1, h.2.2.2.2⟩

theorem forall₂_iff {α β : Type} {P Q : α → β → Prop} {R : β → Prop} {xs : List α} {ys : List β}
    (h : List.Forall₂ P xs ys) (hPQ : ∀ x y, P x y → (Q x y ↔ R y)) :
    List.Forall₂ Q xs ys ↔ ∀ y ∈ ys, R y := by
  induction h with
  | nil => exact iff_of_true .nil fun _ h => absurd h List.not_mem_nil
  | cons hxy _ ih => rw [List.forall₂_cons, List.forall_mem_cons, hPQ _ _ hxy, ih]

theorem forall_mem_iff {α β : Type} {P : α → β → Prop} {Q : α → Prop} {R : β → Prop} {xs : List α}
    {ys : List β} (h : List.Forall₂ P xs ys) (hPQ : ∀ x, ∀ y ∈ ys, P x y → (Q x ↔ R y)) :
    (∀ x ∈ xs, Q x) ↔ ∀ y ∈ ys, R y := by
  induction h with
  | nil =>
      exact iff_of_true (fun x hx => absurd hx List.not_mem_nil)
        fun y hy => absurd hy List.not_mem_nil
  | cons hxy _ ih =>
      rw [List.forall_mem_cons, List.forall_mem_cons, hPQ _ _ List.mem_cons_self hxy,
        ih fun x y hy => hPQ x y (List.mem_cons_of_mem _ hy)]

/-- The entrypoints that scripts make, among the others. -/
theorem forall₂_filter {index : Index} {items : List Dict} {cs : List Citation}
    (h : List.Forall₂ (Matches index) items cs) :
    List.Forall₂ (Matches index) (items.filter (isScript index))
      (cs.filter fun c => c.method = "manifest_parse") := by
  induction h with
  | nil => exact .nil
  | @cons item c items cs hmatch _ ih =>
      have hsame : isScript index item = decide (c.method = "manifest_parse") := by
        obtain ⟨-, hash, hentry⟩ := hmatch
        rw [isScript, hentry]
        exact decide_eq_decide.mpr (iff_of_eq (Json.str.injEq _ _))
      rw [List.filter_cons, List.filter_cons, hsame]
      split_ifs
      · exact .cons hmatch ih
      · exact ih

section Located

variable {index : Index} {tools : Tools} {scan : Scan}

/-- The line of an expected claim reads like it. -/
def CitationLocated (scan : Scan) (c : Citation) : Prop :=
  ∃ r ∈ scan.reads, r.rel = c.rel ∧ ∃ text, r.content = .text text ∧ ∃ line,
    (newlineLines [] text.toList)[c.first - 1]? = some line ∧ c.value = String.ofList (stripChars line)

theorem mem_docCitations {r : FileRead} {c : Citation} :
    c ∈ docCitations tools r ↔ ∃ text, markdownText r = some text ∧
      ∃ n statement, (n, statement) ∈ claimsOf (isReadme tools r.rel) text ∧
        c = ⟨r.rel, n, n, "regex", "statement", String.ofList statement⟩ := by
  rw [docCitations]
  rcases markdownText r with - | text
  · exact iff_of_false List.not_mem_nil fun ⟨_, h, _⟩ => nomatch h
  · rw [List.mem_map]
    constructor
    · rintro ⟨⟨n, statement⟩, hmem, rfl⟩
      exact ⟨text, rfl, n, statement, hmem, rfl⟩
    · rintro ⟨text', htext, n, statement, hmem, rfl⟩
      obtain rfl := Option.some.inj htext
      exact ⟨⟨n, statement⟩, hmem, rfl⟩

theorem claimLocated_iff (claim : Dict) (c : Citation)
    (hc : c ∈ scan.reads.flatMap (docCitations tools)) (hmatch : Matches index claim c) :
    ClaimLocated scan index claim ↔ CitationLocated scan c := by
  obtain ⟨r, -, hr⟩ := List.mem_flatMap.mp hc
  obtain ⟨-, -, n, statement, -, rfl⟩ := mem_docCitations.mp hr
  obtain ⟨hvalue, hash, hentry⟩ := hmatch
  constructor
  · rintro ⟨r', hr', text, htext, m, hash', line, hentry', hline, hstatement⟩
    rw [hentry] at hentry'
    obtain ⟨hrel, hn, -⟩ := locator_inj (Option.some.inj hentry')
    refine ⟨r', hr', hrel.symm, text, htext, line, ?_, ?_⟩
    · dsimp only at hn ⊢
      rw [hn]
      exact hline
    · exact Json.str.inj (hvalue.symm.trans hstatement)
  · rintro ⟨r', hr', hrel, text, htext, line, hline, hstatement⟩
    refine ⟨r', hr', text, htext, n, hash, line, ?_, hline, ?_⟩
    · rw [hrel]
      exact hentry
    · rw [← hstatement]
      exact hvalue

theorem markdownText_content {r : FileRead} {text : String} (h : markdownText r = some text) :
    r.content = .text text := by
  unfold markdownText at h
  split at h
  · next hcontent =>
    split_ifs at h
    exact Option.some.inj h ▸ hcontent
  · cases h

theorem forall_docCitations_iff (tools : Tools) (scan : Scan) :
    (∀ c ∈ scan.reads.flatMap (docCitations tools), CitationLocated scan c) ↔
      ∀ r ∈ scan.reads, ∀ text, markdownText r = some text →
        Straight (isReadme tools r.rel) text.toList := by
  constructor
  · intro hlocated r hr text htext
    refine straight_iff.mp fun n statement hmem => ?_
    obtain ⟨r', hr', hrel, text', htext', line, hline, hvalue⟩ := hlocated _
      (List.mem_flatMap.mpr ⟨r, hr, mem_docCitations.mpr ⟨text, htext, n, statement, hmem, rfl⟩⟩)
    obtain rfl := List.inj_on_of_nodup_map (nodup_reads scan) hr' hr hrel
    rw [markdownText_content htext] at htext'
    obtain rfl := FileContent.text.inj htext'
    exact ⟨line, hline, (String.ofList_inj.mp hvalue).symm⟩
  · intro hstraight c hc
    obtain ⟨r, hr, hc⟩ := List.mem_flatMap.mp hc
    obtain ⟨text, htext, n, statement, hmem, rfl⟩ := mem_docCitations.mp hc
    obtain ⟨line, hline, rfl⟩ := straight_iff.mpr (hstraight r hr text htext) n statement hmem
    exact ⟨r, hr, rfl, text, markdownText_content htext, line, hline, rfl⟩

theorem filter_guards : (guardCitations tools scan).filter (fun c => c.method = "manifest_parse") =
    [] := by
  refine List.filter_eq_nil_iff.mpr fun c hc => ?_
  obtain ⟨source, -, hc⟩ := List.mem_flatMap.mp hc
  obtain ⟨stmt, -, hc⟩ := List.mem_flatMap.mp hc
  cases stmt with
  | mainGuard lineno endLineno =>
      obtain rfl := List.mem_singleton.mp hc
      simp
  | _ => exact absurd hc List.not_mem_nil

theorem filter_scripts : ((scripts tools scan).map fun s => scriptCitation s.1 s.2.1 s.2.2).filter
      (fun c => c.method = "manifest_parse") =
    (scripts tools scan).map fun s => scriptCitation s.1 s.2.1 s.2.2 := by
  refine List.filter_eq_self.mpr fun c hc => ?_
  obtain ⟨s, -, rfl⟩ := List.mem_map.mp hc
  rfl

theorem scriptLocated_iff {entry : Dict} {script : String × String × String × String}
    (hmatch : Matches index entry (scriptCitation script.1 script.2.1 script.2.2)) :
    ScriptLocated index entry script ↔ ∃ line, definedAt script.2.1 script.2.2.1 = some line ∧
      FirstAssigned script.2.1 script.2.2.1 line := by
  obtain ⟨-, hash, hentry⟩ := hmatch
  rw [ScriptLocated, hentry]
  constructor
  · rintro ⟨line, hash', hdefined, heq⟩
    exact ⟨line, hdefined, (findManifestKeyLine_iff (definedAt_pos hdefined)).mp
      (locator_inj (Option.some.inj heq)).2.1⟩
  · rintro ⟨line, hdefined, hfirst⟩
    obtain rfl := (findManifestKeyLine_iff (definedAt_pos hdefined)).mpr hfirst
    exact ⟨_, hash, hdefined, rfl⟩

end Located

/-- The locators of a pack are right just when the Markdown files are straight and each script is
defined where its key is first assigned. -/
theorem located_iff {tools : Tools} {scan : Scan} {pack : Pack}
    (h : acquireRepoEvidence tools scan = .ok pack) :
    Located tools scan pack ↔
      (∀ r ∈ scan.reads, ∀ text, markdownText r = some text →
        Straight (isReadme tools r.rel) text.toList) ∧
      ∀ script ∈ scripts tools scan, ∃ line, definedAt script.2.1 script.2.2.1 = some line ∧
        FirstAssigned script.2.1 script.2.2.1 line := by
  obtain ⟨hdocs, hentries⟩ := acquire_citations h
  have hclaims : (∀ claim ∈ pack.docClaims, ClaimLocated scan pack.provenanceIndex claim) ↔ _ :=
    (forall_mem_iff hdocs claimLocated_iff).trans (forall_docCitations_iff tools scan)
  have hscripts : List.Forall₂ (fun entry script =>
      Matches pack.provenanceIndex entry (scriptCitation script.1 script.2.1 script.2.2))
        (pack.entrypoints.filter (isScript pack.provenanceIndex)) (scripts tools scan) := by
    have hfilter := forall₂_filter hentries
    rw [List.filter_append, filter_guards, List.nil_append, filter_scripts] at hfilter
    exact List.forall₂_map_right_iff.mp hfilter
  have hlines := forall₂_iff (Q := ScriptLocated pack.provenanceIndex)
    (R := fun script => ∃ line, definedAt script.2.1 script.2.2.1 = some line ∧
      FirstAssigned script.2.1 script.2.2.1 line)
    hscripts fun entry script hmatch => scriptLocated_iff hmatch
  constructor
  · intro hlocated
    exact ⟨hclaims.mp hlocated.claims, hlines.mp hlocated.scripts⟩
  · rintro ⟨hstraight, hfirst⟩
    exact ⟨hclaims.mpr hstraight, hlines.mpr hfirst⟩

/-- A manifest whose scripts table has an empty line before its one script. -/
def blankManifest : String := "[project.scripts]\n\nrun = \"m:f\"\n"

def blankTools : Tools :=
  { sampleTools with
    toml := fun text =>
      if text = blankManifest then
        .ok (.obj [("project", .obj [("scripts", .obj [("run", .str "m:f")])])])
      else .error .refused }

def blankScan : Scan :=
  { sampleScan with
    reads := [⟨"pyproject.toml", some "00", .text blankManifest⟩]
    sorted := List.pairwise_singleton _ _ }

theorem blankScan_located_iff : ∃ pack, acquireRepoEvidence blankTools blankScan = .ok pack ∧
    (Located blankTools blankScan pack ↔
      (∀ r ∈ blankScan.reads, ∀ text, markdownText r = some text →
        Straight (isReadme blankTools r.rel) text.toList) ∧
      ∀ script ∈ scripts blankTools blankScan, ∃ line,
        definedAt script.2.1 script.2.2.1 = some line ∧
          FirstAssigned script.2.1 script.2.2.1 line) :=
  have hpack : acquireRepoEvidence blankTools blankScan = .ok _ := rfl
  ⟨_, hpack, located_iff hpack⟩

/-- The entry of the script is the empty line. -/
theorem blank_line_cited : ∃ pack, acquireRepoEvidence blankTools blankScan = .ok pack ∧
    ¬ Located blankTools blankScan pack := by
  refine ⟨_, rfl, fun h => ?_⟩
  have hdeclared : scripts blankTools blankScan =
      [("pyproject.toml", blankManifest, "run", "m:f")] := by decide +kernel
  obtain ⟨entry, entries, ⟨line, hash, hdefined, hentry⟩, -, hfilter⟩ :=
    List.forall₂_cons_right_iff.mp (hdeclared ▸ h.scripts)
  have hitem : entry = [("path", .str "pyproject.toml"),
      ("reason", .str "pyproject.toml script 'run' -> m:f"), ("evidence_ref", .str "prov-0000"),
      ("resolved_path", .null), ("target_evidence_ref", .null)] := by
    refine Option.some.inj (.trans (congrArg List.head? hfilter.symm) ?_)
    decide +kernel
  rw [hitem] at hentry
  have hline : some (locator "pyproject.toml" _ _ hash "manifest_parse") =
      some (locator "pyproject.toml" 2 2 "00" "manifest_parse") :=
    hentry.symm.trans (by decide +kernel)
  obtain ⟨-, rfl, -⟩ := locator_inj (Option.some.inj hline)
  have hthree : definedAt blankManifest "run" = some 3 := by decide +kernel
  exact absurd (hthree.symm.trans hdefined) (by decide)

end Konoha.RepoEvidence
