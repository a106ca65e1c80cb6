/-
TaskContract/Patterns.lean

Paths and patterns of a task contract: what `normalize_repo_path` makes of them, which ones are
protected, and how `fnmatch` reads them later.
-/
import Mathlib.Data.Bool.AllAny
import KonohaRuntime.Base.Glob
import KonohaRuntime.Base.Lists
import KonohaRuntime.Base.PyOps

namespace Konoha.TaskContract

open CodePoint

/-! ### Paths -/

/-- `s.replace("\\", "/")` -/
def slashes (s : PyStr) : PyStr := s.map fun c => if c = scalar '\\' then scalar '/' else c

/-- `while value.startswith("./"): value = value[2:]` -/
def dropDotSlash : PyStr → PyStr
  | scalar '.' :: scalar '/' :: value => dropDotSlash value
  | value => value

/-- `re.match(r"^[A-Za-z]:/", value)` -/
def hasDrive : PyStr → Bool
  | scalar c :: scalar ':' :: scalar '/' :: _ => c.isAlpha
  | _ => false

/-- `value.split("/")` -/
def parts (value : PyStr) : List PyStr := value.splitOn (scalar '/')

/-- `part in {"", ".", ".."}` -/
def isDots (part : PyStr) : Bool :=
  part = [] || part = [scalar '.'] || part = [scalar '.', scalar '.']

/-- `PATH_SEGMENT_RE.fullmatch(part)` -/
def isPathSegment (part : PyStr) : Bool :=
  part ≠ [] && part.all fun
    | scalar c => c.isAlphanum || c ∈ ['.', '_', '*', '?', '-', '[', ']']
    | surrogate _ => false

/-- `normalize_repo_path`, of a string -/
def normalizeRepoPath (raw : PyStr) : Option PyStr :=
  let value := slashes raw.strip
  if value = [] ∨ value.head? = some (scalar '/') ∨ hasDrive value = true then none
  else
    let value := dropDotSlash value
    if (parts value).any isDots then none
    else if (parts value).all isPathSegment then some value
    else none

/-- `PROTECTED_PATH_PREFIXES` -/
def protectedPathPrefixes : List String :=
  [".env", "alliance/kirigakure", "alliance/private-library", "memory/local", "vault", "sandbox"]

/-- `str.lower` of one code point, as far as it leads to ASCII: the letters, and the Kelvin sign. -/
def lowerPoint : CodePoint → CodePoint
  | scalar c => if c = '\u212a' then scalar 'k' else scalar c.toLower
  | surrogate n => surrogate n

/-- `path_is_protected` -/
def pathIsProtected (path : PyStr) : Bool :=
  let lowered := path.map lowerPoint
  protectedPathPrefixes.any fun p =>
    lowered = PyStr.ofString p || (PyStr.ofString p ++ [scalar '/']).isPrefixOf lowered

/-! ### `fnmatch` -/

/-- What stands in brackets, from the position after the opening one, and what comes after. -/
def closeBracket (s : PyStr) : Option (PyStr × PyStr) :=
  let skip := if s.head? = some (scalar '!') then 1 else 0
  let skip := if s[skip]? = some (scalar ']') then skip + 1 else skip
  let n := ((s.drop skip).takeWhile (· ≠ scalar ']')).length + skip
  if n < s.length then some (s.take n, s.drop (n + 1)) else none

/-- The parts of a class between the hyphens that make ranges; `skip` characters are passed before
a hyphen is looked for. -/
def splitRanges : Nat → Nat → PyStr → List PyStr
  | 0, _, s => [s]
  | fuel + 1, skip, s =>
      let n := ((s.drop skip).takeWhile (· ≠ scalar '-')).length + skip
      if n < s.length then s.take n :: splitRanges fuel 2 (s.drop (n + 1)) else [s]

/-- A hyphen at the end stands for itself. -/
def joinLast : List PyStr → List PyStr
  | [chunk, []] => [chunk ++ [scalar '-']]
  | chunk :: chunks => chunk :: joinLast chunks
  | [] => []

/-- Empty ranges are left out. -/
def mergeRanges : List PyStr → List PyStr
  | [] => []
  | chunk :: chunks =>
      match mergeRanges chunks with
      | [] => [chunk]
      | next :: rest =>
          match chunk.getLast?, next.head? with
          | some low, some high =>
              if high.toNat < low.toNat then (chunk.dropLast ++ next.tail) :: rest
              else chunk :: next :: rest
          | _, _ => chunk :: next :: rest

/-- A character is one of a chunk, or in a range between two. -/
def inChunks (c : CodePoint) : List PyStr → Bool
  | [] => false
  | [chunk] => chunk.contains c
  | chunk :: next :: rest =>
      chunk.contains c ||
        (match chunk.getLast?, next.head? with
          | some low, some high => low.toNat ≤ c.toNat && c.toNat ≤ high.toNat
          | _, _ => false) ||
        inChunks c (next :: rest)

/-- What a class accepts. -/
def classAccepts (stuff : PyStr) (c : CodePoint) : Bool :=
  let skip := if stuff.head? = some (scalar '!') then 2 else 1
  match mergeRanges (joinLast (splitRanges stuff.length skip stuff)) with
  | (scalar '!' :: chunk) :: chunks => !inChunks c (chunk :: chunks)
  | chunks => inChunks c chunks

/-- `fnmatch.translate` -/
def translateFrom : Nat → PyStr → List (Glob.Token CodePoint)
  | 0, _ | _, [] => []
  | fuel + 1, scalar '*' :: s => .star :: translateFrom fuel s
  | fuel + 1, scalar '?' :: s => .one (fun _ => true) :: translateFrom fuel s
  | fuel + 1, scalar '[' :: s =>
      match closeBracket s with
      | none => .one (· = scalar '[') :: translateFrom fuel s
      | some (stuff, rest) => .one (classAccepts stuff) :: translateFrom fuel rest
  | fuel + 1, c :: s => .one (· = c) :: translateFrom fuel s

def translate (pattern : PyStr) : List (Glob.Token CodePoint) :=
  translateFrom pattern.length pattern

/-- `path_matches` -/
def pathMatches (pattern path : PyStr) : Bool :=
  slashes pattern = slashes path || Glob.matchesWord (translate (slashes pattern)) (slashes path)

/-! ### Protected paths -/

/-- A code point that is read as a letter of a protected path. -/
def ReadsAs (c : CodePoint) (x : Char) : Prop := lowerPoint c = scalar x

theorem lowerPoint_eq_scalar {c : CodePoint} {x : Char} (h : lowerPoint c = scalar x) :
    (c = scalar '\u212a' ∧ x = 'k') ∨ ∃ y : Char, c = scalar y ∧ y.toLower = x := by
  cases c with
  | surrogate n => cases h
  | scalar y =>
    rw [lowerPoint] at h
    split_ifs at h with hkelvin
    · exact .inl ⟨congrArg scalar hkelvin, (CodePoint.scalar.inj h).symm⟩
    · exact .inr ⟨y, rfl, CodePoint.scalar.inj h⟩

/-- Only upper case is changed, and to letters. -/
theorem toLower_cases (y : Char) : y.toLower = y ∨
    (65 ≤ y.toNat ∧ y.toNat ≤ 90 ∧ y.toLower.toNat = y.toNat + 32) := by
  unfold Char.toLower
  split_ifs with h
  · obtain ⟨hlow, hhigh⟩ := h
    have hlow : 65 ≤ y.toNat := hlow
    have hhigh : y.toNat ≤ 90 := hhigh
    refine .inr ⟨hlow, hhigh, ?_⟩
    show (y.val + ('a'.val - 'A'.val)).toNat = y.val.toNat + 32
    have hval : y.val.toNat ≤ 90 := hhigh
    have hdiff : ('a'.val - 'A'.val : UInt32) = 32 := rfl
    rw [hdiff, UInt32.toNat_add, show (32 : UInt32).toNat = 32 from rfl]
    omega
  · exact .inl rfl

theorem readsAs_slash_iff {c : CodePoint} : ReadsAs c '/' ↔ c = scalar '/' := by
  constructor
  · intro h
    obtain ⟨-, h⟩ | ⟨y, rfl, hy⟩ := lowerPoint_eq_scalar h
    · exact absurd h (by decide)
    · obtain hsame | ⟨hlow, -, hlower⟩ := toLower_cases y
      · rw [← hsame, hy]
      · rw [hy, show '/'.toNat = 47 from rfl] at hlower
        omega
  · rintro rfl
    rfl

/-- A space is read as itself. -/
theorem readsAs_of_isSpace {c : CodePoint} {x : Char} (hspace : c.isSpace = true)
    (h : ReadsAs c x) : isPySpace x = true := by
  obtain ⟨rfl, -⟩ | ⟨y, rfl, hy⟩ := lowerPoint_eq_scalar h
  · exact absurd hspace (by decide)
  · have hspace : isPySpace y = true := hspace
    obtain hsame | ⟨hlow, hhigh, -⟩ := toLower_cases y
    · rwa [← hy, hsame]
    · exfalso
      simp only [isPySpace, Bool.or_eq_true, Bool.and_eq_true, decide_eq_true_iff, beq_iff_eq]
        at hspace
      omega

/-- `Under` is what `path_is_protected` asks. -/
theorem pathIsProtected_iff {path : PyStr} : pathIsProtected path = true ↔
    ∃ p ∈ protectedPathPrefixes, Glob.Under ReadsAs (scalar '/') p.toList path := by
  have hreads (l : PyStr) (w : List Char) :
      List.Forall₂ ReadsAs l w ↔ l.map lowerPoint = w.map scalar := by
    rw [← List.forall₂_eq_eq_eq, List.forall₂_map_left_iff, List.forall₂_map_right_iff]
    rfl
  rw [pathIsProtected, List.any_eq_true]
  refine exists_congr fun p => and_congr_right fun _ => ?_
  rw [Bool.or_eq_true, decide_eq_true_iff, List.isPrefixOf_iff_prefix]
  constructor
  · rintro (h | ⟨r, h⟩)
    · exact ⟨path, [], (List.append_nil _).symm, (hreads _ _).mpr h, .inl rfl⟩
    · obtain ⟨front, rest, rfl, hfront, hrest⟩ := List.map_eq_append_iff.mp h.symm
      obtain ⟨spelled, slash, rfl, hspelled, hslash⟩ := List.map_eq_append_iff.mp hfront
      obtain ⟨c, cs, rfl, hc, hcs⟩ := List.map_eq_cons_iff.mp hslash
      obtain rfl := List.map_eq_nil_iff.mp hcs
      obtain rfl := readsAs_slash_iff.mp hc
      exact ⟨spelled, scalar '/' :: rest, by simp, (hreads _ _).mpr hspelled, .inr ⟨rest, rfl⟩⟩
  · rintro ⟨spelled, rest, rfl, hspelled, rfl | ⟨r, rfl⟩⟩
    · exact .inl (by rw [List.append_nil]; exact (hreads _ _).mp hspelled)
    · refine .inr ⟨r.map lowerPoint, ?_⟩
      rw [List.map_append, (hreads _ _).mp hspelled, List.map_cons]
      have hslash : lowerPoint (scalar '/') = scalar '/' := by decide
      rw [hslash, PyStr.ofString, List.append_assoc, List.singleton_append]

/-! ### What is normalised -/

/-- What ends in a letter that is kept is kept. -/
theorem prefix_strip {front : PyStr} {c : CodePoint}
    (hfront : ∀ p ∈ front ++ [c], p.isSpace = false) (rest : PyStr) :
    front ++ [c] <+: PyStr.strip (front ++ [c] ++ rest) := by
  have hdrop : (front ++ [c] ++ rest).dropWhile CodePoint.isSpace = front ++ [c] ++ rest := by
    cases front with
    | nil => exact List.dropWhile_cons_of_neg (by rw [hfront c (.head _)]; decide)
    | cons p front => exact List.dropWhile_cons_of_neg (by rw [hfront p (.head _)]; decide)
  rw [PyStr.strip, hdrop]
  exact List.prefix_rdropWhile _ (hfront c (by simp)) rest

theorem isSpace_slashes {c : CodePoint} (h : c.isSpace = true) :
    (if c = scalar '\\' then scalar '/' else c) = c := by
  rw [if_neg]
  rintro rfl
  exact absurd h (by decide)

/-- A protected prefix is more than one letter, and no drive; a string that spells it is not
shortened. -/
theorem dropDotSlash_of_spelled {x y : Char} {path : List Char} {spelled rest : PyStr}
    (h : List.Forall₂ ReadsAs spelled (x :: y :: path)) (hy : y ≠ '/') :
    dropDotSlash (spelled ++ rest) = spelled ++ rest := by
  obtain ⟨c, tail, -, htail, rfl⟩ := List.forall₂_cons_right_iff.mp h
  obtain ⟨d, tail, hd, -, rfl⟩ := List.forall₂_cons_right_iff.mp htail
  rw [List.cons_append, List.cons_append]
  apply dropDotSlash.eq_2
  intro value hc
  obtain ⟨-, hc⟩ := List.cons.inj hc
  obtain ⟨rfl, -⟩ := List.cons.inj hc
  exact hy (CodePoint.scalar.inj hd).symm

/-- The prefixes are more than one letter, without blanks and backslashes. -/
theorem protectedPathPrefixes_spelled {p : String} (hp : p ∈ protectedPathPrefixes) :
    (∃ x y path, p.toList = x :: y :: path ∧ y ≠ '/') ∧
      ∀ x ∈ p.toList, isPySpace x = false ∧ x ≠ '\\' := by
  have hall : ∀ p ∈ protectedPathPrefixes, (1 < p.toList.length ∧ p.toList[1]? ≠ some '/') ∧
      (p.toList.all fun x => isPySpace x = false ∧ x ≠ '\\') = true := by decide +kernel
  obtain ⟨⟨hlength, hsecond⟩, hspaces⟩ := hall p hp
  refine ⟨?_, List.all_iff_forall_prop.mp hspaces⟩
  match h : p.toList, hlength, hsecond with
  | x :: y :: path, _, hsecond => exact ⟨x, y, path, rfl, fun hy => hsecond (by rw [hy]; rfl)⟩

theorem length_strip_le (s : PyStr) : s.strip.length ≤ s.length :=
  Nat.le_trans (List.rdropWhile_prefix _ _).length_le (List.dropWhile_sublist _).length_le

/-- What spells a protected path still does without the blanks around it. -/
theorem under_slashes_strip {p : String} (hp : p ∈ protectedPathPrefixes) {raw : PyStr}
    (h : Glob.Under ReadsAs (scalar '/') p.toList (slashes raw)) :
    Glob.Under ReadsAs (scalar '/') p.toList (slashes raw.strip) := by
  obtain ⟨spelled, rest, hraw, hspelled, hrest⟩ := h
  obtain ⟨raw₁, raw₂, rfl, rfl, rfl⟩ := List.map_eq_append_iff.mp hraw
  obtain ⟨⟨x, y, path, hletters, -⟩, hspaces⟩ := protectedPathPrefixes_spelled hp
  have hvisible : ∀ c ∈ raw₁, c.isSpace = false := by
    intro c hc
    by_contra hspace
    rw [Bool.not_eq_false] at hspace
    obtain ⟨x, hx, hreads⟩ := hspelled.exists_right (List.mem_map_of_mem hc)
    rw [isSpace_slashes hspace] at hreads
    exact absurd (readsAs_of_isSpace hspace hreads) (by rw [(hspaces x hx).1]; decide)
  obtain ⟨front, c, rfl⟩ : ∃ front c, raw₁ = front ++ [c] := by
    refine ⟨raw₁.dropLast, raw₁.getLast ?_, (List.dropLast_append_getLast _).symm⟩
    rintro rfl
    rw [hletters] at hspelled
    cases hspelled
  rcases hrest with hrest | ⟨r, hrest⟩
  · obtain rfl := List.map_eq_nil_iff.mp hrest
    have hprefix := prefix_strip hvisible []
    rw [List.append_nil] at hprefix ⊢
    rw [← hprefix.eq_of_length_le (length_strip_le _)]
    exact ⟨_, [], (List.append_nil _).symm, hspelled, .inl rfl⟩
  · obtain ⟨d, r, rfl, hd, rfl⟩ := List.map_eq_cons_iff.mp hrest
    have hdspace : d.isSpace = false := by
      by_contra hspace
      rw [Bool.not_eq_false] at hspace
      rw [isSpace_slashes hspace] at hd
      rw [hd] at hspace
      exact absurd hspace (by decide)
    have hall : ∀ p ∈ (front ++ [c]) ++ [d], p.isSpace = false := by
      intro p hp
      rcases List.mem_append.mp hp with hp | hp
      · exact hvisible p hp
      · rw [List.mem_singleton.mp hp]
        exact hdspace
    obtain ⟨r', hr'⟩ := prefix_strip hall r
    have hsplit : front ++ [c] ++ d :: r = front ++ [c] ++ [d] ++ r := by simp
    rw [hsplit, ← hr', List.append_assoc _ [d]]
    refine ⟨_, slashes ([d] ++ r'), List.map_append, hspelled, .inr ⟨slashes r', ?_⟩⟩
    rw [← hd]
    rfl

/-- A pattern that is itself a protected path is normalised to one. -/
theorem pathIsProtected_normalize {raw value : PyStr} (h : pathIsProtected (slashes raw) = true)
    (hvalue : normalizeRepoPath raw = some value) : pathIsProtected value = true := by
  obtain ⟨p, hp, hunder⟩ := pathIsProtected_iff.mp h
  have hstrip := under_slashes_strip hp hunder
  obtain ⟨⟨x, y, path, hletters, hy⟩, -⟩ := protectedPathPrefixes_spelled hp
  have hkept : dropDotSlash (slashes raw.strip) = slashes raw.strip := by
    obtain ⟨spelled, rest, hraw, hspelled, -⟩ := hstrip
    rw [hletters] at hspelled
    rw [hraw, dropDotSlash_of_spelled hspelled hy]
  unfold normalizeRepoPath at hvalue
  dsimp only at hvalue
  rw [hkept] at hvalue
  split_ifs at hvalue
  obtain rfl := Option.some.inj hvalue
  exact pathIsProtected_iff.mpr ⟨p, hp, hstrip⟩

/-! ### What a pattern matches -/

/-- `c != "\\"` -/
def isPathLetter (c : CodePoint) : Bool := c ≠ scalar '\\'

/-- The pattern agrees with a protected path up to its first star, and what comes after is
satisfiable; backslashes are slashes on both sides. -/
def Reaches (pattern : PyStr) : Prop := ∃ p ∈ protectedPathPrefixes,
  Glob.Agrees ReadsAs (scalar '/')
    ((translate (slashes pattern)).map (Glob.Token.restrict isPathLetter)) p.toList

theorem slash_of_isPathLetter {c : CodePoint} (h : isPathLetter c = true) :
    (if c = scalar '\\' then scalar '/' else c) = c := if_neg (of_decide_eq_true h)

theorem isPathLetter_slashes {path : PyStr} : ∀ c ∈ slashes path, isPathLetter c = true := by
  intro c hc
  obtain ⟨d, -, rfl⟩ := List.mem_map.mp hc
  split_ifs with h
  · decide
  · exact decide_eq_true h

theorem slashes_of_isPathLetter {path : PyStr} (h : ∀ c ∈ path, isPathLetter c = true) :
    slashes path = path := by
  rw [slashes, List.map_congr_left fun c hc => slash_of_isPathLetter (h c hc), List.map_id']

theorem under_slashes {p : String} (hp : p ∈ protectedPathPrefixes) {path : PyStr}
    (h : Glob.Under ReadsAs (scalar '/') p.toList path) :
    Glob.Under ReadsAs (scalar '/') p.toList (slashes path) := by
  obtain ⟨spelled, rest, rfl, hspelled, hrest⟩ := h
  have hletters : ∀ c ∈ spelled, isPathLetter c = true := by
    intro c hc
    obtain ⟨x, hx, hreads⟩ := hspelled.exists_right hc
    refine decide_eq_true ?_
    rintro rfl
    exact ((protectedPathPrefixes_spelled hp).2 x hx).2 (CodePoint.scalar.inj hreads).symm
  rw [slashes, List.map_append]
  have hkept : spelled.map _ = spelled := slashes_of_isPathLetter hletters
  refine ⟨spelled, slashes rest, by rw [hkept]; rfl, hspelled, ?_⟩
  rcases hrest with rfl | ⟨r, rfl⟩
  · exact .inl rfl
  · exact .inr ⟨slashes r, rfl⟩

/-- **A pattern matches a protected path, if and only if it is one or reaches one.** -/
theorem exists_pathMatches_iff {pattern : PyStr} :
    (∃ path, pathIsProtected path = true ∧ pathMatches pattern path = true) ↔
      pathIsProtected (slashes pattern) = true ∨ Reaches pattern := by
  have hpath {p : String} (hp : p ∈ protectedPathPrefixes) : ∀ x ∈ p.toList, ∃ c, ReadsAs c x :=
    fun x hx => by
      have hlower : ∀ p ∈ protectedPathPrefixes,
          (p.toList.all fun x => lowerPoint (scalar x) = scalar x) = true := by
        decide +kernel
      exact ⟨scalar x, List.all_iff_forall_prop.mp (hlower p hp) x hx⟩
  constructor
  · rintro ⟨path, hprotected, hmatches⟩
    obtain ⟨p, hp, hunder⟩ := pathIsProtected_iff.mp hprotected
    rcases Bool.or_eq_true_iff.mp hmatches with h | h
    · rw [of_decide_eq_true h]
      exact .inl (pathIsProtected_iff.mpr ⟨p, hp, under_slashes hp hunder⟩)
    · refine .inr ⟨p, hp, (Glob.exists_matches_under_iff ReadsAs _ (hpath hp)).mp ?_⟩
      exact ⟨slashes path, (Glob.matchesWord_iff.mp h).restrict isPathLetter_slashes,
        under_slashes hp hunder⟩
  · rintro (h | ⟨p, hp, h⟩)
    · refine ⟨slashes pattern, h, Bool.or_eq_true_iff.mpr (.inl (decide_eq_true ?_))⟩
      exact (slashes_of_isPathLetter isPathLetter_slashes).symm
    · obtain ⟨w, hmatches, hunder⟩ := (Glob.exists_matches_under_iff ReadsAs _ (hpath hp)).mpr h
      refine ⟨w, pathIsProtected_iff.mpr ⟨p, hp, hunder⟩, Bool.or_eq_true_iff.mpr (.inr ?_)⟩
      exact Glob.matchesWord_iff.mpr
        (Glob.matches_map_of_restrict (fun _ => slash_of_isPathLetter) hmatches)

end Konoha.TaskContract
