/-
Base/FileTree.lean

Trees of files, directories and symbolic links, over any names and contents.

* `walk`: where a path leads when the links on it are followed; what it finds has no links on it, and
  files that are written elsewhere do not change it.
* `put`: a file is written, and the directories above it are made.  `put_iff` says when this succeeds
  and what the tree is afterwards.
-/
import Mathlib

namespace Konoha.FileTree

variable {Name Content : Type}

/-- The names from the root. -/
abbrev Path (Name : Type) := List Name

/-- What a link says: from the root or from where it is, through names and (`none`) upwards. -/
structure Target (Name : Type) where
  absolute : Bool
  steps : List (Option Name)

inductive Node (Name Content : Type)
  | file (content : Content)
  | dir
  | link (target : Target Name)

abbrev Tree (Name Content : Type) := Path Name → Option (Node Name Content)

/-- The links of a tree. -/
abbrev Links (Name : Type) := Path Name → Option (Target Name)

def Tree.links (tree : Tree Name Content) : Links Name := fun p =>
  match tree p with
  | some (.link target) => some target
  | _ => none

/-- The content of a file. -/
def Tree.fileAt (tree : Tree Name Content) (p : Path Name) : Option Content :=
  match tree p with
  | some (.file content) => some content
  | _ => none

/-- What there is, is in a directory. -/
def Closed (tree : Tree Name Content) : Prop :=
  ∀ p name, tree (p ++ [name]) ≠ none → tree p = some .dir

def isDir : Option (Node Name Content) → Bool
  | some .dir => true
  | _ => false

/-! ### Where a path leads -/

/-- One step after the other; `follow` goes on behind a link. -/
def walkWith (links : Links Name) (follow : Path Name → List (Option Name) → Option (Path Name)) :
    Path Name → List (Option Name) → Option (Path Name)
  | here, [] => some here
  | here, none :: steps => walkWith links follow here.dropLast steps
  | here, some name :: steps =>
      match links (here ++ [name]) with
      | some target => follow (if target.absolute then [] else here) (target.steps ++ steps)
      | none => walkWith links follow (here ++ [name]) steps

/-- All steps; not more than `limit` links are followed. -/
def walk (links : Links Name) : Nat → Path Name → List (Option Name) → Option (Path Name)
  | 0 => walkWith links fun _ _ => none
  | limit + 1 => walkWith links (walk links limit)

/-- No link is on the way. -/
def Real (links : Links Name) (p : Path Name) : Prop := ∀ q, q <+: p → links q = none

section Walk

variable {links : Links Name}

theorem Real.mono {p q : Path Name} (h : Real links p) (hq : q <+: p) : Real links q :=
  fun q' hq' => h q' (hq'.trans hq)

theorem Real.concat {p : Path Name} {name : Name} (h : Real links p)
    (hname : links (p ++ [name]) = none) : Real links (p ++ [name]) := by
  intro q hq
  rcases List.prefix_concat_iff.mp hq with rfl | hq
  · exact hname
  · exact h q hq

theorem real_walkWith {follow : Path Name → List (Option Name) → Option (Path Name)}
    (hfollow : ∀ here steps p, Real links here → follow here steps = some p → Real links p)
    {here : Path Name} {steps : List (Option Name)} {p : Path Name} (h : Real links here)
    (hwalk : walkWith links follow here steps = some p) : Real links p := by
  induction steps generalizing here with
  | nil =>
      obtain rfl := Option.some.inj hwalk
      exact h
  | cons step steps ih =>
      rcases step with - | name
      · exact ih (h.mono (List.dropLast_prefix here)) hwalk
      · rw [walkWith] at hwalk
        split at hwalk
        · next target hlink =>
            refine hfollow _ _ _ ?_ hwalk
            split_ifs
            · exact h.mono (List.nil_prefix)
            · exact h
        · next hlink => exact ih (h.concat hlink) hwalk

/-- What is found has no link on it. -/
theorem real_walk {limit : Nat} {here : Path Name} {steps : List (Option Name)} {p : Path Name}
    (h : Real links here) (hwalk : walk links limit here steps = some p) : Real links p := by
  induction limit generalizing here steps p with
  | zero =>
      have hnone : ∀ here steps p, Real links here →
          (fun _ _ => none : Path Name → List (Option Name) → Option (Path Name)) here steps = some p →
            Real links p := nofun
      exact real_walkWith hnone h hwalk
  | succ limit ih => exact real_walkWith (fun _ _ _ h' hfollow => ih h' hfollow) h hwalk

theorem walkWith_real {follow : Path Name → List (Option Name) → Option (Path Name)}
    {here names : Path Name} (h : Real links (here ++ names)) :
    walkWith links follow here (names.map some) = some (here ++ names) := by
  induction names generalizing here with
  | nil => exact congrArg some (List.append_nil here).symm
  | cons name names ih =>
      have hassoc : here ++ name :: names = here ++ [name] ++ names := List.append_cons ..
      have hnone : links (here ++ [name]) = none := h _ (hassoc ▸ List.prefix_append ..)
      rw [List.map_cons, walkWith, hnone, hassoc]
      exact ih (hassoc ▸ h)

/-- Names without a link on the way lead to themselves. -/
theorem walk_real (limit : Nat) {here names : Path Name} (h : Real links (here ++ names)) :
    walk links limit here (names.map some) = some (here ++ names) := by
  cases limit with
  | zero => exact walkWith_real h
  | succ limit => exact walkWith_real h

end Walk

/-! ### New directories -/

section Growing

variable {tree after : Tree Name Content} {p : Path Name}

/-- Only directories on the way to a path may be new. -/
def Grown (tree after : Tree Name Content) (p : Path Name) : Prop :=
  ∀ q, after q = tree q ∨ q <+: p ∧ tree q = none ∧ after q = some .dir

theorem Grown.refl (tree : Tree Name Content) (p : Path Name) : Grown tree tree p := fun _ => .inl rfl

theorem Grown.trans {last : Tree Name Content} (h : Grown tree after p)
    (h' : Grown after last p) : Grown tree last p := by
  intro q
  rcases h q with hq | ⟨hbelow, hnone, hdir⟩
  · rw [← hq]
    exact h' q
  · rcases h' q with hq | ⟨-, hnone', -⟩
    · exact .inr ⟨hbelow, hnone, hq.trans hdir⟩
    · rw [hdir] at hnone'
      cases hnone'

theorem Grown.mono {p' : Path Name} (h : Grown tree after p)
    (hbelow : p <+: p') : Grown tree after p' :=
  fun q => (h q).imp_right fun ⟨hq, hnone, hdir⟩ => ⟨hq.trans hbelow, hnone, hdir⟩

theorem Grown.fileAt (h : Grown tree after p) (q : Path Name) :
    after.fileAt q = tree.fileAt q := by
  rcases h q with hq | ⟨-, hnone, hdir⟩
  · rw [Tree.fileAt, Tree.fileAt, hq]
  · rw [Tree.fileAt, Tree.fileAt, hnone, hdir]

theorem Grown.links (h : Grown tree after p) : after.links = tree.links := by
  funext q
  rcases h q with hq | ⟨-, hnone, hdir⟩
  · rw [Tree.links, Tree.links, hq]
  · rw [Tree.links, Tree.links, hnone, hdir]

end Growing

/-! ### Writing -/

theorem prefix_dropLast_iff {p q : Path Name} (hp : p ≠ []) : q <+: p.dropLast ↔ q <+: p ∧ q ≠ p := by
  constructor
  · intro h
    refine ⟨h.trans (List.dropLast_prefix p), ?_⟩
    rintro rfl
    have hlength := h.length_le
    have hpos := List.length_pos_of_ne_nil hp
    rw [List.length_dropLast] at hlength
    omega
  · rintro ⟨h, hne⟩
    obtain ⟨names, name, rfl⟩ := List.eq_nil_or_concat p |>.resolve_left hp
    rw [List.concat_eq_append] at h hne ⊢
    rw [List.dropLast_concat]
    exact (List.prefix_concat_iff.mp h).resolve_left hne

theorem isDir_of_real {tree : Tree Name Content} {q : Path Name} (hfile : tree.fileAt q = none)
    (hlink : tree.links q = none) (hsome : (tree q).isNone = false) : isDir (tree q) = true := by
  rw [Tree.fileAt] at hfile
  rw [Tree.links] at hlink
  rcases e : tree q with - | (content | - | target)
  · rw [e] at hsome
    cases hsome
  · rw [e] at hfile
    cases hfile
  · rfl
  · rw [e] at hlink
    cases hlink

section Writing

variable [DecidableEq Name]

/-- A root, and what is listed. -/
def Tree.of (entries : List (Path Name × Node Name Content)) : Tree Name Content := fun p =>
  if p = [] then some .dir else (entries.find? fun entry => entry.1 = p).map (·.2)

/-- A list names the directories of what it names. -/
theorem closed_of {entries : List (Path Name × Node Name Content)}
    (h : entries.all (fun entry => isDir (Tree.of entries entry.1.dropLast)) = true) :
    Closed (Tree.of entries) := by
  intro p name hsome
  rw [Tree.of, if_neg (List.append_ne_nil_of_right_ne_nil _ (List.cons_ne_nil name []))] at hsome
  rcases hfind : entries.find? fun entry => entry.1 = p ++ [name] with - | entry
  · rw [hfind] at hsome
    exact absurd rfl hsome
  · have hname : entry.1 = p ++ [name] := by simpa using List.find?_some hfind
    have hdir := List.all_eq_true.mp h entry (List.mem_of_find?_eq_some hfind)
    rw [hname, List.dropLast_concat] at hdir
    rcases e : Tree.of entries p with - | (content | - | target)
    · rw [e] at hdir
      cases hdir
    · rw [e] at hdir
      cases hdir
    · rfl
    · rw [e] at hdir
      cases hdir

/-- The directories of a path are made. -/
def Tree.mkdirs (tree : Tree Name Content) (p : Path Name) : Option (Tree Name Content) :=
  if p.inits.all fun q => (tree.fileAt q).isNone then
    some fun q => if q <+: p ∧ (tree q).isNone then some .dir else tree q
  else none

/-- A file is written, if its directory is there and no directory is in its place. -/
def Tree.write (tree : Tree Name Content) (p : Path Name) (content : Content) :
    Option (Tree Name Content) :=
  if p ≠ [] ∧ isDir (tree p.dropLast) ∧ !isDir (tree p) then
    some (Function.update tree p (some (.file content)))
  else none

theorem grown_mkdirs {tree made : Tree Name Content} {p : Path Name} (h : tree.mkdirs p = some made) :
    Grown tree made p := by
  rw [Tree.mkdirs] at h
  split_ifs at h
  obtain rfl := Option.some.inj h
  intro q
  dsimp only
  split_ifs with hq
  · exact .inr ⟨hq.1, Option.isNone_iff_eq_none.mp hq.2, rfl⟩
  · exact .inl rfl

/-- Making directories changes no file. -/
theorem fileAt_mkdirs {tree made : Tree Name Content} {p : Path Name} (h : tree.mkdirs p = some made)
    (q : Path Name) : made.fileAt q = tree.fileAt q := (grown_mkdirs h).fileAt q

/-- Making directories changes no link. -/
theorem links_mkdirs {tree made : Tree Name Content} {p : Path Name} (h : tree.mkdirs p = some made) :
    made.links = tree.links := (grown_mkdirs h).links

/-- A file is written in directories that are made where they are missing. -/
def Tree.put (tree : Tree Name Content) (p : Path Name) (content : Content) :
    Option (Tree Name Content) :=
  (tree.mkdirs p.dropLast).bind fun tree => tree.write p content

/-- A file can be made there: no file is in the place of a directory, and no directory in its own. -/
structure Creatable (tree : Tree Name Content) (p : Path Name) : Prop where
  ne_nil : p ≠ []
  above : ∀ q, q <+: p → q ≠ p → tree.fileAt q = none
  free : isDir (tree p) = false

/-- The tree with a file, and the directories above it. -/
def Tree.with (tree : Tree Name Content) (p : Path Name) (content : Content) : Tree Name Content :=
  fun q => if q = p then some (.file content)
    else if q <+: p ∧ (tree q).isNone then some .dir else tree q

section

variable {tree : Tree Name Content} {p : Path Name} {content : Content}

/-- When a file can be written, where no link is on the way, and what the tree is then. -/
theorem put_iff (hreal : Real tree.links p) {tree' : Tree Name Content} :
    tree.put p content = some tree' ↔ Creatable tree p ∧ tree' = tree.with p content := by
  rcases eq_or_ne p [] with rfl | hp
  · refine iff_of_false (fun h => ?_) fun h => h.1.ne_nil rfl
    obtain ⟨_, -, h⟩ := Option.bind_eq_some_iff.mp h
    rw [Tree.write, if_neg fun h => h.1 rfl] at h
    cases h
  · by_cases habove : ∀ q, q <+: p → q ≠ p → tree.fileAt q = none
    · have hall : p.dropLast.inits.all (fun q => (tree.fileAt q).isNone) = true := by
        refine List.all_eq_true.mpr fun q hq => ?_
        obtain ⟨hbelow, hne⟩ := (prefix_dropLast_iff hp).mp ((List.mem_inits _ _).mp hq)
        rw [habove q hbelow hne]
        rfl
      let made : Tree Name Content := fun q => if q <+: p.dropLast ∧ (tree q).isNone then some .dir else tree q
      have hparent : isDir (made p.dropLast) = true := by
        obtain ⟨hbelow, hne⟩ := (prefix_dropLast_iff hp).mp List.prefix_rfl
        by_cases hnone : (tree p.dropLast).isNone = true
        · show isDir (if _ then _ else _) = true
          rw [if_pos ⟨List.prefix_rfl, hnone⟩]
          rfl
        · show isDir (if _ then _ else _) = true
          rw [if_neg fun h => hnone h.2]
          exact isDir_of_real (habove _ hbelow hne) (hreal _ hbelow) (Bool.eq_false_iff.mpr hnone)
      have hself : made p = tree p := if_neg fun h => ((prefix_dropLast_iff hp).mp h.1).2 rfl
      have hmade : Function.update made p (some (.file content)) = tree.with p content := by
        funext q
        rcases eq_or_ne q p with rfl | hq
        · rw [Function.update_self, Tree.with, if_pos rfl]
        · rw [Function.update_of_ne hq, Tree.with, if_neg hq]
          refine if_congr (and_congr_left' ?_) rfl rfl
          exact (prefix_dropLast_iff hp).trans (and_iff_left hq)
      have hput : tree.put p content = if isDir (tree p) then none else some (tree.with p content) := by
        rw [Tree.put, Tree.mkdirs, if_pos hall, Option.bind_some, Tree.write]
        show (if p ≠ [] ∧ isDir (made p.dropLast) ∧ !isDir (made p) then
          some (Function.update made p (some (.file content))) else none) = _
        rw [hparent, hself, hmade]
        cases isDir (tree p) <;> simp [hp]
      rw [hput]
      split_ifs with hdir
      · exact iff_of_false nofun fun h => by rw [h.1.free] at hdir; exact nomatch hdir
      · rw [Option.some.injEq, eq_comm]
        exact (and_iff_right ⟨hp, habove, Bool.eq_false_iff.mpr hdir⟩).symm
    · have hnone : tree.mkdirs p.dropLast = none := by
        refine if_neg fun hall => habove fun q hq hne => ?_
        have := List.all_eq_true.mp hall q ((List.mem_inits _ _).mpr ((prefix_dropLast_iff hp).mpr ⟨hq, hne⟩))
        exact Option.isNone_iff_eq_none.mp this
      refine iff_of_false (fun h => ?_) fun h => habove h.1.above
      rw [Tree.put, hnone] at h
      cases h

/-! ### A file more -/

theorem fileAt_with (q : Path Name) :
    (tree.with p content).fileAt q = if q = p then some content else tree.fileAt q := by
  rw [Tree.fileAt, Tree.with]
  split_ifs with hq hnone
  · rfl
  · rw [Tree.fileAt, Option.isNone_iff_eq_none.mp hnone.2]
  · rfl

/-- A file that is written over another, or beside the others. -/
theorem fileAt_update (q : Path Name) : Tree.fileAt (Function.update tree p (some (.file content))) q =
    if q = p then some content else tree.fileAt q := by
  rw [Tree.fileAt, Function.update_apply]
  split_ifs <;> rfl

/-- Writing a file in the place of no link changes no link. -/
theorem links_update (h : tree.links p = none) :
    Tree.links (Function.update tree p (some (.file content))) = tree.links := by
  funext q
  rw [Tree.links, Function.update_apply]
  split_ifs with hq
  · rw [hq, h]
  · rfl

theorem with_eq_none_iff {q : Path Name} :
    (tree.with p content) q = none ↔ tree q = none ∧ ¬ q <+: p := by
  rw [Tree.with]
  split_ifs with hq hnone
  · exact iff_of_false nofun fun h => h.2 (hq ▸ List.prefix_rfl)
  · exact iff_of_false nofun fun h => h.2 hnone.1
  · refine (and_iff_left_of_imp fun h hbelow => hnone ⟨hbelow, ?_⟩).symm
    rw [h]
    rfl

/-- Writing a file changes no link. -/
theorem links_with (content : Content) (h : tree.links p = none) : (tree.with p content).links = tree.links := by
  funext q
  rw [Tree.links, Tree.with]
  split_ifs with hq hnone
  · rw [hq, h]
  · rw [Tree.links, Option.isNone_iff_eq_none.mp hnone.2]
  · rfl

theorem isDir_with {q : Path Name} : isDir (tree.with p content q) = true ↔
    q ≠ p ∧ (isDir (tree q) = true ∨ q <+: p ∧ tree q = none) := by
  rw [Tree.with]
  split_ifs with hq hnone
  · exact iff_of_false nofun fun h => h.1 hq
  · exact iff_of_true rfl ⟨hq, .inr ⟨hnone.1, Option.isNone_iff_eq_none.mp hnone.2⟩⟩
  · refine (and_iff_right hq).trans (or_iff_left fun h => hnone ⟨h.1, ?_⟩) |>.symm
    rw [h.2]
    rfl

/-- A file can be written again. -/
theorem Creatable.with_self (h : Creatable tree p) : Creatable (tree.with p content) p where
  ne_nil := h.ne_nil
  above := fun q hq hne => by rw [fileAt_with, if_neg hne, h.above q hq hne]
  free := by
    rw [Tree.with, if_pos rfl]
    rfl

/-- What is in a directory, is in directories. -/
theorem Closed.isDir_above (h : Closed tree) {q : Path Name} (hsome : tree p ≠ none) (hq : q <+: p)
    (hne : q ≠ p) : tree q = some .dir := by
  induction p using List.reverseRecOn with
  | nil => exact absurd (List.prefix_nil.mp hq) hne
  | append_singleton names name ih =>
      have hdir := h names name hsome
      rcases List.prefix_concat_iff.mp hq with rfl | hq
      · exact absurd rfl hne
      · by_cases he : q = names
        · rw [he, hdir]
        · exact ih (by rw [hdir]; exact Option.some_ne_none _) hq he

/-- A file that is written as it is. -/
theorem Closed.with_eq_self (h : Closed tree) (hfile : tree.fileAt p = some content) :
    tree.with p content = tree := by
  have hp : tree p = some (.file content) := by
    rw [Tree.fileAt] at hfile
    rcases e : tree p with - | (content' | - | target)
    · rw [e] at hfile
      exact nomatch hfile
    · rw [e] at hfile
      rw [Option.some.inj hfile]
    · rw [e] at hfile
      exact nomatch hfile
    · rw [e] at hfile
      exact nomatch hfile
  funext q
  rw [Tree.with]
  split_ifs with hq hnone
  · rw [hq, hp]
  · have hdir := h.isDir_above (by rw [hp]; exact Option.some_ne_none _) hnone.1 hq
    rw [hdir] at hnone
    exact nomatch hnone.2
  · rfl

/-- What can be created beside a file that has been written. -/
theorem creatable_with_iff {q : Path Name} (hq : q ≠ p) :
    Creatable (tree.with p content) q ↔
      Creatable tree q ∧ ¬ p <+: q ∧ (q <+: p → tree q ≠ none) := by
  have hfree : isDir (tree.with p content q) = false ↔
      isDir (tree q) = false ∧ (q <+: p → tree q ≠ none) := by
    rw [← Bool.not_eq_true, isDir_with, ← Bool.not_eq_true]
    tauto
  constructor
  · rintro ⟨hne, habove, hq'⟩
    obtain ⟨hdir, hbelow⟩ := hfree.mp hq'
    refine ⟨⟨hne, fun q' hbelow' hne' => ?_, hdir⟩, fun hp => ?_, hbelow⟩
    · have := habove q' hbelow' hne'
      rw [fileAt_with] at this
      split_ifs at this
      exact this
    · have := habove p hp hq.symm
      rw [fileAt_with, if_pos rfl] at this
      cases this
  · rintro ⟨⟨hne, habove, hdir⟩, hp, hbelow⟩
    refine ⟨hne, fun q' hbelow' hne' => ?_, hfree.mpr ⟨hdir, hbelow⟩⟩
    rw [fileAt_with, if_neg fun h : q' = p => hp (h ▸ hbelow')]
    exact habove q' hbelow' hne'

end

end Writing

end Konoha.FileTree
