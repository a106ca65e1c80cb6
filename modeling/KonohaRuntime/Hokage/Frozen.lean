/-
Hokage/Frozen.lean

What becomes of concurrent approvals of one mission.  The receipt is created
exclusively, but the charter and the decision it freezes are written before it, after
a check that finds no receipt.

While no call writes to the directory between another's check and its writes
(`raced = false`), a call that has returned leaves exactly its charter and its
decision to the checkpoint, for good, and the two files do not change once the
receipt is there (`approved_state_stays`).
-/
import KonohaRuntime.Hokage.Approval

namespace Konoha.Hokage

open Effects Json Prog

/-! ### Directories -/

namespace Files

/-- Two names have two files, and files are not used before they are made. -/
structure Wf (f : Files) : Prop where
  distinct : ∀ {n m i}, f.entry n = some i → f.entry m = some i → n = m
  old : ∀ {n i}, f.entry n = some i → i < f.next

variable {f : Files} {t : Tid} {n m : FileName} {i : Nat} {c : Content}

theorem openTrunc_entry : (f.openTrunc t n).2.entry n = some (f.openTrunc t n).1 := by
  rcases e : f.entry n with - | i <;> simp [openTrunc, e]

theorem openTrunc_author :
    ((f.openTrunc t n).2.inode (f.openTrunc t n).1) = ⟨emptyFile, some t⟩ := by
  rcases e : f.entry n with - | i <;> simp [openTrunc, e]

theorem openTrunc_entry_ne (h : m ≠ n) : (f.openTrunc t n).2.entry m = f.entry m := by
  rcases e : f.entry n with - | i <;> simp [openTrunc, e, h]

theorem Wf.openTrunc (hf : f.Wf) : (f.openTrunc t n).2.Wf := by
  rcases e : f.entry n with - | i
  · have hnew : ∀ m, f.entry m ≠ some f.next := fun m hm => Nat.lt_irrefl _ (hf.old hm)
    constructor
    · intro a b i ha hb
      simp only [Files.openTrunc, e, Function.update_apply] at ha hb
      split at ha <;> split at hb
      · rename_i h₁ h₂
        rw [h₁, h₂]
      · exact absurd (hb.trans ha.symm) (hnew b)
      · exact absurd (ha.trans hb.symm) (hnew a)
      · exact hf.distinct ha hb
    · intro a i ha
      simp only [Files.openTrunc, e, Function.update_apply] at ha ⊢
      split at ha
      · obtain rfl := Option.some.inj ha
        exact Nat.lt_succ_self _
      · exact Nat.lt_succ_of_lt (hf.old ha)
  · simp only [Files.openTrunc, e]
    exact ⟨hf.distinct, hf.old⟩

theorem content_openTrunc_ne (hf : f.Wf) (h : m ≠ n) :
    (f.openTrunc t n).2.content m = f.content m := by
  rcases em : f.entry m with - | j
  · simp only [content, openTrunc_entry_ne h, em]
  simp only [content, openTrunc_entry_ne h, em]
  rcases e : f.entry n with - | i
  · have hj : j ≠ f.next := Nat.ne_of_lt (hf.old em)
    simp [openTrunc, e, hj]
  · have hj : j ≠ i := by
      rintro rfl
      exact h (hf.distinct em e)
    simp [openTrunc, e, hj]

theorem Wf.write (hf : f.Wf) : (f.write i c t).Wf := ⟨hf.distinct, hf.old⟩

theorem content_write_self (h : f.entry n = some i) : (f.write i c t).content n = c := by
  simp [content, h, Files.write]

theorem content_write_ne (hf : f.Wf) (hn : f.entry n = some i) (h : m ≠ n) :
    (f.write i c t).content m = f.content m := by
  rcases em : f.entry m with - | j
  · simp [content, em, Files.write]
  · have hj : j ≠ i := by
      rintro rfl
      exact h (hf.distinct em hn)
    simp [content, em, Files.write, hj]

variable {target : Target}

theorem file_ne_tmp (a b : Target) : a.file ≠ b.tmp := by cases a <;> cases b <;> decide

theorem rename_entry_file : (f.rename target i).entry target.file = some i := by
  simp [rename, file_ne_tmp]

theorem rename_entry_ne (h : m ≠ target.file) (h' : m ≠ target.tmp) :
    (f.rename target i).entry m = f.entry m := by
  simp [rename, h, h']

theorem Wf.rename (hf : f.Wf) (hi : f.entry target.tmp = some i) : (f.rename target i).Wf := by
  -- every entry after it is the entry of some name before it
  have hold : ∀ n j, (f.rename target i).entry n = some j →
      n = target.file ∧ j = i ∨ n ≠ target.file ∧ n ≠ target.tmp ∧ f.entry n = some j := by
    intro n j hn
    simp only [Files.rename, Function.update_apply] at hn
    split at hn
    · cases hn
    · split at hn
      · rename_i hne h
        exact .inl ⟨h, (Option.some.inj hn).symm⟩
      · rename_i hne h
        exact .inr ⟨h, hne, hn⟩
  constructor
  · intro a b j ha hb
    rcases hold a j ha with ⟨ra, rj⟩ | ⟨ha₁, ha₂, ha₃⟩ <;>
      rcases hold b j hb with ⟨rb, rj'⟩ | ⟨hb₁, hb₂, hb₃⟩
    · rw [ra, rb]
    · subst rj
      exact absurd (hf.distinct hb₃ hi) hb₂
    · subst rj'
      exact absurd (hf.distinct ha₃ hi) ha₂
    · exact hf.distinct ha₃ hb₃
  · intro a j ha
    rcases hold a j ha with ⟨-, rfl⟩ | ⟨-, -, ha₃⟩
    · exact hf.old hi
    · exact hf.old ha₃

theorem content_rename_file (hi : f.entry target.tmp = some i) :
    (f.rename target i).content target.file = f.content target.tmp := by
  simp only [content, rename_entry_file, hi]
  rfl

theorem content_rename_ne (h : m ≠ target.file) (h' : m ≠ target.tmp) :
    (f.rename target i).content m = f.content m := by
  simp only [content, rename_entry_ne h h']
  rfl

theorem wf_ofContents (c : FileName → Content) : (ofContents c).Wf := by
  constructor
  · intro n m i hn hm
    simp only [ofContents] at hn hm
    split at hn <;> split at hm <;> try contradiction
    obtain rfl := Option.some.inj hm
    cases n <;> cases m <;> simp_all
  · intro n i hn
    simp only [ofContents] at hn ⊢
    split at hn
    · cases hn
    · obtain rfl := Option.some.inj hn
      cases n <;> simp

theorem content_ofContents (c : FileName → Content) (n : FileName) :
    (ofContents c).content n = c n := by
  by_cases h : c n = .absent
  · simp [content, ofContents, h]
  · simp only [content, ofContents, h, if_false]
    cases n <;> rfl

end Files

/-! ### What every interleaving keeps -/

/-- A charter and a decision that belong together, whatever their directory. -/
structure Agrees (py : Stdlib) (charter decision : Dict) : Prop where
  approved : ApprovedCharter charter
  shape : DecisionShape decision
  recorded : fieldOf charter "decision_id" = fieldOf decision "decision_id" ∧
    fieldOf charter "decision_digest" = .str (canonicalDigest py decision)
  missionId : fieldOf charter "mission_id" = fieldOf decision "mission_id"

/-- The files are those of a publication. -/
structure Holds (py : Stdlib) (f : Files) (p : Publication) : Prop where
  charterFile : f.content .charter = .json (.obj p.charter)
  decisionFile : f.content .decision = .json (.obj p.decision)
  receiptFile : ∃ receipt, f.content .receipt = .json (.obj receipt) ∧
    Freezes py receipt p.charter p.decision
  agrees : Agrees py p.charter p.decision

/-- What holds while no call has interfered with another. -/
structure Coherent (py : Stdlib) (d : CharterDir) : Prop where
  wf : d.files.Wf
  frozen_iff : d.frozen.isSome = d.files.hasFile .receipt
  frozen : ∀ s, d.frozen = some s → s = (d.files.content .charter, d.files.content .decision)
  holds : ∀ p ∈ d.published, Holds py d.files p

variable {py : Stdlib} {t : Tid}

/-- The checkpoint accepts what a publication holds, in a directory named for it. -/
theorem Holds.load {f : Files} {p : Publication} (h : Holds py f p) {dir : MissionPath}
    (hname : fieldOf p.charter "mission_id" = .str dir.name) :
    loadAuthoritativeState py dir f.authority = .ok (p.charter, p.decision) := by
  rw [loadAuthoritativeState_eq_ok]
  have hdecides : Decides py dir p.charter p.decision :=
    ⟨h.agrees.shape, h.agrees.recorded, h.agrees.missionId, hname⟩
  exact ⟨h.charterFile, h.agrees.approved, h.decisionFile, hdecides, h.receiptFile⟩

/-- What thread `t` relies on: as long as it is fresh nobody else has written. -/
structure CharterRelies (t : Tid) (d d' : CharterDir) : Prop where
  raced : d.raced = true → d'.raced = true
  published : ∀ p ∈ d.published, p ∈ d'.published
  fresh : d'.fresh t = true → d.fresh t = true ∧ d'.files = d.files

theorem CharterRelies.refl (t : Tid) (d : CharterDir) : CharterRelies t d d :=
  ⟨id, fun _ => id, fun h => ⟨h, rfl⟩⟩

theorem CharterRelies.trans {d₁ d₂ d₃ : CharterDir} (h₁ : CharterRelies t d₁ d₂)
    (h₂ : CharterRelies t d₂ d₃) : CharterRelies t d₁ d₃ := by
  refine ⟨fun h => h₂.raced (h₁.raced h), fun p hp => h₂.published p (h₁.published p hp), ?_⟩
  intro h
  obtain ⟨hf₂, hfiles₂⟩ := h₂.fresh h
  obtain ⟨hf₁, hfiles₁⟩ := h₁.fresh hf₂
  exact ⟨hf₁, hfiles₂.trans hfiles₁⟩

/-- The rules a call is proved under. -/
def charterRules (py : Stdlib) (t : Tid) : Rules CharterDir CharterOp.Ans where
  step := charterStep t
  rely := CharterRelies t
  guar := fun d d' => ∀ t', t ≠ t' → CharterRelies t' d d'
  inv := fun d => d.raced = true ∨ Coherent py d

/-- As long as `t` is fresh, the files satisfy `A`. -/
def WhileFresh (t : Tid) (A : Files → Prop) (d : CharterDir) : Prop :=
  d.raced = true ∨ d.fresh t = false ∨ A d.files

theorem stable_whileFresh {A : Files → Prop} : Stable (charterRules py t) (WhileFresh t A) := by
  intro d d' h hr
  rcases h with h | h | h
  · exact .inl (hr.raced h)
  · refine .inr (.inl ?_)
    rw [← Bool.not_eq_true]
    intro h'
    exact absurd (hr.fresh h').1 (by rw [h]; decide)
  · rcases e : d'.fresh t
    · exact .inr (.inl e)
    · obtain ⟨-, hfiles⟩ := hr.fresh e
      exact .inr (.inr (hfiles ▸ h))

/-- Others lose their freshness when `t` writes. -/
theorem charterRelies_touch {d : CharterDir} {f : Files} {new : List Publication} {t' : Tid}
    (hne : t ≠ t') : CharterRelies t' d (d.touch t f new) := by
  refine ⟨fun h => ?_, fun p hp => List.mem_append_right _ hp, fun h => ?_⟩
  · show (d.raced || !d.fresh t) = true
    rw [h]
    rfl
  · have hfalse : (d.fresh t' && t' == t) = false := by simp [Ne.symm hne]
    rw [show (d.touch t f new).fresh t' = (d.fresh t' && t' == t) from rfl, hfalse] at h
    cases h

/-- A write of `t` that leaves the world as the invariant wants it: no receipt is
complete, and once there is one the two files it freezes stay. -/
structure Safe (f f' : Files) : Prop where
  wf : f'.Wf
  incomplete : ∀ v, f.content .receipt ≠ .json v
  receipt : f.hasFile .receipt = true → f'.hasFile .receipt = true
  files : f'.hasFile .receipt = true →
    f'.content .charter = f.content .charter ∧ f'.content .decision = f.content .decision

/-- A safe write keeps the directory coherent, with what it has published. -/
theorem Coherent.touch {d : CharterDir} (h : Coherent py d) {f : Files} (hs : Safe d.files f)
    {new : List Publication} (hnew : ∀ p ∈ new, Holds py f p) : Coherent py (d.touch t f new) := by
  have hfrozen : (d.touch t f new).frozen =
      if d.files.hasFile .receipt = false ∧ f.hasFile .receipt = true then
        some (d.files.content .charter, d.files.content .decision) else d.frozen := rfl
  refine ⟨hs.wf, ?_, ?_, ?_⟩
  · rw [hfrozen]
    show _ = f.hasFile .receipt
    split
    · rename_i hc
      rw [hc.2]
      rfl
    · rename_i hc
      rw [h.frozen_iff]
      rcases e : d.files.hasFile .receipt with - | -
      · rcases e' : f.hasFile .receipt with - | -
        · rfl
        · exact absurd ⟨e, e'⟩ hc
      · exact (hs.receipt e).symm
  · intro s hsome
    rw [hfrozen] at hsome
    show s = (f.content .charter, f.content .decision)
    split at hsome
    · rename_i hc
      obtain ⟨h₁, h₂⟩ := hs.files hc.2
      rw [h₁, h₂]
      exact (Option.some.inj hsome).symm
    · have hfile : d.files.hasFile .receipt = true := by rw [← h.frozen_iff, hsome]; rfl
      obtain ⟨h₁, h₂⟩ := hs.files (hs.receipt hfile)
      rw [h₁, h₂]
      exact h.frozen s hsome
  · intro p hp
    rcases List.mem_append.mp hp with hp | hp
    · exact hnew p hp
    · obtain ⟨receipt, hreceipt, -⟩ := (h.holds p hp).receiptFile
      exact absurd hreceipt (hs.incomplete _)

/-- One write of a call: from files in `A`, whatever it answers is safe. -/
theorem triple_write {o : CharterOp} (hw : o.writes = true) {A : Files → Prop}
    {B : o.Value → CharterDir → Prop} {E : AuthorityExc → CharterDir → Prop}
    (hB : ∀ v d, d.raced = true → B v d) (hE : ∀ e d, d.raced = true → E e d)
    (hs : ∀ f r f', f.Wf → A f → fileStep t f o r f' →
      Safe f f' ∧ (∀ p ∈ publishes t o r, Holds py f' p) ∧
        ∀ d : CharterDir, d.files = f' → (∀ p ∈ publishes t o r, p ∈ d.published) →
          (∀ v, r = .ok v → B v d) ∧ ∀ e, r = .error e → E e d) :
    Triple (charterRules py t) (WhileFresh t A) (onCharter o) B E := by
  refine triple_ask stable_whileFresh ?_
  intro d r d' hd hi hstep
  have hstep : ∃ f, fileStep t d.files o r f ∧ d' = d.touch t f (publishes t o r) := by
    have h : charterStep t d o r d' := hstep
    unfold charterStep at h
    rwa [if_pos hw] at h
  obtain ⟨f, hfile, rfl⟩ := hstep
  refine and_assoc.mp ⟨⟨?_, fun t' hne => charterRelies_touch hne⟩, ?_⟩
  · rcases e : d.raced with - | -
    · rcases e' : d.fresh t with - | -
      · left
        show (d.raced || !d.fresh t) = true
        rw [e']
        simp
      · right
        have hA : A d.files := by
          rcases hd with h | h | h
          · rw [e] at h; cases h
          · rw [e'] at h; cases h
          · exact h
        have hcoh : Coherent py d := by
          rcases hi with h | h
          · rw [e] at h; cases h
          · exact h
        obtain ⟨hsafe, hnew, -⟩ := hs d.files r f hcoh.wf hA hfile
        exact hcoh.touch hsafe hnew
    · left
      show (d.raced || !d.fresh t) = true
      rw [e]
      rfl
  · rcases e : (d.raced || !d.fresh t) with - | -
    · rw [Bool.or_eq_false_iff, Bool.not_eq_false'] at e
      have hA : A d.files := by
        rcases hd with h | h | h
        · rw [e.1] at h; cases h
        · rw [e.2] at h; cases h
        · exact h
      have hcoh : Coherent py d := by
        rcases hi with h | h
        · rw [e.1] at h; cases h
        · exact h
      obtain ⟨-, -, hpost⟩ := hs d.files r f hcoh.wf hA hfile
      exact hpost _ rfl fun p hp => List.mem_append_left _ hp
    · exact ⟨fun v _ => hB v _ e, fun exc _ => hE exc _ e⟩

/-- A write that publishes nothing. -/
theorem triple_prepare {o : CharterOp} (hw : o.writes = true)
    (hpub : ∀ r, publishes t o r = []) {A : Files → Prop} {B : o.Value → Files → Prop}
    (hs : ∀ f r f', f.Wf → A f → fileStep t f o r f' → Safe f f' ∧ ∀ v, r = .ok v → B v f') :
    Triple (charterRules py t) (WhileFresh t A) (onCharter o) (fun v => WhileFresh t (B v))
      (fun _ _ => True) := by
  refine triple_write hw (fun _ _ h => .inl h) (fun _ _ _ => trivial) ?_
  intro f r f' hf hA hstep
  obtain ⟨hsafe, hB⟩ := hs f r f' hf hA hstep
  refine ⟨hsafe, ?_, ?_⟩
  · rw [hpub]
    exact fun _ hp => absurd hp List.not_mem_nil
  · rintro d rfl -
    exact ⟨fun v hv => .inr (.inr (hB v hv)), fun _ _ => trivial⟩

theorem TakesAs.elim {α : Type} {r : Except AuthorityExc α} {v : α} {f done f' : Files}
    (h : TakesAs r v f done f') : (f' = f ∨ f' = done) ∧ ∀ a, r = .ok a → a = v ∧ f' = done := by
  rcases r with (e | e) | a
  · cases h
  · refine ⟨h.imp id And.right, ?_⟩
    rintro a ⟨⟩
  · refine ⟨.inr h.2, ?_⟩
    rintro _ ⟨⟩
    exact h

/-! ### Before the receipt -/

/-- There is no receipt, and the files of `keep` have these contents. -/
structure Before (keep : List (FileName × Content)) (f : Files) : Prop where
  noReceipt : f.hasFile .receipt = false
  keeps : ∀ p ∈ keep, f.content p.1 = p.2

theorem content_of_not_hasFile {f : Files} {n : FileName} (h : f.hasFile n = false) :
    f.content n = .absent := by
  rcases e : f.entry n with - | i
  · simp only [Files.content, e]
  · simp [Files.hasFile, e] at h

/-- Without a receipt any change of the other files is safe. -/
theorem Safe.of_noReceipt {f f' : Files} (hf' : f'.Wf) (h : f.hasFile .receipt = false)
    (h' : f'.hasFile .receipt = false) : Safe f f' := by
  refine ⟨hf', fun v hv => ?_, fun hr => ?_, fun hr => ?_⟩
  · rw [content_of_not_hasFile h] at hv
    cases hv
  · rw [h] at hr
    cases hr
  · rw [h'] at hr
    cases hr

variable {target : Target} {keep : List (FileName × Content)}

theorem receipt_ne_tmp : FileName.receipt ≠ target.tmp := by cases target <;> decide

theorem receipt_ne_file : FileName.receipt ≠ target.file := by cases target <;> decide

/-- The temporary file of `target` is open for `t`, and satisfies `A`. -/
structure Opened (target : Target) (keep : List (FileName × Content)) (i : Nat)
    (A : Inode → Prop) (f : Files) : Prop extends Before keep f where
  entry : f.entry target.tmp = some i
  inode : A (f.inode i)

theorem triple_openTmp (hkeep : ∀ p ∈ keep, p.1 ≠ target.tmp) :
    Triple (charterRules py t) (WhileFresh t (Before keep)) (onCharter (.openTmp target))
      (fun i => WhileFresh t (Opened target keep i fun n => n.author = some t))
      (fun _ _ => True) := by
  refine triple_prepare rfl (fun r => by cases r <;> rfl) ?_
  intro f r f' hf hA hstep
  obtain ⟨hcases, hok⟩ := TakesAs.elim hstep
  have hreceipt : (f.openTrunc t target.tmp).2.hasFile .receipt = false := by
    rw [Files.hasFile, Files.openTrunc_entry_ne receipt_ne_tmp]
    exact hA.noReceipt
  refine ⟨?_, ?_⟩
  · rcases hcases with rfl | rfl
    · exact .of_noReceipt hf hA.noReceipt hA.noReceipt
    · exact .of_noReceipt hf.openTrunc hA.noReceipt hreceipt
  · intro i hi
    obtain ⟨rfl, rfl⟩ := hok i hi
    refine ⟨⟨hreceipt, fun p hp => ?_⟩, Files.openTrunc_entry, ?_⟩
    · rw [Files.content_openTrunc_ne hf (hkeep p hp)]
      exact hA.keeps p hp
    · rw [Files.openTrunc_author]

/-- Writing an opened temporary file. -/
theorem Opened.write {f : Files} {i : Nat} {A B : Inode → Prop} {c : Content} (hf : f.Wf)
    (h : Opened target keep i A f) (hkeep : ∀ p ∈ keep, p.1 ≠ target.tmp) (hB : B ⟨c, some t⟩) :
    Safe f (f.write i c t) ∧ Opened target keep i B (f.write i c t) := by
  refine ⟨.of_noReceipt hf.write h.noReceipt h.noReceipt, ⟨h.noReceipt, fun p hp => ?_⟩, h.entry, ?_⟩
  · rw [Files.content_write_ne hf h.entry (hkeep p hp)]
    exact h.keeps p hp
  · simpa [Files.write] using hB

theorem triple_replace (hkeep : ∀ p ∈ keep, p.1 ≠ target.file ∧ p.1 ≠ target.tmp) {i : Nat}
    {c : Content} :
    Triple (charterRules py t) (WhileFresh t (Opened target keep i fun n => n.content = c))
      (onCharter (.replace target)) (fun _ => WhileFresh t (Before ((target.file, c) :: keep)))
      (fun _ _ => True) := by
  refine triple_prepare rfl (fun r => by cases r <;> rfl) ?_
  intro f r f' hf hA hstep
  have hstep : TakesAs r () f (f.rename target i) f' := by
    simpa only [fileStep, hA.entry] using hstep
  obtain ⟨hcases, hok⟩ := hstep.elim
  have hreceipt : (f.rename target i).hasFile .receipt = false := by
    rw [Files.hasFile, Files.rename_entry_ne receipt_ne_file receipt_ne_tmp]
    exact hA.noReceipt
  refine ⟨?_, ?_⟩
  · rcases hcases with rfl | rfl
    · exact .of_noReceipt hf hA.noReceipt hA.noReceipt
    · exact .of_noReceipt (hf.rename hA.entry) hA.noReceipt hreceipt
  · intro u hu
    obtain ⟨-, rfl⟩ := hok u hu
    refine ⟨hreceipt, fun p hp => ?_⟩
    rcases List.mem_cons.mp hp with rfl | hp
    · rw [Files.content_rename_file hA.entry, Files.content, hA.entry]
      exact hA.inode
    · obtain ⟨h₁, h₂⟩ := hkeep p hp
      rw [Files.content_rename_ne h₁ h₂]
      exact hA.keeps p hp

/-- Operations that leave the files as they are. -/
theorem triple_quiet {A : CharterDir → Prop} {o : CharterOp}
    (hcheck : ∀ r d d', charterStep t d o r d' → d' = d)
    (hA : Stable (charterRules py t) A) :
    Triple (charterRules py t) A (onCharter o) (fun _ => A) (fun _ _ => True) := by
  refine triple_ask hA ?_
  intro d r d' hd hi hs
  obtain rfl := hcheck r d d' hs
  exact ⟨hi, fun t' _ => CharterRelies.refl t' d', fun _ _ => hd, fun _ _ => trivial⟩

/-- `atomic_write_json`, before there is a receipt. -/
theorem triple_atomicWriteJson {payload : Dict}
    (hkeep : ∀ p ∈ keep, p.1 ≠ target.file ∧ p.1 ≠ target.tmp) :
    Triple (charterRules py t) (WhileFresh t (Before keep)) (atomicWriteJson target payload)
      (fun _ => WhileFresh t (Before ((target.file, .json (.obj payload)) :: keep)))
      (fun _ _ => True) := by
  have htmp : ∀ p ∈ keep, p.1 ≠ target.tmp := fun p hp => (hkeep p hp).2
  refine (triple_quiet (o := .mkdir) (fun _ _ _ h => h) stable_whileFresh).bind fun _ => ?_
  refine (triple_openTmp htmp).bind fun i => ?_
  have hpart : Triple (charterRules py t)
      (WhileFresh t (Opened target keep i fun n => n.author = some t)) (onCharter (.writePart i))
      (fun _ => WhileFresh t (Opened target keep i fun n => n.author = some t))
      (fun _ _ => True) := by
    refine triple_prepare rfl (fun r => by cases r <;> rfl) ?_
    rintro f r f' hf hA ⟨c, -, -, rfl⟩
    obtain ⟨hsafe, hopen⟩ := hA.write (t := t) hf htmp (c := c)
      (B := fun n => n.author = some t) rfl
    exact ⟨hsafe, fun _ _ => hopen⟩
  have hrest : Triple (charterRules py t)
      (WhileFresh t (Opened target keep i fun n => n.author = some t))
      (onCharter (.writeRest i payload))
      (fun _ => WhileFresh t (Opened target keep i fun n => n.content = .json (.obj payload)))
      (fun _ _ => True) := by
    refine triple_prepare rfl (fun r => by cases r <;> rfl) ?_
    rintro f r f' hf hA ⟨c, -, rfl, hc⟩
    refine ⟨.of_noReceipt hf.write hA.noReceipt hA.noReceipt, fun u hu => ?_⟩
    obtain rfl := hc hu hA.inode
    exact (hA.write (t := t) hf htmp (c := .json (.obj payload))
      (B := fun n => n.content = .json (.obj payload)) rfl).2
  exact hpart.bind fun _ => hrest.bind fun _ => triple_replace hkeep

/-! ### The receipt -/

/-- The receipt is being written by `t` into inode `i`, over these two files. -/
structure Sealing (t : Tid) (charter decision : Dict) (i : Nat) (f : Files) : Prop where
  entry : f.entry .receipt = some i
  author : (f.inode i).author = some t
  incomplete : ∀ v, (f.inode i).content ≠ .json v
  charterFile : f.content .charter = .json (.obj charter)
  decisionFile : f.content .decision = .json (.obj decision)

/-- What has been written before the receipt is created. -/
abbrev prepared (charter decision : Dict) : List (FileName × Content) :=
  [(.charter, .json (.obj charter)), (.decision, .json (.obj decision))]

/-- The receipt is created where there is none: an exclusive creation that finds one
comes after another call's write. -/
theorem triple_createReceipt {charter decision : Dict} :
    Triple (charterRules py t) (WhileFresh t (Before (prepared charter decision)))
      (onCharter .createReceipt) (fun i => WhileFresh t (Sealing t charter decision i))
      (fun e d => (∃ text, e = .python (.fileExistsError text)) → d.raced = true) := by
  refine triple_write rfl (fun _ _ h => .inl h) (fun _ _ h _ => h) ?_
  intro f r f' hf hA hstep
  have hnone : f.entry .receipt = none := by
    have h := hA.noReceipt
    rwa [Files.hasFile, Option.isSome_eq_false_iff, Option.isNone_iff_eq_none] at h
  have hstep : TakesAs r f.next f (f.openTrunc t .receipt).2 f' ∧
      ∀ text, r ≠ .error (.python (.fileExistsError text)) := by
    simpa only [fileStep, hnone] using hstep
  obtain ⟨htakes, hexists⟩ := hstep
  obtain ⟨hcases, hok⟩ := htakes.elim
  have hcharter : (f.openTrunc t .receipt).2.content .charter = f.content .charter :=
    Files.content_openTrunc_ne hf (by decide)
  have hdecision : (f.openTrunc t .receipt).2.content .decision = f.content .decision :=
    Files.content_openTrunc_ne hf (by decide)
  have hpub : publishes t .createReceipt r = [] := by cases r <;> rfl
  refine ⟨?_, fun p hp => absurd (hpub ▸ hp) List.not_mem_nil, ?_⟩
  · rcases hcases with rfl | rfl
    · exact .of_noReceipt hf hA.noReceipt hA.noReceipt
    · refine ⟨hf.openTrunc, fun v hv => ?_, fun h => ?_, fun _ => ⟨hcharter, hdecision⟩⟩
      · rw [content_of_not_hasFile hA.noReceipt] at hv
        cases hv
      · rw [hA.noReceipt] at h
        cases h
  · rintro d rfl -
    refine ⟨fun i hi => .inr (.inr ?_), ?_⟩
    · obtain ⟨rfl, hfiles⟩ := hok i hi
      have hi : (f.openTrunc t .receipt).1 = f.next := by simp only [Files.openTrunc, hnone]
      have hinode := Files.openTrunc_author (f := f) (t := t) (n := .receipt)
      rw [hi] at hinode
      rw [hfiles]
      refine ⟨?_, ?_, ?_, ?_, ?_⟩
      · rw [Files.openTrunc_entry, hi]
      · rw [hinode]
      · rw [hinode]
        intro v hv
        cases hv
      · rw [hcharter]
        exact hA.keeps (.charter, .json (.obj charter)) (by simp)
      · rw [hdecision]
        exact hA.keeps (.decision, .json (.obj decision)) (by simp)
    · rintro e he ⟨text, rfl⟩
      exact absurd he (hexists text)

/-- A write into the receipt leaves the other files. -/
theorem Sealing.safe {f : Files} {charter decision : Dict} {i : Nat} {c : Content} (hf : f.Wf)
    (h : Sealing t charter decision i f) : Safe f (f.write i c t) := by
  refine ⟨hf.write, fun v hv => ?_, id, fun _ => ⟨?_, ?_⟩⟩
  · rw [Files.content, h.entry] at hv
    exact h.incomplete v hv
  · exact Files.content_write_ne hf h.entry (by decide)
  · exact Files.content_write_ne hf h.entry (by decide)

theorem triple_writeReceiptPart {charter decision : Dict} {i : Nat} :
    Triple (charterRules py t) (WhileFresh t (Sealing t charter decision i))
      (onCharter (.writePart i)) (fun _ => WhileFresh t (Sealing t charter decision i))
      (fun _ _ => True) := by
  refine triple_prepare rfl (fun r => by cases r <;> rfl) ?_
  rintro f r f' hf hA ⟨c, -, hc, rfl⟩
  refine ⟨hA.safe hf, fun _ _ => ⟨hA.entry, by simp [Files.write], ?_, ?_, ?_⟩⟩
  · simpa [Files.write] using hc
  · rw [Files.content_write_ne hf hA.entry (by decide)]
    exact hA.charterFile
  · rw [Files.content_write_ne hf hA.entry (by decide)]
    exact hA.decisionFile

/-- The call of `t` has published its charter and decision, or there has been
interference. -/
def Delivered (t : Tid) (charter decision : Dict) (d : CharterDir) : Prop :=
  d.raced = true ∨ ⟨t, charter, decision⟩ ∈ d.published

theorem stable_delivered {charter decision : Dict} :
    Stable (charterRules py t) (Delivered t charter decision) :=
  fun _ _ h hr => h.imp hr.raced (hr.published _)

theorem triple_writeReceipt {receipt charter decision : Dict} {i : Nat}
    (hfreezes : Freezes py receipt charter decision) (hagrees : Agrees py charter decision) :
    Triple (charterRules py t) (WhileFresh t (Sealing t charter decision i))
      (onCharter (.writeReceipt i receipt charter decision))
      (fun _ => Delivered t charter decision) (fun _ _ => True) := by
  refine triple_write rfl (fun _ _ h => .inl h) (fun _ _ _ => trivial) ?_
  rintro f r f' hf hA ⟨c, -, rfl, hc⟩
  refine ⟨hA.safe hf, ?_, ?_⟩
  · rcases r with e | u
    · exact fun p hp => absurd hp List.not_mem_nil
    · obtain rfl := hc rfl hA.author
      intro p hp
      obtain rfl : p = ⟨t, charter, decision⟩ := List.mem_singleton.mp hp
      refine ⟨?_, ?_, ⟨receipt, Files.content_write_self hA.entry, hfreezes⟩, hagrees⟩
      · rw [Files.content_write_ne hf hA.entry (by decide)]
        exact hA.charterFile
      · rw [Files.content_write_ne hf hA.entry (by decide)]
        exact hA.decisionFile
  · intro d _ hpub
    refine ⟨?_, fun _ _ => trivial⟩
    rintro u rfl
    exact .inr (hpub _ (List.mem_singleton.mpr rfl))

/-- `publish_once` of the receipt. -/
theorem triple_publishReceipt {dir : MissionPath} {receipt charter decision : Dict}
    (hfreezes : Freezes py receipt charter decision) (hagrees : Agrees py charter decision) :
    Triple (charterRules py t) (WhileFresh t (Before (prepared charter decision)))
      (publishReceipt dir receipt charter decision) (fun _ => Delivered t charter decision)
      (fun _ _ => True) := by
  refine (triple_quiet (o := .mkdir) (fun _ _ _ h => h) stable_whileFresh).bind fun _ => ?_
  refine (triple_createReceipt.caught (D := fun _ _ => True)).bind fun created => ?_
  rcases created with e | i
  · -- a receipt that is found has been created since the check
    have hraced : Stable (charterRules py t) fun d => d.raced = true := fun _ _ h hr => hr.raced h
    rcases e with ⟨code, text⟩ | e
    · exact Triple.raise fun _ _ => trivial
    cases e with
    | fileExistsError text =>
        refine Triple.conseq (A := fun d => d.raced = true) ?_
          (fun d hd => hd.2 _ rfl ⟨text, rfl⟩) (fun _ _ h => h) fun _ _ h => h
        have hread : ∀ r d d', charterStep t d .readReceipt r d' → d' = d := by
          intro r d d' h
          cases r with
          | error e => exact h
          | ok c => exact h.2
        refine (triple_quiet hread hraced).bind fun content => ?_
        refine (triple_ofExcept.conseq (fun _ h => h) (fun _ _ h => h.2) fun _ _ _ => trivial).bind ?_
        intro existing
        split
        · exact Triple.raise fun _ _ => trivial
        · exact Triple.ret fun _ h => .inl h
    | _ => exact Triple.raise fun _ _ => trivial
  · refine Triple.conseq (A := WhileFresh t (Sealing t charter decision i)) ?_
      (fun d hd => hd.1 i rfl) (fun _ _ h => h) fun _ _ h => h
    have hwritten := triple_writeReceiptPart.bind fun _ =>
      (triple_writeReceipt (t := t) (i := i) hfreezes hagrees).bind fun _ =>
        triple_quiet (o := .fsync i) (fun _ _ _ h => h) stable_delivered
    refine (hwritten.caught (D := fun _ _ => True)).bind fun written => ?_
    have hclosed : Stable (charterRules py t) fun d =>
        (∀ u, written = .ok u → Delivered t charter decision d) ∧
          ∀ e : AuthorityExc, written = .error e → True :=
      fun _ _ h hr => ⟨fun u hu => stable_delivered _ _ (h.1 u hu) hr, fun _ _ => trivial⟩
    refine (triple_quiet (o := .close i) (fun _ _ _ h => h) hclosed).bind fun _ => ?_
    rcases written with e | u
    · exact Triple.raise fun _ _ => trivial
    · exact Triple.ret fun _ h => h.1 u rfl

/-! ### A whole call -/

/-- An approval changes three fields of the charter. -/
theorem fieldOf_approvedCharter {charter : Dict} {approvedAt approvedBy key : String}
    (h : key ∉ ["state", "approved_at", "approved_by"]) :
    fieldOf (approvedCharter charter approvedAt approvedBy) key = fieldOf charter key := by
  simp only [List.mem_cons, List.not_mem_nil, or_false, not_or] at h
  unfold fieldOf approvedCharter
  rw [lookup_setField_ne h.2.2, lookup_setField_ne h.2.1, lookup_setField_ne h.1]

theorem Registered.approved {charter : Dict} {approvedAt approvedBy : String}
    (h : Registered charter) : Registered (approvedCharter charter approvedAt approvedBy) := by
  have hskills : ∀ key ∈ skillListKeys,
      skillsOf (approvedCharter charter approvedAt approvedBy) key = skillsOf charter key := by
    intro key hkey
    unfold skillsOf
    rw [fieldOf_approvedCharter]
    simp only [skillListKeys, List.mem_cons, List.not_mem_nil, or_false] at hkey
    rcases hkey with rfl | rfl | rfl <;> decide
  have h₁ := hskills "proposed_skills" (by simp [skillListKeys])
  have h₂ := hskills "forbidden_skills" (by simp [skillListKeys])
  have h₃ := hskills "allowed_followup_skills" (by simp [skillListKeys])
  refine ⟨fun key hkey => ?_, ?_, ?_⟩
  · rw [hskills key hkey]
    exact h.registered key hkey
  · rw [h₁, h₂]
    exact h.proposed
  · rw [h₃, h₂]
    exact h.followups

theorem digest_ne_empty (d : Digest) : d.1 ≠ "" := by
  intro h
  have hd := d.nonBlank
  rw [h] at hd
  exact absurd hd (by decide)

/-- What the checks of `write_authority_receipt` make sure of. -/
theorem receiptChecks_ok {charter decision : Dict} {approvedAt approvalPhrase : String}
    (h : receiptChecks py charter decision approvedAt approvalPhrase = .ok ())
    (hreg : Registered charter) :
    Agrees py charter decision ∧
      Freezes py (receiptOf py charter decision approvedAt approvalPhrase) charter decision := by
  simp only [receiptChecks, check_bind_eq_ok, require_eq_ok, validateCharterShape_eq_ok,
    validateCharterState_approved, validateDecisionShape_eq_ok] at h
  obtain ⟨⟨hshape, hstate⟩, hdecision, -, hmission, hid, hdigest, hat, -, -⟩ := h
  have htext : ∀ key ∈ ["charter_id", "mission_id", "decision_id"],
      isText (fieldOf charter key) = true := fun key hkey =>
    hshape.texts key (by simp only [List.mem_cons, List.not_mem_nil, or_false] at hkey ⊢; tauto)
  have hdigests : ∀ d : Digest, isText (.str d.1) = true := fun d =>
    isText_iff.mpr ⟨_, rfl, digest_ne_empty d⟩
  refine ⟨⟨⟨hshape, hstate, hreg⟩, hdecision, ⟨hid, hdigest⟩, hmission⟩, ?_⟩
  refine ⟨⟨rfl, rfl, rfl, rfl, ?_⟩, ⟨rfl, hmission⟩, rfl, rfl, rfl, rfl⟩
  simp only [receiptKeys, List.forall_mem_cons, List.not_mem_nil, false_implies, implies_true,
    and_true]
  exact ⟨rfl, rfl, htext _ (by simp), htext _ (by simp), hdigests _,
    hdecision.texts "decision_id" (by simp), hdigests _, isText_iff.mpr ⟨_, rfl, hat⟩, hdigests _⟩

theorem triple_receiptIsFile :
    Triple (charterRules py t) (fun _ => True) (onCharter .receiptIsFile)
      (fun found d => found = false → WhileFresh t (Before []) d) (fun _ _ => True) := by
  refine triple_ask (fun _ _ _ _ => trivial) ?_
  intro d r d' _ hi hs
  have hs : charterStep t d .receiptIsFile r d' := hs
  rcases r with e | found
  · obtain rfl : d' = d := hs
    refine ⟨hi, fun t' _ => CharterRelies.refl t' d', ?_, fun _ _ => trivial⟩
    rintro v ⟨⟩
  · obtain ⟨hfound, rfl⟩ : found = d.files.hasFile .receipt ∧
        d' = { d with fresh := Function.update d.fresh t (!found) } := hs
    have hinv : d.raced = true ∨
        Coherent py { d with fresh := Function.update d.fresh t (!found) } :=
      hi.imp id fun h => ⟨h.wf, h.frozen_iff, h.frozen, h.holds⟩
    refine ⟨hinv, fun t' hne => ⟨id, fun _ => id, fun h => ⟨?_, rfl⟩⟩, ?_, fun _ _ => trivial⟩
    · have h : Function.update d.fresh t (!found) t' = true := h
      rwa [Function.update_of_ne (Ne.symm hne)] at h
    · rintro v ⟨⟩ rfl
      exact .inr (.inr ⟨hfound.symm, fun _ hp => absurd hp List.not_mem_nil⟩)

theorem triple_approveCharter {dir : MissionPath} {charter decision : Dict}
    {approvalPhrase approvedBy : String} :
    Triple (charterRules py t) (fun _ => True)
      (approveCharter py dir charter decision approvalPhrase approvedBy)
      (fun approved => Delivered t approved decision) (fun _ _ => True) := by
  refine (triple_ofExcept.conseq (fun _ h => h) (fun _ _ h => h) fun _ _ _ => trivial).bind ?_
  rintro ⟨⟩
  refine Triple.of_pure fun hchecks => ?_
  have hreg : Registered charter := by
    simp only [approvalChecks, check_bind_eq_ok, validateCharterConstruction_eq_ok] at hchecks
    exact hchecks.2.2.2.2.1.registered
  refine triple_receiptIsFile.bind fun found => ?_
  rcases found with - | -
  · rw [if_neg (by decide)]
    refine Triple.conseq (A := WhileFresh t (Before [])) ?_ (fun _ h => h rfl)
      (fun _ _ h => h) fun _ _ h => h
    refine (triple_quiet (o := .utcNow) (fun _ _ _ h => h) stable_whileFresh).bind fun now => ?_
    refine (triple_atomicWriteJson (fun _ hp => absurd hp List.not_mem_nil)).bind fun _ => ?_
    refine (triple_atomicWriteJson ?_).bind fun _ => ?_
    · intro p hp
      obtain rfl := List.mem_singleton.mp hp
      exact ⟨FileName.noConfusion, FileName.noConfusion⟩
    have hreceipt : Triple (charterRules py t)
        (WhileFresh t (Before (prepared (approvedCharter charter now.1 (strip approvedBy)) decision)))
        (writeAuthorityReceipt py dir (approvedCharter charter now.1 (strip approvedBy)) decision
          now.1 (strip approvalPhrase))
        (fun _ => Delivered t (approvedCharter charter now.1 (strip approvedBy)) decision)
        (fun _ _ => True) := by
      refine (triple_ofExcept.conseq (fun _ h => h) (fun _ _ h => h) fun _ _ _ => trivial).bind ?_
      rintro ⟨⟩
      refine Triple.of_pure fun hreceipt => ?_
      obtain ⟨hagrees, hfreezes⟩ := receiptChecks_ok hreceipt hreg.approved
      refine (triple_publishReceipt hfreezes hagrees).bind fun _ => ?_
      exact (triple_ofExcept.conseq (fun _ h => h) (fun _ _ h => h.2) fun _ _ _ => trivial).bind
        fun _ => Triple.ret fun _ h => h
    exact hreceipt.bind fun _ => Triple.ret fun _ h => h
  · rw [if_pos rfl]
    exact Triple.raise fun _ _ => trivial

/-- The calls fit together. -/
def approvalOutline (py : Stdlib) (dir : MissionPath) : (approvals py dir).Outline where
  inv := fun d => d.raced = true ∨ Coherent py d
  rely := CharterRelies
  guar := fun t d d' => ∀ t', t ≠ t' → CharterRelies t' d d'
  start := fun _ _ => True
  rely_refl := CharterRelies.refl
  rely_trans := CharterRelies.trans
  start_stable := fun _ _ => trivial
  guar_rely := fun hne hg => hg _ hne
  die_inv := by
    rintro t d d' hi rfl
    exact hi
  die_rely := by
    rintro t t' d d' - rfl
    exact CharterRelies.refl _ _
  env_inv := by
    rintro live d d' hi rfl
    exact hi
  env_rely := by
    rintro live t d d' rfl -
    exact CharterRelies.refl _ _
  call_ok := fun _ _ => Triple.bind
    (triple_approveCharter.conseq (fun _ _ => trivial) (fun _ _ h => h) fun _ _ h => h)
    fun _ => Triple.ret fun _ _ => trivial

/-- A call that returns has delivered. -/
theorem approvalOutline_delivers {dir : MissionPath} :
    (approvalOutline py dir).Delivers fun t a => Delivered t a.1 a.2 where
  call := fun _ _ => Triple.bind
    (triple_approveCharter.conseq (fun _ _ => trivial) (fun _ _ h => h) fun _ _ h => h)
    fun _ => Triple.ret fun _ h => h
  stable := fun h hr => (@stable_delivered py _ _ _) _ _ h hr

/-- The directory before the first call is coherent. -/
theorem coherent_init (c : FileName → Content) : Coherent py (CharterDir.init c) := by
  have hfile : (Files.ofContents c).hasFile .receipt = decide (c .receipt ≠ .absent) := by
    by_cases h : c .receipt = .absent <;> simp [Files.hasFile, Files.ofContents, h]
  refine ⟨Files.wf_ofContents c, ?_, ?_, fun _ hp => absurd hp List.not_mem_nil⟩
  · show (if c .receipt = .absent then none else some (c .charter, c .decision)).isSome = _
    rw [show (CharterDir.init c).files = Files.ofContents c from rfl, hfile]
    by_cases h : c .receipt = .absent <;> simp [h]
  · intro s hs
    have hs : (if c .receipt = .absent then none else some (c .charter, c .decision)) = some s := hs
    show s = ((Files.ofContents c).content .charter, (Files.ofContents c).content .decision)
    rw [Files.content_ofContents, Files.content_ofContents]
    split at hs
    · cases hs
    · exact (Option.some.inj hs).symm

/-- The configurations that runs from a directory with contents `c` reach. -/
abbrev ApprovalReaches (py : Stdlib) (dir : MissionPath) (c : FileName → Content)
    (conf : Conf CharterDir CharterOp.Ans AuthorityExc (Dict × Dict)) : Prop :=
  (approvals py dir).Reachable (CharterDir.init c) conf

/-- Interference is not forgotten, and neither is a publication. -/
theorem approvals_monotone {dir : MissionPath}
    {conf conf' : Conf CharterDir CharterOp.Ans AuthorityExc (Dict × Dict)}
    (h : Relation.ReflTransGen (approvals py dir).Step conf conf') :
    (conf.world.raced = true → conf'.world.raced = true) ∧
      ∀ p ∈ conf.world.published, p ∈ conf'.world.published := by
  have hstep : ∀ t d (o : CharterOp) (r : o.Ans) d', charterStep t d o r d' →
      (d.raced = true → d'.raced = true) ∧ ∀ p ∈ d.published, p ∈ d'.published := by
    intro t d o r d' h
    unfold charterStep at h
    split at h
    · obtain ⟨f, -, rfl⟩ := h
      have hrelies : CharterRelies (t + 1) d (d.touch t f (publishes t o r)) :=
        charterRelies_touch (Nat.ne_of_lt (Nat.lt_succ_self t))
      exact ⟨hrelies.raced, hrelies.published⟩
    · split at h
      · obtain ⟨-, rfl⟩ := h
        exact ⟨id, fun _ => id⟩
      · obtain ⟨-, rfl⟩ := h
        exact ⟨id, fun _ => id⟩
      · subst h
        exact ⟨id, fun _ => id⟩
  induction h with
  | refl => exact ⟨id, fun _ => id⟩
  | tail _ hs ih =>
      refine ⟨fun h => ?_, fun p hp => ?_⟩
      · cases hs with
        | spawn x => exact ih.1 h
        | perform ht hs => exact (hstep _ _ _ _ _ hs).1 (ih.1 h)
        | die ht hd => exact hd ▸ ih.1 h
        | env he => exact he ▸ ih.1 h
      · cases hs with
        | spawn x => exact ih.2 p hp
        | perform ht hs => exact (hstep _ _ _ _ _ hs).2 p (ih.2 p hp)
        | die ht hd => exact hd ▸ ih.2 p hp
        | env he => exact he ▸ ih.2 p hp

/-- **An approved state stays**: in every interleaving in which no call writes between
another's receipt check and its writes, once a call has returned, in the directory that
its mission id names, the checkpoint loads exactly its charter and its decision then
and ever after; and once there is a receipt the charter and the decision files are as
they were when it was created. -/
theorem approved_state_stays {dir : MissionPath} {contents : FileName → Content}
    {conf conf' : Conf CharterDir CharterOp.Ans AuthorityExc (Dict × Dict)}
    (h : ApprovalReaches py dir contents conf)
    (h' : Relation.ReflTransGen (approvals py dir).Step conf conf')
    (hraced : conf'.world.raced = false) :
    (∀ t charter decision, conf.thread t = some (.ret (charter, decision)) →
      fieldOf charter "mission_id" = .str dir.name →
      loadAuthoritativeState py dir conf'.world.files.authority = .ok (charter, decision)) ∧
    ∀ frozen, conf'.world.frozen = some frozen →
      (conf'.world.files.content .charter, conf'.world.files.content .decision) = frozen := by
  have hcoh : Coherent py conf'.world := by
    have hinv := (approvalOutline py dir).reachable (.inr (coherent_init contents))
      (fun _ => trivial) (h.trans h')
    rcases hinv with hr | hc
    · rw [hraced] at hr
      cases hr
    · exact hc
  refine ⟨?_, fun frozen hf => (hcoh.frozen frozen hf).symm⟩
  intro t charter decision hret hname
  obtain ⟨hmono, hpublished⟩ := approvals_monotone h'
  have hdelivered := approvalOutline_delivers.returned (.inr (coherent_init contents))
    (fun _ => trivial) h hret
  rcases hdelivered with hr | hp
  · rw [hmono hr] at hraced
    cases hraced
  · exact (hcoh.holds _ (hpublished _ hp)).load hname

/-! ### Two runs -/

def sampleDecision : Dict :=
  [("decision_id", .str "decision-1"), ("mission_id", .str "mission-a"),
   ("report_type", .str "hokage_mission_decision"), ("schema_version", .str "1.1.0"),
   ("selection", .obj [("model", .str "m"), ("provider", .str "ollama"),
     ("selection_source", .str "human"), ("strategy", .str "local")])]

/-- A proposed charter for it. -/
def sampleCharter : Dict :=
  [("allowed_followup_skills", .arr []), ("approval_phrase", .str "APROBAR CHARTER-0123456789"),
   ("charter_id", .str "charter-0123456789"),
   ("decision_digest", .str "e0d11b815b135bb7defa215c6ccb49472663506fbebc0d76e09a835098b526f4"),
   ("decision_id", .str "decision-1"), ("forbidden_skills", .arr []),
   ("human_constraints", .obj [("local_model_only", .bool false),
     ("mutation_forbidden", .bool false), ("network_blocked", .bool false),
     ("private_context_restricted", .bool false)]),
   ("memory_write_allowed", .bool true), ("mission_id", .str "mission-a"),
   ("proposed_skills", .arr [.str "inspect_git_status"]),
   ("report_type", .str "conversational_mission_charter"), ("schema_version", .str "1.1.0"),
   ("state", .str "proposed")]

/-- The library functions on the texts of the sample, which their lengths tell apart:
the decision, the two approved charters and the phrase. -/
def sampleHashes : Stdlib where
  sha256 text :=
    match text.utf8ByteSize with
    | 210 => ⟨"e0d11b815b135bb7defa215c6ccb49472663506fbebc0d76e09a835098b526f4",
        isHex_ofList (by decide +kernel)⟩
    | 625 => ⟨"3f53e37a8f5bc104f4e0d8197c6f1480d6d485b07a5ab628ff9bbc2ff701b70e",
        isHex_ofList (by decide +kernel)⟩
    | 627 => ⟨"91274d34896267255d0b3d6474827adfb2158455ed0c111e707aea4805aac892",
        isHex_ofList (by decide +kernel)⟩
    | _ => ⟨"3c96890892fe629feb8b436e19f244097fdc8ba8001cc910d77cc5308c3950f4",
        isHex_ofList (by decide +kernel)⟩
  floatRepr _ := "0.0"
  lower s := s
  format _ := "None"
  repr _ := "''"
  interpreter := usualInterpreter

def sampleDir : MissionPath := ⟨"missions/mission-a", "mission-a"⟩

def sampleApproval (approvedBy : String) : ApprovalCall :=
  ⟨sampleCharter, sampleDecision, "APROBAR CHARTER-0123456789", approvedBy⟩

/-- What a healthy machine does to the files. -/
def fileAnswer (t : Tid) (f : Files) : (o : CharterOp) → o.Ans × Files
  | .openTmp target => (.ok (f.openTrunc t target.tmp).1, (f.openTrunc t target.tmp).2)
  | .writePart i => (.ok (), f.write i emptyFile t)
  | .writeRest i v => (.ok (), f.write i (.json (.obj v)) t)
  | .writeReceipt i v _ _ => (.ok (), f.write i (.json (.obj v)) t)
  | .replace target =>
      match f.entry target.tmp with
      | some i => (.ok (), f.rename target i)
      | none => (.error (.python (.fileNotFoundError "")), f)
  | .createReceipt =>
      match f.entry .receipt with
      | none => (.ok f.next, (f.openTrunc t .receipt).2)
      | some _ => (.error (.python (.fileExistsError "")), f)
  | .receiptIsFile => (.ok (f.hasFile .receipt), f)
  | .readReceipt => (.ok (f.content .receipt), f)
  | .utcNow => (.ok newYear, f)
  | .mkdir => (.ok (), f)
  | .fsync _ => (.ok (), f)
  | .close _ => (.ok (), f)

/-- The answers of a healthy machine. -/
def charterAnswer (t : Tid) (d : CharterDir) (o : CharterOp) : o.Ans × CharterDir :=
  let (r, f) := fileAnswer t d.files o
  if o.writes then (r, d.touch t f (publishes t o r))
  else
    match o, r with
    | .receiptIsFile, .ok found =>
        (.ok found, { d with fresh := Function.update d.fresh t (!found) })
    | _, r => (r, d)

theorem fileAnswer_step (t : Tid) (f : Files) (o : CharterOp) (ho : o.writes = true) :
    fileStep t f o (fileAnswer t f o).1 (fileAnswer t f o).2 := by
  cases o with
  | openTmp target => exact ⟨rfl, rfl⟩
  | writePart i => exact ⟨emptyFile, by simp [emptyFile], by simp [emptyFile], rfl⟩
  | writeRest i v => exact ⟨_, by simp, rfl, fun _ _ => rfl⟩
  | writeReceipt i v charter decision => exact ⟨_, by simp, rfl, fun _ _ => rfl⟩
  | replace target =>
      rcases e : f.entry target.tmp with - | i <;> simp [fileStep, fileAnswer, e, TakesAs]
  | createReceipt =>
      rcases e : f.entry .receipt with - | i <;> simp [fileStep, fileAnswer, e, TakesAs]
  | _ => cases ho

theorem charterAnswer_step (t : Tid) (d : CharterDir) (o : CharterOp) :
    charterStep t d o (charterAnswer t d o).1 (charterAnswer t d o).2 := by
  rcases e : o.writes
  · cases o with
    | openTmp target => cases e
    | writePart i => cases e
    | writeRest i v => cases e
    | writeReceipt i v charter decision => cases e
    | replace target => cases e
    | createReceipt => cases e
    | receiptIsFile => exact ⟨rfl, rfl⟩
    | readReceipt => exact ⟨rfl, rfl⟩
    | _ => rfl
  · unfold charterStep charterAnswer
    rw [if_pos e]
    simp only [e, if_true]
    exact ⟨_, fileAnswer_step t d.files o e, rfl⟩

def approvalRun (turns : List (Turn ApprovalCall)) :
    Conf CharterDir CharterOp.Ans AuthorityExc (Dict × Dict) :=
  (approvals sampleHashes sampleDir).play charterAnswer turns
    (Conf.init (CharterDir.init fun _ => .absent))

theorem approvalReaches_approvalRun (turns : List (Turn ApprovalCall)) :
    ApprovalReaches sampleHashes sampleDir (fun _ => .absent) (approvalRun turns) :=
  System.reaches_play charterAnswer_step turns (fun _ _ _ => rfl) _

/-- One approval, and then another. -/
def twoApprovals : List (Turn ApprovalCall) :=
  .spawn (sampleApproval "ana") :: List.replicate 18 (.run 0) ++
    [.spawn (sampleApproval "luisa"), .run 1]

/-- The second approval is made between the check of the first and its writes. -/
def lateApproval : List (Turn ApprovalCall) :=
  .spawn (sampleApproval "ana") :: .run 0 ::
    .spawn (sampleApproval "luisa") :: List.replicate 18 (.run 1) ++ List.replicate 14 (.run 0)

/-- One evaluation of both runs. -/
theorem approvalRuns_evaluate :
    ((approvalRun twoApprovals).world.raced = false ∧
        (approvalRun twoApprovals).Returned 0 = true) ∧
      (approvalRun lateApproval).Returned 1 = true ∧
      (approvalRun lateApproval).world.frozen ≠
        some ((approvalRun lateApproval).world.files.content .charter,
          (approvalRun lateApproval).world.files.content .decision) ∧
      loadAuthoritativeState sampleHashes sampleDir
          (approvalRun lateApproval).world.files.authority =
        .error (.binding .charterImmutableViolation
          "mission_charter.json changed after approval") := by
  decide +kernel

/-- The first approval is the one that the checkpoint loads. -/
theorem twoApprovals_state_stays :
    (approvalRun twoApprovals).Returned 0 = true ∧
      ∀ t charter decision, (approvalRun twoApprovals).thread t = some (.ret (charter, decision)) →
        fieldOf charter "mission_id" = .str sampleDir.name →
        loadAuthoritativeState sampleHashes sampleDir (approvalRun twoApprovals).world.files.authority
          = .ok (charter, decision) := by
  obtain ⟨⟨hraced, hreturned⟩, -⟩ := approvalRuns_evaluate
  have h := approved_state_stays (approvalReaches_approvalRun twoApprovals) .refl hraced
  exact ⟨hreturned, h.1⟩

/-- **A late approval destroys another**: one call has returned an approved charter, the
other overwrites the charter file after the receipt has been created, and the
checkpoint loads nothing any more. -/
theorem lateApproval_unloads :
    ApprovalReaches sampleHashes sampleDir (fun _ => .absent) (approvalRun lateApproval) ∧
      (approvalRun lateApproval).Returned 1 = true ∧
      (approvalRun lateApproval).world.frozen ≠
        some ((approvalRun lateApproval).world.files.content .charter,
          (approvalRun lateApproval).world.files.content .decision) ∧
      loadAuthoritativeState sampleHashes sampleDir
          (approvalRun lateApproval).world.files.authority =
        .error (.binding .charterImmutableViolation "mission_charter.json changed after approval") :=
  ⟨approvalReaches_approvalRun lateApproval, approvalRuns_evaluate.2⟩

end Konoha.Hokage
