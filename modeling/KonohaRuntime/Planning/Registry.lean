/-
Planning/Registry.lean

The capability registry: which models of which providers a family may be given.

`model_allowed` answers with the first entry that fits the request and does not look further.  So
its answer is the one that all fitting entries give together only if they agree with one another
(`exact_iff_agree`).
-/
import Mathlib
import KonohaRuntime.Base.Text

namespace Konoha.Planning

/-- An entry of `models`. -/
structure RegistryEntry where
  provider : String
  model : String
  eligibleFamilies : List String
  deriving DecidableEq

namespace RegistryEntry

/-- The entry is one of the provider for the model, or one of the provider for any model. -/
def Fits (item : RegistryEntry) (provider model : String) : Prop :=
  item.provider = provider ∧ (model = item.model ∨ model = "provider_default")

/-- The family is listed, or every family is. -/
def Lists (item : RegistryEntry) (family : String) : Prop :=
  family ∈ item.eligibleFamilies ∨ "*" ∈ item.eligibleFamilies

instance (item : RegistryEntry) (provider model : String) : Decidable (item.Fits provider model) :=
  inferInstanceAs (Decidable (_ ∧ _))

instance (item : RegistryEntry) (family : String) : Decidable (item.Lists family) :=
  inferInstanceAs (Decidable (_ ∨ _))

end RegistryEntry

/-- `CapabilityRegistry.model_allowed`, over `self.data["models"]` -/
def modelAllowed (models : List RegistryEntry) (provider model family : String) : Bool :=
  match models with
  | [] => false
  | item :: rest =>
      if item.provider ≠ provider then modelAllowed rest provider model family
      else if ¬ (model = item.model ∨ model = "provider_default") then
        modelAllowed rest provider model family
      else family ∈ item.eligibleFamilies ∨ "*" ∈ item.eligibleFamilies

variable {models : List RegistryEntry} {provider model family : String}

/-- The answer is that of the first entry that fits. -/
theorem modelAllowed_eq : modelAllowed models provider model family =
    ((models.find? fun item => item.Fits provider model).any fun item => item.Lists family) := by
  induction models with
  | nil => rfl
  | cons item rest ih =>
      rw [modelAllowed, List.find?_cons]
      by_cases hfits : item.Fits provider model
      · rw [decide_eq_true hfits, if_neg (not_not_intro hfits.1), if_neg (not_not_intro hfits.2)]
        rfl
      · rw [decide_eq_false hfits]
        by_cases hprovider : item.provider = provider
        · rw [if_neg (not_not_intro hprovider), if_pos fun hmodel => hfits ⟨hprovider, hmodel⟩]
          exact ih
        · rw [if_pos hprovider]
          exact ih

theorem fits_of_find {item : RegistryEntry}
    (h : (models.find? fun item => item.Fits provider model) = some item) :
    item ∈ models ∧ item.Fits provider model :=
  ⟨List.mem_of_find?_eq_some h,
    of_decide_eq_true (@List.find?_some _ (fun item => decide (RegistryEntry.Fits item provider model)) _ _ h)⟩

/-- What a request is told, in the words of the registry: some fitting entry lists the family,
whatever the order of the entries. -/
structure Exact (models : List RegistryEntry) (provider model family : String) : Prop where
  answer : modelAllowed models provider model family = true ↔
    ∃ item ∈ models, item.Fits provider model ∧ item.Lists family
  orderFree : ∀ models', models.Perm models' →
    modelAllowed models' provider model family = modelAllowed models provider model family

/-- The entries that fit a request agree on the family. -/
def Agree (models : List RegistryEntry) (provider model family : String) : Prop :=
  ∀ item ∈ models, ∀ other ∈ models, item.Fits provider model → other.Fits provider model →
    (item.Lists family ↔ other.Lists family)

theorem Agree.perm {models' : List RegistryEntry} (h : Agree models provider model family)
    (hperm : models.Perm models') : Agree models' provider model family :=
  fun item hitem other hother =>
    h item (hperm.mem_iff.mpr hitem) other (hperm.mem_iff.mpr hother)

/-- Entries that agree answer like the first of them. -/
theorem Agree.answer (h : Agree models provider model family) :
    modelAllowed models provider model family = true ↔
      ∃ item ∈ models, item.Fits provider model ∧ item.Lists family := by
  rw [modelAllowed_eq, Option.any_eq_true]
  constructor
  · rintro ⟨item, hfind, hlists⟩
    obtain ⟨hitem, hfits⟩ := fits_of_find hfind
    exact ⟨item, hitem, hfits, of_decide_eq_true hlists⟩
  · rintro ⟨item, hitem, hfits, hlists⟩
    rcases hfind : models.find? fun item => item.Fits provider model with - | first
    · exact absurd (decide_eq_true hfits) (List.find?_eq_none.mp hfind item hitem)
    · obtain ⟨hfirst, hfirstFits⟩ := fits_of_find hfind
      exact ⟨first, hfind,
        decide_eq_true ((h item hitem first hfirst hfits hfirstFits).mp hlists)⟩

/-- An entry that fits, put first, answers alone. -/
theorem modelAllowed_cons {item : RegistryEntry} (h : item.Fits provider model)
    (rest : List RegistryEntry) :
    modelAllowed (item :: rest) provider model family = decide (item.Lists family) := by
  rw [modelAllowed_eq, List.find?_cons, decide_eq_true h]
  rfl

/-- **The answer is exact, in every order, if and only if the entries that fit the request agree.** -/
theorem exact_iff_agree (models : List RegistryEntry) (provider model family : String) :
    Exact models provider model family ↔ Agree models provider model family := by
  constructor
  · rintro ⟨-, horder⟩ item hitem other hother hitemFits hotherFits
    -- each of the two is asked first
    have hfirst {entry : RegistryEntry} (hentry : entry ∈ models)
        (hfits : entry.Fits provider model) :
        decide (entry.Lists family) = modelAllowed models provider model family := by
      rw [← horder _ (List.perm_cons_erase hentry), modelAllowed_cons hfits]
    exact decide_eq_decide.mp ((hfirst hitem hitemFits).trans (hfirst hother hotherFits).symm)
  · intro h
    refine ⟨h.answer, fun models' hperm => ?_⟩
    rw [Bool.eq_iff_iff, (h.perm hperm).answer, h.answer]
    exact exists_congr fun item => and_congr_left' hperm.mem_iff.symm

/-- A registry with two models of one provider, of which only the second lists the family. -/
def twoModels : List RegistryEntry :=
  [⟨"ollama", "qwen2.5-coder:7b", ["source-extraction"]⟩, ⟨"ollama", "llama3.1:8b", ["*"]⟩]

/-- The default model of the provider is refused to the family, although an entry lists it. -/
theorem default_model_refused :
    ¬ ∀ models provider model family, Exact models provider model family := by
  intro h
  have hanswer := (h twoModels "ollama" "provider_default" "jounin-review").answer.mpr
    ⟨⟨"ollama", "llama3.1:8b", ["*"]⟩, by simp [twoModels], ⟨rfl, .inr rfl⟩, .inr (by simp)⟩
  have hrefused : modelAllowed twoModels "ollama" "provider_default" "jounin-review" = false := by
    decide +kernel
  rw [hrefused] at hanswer
  cases hanswer

end Konoha.Planning
