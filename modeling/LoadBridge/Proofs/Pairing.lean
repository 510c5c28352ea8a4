import Mathlib.Data.List.Forall2

/-!
# Pairings

Two lists of one length whose entries are related one by one (`List.Forall₂`).  Every entry has its
partner, a list is split where its partner is split, and what holds of any two entries in order
holds of their partners.
-/

namespace LoadBridge

variable {α β : Type} {R : α → β → Prop}

theorem exists_partner {as : List α} {bs : List β} (h : List.Forall₂ R as bs) {a : α}
    (ha : a ∈ as) : ∃ b ∈ bs, R a b := by
  induction h with
  | nil => cases ha
  | cons hab _ ih =>
      rcases List.mem_cons.1 ha with rfl | ha
      · exact ⟨_, List.mem_cons_self, hab⟩
      · obtain ⟨b, hb, hR⟩ := ih ha
        exact ⟨b, List.mem_cons_of_mem _ hb, hR⟩

theorem exists_partner_left {as : List α} {bs : List β} (h : List.Forall₂ R as bs) {b : β}
    (hb : b ∈ bs) : ∃ a ∈ as, R a b :=
  exists_partner h.flip hb

/-- A list is split where its partner is split. -/
theorem exists_split {as : List α} {before after : List β} {b : β}
    (h : List.Forall₂ R as (before ++ b :: after)) :
    ∃ first a last, as = first ++ a :: last ∧ List.Forall₂ R first before ∧ R a b ∧
      List.Forall₂ R last after := by
  induction before generalizing as with
  | nil =>
      cases h with
      | cons hab hlast => exact ⟨[], _, _, rfl, .nil, hab, hlast⟩
  | cons _ _ ih =>
      cases h with
      | cons hab hrest =>
          obtain ⟨first, a, last, rfl, hfirst, haR, hlast⟩ := ih hrest
          exact ⟨_ :: first, a, last, rfl, .cons hab hfirst, haR, hlast⟩

/-- What every partner has in common is the same on both sides. -/
theorem map_eq_map_of_pairing {γ : Type} {f : α → γ} {g : β → γ} {as : List α} {bs : List β}
    (h : List.Forall₂ R as bs) (hR : ∀ a b, R a b → g b = f a) : bs.map g = as.map f := by
  induction h with
  | nil => rfl
  | cons hab _ ih => rw [List.map_cons, List.map_cons, hR _ _ hab, ih]

theorem filterMap_eq_filterMap_of_pairing {γ : Type} {f : α → Option γ} {g : β → Option γ}
    {as : List α} {bs : List β} (h : List.Forall₂ R as bs) (hR : ∀ a b, R a b → g b = f a) :
    bs.filterMap g = as.filterMap f := by
  induction h with
  | nil => rfl
  | cons hab _ ih => rw [List.filterMap_cons, List.filterMap_cons, hR _ _ hab, ih]

/-- Where every entry has an image, it is the partner of its image. -/
theorem pairing_filterMap {f : α → Option β} {as : List α} (h : ∀ a ∈ as, (f a).isSome = true) :
    List.Forall₂ (fun a b => f a = some b) as (as.filterMap f) := by
  induction as with
  | nil => exact .nil
  | cons a rest ih =>
      obtain ⟨b, hb⟩ := Option.isSome_iff_exists.1 (h a List.mem_cons_self)
      rw [List.filterMap_cons_some hb]
      exact .cons hb (ih fun x hx => h x (List.mem_cons_of_mem a hx))

/-- Partners that are empty can be left out with theirs, and nothing is lost. -/
theorem pairing_filter_flatten {R : α → List β → Prop} {p : α → Bool} {as : List α}
    {blocks : List (List β)} (h : List.Forall₂ R as blocks)
    (hR : ∀ a block, R a block → p a = false → block = []) :
    ∃ groups, groups.flatten = blocks.flatten ∧ List.Forall₂ R (as.filter p) groups := by
  induction h with
  | nil => exact ⟨[], rfl, .nil⟩
  | @cons a block _ _ hab _ ih =>
      obtain ⟨groups, hflatten, hgroups⟩ := ih
      by_cases ha : p a = true
      · refine ⟨block :: groups, by rw [List.flatten_cons, List.flatten_cons, hflatten], ?_⟩
        rw [List.filter_cons_of_pos ha]
        exact .cons hab hgroups
      · refine ⟨groups, ?_, by rwa [List.filter_cons_of_neg ha]⟩
        rw [List.flatten_cons, hR a block hab (by simpa using ha), List.nil_append, hflatten]

/-- What holds of any two entries in order holds of their partners. -/
theorem pairwise_of_pairing {S : α → α → Prop} {T : β → β → Prop} {as : List α} {bs : List β}
    (h : List.Forall₂ R as bs) (hS : as.Pairwise S)
    (hT : ∀ a a' b b', R a b → R a' b' → S a a' → T b b') : bs.Pairwise T := by
  induction h with
  | nil => exact .nil
  | cons hab hrest ih =>
      obtain ⟨hfirst, hothers⟩ := List.pairwise_cons.1 hS
      refine List.pairwise_cons.2 ⟨fun b' hb' => ?_, ih hothers⟩
      obtain ⟨a', ha', hR⟩ := exists_partner_left hrest hb'
      exact hT _ _ _ _ hab hR (hfirst a' ha')

/-- Two partners of one list are paired with each other. -/
theorem pairing_of_common {γ : Type} {S : α → γ → Prop} {T : β → γ → Prop} {as : List α}
    {bs : List β} {cs : List γ} (hR : List.Forall₂ R as bs) (hS : List.Forall₂ S as cs)
    (h : ∀ a b c, R a b → S a c → T b c) : List.Forall₂ T bs cs := by
  induction hR generalizing cs with
  | nil =>
      cases hS
      exact .nil
  | cons hab _ ih =>
      cases hS with
      | cons hac hrest => exact .cons (h _ _ _ hab hac) (ih hrest)

end LoadBridge
