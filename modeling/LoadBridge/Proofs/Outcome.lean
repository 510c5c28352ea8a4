import Mathlib.Data.List.Forall2

/-!
# Outcomes

A computation that may fail answers an `Except`.  It succeeds when each of its parts does
(`Succeeds`), and fails with the error of the first part that fails; what every step of a fold
keeps, the fold keeps; and two computations agree when both fail with one error or answer related
results (`Agree`).
-/

namespace LoadBridge

variable {ε α β σ : Type}

theorem bind_eq_ok {x : Except ε α} {f : α → Except ε β} {b : β} :
    x >>= f = .ok b ↔ ∃ a, x = .ok a ∧ f a = .ok b := by
  cases x with
  | error e => exact ⟨fun h => (nomatch h), fun ⟨_, h, _⟩ => (nomatch h)⟩
  | ok a => exact ⟨fun h => ⟨a, rfl, h⟩, fun ⟨_, ha, h⟩ => Except.ok.inj ha ▸ h⟩

theorem bind_eq_error {x : Except ε α} {f : α → Except ε β} {e : ε} :
    x >>= f = .error e ↔ x = .error e ∨ ∃ a, x = .ok a ∧ f a = .error e := by
  cases x with
  | error e' =>
      refine ⟨fun h => .inl (congrArg _ (Except.error.inj h)), fun h => ?_⟩
      rcases h with h | ⟨_, h, _⟩
      · exact congrArg _ (Except.error.inj h)
      · cases h
  | ok a =>
      refine ⟨fun h => .inr ⟨a, rfl, h⟩, fun h => ?_⟩
      rcases h with h | ⟨_, ha, h⟩
      · cases h
      · exact Except.ok.inj ha ▸ h

/-- A continuation that does not fail adds no error. -/
theorem bind_eq_error_of_ok {x : Except ε α} {f : α → Except ε β} (hf : ∀ a, ∃ b, f a = .ok b)
    {e : ε} : x >>= f = .error e ↔ x = .error e := by
  rw [bind_eq_error]
  refine or_iff_left ?_
  rintro ⟨a, -, he⟩
  obtain ⟨b, hb⟩ := hf a
  cases hb.symm.trans he

theorem map_eq_ok {x : Except ε α} {f : α → β} {b : β} :
    x.map f = .ok b ↔ ∃ a, x = .ok a ∧ f a = b := by
  cases x with
  | error e => exact ⟨fun h => (nomatch h), fun ⟨_, h, _⟩ => (nomatch h)⟩
  | ok a => exact ⟨fun h => ⟨a, rfl, Except.ok.inj h⟩, fun ⟨_, ha, h⟩ => Except.ok.inj ha ▸ h ▸ rfl⟩

/-- An answer as an option, whose equality can be decided. -/
theorem toOption_eq_some {x : Except ε α} {a : α} : x.toOption = some a ↔ x = .ok a := by
  cases x with
  | error e => exact ⟨fun h => (nomatch h), fun h => (nomatch h)⟩
  | ok b => exact ⟨fun h => congrArg _ (Option.some.inj h), fun h => congrArg _ (Except.ok.inj h)⟩

theorem map_eq_error {x : Except ε α} {f : α → β} {e : ε} :
    x.map f = .error e ↔ x = .error e := by
  cases x with
  | error e' => exact ⟨fun h => congrArg _ (Except.error.inj h), fun h => h ▸ rfl⟩
  | ok a => exact ⟨fun h => (nomatch h), fun h => (nomatch h)⟩

/-- The results of a traversal are those of its entries, one by one. -/
theorem mapM_eq_ok_iff {f : α → Except ε β} {as : List α} {bs : List β} :
    as.mapM f = .ok bs ↔ List.Forall₂ (fun a b => f a = .ok b) as bs := by
  induction as generalizing bs with
  | nil =>
      rw [List.mapM_nil, List.forall₂_nil_left_iff]
      exact ⟨fun h => (Except.ok.inj h).symm, fun h => h ▸ rfl⟩
  | cons a rest ih =>
      rw [List.mapM_cons, bind_eq_ok, List.forall₂_cons_left_iff]
      constructor
      · rintro ⟨b, hb, h⟩
        obtain ⟨others, hothers, h⟩ := bind_eq_ok.1 h
        exact ⟨b, others, hb, ih.1 hothers, (Except.ok.inj h).symm⟩
      · rintro ⟨b, others, hb, hothers, rfl⟩
        exact ⟨b, hb, bind_eq_ok.2 ⟨others, ih.2 hothers, rfl⟩⟩

/-- A property of the state that every step keeps holds after a fold that succeeds. -/
theorem foldlM_keeps {step : σ → α → Except ε σ} {P : σ → Prop}
    (hstep : ∀ s a s', P s → step s a = .ok s' → P s') :
    ∀ (as : List α) (s s' : σ), P s → as.foldlM step s = .ok s' → P s'
  | [], s, s', hs, h => Except.ok.inj h ▸ hs
  | a :: rest, s, s', hs, h => by
      rw [List.foldlM_cons] at h
      obtain ⟨s₁, h₁, hrest⟩ := bind_eq_ok.1 h
      exact foldlM_keeps hstep rest s₁ s' (hstep s a s₁ hs h₁) hrest

/-- It is enough that every step for an entry of the list keeps the property. -/
theorem foldlM_keeps_of_mem {step : σ → α → Except ε σ} {P : σ → Prop} :
    ∀ (as : List α) (s s' : σ), (∀ a ∈ as, ∀ s s', P s → step s a = .ok s' → P s') → P s →
      as.foldlM step s = .ok s' → P s'
  | [], s, s', _, hs, h => Except.ok.inj h ▸ hs
  | a :: rest, s, s', hstep, hs, h => by
      rw [List.foldlM_cons] at h
      obtain ⟨s₁, h₁, hrest⟩ := bind_eq_ok.1 h
      have hs₁ := hstep a List.mem_cons_self s s₁ hs h₁
      exact foldlM_keeps_of_mem rest s₁ s'
        (fun b hb => hstep b (List.mem_cons_of_mem _ hb)) hs₁ hrest

/-- A relation between states that composes along the entries of a list is one of the fold. -/
theorem foldlM_composes {step : σ → α → Except ε σ} {R : List α → σ → σ → Prop}
    (hnil : ∀ s, R [] s s)
    (hcons : ∀ a rest s s₁ s', step s a = .ok s₁ → R rest s₁ s' → R (a :: rest) s s') :
    ∀ (as : List α) (s s' : σ), as.foldlM step s = .ok s' → R as s s'
  | [], s, s', h => Except.ok.inj h ▸ hnil s
  | a :: rest, s, s', h => by
      rw [List.foldlM_cons] at h
      obtain ⟨s₁, h₁, hrest⟩ := bind_eq_ok.1 h
      exact hcons a rest s s₁ s' h₁ (foldlM_composes hnil hcons rest s₁ s' hrest)

/-! ### Success -/

/-- The computation does not fail. -/
def Succeeds (x : Except ε α) : Prop := ∃ a, x = .ok a

theorem succeeds_ok (a : α) : Succeeds (.ok a : Except ε α) := ⟨a, rfl⟩

instance (x : Except ε α) : Decidable (Succeeds x) :=
  match x with
  | .ok a => .isTrue (succeeds_ok a)
  | .error _ => .isFalse fun ⟨_, h⟩ => nomatch h

theorem Succeeds.bind {x : Except ε α} {f : α → Except ε β} (hx : Succeeds x)
    (hf : ∀ a, x = .ok a → Succeeds (f a)) : Succeeds (x >>= f) := by
  obtain ⟨a, ha⟩ := hx
  obtain ⟨b, hb⟩ := hf a ha
  exact ⟨b, bind_eq_ok.2 ⟨a, ha, hb⟩⟩

theorem succeeds_bind_iff {x : Except ε α} {f : α → Except ε β} (hf : ∀ a, Succeeds (f a)) :
    Succeeds (x >>= f) ↔ Succeeds x := by
  refine ⟨?_, fun hx => hx.bind fun a _ => hf a⟩
  rintro ⟨_, h⟩
  obtain ⟨a, ha, -⟩ := bind_eq_ok.1 h
  exact ⟨a, ha⟩

theorem Succeeds.map {x : Except ε α} (hx : Succeeds x) (f : α → β) : Succeeds (x.map f) := by
  obtain ⟨a, ha⟩ := hx
  exact ⟨f a, map_eq_ok.2 ⟨a, ha, rfl⟩⟩

theorem succeeds_mapM {f : α → Except ε β} :
    ∀ {as : List α}, (∀ a ∈ as, Succeeds (f a)) → Succeeds (as.mapM f)
  | [], _ => succeeds_ok []
  | a :: rest, h => by
      rw [List.mapM_cons]
      refine (h a List.mem_cons_self).bind fun b _ => ?_
      have hrest := succeeds_mapM fun x hx => h x (List.mem_cons_of_mem a hx)
      exact hrest.bind fun bs _ => succeeds_ok (b :: bs)

theorem succeeds_foldlM {step : σ → α → Except ε σ} :
    ∀ {as : List α}, (∀ a ∈ as, ∀ s, Succeeds (step s a)) → ∀ s, Succeeds (as.foldlM step s)
  | [], _, s => succeeds_ok s
  | a :: rest, h, s => by
      rw [List.foldlM_cons]
      refine (h a List.mem_cons_self s).bind fun s' _ => ?_
      exact succeeds_foldlM (fun x hx => h x (List.mem_cons_of_mem a hx)) s'

/-- A fold succeeds when each of its steps does, where that does not depend on the state. -/
theorem succeeds_foldlM_iff {step : σ → α → Except ε σ} {P : α → Prop}
    (hstep : ∀ s a, Succeeds (step s a) ↔ P a) :
    ∀ {as : List α} {s : σ}, Succeeds (as.foldlM step s) ↔ ∀ a ∈ as, P a
  | [], s => ⟨fun _ _ h => (nomatch h), fun _ => succeeds_ok s⟩
  | a :: rest, s => by
      rw [List.foldlM_cons, List.forall_mem_cons]
      constructor
      · rintro ⟨_, h⟩
        obtain ⟨next, hnext, h⟩ := bind_eq_ok.1 h
        exact ⟨(hstep s a).1 ⟨next, hnext⟩, (succeeds_foldlM_iff hstep).1 ⟨_, h⟩⟩
      · rintro ⟨ha, hrest⟩
        exact ((hstep s a).2 ha).bind fun _ _ => (succeeds_foldlM_iff hstep).2 hrest

/-! ### Agreement -/

/-- Both computations fail with one error, or they answer what `R` relates. -/
inductive Agree (R : α → β → Prop) : Except ε α → Except ε β → Prop where
  | error (e : ε) : Agree R (.error e) (.error e)
  | ok {a : α} {b : β} (h : R a b) : Agree R (.ok a) (.ok b)

/-- What goes on from one computation agrees if it does after every answer. -/
theorem Agree.bind {γ δ : Type} {R : γ → δ → Prop} (x : Except ε α) {f : α → Except ε γ}
    {g : α → Except ε δ} (h : ∀ a, Agree R (f a) (g a)) : Agree R (x >>= f) (x >>= g) := by
  cases x with
  | error e => exact .error e
  | ok a => exact h a

end LoadBridge
