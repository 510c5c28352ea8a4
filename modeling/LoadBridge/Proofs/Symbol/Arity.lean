import Mathlib.Data.List.DropRight
import LoadBridge.Symbol.Arity

/-!
# Symbols — The arities of a callable

Arguments end in `k` that have defaults, and no more, when `k` is the number of trailing defaults
(`endsInDefaults_iff`).  An arity is a beginning of the arguments, and what it leaves out has
defaults (`exists_dropped_of_mem_arities`).

Where a shorter arity is chosen with every longer one, the arities that are chosen are the last ones
(`expands_filter`).
-/

namespace LoadBridge

variable {args : List Argument} {k : Nat}

/-! ### Trailing defaults -/

/-- The last `k` arguments have defaults, and the one before them, if there is one, has none. -/
def EndsInDefaults (args : List Argument) (k : Nat) : Prop :=
  ∃ required defaulted, args = required ++ defaulted ∧ defaulted.length = k ∧
    (∀ a ∈ defaulted, a.hasDefault = true) ∧ ∀ a ∈ required.getLast?, a.hasDefault = false

theorem trailingDefaults_eq (args : List Argument) :
    trailingDefaults args = (args.rtakeWhile (·.hasDefault)).length := by
  rw [trailingDefaults, List.rtakeWhile, List.length_reverse]

theorem endsInDefaults_trailingDefaults (args : List Argument) :
    EndsInDefaults args (trailingDefaults args) := by
  refine ⟨args.rdropWhile (·.hasDefault), args.rtakeWhile (·.hasDefault),
    List.rdropWhile_append_rtakeWhile.symm, (trailingDefaults_eq args).symm,
    fun _ ha => List.mem_rtakeWhile_imp ha, fun a ha => ?_⟩
  obtain ⟨hne, rfl⟩ := List.mem_getLast?_eq_getLast ha
  simpa using List.rdropWhile_last_not _ _ hne

/-- **The trailing defaults are counted to the last argument without one.** -/
theorem endsInDefaults_iff : EndsInDefaults args k ↔ trailingDefaults args = k := by
  refine ⟨?_, fun h => h ▸ endsInDefaults_trailingDefaults args⟩
  rintro ⟨required, defaulted, rfl, rfl, hall, hlast⟩
  have hnone : required.reverse.takeWhile (·.hasDefault) = [] := by
    rw [← List.head?_reverse] at hlast
    cases hr : required.reverse with
    | nil => rfl
    | cons a rest => simp [hlast a (by simp [hr])]
  rw [trailingDefaults, List.reverse_append,
    List.takeWhile_append_of_pos fun a ha => hall a (List.mem_reverse.1 ha), hnone]
  simp

/-! ### Arities -/

/-- **An arity leaves out arguments at the end, all of which have defaults.** -/
theorem exists_dropped_of_mem_arities {x : Arity} (hx : x ∈ arities args) :
    ∃ dropped, args = x.args ++ dropped ∧ dropped.length = x.removed ∧
      ∀ a ∈ dropped, a.hasDefault = true := by
  obtain ⟨removed, hremoved, rfl⟩ := List.mem_map.1 hx
  obtain ⟨required, defaulted, hargs, hlength, hall, -⟩ := endsInDefaults_trailingDefaults args
  have hle := trailingDefaults_le args
  have hremoved := List.mem_range.1 hremoved
  have hdrop : args.drop (args.length - removed) = defaulted.drop (defaulted.length - removed) := by
    rw [hargs, List.drop_append, List.length_append, List.drop_eq_nil_of_le (by omega),
      List.nil_append]
    congr 1
    omega
  refine ⟨args.drop (args.length - removed), (List.take_append_drop ..).symm, ?_, ?_⟩
  · show (args.drop (args.length - removed)).length = removed
    rw [List.length_drop]
    omega
  · intro a ha
    rw [hdrop] at ha
    exact hall a (List.mem_of_mem_drop ha)

theorem length_add_removed_of_mem_arities {x : Arity} (hx : x ∈ arities args) :
    x.args.length + x.removed = args.length := by
  obtain ⟨dropped, hargs, hlength, -⟩ := exists_dropped_of_mem_arities hx
  rw [hargs, List.length_append, hlength]

/-- An arity that leaves out more is a beginning of one that leaves out less. -/
theorem isPrefix_of_removed_le {x y : Arity} (hx : x ∈ arities args) (hy : y ∈ arities args)
    (hle : x.removed ≤ y.removed) : y.args <+: x.args := by
  have hxlength := length_add_removed_of_mem_arities hx
  have hylength := length_add_removed_of_mem_arities hy
  obtain ⟨xdropped, hxargs, -⟩ := exists_dropped_of_mem_arities hx
  obtain ⟨ydropped, hyargs, -⟩ := exists_dropped_of_mem_arities hy
  have hybegins : y.args <+: args := ⟨ydropped, hyargs.symm⟩
  exact List.prefix_of_prefix_length_le hybegins ⟨xdropped, hxargs.symm⟩ (by omega)

theorem map_removed_arities (args : List Argument) :
    (arities args).map Arity.removed = List.range' 0 (trailingDefaults args + 1) := by
  rw [arities, List.map_map, ← List.range_eq_range']
  exact List.map_id _

/-- Later arities leave out more. -/
theorem pairwise_removed_arities (args : List Argument) :
    (arities args).Pairwise fun x y => x.removed < y.removed := by
  rw [arities, List.pairwise_map]
  exact List.pairwise_lt_range

/-- The arities of a callable get shorter. -/
theorem pairwise_length_arities (args : List Argument) :
    (arities args).Pairwise fun x y => y.args.length < x.args.length := by
  refine (pairwise_removed_arities args).imp_of_mem fun {x y} hx hy hlt => ?_
  have hxlength := length_add_removed_of_mem_arities hx
  have hylength := length_add_removed_of_mem_arities hy
  omega

/-! ### The arities that are chosen -/

/-- The chosen entries are the last ones, when an entry is chosen with any before it. -/
theorem exists_filter_eq_drop {α : Type} {p : α → Bool} {xs : List α}
    (h : xs.Pairwise fun x y => p x = true → p y = true) :
    ∃ j ≤ xs.length, xs.filter p = xs.drop j := by
  induction xs with
  | nil => exact ⟨0, le_rfl, rfl⟩
  | cons x rest ih =>
      obtain ⟨hfirst, hrest⟩ := List.pairwise_cons.1 h
      by_cases hx : p x = true
      · refine ⟨0, Nat.zero_le _, List.filter_eq_self.2 fun y hy => ?_⟩
        rcases List.mem_cons.1 hy with rfl | hy
        · exact hx
        · exact hfirst y hy hx
      · obtain ⟨j, hj, hfilter⟩ := ih hrest
        exact ⟨j + 1, Nat.succ_le_succ hj, by rw [List.filter_cons_of_neg hx, hfilter]; rfl⟩

/-- `calls` are the arities of `args`, of which the last `k` have defaults, from one on to the
last. -/
structure Expands (args : List Argument) (k : Nat) (calls : List Arity) : Prop where
  /-- From the first on, each leaves out one argument more, up to all that have defaults. -/
  removed : ∃ j ≤ k + 1, calls.map Arity.removed = List.range' j (k + 1 - j)
  /-- What an arity leaves out of the arguments has defaults. -/
  dropped : ∀ x ∈ calls, ∃ dropped, args = x.args ++ dropped ∧ dropped.length = x.removed ∧
    ∀ a ∈ dropped, a.hasDefault = true
  decreasing : (calls.map fun x => x.args.length).Pairwise (· > ·)
  last : ∀ x ∈ calls.getLast?, x.args.length = args.length - k

theorem expands_drop_arities (hk : EndsInDefaults args k) {j : Nat} (hj : j ≤ k + 1) :
    Expands args k ((arities args).drop j) := by
  obtain rfl := endsInDefaults_iff.1 hk
  have hremoved : ((arities args).drop j).map Arity.removed =
      List.range' j (trailingDefaults args + 1 - j) := by
    rw [List.map_drop, map_removed_arities, List.drop_range', Nat.mul_one, Nat.zero_add]
  constructor
  case removed => exact ⟨j, hj, hremoved⟩
  case dropped => exact fun x hx => exists_dropped_of_mem_arities (List.mem_of_mem_drop hx)
  case decreasing =>
    rw [List.pairwise_map]
    exact (pairwise_length_arities args).sublist (List.drop_sublist ..)
  case last =>
    intro x hx
    have hlength := length_add_removed_of_mem_arities
      (List.mem_of_mem_drop (List.mem_of_getLast? hx))
    have hlast := congrArg List.getLast? hremoved
    rw [List.getLast?_map, hx, Option.map_some, List.getLast?_range'] at hlast
    split at hlast
    · cases hlast
    · have := Option.some.inj hlast
      omega

/-- **Where a shorter arity is chosen with every longer one, the chosen arities are the last.** -/
theorem expands_filter {p : Arity → Bool} (hk : EndsInDefaults args k)
    (hp : ∀ x ∈ arities args, ∀ y ∈ arities args, x.removed ≤ y.removed → p x = true →
      p y = true) : Expands args k ((arities args).filter p) := by
  have hpairwise : (arities args).Pairwise fun x y => p x = true → p y = true :=
    (pairwise_removed_arities args).imp_of_mem fun hx hy hlt => hp _ hx _ hy hlt.le
  obtain ⟨j, hj, hfilter⟩ := exists_filter_eq_drop hpairwise
  rw [length_arities, endsInDefaults_iff.1 hk] at hj
  exact hfilter ▸ expands_drop_arities hk hj

end LoadBridge
