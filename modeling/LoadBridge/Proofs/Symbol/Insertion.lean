import LoadBridge.Proofs.Repetition
import LoadBridge.Proofs.Symbol.Table

/-!
# Symbols — Insertion

A table that is made of records at once has just these records (`ofRecords_eq_ok_iff`), or there is
a first one whose identifier comes up again (`ofRecords_eq_error_iff`).  Where records are offered
one after the other, one whose identifier is taken is refused and changes nothing: the table holds
the first record of each identifier, in the order in which they came (`records_offerAll`), and
answers every question from these alone (`answers_accepted`).
-/

namespace LoadBridge

namespace SymbolTable

variable {t u : SymbolTable} {r : Record} {rest records calls : List Record} {e : DuplicateRecord}
  {q : String}

/-! ### One record -/

theorem eq_of_records_eq (h : t.records = u.records) : t = u := by
  obtain ⟨records, distinct⟩ := t
  cases h
  rfl

/-- The identifier of a record is that of one in the table. -/
def Holds (t : SymbolTable) (r : Record) : Prop := r.id ∈ t.records.map Record.id

instance (t : SymbolTable) (r : Record) : Decidable (t.Holds r) :=
  inferInstanceAs (Decidable (r.id ∈ t.records.map Record.id))

theorem insert_of_holds (h : t.Holds r) : t.insert r = .error ⟨r.id⟩ := dif_pos h

theorem exists_insert (h : ¬t.Holds r) : ∃ u, t.insert r = .ok u ∧ u.records = t.records ++ [r] :=
  ⟨_, dif_neg h, rfl⟩

/-! ### Records at once -/

/-- Records are added behind those that are there. -/
theorem foldlM_insert_eq_ok_iff :
    rest.foldlM insert t = .ok u ↔ u.records = t.records ++ rest := by
  induction rest generalizing t with
  | nil =>
    rw [List.append_nil]
    exact ⟨fun h => Except.ok.inj h ▸ rfl, fun h => congrArg _ (eq_of_records_eq h.symm)⟩
  | cons r rest ih =>
    rw [List.foldlM_cons]
    by_cases hr : t.Holds r
    · rw [insert_of_holds hr]
      refine ⟨fun h => (nomatch h), fun h => ?_⟩
      have hdistinct := u.distinct
      rw [h, List.map_append, List.map_cons] at hdistinct
      exact (List.disjoint_of_nodup_append hdistinct hr List.mem_cons_self).elim
    · obtain ⟨v, hv, hrecords⟩ := exists_insert hr
      rw [hv, List.append_cons, ← hrecords]
      exact ih

/-- **Records make a table of just these records**, where they make one. -/
theorem ofRecords_eq_ok_iff : ofRecords records = .ok t ↔ t.records = records :=
  foldlM_insert_eq_ok_iff

/-- Records with identifiers of their own make a table. -/
theorem exists_ofRecords (h : (records.map Record.id).Nodup) :
    ∃ t, ofRecords records = .ok t ∧ t.records = records :=
  ⟨⟨records, h⟩, ofRecords_eq_ok_iff.2 rfl, rfl⟩

/-- No identifier comes up twice among the records before `r`, and that of `r` comes up again. -/
structure Repeats (before : List Record) (r : Record) : Prop where
  distinct : (before.map Record.id).Nodup
  again : r.id ∈ before.map Record.id

theorem foldlM_insert_eq_error_iff : rest.foldlM insert t = .error e ↔
    ∃ before r after, rest = before ++ r :: after ∧ Repeats (t.records ++ before) r ∧
      e = ⟨r.id⟩ := by
  induction rest generalizing t with
  | nil =>
    refine ⟨fun h => (nomatch h), ?_⟩
    rintro ⟨before, r, after, h, -⟩
    exact absurd h.symm (by simp)
  | cons x rest ih =>
    rw [List.foldlM_cons]
    by_cases hx : t.Holds x
    · rw [insert_of_holds hx]
      constructor
      · intro h
        refine ⟨[], x, rest, rfl, ?_, (Except.error.inj h).symm⟩
        rw [List.append_nil]
        exact ⟨t.distinct, hx⟩
      · rintro ⟨before, r, after, hsplit, hrepeats, rfl⟩
        cases before with
        | nil => cases hsplit; rfl
        | cons y before =>
          cases hsplit
          have hdistinct := hrepeats.distinct
          rw [List.map_append, List.map_cons] at hdistinct
          exact (List.disjoint_of_nodup_append hdistinct hx List.mem_cons_self).elim
    · obtain ⟨v, hv, hrecords⟩ := exists_insert hx
      rw [hv]
      refine ih.trans ⟨?_, ?_⟩
      · rintro ⟨before, r, after, rfl, hrepeats, rfl⟩
        rw [hrecords, ← List.append_cons] at hrepeats
        exact ⟨x :: before, r, after, rfl, hrepeats, rfl⟩
      · rintro ⟨before, r, after, hsplit, hrepeats, rfl⟩
        cases before with
        | nil =>
          cases hsplit
          rw [List.append_nil] at hrepeats
          exact absurd hrepeats.again hx
        | cons y before =>
          cases hsplit
          rw [List.append_cons, ← hrecords] at hrepeats
          exact ⟨before, r, after, rfl, hrepeats, rfl⟩

/-- **Records make no table where an identifier comes up again**, and the first that does is
reported. -/
theorem ofRecords_eq_error_iff : ofRecords records = .error e ↔
    ∃ before r after, records = before ++ r :: after ∧ Repeats before r ∧ e = ⟨r.id⟩ :=
  foldlM_insert_eq_error_iff

/-! ### Records one after the other -/

/-- Adds a record, or leaves the table as it is where the record is refused. -/
def offer (t : SymbolTable) (r : Record) : SymbolTable :=
  match t.insert r with
  | .ok u => u
  | .error _ => t

/-- Offers records one after the other. -/
def offerAll (t : SymbolTable) (calls : List Record) : SymbolTable := calls.foldl offer t

/-- The records that are accepted of those that are offered: the first of each identifier. -/
def accepted (calls : List Record) : List Record := calls.eraseDupsBy fun a b => a.id == b.id

theorem offer_of_holds (h : t.Holds r) : t.offer r = t := by
  rw [offer, insert_of_holds h]

theorem insert_of_not_holds (h : ¬t.Holds r) : t.insert r = .ok (t.offer r) := by
  obtain ⟨u, hu, -⟩ := exists_insert h
  rw [offer, hu]

theorem records_offer (h : ¬t.Holds r) : (t.offer r).records = t.records ++ [r] := by
  obtain ⟨u, hu, hrecords⟩ := exists_insert h
  rw [offer, hu, hrecords]

theorem offerAll_concat : t.offerAll (calls ++ [r]) = (t.offerAll calls).offer r :=
  List.foldl_concat ..

theorem holds_offer (hr : ¬t.Holds r) (s : Record) :
    (t.offer r).Holds s ↔ t.Holds s ∨ s.id = r.id := by
  rw [Holds, records_offer hr, List.map_append, List.mem_append]
  exact or_congr Iff.rfl List.mem_singleton

/-- **What is accepted is what the table holds**, in the order of the calls. -/
theorem records_offerAll (calls : List Record) :
    (empty.offerAll calls).records = accepted calls := by
  have hall : (calls.filter fun r => !decide (empty.Holds r)) = calls :=
    List.filter_eq_self.2 fun _ _ => rfl
  have hkept := kept_foldl (r := fun a b => a.id == b.id) (fun t r => decide (t.Holds r))
    (fun _ r => r) (fun t r h => offer_of_holds (of_decide_eq_true h))
    (fun t r h => records_offer (of_decide_eq_false h)) ?_ (fun _ _ => rfl) empty calls
  · rwa [hall, List.map_id'] at hkept
  · intro t r h s
    rw [Bool.eq_iff_iff, Bool.or_eq_true, decide_eq_true_iff, decide_eq_true_iff, beq_iff_eq]
    exact holds_offer (of_decide_eq_false h) s

theorem holds_offerAll : (empty.offerAll calls).Holds r ↔ ∃ s ∈ accepted calls, s.id = r.id := by
  rw [Holds, records_offerAll, List.mem_map]

/-- Where no identifier comes up again all records are accepted. -/
theorem accepted_eq_self_iff : accepted calls = calls ↔ (calls.map Record.id).Nodup := by
  constructor
  · intro h
    rw [← h, ← records_offerAll]
    exact (empty.offerAll calls).distinct
  · intro h
    refine eraseDupsBy_eq_self ((List.pairwise_map.1 h).imp fun {a b} hne => ?_)
    exact beq_false_of_ne (Ne.symm hne)

/-- **A table answers from what it accepted.**  A record is refused exactly if one with its
identifier was accepted before, and then nothing changes; otherwise it is accepted and comes last.
The table holds what was accepted in the order of insertion.  An identifier finds the accepted
record that has it, and a name the first accepted record that goes by it.  Made at once, the table
is the same, unless an identifier comes up again: then the first that does is reported. -/
theorem answers_accepted (calls : List Record) :
    (∀ r, (empty.offerAll calls).insert r = .error ⟨r.id⟩ ∧
        empty.offerAll (calls ++ [r]) = empty.offerAll calls ↔
      ∃ s ∈ accepted calls, s.id = r.id) ∧
    (∀ r, (empty.offerAll calls).insert r = .ok (empty.offerAll (calls ++ [r])) ∧
        accepted (calls ++ [r]) = accepted calls ++ [r] ↔
      ∀ s ∈ accepted calls, s.id ≠ r.id) ∧
    (empty.offerAll calls).records = accepted calls ∧
    (∀ id r, (empty.offerAll calls).lookup id = some r ↔ r ∈ accepted calls ∧ r.id = id) ∧
    (∀ q r, (empty.offerAll calls).lookupName q = some r ↔
      r.IsFirstNamed q (accepted calls)) ∧
    (∀ q, (empty.offerAll calls).lookupName q = none ↔ ∀ r ∈ accepted calls, ¬r.GoesBy q) ∧
    (∀ r : Record, (∃ q, r.GoesBy q) ↔ r.kind ≠ .member) ∧
    (∀ t, ofRecords calls = .ok t ↔ accepted calls = calls ∧ t = empty.offerAll calls) ∧
    ∀ e, ofRecords calls = .error e ↔
      ∃ before r after, calls = before ++ r :: after ∧ Repeats before r ∧ e = ⟨r.id⟩ := by
  refine ⟨fun r => ?_, fun r => ?_, records_offerAll calls, fun id r => ?_, fun q r => ?_,
    fun q => ?_, fun r => Record.exists_goesBy_iff, fun t => ?_, fun e => ofRecords_eq_error_iff⟩
  · rw [← holds_offerAll, offerAll_concat]
    refine ⟨fun h => ?_, fun h => ⟨insert_of_holds h, offer_of_holds h⟩⟩
    by_contra hr
    rw [insert_of_not_holds hr] at h
    cases h.1
  · have hfree : (∀ s ∈ accepted calls, s.id ≠ r.id) ↔ ¬(empty.offerAll calls).Holds r := by
      rw [holds_offerAll]
      simp
    rw [hfree, ← records_offerAll, ← records_offerAll, offerAll_concat]
    refine ⟨fun h hr => ?_, fun h => ⟨insert_of_not_holds h, records_offer h⟩⟩
    rw [insert_of_holds hr] at h
    cases h.1
  · rw [lookup_eq_some_iff, records_offerAll]
  · rw [lookupName_eq_some_iff, records_offerAll]
  · rw [lookupName_eq_none_iff, records_offerAll]
  · rw [ofRecords_eq_ok_iff, ← records_offerAll]
    constructor
    · intro h
      have hsame : (empty.offerAll calls).records = calls := by
        rw [records_offerAll, accepted_eq_self_iff, ← h]
        exact t.distinct
      exact ⟨hsame, eq_of_records_eq (h.trans hsame.symm)⟩
    · rintro ⟨h, rfl⟩
      exact h

end SymbolTable

end LoadBridge
