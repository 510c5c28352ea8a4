import Mathlib.Data.List.Nodup
import LoadBridge.Json.Decode

/-!
# JSON — Decoders that read what is written

A decoder *reads* an encoding when it answers every value that the encoding writes.  Decoders of
strings, truth values and words do, and so do those of lists and optional values made of decoders
that do.  A field of an object is decoded from what is written under its name, where no two fields
have one name (`required_eq_bind`, `optional_eq_bind`); so a structure is read field by field
(`required_bind`, `optional_bind`).
-/

namespace LoadBridge.Json

variable {α : Type} {decode : Decoder α} {encode : α → Json}

/-- `decode` answers every value that `encode` writes. -/
def Reads (decode : Decoder α) (encode : α → Json) : Prop := ∀ a, decode (encode a) = some a

theorem reads_string : Reads asString .str := fun _ => rfl

theorem str_ne_null (s : String) : str s ≠ .null := by
  simp

theorem reads_bool : Reads asBool .bool := fun _ => rfl

theorem asNat_nat {n bound : Nat} (h : n < bound) : asNat bound (.nat n) = some n := by
  simp [asNat, nat, h]

theorem reads_uint8 : Reads asUInt8 fun n => .nat n.toNat := by
  intro n
  simp [asUInt8, asNat_nat n.toNat_lt]

theorem reads_uint32 : Reads asUInt32 fun n => .nat n.toNat := by
  intro n
  simp [asUInt32, asNat_nat n.toNat_lt]

theorem reads_uint64 : Reads asUInt64 fun n => .nat n.toNat := by
  intro n
  simp [asUInt64, asNat_nat n.toNat_lt]

theorem Reads.list (h : Reads decode encode) :
    Reads (asList decode) fun as => .arr (as.map encode) := by
  intro as
  rw [asList]
  induction as with
  | nil => rfl
  | cons a as ih => rw [List.map_cons, List.mapM_cons, h a, ih]; rfl

theorem reads_strs : Reads (asList asString) strs := reads_string.list

/-- An optional value is told from none where no value is written `null`. -/
theorem Reads.option (h : Reads decode encode) (hnull : ∀ a, encode a ≠ .null) :
    Reads (asOption decode) (ofOption encode) := by
  intro o
  cases o with
  | none => rfl
  | some a =>
      rw [ofOption, asOption]
      · rw [h a, Option.map_some]
      · exact hnull a

/-! ### Fields -/

namespace Fields

variable {fields : Fields} {name : String}

/-- Where no two fields have one name, a name is given what is written under it. -/
theorem given_eq_lookup (hkeys : (fields.map (·.1)).Nodup) :
    fields.given [name] = some (fields.lookup name) := by
  induction fields with
  | nil => rfl
  | cons f fields ih =>
      obtain ⟨k, j⟩ := f
      rw [List.map_cons, List.nodup_cons] at hkeys
      obtain ⟨hk, hfields⟩ := hkeys
      by_cases hname : k = name
      · subst hname
        have hothers : fields.filter (fun f => f.1 = k) = [] :=
          List.filter_eq_nil_iff.2 fun f hf heq =>
            hk (List.mem_map.2 ⟨f, hf, of_decide_eq_true heq⟩)
        simp [given, hothers]
      · have hother : (name == k) = false := beq_false_of_ne (Ne.symm hname)
        rw [List.lookup_cons, hother, ← ih hfields]
        simp [given, hname]

theorem required_eq_bind (hkeys : (fields.map (·.1)).Nodup) :
    fields.required name decode = (fields.lookup name).bind decode := by
  rw [required, given_eq_lookup hkeys]
  cases fields.lookup name <;> rfl

theorem optional_eq_bind (hkeys : (fields.map (·.1)).Nodup) (default : α) :
    fields.optional name decode default = ((fields.lookup name).map decode).getD (some default) := by
  rw [optional, either, given_eq_lookup hkeys]
  cases fields.lookup name <;> rfl

/-! A structure that is written as an object, read one field after the other -/

variable {β : Type}

theorem asFields_bind (names : List String) (surplus : Bool) (fields : Fields)
    (rest : Fields → Option β) : (asFields names surplus (.obj fields) >>= rest) = rest fields :=
  rfl

theorem required_bind (hkeys : (fields.map (·.1)).Nodup) (hreads : Reads decode encode) {a : α}
    (hfield : fields.lookup name = some (encode a)) (rest : α → Option β) :
    (fields.required name decode >>= rest) = rest a := by
  rw [required_eq_bind hkeys, hfield, Option.bind_some, hreads a]
  rfl

theorem optional_bind (hkeys : (fields.map (·.1)).Nodup) (hreads : Reads decode encode)
    {a default : α} (hfield : fields.lookup name = some (encode a)) (rest : α → Option β) :
    (fields.optional name decode default >>= rest) = rest a := by
  rw [optional_eq_bind hkeys, hfield, Option.map_some, hreads a]
  rfl

end Fields

end LoadBridge.Json
