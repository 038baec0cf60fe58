import KeyedRows.Proofs.Column.KeyOrder
import KeyedRows.Proofs.Row.Written
import KeyedRows.Proofs.Schema.Checked

namespace KeyedRows

namespace Record

variable {columns : Schema} {a b : Record}

/-- A row that fills columns fills all but the first of them. -/
theorem Fills.tail {column : Column} (h : a.Fills (column :: columns)) : a.Fills columns :=
  fun other hmem => h other (List.mem_cons_of_mem _ hmem)

/-- The bytes of key columns decide as the rows do, and then what stands behind
them. Both rows must fill the columns, and none of these may be a list. The
induction takes one column at a time. -/
theorem compare_bytesBy_append (hscalar : ∀ column ∈ columns, column.type.isList = false)
    (ha : a.Fills columns) (hb : b.Fills columns) (x y : Bytes) :
    compare (a.bytesBy Column.keyBytes columns ++ x) (b.bytesBy Column.keyBytes columns ++ y) =
      (Record.compareBy columns a b).then (compare x y) := by
  induction columns with
  | nil => rfl
  | cons column columns ih =>
    obtain ⟨slot, hslot, hadmits⟩ := ha column List.mem_cons_self
    obtain ⟨slot', hslot', hadmits'⟩ := hb column List.mem_cons_self
    have hrest := ih (fun other hmem => hscalar other (List.mem_cons_of_mem _ hmem)) ha.tail hb.tail
    have hfirst := Column.compare_keyBytes_append (hscalar column List.mem_cons_self) hadmits
      hadmits' (a.bytesBy Column.keyBytes columns ++ x) (b.bytesBy Column.keyBytes columns ++ y)
    simp only [bytesBy, List.flatMap_cons, List.append_assoc, value?_of_slot? hslot,
      value?_of_slot? hslot']
    rw [compareBy, hslot, hslot', Ordering.then_assoc, ← hrest]
    exact hfirst

/-- Rows compare as the same in some columns exactly if they have the same slots
there, bit for bit, so that the two zeros of a floating-point column differ. Both
rows must fill the columns, and none of these may be a list, of which the comparison
sees nothing. -/
theorem compareBy_eq_eq_iff (hscalar : ∀ column ∈ columns, column.type.isList = false)
    (ha : a.Fills columns) (hb : b.Fills columns) :
    Record.compareBy columns a b = .eq ↔
      ∀ column ∈ columns, a.slot? column.ordinal = b.slot? column.ordinal := by
  induction columns with
  | nil => simp [compareBy]
  | cons column columns ih =>
    obtain ⟨slot, hslot, hadmits⟩ := ha column List.mem_cons_self
    obtain ⟨slot', hslot', hadmits'⟩ := hb column List.mem_cons_self
    have hrest := ih (fun other hmem => hscalar other (List.mem_cons_of_mem _ hmem)) ha.tail hb.tail
    have hfirst := Column.compare_slot_eq_eq_iff (hscalar column List.mem_cons_self) hadmits hadmits'
    rw [compareBy, Ordering.then_eq_eq, hrest, List.forall_mem_cons, hslot, hslot',
      Option.some.injEq]
    exact and_congr_left' hfirst

end Record

namespace Encoder

/-- Common ids are the same exactly if they are as unsigned numbers. -/
theorem toUInt64_inj {a b : Int64} : a.toUInt64 = b.toUInt64 ↔ a = b := by
  constructor
  · intro h
    rw [← Int64.toInt64_toUInt64 a, h, Int64.toInt64_toUInt64]
  · exact congrArg Int64.toUInt64

/-- The tag bytes decide first and then the common ids as unsigned numbers; only
between keys of one table and tag does anything behind the opening count. This holds
for any two encoders. -/
theorem compare_opening_append (encoder other : Encoder) (tag tag' : UInt8) (x y : Bytes) :
    compare (encoder.opening tag ++ x) (other.opening tag' ++ y) =
      ((compare tag tag').then
        (compare encoder.commonId.toUInt64 other.commonId.toUInt64)).then (compare x y) := by
  have hids : compare encoder.commonId.toUInt64.toNat other.commonId.toUInt64.toNat =
      compare encoder.commonId.toUInt64 other.commonId.toUInt64 := by
    simp only [compare, compareOfLessAndEq, UInt64.lt_iff_toNat_lt, ← UInt64.toNat_inj]
  have hlt : ∀ n : UInt64, n.toNat < Nat.pow 256 8 := fun n => n.toNat_lt
  have hword := ByteOrder.compare_word_append (hlt encoder.commonId.toUInt64)
    (hlt other.commonId.toUInt64) hids x y
  rw [opening, opening, List.cons_append, List.cons_append, List.compare_cons_cons,
    Ordering.then_assoc]
  exact congrArg _ hword

variable {encoder other : Encoder} {tag tag' : UInt8}

/-- Keys compare as the tag bytes, the common ids as unsigned numbers and the key
columns do, in this order. So keys are the same only if all these are, whichever
encoders of the schema write them. The encoders may have different ids, byte orders
and room, and only their columns must be the same. Both rows must have been written,
which is asked for by hypothesis; what stands in other columns does not matter. -/
theorem compare_encodeKey {record record' : Record} {key key' : Bytes}
    (hcolumns : encoder.plan.columns = other.plan.columns)
    (hkey : encoder.encodeKey tag record = .ok key)
    (hkey' : other.encodeKey tag' record' = .ok key') :
    compare key key' =
        ((compare tag tag').then
          (compare encoder.commonId.toUInt64 other.commonId.toUInt64)).then
          (Record.compareBy encoder.plan.keyColumns record record') ∧
      (key = key' ↔ tag = tag' ∧ encoder.commonId = other.commonId ∧
        ∀ column ∈ encoder.plan.keyColumns,
          record.slot? column.ordinal = record'.slot? column.ordinal) := by
  have hscalar : ∀ column ∈ encoder.plan.keyColumns, column.type.isList = false :=
    fun column hmem => encoder.plan.isList_of_mem_keyColumns hmem
  have hkeys : other.plan.keyColumns = encoder.plan.keyColumns :=
    congrArg Schema.keyColumns hcolumns.symm
  obtain ⟨-, hfills, hbytes⟩ := encodeKey_eq_ok hkey
  obtain ⟨-, hfills', hbytes'⟩ := encodeKey_eq_ok hkey'
  rw [hkeys] at hfills' hbytes'
  have hcompare : compare key key' =
      ((compare tag tag').then (compare encoder.commonId.toUInt64 other.commonId.toUInt64)).then
        (Record.compareBy encoder.plan.keyColumns record record') := by
    rw [hbytes, hbytes', List.append_assoc, List.append_assoc, compare_opening_append,
      Record.compare_bytesBy_append hscalar hfills hfills', Std.ReflOrd.compare_self,
      Ordering.then_eq]
  refine ⟨hcompare, ?_⟩
  rw [← Std.LawfulEqOrd.compare_eq_iff_eq, hcompare, Ordering.then_eq_eq, Ordering.then_eq_eq,
    Std.LawfulEqOrd.compare_eq_iff_eq, Std.LawfulEqOrd.compare_eq_iff_eq, toUInt64_inj,
    Record.compareBy_eq_eq_iff hscalar hfills hfills', and_assoc]

/-- A table of readings. Rows hold the samples, the value and the name of the place
in this order, and keys start with the place, which may be unknown. -/
def readings (order : ByteOrder) (commonId : Int64) : Encoder where
  plan :=
    { columns :=
        [{ type := .scalar .string, ordinal := 2, isKey := true },
          { type := .list .int64, ordinal := 0 },
          { type := .scalar .float64, ordinal := 1, isKey := true, nullable := false }]
      order
      checked := rfl }
  schemaVersion := 1
  commonId
  keyRoom := 0
  valueRoom := 64

/-- An absent string and an empty one, in keys of one table that two encoders of
different byte orders write. -/
theorem compare_encodeKey_absent_before_empty :
    ∃ key key',
      (readings .little (-7)).encodeKey 114 ⟨[none, some (.scalar .float64 ⟨0⟩), none]⟩ = .ok key ∧
      (readings .big (-7)).encodeKey 114
        ⟨[none, some (.scalar .float64 ⟨0⟩), some (.scalar .string "")]⟩ = .ok key' ∧
      compare key key' = .lt ∧ key ≠ key' := by
  have hkey : (readings .little (-7)).encodeKey 114 ⟨[none, some (.scalar .float64 ⟨0⟩), none]⟩ =
      .ok [114, 255, 255, 255, 255, 255, 255, 255, 249, 0, 128, 0, 0, 0, 0, 0, 0, 0, 0, 0, 0, 1] := by
    decide +kernel
  have hkey' : (readings .big (-7)).encodeKey 114
      ⟨[none, some (.scalar .float64 ⟨0⟩), some (.scalar .string "")]⟩ =
      .ok [114, 255, 255, 255, 255, 255, 255, 255, 249, 1, 0, 0, 0, 0, 0, 0, 0, 0, 247,
        128, 0, 0, 0, 0, 0, 0, 0, 0, 0, 0, 1] := by
    decide +kernel
  have hcolumns : (readings .little (-7)).plan.columns = (readings .big (-7)).plan.columns := rfl
  obtain ⟨hcompare, -⟩ := compare_encodeKey hcolumns hkey hkey'
  exact ⟨_, _, hkey, hkey', hcompare.trans (by decide +kernel), by decide +kernel⟩

end Encoder

end KeyedRows
