import KeyedRows.Proofs.Group.Order
import KeyedRows.Proofs.Text.Utf8
import KeyedRows.Row.Conforming
import KeyedRows.Row.Layout
import KeyedRows.Row.Order

namespace KeyedRows

namespace Sortable

private theorem compare_ofSigned {signBit : Nat} {a b : Int} (ha : -(signBit : Int) ≤ a)
    (hb : -(signBit : Int) ≤ b) :
    compare (ofSigned signBit a) (ofSigned signBit b) = compare a b := by
  have hless := ofSigned_lt_ofSigned ha hb
  have hmore := ofSigned_lt_ofSigned hb ha
  obtain hlt | heq | hgt := Int.lt_trichotomy a b
  · rw [Int.compare_eq_lt.2 hlt, Nat.compare_eq_lt.2 (hless.2 hlt)]
  · rw [heq, Int.compare_eq_eq.2 rfl, Nat.compare_eq_eq.2 rfl]
  · rw [Int.compare_eq_gt.2 hgt, Nat.compare_eq_gt.2 (hmore.2 hgt)]

private theorem compare_ofPattern (fmt : Binary.Format) {signBit a b : Nat} (hweight : fmt.signWeight = signBit)
    (ha : a < 2 * signBit) (hb : b < 2 * signBit) :
    compare (ofPattern signBit a) (ofPattern signBit b) = fmt.compareTotal a b := by
  simp only [ofPattern, Binary.Format.compareTotal, hweight, Nat.compare_eq_ite_lt]
  grind

end Sortable

private theorem Binary.Format.compareTotal_eq_eq_iff {fmt : Format} {a b : Nat} :
    fmt.compareTotal a b = .eq ↔ a = b := by
  simp only [compareTotal, Nat.compare_eq_ite_lt]
  grind

namespace Scalar

/-- Words of the numbers that items are made into decide as the items do, whatever
the width, if the numbers fit it and compare as the items do. -/
private theorem compare_words_append {α : Type} {compareItems : α → α → Ordering} (width : Nat)
    (code : α → Nat) (hword : ∀ a, code a < Nat.pow 256 width)
    (hnumbers : ∀ a b, compare (code a) (code b) = compareItems a b) (a b : α) (x y : Bytes) :
    compare (ByteOrder.big.word width (code a) ++ x) (ByteOrder.big.word width (code b) ++ y) =
      (compareItems a b).then (compare x y) :=
  ByteOrder.compare_word_append (hword a) (hword b) (hnumbers a b) x y

/-- The bytes of items in a key decide as the items do, and then what stands behind
them. So the bytes of no item are the beginning of another's, whatever stands behind
them. -/
theorem compare_keyBytes_append (kind : Scalar) (a b : kind.Item) (x y : Bytes) :
    compare (kind.keyBytes a ++ x) (kind.keyBytes b ++ y) =
      (kind.compareItems a b).then (compare x y) := by
  cases kind with
  | bool => cases a <;> cases b <;> rfl
  | int32 =>
    exact compare_words_append 4 (fun n : Int32 => Sortable.ofSigned signBit32 n.toInt)
      (fun n => Sortable.ofSigned_lt n.le_toInt n.toInt_lt)
      (fun m n => Sortable.compare_ofSigned m.le_toInt n.le_toInt) a b x y
  | int64 =>
    exact compare_words_append 8 (fun n : Int64 => Sortable.ofSigned signBit64 n.toInt)
      (fun n => Sortable.ofSigned_lt n.le_toInt n.toInt_lt)
      (fun m n => Sortable.compare_ofSigned m.le_toInt n.le_toInt) a b x y
  | float32 =>
    exact compare_words_append 4 (fun x : Float32Bits => Sortable.ofPattern signBit32 x.bits.toNat)
      (fun x => Sortable.ofPattern_lt x.bits.toNat_lt)
      (fun x y => Sortable.compare_ofPattern Binary.single rfl x.bits.toNat_lt y.bits.toNat_lt)
      a b x y
  | float64 =>
    exact compare_words_append 8 (fun x : Float64Bits => Sortable.ofPattern signBit64 x.bits.toNat)
      (fun x => Sortable.ofPattern_lt x.bits.toNat_lt)
      (fun x y => Sortable.compare_ofPattern Binary.double rfl x.bits.toNat_lt y.bits.toNat_lt)
      a b x y
  | string => exact Group.compare_encode_append (Utf8.encode a) (Utf8.encode b) x y

private theorem compareItems_eq_eq_iff {kind : Scalar} {a b : kind.Item} :
    kind.compareItems a b = .eq ↔ a = b := by
  cases kind with
  | bool => exact Std.LawfulEqOrd.compare_eq_iff_eq
  | int32 => exact Int.compare_eq_eq.trans Int32.toInt_inj
  | int64 => exact Int.compare_eq_eq.trans Int64.toInt_inj
  | float32 =>
    obtain ⟨m⟩ := a
    obtain ⟨n⟩ := b
    rw [Float32Bits.mk.injEq, ← UInt32.toNat_inj]
    exact Binary.Format.compareTotal_eq_eq_iff
  | float64 =>
    obtain ⟨m⟩ := a
    obtain ⟨n⟩ := b
    rw [Float64Bits.mk.injEq, ← UInt64.toNat_inj]
    exact Binary.Format.compareTotal_eq_eq_iff
  | string => exact Std.LawfulEqOrd.compare_eq_iff_eq.trans Utf8.encode_inj

end Scalar

namespace Slot

/-- Present slots compare as their items do. -/
theorem compare_scalar {kind : Scalar} (a b : kind.Item) :
    Slot.compare (some (.scalar kind a)) (some (.scalar kind b)) = kind.compareItems a b :=
  dif_pos rfl

end Slot

namespace Column

/-- A slot that a key column admits is absent or holds a scalar value of the
column's type. -/
theorem Admits.absent_or_scalar {column : Column} {kind : Scalar} {slot : Slot}
    (hadmits : column.Admits slot) (htype : column.type = .scalar kind) :
    (slot = none ∧ column.nullable = true) ∨ ∃ item, slot = some (.scalar kind item) := by
  cases slot with
  | none => exact .inl ⟨rfl, hadmits⟩
  | some value =>
    right
    have hvalue : value.type = .scalar kind := hadmits.trans htype
    cases value with
    | scalar other item =>
      cases hvalue
      exact ⟨item, rfl⟩
    | list other items => cases hvalue

variable {column : Column} {a b : Slot}

/-- The bytes of slots of a key column decide as the slots do, and then what stands
behind them. The column must be no list, and it must admit both slots. The zeros in
the place of an absent number decide nothing, since its marker has done so before. -/
theorem compare_keyBytes_append (hscalar : column.type.isList = false) (ha : column.Admits a)
    (hb : column.Admits b) (x y : Bytes) :
    compare (column.keyBytes a ++ x) (column.keyBytes b ++ y) =
      (Slot.compare a b).then (compare x y) := by
  cases htype : column.type with
  | list item => simp [htype, ColumnType.isList, ColumnType.item?] at hscalar
  | scalar kind =>
    obtain ⟨rfl, hnull⟩ | ⟨m, rfl⟩ := ha.absent_or_scalar htype
    · obtain ⟨rfl, -⟩ | ⟨n, rfl⟩ := hb.absent_or_scalar htype
      · rw [Bytes.compare_append_same]
        rfl
      · simp only [keyBytes, markerBytes, hnull, if_true]
        rfl
    · obtain ⟨rfl, hnull⟩ | ⟨n, rfl⟩ := hb.absent_or_scalar htype
      · simp only [keyBytes, markerBytes, hnull, if_true]
        rfl
      · have hmarker : column.markerBytes (some (.scalar kind m)) =
            column.markerBytes (some (.scalar kind n)) := rfl
        rw [keyBytes, keyBytes, hmarker, List.append_assoc, List.append_assoc,
          Bytes.compare_append_same, Slot.compare_scalar]
        exact kind.compare_keyBytes_append m n x y

/-- Slots that a column admits compare as equal only if they are the same, bit for
bit. Lists do not compare, so the column must not be one. -/
theorem compare_slot_eq_eq_iff (hscalar : column.type.isList = false) (ha : column.Admits a)
    (hb : column.Admits b) : Slot.compare a b = .eq ↔ a = b := by
  cases htype : column.type with
  | list item => simp [htype, ColumnType.isList, ColumnType.item?] at hscalar
  | scalar kind =>
    obtain ⟨rfl, -⟩ | ⟨m, rfl⟩ := ha.absent_or_scalar htype
    · obtain ⟨rfl, -⟩ | ⟨n, rfl⟩ := hb.absent_or_scalar htype
      · simp [Slot.compare]
      · simp [Slot.compare]
    · obtain ⟨rfl, -⟩ | ⟨n, rfl⟩ := hb.absent_or_scalar htype
      · simp [Slot.compare]
      · simp [Slot.compare_scalar, Scalar.compareItems_eq_eq_iff]

end Column

end KeyedRows
