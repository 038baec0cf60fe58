import KeyedRows.Proofs.Group.Reading
import KeyedRows.Proofs.Row.Written
import KeyedRows.Proofs.Text.Utf8

namespace KeyedRows

open Reader

variable {order : ByteOrder}

namespace Scalar

private theorem consumes_readText (text : String) :
    Consumes order (readText (Utf8.encode text)) [] text := by
  rw [readText, Utf8.decode_encode]
  exact consumes_pure order text

private theorem consumes_readFlag (flag : Bool) :
    Consumes order (byte >>= fun b => pure (b != 0)) [if flag then 1 else 0] flag := by
  have h := (consumes_byte order (if flag then 1 else 0)).map (· != 0)
  cases flag <;> exact h

/-- A number of a key is read and turned back into the item that it was made from,
whatever its width. Items must be made into numbers of that width. -/
private theorem consumes_readNumber {α β : Type} {read : Reader β} {number : β → Nat} {width limit : Nat}
    (code : α → Nat) (decode : Nat → α)
    (hread : ∀ m < limit, ∃ n, number n = m ∧ Consumes order read (ByteOrder.big.word width m) n)
    (hlimit : ∀ a, code a < limit) (hdecode : ∀ a, decode (code a) = a) (item : α) :
    Consumes order (read >>= fun n => pure (decode (number n))) (ByteOrder.big.word width (code item))
      item := by
  obtain ⟨n, hn, hconsumes⟩ := hread (code item) (hlimit item)
  have h := hconsumes.map fun n => decode (number n)
  rwa [hn, hdecode] at h

private theorem exists_uint32 (order : ByteOrder) (m : Nat) (hm : m < 2 * signBit32) :
    ∃ n : UInt32, n.toNat = m ∧ Consumes order uint32 (ByteOrder.big.word 4 m) n :=
  ⟨UInt32.ofNat m, UInt32.toNat_ofNat_of_lt' hm, consumes_uint32 order hm⟩

private theorem exists_uint64 (order : ByteOrder) (m : Nat) (hm : m < 2 * signBit64) :
    ∃ n : UInt64, n.toNat = m ∧ Consumes order uint64 (ByteOrder.big.word 8 m) n :=
  ⟨UInt64.ofNat m, UInt64.toNat_ofNat_of_lt' hm, consumes_uint64 order hm⟩

private theorem consumes_readKeyItem (kind : Scalar) (item : kind.Item) :
    Consumes order kind.readKeyItem (kind.keyBytes item) item := by
  cases kind with
  | bool => exact consumes_readFlag item
  | int32 =>
    refine consumes_readNumber (fun n : Int32 => Sortable.ofSigned signBit32 n.toInt)
      (fun m => Int32.ofInt (Sortable.toSigned signBit32 m)) (exists_uint32 order)
      (fun n => Sortable.ofSigned_lt n.le_toInt n.toInt_lt) (fun n => ?_) item
    exact (congrArg Int32.ofInt (Sortable.toSigned_ofSigned n.le_toInt)).trans (Int32.ofInt_toInt n)
  | int64 =>
    refine consumes_readNumber (fun n : Int64 => Sortable.ofSigned signBit64 n.toInt)
      (fun m => Int64.ofInt (Sortable.toSigned signBit64 m)) (exists_uint64 order)
      (fun n => Sortable.ofSigned_lt n.le_toInt n.toInt_lt) (fun n => ?_) item
    exact (congrArg Int64.ofInt (Sortable.toSigned_ofSigned n.le_toInt)).trans (Int64.ofInt_toInt n)
  | float32 =>
    refine consumes_readNumber (fun x : Float32Bits => Sortable.ofPattern signBit32 x.bits.toNat)
      (fun m => ⟨UInt32.ofNat (Sortable.toPattern signBit32 m)⟩) (exists_uint32 order)
      (fun x => Sortable.ofPattern_lt x.bits.toNat_lt) (fun x => ?_) item
    rw [Sortable.toPattern_ofPattern x.bits.toNat_lt, UInt32.ofNat_toNat]
  | float64 =>
    refine consumes_readNumber (fun x : Float64Bits => Sortable.ofPattern signBit64 x.bits.toNat)
      (fun m => ⟨UInt64.ofNat (Sortable.toPattern signBit64 m)⟩) (exists_uint64 order)
      (fun x => Sortable.ofPattern_lt x.bits.toNat_lt) (fun x => ?_) item
    rw [Sortable.toPattern_ofPattern x.bits.toNat_lt, UInt64.ofNat_toNat]
  | string =>
    have h := (Group.consumes_reader order (Utf8.encode item)).bind (consumes_readText item)
    rwa [List.append_nil] at h

private theorem consumes_readItem {kind : Scalar} {item : kind.Item} (hfits : kind.Fits item) :
    Consumes order kind.readItem (kind.valueBytes order item) item := by
  cases kind with
  | bool => exact consumes_readFlag item
  | int32 => exact consumes_int32 order item
  | int64 => exact consumes_int64 order item
  | float32 =>
    have h := (consumes_int32 order item.bits.toInt32).map fun n => Float32Bits.mk n.toUInt32
    rwa [UInt32.toUInt32_toInt32] at h
  | float64 =>
    have h := (consumes_int64 order item.bits.toInt64).map fun n => Float64Bits.mk n.toUInt64
    rwa [UInt64.toUInt64_toInt64] at h
  | string =>
    have h := (consumes_sized order hfits).bind (consumes_readText item)
    rwa [List.append_nil] at h

private theorem leastSize_le (order : ByteOrder) (kind : Scalar) (item : kind.Item) :
    kind.leastSize ≤ (kind.valueBytes order item).length := by
  cases kind with
  | bool => exact Nat.le_refl 1
  | string =>
    rw [valueBytes, List.length_append, ByteOrder.length_word]
    exact Nat.le_add_right ..
  | int32 | int64 | float32 | float64 => exact Nat.le_of_eq (ByteOrder.length_word ..).symm

/-- Items take at least the least size of their type each, so a count that was
written passes the check against the bytes that are left. -/
theorem leastSize_mul_le (kind : Scalar) (items : List kind.Item) :
    items.length * kind.leastSize ≤ (items.flatMap (kind.valueBytes order)).length := by
  induction items with
  | nil => simp
  | cons item items ih =>
    have hitem := leastSize_le order kind item
    rw [List.length_cons, Nat.succ_mul, List.flatMap_cons, List.length_append]
    omega

/-- A count is read if the bytes behind it can hold that many items. The count must
fit its field, or it would be read as a negative one. -/
theorem readCount_eq_ok {kind : Scalar} {count : Nat} {cursor : Cursor} {rest : Bytes}
    (hcount : count < Frame.lengthLimit) (horder : cursor.order = order)
    (hunread : cursor.unread = order.word Frame.lengthSize count ++ rest)
    (hroom : count * kind.leastSize ≤ rest.length) :
    ∃ after, kind.readCount cursor = (.ok count, after) ∧ after.unread = rest ∧
      after.order = order := by
  obtain ⟨after, hlength, hafter, horder⟩ :=
    consumes_length order hcount cursor rest horder hunread
  refine ⟨after, ?_, hafter, horder⟩
  rw [← hafter, after.length_unread] at hroom
  rw [readCount, bind_of_ok hlength, bind_of_ok (rfl : remaining after = (.ok _, after))]
  simp only [if_neg (Nat.not_lt.2 hroom)]
  rfl

/-- The items of a list are read behind their count. Both the count and the strings
among the items must fit their length fields. -/
theorem consumes_readItems {kind : Scalar} {items : List kind.Item}
    (hlength : items.length < Frame.lengthLimit) (hfits : ∀ item ∈ items, kind.Fits item) :
    Consumes order (kind.readCount >>= repeated kind.readItem)
      (order.word Frame.lengthSize items.length ++ items.flatMap (kind.valueBytes order)) items := by
  intro cursor rest horder hunread
  rw [List.append_assoc] at hunread
  have hroom : items.length * kind.leastSize ≤
      (items.flatMap (kind.valueBytes order) ++ rest).length := by
    rw [List.length_append]
    exact Nat.le_trans (kind.leastSize_mul_le items) (Nat.le_add_right ..)
  obtain ⟨middle, hcount, hmiddle, horder⟩ := readCount_eq_ok hlength horder hunread hroom
  rw [bind_of_ok hcount]
  have hitem : ∀ item ∈ items, Consumes order kind.readItem (kind.valueBytes order item) item :=
    fun item hmem => consumes_readItem (hfits item hmem)
  exact consumes_repeated order hitem middle rest horder hmiddle

end Scalar

namespace Column

variable {column : Column} {slot : Slot}

/-- A marker is read together with the zeros of an absent value. A column that is
not nullable has no marker, which is why it must admit the slot. -/
theorem consumes_readMarker (hadmits : column.Admits slot) :
    Consumes order column.readMarker (column.markerBytes slot) slot.isSome := by
  cases hnullable : column.nullable with
  | false =>
    cases slot with
    | none => simp [Admits, hnullable] at hadmits
    | some value =>
      simp only [readMarker, markerBytes, hnullable]
      exact consumes_pure order true
  | true =>
    simp only [readMarker, markerBytes, hnullable, if_true]
    cases slot with
    | none =>
      have hfiller := consumes_skip order (List.replicate column.fillerSize 0)
      rw [List.length_replicate] at hfiller
      exact (consumes_byte order Frame.absentMarker).bind (hfiller.map fun _ => false)
    | some value =>
      exact (consumes_byte order Frame.presentMarker).bind (consumes_pure order true)

/-- A slot of a key column is read from the bytes that stand for it. The column must
admit the slot and be no list. No bound on lengths is needed: keys have no length
fields. -/
theorem consumes_readKey (hscalar : column.type.isList = false) (hadmits : column.Admits slot) :
    Consumes order column.readKey (column.keyBytes slot) slot := by
  apply (consumes_readMarker hadmits).bind
  cases slot with
  | none => exact consumes_pure order none
  | some value =>
    have htype : value.type = column.type := hadmits
    simp only [Option.isSome_some, if_true, ← htype]
    cases value with
    | list kind items => simp [← htype, Value.type, ColumnType.isList, ColumnType.item?] at hscalar
    | scalar kind item =>
      exact (kind.consumes_readKeyItem item).map fun item => some (Value.scalar kind item)

/-- A slot of a column outside the key is read from the bytes that stand for it, if
its value is short enough for its length fields. Without that bound a length would
be read as a negative one. -/
theorem consumes_readValue (hadmits : column.Admits slot) (hfits : slot.Fits) :
    Consumes order column.readValue (column.valueBytes order slot) slot := by
  apply (consumes_readMarker hadmits).bind
  cases slot with
  | none => exact consumes_pure order none
  | some value =>
    have htype : value.type = column.type := hadmits
    have hvalue : value.Fits := hfits value rfl
    simp only [Option.isSome_some, if_true, ← htype]
    cases value with
    | scalar kind item =>
      exact (Scalar.consumes_readItem hvalue).map fun item => some (Value.scalar kind item)
    | list kind items =>
      have hitems : Consumes order _ (Value.valueBytes order (.list kind items)) items :=
        Scalar.consumes_readItems hvalue.1 hvalue.2
      have h := hitems.map fun items => some (Value.list kind items)
      rwa [bind_assoc] at h

end Column

end KeyedRows
