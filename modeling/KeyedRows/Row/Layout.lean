import KeyedRows.Region.Contents
import KeyedRows.Row.KeyColumn
import KeyedRows.Row.ValueColumn

namespace KeyedRows

namespace Scalar

/-- The bytes of an item in a key. -/
def keyBytes : (kind : Scalar) → kind.Item → Bytes
  | .bool, b => [if b then 1 else 0]
  | .int32, n => ByteOrder.big.word 4 (Sortable.ofSigned signBit32 n.toInt)
  | .int64, n => ByteOrder.big.word 8 (Sortable.ofSigned signBit64 n.toInt)
  | .float32, x => ByteOrder.big.word 4 (Sortable.ofPattern signBit32 x.bits.toNat)
  | .float64, x => ByteOrder.big.word 8 (Sortable.ofPattern signBit64 x.bits.toNat)
  | .string, s => Group.encode (Utf8.encode s)

/-- The bytes of an item outside the key. -/
def valueBytes (order : ByteOrder) : (kind : Scalar) → kind.Item → Bytes
  | .bool, b => [if b then 1 else 0]
  | .int32, n => order.word 4 n.toUInt32.toNat
  | .int64, n => order.word 8 n.toUInt64.toNat
  | .float32, x => order.word 4 x.bits.toNat
  | .float64, x => order.word 8 x.bits.toNat
  | .string, s => order.word Frame.lengthSize (Utf8.encode s).length ++ Utf8.encode s

end Scalar

namespace Value

/-- The bytes of a value in a key, behind its marker. Lists have none. -/
def keyBytes : Value → Bytes
  | scalar kind item => kind.keyBytes item
  | list _ _ => []

/-- The bytes of a value outside the key, behind its marker. -/
def valueBytes (order : ByteOrder) : Value → Bytes
  | scalar kind item => kind.valueBytes order item
  | list kind items =>
    order.word Frame.lengthSize items.length ++ items.flatMap (kind.valueBytes order)

end Value

namespace Column

/-- The marker of a slot with the zeros that stand for an absent value. -/
def markerBytes (column : Column) (slot : Slot) : Bytes :=
  if column.nullable then
    if slot.isSome then [Frame.presentMarker]
    else Frame.absentMarker :: List.replicate column.fillerSize 0
  else []

/-- The bytes of a slot of a key column. -/
def keyBytes (column : Column) (slot : Slot) : Bytes :=
  column.markerBytes slot ++ slot.elim [] Value.keyBytes

/-- The bytes of a slot of a column outside the key. -/
def valueBytes (order : ByteOrder) (column : Column) (slot : Slot) : Bytes :=
  column.markerBytes slot ++ slot.elim [] (Value.valueBytes order)

end Column

/-- The bytes of the slots of columns one behind the other, as a plain concatenation
with no region to write into. -/
def Record.bytesBy (slotBytes : Column → Slot → Bytes) (record : Record) (columns : Schema) :
    Bytes :=
  columns.flatMap fun column => slotBytes column (record.value? column.ordinal)

namespace Scalar

/-- A number is written with its lowest digits, so cutting it to them first changes
nothing. -/
private theorem extends_push_mod (region : Region) (width n : Nat) :
    (region.push (ByteOrder.big.word width (n % Nat.pow 256 width))).Extends region
      (ByteOrder.big.word width n) := by
  rw [ByteOrder.word_mod]
  exact region.extends_push _

private theorem extends_writeKeyItem (kind : Scalar) (item : kind.Item) (region : Region) :
    (kind.writeKeyItem item region).Extends region (kind.keyBytes item) := by
  cases kind with
  | bool | string => exact region.extends_push _
  | int32 | float32 => exact extends_push_mod region 4 _
  | int64 | float64 => exact extends_push_mod region 8 _

private theorem extends_writeItem {kind : Scalar} {item : kind.Item} {region after : Region}
    (h : kind.writeItem item region = .ok after) :
    after.Extends region (kind.valueBytes region.order item) := by
  cases kind with
  | bool | int32 | int64 | float32 | float64 =>
    cases h
    exact region.extends_push _
  | string => exact Region.extends_pushSized h

private theorem extends_writeItems {kind : Scalar} {items : List kind.Item} {region after : Region}
    (h : kind.writeItems items region = .ok after) :
    after.Extends region (items.flatMap (kind.valueBytes region.order)) := by
  induction items generalizing region with
  | nil =>
    cases h
    exact Region.extends_refl _
  | cons item items ih =>
    rw [writeItems] at h
    cases hitem : kind.writeItem item region with
    | error e => simp [hitem, bind, Except.bind] at h
    | ok middle =>
      have hfirst := extends_writeItem hitem
      simp only [hitem, bind, Except.bind] at h
      have hrest := ih h
      rw [hfirst.order] at hrest
      rw [List.flatMap_cons]
      exact hrest.trans hfirst

end Scalar

namespace Column

private theorem extends_writeMarker (column : Column) (slot : Slot) (region : Region) :
    (column.writeMarker slot region).Extends region (column.markerBytes slot) := by
  simp only [writeMarker, markerBytes]
  cases column.nullable <;> cases slot
  · exact region.extends_refl
  · exact region.extends_refl
  · exact (Region.extends_push _ _).trans (region.extends_push _)
  · exact region.extends_push _

/-- A slot of a key column is written as its bytes behind the others, however the
region is laid out. Nothing is asked of the slot: it has been written, so it was
admitted. -/
theorem extends_writeKey {column : Column} {slot : Slot} {region after : Region}
    (h : column.writeKey slot region = .ok after) :
    after.Extends region (column.keyBytes slot) := by
  have hmarker := column.extends_writeMarker slot region
  unfold writeKey at h
  cases hcheck : column.checkSlot slot with
  | error e => simp [hcheck, bind, Except.bind] at h
  | ok =>
    simp only [hcheck, bind, Except.bind] at h
    split at h
    · cases h
      exact (Region.extends_refl _).trans hmarker
    · cases h
      exact (Scalar.extends_writeKeyItem ..).trans hmarker
    · cases h

/-- A slot of another column is written as its bytes in the order of the region,
behind the others. That lengths fit their fields follows from its having been
written. -/
theorem extends_writeValue {column : Column} {slot : Slot} {region after : Region}
    (h : column.writeValue slot region = .ok after) :
    after.Extends region (column.valueBytes region.order slot) := by
  have hmarker := column.extends_writeMarker slot region
  unfold writeValue at h
  cases hcheck : column.checkSlot slot with
  | error e => simp [hcheck, bind, Except.bind] at h
  | ok =>
    simp only [hcheck, bind, Except.bind] at h
    split at h
    · cases h
      exact (Region.extends_refl _).trans hmarker
    · have hitem := Scalar.extends_writeItem h
      rw [hmarker.order] at hitem
      exact hitem.trans hmarker
    · rename_i kind items
      split at h
      · rename_i hlength
        have hcount := Region.extends_pushInt32_ofNat
          (column.writeMarker (some (.list kind items)) region) hlength
        have hroomy := (Region.extends_reserve _ (items.length * kind.width?.getD 0)).trans hcount
        have hitems := Scalar.extends_writeItems h
        rw [hroomy.order, hmarker.order] at hitems
        rw [hmarker.order] at hroomy
        have hall := hitems.trans (hroomy.trans hmarker)
        rwa [List.append_nil, List.append_assoc] at hall
      · cases h

end Column

end KeyedRows
