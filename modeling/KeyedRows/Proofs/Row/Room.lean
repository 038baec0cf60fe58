import KeyedRows.Proofs.Column.Reading
import KeyedRows.Proofs.Column.Width
import KeyedRows.Proofs.Region.Room
import KeyedRows.Proofs.Row.KeyOrder

namespace KeyedRows

open Region

namespace Scalar

private theorem takesRoom_writeKeyItem (kind : Scalar) (item : kind.Item) :
    TakesRoom (fun region => .ok (kind.writeKeyItem item region)) (kind.keyBytes item).length := by
  cases kind with
  | bool | string => exact takesRoom_push fun _ => rfl
  | int32 | int64 | float32 | float64 =>
    rw [length_keyBytes rfl]
    exact takesRoom_push fun _ => ByteOrder.length_word ..

variable (order : ByteOrder)

private theorem takesRoom_writeItem (kind : Scalar) (item : kind.Item) :
    TakesRoom (kind.writeItem item) (kind.valueBytes order item).length := by
  cases kind with
  | bool => exact takesRoom_push fun _ => rfl
  | string =>
    rw [valueBytes, List.length_append, ByteOrder.length_word]
    exact takesRoom_pushSized _
  | int32 | int64 | float32 | float64 =>
    rw [length_valueBytes rfl]
    exact takesRoom_push fun _ => ByteOrder.length_word ..

private theorem takesRoom_writeItems (kind : Scalar) (items : List kind.Item) :
    TakesRoom (kind.writeItems items) (items.flatMap (kind.valueBytes order)).length := by
  induction items with
  | nil => exact takesRoom_nothing
  | cons item items ih =>
    rw [List.flatMap_cons, List.length_append]
    exact (kind.takesRoom_writeItem order item).bind ih

/-- The room made at once for the items of a list is no more than they take. -/
theorem width_mul_le (kind : Scalar) (items : List kind.Item) :
    items.length * kind.width?.getD 0 ≤ (items.flatMap (kind.valueBytes order)).length := by
  apply Nat.le_trans _ (kind.leastSize_mul_le items)
  apply Nat.mul_le_mul_left
  cases kind <;> decide

end Scalar

namespace Column

variable (column : Column) (slot : Slot)

private theorem takesRoom_writeMarker :
    TakesRoom (fun region => .ok (column.writeMarker slot region)) (column.markerBytes slot).length := by
  have hpush : ∀ bytes : Bytes, TakesRoom (fun region => .ok (region.push bytes)) bytes.length :=
    fun bytes => takesRoom_push fun _ => rfl
  cases hnullable : column.nullable with
  | false => simpa [writeMarker, markerBytes, hnullable] using takesRoom_nothing
  | true =>
    cases slot with
    | some value => simpa [writeMarker, markerBytes, hnullable] using hpush [Frame.presentMarker]
    | none =>
      have hboth := (hpush (List.replicate column.fillerSize 0)).comp (hpush [Frame.absentMarker])
      simpa [writeMarker, markerBytes, hnullable, pushZeros, Nat.add_comm] using hboth

/-- A slot of a key column takes what its bytes take. -/
theorem takesRoom_writeKey : TakesRoom (column.writeKey slot) (column.keyBytes slot).length := by
  have hmarker := column.takesRoom_writeMarker slot
  apply TakesRoom.check
  rw [keyBytes, List.length_append]
  rcases slot with _ | ⟨kind, item⟩ | ⟨kind, items⟩
  · exact takesRoom_nothing.comp hmarker
  · exact (kind.takesRoom_writeKeyItem item).comp hmarker
  · exact takesRoom_error _

/-- A slot of any other column takes what its bytes take. -/
theorem takesRoom_writeValue (order : ByteOrder) :
    TakesRoom (column.writeValue slot) (column.valueBytes order slot).length := by
  have hmarker := column.takesRoom_writeMarker slot
  apply TakesRoom.check
  rw [valueBytes, List.length_append]
  rcases slot with _ | ⟨kind, item⟩ | ⟨kind, items⟩
  · exact takesRoom_nothing.comp hmarker
  · exact (kind.takesRoom_writeItem order item).comp hmarker
  · by_cases hlength : items.length < Frame.lengthLimit
    · simp only [if_pos hlength]
      have hitems := (kind.takesRoom_writeItems order items).reserve _ (kind.width_mul_le order items)
      have hcounted := hitems.comp (takesRoom_pushInt32 (Int32.ofNat items.length))
      rw [Option.elim_some, Value.valueBytes, List.length_append, ByteOrder.length_word]
      exact hcounted.comp hmarker
    · simp only [if_neg hlength]
      exact takesRoom_error _

end Column

/-- Whether the values of a row in some columns are no longer than assumed. -/
def Record.Within (settings : Settings) (record : Record) (columns : Schema) : Prop :=
  ∀ column ∈ columns, ∀ slot, record.slot? column.ordinal = some slot → slot.Within settings

section Sums

variable {slotBytes : Column → Slot → Bytes} {room : ColumnType → Nat} {record : Record}
  {columns : Schema}

/-- Columns that take no more than is set aside for each take no more than is set
aside for all. The row must fill the columns, with strings and lists that are no
longer than assumed. -/
theorem Record.length_bytesBy_le {settings : Settings} (hfills : record.Fills columns)
    (hwithin : record.Within settings columns)
    (hslot : ∀ column slot, column.Admits slot → slot.Within settings →
      (slotBytes column slot).length ≤ Schema.markerRoom column + room column.type) :
    (record.bytesBy slotBytes columns).length ≤ Schema.slotRoom room columns := by
  induction columns with
  | nil => exact Nat.le_refl 0
  | cons column columns ih =>
    obtain ⟨⟨slot, hfound, hadmits⟩, hrest⟩ := List.forall_mem_cons.1 hfills
    obtain ⟨hfirst, hwithin⟩ := List.forall_mem_cons.1 hwithin
    have hlater : (record.bytesBy slotBytes columns).length ≤ _ := ih hrest hwithin
    rw [bytesBy, List.flatMap_cons, value?_of_slot? hfound, List.length_append]
    exact Nat.add_le_add (hslot column slot hadmits (hfirst slot hfound)) hlater

private theorem Record.length_bytesBy_eq (hfills : record.Fills columns)
    (hfixed : ∀ column ∈ columns, column.type.width?.isSome = true)
    (hslot : ∀ column slot width, column.Admits slot → column.type.width? = some width →
      (slotBytes column slot).length = Schema.markerRoom column + room column.type) :
    (record.bytesBy slotBytes columns).length = Schema.slotRoom room columns := by
  induction columns with
  | nil => rfl
  | cons column columns ih =>
    obtain ⟨⟨slot, hfound, hadmits⟩, hrest⟩ := List.forall_mem_cons.1 hfills
    obtain ⟨hfirst, hfixed⟩ := List.forall_mem_cons.1 hfixed
    obtain ⟨width, hwidth⟩ := Option.isSome_iff_exists.1 hfirst
    have hlater : (record.bytesBy slotBytes columns).length = _ := ih hrest hfixed
    rw [bytesBy, List.flatMap_cons, value?_of_slot? hfound, List.length_append,
      hslot column slot width hadmits hwidth, Schema.slotRoom, ← hlater, bytesBy]

end Sums

namespace Encoder

variable {encoder : Encoder} {tag : UInt8} {record : Record} {columns : Schema} {settings : Settings}
  {key value : Bytes}

/-- The slots of columns take what their bytes take. -/
theorem takesRoom_writeSlots {write : Column → Slot → Region → Except Error Region}
    {slotBytes : Column → Slot → Bytes}
    (hwrite : ∀ column slot, TakesRoom (write column slot) (slotBytes column slot).length) :
    TakesRoom (writeSlots write record columns) (record.bytesBy slotBytes columns).length := by
  induction columns with
  | nil => exact takesRoom_nothing
  | cons column columns ih =>
    intro region after h hroom
    rw [writeSlots] at h
    cases hslot : record.slot? column.ordinal with
    | none => simp [hslot] at h
    | some slot =>
      simp only [hslot] at h
      rw [Record.bytesBy, List.flatMap_cons, Record.value?_of_slot? hslot, List.length_append] at hroom ⊢
      exact ((hwrite column slot).bind ih) region after h hroom

private theorem takesRoom_writeOpening (tag : UInt8) (commonId : Int64) :
    TakesRoom (fun region => .ok (writeOpening tag commonId region)) Frame.openingSize := by
  have htag : TakesRoom (fun region => .ok (region.push [tag])) 1 := takesRoom_push fun _ => rfl
  exact (takesRoom_pushUInt64 commonId.toUInt64).comp htag

private theorem takesRoom_writeTrailer :
    TakesRoom (fun region => .ok (writeTrailer region)) Frame.trailerSize := by
  have hreserved := takesRoom_pushBack 0
  exact ((hreserved.comp hreserved).comp hreserved).comp (takesRoom_pushBack Frame.formatVersion)

private theorem length_of_encodeKey (h : encoder.encodeKey tag record = .ok key) :
    key.length = Frame.openingSize + Frame.trailerSize +
      (record.bytesBy Column.keyBytes encoder.plan.keyColumns).length := by
  obtain ⟨-, -, hbytes⟩ := encodeKey_eq_ok h
  rw [hbytes, List.length_append, List.length_append, opening, List.length_cons, ByteOrder.length_word]
  exact Nat.add_right_comm ..

private theorem length_of_encodeValue (h : encoder.encodeValue record = .ok value) :
    value.length = Frame.headerSize +
      (record.bytesBy (Column.valueBytes encoder.plan.order) encoder.plan.valueColumns).length := by
  obtain ⟨-, -, hbytes⟩ := encodeValue_eq_ok h
  rw [hbytes, List.length_append, ByteOrder.length_word]
  rfl

/-- A key that is no longer than the room set aside is written without more room
being made. The region keeps the cells that it was given, or the least number of
them. -/
theorem capacity_of_writeKey (h : encoder.encodeKey tag record = .ok key)
    (hroom : key.length ≤ encoder.keyRoom) :
    ∃ region, encoder.writeKey tag record = .ok region ∧ region.toBytes = key ∧
      region.capacity = max encoder.keyRoom leastCapacity := by
  have hlength := length_of_encodeKey h
  obtain ⟨region, hwrite, hbytes⟩ := map_eq_ok_iff.1 h
  refine ⟨region, hwrite, hbytes, ?_⟩
  rw [writeKey, bind_eq_ok_iff] at hwrite
  obtain ⟨⟨⟩, -, hslots⟩ := hwrite
  have hcolumns : TakesRoom (writeSlots Column.writeKey record encoder.plan.keyColumns) _ :=
    takesRoom_writeSlots Column.takesRoom_writeKey
  have hframed := (hcolumns.comp takesRoom_writeTrailer).comp
    (takesRoom_writeOpening tag encoder.commonId)
  have hroomy := hframed.reserve (Frame.openingSize + Frame.trailerSize) (by omega)
  exact hroomy.capacity_of_empty hslots (by omega)

/-- A value that is no longer than the room set aside is written without more room
being made. -/
theorem capacity_of_writeValue (h : encoder.encodeValue record = .ok value)
    (hroom : value.length ≤ encoder.valueRoom) :
    ∃ region, encoder.writeValue record = .ok region ∧ region.toBytes = value ∧
      region.capacity = max encoder.valueRoom leastCapacity := by
  have hlength := length_of_encodeValue h
  obtain ⟨region, hwrite, hbytes⟩ := map_eq_ok_iff.1 h
  refine ⟨region, hwrite, hbytes, ?_⟩
  rw [writeValue, bind_eq_ok_iff] at hwrite
  obtain ⟨⟨⟩, -, hslots⟩ := hwrite
  have hcolumns : TakesRoom (writeSlots Column.writeValue record encoder.plan.valueColumns) _ :=
    takesRoom_writeSlots fun column slot => column.takesRoom_writeValue slot encoder.plan.order
  have hheaded := hcolumns.comp (takesRoom_pushInt32 encoder.schemaVersion)
  have hroomy := hheaded.reserve Frame.headerSize (Nat.le_add_right ..)
  exact hroomy.capacity_of_empty hslots (hlength ▸ hroom)

/-- The room that an encoder sets aside is the estimate for its schema. Nothing but
the schema and the settings enters it. -/
theorem room_of_of? {schemaVersion : Int32} {commonId : Int64}
    (h : Encoder.of? schemaVersion columns commonId settings = .ok encoder) :
    encoder.plan.columns = columns ∧ encoder.keyRoom = columns.keyRoom settings ∧
      encoder.valueRoom = columns.valueRoom settings := by
  rw [Encoder.of?, bind_eq_ok_iff] at h
  obtain ⟨plan, hplan, h⟩ := h
  cases h
  exact ⟨(Plan.of?_eq_ok hplan).1, rfl, rfl⟩

/-- A row whose strings and lists are no longer than assumed is written in the room
that is estimated for it, and the regions for its key and its value keep the cells
that they have at first. If all columns of one half are of fixed width, every row
takes just what is estimated for this half, absent values or not. -/
theorem encode_within_room {schemaVersion : Int32} {commonId : Int64}
    (h : Encoder.of? schemaVersion columns commonId settings = .ok encoder) (tag : UInt8)
    (record : Record) :
    encoder.keyRoom = columns.keyRoom settings ∧ encoder.valueRoom = columns.valueRoom settings ∧
    (∀ key, encoder.encodeKey tag record = .ok key →
      (record.Within settings columns.keyColumns → key.length ≤ encoder.keyRoom ∧
        ∃ region, encoder.writeKey tag record = .ok region ∧ region.toBytes = key ∧
          region.capacity = max encoder.keyRoom leastCapacity) ∧
      ((∀ column ∈ columns.keyColumns, column.type.width?.isSome = true) →
        key.length = encoder.keyRoom)) ∧
    (∀ value, encoder.encodeValue record = .ok value →
      (record.Within settings columns.valueColumns → value.length ≤ encoder.valueRoom ∧
        ∃ region, encoder.writeValue record = .ok region ∧ region.toBytes = value ∧
          region.capacity = max encoder.valueRoom leastCapacity) ∧
      ((∀ column ∈ columns.valueColumns, column.type.width?.isSome = true) →
        value.length = encoder.valueRoom)) := by
  obtain ⟨rfl, hkeyRoom, hvalueRoom⟩ := room_of_of? h
  refine ⟨hkeyRoom, hvalueRoom, ?_, ?_⟩
  · intro key hkey
    obtain ⟨-, hfills, -⟩ := encodeKey_eq_ok hkey
    have hlength := length_of_encodeKey hkey
    constructor
    · intro hwithin
      have hle : key.length ≤ encoder.keyRoom := by
        rw [hlength, hkeyRoom]
        exact Nat.add_le_add_left (Record.length_bytesBy_le hfills hwithin
          fun _ _ hadmits hshort => Column.length_keyBytes_le hadmits hshort) _
      exact ⟨hle, capacity_of_writeKey hkey hle⟩
    · intro hfixed
      rw [hlength, hkeyRoom]
      exact congrArg _ (Record.length_bytesBy_eq hfills hfixed
        fun _ _ _ hadmits hwidth => Column.length_keyBytes_eq hadmits hwidth)
  · intro value hvalue
    have hfills := fills_of_encodeValue hvalue
    have hlength := length_of_encodeValue hvalue
    constructor
    · intro hwithin
      have hle : value.length ≤ encoder.valueRoom := by
        rw [hlength, hvalueRoom]
        exact Nat.add_le_add_left (Record.length_bytesBy_le hfills hwithin
          fun _ _ hadmits hshort => Column.length_valueBytes_le hadmits hshort) _
      exact ⟨hle, capacity_of_writeValue hvalue hle⟩
    · intro hfixed
      rw [hlength, hvalueRoom]
      exact congrArg _ (Record.length_bytesBy_eq hfills hfixed
        fun _ _ _ hadmits hwidth => Column.length_valueBytes_eq hadmits hwidth)

/-- A key string of eight bytes, just the length assumed, which takes a second
group, and a value of one absent number, which takes the room of a present one. -/
theorem encode_within_room_at_whole_group :
    let columns : Schema := [{ type := .scalar .string, ordinal := 1, isKey := true },
      { type := .scalar .int64, ordinal := 0 }]
    let settings : Settings := { stringLength := 8 }
    let row : Record := ⟨[none, some (.scalar .string "Mulde-12")]⟩
    ∃ encoder key value, Encoder.of? 1 columns 5 settings = .ok encoder ∧
      encoder.encodeKey 114 row = .ok key ∧ encoder.encodeValue row = .ok value ∧
      row.Within settings columns.keyColumns ∧ key.length ≤ encoder.keyRoom ∧
      (∃ region, encoder.writeKey 114 row = .ok region ∧ region.capacity = 32) ∧
      (∀ column ∈ columns.valueColumns, column.type.width?.isSome = true) ∧
      value.length = encoder.valueRoom := by
  intro columns settings row
  let encoder : Encoder :=
    { plan := ⟨columns, .big, rfl⟩, schemaVersion := 1, commonId := 5,
      keyRoom := columns.keyRoom settings, valueRoom := columns.valueRoom settings }
  have hencoder : Encoder.of? 1 columns 5 settings = .ok encoder := rfl
  have hkey : encoder.encodeKey 114 row =
      .ok [114, 0, 0, 0, 0, 0, 0, 0, 5, 1, 77, 117, 108, 100, 101, 45, 49, 50, 255,
        0, 0, 0, 0, 0, 0, 0, 0, 247, 0, 0, 0, 1] := by decide +kernel
  have hvalue : encoder.encodeValue row = .ok [0, 0, 0, 1, 0, 0, 0, 0, 0, 0, 0, 0, 0] := by
    decide +kernel
  have hwithin : row.Within settings columns.keyColumns := by
    intro column hmem slot hslot value hvalue
    obtain rfl : column = columns[0] := List.mem_singleton.1 hmem
    cases hslot
    cases hvalue
    exact Nat.le_of_eq (by decide +kernel : (Utf8.encode "Mulde-12").length = 8)
  have hfixed : ∀ column ∈ columns.valueColumns, column.type.width?.isSome = true := by decide
  obtain ⟨-, -, hkeys, hvalues⟩ := encode_within_room hencoder 114 row
  obtain ⟨hle, region, hwrite, -, hcapacity⟩ := (hkeys _ hkey).1 hwithin
  exact ⟨encoder, _, _, hencoder, hkey, hvalue, hwithin, hle,
    ⟨region, hwrite, hcapacity.trans (by decide +kernel)⟩, hfixed, (hvalues _ hvalue).2 hfixed⟩

end Encoder

end KeyedRows
