import KeyedRows.Cursor.Unread
import KeyedRows.Proofs.Reader.Sequence
import KeyedRows.Region.Contents

namespace KeyedRows.Reader

variable {α β : Type}

/-- A reader takes `bytes` from the front of what is unread at a cursor with an
order, and gives `a`, whatever stands behind them. -/
def Consumes (order : ByteOrder) (reader : Reader α) (bytes : Bytes) (a : α) : Prop :=
  ∀ cursor rest, cursor.order = order → cursor.unread = bytes ++ rest →
    ∃ after, reader cursor = (.ok a, after) ∧ after.unread = rest ∧ after.order = order

variable (order : ByteOrder)

theorem consumes_pure (a : α) : Consumes order (pure a) [] a := by
  intro cursor rest horder hunread
  exact ⟨cursor, rfl, hunread, horder⟩

variable {order} in
/-- Two readers one behind the other take the bytes of the first and then those of
the second. What the second one takes may depend on what the first one gives, and
only that. -/
theorem Consumes.bind {reader : Reader α} {next : α → Reader β} {early late : Bytes} {a : α} {b : β}
    (hreader : Consumes order reader early a) (hnext : Consumes order (next a) late b) :
    Consumes order (reader >>= next) (early ++ late) b := by
  intro cursor rest horder hunread
  rw [List.append_assoc] at hunread
  obtain ⟨middle, hread, hmiddle, horder⟩ := hreader cursor (late ++ rest) horder hunread
  rw [bind_of_ok hread]
  exact hnext middle rest horder hmiddle

variable {order} in
/-- What is done with the result takes no more bytes. -/
theorem Consumes.map {reader : Reader α} {bytes : Bytes} {a : α} (f : α → β)
    (hreader : Consumes order reader bytes a) :
    Consumes order (reader >>= fun a => pure (f a)) bytes (f a) := by
  rw [← List.append_nil bytes]
  exact hreader.bind (consumes_pure order (f a))

theorem consumes_byte (b : UInt8) : Consumes order byte [b] b := by
  intro cursor rest horder hunread
  obtain ⟨after, hread, hafter, hsame⟩ := byte_of_unread_eq_cons hunread
  exact ⟨after, hread, hafter, hsame.trans horder⟩

private theorem length_le_remaining {cursor : Cursor} {bytes rest : Bytes}
    (hunread : cursor.unread = bytes ++ rest) : bytes.length ≤ cursor.remaining := by
  rw [← cursor.length_unread, hunread, List.length_append]
  exact Nat.le_add_right ..

theorem consumes_take (bytes : Bytes) : Consumes order (take bytes.length) bytes bytes := by
  intro cursor rest horder hunread
  obtain ⟨after, hread, hafter, hsame⟩ := take_of_le (length_le_remaining hunread)
  rw [hunread, List.take_left' rfl] at hread
  rw [hunread, List.drop_left' rfl] at hafter
  exact ⟨after, hread, hafter, hsame.trans horder⟩

/-- Moving on by the length of a string takes the string, whatever its bytes are. -/
theorem consumes_skip (bytes : Bytes) : Consumes order (skip bytes.length) bytes () := by
  intro cursor rest horder hunread
  obtain ⟨after, hread, hafter, hsame⟩ := skip_of_le (length_le_remaining hunread)
  rw [hunread, List.drop_left' rfl] at hafter
  exact ⟨after, hread, hafter, hsame.trans horder⟩

private theorem consumes_numberIn (layout : ByteOrder) {width n : Nat} (hn : n < Nat.pow 256 width) :
    Consumes order (numberIn layout width) (layout.word width n) n := by
  have htake := consumes_take order (layout.word width n)
  rw [ByteOrder.length_word] at htake
  have h := htake.map layout.number
  rwa [ByteOrder.number_word, Nat.mod_eq_of_lt hn] at h

private theorem consumes_number {width n : Nat} (hn : n < Nat.pow 256 width) :
    Consumes order (number width) (order.word width n) n := by
  intro cursor rest horder hunread
  change ∃ after, numberIn cursor.order width cursor = _ ∧ _
  rw [horder]
  exact consumes_numberIn order order hn cursor rest horder hunread

/-- A signed number of 32 bits is taken from its word in the order of the cursor. -/
theorem consumes_int32 (n : Int32) :
    Consumes order int32 (order.word 4 n.toUInt32.toNat) n := by
  have hnumber : Consumes order (number 4) (order.word 4 n.toUInt32.toNat) n.toUInt32.toNat :=
    consumes_number order n.toUInt32.toNat_lt
  have h := hnumber.map fun n => (UInt32.ofNat n).toInt32
  rwa [UInt32.ofNat_toNat, Int32.toInt32_toUInt32] at h

theorem consumes_int64 (n : Int64) :
    Consumes order int64 (order.word 8 n.toUInt64.toNat) n := by
  have hnumber : Consumes order (number 8) (order.word 8 n.toUInt64.toNat) n.toUInt64.toNat :=
    consumes_number order n.toUInt64.toNat_lt
  have h := hnumber.map fun n => (UInt64.ofNat n).toInt64
  rwa [UInt64.ofNat_toNat, Int64.toInt64_toUInt64] at h

/-- An unsigned number of 32 bits is taken from its big-endian word, whatever the
order of the cursor. The bound says that the number is not cut to fit. -/
theorem consumes_uint32 {n : Nat} (hn : n < UInt32.size) :
    Consumes order uint32 (ByteOrder.big.word 4 n) (UInt32.ofNat n) :=
  (consumes_numberIn order .big hn).map UInt32.ofNat

/-- An unsigned number of 64 bits is taken from its big-endian word, whatever the
order of the cursor. The bound says that the number is not cut to fit. -/
theorem consumes_uint64 {n : Nat} (hn : n < UInt64.size) :
    Consumes order uint64 (ByteOrder.big.word 8 n) (UInt64.ofNat n) :=
  (consumes_numberIn order .big hn).map UInt64.ofNat

/-- A length that fits its field is read as it was written. The bound keeps it from
being read as a negative one. -/
theorem consumes_length {n : Nat} (hn : n < Frame.lengthLimit) :
    Consumes order length (order.word Frame.lengthSize n) n := by
  have hint := consumes_int32 order (Int32.ofNat n)
  have hvalue : (Int32.ofNat n).toInt = n := Int32.toInt_ofNat_of_lt hn
  rw [Region.toNat_toUInt32_ofNat hn] at hint
  let accept : Int32 → Reader Nat := fun n =>
    if n.toInt < 0 then fail (.negativeLength n.toInt) else pure n.toInt.toNat
  have haccept : Consumes order (accept (Int32.ofNat n)) [] n := by
    simp only [accept, hvalue, if_neg (Int.not_lt.2 (Int.natCast_nonneg n)), Int.toNat_natCast]
    exact consumes_pure order n
  have h := hint.bind haccept
  rwa [List.append_nil] at h

/-- A payload is read behind its length. Its length must fit its field; its bytes
may be any. -/
theorem consumes_sized {bytes : Bytes} (hlength : bytes.length < Frame.lengthLimit) :
    Consumes order sized (order.word Frame.lengthSize bytes.length ++ bytes) bytes :=
  (consumes_length order hlength).bind (consumes_take order bytes)

/-- Things of one kind are read one behind the other. Only the items of the list
must be read back, not all there could be. -/
theorem consumes_repeated {reader : Reader α} {itemBytes : α → Bytes} {items : List α}
    (hitem : ∀ item ∈ items, Consumes order reader (itemBytes item) item) :
    Consumes order (repeated reader items.length) (items.flatMap itemBytes) items := by
  induction items with
  | nil => exact consumes_pure order []
  | cons item items ih =>
    have hrest := ih fun other hmem => hitem other (List.mem_cons_of_mem _ hmem)
    have hfirst := hitem item List.mem_cons_self
    exact hfirst.bind (hrest.map (item :: ·))

end KeyedRows.Reader
