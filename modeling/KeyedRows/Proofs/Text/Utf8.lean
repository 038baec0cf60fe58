import KeyedRows.Text.Utf8

namespace KeyedRows.Utf8

private theorem toList_loop_eq (array : ByteArray) (left place : Nat) (read : Bytes)
    (hleft : left + place = array.size) :
    ByteArray.toList.loop array place read = read.reverse ++ array.data.toList.drop place := by
  induction left generalizing place read with
  | zero =>
    have hend : ¬place < array.size := by omega
    have hlength : array.data.toList.length ≤ place := by
      rw [Array.length_toList]
      exact Nat.le_of_not_lt hend
    rw [ByteArray.toList.loop, if_neg hend, List.drop_eq_nil_of_le hlength, List.append_nil]
  | succ left ih =>
    have hin : place < array.size := by omega
    have hplace : place < array.data.toList.length := hin
    have hbyte : array.get! place = array.data.toList[place] := by
      rw [ByteArray.get!, getElem!_pos array.data place hin, Array.getElem_toList]
    rw [ByteArray.toList.loop, if_pos hin, ih (place + 1) _ (by omega), List.reverse_cons,
      List.append_assoc, List.drop_eq_getElem_cons hplace, hbyte]
    rfl

private theorem toByteArray_encode (text : String) : (encode text).toByteArray = text.toUTF8 := by
  have hlist : encode text = text.toUTF8.data.toList :=
    toList_loop_eq text.toUTF8 text.toUTF8.size 0 [] rfl
  apply ByteArray.ext
  rw [hlist, List.data_toByteArray, Array.toArray_toList]

/-- The bytes of a text are those of its characters one after the other. -/
theorem encode_ofList (chars : List Char) :
    encode (String.ofList chars) = chars.flatMap String.utf8EncodeChar := by
  have hdata := congrArg ByteArray.data (toByteArray_encode (String.ofList chars))
  rw [String.toUTF8, String.toByteArray_ofList, List.utf8Encode, List.data_toByteArray,
    List.data_toByteArray] at hdata
  exact List.toArray_inj hdata

/-- The bytes of a text are read as that text. -/
theorem decode_encode (text : String) : decode (encode text) = .ok text := by
  have hvalid : text.toUTF8.IsValidUTF8 := text.isValidUTF8
  rw [decode, toByteArray_encode, String.fromUTF8?, dif_pos hvalid]
  rfl

/-- A text is only read from its own bytes. Overlong forms and surrogates are
refused, so there is no second way to store a text. -/
theorem encode_eq_of_decode {bytes : Bytes} {text : String} (h : decode bytes = .ok text) :
    encode text = bytes := by
  have harray : text.toUTF8 = bytes.toByteArray := by
    rw [decode, String.fromUTF8?] at h
    split at h
    · rename_i found hfound
      split at hfound
      · cases hfound
        cases h
        rfl
      · cases hfound
    · cases h
  have hdata := congrArg ByteArray.data ((toByteArray_encode text).trans harray)
  rw [List.data_toByteArray, List.data_toByteArray] at hdata
  exact List.toArray_inj hdata

/-- Texts are the same exactly if their bytes are. -/
theorem encode_inj {a b : String} : encode a = encode b ↔ a = b := by
  constructor
  · intro h
    have ha := decode_encode a
    rw [h, decode_encode] at ha
    exact (Except.ok.inj ha).symm
  · exact congrArg encode

end KeyedRows.Utf8
