import QueryTables.Text

/-!
# The bytes of texts

The bytes that stand for a text are those of its characters in a row (`bytes_eq`), so that texts and
their bytes can be cut at the same places. An ASCII character is known by its one byte, which stands
for nothing else (`code_of_byte`).
-/

namespace QueryTables.Text

/-- The bytes of an array one after the other, from a place on. -/
theorem bytes_from (bytes : ByteArray) (place : Nat) (read : List UInt8) :
    ByteArray.toList.loop bytes place read = read.reverse ++ bytes.data.toList.drop place := by
  fun_induction ByteArray.toList.loop bytes place read with
  | case1 place read hplace ih =>
      have hlength : place < bytes.data.toList.length := hplace
      have hbyte : bytes.get! place = bytes.data.toList[place] :=
        getElem!_pos bytes.data place hplace
      rw [ih, List.drop_eq_getElem_cons hlength, hbyte, List.reverse_cons, List.append_assoc,
        List.singleton_append]
  | case2 place read hplace =>
      have hlength : bytes.data.toList.length ≤ place := Nat.le_of_not_lt hplace
      rw [List.drop_eq_nil_of_le hlength, List.append_nil]

/-- An array of bytes holds the bytes that it lists. -/
theorem list_of_bytes (bytes : ByteArray) : bytes.toList = bytes.data.toList :=
  bytes_from bytes 0 []

/-- The bytes of a text are those of its characters one after the other. -/
theorem bytes_eq (text : Text) : (toBytes text).toList = text.flatMap String.utf8EncodeChar := by
  rw [list_of_bytes, toBytes, String.toUTF8_eq_toByteArray, String.toByteArray_ofList,
    List.utf8Encode, List.toList_data_toByteArray]

/-- The bytes of two texts one after the other. -/
theorem bytes_append (left right : Text) :
    (toBytes (left ++ right)).toList = (toBytes left).toList ++ (toBytes right).toList := by
  simp only [bytes_eq, List.flatMap_append]

/-- A text is read back from the bytes that stand for it. -/
theorem read_bytes (text : Text) : ofBytes? ⟨(toBytes text).toList.toArray⟩ = some text := by
  rw [list_of_bytes, Array.toArray_toList]
  exact ofBytes?_toBytes text

/-- A byte below 128 stands only for the character with that code point. -/
theorem code_of_byte {c : Char} {byte : UInt8} (hbyte : byte.toNat < 128)
    (h : byte ∈ String.utf8EncodeChar c) : c.toNat = byte.toNat := by
  unfold String.utf8EncodeChar at h
  extract_lets value at h
  have hvalue : value = c.toNat := rfl
  rw [← hvalue]
  clear_value value
  split at h
  · rw [List.mem_singleton] at h
    rw [h, UInt8.toNat_ofNat']
    omega
  · have hhigh : ∀ number, 128 ≤ number % 256 → byte ≠ UInt8.ofNat number := by
      rintro number hnumber rfl
      rw [UInt8.toNat_ofNat'] at hbyte
      omega
    split at h
    · simp only [List.mem_cons, List.not_mem_nil, or_false] at h
      rcases h with h | h <;> exact absurd h (hhigh _ (by omega))
    · split at h <;> simp only [List.mem_cons, List.not_mem_nil, or_false] at h
      · rcases h with h | h | h <;> exact absurd h (hhigh _ (by omega))
      · rcases h with h | h | h | h <;> exact absurd h (hhigh _ (by omega))

/-- A text without line ends has no byte that stands for one. -/
theorem no_line_feed {text : Text} (h : '\n' ∉ text) : 10 ∉ (toBytes text).toList := by
  rw [bytes_eq, List.mem_flatMap]
  rintro ⟨c, hc, hbyte⟩
  have hcode : c.toNat = '\n'.toNat := code_of_byte (by decide) hbyte
  exact h (Char.toNat_inj.1 hcode ▸ hc)

end QueryTables.Text
