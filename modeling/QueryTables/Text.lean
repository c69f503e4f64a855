/-!
# Text

A text is a list of Unicode scalar values. Everything the library reads or writes is a text:
queries, names, arguments, paths, file contents once decoded, and reports. `String` appears only
as a literal and where bytes are decoded. Offsets into a text count the bytes of its UTF-8 form.
-/

namespace QueryTables

/-- A text: its characters from first to last. -/
abbrev Text := List Char

namespace Text

/-- The number of bytes in the UTF-8 form of a text. -/
def byteLength : Text → Nat
  | [] => 0
  | c :: rest => c.utf8Size + byteLength rest

/-- A text with each ASCII letter replaced by its small form. -/
def lowered (text : Text) : Text :=
  text.map Char.toLower

/-- A text with each ASCII letter replaced by its capital form. -/
def capitalized (text : Text) : Text :=
  text.map Char.toUpper

/-- Two texts agree up to the case of ASCII letters. -/
def sameIgnoringCase (left right : Text) : Bool :=
  lowered left == lowered right

/-- The texts in order with a separator between neighbours. -/
def joinedBy (separator : Text) : List Text → Text
  | [] => []
  | [last] => last
  | first :: second :: rest => first ++ separator ++ joinedBy separator (second :: rest)

/-- The pieces of a text between occurrences of a separating character: one piece more than there
are separators. -/
def pieces (separator : Char) : Text → List Text
  | [] => [[]]
  | c :: rest =>
      if c = separator then [] :: pieces separator rest
      else match pieces separator rest with
        | [] => [[c]]
        | piece :: pieces => (c :: piece) :: pieces

/-- The bytes of the UTF-8 form of a text. -/
def toBytes (text : Text) : ByteArray :=
  (String.ofList text).toUTF8

/-- The text that bytes are the UTF-8 form of, if there is one. -/
def ofBytes? (bytes : ByteArray) : Option Text :=
  (String.fromUTF8? bytes).map String.toList

@[simp] theorem byteLength_nil : byteLength [] = 0 := rfl

@[simp] theorem byteLength_cons (c : Char) (text : Text) :
    byteLength (c :: text) = c.utf8Size + byteLength text := rfl

/-- The length of two texts written one after the other is the sum of their lengths. -/
@[simp] theorem byteLength_append (left right : Text) :
    byteLength (left ++ right) = byteLength left + byteLength right := by
  induction left with
  | nil => simp
  | cons c left ih => simp [ih, Nat.add_assoc]

/-- A text is read back from its own UTF-8 form. -/
theorem ofBytes?_toBytes (text : Text) : ofBytes? (toBytes text) = some text := by
  have hread : String.fromUTF8? (String.ofList text).toUTF8 = some (String.ofList text) := by
    simp only [String.fromUTF8?, String.toUTF8_eq_toByteArray,
      dif_pos (String.ofList text).isValidUTF8]
    rfl
  rw [ofBytes?, toBytes, hread]
  simp

/-- A text that is read from bytes has them as its UTF-8 form. -/
theorem toBytes_of_ofBytes? {bytes : ByteArray} {text : Text} (h : ofBytes? bytes = some text) :
    toBytes text = bytes := by
  obtain ⟨string, hread, rfl⟩ := Option.map_eq_some_iff.1 h
  unfold String.fromUTF8? at hread
  split at hread
  · cases hread
    rw [toBytes, String.ofList_toList]
    rfl
  · cases hread

end Text

end QueryTables
