import QueryTables.QualifiedName

/-!
# Slices by byte offsets

The scan of a query can be done with offsets in place of what is left of the text. An offset counts
bytes, and a text can be cut only where a character ends: a slice anywhere else fails. Here the
readers of identifiers are given in this form, in which they say how many bytes they read.
-/

namespace QueryTables

namespace Text

/-- A text cut in two at a byte offset. It cannot be cut behind its end or inside a character. -/
def cutAt? : Nat → Text → Option (Text × Text)
  | 0, text => some ([], text)
  | _ + 1, [] => none
  | offset + 1, c :: rest =>
      if c.utf8Size ≤ offset + 1 then
        (cutAt? (offset + 1 - c.utf8Size) rest).map fun parts => (c :: parts.1, parts.2)
      else none

/-- The byte offset of the first character that is looked for. -/
def offset? (p : Char → Bool) : Text → Option Nat
  | [] => none
  | c :: rest => if p c then some 0 else (offset? p rest).map (c.utf8Size + ·)

end Text

/-- A slice that fails: the offset is out of range or inside a character. -/
structure BadSlice where
  text : Text
  offset : Nat
deriving DecidableEq, Repr

/-- The two slices of a text at a byte offset. -/
def slice (text : Text) (offset : Nat) : Except BadSlice (Text × Text) :=
  match Text.cutAt? offset text with
  | some parts => .ok parts
  | none => .error ⟨text, offset⟩

/-- How far the quoted part at the start of a text reaches. -/
def quotedExtent : Text → Option Nat
  | [] => none
  | c :: inner =>
      if c = quoteMark then
        match Text.offset? (· == quoteMark) inner with
        | some close => if 0 < close then some (close + 2) else none
        | none => none
      else none

/-- How far the word at the start of a text reaches. -/
def wordExtent (text : Text) : Option Nat :=
  let length := (Text.offset? (fun c => !Text.isWordCharacter c) text).getD (Text.byteLength text)
  if 0 < length then some length else none

/-- How far a dot and a further part behind the first part reach together with it. -/
def dottedExtent (text : Text) (head : Nat) (tail : Text → Option Nat) :
    Except BadSlice (Option Nat) :=
  (slice text head).map fun parts =>
    (readDot? parts.2).bind fun after => (tail after).map (head + 1 + ·)

/-- How far a part reaches that must not have a dot behind it. -/
def undottedExtent (text : Text) (length : Nat) : Except BadSlice (Option Nat) :=
  (slice text length).map fun parts =>
    if (readDot? parts.2).isSome then none else some length

/-- How far an identifier reaches of which the first part, if there is one, reaches that far. -/
def extentFrom (first : Option Nat) (behind : Nat → Except BadSlice (Option Nat)) :
    Except BadSlice (Option Nat) :=
  match first with
  | some length => behind length
  | none => .ok none

/-- How far the identifier of a shape at the start of a text reaches. -/
def Shape.extent (shape : Shape) (text : Text) : Except BadSlice (Option Nat) :=
  match shape with
  | .quotedQualified =>
      extentFrom (quotedExtent text) fun head => dottedExtent text head quotedExtent
  | .quotedSchemaQualified =>
      extentFrom (quotedExtent text) fun head => dottedExtent text head wordExtent
  | .qualified => extentFrom (wordExtent text) fun head => dottedExtent text head wordExtent
  | .quoted => extentFrom (quotedExtent text) fun length => undottedExtent text length
  | .bare => extentFrom (wordExtent text) fun length => undottedExtent text length

/-- How far the identifier of the first shape that fits reaches, and the shape. -/
def firstExtent (text : Text) : List Shape → Except BadSlice (Option (Nat × Shape))
  | [] => .ok none
  | shape :: shapes =>
      (shape.extent text).bind fun
        | some length => .ok (some (length, shape))
        | none => firstExtent text shapes

/-- A literal cut in two at a byte offset: behind its leading quoted part, or at its first dot. -/
def cutHeadAt (literal : Text) : Except BadSlice (Text × Text) :=
  match quotedExtent literal with
  | some length => slice literal length
  | none =>
      match Text.offset? (· == '.') literal with
      | some dot => slice literal dot
      | none => .ok (literal, [])

end QueryTables
