import QueryTables.Scan
import QueryTables.Slices

/-!
# The scan with a cursor

The scan of a squeezed query, done with a byte offset into it, the cursor. It alternates between two
calls: one takes the next token and moves the cursor behind it and the space that follows; the other
takes the identifier at the cursor, if there is one, and is made behind a keyword. A cursor at which
the text cannot be cut ends the scan.
-/

namespace QueryTables

/-- Takes the token at the cursor and the space behind it, if there is text. With it comes the
cursor behind them. -/
def nextToken (buffer : Text) (cursor : Nat) : Except BadSlice (Option (Text × Text) × Nat) :=
  match Text.cutAt? cursor buffer with
  | none | some (_, []) => .ok (none, cursor)
  | some (_, rest) =>
      match Text.offset? (· == ' ') rest with
      | some stop => (slice rest stop).map fun parts => (some (parts.1, [' ']), cursor + (stop + 1))
      | none => .ok (some (rest, []), cursor + Text.byteLength rest)

/-- Takes the literal of the identifier at the cursor, if there is one. With it comes the cursor
behind it. -/
def recognizeName (buffer : Text) (cursor : Nat) : Except BadSlice (Option (Text × Shape) × Nat) :=
  match Text.cutAt? cursor buffer with
  | none => .ok (none, cursor)
  | some (_, rest) =>
      (firstExtent rest Shape.all).bind fun
        | none => .ok (none, cursor)
        | some (length, shape) =>
            (slice rest length).map fun parts => (some (parts.1, shape), cursor + length)

/-- What the scan looks for next: a token, or an identifier behind a keyword. -/
inductive Phase where
  | token
  | name
deriving DecidableEq, Repr

/-- Where the scan stands. -/
structure Place where
  cursor : Nat
  phase : Phase
deriving DecidableEq, Repr

/-- The phase behind a token. -/
def Phase.behind (token : Text) : Phase :=
  if (Keyword.ofToken? token).isSome then .name else .token

/-- Makes the next call: the pieces of the text that it takes, and the place behind them. There is
none where no token is left. -/
def advance (buffer : Text) (place : Place) : Except BadSlice (Option (List Text × Place)) :=
  match place.phase with
  | .token =>
      (nextToken buffer place.cursor).map fun
        | (some (token, gap), cursor) => some ([token ++ gap], ⟨cursor, .behind token⟩)
        | (none, _) => none
  | .name =>
      (recognizeName buffer place.cursor).map fun
        | (some (literal, _), cursor) => some ([literal], ⟨cursor, .token⟩)
        | (none, cursor) => some ([], ⟨cursor, .token⟩)

/-- The places that the scan reaches, with the number of calls made and the pieces taken by then. -/
inductive Reaches (buffer : Text) : Nat → List Text → Place → Prop where
  | start : Reaches buffer 0 [] ⟨0, .token⟩
  | call {count : Nat} {pieces found : List Text} {place following : Place}
      (hreaches : Reaches buffer count pieces place)
      (hcall : advance buffer place = .ok (some (found, following))) :
      Reaches buffer (count + 1) (pieces ++ found) following

end QueryTables
