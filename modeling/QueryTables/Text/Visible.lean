import QueryTables.Text

/-!
# Texts without control sequences

A message that repeats what was given leaves out control characters other than white space, and the
sequences that would control a terminal. A sequence starts with the escape character; how far it
goes depends on the characters behind it. A new escape character ends one sequence and starts
another.

Terminals read bytes. A byte that ends a sequence also ends it as a part of a longer character, of
which then nothing is left.
-/

namespace QueryTables.Text

/-- Where a text stands with regard to control sequences: outside, behind the escape character,
behind characters that only prepare the last one, in a sequence that a letter ends, in the head of
one that holds a text of its own or behind characters that prepare that text, in the text of such a
sequence, or in a command to the system, whose text ends differently. -/
inductive Sequence where
  | outside
  | escape
  | escapePrepared
  | parameters
  | head (started : Bool)
  | headPrepared
  | string
  | command
deriving DecidableEq, Repr

namespace Sequence

/-- The character is in the range of ASCII characters. -/
def within (low high : Nat) (c : Char) : Bool :=
  low ≤ c.toNat && c.toNat ≤ high

/-- One of the bytes of the character ends the text that a sequence holds. -/
def endsString (c : Char) : Bool :=
  (String.utf8EncodeChar c).contains 0x9c

/-- The place behind a character that stands inside a sequence. -/
def next (c : Char) : Sequence → Sequence
  | outside => outside
  | escape =>
      if within 0x20 0x2f c then escapePrepared
      else if c = '[' then parameters
      else if c = ']' then command
      else if c = 'P' then head false
      else if c = 'X' ∨ c = '^' ∨ c = '_' then string
      else if within 0x30 0x7e c then outside
      else escape
  | escapePrepared => if within 0x30 0x7e c then outside else escapePrepared
  | parameters => if within 0x40 0x7e c then outside else parameters
  | head started =>
      if within 0x20 0x2f c then headPrepared
      else if within 0x30 0x3b c then head true
      else if within 0x3c 0x3f c then if started then string else head true
      else if within 0x40 0x7e c then string
      else head started
  | headPrepared => if within 0x30 0x7e c then string else headPrepared
  | string => if endsString c then outside else string
  | command => if c = '\x07' then outside else command

/-- A line end or tabulator inside the sequence is not part of it. -/
def letsSpaceThrough : Sequence → Bool
  | outside | escape | escapePrepared | parameters => true
  | head _ | headPrepared | string | command => false

end Sequence

/-- The character is white space below the space. -/
def isControlSpace (c : Char) : Bool :=
  c == '\t' || c == '\n' || c == '\x0c' || c == '\r'

/-- The character shows, or is white space. -/
def isVisible (c : Char) : Bool :=
  isControlSpace c || (32 ≤ c.toNat && c.toNat != 127)

/-- The place behind a character that is kept: where the text stood before, unless the character is
beyond ASCII, which no sequence goes on behind. -/
def placeBehindKept (place : Sequence) (c : Char) : Sequence :=
  if c.toNat < 128 then place else .outside

/-- What remains of a text, given where it stands, and whether it stands in a stretch that is kept.
Such a stretch goes on to the next control character. -/
def visibleFrom (place : Sequence) (keeping : Bool) : Text → Text
  | [] => []
  | c :: rest =>
      if c = '\x1b' then visibleFrom .escape false rest
      else if c = '\x18' ∨ c = '\x1a' then visibleFrom .outside false rest
      else if keeping ∨ place = .outside then
        if isVisible c then c :: visibleFrom (placeBehindKept place c) true rest
        else visibleFrom place false rest
      else if isControlSpace c ∧ place.letsSpaceThrough then c :: visibleFrom place true rest
      else visibleFrom (place.next c) false rest

/-- A text without control characters and control sequences. -/
def visible (text : Text) : Text :=
  visibleFrom .outside true text

end QueryTables.Text
