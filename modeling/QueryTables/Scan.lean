import QueryTables.Identifier.Reader
import QueryTables.Keyword
import QueryTables.Text.Spacing

/-!
# The scan of a query

A squeezed query is read in steps. A step takes the token up to the next space, and that space;
when the token is a clause keyword it also takes the identifier that stands right behind, if
there is one. The next step starts where the last one ended, which after an identifier may be
inside a word. `flatMap_consumed_steps` says that the steps make up the whole text.
-/

namespace QueryTables

/-- One step of the scan: a token that is no keyword, or a clause with its keyword, the token
that spells it and the identifier behind it. The gap is the space after the token, or nothing at
the end of the text. -/
inductive Step where
  | passed (token gap : Text)
  | clause (keyword : Keyword) (token gap : Text) (identifier : Option Identifier)
deriving DecidableEq, Repr

namespace Step

/-- The text that a step takes. -/
def consumed : Step → Text
  | passed token gap => token ++ gap
  | clause _ token gap identifier => token ++ gap ++ (identifier.map Identifier.literal).getD []

end Step

/-- The token at the start of a text: everything before the first space. -/
def leadingToken (text : Text) : Text :=
  text.takeWhile (· != ' ')

/-- The space behind the token at the start of a text, or nothing where the text ends. -/
def leadingGap (text : Text) : Text :=
  (text.dropWhile (· != ' ')).take 1

/-- What follows the token at the start of a text and the space behind it. -/
def afterGap (text : Text) : Text :=
  (text.dropWhile (· != ' ')).drop 1

/-- The token, the space behind it and what follows make up the text. -/
theorem leadingToken_append (text : Text) :
    leadingToken text ++ leadingGap text ++ afterGap text = text := by
  rw [leadingToken, leadingGap, afterGap, List.append_assoc, List.take_append_drop,
    List.takeWhile_append_dropWhile]

/-- Taking a token and its space leaves less than there was. -/
theorem length_afterGap_lt {text : Text} (h : text ≠ []) :
    (afterGap text).length < text.length := by
  have hsplit := congrArg List.length (List.takeWhile_append_dropWhile (p := (· != ' ')) (l := text))
  have hpos := List.length_pos_iff.2 h
  simp only [List.length_append] at hsplit
  simp only [afterGap, List.length_drop]
  omega

/-- The identifier that the scan takes behind a keyword does not lengthen what is left. -/
theorem Identifier.length_le_of_read? {text rest : Text} {identifier : Identifier}
    (h : Identifier.read? text = some (identifier, rest)) : rest.length ≤ text.length := by
  have := congrArg List.length (Identifier.literal_append_of_read? h)
  simp only [List.length_append] at this
  omega

/-- The steps in which a squeezed text is read. -/
def steps (text : Text) : List Step :=
  if _hne : text = [] then []
  else match Keyword.ofToken? (leadingToken text) with
    | none => .passed (leadingToken text) (leadingGap text) :: steps (afterGap text)
    | some keyword =>
        match _hread : Identifier.read? (afterGap text) with
        | none =>
            .clause keyword (leadingToken text) (leadingGap text) none :: steps (afterGap text)
        | some (identifier, rest) =>
            .clause keyword (leadingToken text) (leadingGap text) (some identifier) :: steps rest
termination_by text.length
decreasing_by
  · exact length_afterGap_lt _hne
  · exact length_afterGap_lt _hne
  · exact Nat.lt_of_le_of_lt (Identifier.length_le_of_read? _hread) (length_afterGap_lt _hne)

/-- The texts that the steps take make up the whole text. -/
theorem flatMap_consumed_steps (text : Text) : (steps text).flatMap Step.consumed = text := by
  fun_induction steps text with
  | case1 => simp
  | case2 text _ _ ih =>
      simpa [Step.consumed, ih] using leadingToken_append text
  | case3 text _ _ _ _ ih =>
      simpa [Step.consumed, ih] using leadingToken_append text
  | case4 text _ _ _ _ _ hread ih =>
      have hliteral := Identifier.literal_append_of_read? hread
      have hwhole := leadingToken_append text
      rw [hliteral] at hwhole
      simpa [Step.consumed, ih] using hwhole

end QueryTables
