import QueryTables.Proofs.Concatenation
import QueryTables.Proofs.Words

/-!
# Blanks only separate

Two queries with the same words have the same tables, and the same events at the same places of the
words. Read `sightings_trimmed` first: a space in front of a squeezed text moves every sighting by
one byte, and a space behind it moves none but that of a keyword at the very end
(`Scans.sightings_before_space`). So the scan of a query is told by its squeezed text without the
spaces at its ends, which is its words with single spaces between them
(`trimmed_squeeze_eq_joined`).
-/

namespace QueryTables

open Text

/-- The sighting with its offset counted otherwise. -/
def Sighting.moved (move : Nat → Nat) (sighting : Sighting) : Sighting :=
  { sighting with offset := move sighting.offset }

/-- The event with its offset counted otherwise, where it has one. -/
def Event.moved (move : Nat → Nat) : Event → Event
  | .keyword met offset => .keyword met (move offset)
  | .table name shape occurrences => .table name shape occurrences
  | .unrecognized met offset => .unrecognized met (move offset)

/-- An offset into a text as one into the text when it is trimmed: without the space at the start,
and not behind the end. -/
def trimmedOffset (text : Text) (offset : Nat) : Nat :=
  min (offset - if text.head? = some ' ' then 1 else 0) (byteLength (trimmedOnce text))

/-- Where an offset is counted from makes no other difference to the sightings. -/
theorem sightings_moved (first second : Nat) (list : List Step) :
    sightingsFrom (first + second) list =
      (sightingsFrom first list).map (Sighting.moved (· + second)) := by
  induction list generalizing first with
  | nil => rfl
  | cons step list ih =>
      have hlater := ih (first + step.consumed.byteLength)
      rw [Nat.add_right_comm] at hlater
      cases step with
      | passed token gap =>
          rw [sightings_passed, sightings_passed]
          exact hlater
      | clause keyword token gap identifier =>
          rw [sightings_clause, sightings_clause, List.map_cons, hlater, Nat.add_right_comm first]
          rfl

/-- A bound that no sighting exceeds moves none of them. -/
theorem sightings_bounded {text rest : Text} {list : List Step} (h : Scans text list rest)
    {offset bound : Nat} (hbound : offset + byteLength text ≤ bound) :
    (sightingsFrom offset list).map (Sighting.moved (min · bound)) = sightingsFrom offset list := by
  have hlength : byteLength (list.flatMap Step.consumed) ≤ byteLength text := by
    rw [h.parts, byteLength_append]
    omega
  have hsame : ∀ sighting ∈ sightingsFrom offset list,
      Sighting.moved (min · bound) sighting = sighting := by
    intro sighting hmem
    have hbounds := offset_bounds_of_sighting h hmem
    have hmin : min sighting.offset bound = sighting.offset := by omega
    rw [Sighting.moved, hmin]
  rw [List.map_congr_left hsame, List.map_id']

/-- Where no identifier is read, none is read with a space behind the text: it would have to end in
that space. -/
theorem Identifier.read_none_before_space {text : Text} (h : Identifier.read? text = none) :
    Identifier.read? (text ++ [' ']) = none := by
  rw [Option.eq_none_iff_forall_ne_some]
  intro found hfound
  obtain ⟨identifier, rest⟩ := found
  obtain ⟨hparts, hformed, hends⟩ := Identifier.read_iff.1 hfound
  rcases List.eq_nil_or_concat' rest with rfl | ⟨back, last, rfl⟩
  · rw [List.append_nil] at hparts
    have hlast := Identifier.last_of_literal_ne_space hformed
    rw [← hparts] at hlast
    exact hlast List.getLast?_concat
  · rw [← List.append_assoc] at hparts
    obtain ⟨htext, -⟩ := List.append_inj' hparts rfl
    have hread := Identifier.read_iff.2 ⟨htext, hformed, hends.of_append⟩
    rw [h] at hread
    cases hread

/-- Every identifier that can stand before a text can do so with a space behind the text. -/
theorem Identifier.EndsBefore.before_space {identifier : Identifier} {rest : Text}
    (h : identifier.EndsBefore rest) : identifier.EndsBefore (rest ++ [' ']) :=
  h.append fun _ => .inr (.inr rfl)

/-- With a space behind the text, the token at its start is the same, and the space is left with the
rest, or it is the gap behind a token that was all of the text. -/
theorem StartsWithToken.before_space {text token gap rest : Text}
    (h : StartsWithToken text token gap rest) :
    gap = [' '] ∧ StartsWithToken (text ++ [' ']) token [' '] (rest ++ [' ']) ∨
      gap = [] ∧ rest = [] ∧ StartsWithToken (text ++ [' ']) token [' '] [] := by
  rcases h.gap with rfl | ⟨rfl, rfl⟩
  · exact .inl ⟨rfl, h.append [' ']⟩
  · exact .inr ⟨rfl, rfl, ⟨by simp [h.parts], h.noSpace, .inl rfl⟩⟩

/-- With a space behind the text, a step takes the same and leaves the space with the rest, or it is
the last one and takes the space as its gap. -/
theorem Takes.before_space {text rest : Text} {step : Step} (h : Takes text step rest) :
    Takes (text ++ [' ']) step (rest ++ [' ']) ∨
      rest = [] ∧
        ((∃ token, step = .passed token [] ∧ Takes (text ++ [' ']) (.passed token [' ']) []) ∨
          ∃ keyword token, step = .clause keyword token [] none ∧
            Takes (text ++ [' ']) (.clause keyword token [' '] none) []) := by
  cases h with
  | @passed token _ _ hne htoken hkeyword =>
      rcases htoken.before_space with ⟨rfl, hlonger⟩ | ⟨rfl, rfl, hlonger⟩
      · exact .inl (.passed (by simp) hlonger hkeyword)
      · exact .inr ⟨rfl, .inl ⟨token, rfl, .passed (by simp) hlonger hkeyword⟩⟩
  | @unread token _ _ keyword htoken hkeyword hread =>
      have hnone := Identifier.read_none_before_space hread
      rcases htoken.before_space with ⟨rfl, hlonger⟩ | ⟨rfl, rfl, hlonger⟩
      · exact .inl (.unread hlonger hkeyword hnone)
      · exact .inr ⟨rfl, .inr ⟨keyword, token, rfl, .unread hlonger hkeyword hread⟩⟩
  | read htoken hkeyword hformed hends =>
      obtain rfl := (Takes.read htoken hkeyword hformed hends).gap_eq
      have hlonger := htoken.append [' ']
      rw [List.append_assoc] at hlonger
      exact .inl (.read hlonger hkeyword hformed hends.before_space)

/-- The empty text has no steps to be scanned in. -/
theorem Scans.eq_nil {rest : Text} {list : List Step} (h : Scans [] list rest) : list = [] := by
  cases h with
  | nil => rfl
  | cons hstep => exact absurd rfl hstep.ne_nil

/-- The first sightings are those of the first step. -/
theorem sightings_first (offset : Nat) (step : Step) (later : List Step) :
    sightingsFrom offset (step :: later) =
      sightingsFrom offset [step] ++ sightingsFrom (offset + step.consumed.byteLength) later := by
  simpa using sightings_append offset [step] later

/-- A space behind a text leaves the sightings where they are, but for that of a keyword at the very
end, which moves behind the space. -/
theorem Scans.sightings_before_space {text rest : Text} {list : List Step}
    (h : Scans text list rest) (hrest : rest = []) (offset : Nat) :
    (sightingsFrom offset (steps (text ++ [' ']))).map
        (Sighting.moved (min · (offset + byteLength text))) = sightingsFrom offset list := by
  induction h generalizing offset with
  | nil text =>
      rw [hrest, List.nil_append, steps_of_takes (takes_space []), steps_nil]
      rfl
  | @cons text middle _ step later hstep hlater ih =>
      have hparts := hstep.parts
      rcases hstep.before_space with hlonger | ⟨rfl, hlonger⟩
      · -- The first step is the same, and its sighting is not behind the text.
        have hfirst := sightings_bounded (.cons hstep (.nil middle))
          (Nat.le_refl (offset + byteLength text))
        have hothers := ih hrest (offset + step.consumed.byteLength)
        rw [Nat.add_assoc, ← byteLength_append, ← hparts] at hothers
        rw [steps_of_takes hlonger, sightings_first offset step, sightings_first offset step later,
          List.map_append, hfirst, hothers]
      · obtain rfl := hlater.eq_nil
        rcases hlonger with ⟨token, rfl, hlonger⟩ | ⟨keyword, token, rfl, hlonger⟩
        · rw [steps_of_takes hlonger, steps_nil]
          rfl
        · -- The keyword is all of the text, so its sighting was at the end before.
          have htext : text = token := by simpa [Step.consumed] using hparts
          have hmin : min (offset + byteLength (token ++ [' '])) (offset + byteLength text) =
              offset + byteLength (token ++ []) := by
            rw [htext, byteLength_append, List.append_nil]
            omega
          rw [steps_of_takes hlonger, steps_nil, sightings_clause, sightings_clause, List.map_cons,
            Sighting.moved, hmin]
          rfl

/-- The sightings in a text, with their offsets in the trimmed text, are those of the trimmed
text. -/
theorem sightings_trimmed (text : Text) :
    (sightingsFrom 0 (steps text)).map (Sighting.moved (trimmedOffset text)) =
      sightingsFrom 0 (steps (trimmedOnce text)) := by
  obtain ⟨lead, trail, hparts, hlead, htrail⟩ := trimmed_once_parts text
  unfold trimmedOffset
  generalize trimmedOnce text = trimmed at *
  have hscans := Scans.of_steps trimmed
  -- Behind the start, at most a space at the end is too much.
  have hbehind : (sightingsFrom 0 (steps (trimmed ++ trail))).map
      (Sighting.moved (min · (byteLength trimmed))) = sightingsFrom 0 (steps trimmed) := by
    rcases htrail with rfl | ⟨rfl, -⟩
    · simpa using hscans.sightings_before_space rfl 0
    · rw [List.append_nil]
      exact sightings_bounded hscans (Nat.le_of_eq (Nat.zero_add _))
  rw [List.append_assoc] at hparts
  rw [← hbehind]
  rcases hlead with ⟨rfl, hspace⟩ | ⟨rfl, hspace⟩
  · have hbefore : sightingsFrom 0 (steps text) =
        (sightingsFrom 0 (steps (trimmed ++ trail))).map (Sighting.moved (· + 1)) := by
      rw [hparts, List.singleton_append, steps_of_takes (takes_space _), sightings_passed]
      exact sightings_moved 0 1 _
    rw [hbefore, List.map_map, if_pos hspace]
    refine List.map_congr_left fun sighting _ => ?_
    show Sighting.moved _ (Sighting.moved _ sighting) = _
    simp [Sighting.moved]
  · rw [hparts, List.nil_append, if_neg (hparts ▸ hspace)]
    rfl

/-- The events of sightings that are moved are those of the sightings, moved likewise. -/
theorem events_moved (move : Nat → Nat) (recorded : List Text) (list : List Sighting) :
    (eventsAfter recorded list).map (Event.moved move) =
      eventsAfter recorded (list.map (Sighting.moved move)) := by
  induction list generalizing recorded with
  | nil => rfl
  | cons sighting list ih =>
      obtain ⟨keyword, offset, identifier⟩ := sighting
      cases identifier <;> simp [eventsAfter, Event.moved, Sighting.moved, ih]

/-- The events of a query, with their offsets in the trimmed text, are those of the trimmed text. -/
theorem events_trimmed (query : Text) :
    (events query).map (Event.moved (trimmedOffset (squeeze query))) =
      eventsAfter [] (sightingsFrom 0 (steps (trimmedOnce (squeeze query)))) := by
  rw [events, events_moved, sightings, sightings_trimmed]

/-- The identifiers recorded for a query are those of its trimmed text. -/
theorem recorded_identifiers_trimmed (query : Text) :
    recordedIdentifiers query = recordedIn (trimmedOnce (squeeze query)) := by
  have hmoved : ∀ list : List Sighting,
      (list.map (Sighting.moved (trimmedOffset (squeeze query)))).filterMap Sighting.identifier =
        list.filterMap Sighting.identifier := by
    intro list
    rw [List.filterMap_map]
    rfl
  rw [recordedIdentifiers, ← hmoved, sightings, sightings_trimmed, recorded_of_sightings,
    recordedIn]

/-- Queries are the same when squeezed and trimmed exactly when they have the same words. Then they
have the same tables, and their scans report the same events, with the same offsets in the trimmed
text. In particular, squeezing a query changes none of its tables. -/
theorem blanks_only_separate (query other : Text) :
    (trimmedOnce (squeeze query) = trimmedOnce (squeeze other) ↔ words query = words other) ∧
    (trimmedOnce (squeeze query) = trimmedOnce (squeeze other) →
      extract query = extract other ∧
      (events query).map (Event.moved (trimmedOffset (squeeze query))) =
        (events other).map (Event.moved (trimmedOffset (squeeze other)))) ∧
    extract (squeeze query) = extract query := by
  have htables : ∀ {first second : Text},
      trimmedOnce (squeeze first) = trimmedOnce (squeeze second) →
      extract first = extract second := by
    intro first second h
    rw [extract, extract, recorded_identifiers_trimmed, h, ← recorded_identifiers_trimmed]
  refine ⟨trimmed_squeeze_eq_iff query other, fun h => ⟨htables h, ?_⟩, htables ?_⟩
  · rw [events_trimmed, events_trimmed, h]
  · rw [squeeze_eq_self (squeeze_is_squeezed query)]

/-- The keyword at the end is met at one offset in the text that both queries are trimmed to, though
not in the queries themselves. -/
theorem sample_queries_separated :
    trimmedOnce (squeeze "\t FROM\na JOIN".toList) = trimmedOnce (squeeze "FROM a  JOIN ".toList) ∧
      extract "\t FROM\na JOIN".toList = extract "FROM a  JOIN ".toList ∧
      (events "\t FROM\na JOIN".toList).map
          (Event.moved (trimmedOffset (squeeze "\t FROM\na JOIN".toList))) =
        (events "FROM a  JOIN ".toList).map
          (Event.moved (trimmedOffset (squeeze "FROM a  JOIN ".toList))) ∧
      events "\t FROM\na JOIN".toList ≠ events "FROM a  JOIN ".toList := by
  obtain ⟨hwords, hsame, -⟩ :=
    blanks_only_separate "\t FROM\na JOIN".toList "FROM a  JOIN ".toList
  have htrimmed := hwords.2 (by decide)
  obtain ⟨htables, hevents⟩ := hsame htrimmed
  exact ⟨htrimmed, htables, hevents, by decide +kernel⟩

end QueryTables
