import QueryTables.Proofs.Steps
import QueryTables.Table

/-!
# Sightings and events by their place in the text

A clause at a place in the row of steps is a sighting whose offset counts the bytes up to the end of
its gap. The offsets ascend (`sightings_ascend`), so an offset tells the sighting, and with it the
keyword event, that it belongs to.
-/

namespace QueryTables

open Text

/-- The keyword and the offset that an event reports as met. -/
def Event.sighted? : Event → Option (Keyword × Nat)
  | .keyword met offset => some (met, offset)
  | .table _ _ _ | .unrecognized _ _ => none

/-- The identifier that a step takes and that the scan records. -/
def Step.recorded? : Step → Option Identifier
  | .passed _ _ => none
  | .clause _ _ _ identifier => identifier.filter Identifier.isNamed

/-- An identifier that has something to be called by is recorded. -/
theorem Step.recorded_of_named {keyword : Keyword} {token gap : Text} {identifier : Identifier}
    (h : identifier.isNamed = true) :
    (Step.clause keyword token gap (some identifier)).recorded? = some identifier :=
  Option.filter_some_pos h

/-- What the first step records comes before what the others do. -/
theorem recorded_cons (step : Step) (later : List Step) :
    (step :: later).filterMap Step.recorded? =
      step.recorded?.toList ++ later.filterMap Step.recorded? := by
  cases hrecorded : step.recorded? <;> simp [hrecorded]

/-- The sightings of two rows of steps follow each other, those of the second behind the text of the
first. -/
theorem sightings_append (offset : Nat) (earlier later : List Step) :
    sightingsFrom offset (earlier ++ later) =
      sightingsFrom offset earlier ++
        sightingsFrom (offset + byteLength (earlier.flatMap Step.consumed)) later := by
  induction earlier generalizing offset with
  | nil => simp [sightingsFrom]
  | cons step earlier ih => cases step <;> simp [sightingsFrom, ih, Nat.add_assoc]

/-- A token that is passed over is not sighted. -/
theorem sightings_passed (offset : Nat) (token gap : Text) (later : List Step) :
    sightingsFrom offset (.passed token gap :: later) =
      sightingsFrom (offset + (Step.passed token gap).consumed.byteLength) later :=
  rfl

/-- A clause is sighted where its gap ends. -/
theorem sightings_clause (offset : Nat) (keyword : Keyword) (token gap : Text)
    (identifier : Option Identifier) (later : List Step) :
    sightingsFrom offset (.clause keyword token gap identifier :: later) =
      ⟨keyword, offset + byteLength (token ++ gap), identifier.filter Identifier.isNamed⟩ ::
        sightingsFrom
          (offset + (Step.clause keyword token gap identifier).consumed.byteLength) later :=
  rfl

/-- The sightings behind a first step are among those of the whole row. -/
theorem sightings_behind_subset (before : Text) (step : Step) (later : List Step) :
    sightingsFrom (byteLength (before ++ step.consumed)) later ⊆
      sightingsFrom (byteLength before) (step :: later) := by
  rw [byteLength_append]
  cases step with
  | passed token gap => exact List.Subset.refl _
  | clause keyword token gap identifier => exact List.subset_cons_self _ _

/-- The identifiers of the sightings are the recorded ones of the steps. -/
theorem recorded_of_sightings (offset : Nat) (list : List Step) :
    (sightingsFrom offset list).filterMap Sighting.identifier = list.filterMap Step.recorded? := by
  induction list generalizing offset with
  | nil => rfl
  | cons step list ih =>
      cases step with
      | passed token gap | clause keyword token gap identifier =>
          simp only [sightingsFrom, List.filterMap_cons, Step.recorded?, ih]

/-- The identifiers recorded for a query are those of its steps. -/
theorem recorded_identifiers_eq (query : Text) :
    recordedIdentifiers query = (steps (squeeze query)).filterMap Step.recorded? :=
  recorded_of_sightings 0 _

/-- A text has at least as many bytes as characters. -/
theorem length_le_byteLength (text : Text) : text.length ≤ byteLength text := by
  induction text with
  | nil => simp
  | cons c rest ih =>
      have := c.utf8Size_pos
      simp only [List.length_cons, byteLength_cons]
      omega

/-- A keyword has at least four bytes. -/
theorem four_le_byteLength {token : Text} {keyword : Keyword}
    (h : Keyword.ofToken? token = some keyword) : 4 ≤ byteLength token := by
  have hlength : token.length = keyword.text.length := by
    have := congrArg List.length (Keyword.lowered_token h)
    simpa [lowered] using this
  have hkeyword : 4 ≤ keyword.text.length := by
    cases keyword <;> decide
  have := length_le_byteLength token
  omega

/-- Each sighting of a row of steps lies behind the start of the row by a keyword, and not behind
its end. -/
theorem offset_bounds_of_sighting {text rest : Text} {list : List Step} (h : Scans text list rest)
    {offset : Nat} {sighting : Sighting} (hmem : sighting ∈ sightingsFrom offset list) :
    offset + 4 ≤ sighting.offset ∧
      sighting.offset ≤ offset + byteLength (list.flatMap Step.consumed) := by
  induction h generalizing offset with
  | nil => simp [sightingsFrom] at hmem
  | @cons _ _ _ step later hstep _ ih =>
      rw [List.flatMap_cons, byteLength_append]
      cases hstep with
      | @passed _ token gap =>
          rw [sightings_passed] at hmem
          have hbounds := ih hmem
          omega
      | unread htoken hkeyword | read htoken hkeyword =>
          have hlength := four_le_byteLength hkeyword
          rcases List.mem_cons.1 hmem with rfl | hmem
          · simp only [Step.consumed, byteLength_append]
            omega
          · have hbounds := ih hmem
            omega

/-- The sightings of a row of steps ascend by their offsets. -/
theorem sightings_ascend {text rest : Text} {list : List Step} (h : Scans text list rest)
    (offset : Nat) :
    (sightingsFrom offset list).Pairwise fun first second => first.offset < second.offset := by
  induction h generalizing offset with
  | nil => exact List.Pairwise.nil
  | cons hstep hlater ih =>
      -- A sighting is where its gap ends, and all later ones lie behind its step by a keyword.
      cases hstep with
      | passed => exact ih _
      | unread | read =>
          refine List.pairwise_cons.2 ⟨fun other hother => ?_, ih _⟩
          have hbounds := offset_bounds_of_sighting hlater hother
          simp only [Step.consumed, byteLength_append] at hbounds ⊢
          omega

/-- The keyword events tell of the sightings, in order. -/
theorem sighted_of_events (recorded : List Text) (list : List Sighting) :
    (eventsAfter recorded list).filterMap Event.sighted? =
      list.map fun sighting => (sighting.keyword, sighting.offset) := by
  induction list generalizing recorded with
  | nil => rfl
  | cons sighting list ih =>
      obtain ⟨keyword, offset, identifier⟩ := sighting
      cases identifier <;> simp [eventsAfter, List.filterMap_cons, Event.sighted?, ih]

/-- A sighting without an identifier is reported as unrecognized, and no other is. -/
theorem unrecognized_mem_iff {recorded : List Text} {list : List Sighting} {keyword : Keyword}
    {offset : Nat} :
    Event.unrecognized keyword offset ∈ eventsAfter recorded list ↔
      ⟨keyword, offset, none⟩ ∈ list := by
  induction list generalizing recorded with
  | nil => simp [eventsAfter]
  | cons sighting list ih =>
      obtain ⟨other, place, identifier⟩ := sighting
      cases identifier <;> simp [eventsAfter, ih]

/-- The keywords that a scan reports as met, each with its offset. -/
def sightedKeywords (query : Text) : List (Keyword × Nat) :=
  (events query).filterMap Event.sighted?

/-- The reported keywords are those of the sightings. -/
theorem sighted_keywords_eq (query : Text) :
    sightedKeywords query =
      (sightings query).map fun sighting => (sighting.keyword, sighting.offset) :=
  sighted_of_events [] (sightings query)

/-- Where offsets ascend, an offset tells the sighting. -/
theorem filter_offset {left right : List Sighting} {sighting : Sighting}
    (h : (left ++ sighting :: right).Pairwise fun first second => first.offset < second.offset) :
    (left ++ sighting :: right).filter (fun other => other.offset = sighting.offset) =
      [sighting] := by
  obtain ⟨-, hright, hleft⟩ := List.pairwise_append.1 h
  have hbefore : left.filter (fun other => other.offset = sighting.offset) = [] := by
    refine List.filter_eq_nil_iff.2 fun other hother => ?_
    have := hleft other hother sighting (by simp)
    simpa using Nat.ne_of_lt this
  have hbehind : right.filter (fun other => other.offset = sighting.offset) = [] := by
    refine List.filter_eq_nil_iff.2 fun other hother => ?_
    have := (List.pairwise_cons.1 hright).1 other hother
    simpa using Nat.ne_of_gt this
  simp [hbefore, hbehind]

/-- The sightings around a clause: those of the steps before it, its own, and those behind it. -/
theorem sightings_around {query token gap : Text} {keyword : Keyword}
    {identifier : Option Identifier} {earlier later : List Step}
    (h : steps (squeeze query) = earlier ++ .clause keyword token gap identifier :: later) :
    sightings query = sightingsFrom 0 earlier ++
      ⟨keyword, byteLength (earlier.flatMap Step.consumed ++ token ++ gap),
        identifier.filter Identifier.isNamed⟩ ::
      sightingsFrom (byteLength (earlier.flatMap Step.consumed ++
        (Step.clause keyword token gap identifier).consumed)) later := by
  rw [sightings, h, sightings_append, sightings_clause]
  simp

/-- A clause among the steps of a query is met once: the only keyword reported at its offset is its
own. -/
theorem sighted_once {query token gap : Text} {keyword : Keyword}
    {identifier : Option Identifier} {earlier later : List Step}
    (h : steps (squeeze query) = earlier ++ .clause keyword token gap identifier :: later) :
    (sightedKeywords query).filter
        (fun sighted => sighted.2 = byteLength (earlier.flatMap Step.consumed ++ token ++ gap)) =
      [(keyword, byteLength (earlier.flatMap Step.consumed ++ token ++ gap))] := by
  have hascend := sightings_ascend (Scans.of_steps (squeeze query)) 0
  rw [← sightings, sightings_around h] at hascend
  have honce := congrArg (List.map fun sighting => (sighting.keyword, sighting.offset))
    (filter_offset hascend)
  rw [sighted_keywords_eq, sightings_around h, List.filter_map]
  exact honce

/-- No keyword is met from the start of an identifier that a step takes up to the place right behind
it. -/
theorem not_sighted_inside {query token gap : Text} {keyword : Keyword} {identifier : Identifier}
    {earlier later : List Step} {offset : Nat}
    (h : steps (squeeze query) = earlier ++ .clause keyword token gap (some identifier) :: later)
    (hstart : byteLength (earlier.flatMap Step.consumed ++ token ++ gap) < offset)
    (hend : offset ≤
      byteLength (earlier.flatMap Step.consumed ++ token ++ gap ++ identifier.literal) + 1) :
    ∀ sighted ∈ sightedKeywords query, sighted.2 ≠ offset := by
  obtain ⟨_, hearlier, hclause⟩ := steps_append_iff.1 h
  obtain ⟨rest, -, rfl⟩ := steps_cons_iff.1 hclause
  intro sighted hsighted
  rw [sighted_keywords_eq, sightings_around h] at hsighted
  obtain ⟨sighting, hmem, rfl⟩ := List.mem_map.1 hsighted
  simp only [Step.consumed, Option.map_some, Option.getD_some, byteLength_append] at *
  rcases List.mem_append.1 hmem with hbefore | hmem
  · have hbounds := offset_bounds_of_sighting hearlier hbefore
    omega
  rcases List.mem_cons.1 hmem with rfl | hbehind
  · exact Nat.ne_of_lt hstart
  · have hbounds := offset_bounds_of_sighting (Scans.of_steps rest) hbehind
    omega

end QueryTables
