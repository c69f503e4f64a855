import QueryTables.Proofs.Tables

/-!
# The stretches of a query that are counted

Every occurrence that is counted for a table is a stretch of the squeezed query: a keyword, a space
and the literal of an identifier. `segments` collects the stretches as the scan goes. `SoundIn` says
where such a stretch can stand, and `sound_of_segments` that each one stands so; none starts before
the one in front of it ends (`segments_apart`), and the recordings and the tables follow them one by
one.
-/

namespace QueryTables

open Text

/-- A keyword as it is spelled, a space and the literal of an identifier, with the text before and
behind them. -/
structure Segment where
  before : Text
  keyword : Keyword
  token : Text
  identifier : Identifier
  after : Text

namespace Segment

/-- The text of the segment. -/
def text (segment : Segment) : Text :=
  segment.token ++ ' ' :: segment.identifier.literal

/-- The number of bytes before the segment. -/
def start (segment : Segment) : Nat :=
  byteLength segment.before

/-- The number of bytes before the identifier of the segment. -/
def nameStart (segment : Segment) : Nat :=
  byteLength (segment.before ++ segment.token ++ [' '])

/-- The number of bytes up to the end of the segment. -/
def stop (segment : Segment) : Nat :=
  byteLength (segment.before ++ segment.text)

/-- The segment follows the quote mark that closes the identifier taken for the keyword before. -/
def FollowsQuoted (segment : Segment) (whole : Text) : Prop :=
  segment.before.getLast? = some quoteMark ∧
    ∃ earlier keyword token gap identifier later,
      steps whole = earlier ++ .clause keyword token gap (some identifier) ::
        .clause segment.keyword segment.token [' '] (some segment.identifier) :: later ∧
      segment.before =
        earlier.flatMap Step.consumed ++ (token ++ gap ++ identifier.literal)

/-- The segment is a keyword, a space and an identifier in the whole text. It starts where the text
does, behind a space or behind a closing quote mark, and what stands behind it belongs neither to
its last word nor, after a dot, to its name. -/
structure SoundIn (segment : Segment) (whole : Text) : Prop where
  parts : whole = segment.before ++ segment.text ++ segment.after
  keyword : sameIgnoringCase segment.token segment.keyword.text = true
  formed : segment.identifier.WellFormed
  starts : segment.before = [] ∨ segment.before.getLast? = some ' ' ∨ segment.FollowsQuoted whole
  ends : segment.identifier.EndsBefore segment.after

/-- What the scan reports of the segment: the keyword with the offset behind it, and the name and
shape recorded there. -/
def recording (segment : Segment) : Option (Keyword × Nat) × Text × Shape :=
  (some (segment.keyword, segment.nameStart), segment.identifier.literal,
    segment.identifier.shape)

end Segment

/-- The segments of a row of steps that starts behind the given text. -/
def segmentsBehind (before : Text) : List Step → List Segment
  | [] => []
  | step :: later =>
      let following := segmentsBehind (before ++ step.consumed) later
      match step with
      | .clause keyword token _ (some identifier) =>
          if identifier.isNamed then
            ⟨before, keyword, token, identifier, later.flatMap Step.consumed⟩ :: following
          else following
      | .passed _ _ | .clause _ _ _ none => following

/-- The segments of a query, in order. -/
def segments (query : Text) : List Segment :=
  segmentsBehind [] (steps (squeeze query))

/-- The tables that a row of events reports as recorded, each with the keyword reported last before
it. -/
def recordingsAfter (sighted : Option (Keyword × Nat)) :
    List Event → List (Option (Keyword × Nat) × Text × Shape)
  | [] => []
  | .keyword keyword offset :: rest => recordingsAfter (some (keyword, offset)) rest
  | .table name shape _ :: rest => (sighted, name, shape) :: recordingsAfter sighted rest
  | .unrecognized _ _ :: rest => recordingsAfter sighted rest

/-- A step takes no segment, or is a clause with an identifier that is recorded. -/
theorem segments_behind_cases (before : Text) (step : Step) (later : List Step) :
    step.recorded? = none ∧
        segmentsBehind before (step :: later) = segmentsBehind (before ++ step.consumed) later ∨
      ∃ keyword token gap identifier, step = .clause keyword token gap (some identifier) ∧
        step.recorded? = some identifier ∧
        segmentsBehind before (step :: later) =
          ⟨before, keyword, token, identifier, later.flatMap Step.consumed⟩ ::
            segmentsBehind (before ++ step.consumed) later := by
  cases step with
  | passed token gap => exact .inl ⟨rfl, rfl⟩
  | clause keyword token gap taken =>
      cases taken with
      | none => exact .inl ⟨rfl, rfl⟩
      | some identifier =>
          by_cases hnamed : identifier.isNamed = true
          · right
            exact ⟨keyword, token, gap, identifier, rfl, Step.recorded_of_named hnamed,
              if_pos hnamed⟩
          · left
            have hfalse : identifier.isNamed = false := by simpa using hnamed
            exact ⟨Option.filter_some_neg hfalse, if_neg hnamed⟩

/-- A segment is a clause among the steps, and the steps around it make up the text before and
behind. -/
theorem clause_of_segment {before : Text} {list : List Step} {segment : Segment}
    (h : segment ∈ segmentsBehind before list) :
    ∃ earlier gap later,
      list = earlier ++
        .clause segment.keyword segment.token gap (some segment.identifier) :: later ∧
      segment.before = before ++ earlier.flatMap Step.consumed ∧
      segment.after = later.flatMap Step.consumed := by
  induction list generalizing before with
  | nil => simp [segmentsBehind] at h
  | cons step list ih =>
      -- A segment of the steps behind the first keeps its place when the first is put before them.
      have hbehind : segment ∈ segmentsBehind (before ++ step.consumed) list →
          ∃ earlier gap later,
            step :: list = earlier ++
              .clause segment.keyword segment.token gap (some segment.identifier) :: later ∧
            segment.before = before ++ earlier.flatMap Step.consumed ∧
            segment.after = later.flatMap Step.consumed := by
        intro hmem
        obtain ⟨earlier, gap, later, rfl, hbefore, hafter⟩ := ih hmem
        exact ⟨step :: earlier, gap, later, rfl, by simp [hbefore], hafter⟩
      rcases segments_behind_cases before step list with
        ⟨-, heq⟩ | ⟨keyword, token, gap, identifier, hstep, -, heq⟩
      · exact hbehind (heq ▸ h)
      · rw [heq] at h
        rcases List.mem_cons.1 h with rfl | hmem
        · exact ⟨[], gap, list, by rw [hstep]; rfl, by simp, rfl⟩
        · exact hbehind hmem

/-- An identifier that a keyword can follow without a space ends in a quote mark. -/
theorem last_before_keyword {identifier : Identifier} {keyword : Keyword} {token rest : Text}
    (hformed : identifier.WellFormed) (hkeyword : Keyword.ofToken? token = some keyword)
    (hends : identifier.EndsBefore (token ++ rest)) :
    identifier.literal.getLast? = some quoteMark := by
  obtain ⟨hne, hword⟩ := Keyword.word_of_token hkeyword
  obtain ⟨first, others, rfl⟩ := List.exists_cons_of_ne_nil hne
  obtain ⟨last, hlast, -, hquoted⟩ := Identifier.last_of_literal hformed
  have hnot : identifier.endsInWord = false := by
    by_contra hends'
    have hfirst := hends.1 (by simpa using hends')
    simp [hword first (by simp)] at hfirst
  rw [hlast, hquoted hnot]

/-- Every segment of a query is sound in the squeezed query. -/
theorem sound_of_segments {query : Text} {segment : Segment} (h : segment ∈ segments query) :
    segment.SoundIn (squeeze query) := by
  obtain ⟨earlier, gap, later, hsteps, hbefore, hafter⟩ := clause_of_segment h
  obtain ⟨rest, hscans, rfl, hkeyword, hformed, hends, rfl⟩ := clause_of_steps hsteps
  rw [flatMap_consumed_steps] at hafter
  refine ⟨?_, Keyword.of_token_iff.1 hkeyword, hformed, ?_, hafter ▸ hends⟩
  · rw [hscans.parts, hbefore, hafter, Segment.text]
    simp
  · -- A keyword right behind an identifier follows its closing quote mark: behind a word it would be
    -- read as part of the word.
    rcases hscans.boundary (by simp) with rfl | hspace | ⟨front, hfront⟩
    · exact .inl (by simpa using hbefore)
    · exact .inr (.inl (by simpa [hbefore] using hspace))
    · right
      right
      obtain ⟨keyword, token, gap, identifier, rfl, hfrontFormed, hfrontEnds⟩ := hfront
      have hquoted := last_before_keyword hfrontFormed hkeyword hfrontEnds
      have htext : segment.before =
          front.flatMap Step.consumed ++ (token ++ gap ++ identifier.literal) := by
        simpa [Step.consumed] using hbefore
      refine ⟨?_, front, keyword, token, gap, identifier, steps rest, ?_, htext⟩
      · rw [htext, List.getLast?_append, List.getLast?_append, hquoted]
        rfl
      · simpa using hsteps

/-- Each segment ends before the next one starts. -/
theorem segments_apart {text rest : Text} {list : List Step} (h : Scans text list rest)
    (before : Text) :
    (segmentsBehind before list).Pairwise fun first second => first.stop ≤ second.start := by
  induction h generalizing before with
  | nil => exact List.Pairwise.nil
  | @cons _ _ _ step later hstep _ ih =>
      have hlater := ih (before ++ step.consumed)
      rcases segments_behind_cases before step later with
        ⟨-, heq⟩ | ⟨keyword, token, gap, identifier, rfl, -, heq⟩
      · rw [heq]
        exact hlater
      · rw [heq]
        refine List.pairwise_cons.2 ⟨fun other hother => ?_, hlater⟩
        -- The step takes the segment and nothing more, since its gap is the space.
        obtain ⟨earlier, _, _, _, hbefore, _⟩ := clause_of_segment hother
        simp only [Segment.stop, Segment.start, Segment.text, hbefore, hstep.gap_eq,
          Step.consumed, Option.map_some, Option.getD_some, List.append_assoc,
          List.singleton_append, byteLength_append, byteLength_cons]
        omega

/-- The segments of a row of steps are as many as the identifiers recorded in it, and theirs. -/
theorem identifiers_behind (before : Text) (list : List Step) :
    (segmentsBehind before list).map Segment.identifier = list.filterMap Step.recorded? := by
  induction list generalizing before with
  | nil => rfl
  | cons step list ih =>
      rcases segments_behind_cases before step list with
        ⟨hnone, heq⟩ | ⟨keyword, token, gap, identifier, -, hrecorded, heq⟩
      · rw [heq, List.filterMap_cons_none hnone, ih]
      · rw [heq, List.filterMap_cons_some hrecorded, List.map_cons, ih]

/-- The identifiers of the segments are those recorded. -/
theorem identifiers_of_segments (query : Text) :
    (segments query).map Segment.identifier = recordedIdentifiers query := by
  rw [recorded_identifiers_eq]
  exact identifiers_behind [] _

/-- What the events of a sighting report as recorded. -/
def Sighting.recording? (sighting : Sighting) :
    Option (Option (Keyword × Nat) × Text × Shape) :=
  sighting.identifier.map fun identifier =>
    (some (sighting.keyword, sighting.offset), identifier.literal, identifier.shape)

/-- The recordings are those of the sightings, whatever was reported before them. -/
theorem recordings_of_sightings (sighted : Option (Keyword × Nat)) (recorded : List Text)
    (list : List Sighting) :
    recordingsAfter sighted (eventsAfter recorded list) =
      list.filterMap Sighting.recording? := by
  induction list generalizing sighted recorded with
  | nil => rfl
  | cons sighting list ih =>
      obtain ⟨keyword, offset, taken⟩ := sighting
      cases taken with
      | none =>
          show recordingsAfter (some (keyword, offset)) (eventsAfter recorded list) = _
          exact ih _ _
      | some identifier =>
          show (some (keyword, offset), identifier.literal, identifier.shape) ::
            recordingsAfter (some (keyword, offset))
              (eventsAfter (identifier.literal :: recorded) list) = _
          rw [ih]
          rfl

/-- A step that records nothing adds no recording. -/
theorem recordings_cons_none {step : Step} (h : step.recorded? = none) (offset : Nat)
    (later : List Step) :
    (sightingsFrom offset (step :: later)).filterMap Sighting.recording? =
      (sightingsFrom (offset + step.consumed.byteLength) later).filterMap
        Sighting.recording? := by
  cases step with
  | passed token gap => rfl
  | clause keyword token gap taken =>
      rw [sightings_clause]
      refine List.filterMap_cons_none ?_
      exact congrArg (Option.map _) h

/-- The sightings with an identifier, each behind a keyword and a space, are the segments. -/
theorem recordings_behind {text rest : Text} {list : List Step} (h : Scans text list rest)
    (before : Text) :
    (sightingsFrom (byteLength before) list).filterMap Sighting.recording? =
      (segmentsBehind before list).map Segment.recording := by
  induction h generalizing before with
  | nil => rfl
  | @cons _ _ _ step later hstep _ ih =>
      have hlater := ih (before ++ step.consumed)
      rw [byteLength_append] at hlater
      rcases segments_behind_cases before step later with
        ⟨hnone, heq⟩ | ⟨keyword, token, gap, identifier, rfl, hrecorded, heq⟩
      · rw [heq, recordings_cons_none hnone]
        exact hlater
      · have hfilter : (some identifier).filter Identifier.isNamed = some identifier := hrecorded
        rw [heq, sightings_clause, List.map_cons, ← hlater, hfilter]
        refine List.filterMap_cons_some ?_
        simp [Sighting.recording?, Segment.recording, Segment.nameStart, hstep.gap_eq]

/-- The recordings tell of the segments, in order. -/
theorem recordings_of_segments (query : Text) :
    recordingsAfter none (events query) = (segments query).map Segment.recording := by
  unfold events
  rw [recordings_of_sightings]
  exact recordings_behind (Scans.of_steps (squeeze query)) []

/-- The literals of the segments are those of the recorded identifiers. -/
theorem literals_of_segments (query : Text) :
    (segments query).map (fun segment => segment.identifier.literal) =
      (recordedIdentifiers query).map Identifier.literal := by
  rw [← identifiers_of_segments, List.map_map]
  rfl

/-- The names that a scan records are, one by one and in order, those of stretches of the squeezed
query that are sound in it and do not overlap. Each belongs to a table, and a table occurs as often
as there are stretches with its name. -/
theorem counted_occurrences_are_segments (query : Text) :
    ∃ segments : List Segment,
      (∀ segment ∈ segments, segment.SoundIn (squeeze query)) ∧
      segments.Pairwise (fun first second => first.stop ≤ second.start) ∧
      recordingsAfter none (events query) = segments.map Segment.recording ∧
      (∀ segment ∈ segments, ∃ table ∈ extract query,
        table.name = segment.identifier.literal) ∧
      ∀ table ∈ extract query, table.occurrences =
        (segments.filter fun segment => segment.identifier.literal = table.name).length := by
  have htallies := extract_tallies query
  refine ⟨segments query, fun segment h => sound_of_segments h,
    segments_apart (Scans.of_steps (squeeze query)) [], recordings_of_segments query, ?_, ?_⟩
  · intro segment hsegment
    have hliteral := List.mem_map_of_mem (f := fun segment => segment.identifier.literal) hsegment
    rw [literals_of_segments, ← mem_distinct, ← htallies.names] at hliteral
    exact List.mem_map.1 hliteral
  · intro table htable
    rw [htallies.occurrences table htable, ← literals_of_segments, List.count_eq_countP,
      List.countP_map, List.countP_eq_length_filter]
    congr 2
    funext segment
    exact beq_eq_decide _ _

end QueryTables
