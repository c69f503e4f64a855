import QueryTables.Proofs.Merging
import QueryTables.Proofs.Tables

/-!
# Two queries as one

A scan looks ahead of where it is: at the character behind a name, and as far as the next quote
mark. It looks no further than the end of a query that is `Settled`: a keyword with nothing recorded
for it stands before something that is no quote mark. A further query behind a space changes no step
of such a scan (`Takes.recorded_append`), so the scan of both records what the two scans record
(`Scans.recorded_append`), and the tables of both are merged in `tables_of_joined_queries`.
-/

namespace QueryTables

open Text

/-- The character whose bytes start at an offset, if one does. -/
def Text.characterAt? : Text → Nat → Option Char
  | [], _ => none
  | c :: rest, offset =>
      if offset = 0 then some c
      else if offset < c.utf8Size then none
      else characterAt? rest (offset - c.utf8Size)

/-- The character behind the first part of a text is the first one of the other part. -/
theorem Text.character_at_append (before after : Text) :
    characterAt? (before ++ after) (byteLength before) = after.head? := by
  induction before with
  | nil => cases after <;> simp [characterAt?]
  | cons c before ih =>
      have hpos := c.utf8Size_pos
      rw [List.cons_append, characterAt?, byteLength_cons, if_neg (by omega), if_neg (by omega),
        Nat.add_sub_cancel_left, ih]

/-- Behind a first part of a text that is not all of it stands a character, which is no quote mark
where none starts there. -/
theorem exists_character_at {before after : Text}
    (hlt : byteLength before < byteLength (before ++ after))
    (hmark : characterAt? (before ++ after) (byteLength before) ≠ some quoteMark) :
    ∃ c, after.head? = some c ∧ c ≠ quoteMark := by
  rw [character_at_append] at hmark
  cases after with
  | nil => simp at hlt
  | cons c others =>
      refine ⟨c, rfl, ?_⟩
      rintro rfl
      exact hmark rfl

/-- The identifiers that the scan of a squeezed text records. -/
def recordedIn (text : Text) : List Identifier :=
  (steps text).filterMap Step.recorded?

/-- A first step records what it does, and the others what is recorded in the text that it leaves.
-/
theorem recorded_of_takes {text rest : Text} {step : Step} (h : Takes text step rest) :
    recordedIn text = step.recorded?.toList ++ recordedIn rest := by
  rw [recordedIn, steps_of_takes h, recorded_cons, recordedIn]

/-- A space at the start of a text changes nothing about what is recorded. -/
theorem recorded_space (rest : Text) : recordedIn (' ' :: rest) = recordedIn rest :=
  recorded_of_takes (takes_space rest)

/-- Where the step meets a keyword and records nothing, the text behind the keyword starts with a
character, which is no quote mark. -/
def Step.SettledBefore (step : Step) (rest : Text) : Prop :=
  ∀ keyword token gap identifier, step = .clause keyword token gap identifier →
    step.recorded? = none →
      ∃ c, ((identifier.map Identifier.literal).getD [] ++ rest).head? = some c ∧ c ≠ quoteMark

/-- What is apart from a text is apart from the last part of it. -/
theorem Text.Apart.of_append {left right tail : Text} (h : Apart (left ++ right) tail)
    (hne : right ≠ []) : Apart right tail := by
  rwa [Apart, List.getLast?_append_of_ne_nil _ hne] at h

/-- A token before a gap stands at the start of a longer text as well. -/
theorem StartsWithToken.append {text token rest : Text} (h : StartsWithToken text token [' '] rest)
    (tail : Text) : StartsWithToken (text ++ tail) token [' '] (rest ++ tail) :=
  ⟨by simp [h.parts], h.noSpace, .inl rfl⟩

/-- A settled step records the same when more text follows apart from its own, and leaves a text in
which the same is recorded as behind it. -/
theorem Takes.recorded_append {text rest tail : Text} {step : Step} (h : Takes text step rest)
    (hsettled : step.SettledBefore rest) (hapart : Apart text tail) :
    recordedIn (text ++ tail) = step.recorded?.toList ++ recordedIn (rest ++ tail) := by
  cases h with
  | passed hne htoken hkeyword =>
      rcases htoken.gap with rfl | ⟨rfl, rfl⟩
      · exact recorded_of_takes (.passed (by simp [hne]) (htoken.append tail) hkeyword)
      · -- The token is all of the text. Behind it the space that starts the tail is its gap.
        have hwhole := htoken.parts
        rw [List.append_nil, List.append_nil] at hwhole
        subst hwhole
        rcases hapart with hlast | rfl | hfirst
        · exact absurd (List.mem_of_getLast? hlast) htoken.noSpace
        · rw [List.append_nil]
          exact recorded_of_takes (.passed hne htoken hkeyword)
        · obtain ⟨others, rfl⟩ := List.head?_eq_some_iff.1 hfirst
          have htakes : Takes (text ++ ' ' :: others) (.passed text [' ']) others :=
            .passed (by simp) ⟨by simp, htoken.noSpace, .inl rfl⟩ hkeyword
          rw [List.nil_append, recorded_space, recorded_of_takes htakes]
          rfl
  | unread htoken hkeyword hread =>
      obtain ⟨c, hc, hmark⟩ := hsettled _ _ _ _ rfl rfl
      rw [Option.map_none, Option.getD_none, List.nil_append] at hc
      have hne : rest ≠ [] := by
        rintro rfl
        cases hc
      have hstart : rest.head? ≠ some quoteMark := by
        rw [hc]
        exact fun heq => hmark (Option.some.inj heq)
      rcases htoken.gap with rfl | ⟨-, hnil⟩
      · have hunread : Identifier.read? (rest ++ tail) = none := by
          rw [Identifier.read_append hstart ((htoken.parts ▸ hapart).of_append hne), hread]
          rfl
        exact recorded_of_takes (.unread (htoken.append tail) hkeyword hunread)
      · exact absurd hnil hne
  | @read _ _ _ _ identifier htoken hkeyword hformed hends =>
      obtain rfl := (Takes.read htoken hkeyword hformed hends).gap_eq
      have hlonger := htoken.append tail
      rw [List.append_assoc] at hlonger
      have hliteral : identifier.literal ++ rest ≠ [] := by
        simp [Identifier.literal_ne_nil hformed]
      have hbehind := ((htoken.parts ▸ hapart).of_append hliteral).behind_literal hformed
      exact recorded_of_takes (.read hlonger hkeyword hformed (hends.append hbehind))

/-- A scan whose keywords are settled records the same when more text follows apart from its own,
and then what is recorded in that text. The text before the scan gives the offsets their place. -/
theorem Scans.recorded_append {text rest tail : Text} {list : List Step}
    (hscans : Scans text list rest) (hrest : rest = []) (hapart : text ≠ [] → Apart text tail)
    (before : Text)
    (hsettled : ∀ sighting ∈ sightingsFrom (byteLength before) list, sighting.identifier = none →
      sighting.offset < byteLength (before ++ text) ∧
        characterAt? (before ++ text) sighting.offset ≠ some quoteMark) :
    recordedIn (text ++ tail) = list.filterMap Step.recorded? ++ recordedIn tail := by
  induction hscans generalizing before with
  | nil text =>
      rw [hrest]
      rfl
  | @cons text middle _ step later hstep hlater ih =>
      have hfirst : step.SettledBefore middle := by
        rintro keyword token gap identifier rfl hnone
        have hplace := hsettled _ (List.mem_cons_self ..) hnone
        have hparts : before ++ text = before ++ (token ++ gap) ++
            ((identifier.map Identifier.literal).getD [] ++ middle) := by
          rw [hstep.parts]
          simp [Step.consumed]
        rw [hparts, ← byteLength_append] at hplace
        exact exists_character_at hplace.1 hplace.2
      have hbehind : middle ≠ [] → Apart middle tail := fun hne =>
        (hstep.parts ▸ hapart hstep.ne_nil).of_append hne
      have hlast := ih hrest hbehind (before ++ step.consumed) fun sighting hmem hnone => by
        have hwhole := hsettled sighting (sightings_behind_subset before step later hmem) hnone
        rwa [hstep.parts, ← List.append_assoc] at hwhole
      rw [hstep.recorded_append hfirst (hapart hstep.ne_nil), hlast, recorded_cons,
        List.append_assoc]

/-- A blank at the start of a text, kept as a space or left out, changes nothing about what is
recorded. -/
theorem recorded_squeeze_after (afterBlank : Bool) (text : Text) :
    recordedIn (squeezeAfter afterBlank text) = recordedIn (squeezeAfter true text) := by
  cases text with
  | nil => rfl
  | cons c rest =>
      cases hc : isBlank c <;> cases afterBlank <;> simp [squeezeAfter, hc, recorded_space]

/-- Wherever the scan of the query meets a keyword and records nothing, it does so before the end
of the squeezed query, and not before a quote mark. -/
def Settled (query : Text) : Prop :=
  ∀ keyword offset, Event.unrecognized keyword offset ∈ events query →
    offset < byteLength (squeeze query) ∧ characterAt? (squeeze query) offset ≠ some quoteMark

/-- The squeezed form of two texts with a space between them: that of the first, and behind it the
other, apart from it. -/
theorem squeeze_joined (first second : Text) :
    squeeze (first ++ ' ' :: second) =
        squeeze first ++ squeezeAfter (endsBlank first) (' ' :: second) ∧
      Apart (squeeze first) (squeezeAfter (endsBlank first) (' ' :: second)) := by
  refine ⟨squeeze_append _ _, ?_⟩
  cases hends : endsBlank first with
  | true => exact .inl (last_squeeze_iff.2 hends)
  | false => exact .inr (.inr rfl)

/-- A settled query and another with a space between them have the identifiers of both recorded, one
after the other. -/
theorem recorded_of_joined {first : Text} (h : Settled first) (second : Text) :
    recordedIdentifiers (first ++ ' ' :: second) =
      recordedIdentifiers first ++ recordedIdentifiers second := by
  obtain ⟨hsqueeze, hapart⟩ := squeeze_joined first second
  have hsettled : ∀ sighting ∈ sightingsFrom (byteLength []) (steps (squeeze first)),
      sighting.identifier = none → sighting.offset < byteLength ([] ++ squeeze first) ∧
        characterAt? ([] ++ squeeze first) sighting.offset ≠ some quoteMark := by
    rintro ⟨keyword, offset, _⟩ hmem rfl
    exact h keyword offset (unrecognized_mem_iff.2 hmem)
  have hspace : squeezeAfter true (' ' :: second) = squeezeAfter true second := by
    simp [squeezeAfter, space_is_blank]
  calc recordedIdentifiers (first ++ ' ' :: second)
      = recordedIn (squeeze first ++ squeezeAfter (endsBlank first) (' ' :: second)) := by
        rw [recorded_identifiers_eq, hsqueeze, recordedIn]
    _ = recordedIn (squeeze first) ++
          recordedIn (squeezeAfter (endsBlank first) (' ' :: second)) :=
        (Scans.of_steps _).recorded_append rfl (fun _ => hapart) [] hsettled
    _ = recordedIn (squeeze first) ++ recordedIn (squeeze second) := by
        rw [recorded_squeeze_after, hspace, squeeze, squeeze, recorded_squeeze_after false second]
    _ = recordedIdentifiers first ++ recordedIdentifiers second := by
        rw [recorded_identifiers_eq, recorded_identifiers_eq, recordedIn, recordedIn]

/-- The tables of a settled query and another with a space between them are those of both, merged:
the tables of the first in order, with the occurrences in the other added, and then those that only
the other has. A table of both has one shape. -/
theorem tables_of_joined_queries {first : Text} (h : Settled first) (second : Text) :
    extract (first ++ ' ' :: second) =
        merged Table.name Table.join (extract first) (extract second) ∧
      ∀ table ∈ extract first, ∀ other ∈ extract second, table.name = other.name →
        table.shape = other.shape := by
  constructor
  · rw [extract, recorded_of_joined h, List.map_append,
      gather_append_eq_merged Table.join_name Table.join_assoc]
    rfl
  · intro table htable other hother hname
    have hfirst := extract_tallies first
    have hsecond := extract_tallies second
    obtain ⟨identifier, hmem, hliteral⟩ := hfirst.exists_identifier htable
    obtain ⟨origin, horigin, hsame⟩ := hsecond.exists_identifier hother
    obtain rfl := recorded_eq_of_literal hmem horigin (by rw [hliteral, hsame, hname])
    rw [← hfirst.shapes table htable identifier hmem hliteral,
      ← hsecond.shapes other hother identifier horigin hsame]

/-- A keyword at the end of the first query takes its name from the other. -/
example : extract ("FROM".toList ++ ' ' :: "x".toList) ≠
    merged Table.name Table.join (extract "FROM".toList) (extract "x".toList) := by
  decide +kernel

/-- A query with a schema that no table follows, and with a keyword right behind a quoted name. -/
def settledQuery : Text :=
  "UPDATE db. x FROM `b c`join d\t".toList

/-- A query with one of the tables of the other, and with one more. -/
def laterQuery : Text :=
  " INTO d, JOIN e".toList

/-- Both together have the table that they share once, with its occurrences in both. -/
theorem sample_queries_joined :
    Settled settledQuery ∧
      extract (settledQuery ++ ' ' :: laterQuery) =
        merged Table.name Table.join (extract settledQuery) (extract laterQuery) ∧
      (∀ table ∈ extract settledQuery, ∀ other ∈ extract laterQuery, table.name = other.name →
        table.shape = other.shape) ∧
      extract (settledQuery ++ ' ' :: laterQuery) =
        [⟨"`b c`".toList, .quoted, 1⟩, ⟨"d".toList, .bare, 2⟩, ⟨"e".toList, .bare, 1⟩] := by
  have hevents : events settledQuery =
      [.keyword .updateClause 7, .unrecognized .updateClause 7, .keyword .fromClause 18,
        .table "`b c`".toList .quoted 1, .keyword .joinClause 28, .table "d".toList .bare 1] := by
    decide +kernel
  have hsettled : Settled settledQuery := by
    intro keyword offset hmem
    obtain ⟨rfl, rfl⟩ : keyword = .updateClause ∧ offset = 7 := by simpa [hevents] using hmem
    decide
  obtain ⟨htables, hshapes⟩ := tables_of_joined_queries hsettled laterQuery
  exact ⟨hsettled, htables, hshapes, by decide +kernel⟩

end QueryTables
