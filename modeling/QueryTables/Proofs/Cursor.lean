import QueryTables.Cursor
import QueryTables.Proofs.Slices
import QueryTables.Proofs.Steps

/-!
# The cursor of a scan

What holds at every place that the scan with a cursor reaches is that it stands behind whole steps,
or behind whole steps and the token of a keyword (`ScannedTo`). One call keeps this
(`ScannedTo.call`), and so do all of them (`Reaches.scanned`). It follows that the cursor keeps its
place in the text (`Reaches.keeps_place`), and that the scan ends with the whole text taken
(`scan_takes_everything_once`).
-/

namespace QueryTables

open Text

/-- The pieces of the text that a step takes: its token with the gap, and the literal behind a
keyword. -/
def Step.pieces : Step → List Text
  | passed token gap => [token ++ gap]
  | clause _ token gap identifier => (token ++ gap) :: (identifier.map Identifier.literal).toList

/-- What the scan has taken of a text and what is left: whole steps, or whole steps and the token of
a keyword. -/
inductive ScannedTo (buffer : Text) : List Text → Phase → Text → Prop where
  | token {done : List Step} {rest : Text} (hscans : Scans buffer done rest) :
      ScannedTo buffer (done.flatMap Step.pieces) .token rest
  | name {done : List Step} {text token gap rest : Text} {keyword : Keyword}
      (hscans : Scans buffer done text) (htoken : StartsWithToken text token gap rest)
      (hkeyword : Keyword.ofToken? token = some keyword) :
      ScannedTo buffer (done.flatMap Step.pieces ++ [token ++ gap]) .name rest

/-- The pieces of a step make up what it takes. -/
theorem Step.flatten_pieces (step : Step) : step.pieces.flatten = step.consumed := by
  cases step with
  | passed token gap => simp [Step.pieces, Step.consumed]
  | clause keyword token gap identifier =>
      cases identifier <;> simp [Step.pieces, Step.consumed]

/-- The pieces of steps make up what they take. -/
theorem flatten_pieces (done : List Step) :
    (done.flatMap Step.pieces).flatten = done.flatMap Step.consumed := by
  induction done with
  | nil => rfl
  | cons step done ih =>
      rw [List.flatMap_cons, List.flatMap_cons, List.flatten_append, Step.flatten_pieces, ih]

/-- The pieces and what is left make up the text. -/
theorem ScannedTo.parts {buffer rest : Text} {pieces : List Text} {phase : Phase}
    (h : ScannedTo buffer pieces phase rest) : buffer = pieces.flatten ++ rest := by
  cases h with
  | token hscans => rw [flatten_pieces, hscans.parts]
  | name hscans htoken =>
      rw [List.flatten_append, flatten_pieces, hscans.parts, htoken.parts]
      simp

/-- A token with its gap is not empty where there is text left. -/
theorem StartsWithToken.taken_pos {rest token gap after : Text}
    (h : StartsWithToken rest token gap after) (hne : rest ≠ []) :
    0 < byteLength (token ++ gap) := by
  refine byte_length_pos fun hnil => hne ?_
  obtain ⟨rfl, rfl⟩ := List.append_eq_nil_iff.1 hnil
  rcases h.gap with hgap | ⟨-, rfl⟩
  · cases hgap
  · exact h.parts

section Calls

variable {read rest : Text}

/-- At the end of the text no token is left. -/
theorem next_token_end (buffer : Text) :
    nextToken buffer (byteLength buffer) = .ok (none, byteLength buffer) := by
  have hcut : cutAt? (byteLength buffer) buffer = some (buffer, []) :=
    cut_at_iff.2 ⟨(List.append_nil buffer).symm, rfl⟩
  rw [nextToken, hcut]

/-- Where there is text left, its first token is taken, and the cursor is moved behind it and the
gap. -/
theorem next_token_eq (hne : rest ≠ []) {token gap after : Text}
    (htoken : StartsWithToken rest token gap after) :
    nextToken (read ++ rest) (byteLength read) =
      .ok (some (token, gap), byteLength read + byteLength (token ++ gap)) := by
  have hspace : ∀ c ∈ token, (c == ' ') = false := by
    intro c hc
    simpa using fun heq : c = ' ' => htoken.noSpace (heq ▸ hc)
  have hcut : cutAt? (byteLength read) (read ++ rest) = some (read, rest) :=
    cut_at_iff.2 ⟨rfl, rfl⟩
  obtain ⟨c, tail, hrest⟩ := List.exists_cons_of_ne_nil hne
  rw [nextToken, hcut, hrest]
  simp only
  rw [← hrest]
  rcases htoken.gap with rfl | ⟨rfl, rfl⟩
  · have hparts : rest = token ++ ' ' :: after := by simpa using htoken.parts
    have hsize : ' '.utf8Size = 1 := rfl
    rw [hparts, offset_behind_run hspace rfl]
    simp only [slice_behind, Except.map]
    simp [hsize]
  · have hparts : rest = token := by simpa using htoken.parts
    rw [hparts, offset_eq_none hspace, List.append_nil]

/-- The identifier at the cursor is taken if one is read there, and the cursor is moved by its
literal. -/
theorem recognize_name_eq (read rest : Text) :
    recognizeName (read ++ rest) (byteLength read) =
      .ok (match Identifier.read? rest with
        | some (identifier, _) => (some (identifier.literal, identifier.shape),
            byteLength read + byteLength identifier.literal)
        | none => (none, byteLength read)) := by
  have hcut : cutAt? (byteLength read) (read ++ rest) = some (read, rest) :=
    cut_at_iff.2 ⟨rfl, rfl⟩
  rw [recognizeName, hcut]
  simp only [first_extent_eq, Identifier.extent?]
  cases hread : Identifier.read? rest with
  | none => rfl
  | some found =>
      obtain ⟨identifier, after⟩ := found
      rw [Identifier.literal_append_of_read? hread]
      simp only [Option.map_some, Except.bind, slice_behind, Except.map]

/-- A token moves the cursor forward, behind it and the space that follows if the text goes on, and
without one it stays. -/
theorem token_moves (read rest : Text) :
    ∃ found cursor, nextToken (read ++ rest) (byteLength read) = .ok (found, cursor) ∧
      (found = none → cursor = byteLength read) ∧
      ∀ token gap, found = some (token, gap) →
        byteLength read < cursor ∧ cursor = byteLength read + byteLength (token ++ gap) ∧
          (gap = [' '] ∨ gap = [] ∧ cursor = byteLength (read ++ rest)) := by
  by_cases hne : rest = []
  · have hcall := next_token_end read
    rw [hne, List.append_nil]
    exact ⟨none, byteLength read, hcall, fun _ => rfl, nofun⟩
  · have htoken := starts_with_first_token rest
    have hpos := htoken.taken_pos hne
    refine ⟨_, _, next_token_eq hne htoken, nofun, ?_⟩
    intro token gap hfound
    cases hfound
    refine ⟨Nat.lt_add_of_pos_right hpos, rfl, htoken.gap.imp_right ?_⟩
    rintro ⟨hgap, hafter⟩
    have hlength := congrArg byteLength htoken.parts
    rw [hafter, List.append_nil] at hlength
    exact ⟨hgap, by rw [byteLength_append read, hlength]⟩

/-- An identifier moves the cursor by its literal, and without one it stays. -/
theorem name_moves (read rest : Text) :
    ∃ found cursor, recognizeName (read ++ rest) (byteLength read) = .ok (found, cursor) ∧
      (found = none → cursor = byteLength read) ∧
      ∀ literal shape, found = some (literal, shape) →
        cursor = byteLength read + byteLength literal := by
  have hcall := recognize_name_eq read rest
  cases hread : Identifier.read? rest with
  | none =>
      rw [hread] at hcall
      exact ⟨none, byteLength read, hcall, fun _ => rfl, nofun⟩
  | some found =>
      rw [hread] at hcall
      refine ⟨_, _, hcall, nofun, ?_⟩
      intro literal shape hfound
      cases hfound
      rfl

end Calls

section Runs

variable {buffer : Text}

/-- What the next call does where the scan stands: nothing at the end, and else it takes the first
token that is left, or the identifier that is read there. -/
inductive Advances (buffer rest : Text) (pieces : List Text) (place : Place) : Prop where
  | ends (hphase : place.phase = .token) (hrest : rest = [])
      (hcall : advance buffer place = .ok none)
  | goesOn {found : List Text} {following : Place} {after : Text}
      (hcall : advance buffer place = .ok (some (found, following)))
      (hcursor : following.cursor = place.cursor + byteLength found.flatten)
      (hforward : place.phase = .token → place.cursor < following.cursor)
      (hphase : place.phase = .name → following.phase = .token)
      (hscanned : ScannedTo buffer (pieces ++ found) following.phase after)

/-- Behind a further step, its pieces have been taken too. -/
theorem ScannedTo.step {done : List Step} {text rest : Text} {step : Step}
    (hscans : Scans buffer done text) (hstep : Takes text step rest) {pieces : List Text}
    (hpieces : pieces = done.flatMap Step.pieces ++ step.pieces) :
    ScannedTo buffer pieces .token rest := by
  have hall := ScannedTo.token (Scans.append_iff.2 ⟨text, hscans, .cons hstep (.nil rest)⟩)
  rwa [List.flatMap_append, List.flatMap_singleton, ← hpieces] at hall

/-- Behind whole steps, the next call takes the first token that is left, or finds that nothing
is. -/
theorem advances_token {done : List Step} {read rest : Text} (hscans : Scans buffer done rest)
    (hread : (done.flatMap Step.pieces).flatten = read) :
    Advances buffer rest (done.flatMap Step.pieces) ⟨byteLength read, .token⟩ := by
  have hparts : buffer = read ++ rest := hread ▸ (ScannedTo.token hscans).parts
  by_cases hne : rest = []
  · have hcall := next_token_end buffer
    have hlength : byteLength buffer = byteLength read := by rw [hparts, hne, List.append_nil]
    rw [hlength] at hcall
    refine .ends rfl hne ?_
    simp only [advance, hcall, Except.map]
  · have htoken := starts_with_first_token rest
    have hpos := htoken.taken_pos hne
    have hcall : advance buffer ⟨byteLength read, .token⟩ =
        .ok (some ([leadingToken rest ++ leadingGap rest],
          ⟨byteLength read + byteLength (leadingToken rest ++ leadingGap rest),
            .behind (leadingToken rest)⟩)) := by
      simp only [advance, hparts, next_token_eq hne htoken, Except.map]
    have hscanned : ScannedTo buffer
        (done.flatMap Step.pieces ++ [leadingToken rest ++ leadingGap rest])
        (.behind (leadingToken rest)) (afterGap rest) := by
      cases hkeyword : Keyword.ofToken? (leadingToken rest) with
      | none =>
          rw [Phase.behind, hkeyword]
          exact .step hscans (.passed hne htoken hkeyword) rfl
      | some keyword =>
          rw [Phase.behind, hkeyword]
          exact .name hscans htoken hkeyword
    exact .goesOn hcall (by simp) (fun _ => Nat.lt_add_of_pos_right hpos) nofun hscanned

/-- Behind the token of a keyword, the next call takes the identifier that is read there, if there
is one. -/
theorem advances_name {done : List Step} {text token gap read rest : Text} {keyword : Keyword}
    (hscans : Scans buffer done text) (htoken : StartsWithToken text token gap rest)
    (hkeyword : Keyword.ofToken? token = some keyword)
    (hread : (done.flatMap Step.pieces ++ [token ++ gap]).flatten = read) :
    Advances buffer rest (done.flatMap Step.pieces ++ [token ++ gap])
      ⟨byteLength read, .name⟩ := by
  have hparts : buffer = read ++ rest := hread ▸ (ScannedTo.name hscans htoken hkeyword).parts
  have hname := recognize_name_eq read rest
  rw [← hparts] at hname
  cases hfound : Identifier.read? rest with
  | none =>
      rw [hfound] at hname
      have hcall : advance buffer ⟨byteLength read, .name⟩ =
          .ok (some ([], ⟨byteLength read, .token⟩)) := by
        simp only [advance, hname, Except.map]
      have hstep : Takes text (.clause keyword token gap none) rest :=
        .unread htoken hkeyword hfound
      refine .goesOn hcall rfl nofun (fun _ => rfl) (.step hscans hstep ?_)
      simp [Step.pieces]
  | some found =>
      obtain ⟨identifier, after⟩ := found
      rw [hfound] at hname
      have hcall : advance buffer ⟨byteLength read, .name⟩ =
          .ok (some ([identifier.literal],
            ⟨byteLength read + byteLength identifier.literal, .token⟩)) := by
        simp only [advance, hname, Except.map]
      obtain ⟨hrest, hformed, hends⟩ := Identifier.read_iff.1 hfound
      have hstep : Takes text (.clause keyword token gap (some identifier)) after :=
        .read (hrest ▸ htoken) hkeyword hformed hends
      refine .goesOn hcall (by simp) nofun (fun _ => rfl) (.step hscans hstep ?_)
      simp [Step.pieces]

/-- Where the scan stands, the next call takes a further piece of what is left, or finds that
nothing is. -/
theorem ScannedTo.advances {pieces : List Text} {place : Place} {rest : Text}
    (h : ScannedTo buffer pieces place.phase rest)
    (hcursor : byteLength pieces.flatten = place.cursor) : Advances buffer rest pieces place := by
  obtain ⟨cursor, phase⟩ := place
  subst hcursor
  cases h with
  | token hscans => exact advances_token hscans rfl
  | name hscans htoken hkeyword => exact advances_name hscans htoken hkeyword rfl

/-- The calls that are still to be made before the next token: the one behind a keyword. -/
def Phase.pending : Phase → Nat
  | token => 0
  | name => 1

/-- A call that goes on leaves the scan with what the call took added to the pieces. -/
theorem ScannedTo.call {pieces found : List Text} {place following : Place} {rest : Text}
    (h : ScannedTo buffer pieces place.phase rest)
    (hcursor : byteLength pieces.flatten = place.cursor)
    (hcall : advance buffer place = .ok (some (found, following))) :
    (∃ after, ScannedTo buffer (pieces ++ found) following.phase after) ∧
      byteLength (pieces ++ found).flatten = following.cursor ∧
      1 + following.phase.pending + 2 * place.cursor ≤
        place.phase.pending + 2 * following.cursor := by
  cases h.advances hcursor with
  | ends _ _ hends =>
      rw [hcall] at hends
      cases hends
  | @goesOn _ _ after hgoesOn hmoved hforward hphase hscanned =>
      rw [hcall] at hgoesOn
      cases hgoesOn
      refine ⟨⟨after, hscanned⟩, ?_, ?_⟩
      · rw [List.flatten_append, byteLength_append, hcursor, hmoved]
      · obtain ⟨cursor, phase⟩ := place
        cases phase with
        | token =>
            have hlt := hforward rfl
            have hone : following.phase.pending ≤ 1 := by cases following.phase <;> decide
            have hzero : Phase.token.pending = 0 := rfl
            dsimp only at hlt ⊢
            omega
        | name =>
            have hone : Phase.name.pending = 1 := rfl
            have hzero : following.phase.pending = 0 := by rw [hphase rfl]; rfl
            dsimp only at hmoved ⊢
            omega

/-- Wherever the scan comes, it stands behind the pieces that it has taken, and has made no more
than two calls for each byte. -/
theorem Reaches.scanned {count : Nat} {pieces : List Text} {place : Place}
    (h : Reaches buffer count pieces place) :
    (∃ rest, ScannedTo buffer pieces place.phase rest) ∧
      byteLength pieces.flatten = place.cursor ∧
      count + place.phase.pending ≤ 2 * place.cursor := by
  induction h with
  | start => exact ⟨⟨buffer, .token (.nil buffer)⟩, rfl, Nat.le_refl _⟩
  | call _ hcall ih =>
      obtain ⟨⟨rest, hscanned⟩, hcursor, hcount⟩ := ih
      obtain ⟨hfollowing, hmoved, hcalls⟩ := hscanned.call hcursor hcall
      exact ⟨hfollowing, hmoved, by omega⟩

/-- The scan keeps its place in a text: the cursor is in range and between two characters, behind
the pieces taken so far, of which nothing is missing; no slice fails; a token moves the cursor
forward, and an identifier by its literal; a call is made no more than twice for each byte; and the
scan ends where the text does. -/
structure KeepsPlace (buffer : Text) (count : Nat) (pieces : List Text) (place : Place) : Prop where
  inRange : place.cursor ≤ byteLength buffer
  onBoundary : ∃ rest, cutAt? place.cursor buffer = some (pieces.flatten, rest)
  noBadSlice : ∃ result, advance buffer place = .ok result
  token : ∃ found cursor, nextToken buffer place.cursor = .ok (found, cursor) ∧
    (found = none → cursor = place.cursor) ∧
    ∀ token gap, found = some (token, gap) →
      place.cursor < cursor ∧ cursor = place.cursor + byteLength (token ++ gap) ∧
        (gap = [' '] ∨ gap = [] ∧ cursor = byteLength buffer)
  name : ∃ found cursor, recognizeName buffer place.cursor = .ok (found, cursor) ∧
    (found = none → cursor = place.cursor) ∧
    ∀ literal shape, found = some (literal, shape) → cursor = place.cursor + byteLength literal
  calls : count ≤ 2 * place.cursor
  ends : advance buffer place = .ok none →
    place.cursor = byteLength buffer ∧ pieces.flatten = buffer ∧
      pieces = (steps buffer).flatMap Step.pieces

/-- The scan keeps its place wherever it comes. -/
theorem Reaches.keeps_place {count : Nat} {pieces : List Text} {place : Place}
    (h : Reaches buffer count pieces place) : KeepsPlace buffer count pieces place := by
  obtain ⟨⟨rest, hscanned⟩, hcursor, hcount⟩ := h.scanned
  have hparts := hscanned.parts
  have hadvances := hscanned.advances hcursor
  refine ⟨?_, ⟨rest, cut_at_iff.2 ⟨hparts, hcursor⟩⟩, ?_, ?_, ?_, by omega, fun hend => ?_⟩
  · rw [← hcursor, hparts, byteLength_append]
    exact Nat.le_add_right _ _
  · cases hadvances with
    | ends _ _ hcall => exact ⟨_, hcall⟩
    | goesOn hcall => exact ⟨_, hcall⟩
  · rw [← hcursor, hparts]
    exact token_moves pieces.flatten rest
  · rw [← hcursor, hparts]
    exact name_moves pieces.flatten rest
  · cases hadvances with
    | goesOn hcall =>
        rw [hend] at hcall
        cases hcall
    | ends hphase hrest _ =>
        rw [hrest, List.append_nil] at hparts
        rw [hphase, hrest] at hscanned
        refine ⟨by rw [← hcursor, hparts], hparts.symm, ?_⟩
        cases hscanned with
        | token hscans =>
            rw [steps_append_iff.2 ⟨[], hscans, steps_nil⟩, List.append_nil]

/-- After any number of calls, the scan has ended or goes on. -/
theorem ended_or_reaches (buffer : Text) (count : Nat) :
    (∃ count pieces place, Reaches buffer count pieces place ∧ advance buffer place = .ok none) ∨
      ∃ pieces place, Reaches buffer count pieces place := by
  induction count with
  | zero => exact .inr ⟨_, _, .start⟩
  | succ count ih =>
      rcases ih with hended | ⟨pieces, place, hreaches⟩
      · exact .inl hended
      · obtain ⟨result, hcall⟩ := hreaches.keeps_place.noBadSlice
        cases result with
        | none => exact .inl ⟨count, pieces, place, hreaches, hcall⟩
        | some result => exact .inr ⟨_, _, .call hreaches hcall⟩

/-- The scan ends. -/
theorem exists_end (buffer : Text) :
    ∃ count pieces place, Reaches buffer count pieces place ∧ advance buffer place = .ok none := by
  rcases ended_or_reaches buffer (2 * byteLength buffer + 1) with hended | ⟨pieces, place, hreaches⟩
  · exact hended
  · have hplace := hreaches.keeps_place
    have hrange := hplace.inRange
    have hcalls := hplace.calls
    omega

end Runs

/-- The scan of a query keeps its place wherever it comes, and it ends, with every piece of the
squeezed query taken once and in order: those of the steps that the query is read in. No slice that
is taken to find an identifier or to cut a literal in two fails, and these find the same as readers
that do without offsets. -/
theorem scan_takes_everything_once (query : Text) :
    (∀ count pieces place, Reaches (squeeze query) count pieces place →
      KeepsPlace (squeeze query) count pieces place) ∧
    (∃ count pieces place, Reaches (squeeze query) count pieces place ∧
      advance (squeeze query) place = .ok none ∧
      place.cursor = byteLength (squeeze query) ∧ pieces.flatten = squeeze query ∧
      pieces = (steps (squeeze query)).flatMap Step.pieces) ∧
    ∀ text, (∀ shape : Shape, shape.extent text =
        .ok ((shape.read? text).map fun found => byteLength found.1.literal)) ∧
      firstExtent text Shape.all = .ok (Identifier.extent? text) ∧
      cutHeadAt text = .ok (cutHead text) := by
  refine ⟨fun count pieces place h => h.keeps_place, ?_, fun text => ?_⟩
  · obtain ⟨count, pieces, place, hreaches, hend⟩ := exists_end (squeeze query)
    obtain ⟨hcursor, hflatten, hpieces⟩ := hreaches.keeps_place.ends hend
    exact ⟨count, pieces, place, hreaches, hend, hcursor, hflatten, hpieces⟩
  · exact ⟨fun shape => shape.extent_eq text, first_extent_eq text, cut_head_at_eq text⟩

end QueryTables
