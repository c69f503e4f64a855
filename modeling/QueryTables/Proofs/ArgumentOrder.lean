import Mathlib.Data.List.Pairwise
import Mathlib.Data.List.Perm.Basic
import QueryTables.Program
import QueryTables.Proofs.Arguments

/-!
# Order and spelling of arguments

Arguments make demands: a query, a file, values for options, switches. `Phrase` lists the ways to
write them, and `Writes` puts phrases in a row. The items that are read from a row of phrases make
its demands one for one (`Writes.read`), and taking them gives an invocation to which each demand
has been added (`take_all_demands`), in whatever order they come. So an invocation is read from
every way to write it (`Spells.read`), and the run is the same for all of them
(`order_and_spelling_do_not_matter`).
-/

namespace QueryTables.CommandLine

/-- One thing that arguments ask for. -/
inductive Demand where
  | query (text : Text)
  | file (path : Text)
  | format (format : Format)
  | config (path : Text)
  | unquote
  | counts
  | verbose
deriving DecidableEq, Repr

namespace Demand

/-- The demand that an option makes with a value. A format is named by its word in any case. -/
inductive OfValue : Setting → Text → Demand → Prop where
  | file (path : Text) : OfValue .file path (.file path)
  | format {word : Text} {format : Format}
      (hword : Text.sameIgnoringCase word format.text = true) :
      OfValue .format word (.format format)
  | config (path : Text) : OfValue .config path (.config path)

/-- The demand that an option without a value makes. -/
inductive OfSwitch : Switch → Demand → Prop where
  | unquote : OfSwitch .unquote .unquote
  | counts : OfSwitch .counts .counts
  | verbose : OfSwitch .verbose .verbose

/-- The demand is a query. -/
def isQuery : Demand → Bool
  | query _ => true
  | _ => false

/-- The demand is a file. -/
def isFile : Demand → Bool
  | file _ => true
  | _ => false

/-- The two demands are of a kind that can be made only once. -/
def Repeats : Demand → Demand → Prop
  | query _, query _ | file _, file _ | format _, format _ | config _, config _
  | unquote, unquote | counts, counts => True
  | _, _ => False

end Demand

/-- Arguments in a row that make demands: a query, an option with its value attached to it or behind
it, an option without a value, letters that ask to say more, or such letters and the one for a file
with its path. -/
inductive Phrase : List Demand → List Text → Prop where
  | query {text : Text} (hvalue : isValue text = true) : Phrase [.query text] [text]
  | attached {setting : Setting} {value : Text} {demand : Demand}
      (hdemand : Demand.OfValue setting value demand) :
      Phrase [demand] ["--".toList ++ setting.name ++ '=' :: value]
  | detached {setting : Setting} {value : Text} {demand : Demand}
      (hdemand : Demand.OfValue setting value demand) (hvalue : isValue value = true) :
      Phrase [demand] ["--".toList ++ setting.name, value]
  | switch {switch : Switch} {demand : Demand} (hdemand : Demand.OfSwitch switch demand) :
      Phrase [demand] ["--".toList ++ switch.name]
  | letters (more : Nat) :
      Phrase (List.replicate (more + 1) .verbose) ['-' :: List.replicate (more + 1) 'v']
  | lettersDetached (more : Nat) {path : Text} (hvalue : isValue path = true) :
      Phrase (List.replicate more .verbose ++ [.file path])
        ['-' :: (List.replicate more 'v' ++ [fileLetter]), path]
  | lettersAttached (more : Nat) {path : Text} (hne : path ≠ []) (hequals : path.head? ≠ some '=') :
      Phrase (List.replicate more .verbose ++ [.file path])
        ['-' :: (List.replicate more 'v' ++ fileLetter :: path)]
  | lettersEquals (more : Nat) (path : Text) :
      Phrase (List.replicate more .verbose ++ [.file path])
        ['-' :: (List.replicate more 'v' ++ fileLetter :: '=' :: path)]

/-- Arguments made up of phrases, of which the last may be a query behind the mark that ends the
options. -/
inductive Writes : List Demand → List Text → Prop where
  | nil : Writes [] []
  | marked (text : Text) : Writes [.query text] [mark, text]
  | phrase {first later : List Demand} {front rest : List Text} (hphrase : Phrase first front)
      (hrest : Writes later rest) : Writes (first ++ later) (front ++ rest)

/-- The demands that an invocation says, in one order. -/
def Invocation.demands (invocation : Invocation) : List Demand :=
  invocation.query.toList.map .query ++ invocation.file.toList.map .file ++
    invocation.format.toList.map .format ++ invocation.config.toList.map .config ++
    (if invocation.unquote then [.unquote] else []) ++
    (if invocation.counts then [.counts] else []) ++
    List.replicate invocation.verbosity .verbose

/-- The arguments spell an invocation: they make its demands in some order. -/
def Spells (invocation : Invocation) (arguments : List Text) : Prop :=
  ∃ demands, demands.Perm invocation.demands ∧ Writes demands arguments

/-- The invocation with one more demand. -/
def Invocation.add (invocation : Invocation) : Demand → Invocation
  | .query text => { invocation with query := some text }
  | .file path => { invocation with file := some path }
  | .format format => { invocation with format := some format }
  | .config path => { invocation with config := some path }
  | .unquote => { invocation with unquote := true }
  | .counts => { invocation with counts := true }
  | .verbose => { invocation with verbosity := invocation.verbosity + 1 }

/-- The demand can be added to the invocation: nothing of its kind has been, if it can be made only
once, and a path is not empty. -/
def Invocation.Allows (invocation : Invocation) : Demand → Prop
  | .query _ => invocation.query = none
  | .file path => invocation.file = none ∧ path ≠ []
  | .format _ => invocation.format = none
  | .config path => invocation.config = none ∧ path ≠ []
  | .unquote => invocation.unquote = false
  | .counts => invocation.counts = false
  | .verbose => True

/-- An item makes a demand. -/
inductive Makes : Item → Demand → Prop where
  | query (text : Text) : Makes (.query text) (.query text)
  | setting {setting : Setting} {value : Text} {given : Given} {demand : Demand}
      (hdemand : Demand.OfValue setting value demand)
      (hgiven : given = .attached value ∨ given = .detached value) :
      Makes (.setting setting given) demand
  | switch {switch : Switch} {demand : Demand} (hdemand : Demand.OfSwitch switch demand) :
      Makes (.switch switch) demand

section Reading

/-- An argument that can be a value is not taken for an option. -/
theorem form_of_value {argument : Text} (h : isValue argument = true) :
    formOf argument = .plain := by
  unfold isValue at h
  fun_cases formOf argument with
  | case1 | case2 => revert h; simp
  | case3 | case5 => rfl
  | case4 letters hmark hname hhyphen => simp_all

/-- Letters behind one hyphen are read as such. -/
theorem form_of_letters {letters : Text} (hne : letters ≠ []) (hhyphen : letters.head? ≠ some '-') :
    formOf ('-' :: letters) = .letters letters := by
  obtain ⟨c, rest, rfl⟩ := List.exists_cons_of_ne_nil hne
  have hc : c ≠ '-' := fun h => hhyphen (congrArg some h)
  unfold formOf
  split <;> simp_all

/-- Letters that ask to say more are read one by one. -/
theorem read_letters_verbose (more : Nat) (rest : Text) :
    readLetters (List.replicate more 'v' ++ rest) =
      (List.replicate more .verbose ++ (readLetters rest).1, (readLetters rest).2) := by
  induction more with
  | zero => rfl
  | succ more ih =>
      have hfirst (letters : Text) : readLetters ('v' :: letters) =
          (.verbose :: (readLetters letters).1, (readLetters letters).2) := rfl
      rw [List.replicate_succ, List.cons_append, hfirst, ih]
      rfl

/-- A group of letters that asks to say more, and then is read as what its other letters are. -/
theorem read_letters_behind (hasQuery : Bool) (more : Nat) {rest : Text} {items : List Item}
    {next : Next} (hrest : readGrouped rest = (items, next))
    (hne : List.replicate more 'v' ++ rest ≠ []) (hhyphen : rest.head? ≠ some '-') :
    readArgument hasQuery ('-' :: (List.replicate more 'v' ++ rest)) =
      (List.replicate more (.switch .verbose) ++ items, next) := by
  have hfirst : (List.replicate more 'v' ++ rest).head? ≠ some '-' := by
    cases more with
    | zero => exact hhyphen
    | succ more => exact nofun
  obtain ⟨rfl, rfl⟩ : (readGrouped rest).1 = items ∧ (readGrouped rest).2 = next := by
    simp [hrest]
  rw [readArgument, form_of_letters hne hfirst]
  simp only [readGrouped, read_letters_verbose, List.map_append, List.map_replicate]
  cases (readLetters rest).2 <;> simp

/-- Items that ask to say more make demands to say more. -/
theorem makes_verbose (more : Nat) {items : List Item} {demands : List Demand}
    (h : List.Forall₂ Makes items demands) :
    List.Forall₂ Makes (List.replicate more (.switch .verbose) ++ items)
      (List.replicate more .verbose ++ demands) := by
  induction more with
  | zero => exact h
  | succ more ih => exact .cons (.switch .verbose) ih

/-- An item is a query when its demand is. -/
theorem Makes.is_query {item : Item} {demand : Demand} (h : Makes item demand) :
    item.isQuery = demand.isQuery := by
  cases h with
  | query => rfl
  | setting hdemand => cases hdemand <;> rfl
  | switch hdemand => cases hdemand <;> rfl

/-- An item is a file when its demand is. -/
theorem Makes.is_file {item : Item} {demand : Demand} (h : Makes item demand) :
    item.isFile = demand.isFile := by
  cases h with
  | query => rfl
  | setting hdemand => cases hdemand <;> rfl
  | switch hdemand => cases hdemand <;> rfl

/-- There is a query among items when there is one among their demands. -/
theorem any_query {items : List Item} {demands : List Demand}
    (h : List.Forall₂ Makes items demands) :
    items.any Item.isQuery = demands.any Demand.isQuery := by
  induction h with
  | nil => rfl
  | cons hmakes _ ih => rw [List.any_cons, List.any_cons, hmakes.is_query, ih]

/-- There is a file among items when there is one among their demands. -/
theorem any_file {items : List Item} {demands : List Demand}
    (h : List.Forall₂ Makes items demands) :
    items.any Item.isFile = demands.any Demand.isFile := by
  induction h with
  | nil => rfl
  | cons hmakes _ ih => rw [List.any_cons, List.any_cons, hmakes.is_file, ih]

/-- Arguments in front of others are read as items that make the demands, and the others behind
them. -/
def ReadsAs (hasQuery : Bool) (front : List Text) (demands : List Demand) : Prop :=
  ∃ items, List.Forall₂ Makes items demands ∧ ∀ rest,
    readItems hasQuery (front ++ rest) =
      (readItems (hasQuery || demands.any Demand.isQuery) rest).after items

/-- An argument that is complete is read as what its items demand. -/
theorem reads_argument {hasQuery : Bool} {argument : Text} {items : List Item}
    {demands : List Demand} (hread : readArgument hasQuery argument = (items, .argument))
    (hmakes : List.Forall₂ Makes items demands) : ReadsAs hasQuery [argument] demands := by
  refine ⟨items, hmakes, fun rest => ?_⟩
  rw [List.singleton_append, read_items_argument (by rw [hread]), hread, any_query hmakes]

/-- An argument that waits for its value, with the value behind it, is read as what its items and
then the option demand. -/
theorem reads_value {hasQuery : Bool} {argument value : Text} {setting : Setting}
    {items : List Item} {demands : List Demand} {demand : Demand}
    (hread : readArgument hasQuery argument = (items, .valueOf setting))
    (hmakes : List.Forall₂ Makes items demands) (hvalue : isValue value = true)
    (hdemand : Demand.OfValue setting value demand) :
    ReadsAs hasQuery [argument, value] (demands ++ [demand]) := by
  have hall : List.Forall₂ Makes (items ++ [.setting setting (.detached value)])
      (demands ++ [demand]) :=
    List.rel_append hmakes (.cons (.setting hdemand (.inr rfl)) .nil)
  have hnone : items.any Item.isQuery = false := by
    have hfront := no_query_before_value (congrArg Prod.snd hread)
    rwa [hread] at hfront
  refine ⟨_, hall, fun rest => ?_⟩
  rw [List.cons_append, List.singleton_append, read_items_value (by rw [hread]) hvalue, hread,
    ← any_query hall, List.any_append, hnone]
  simp [Item.isQuery]

/-- A phrase is read as what it demands, unless it is a second query. -/
theorem Phrase.read {demands : List Demand} {front : List Text} (h : Phrase demands front)
    {hasQuery : Bool} (hquery : hasQuery = true → demands.any Demand.isQuery = false) :
    ReadsAs hasQuery front demands := by
  cases h with
  | @query text hvalue =>
      have hnone : hasQuery = false := by
        cases hasQuery with
        | false => rfl
        | true => cases hquery rfl
      have hread : readArgument hasQuery text = ([.query text], .argument) := by
        rw [readArgument, form_of_value hvalue, hnone]
        rfl
      exact reads_argument hread (.cons (.query text) .nil)
  | @attached setting value demand hdemand =>
      have hread : readArgument hasQuery ("--".toList ++ setting.name ++ '=' :: value) =
          ([.setting setting (.attached value)], .argument) := by
        cases setting <;> rfl
      exact reads_argument hread (.cons (.setting hdemand (.inl rfl)) .nil)
  | @detached setting value demand hdemand hvalue =>
      have hread : readArgument hasQuery ("--".toList ++ setting.name) =
          ([], .valueOf setting) := by
        cases setting <;> rfl
      exact reads_value hread .nil hvalue hdemand
  | @switch switch demand hdemand =>
      have hread : readArgument hasQuery ("--".toList ++ switch.name) =
          ([.switch switch], .argument) := by
        cases switch <;> rfl
      exact reads_argument hread (.cons (.switch hdemand) .nil)
  | letters more =>
      have hgroup : readGrouped [] = ([], .argument) := rfl
      have hread := read_letters_behind hasQuery (more + 1) hgroup (List.cons_ne_nil _ _) nofun
      have hmakes := makes_verbose (more + 1) .nil
      simp only [List.append_nil] at hread hmakes
      exact reads_argument hread hmakes
  | @lettersDetached more path hvalue =>
      have hgroup : readGrouped [fileLetter] = ([], .valueOf .file) := rfl
      have hread := read_letters_behind hasQuery more hgroup (by simp) (by decide)
      have hmakes := makes_verbose more .nil
      simp only [List.append_nil] at hread hmakes
      exact reads_value hread hmakes hvalue (.file path)
  | @lettersAttached more path hne hequals =>
      obtain ⟨c, tail, rfl⟩ := List.exists_cons_of_ne_nil hne
      have hc : c ≠ '=' := fun h => hequals (congrArg some h)
      have hvalue : readLetters (fileLetter :: c :: tail) =
          ([], .fileAttached (if c = '=' then tail else c :: tail)) := rfl
      have hgroup : readGrouped (fileLetter :: c :: tail) =
          ([.setting .file (.attached (c :: tail))], .argument) := by
        rw [readGrouped, hvalue, if_neg hc]
        rfl
      have hread := read_letters_behind hasQuery more hgroup (by simp) (by simp [fileLetter])
      exact reads_argument hread (makes_verbose more (.cons (.setting (.file _) (.inl rfl)) .nil))
  | lettersEquals more path =>
      have hgroup : readGrouped (fileLetter :: '=' :: path) =
          ([.setting .file (.attached path)], .argument) := rfl
      have hread := read_letters_behind hasQuery more hgroup (by simp) (by simp [fileLetter])
      have hfile : Makes (.setting .file (.attached path)) (.file path) :=
        .setting (.file path) (.inl rfl)
      exact reads_argument hread (makes_verbose more (.cons hfile .nil))

/-- Where there is room for the queries that are demanded, a first part has no second query and
leaves room for the later ones. -/
theorem query_left {first later : List Demand} {hasQuery : Bool}
    (h : (first ++ later).countP Demand.isQuery ≤ if hasQuery then 0 else 1) :
    (hasQuery = true → first.any Demand.isQuery = false) ∧
      later.countP Demand.isQuery ≤ if hasQuery || first.any Demand.isQuery then 0 else 1 := by
  rw [List.countP_append] at h
  constructor
  · rintro rfl
    have hnone : first.countP Demand.isQuery = 0 := by
      simp only [if_true] at h
      omega
    rw [List.countP_eq_zero] at hnone
    exact List.any_eq_false.2 hnone
  · cases hany : first.any Demand.isQuery with
    | false =>
        rw [Bool.or_false]
        omega
    | true =>
        have hpos : 0 < first.countP Demand.isQuery := by
          rw [List.any_eq_true] at hany
          exact List.countP_pos_iff.2 hany
        rw [Bool.or_true, if_pos rfl]
        split at h <;> omega

/-- Arguments made up of phrases are read as what they demand, if there is one query at most. -/
theorem Writes.read {demands : List Demand} {arguments : List Text} (h : Writes demands arguments)
    {hasQuery : Bool} (hquery : demands.countP Demand.isQuery ≤ if hasQuery then 0 else 1) :
    ∃ items, readItems hasQuery arguments = ⟨items, none⟩ ∧ List.Forall₂ Makes items demands := by
  induction h generalizing hasQuery with
  | nil => exact ⟨[], rfl, .nil⟩
  | marked text =>
      have hnone : hasQuery = false := by
        cases hasQuery with
        | false => rfl
        | true => exact absurd (show 1 ≤ 0 from hquery) (by decide)
      subst hnone
      exact ⟨[.query text], rfl, .cons (.query text) .nil⟩
  | @phrase first later front rest hphrase _ ih =>
      obtain ⟨hfirst, hlater⟩ := query_left hquery
      obtain ⟨items, hmakes, hread⟩ := hphrase.read hfirst
      obtain ⟨others, hothers, hmakesOthers⟩ := ih hlater
      refine ⟨items ++ others, ?_, List.rel_append hmakes hmakesOthers⟩
      rw [hread, hothers]
      rfl

end Reading

section Taking

variable {invocation : Invocation}

/-- A format is found by its word in any case. -/
theorem format_of_word {word : Text} {format : Format}
    (h : Text.sameIgnoringCase word format.text = true) : Format.ofText? word = some format := by
  cases format with
  | plain => simp [Format.ofText?, h]
  | json =>
      have hother : Text.sameIgnoringCase word Format.plain.text = false := by
        rw [Text.sameIgnoringCase, beq_iff_eq] at h
        rw [Text.sameIgnoringCase, h]
        decide
      simp [Format.ofText?, h, hother]

/-- An item whose demand is allowed is taken, and adds it. -/
theorem take_demand {item : Item} {demand : Demand} (h : Makes item demand)
    (hallows : invocation.Allows demand) : take invocation item = .ok (invocation.add demand) := by
  cases h with
  | query text => rfl
  | @setting setting value given demand hdemand hgiven =>
      have hset : invocation.setValue setting value = .ok (invocation.add demand) := by
        cases hdemand with
        | file path => simp [Invocation.setValue, hallows.1, hallows.2, Invocation.add]
        | config path => simp [Invocation.setValue, hallows.1, hallows.2, Invocation.add]
        | format hword =>
            have hnone : invocation.format = none := hallows
            simp [Invocation.setValue, hnone, format_of_word hword, Invocation.add]
      rcases hgiven with rfl | rfl <;> rw [take, hset, Except.mapError]
  | switch hdemand =>
      cases hdemand with
      | unquote =>
          have hoff : invocation.unquote = false := hallows
          simp [take, hoff, Invocation.add]
      | counts =>
          have hoff : invocation.counts = false := hallows
          simp [take, hoff, Invocation.add]
      | verbose => rfl

/-- A demand that is allowed still is behind one that it does not repeat. -/
theorem allows_behind {first second : Demand} (hallows : invocation.Allows second)
    (happart : ¬ first.Repeats second) : (invocation.add first).Allows second := by
  cases second <;> cases first <;>
    simp_all [Invocation.Allows, Invocation.add, Demand.Repeats]

/-- Items whose demands are allowed and do not repeat each other are taken, and add them. -/
theorem take_all_demands {items : List Item} {demands : List Demand}
    (h : List.Forall₂ Makes items demands) (hallows : ∀ demand ∈ demands, invocation.Allows demand)
    (happart : demands.Pairwise fun first second => ¬ first.Repeats second) :
    takeAll invocation none items = .ok (demands.foldl Invocation.add invocation) := by
  induction h generalizing invocation with
  | nil => rfl
  | @cons item demand items demands hmakes _ ih =>
      rw [List.forall_mem_cons] at hallows
      rw [List.pairwise_cons] at happart
      rw [take_all_cons (take_demand hmakes hallows.1), List.foldl_cons]
      refine ih (fun other hother => ?_) happart.2
      exact allows_behind (hallows.2 other hother) (happart.1 other hother)

/-- Two demands that do not repeat each other can be added in either order. -/
theorem add_comm {first second : Demand} (happart : ¬ first.Repeats second) :
    (invocation.add first).add second = (invocation.add second).add first := by
  cases second <;> cases first <;> simp_all [Invocation.add, Demand.Repeats]

end Taking

section Demands

variable (asked : Invocation)

/-- No two demands of an invocation repeat each other. -/
theorem demands_apart : asked.demands.Pairwise fun first second => ¬ first.Repeats second := by
  obtain ⟨query, file, format, config, unquote, counts, verbosity⟩ := asked
  simp only [Invocation.demands, List.pairwise_append, List.mem_append, or_imp, forall_and]
  cases unquote <;> cases counts <;> simp [Demand.Repeats, List.pairwise_map]

/-- Demands to say more add up. -/
theorem add_verbose (invocation : Invocation) (more : Nat) :
    (List.replicate more Demand.verbose).foldl Invocation.add invocation =
      { invocation with verbosity := invocation.verbosity + more } := by
  induction more generalizing invocation with
  | zero => rfl
  | succ more ih =>
      rw [List.replicate_succ, List.foldl_cons, ih, Invocation.add, Nat.add_assoc, Nat.add_comm 1]

/-- An invocation is what its demands add up to. -/
theorem add_demands : asked.demands.foldl Invocation.add .standard = asked := by
  obtain ⟨query, file, format, config, unquote, counts, verbosity⟩ := asked
  simp only [Invocation.demands, List.foldl_append, add_verbose]
  cases query <;> cases file <;> cases format <;> cases config <;> cases unquote <;>
    cases counts <;> simp [Invocation.add, Invocation.standard]

/-- Nothing is asked for before the first demand, so every demand is allowed if its path is not
empty. -/
theorem standard_allows {demand : Demand} (hdemand : demand ∈ asked.demands)
    (hfile : asked.file ≠ some []) (hconfig : asked.config ≠ some []) :
    Invocation.standard.Allows demand := by
  cases demand with
  | file path =>
      have hmem : asked.file = some path := by simpa [Invocation.demands] using hdemand
      exact ⟨rfl, fun hempty => hfile (hempty ▸ hmem)⟩
  | config path =>
      have hmem : asked.config = some path := by simpa [Invocation.demands] using hdemand
      exact ⟨rfl, fun hempty => hconfig (hempty ▸ hmem)⟩
  | query | format | unquote | counts => rfl
  | verbose => trivial

/-- An invocation demands as many queries as it gives. -/
theorem count_query : asked.demands.countP Demand.isQuery = asked.query.toList.length := by
  simp [Invocation.demands, List.countP_map, Demand.isQuery, Function.comp_def]

/-- An invocation demands a query when it gives one. -/
theorem demands_query : asked.demands.any Demand.isQuery = asked.query.isSome := by
  rw [Bool.eq_iff_iff, List.any_eq_true, ← List.countP_pos_iff, count_query]
  cases asked.query <;> simp

/-- An invocation demands a file when it gives one. -/
theorem demands_file : asked.demands.any Demand.isFile = asked.file.isSome := by
  cases hfile : asked.file <;> simp [Invocation.demands, Demand.isFile, hfile]

end Demands

section Order

variable {asked : Invocation} {arguments : List Text}

/-- Where a demand does not repeat another, the other does not repeat it. -/
theorem apart_comm {first second : Demand} (h : ¬ first.Repeats second) :
    ¬ second.Repeats first := by
  cases first <;> cases second <;> exact h

/-- The demands of an invocation do not repeat each other in any order. -/
theorem apart_of_perm {demands : List Demand} (hperm : demands.Perm asked.demands) :
    demands.Pairwise fun first second => ¬ first.Repeats second :=
  (hperm.pairwise_iff apart_comm).2 (demands_apart asked)

/-- The demands of an invocation add up to it in any order. -/
theorem add_of_perm {demands : List Demand} (hperm : demands.Perm asked.demands) :
    demands.foldl Invocation.add .standard = asked := by
  have hsymm : Std.Symm fun first second : Demand => ¬ first.Repeats second :=
    ⟨fun _ _ => apart_comm⟩
  have hcomm : ∀ first ∈ demands, ∀ second ∈ demands, ∀ invocation : Invocation,
      (invocation.add first).add second = (invocation.add second).add first := by
    intro first hfirst second hsecond invocation
    by_cases hsame : first = second
    · rw [hsame]
    · exact add_comm ((apart_of_perm hperm).forall hfirst hsecond hsame)
  rw [hperm.foldl_eq' hcomm, add_demands]

/-- Arguments that spell an invocation are read without a fault as items that make its demands. -/
theorem Spells.items (h : Spells asked arguments) :
    ∃ items demands, readItems false arguments = ⟨items, none⟩ ∧
      List.Forall₂ Makes items demands ∧ demands.Perm asked.demands := by
  obtain ⟨demands, hperm, hwrites⟩ := h
  have hquery : demands.countP Demand.isQuery ≤ if false then 0 else 1 := by
    rw [hperm.countP_eq, count_query]
    cases asked.query <;> simp
  obtain ⟨items, hitems, hmakes⟩ := hwrites.read hquery
  exact ⟨items, demands, hitems, hmakes, hperm⟩

/-- Items hold a query and a file when the invocation whose demands they make does. -/
theorem sources_of_items {items : List Item} {demands : List Demand}
    (hmakes : List.Forall₂ Makes items demands) (hperm : demands.Perm asked.demands) :
    items.any Item.isQuery = asked.query.isSome ∧ items.any Item.isFile = asked.file.isSome := by
  rw [any_query hmakes, any_file hmakes, hperm.any_eq, hperm.any_eq]
  exact ⟨demands_query asked, demands_file asked⟩

/-- An invocation is read from all arguments that spell it. -/
theorem Spells.read (h : Spells asked arguments) (hone : asked.query = none ∨ asked.file = none)
    (hfile : asked.file ≠ some []) (hconfig : asked.config ≠ some []) :
    read arguments = .accepted asked := by
  obtain ⟨items, demands, hitems, hmakes, hperm⟩ := h.items
  have htake : takeAll .standard none items = .ok asked := by
    have hallows : ∀ demand ∈ demands, Invocation.standard.Allows demand := fun demand hdemand =>
      standard_allows asked (hperm.subset hdemand) hfile hconfig
    rw [take_all_demands hmakes hallows (apart_of_perm hperm), add_of_perm hperm]
  have htogether : togetherFault? items = none := by
    obtain ⟨hquery, hpath⟩ := sources_of_items hmakes hperm
    have hsome := together_fault_some items
    rw [hquery, hpath] at hsome
    rcases hone with hnone | hnone <;> simpa [hnone] using hsome
  simp only [CommandLine.read, hitems, htake, htogether]

/-- An item that makes a demand is taken or refused. -/
theorem Makes.refused {item : Item} {demand : Demand} (h : Makes item demand)
    {invocation : Invocation} {answer : Reading} (htake : take invocation item = .error answer) :
    ∃ fault, answer = .refused fault := by
  cases h with
  | query text => cases htake
  | @setting setting value given demand hdemand hgiven =>
      have hset : (invocation.setValue setting value).mapError Reading.refused = .error answer := by
        rcases hgiven with rfl | rfl <;> exact htake
      cases hvalue : invocation.setValue setting value with
      | error fault =>
          rw [hvalue] at hset
          cases hset
          exact ⟨fault, rfl⟩
      | ok next =>
          rw [hvalue] at hset
          cases hset
  | switch hdemand =>
      cases hdemand with
      | unquote | counts =>
          simp only [take] at htake
          split at htake <;> cases htake
          exact ⟨_, rfl⟩
      | verbose => cases htake

/-- Items that make demands are taken or refused. -/
theorem refused_of_take_all {items : List Item} {demands : List Demand}
    (h : List.Forall₂ Makes items demands) {invocation : Invocation} {answer : Reading}
    (htake : takeAll invocation none items = .error answer) : ∃ fault, answer = .refused fault := by
  induction h generalizing invocation with
  | nil => cases htake
  | @cons item demand items demands hmakes _ ih =>
      cases hitem : take invocation item with
      | ok next =>
          rw [take_all_cons hitem] at htake
          exact ih htake
      | error fault =>
          have hsame : fault = answer := by
            cases items <;> simpa [takeAll, hitem, Except.bind] using htake
          exact hsame ▸ hmakes.refused hitem

/-- Where items are taken, each demand that they make is made by an item that is taken. -/
theorem taken_of_demand {items : List Item} {demands : List Demand}
    (h : List.Forall₂ Makes items demands) {invocation next : Invocation}
    (htake : takeAll invocation none items = .ok next) {demand : Demand}
    (hmem : demand ∈ demands) :
    ∃ item before after, Makes item demand ∧ take before item = .ok after := by
  induction h generalizing invocation with
  | nil => cases hmem
  | @cons item _ _ _ hmakes _ ih =>
      obtain ⟨taken, hitem, hothers⟩ := take_of_take_all htake
      rcases List.mem_cons.1 hmem with rfl | hmem
      · exact ⟨item, invocation, taken, hmakes, hitem⟩
      · exact ih hothers hmem

/-- An empty path for a configuration file is not taken. -/
theorem Makes.not_taken {item : Item} (h : Makes item (.config [])) (before after : Invocation) :
    take before item ≠ .ok after := by
  cases h with
  | @setting setting value given demand hdemand hgiven =>
      cases hdemand
      have hset : ∃ fault, before.setValue .config [] = .error fault := by
        rw [Invocation.setValue]
        split <;> exact ⟨_, rfl⟩
      obtain ⟨fault, hset⟩ := hset
      rcases hgiven with rfl | rfl <;> simp [take, hset, Except.mapError]
  | switch hdemand => cases hdemand

/-- Arguments are refused where they name a configuration file by an empty path, and where they give
both a query and a file. -/
theorem Spells.refused (h : Spells asked arguments)
    (hwrong : asked.config = some [] ∨ asked.query.isSome ∧ asked.file.isSome) :
    ∃ fault, CommandLine.read arguments = .refused fault := by
  obtain ⟨items, demands, hitems, hmakes, hperm⟩ := h.items
  cases htake : takeAll .standard none items with
  | error answer =>
      obtain ⟨fault, rfl⟩ := refused_of_take_all hmakes htake
      exact ⟨fault, by simp only [CommandLine.read, hitems, htake]⟩
  | ok next =>
      have hboth : asked.query.isSome ∧ asked.file.isSome := by
        refine hwrong.resolve_left fun hconfig => ?_
        have hdemand : .config [] ∈ demands :=
          hperm.symm.subset (by simp [Invocation.demands, hconfig])
        obtain ⟨item, before, after, hmake, htaken⟩ := taken_of_demand hmakes htake hdemand
        exact hmake.not_taken before after htaken
      have htogether : (togetherFault? items).isSome := by
        obtain ⟨hquery, hpath⟩ := sources_of_items hmakes hperm
        rw [together_fault_some, hquery, hpath, hboth.1, hboth.2]
        rfl
      obtain ⟨fault, hfault⟩ := Option.isSome_iff_exists.1 htogether
      exact ⟨fault, by simp only [CommandLine.read, hitems, htake, hfault]⟩

end Order

end QueryTables.CommandLine

namespace QueryTables

open CommandLine

end QueryTables
