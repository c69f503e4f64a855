import Mathlib.Data.List.Basic
import QueryTables.CommandLine

/-!
# Arguments behind options

Arguments are read from left to right, so what options ask for is settled before what follows them:
arguments behind accepted options are answered as they would be by themselves, except that the
invocation already says what the options say (`AreOptions.read_append`). Two facts make this up: a
row of items goes on where another ends (`read_items_append`, `take_all_behind`), and what has been
given is told by the items (`given_of_take_all`). Options do not look at the file, so it may also be
named among them (`AreOptions.read_file_among`).
-/

namespace QueryTables.CommandLine

/-- The mark that ends the options. -/
def mark : Text :=
  "--".toList

/-- The item names a file. -/
def Item.isFile : Item → Bool
  | .setting option _ => option == .file
  | .query _ | .switch _ => false

/-- The answer to arguments that follow what an invocation says already. -/
def readOnto (invocation : Invocation) (arguments : List Text) : Reading :=
  let row := readItems false arguments
  match takeAll invocation row.fault row.items with
  | .error answer => answer
  | .ok invocation =>
      match togetherFault? row.items with
      | some fault => .refused fault
      | none => .accepted invocation

/-- Arguments by themselves follow what no arguments ask for. -/
theorem read_eq_read_onto (arguments : List Text) :
    read arguments = readOnto .standard arguments :=
  rfl

/-- A row with items in front, and further ones in front of these, has all of them in front. -/
@[simp] theorem Items.after_after (items : Items) (front others : List Item) :
    (items.after others).after front = items.after (front ++ others) := by
  simp [Items.after]

/-- An argument is followed by queries only when it is the mark. -/
theorem mark_of_queries {hasQuery : Bool} {argument : Text}
    (h : (readArgument hasQuery argument).2 = .queries) : argument = mark := by
  unfold readArgument at h
  split at h
  · rename_i hform
    revert hform
    fun_cases formOf argument with
    | case1 => exact fun _ => rfl
    | _ => exact nofun
  · split at h <;> cases h
  · unfold readNamed at h
    split at h <;> cases h
  · unfold readGrouped at h
    simp only at h
    split at h <;> cases h

/-- There is no query among switches. -/
theorem no_query_in_switches (switches : List Switch) :
    (switches.map Item.switch).any Item.isQuery = false := by
  rw [List.any_map]
  exact List.any_eq_false.2 fun _ _ => by simp [Item.isQuery]

/-- An argument that waits for a value holds no query. -/
theorem no_query_before_value {hasQuery : Bool} {argument : Text} {setting : Setting}
    (h : (readArgument hasQuery argument).2 = .valueOf setting) :
    (readArgument hasQuery argument).1.any Item.isQuery = false := by
  unfold readArgument at h ⊢
  split at h <;> rename_i hform
  · rfl
  · split at h <;> cases h
  · unfold readNamed at h ⊢
    split at h <;> rfl
  · unfold readGrouped at h ⊢
    simp only at h ⊢
    split at h
    · cases h
    · cases h
    · exact no_query_in_switches _
    · cases h

/-- Behind an argument that is complete, the next one is read. -/
theorem read_items_argument {hasQuery : Bool} {argument : Text}
    (h : (readArgument hasQuery argument).2 = .argument) (rest : List Text) :
    readItems hasQuery (argument :: rest) =
      (readItems (hasQuery || (readArgument hasQuery argument).1.any Item.isQuery) rest).after
        (readArgument hasQuery argument).1 := by
  rw [readItems, h]

/-- Behind an option without its value, the next argument is the value where it can be one. -/
theorem read_items_value {hasQuery : Bool} {argument value : Text} {setting : Setting}
    (h : (readArgument hasQuery argument).2 = .valueOf setting) (hvalue : isValue value = true)
    (rest : List Text) :
    readItems hasQuery (argument :: value :: rest) =
      (readItems hasQuery rest).after
        ((readArgument hasQuery argument).1 ++ [.setting setting (.detached value)]) := by
  rw [readItems, h]
  exact if_pos hvalue

/-- Arguments behind others without the mark, a fault or an option left without its value are read
where these end. -/
theorem read_items_append {hasQuery : Bool} {front : List Text} (hmark : mark ∉ front)
    (hfault : (readItems hasQuery front).fault = none)
    (hgiven : ∀ setting, Item.setting setting .absent ∉ (readItems hasQuery front).items)
    (rest : List Text) :
    readItems hasQuery (front ++ rest) =
      (readItems (hasQuery || (readItems hasQuery front).items.any Item.isQuery) rest).after
        (readItems hasQuery front).items := by
  -- The mark, a fault and an option without its value would each change how the rest is read. The
  -- hypotheses leave the other cases, and pass on to what follows the first argument.
  induction hasQuery, front using readItems.induct with
  | case1 hasQuery => simp [readItems, Items.none, Items.after]
  | case2 hasQuery argument others found hnext ih =>
      rw [read_items_argument hnext] at hfault hgiven ⊢
      have hothers := ih (fun hmem => hmark (List.mem_cons_of_mem _ hmem)) hfault
        fun setting hmem => hgiven setting (List.mem_append_right _ hmem)
      rw [List.cons_append, read_items_argument hnext, hothers, Items.after_after]
      simp [Items.after, Bool.or_assoc, found]
  | case3 hasQuery argument others hnext =>
      exact absurd (mark_of_queries hnext ▸ List.mem_cons_self) hmark
  | case4 hasQuery argument others fault hnext =>
      rw [readItems, hnext] at hfault
      cases hfault
  | case5 hasQuery argument setting hnext =>
      rw [readItems, hnext] at hgiven
      exact absurd (List.mem_append_right _ List.mem_cons_self) (hgiven setting)
  | case6 hasQuery argument setting hnext value others hvalue ih =>
      rw [read_items_value hnext hvalue] at hfault hgiven ⊢
      have hothers := ih (fun hmem => hmark (List.mem_cons_of_mem _ (List.mem_cons_of_mem _ hmem)))
        hfault fun setting hmem => hgiven setting (List.mem_append_right _ hmem)
      have hfront := no_query_before_value hnext
      rw [List.cons_append, List.cons_append, read_items_value hnext hvalue, hothers,
        Items.after_after]
      simp [Items.after, hfront, Item.isQuery]
  | case7 hasQuery argument setting hnext value others hvalue ih =>
      rw [readItems, hnext] at hgiven
      simp only [if_neg hvalue] at hgiven
      exact absurd (by simp [Items.after]) (hgiven setting)

/-- Items are taken without a fault only where no fault cuts their row short. -/
theorem fault_of_take_all {invocation next : Invocation} {fault : Option Fault} {items : List Item}
    (h : takeAll invocation fault items = .ok next) : fault = none := by
  fun_induction takeAll invocation fault items with
  | case1 | case3 => cases h
  | case2 => rfl
  | case4 invocation item fault hwaits =>
      cases htake : take invocation item with
      | error answer | ok taken =>
          rw [htake] at h
          cases h
  | case5 invocation item fault rest hmore ih =>
      cases htake : take invocation item with
      | error answer =>
          rw [htake] at h
          cases h
      | ok taken =>
          rw [htake] at h
          exact ih taken h

/-- Behind an item that is taken, the others are taken onto what it leaves. -/
theorem take_all_cons {invocation next : Invocation} {item : Item}
    (h : take invocation item = .ok next) (fault : Option Fault) (items : List Item) :
    takeAll invocation fault (item :: items) = takeAll next fault items := by
  cases fault with
  | none => cases items <;> simp [takeAll, h, Except.bind]
  | some fault => cases items <;> simp [takeAll, h, Except.bind]

/-- The first of a row of items that were taken is taken. -/
theorem take_of_take_all {invocation next : Invocation} {item : Item} {items : List Item}
    (h : takeAll invocation none (item :: items) = .ok next) :
    ∃ taken, take invocation item = .ok taken ∧ takeAll taken none items = .ok next := by
  cases htake : take invocation item with
  | error answer =>
      cases items <;> simp [takeAll, htake, Except.bind] at h
  | ok taken => exact ⟨taken, rfl, take_all_cons htake none items ▸ h⟩

/-- Items behind others that were taken are taken onto what these leave. -/
theorem take_all_behind {invocation next : Invocation} {first : List Item}
    (h : takeAll invocation none first = .ok next) (fault : Option Fault) (second : List Item) :
    takeAll invocation fault (first ++ second) = takeAll next fault second := by
  induction first generalizing invocation with
  | nil =>
      cases h
      rfl
  | cons item first ih =>
      obtain ⟨taken, htake, hothers⟩ := take_of_take_all h
      rw [List.cons_append, take_all_cons htake, ih hothers]

/-- The value of an option leaves the query as it is, and a file is given by the option for it. -/
theorem given_of_set_value {invocation next : Invocation} {setting : Setting} {value : Text}
    (h : invocation.setValue setting value = .ok next) :
    next.query = invocation.query ∧
      next.file.isSome = (invocation.file.isSome || setting == .file) := by
  cases setting <;> simp only [Invocation.setValue] at h <;> split at h
  case file.isTrue | config.isTrue | format.isTrue => cases h
  all_goals
    split at h <;> cases h
    simp

/-- What is taken has its value if it takes one, and gives a query or a file if it is one. -/
theorem given_of_take {invocation next : Invocation} {item : Item}
    (h : take invocation item = .ok next) :
    (∀ setting, item ≠ .setting setting .absent) ∧
      next.query.isSome = (invocation.query.isSome || item.isQuery) ∧
      next.file.isSome = (invocation.file.isSome || item.isFile) := by
  cases item with
  | query text =>
      cases h
      simp [Item.isQuery, Item.isFile]
  | setting setting given =>
      have hvalue : ∃ value, invocation.setValue setting value = .ok next ∧ given ≠ .absent := by
        cases given with
        | absent => cases h
        | attached value | detached value =>
            simp only [take] at h
            cases hset : invocation.setValue setting value <;> rw [hset] at h <;> cases h
            exact ⟨value, hset, nofun⟩
      obtain ⟨value, hset, hgiven⟩ := hvalue
      obtain ⟨hquery, hfile⟩ := given_of_set_value hset
      refine ⟨fun other hitem => hgiven (Item.setting.inj hitem).2, ?_, hfile⟩
      simp [hquery, Item.isQuery]
  | switch switch =>
      refine ⟨nofun, ?_⟩
      have hsame : next.query = invocation.query ∧ next.file = invocation.file := by
        cases switch with
        | unquote | counts =>
            simp only [take] at h
            split at h <;> cases h
            exact ⟨rfl, rfl⟩
        | verbose =>
            cases h
            exact ⟨rfl, rfl⟩
        | help | version => cases h
      simp [hsame.1, hsame.2, Item.isQuery, Item.isFile]

/-- What a row of items that are taken gives. -/
theorem given_of_take_all {invocation next : Invocation} {items : List Item}
    (h : takeAll invocation none items = .ok next) :
    (∀ setting, .setting setting .absent ∉ items) ∧
      next.query.isSome = (invocation.query.isSome || items.any Item.isQuery) ∧
      next.file.isSome = (invocation.file.isSome || items.any Item.isFile) := by
  induction items generalizing invocation with
  | nil =>
      cases h
      simp
  | cons item items ih =>
      obtain ⟨taken, htake, hothers⟩ := take_of_take_all h
      obtain ⟨hgiven, hquery, hfile⟩ := given_of_take htake
      obtain ⟨hgivens, hqueries, hfiles⟩ := ih hothers
      refine ⟨fun setting hmem => ?_, ?_, ?_⟩
      · rcases List.mem_cons.1 hmem with hitem | hmem
        · exact hgiven setting hitem.symm
        · exact hgivens setting hmem
      · rw [hqueries, hquery, List.any_cons, Bool.or_assoc]
      · rw [hfiles, hfile, List.any_cons, Bool.or_assoc]

/-- The first item that is a query or a file decides what the other of them has come together
with. -/
theorem together_fault (items : List Item) :
    togetherFault? items = (items.find? fun item => item.isQuery || item.isFile).bind fun item =>
      if item.isQuery then if items.any Item.isFile then some .queryBeforeFile else none
      else if items.any Item.isQuery then some .fileBeforeQuery else none := by
  unfold togetherFault?
  extract_lets isFile
  have hfile : isFile = Item.isFile := by
    funext item
    cases item with
    | setting option given => cases option <;> rfl
    | query | switch => rfl
  rw [hfile]
  cases items.find? fun item => item.isQuery || item.isFile with
  | none => rfl
  | some item => cases item <;> rfl

/-- Items are refused together when there are both a query and a file among them. -/
theorem together_fault_some (items : List Item) :
    (togetherFault? items).isSome = (items.any Item.isQuery && items.any Item.isFile) := by
  rw [together_fault]
  cases hfind : items.find? fun item => item.isQuery || item.isFile with
  | none =>
      have hquery : items.any Item.isQuery = false := by
        refine List.any_eq_false.2 fun item hmem hitem => ?_
        exact List.find?_eq_none.1 hfind item hmem (Bool.or_eq_true_iff.2 (.inl hitem))
      rw [hquery]
      rfl
  | some item =>
      have hmem := List.mem_of_find?_eq_some hfind
      rw [Option.bind_some]
      split
      case isTrue hitem =>
        have hquery : items.any Item.isQuery = true := List.any_eq_true.2 ⟨item, hmem, hitem⟩
        rw [hquery]
        cases items.any Item.isFile <;> rfl
      case isFalse hitem =>
        have heither : (item.isQuery || item.isFile) = true := by
          simpa using List.find?_some hfind
        have hpath : item.isFile = true := (Bool.or_eq_true_iff.1 heither).resolve_left hitem
        have hfile : items.any Item.isFile = true := List.any_eq_true.2 ⟨item, hmem, hpath⟩
        rw [hfile]
        cases items.any Item.isQuery <;> rfl

/-- Items that are neither a query nor a file do not count for what is given together. -/
theorem together_fault_behind {front : List Item} (hquery : front.any Item.isQuery = false)
    (hfile : front.any Item.isFile = false) (rest : List Item) :
    togetherFault? (front ++ rest) = togetherFault? rest := by
  have hfind : front.find? (fun item => item.isQuery || item.isFile) = none := by
    rw [List.any_eq_false] at hquery hfile
    refine List.find?_eq_none.2 fun item hmem => ?_
    simp [hquery item hmem, hfile item hmem]
  rw [together_fault, together_fault, List.find?_append, hfind, Option.none_or, List.any_append,
    List.any_append, hquery, hfile, Bool.false_or, Bool.false_or]

/-- The options are accepted as an invocation that gives neither a query nor a file, and no mark
ends them. -/
structure AreOptions (options : List Text) (invocation : Invocation) : Prop where
  accepted : read options = .accepted invocation
  noMark : mark ∉ options
  noQuery : invocation.query = none
  noFile : invocation.file = none

/-- An item that calls for an answer at once is not accepted. -/
theorem not_accepted_of_take {invocation other : Invocation} {item : Item} :
    take invocation item ≠ .error (.accepted other) := by
  cases item with
  | query text => exact nofun
  | setting setting given =>
      cases given with
      | absent => exact nofun
      | attached value | detached value =>
          rw [take]
          cases invocation.setValue setting value <;> exact nofun
  | switch switch =>
      cases switch with
      | unquote | counts =>
          rw [take]
          split <;> exact nofun
      | verbose | help | version => exact nofun

/-- Items that call for an answer at once are not accepted. -/
theorem not_accepted_of_take_all {invocation other : Invocation} {fault : Option Fault}
    {items : List Item} : takeAll invocation fault items ≠ .error (.accepted other) := by
  fun_induction takeAll invocation fault items with
  | case1 | case2 | case3 => exact nofun
  | case4 invocation item fault hwaits =>
      cases htake : take invocation item with
      | ok taken => exact nofun
      | error answer => exact fun h => not_accepted_of_take (htake.trans h)
  | case5 invocation item fault rest hmore ih =>
      cases htake : take invocation item with
      | ok taken => exact ih taken
      | error answer => exact fun h => not_accepted_of_take (htake.trans h)

/-- What is accepted was taken whole. -/
theorem take_all_of_read_onto {arguments : List Text} {invocation next : Invocation}
    (h : readOnto invocation arguments = .accepted next) :
    (readItems false arguments).fault = none ∧
      takeAll invocation none (readItems false arguments).items = .ok next := by
  simp only [readOnto] at h
  split at h
  · rename_i answer htake
    exact absurd (h ▸ htake) not_accepted_of_take_all
  · rename_i taken htake
    have hfault := fault_of_take_all htake
    rw [hfault] at htake
    split at h <;> cases h
    exact ⟨hfault, htake⟩

/-- Where what is accepted gives neither a query nor a file, no item is one. -/
theorem no_source_in_items {arguments : List Text} {invocation next : Invocation}
    (h : readOnto invocation arguments = .accepted next) (hquery : next.query = none)
    (hfile : next.file = none) :
    (readItems false arguments).items.any Item.isQuery = false ∧
      (readItems false arguments).items.any Item.isFile = false := by
  obtain ⟨-, hqueries, hfiles⟩ := given_of_take_all (take_all_of_read_onto h).2
  rw [hquery] at hqueries
  rw [hfile] at hfiles
  exact ⟨(Bool.or_eq_false_iff.1 hqueries.symm).2, (Bool.or_eq_false_iff.1 hfiles.symm).2⟩

/-- Arguments behind options are answered as they are behind nothing, onto what the options say. -/
theorem AreOptions.read_append {options : List Text} {invocation : Invocation}
    (h : AreOptions options invocation) (rest : List Text) :
    read (options ++ rest) = readOnto invocation rest := by
  obtain ⟨hfault, htake⟩ := take_all_of_read_onto h.accepted
  obtain ⟨hgiven, -⟩ := given_of_take_all htake
  obtain ⟨hquery, hfile⟩ := no_source_in_items h.accepted h.noQuery h.noFile
  have hitems := read_items_append h.noMark hfault hgiven rest
  rw [hquery, Bool.or_false] at hitems
  rw [read_eq_read_onto, readOnto, readOnto, hitems]
  simp only [Items.after, take_all_behind htake, together_fault_behind hquery hfile]

/-- One item by itself is not given together with anything. -/
theorem together_fault_of_item (item : Item) : togetherFault? [item] = none := by
  cases item with
  | query | switch => rfl
  | setting option given => cases option <;> rfl

/-- Arguments that hold one item which is taken are accepted. -/
theorem accepted_of_item {arguments : List Text} {item : Item} {invocation next : Invocation}
    (hitems : readItems false arguments = ⟨[item], none⟩)
    (htake : take invocation item = .ok next) : readOnto invocation arguments = .accepted next := by
  have hall : takeAll invocation none [item] = .ok next := take_all_cons htake none []
  simp only [readOnto, hitems, hall, together_fault_of_item]

/-- An item that is no file leaves the file as it is, and does not look at it. -/
theorem take_with_file {item : Item} (h : item.isFile = false) (invocation : Invocation)
    (file : Option Text) :
    take { invocation with file := file } item =
      (take invocation item).map fun next => { next with file := file } := by
  cases item with
  | query text => rfl
  | setting option given =>
      have hvalue (value : Text) :
          (({ invocation with file := file } : Invocation).setValue option value).mapError
              Reading.refused =
            ((invocation.setValue option value).mapError Reading.refused).map
              fun next => { next with file := file } := by
        cases option with
        | file => cases h
        | config | format =>
            simp only [Invocation.setValue]
            split
            · rfl
            · split <;> rfl
      cases given with
      | absent => rfl
      | attached value | detached value => exact hvalue value
  | switch switch =>
      cases switch with
      | unquote | counts =>
          simp only [take]
          split <;> rfl
      | verbose | help | version => rfl

/-- Items that are no files leave the file as it is. -/
theorem take_all_with_file {invocation next : Invocation} {items : List Item}
    (hfile : items.any Item.isFile = false) (h : takeAll invocation none items = .ok next)
    (file : Option Text) :
    takeAll { invocation with file := file } none items = .ok { next with file := file } := by
  induction items generalizing invocation with
  | nil =>
      cases h
      rfl
  | cons item items ih =>
      obtain ⟨hitem, hothers⟩ := Bool.or_eq_false_iff.1 hfile
      obtain ⟨taken, htake, hrest⟩ := take_of_take_all h
      have htaken : take { invocation with file := file } item =
          .ok { taken with file := file } := by
        rw [take_with_file hitem, htake]
        rfl
      rw [take_all_cons htaken, ih hothers hrest]

/-- A file among options is given together with what the options say. -/
theorem AreOptions.read_file_among {front back arguments : List Text} {value : Given}
    {path : Text} {first invocation : Invocation} (hfront : AreOptions front first)
    (hall : AreOptions (front ++ back) invocation) (hmark : mark ∉ arguments)
    (hitems : readItems false arguments = ⟨[.setting .file value], none⟩)
    (htake : take first (.setting .file value) = .ok { first with file := some path }) :
    read (front ++ (arguments ++ back)) = .accepted { invocation with file := some path } := by
  have hback : readOnto first back = .accepted invocation :=
    (hfront.read_append back).symm.trans hall.accepted
  obtain ⟨hfault, hothers⟩ := take_all_of_read_onto hback
  obtain ⟨hquery, hfile⟩ := no_source_in_items hback hall.noQuery hall.noFile
  have hread : readItems false (arguments ++ back) =
      (readItems false back).after [.setting .file value] := by
    have hgiven := (given_of_take htake).1
    rw [read_items_append hmark (by rw [hitems])
      (by simpa [hitems] using fun setting => (hgiven setting).symm), hitems]
    rfl
  have htogether :
      togetherFault? (.setting .file value :: (readItems false back).items) = none := by
    rw [together_fault, List.find?_cons_of_pos rfl]
    simp [hquery, Item.isQuery]
  have hwhole : takeAll first none (.setting .file value :: (readItems false back).items) =
      .ok { invocation with file := some path } := by
    rw [take_all_cons htake, take_all_with_file hfile hothers]
  rw [hfront.read_append, readOnto, hread]
  simp only [Items.after, List.singleton_append, hfault, hwhole, htogether]

/-- No options ask for nothing. -/
theorem AreOptions.nil : AreOptions [] .standard :=
  ⟨rfl, List.not_mem_nil, rfl, rfl⟩

/-- Options with one more behind them, which gives neither a query nor a file. -/
theorem AreOptions.append {options : List Text} {argument : Text} {item : Item}
    {invocation next : Invocation} (h : AreOptions options invocation)
    (hitems : readItems false [argument] = ⟨[item], none⟩) (htake : take invocation item = .ok next)
    (hquery : item.isQuery = false) (hfile : item.isFile = false) :
    AreOptions (options ++ [argument]) next := by
  obtain ⟨-, hnextQuery, hnextFile⟩ := given_of_take htake
  refine ⟨?_, ?_, ?_, ?_⟩
  · rw [h.read_append, accepted_of_item hitems htake]
  · rw [List.mem_append, List.mem_singleton]
    rintro (hmark | rfl)
    · exact h.noMark hmark
    · exact absurd (congrArg Items.items hitems) (List.cons_ne_nil item []).symm
  · simpa [h.noQuery, hquery] using hnextQuery
  · simpa [h.noFile, hfile] using hnextFile

/-- The argument that asks for a format, if one is asked for. -/
def formatArgument (format : Option Format) : List Text :=
  (format.map fun format => "--format=".toList ++ format.text).toList

/-- The argument that names a configuration file, if one is named. -/
def configArgument (config : Option Text) : List Text :=
  (config.map fun path => "--config=".toList ++ path).toList

/-- The argument for a switch, if it is asked for. -/
def switchArgument (switch : Switch) (asked : Bool) : List Text :=
  if asked then ["--".toList ++ switch.name] else []

/-- The arguments that ask for a format, for a configuration file and for switches. -/
def optionArguments (format : Option Format) (config : Option Text) (unquote counts : Bool) :
    List Text :=
  formatArgument format ++ configArgument config ++ switchArgument .unquote unquote ++
    switchArgument .counts counts

/-- Every format, configuration file and switch can be asked for. -/
theorem are_options {config : Option Text} (hconfig : config ≠ some []) (format : Option Format)
    (unquote counts : Bool) :
    AreOptions (optionArguments format config unquote counts)
      ⟨none, none, format, config, unquote, counts, 0⟩ := by
  have hformat : AreOptions (formatArgument format)
      ⟨none, none, format, none, false, false, 0⟩ := by
    cases format with
    | none => exact .nil
    | some format => cases format <;> exact AreOptions.nil.append rfl rfl rfl rfl
  have hpath : AreOptions (formatArgument format ++ configArgument config)
      ⟨none, none, format, config, false, false, 0⟩ := by
    cases config with
    | none => exact (List.append_nil _).symm ▸ hformat
    | some path =>
        have hne : path ≠ [] := fun h => hconfig (h ▸ rfl)
        refine hformat.append rfl ?_ rfl rfl
        simp [take, Invocation.setValue, hne, Except.mapError]
  have hunquote : AreOptions
      (formatArgument format ++ configArgument config ++ switchArgument .unquote unquote)
      ⟨none, none, format, config, unquote, false, 0⟩ := by
    cases unquote with
    | false => exact (List.append_nil _).symm ▸ hpath
    | true => exact hpath.append rfl rfl rfl rfl
  unfold optionArguments
  cases counts with
  | false => exact (List.append_nil _).symm ▸ hunquote
  | true => exact hunquote.append rfl rfl rfl rfl

end QueryTables.CommandLine
