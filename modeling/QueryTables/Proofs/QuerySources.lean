import QueryTables.Program
import QueryTables.Proofs.Arguments
import QueryTables.Proofs.Reports

/-!
# Queries from every source

What a run prints depends on the query and the options, not on where the query is read from:
`same_answer_from_every_source`. What stands on the standard input matters only to a run that reads
it there (`run_without_input`).
-/

namespace QueryTables

open CommandLine

/-- The arguments name a file that holds a query, with the path attached to the option or in the
argument behind it. -/
inductive NamesFile (find : Text → Except FileFault FileEntry) (query : Text) :
    List Text → Prop where
  | attached {path : Text} (hpath : path ≠ [])
      (hfile : find path = .ok (.file (Text.toBytes query))) :
      NamesFile find query ["--file=".toList ++ path]
  | detached {option path : Text} (hoption : option = "--file".toList ∨ option = "-f".toList)
      (hpath : path ≠ []) (hvalue : isValue path = true)
      (hfile : find path = .ok (.file (Text.toBytes query))) :
      NamesFile find query [option, path]

/-- The arguments give a query besides options: as it is and last, behind the mark that ends the
options or where it cannot be taken for an option, or in a file that is named anywhere among the
options, but not between an option and its value. -/
inductive Gives (find : Text → Except FileFault FileEntry) (query : Text) (options : List Text) :
    List Text → Prop where
  | marked : Gives find query options (options ++ [mark, query])
  | plain (hplain : query.head? ≠ some '-') : Gives find query options (options ++ [query])
  | file {front back arguments : List Text} {invocation : Invocation}
      (hoptions : options = front ++ back) (hfront : AreOptions front invocation)
      (hnames : NamesFile find query arguments) :
      Gives find query options (front ++ (arguments ++ back))

/-- The run succeeds and prints the text. -/
structure Prints (outcome : Outcome) (text : Text) : Prop where
  succeeds : outcome.ending.status = 0
  printed : outcome.printed = text

section Given

variable {find : Text → Except FileFault FileEntry} {query : Text}

/-- An argument that does not start with a hyphen is not taken for an option. -/
theorem form_of_plain {argument : Text} (h : argument.head? ≠ some '-') :
    formOf argument = .plain := by
  fun_cases formOf argument with
  | case1 | case2 | case4 => exact absurd rfl h
  | case3 | case5 => rfl

/-- A query that does not start with a hyphen is one item by itself. -/
theorem read_items_plain (h : query.head? ≠ some '-') :
    readItems false [query] = ⟨[.query query], none⟩ := by
  have hread : readArgument false query = ([.query query], .argument) := by
    rw [readArgument, form_of_plain h]
    rfl
  rw [readItems, hread]
  rfl

/-- A path is taken by the option for a file where no file is given yet. -/
theorem take_path {invocation : Invocation} {path : Text} {given : Given}
    (hfile : invocation.file = none) (hpath : path ≠ [])
    (hgiven : given = .attached path ∨ given = .detached path) :
    take invocation (.setting .file given) = .ok { invocation with file := some path } := by
  have hset : invocation.setValue .file path = .ok { invocation with file := some path } := by
    simp [Invocation.setValue, hfile, hpath]
  rcases hgiven with rfl | rfl <;> rw [take, hset, Except.mapError]

/-- Arguments that name a file are one item, the option with its path, and have no mark in them. -/
theorem NamesFile.item {arguments : List Text} (h : NamesFile find query arguments) :
    mark ∉ arguments ∧ ∃ path given, readItems false arguments = ⟨[.setting .file given], none⟩ ∧
      (given = .attached path ∨ given = .detached path) ∧ path ≠ [] ∧
      find path = .ok (.file (Text.toBytes query)) := by
  cases h with
  | attached hpath hfile =>
      refine ⟨?_, _, _, rfl, .inl rfl, hpath, hfile⟩
      rw [List.mem_singleton]
      exact nofun
  | @detached option path hoption hpath hvalue hfile =>
      have hopen : readArgument false option = ([], .valueOf .file) := by
        rcases hoption with rfl | rfl <;> rfl
      refine ⟨?_, path, .detached path, ?_, .inr rfl, hpath, hfile⟩
      · rw [List.mem_pair]
        rintro (rfl | rfl)
        · cases hopen
        · cases hvalue
      · rw [read_items_value (congrArg Prod.snd hopen) hvalue, hopen]
        rfl

/-- The arguments are accepted with what the options say, and the run reads the query that they
give, whatever stands on the standard input. -/
theorem Gives.read {options arguments : List Text} {invocation : Invocation}
    (h : Gives find query options arguments) (hoptions : AreOptions options invocation) :
    ∃ text file, CommandLine.read arguments =
        .accepted { invocation with query := text, file := file } ∧
      QuerySource.ofGiven text file ≠ .standardInput ∧
      ∀ input, (QuerySource.ofGiven text file).read find input = .ok query := by
  have hinline {tail : List Text} (htail : readItems false tail = ⟨[.query query], none⟩) :
      CommandLine.read (options ++ tail) =
        .accepted { invocation with query := some query, file := none } := by
    rw [hoptions.read_append, accepted_of_item htail rfl, ← hoptions.noFile]
  cases h with
  | marked => exact ⟨some query, none, hinline rfl, nofun, fun _ => rfl⟩
  | plain hplain =>
      exact ⟨some query, none, hinline (read_items_plain hplain), nofun, fun _ => rfl⟩
  | file hsplit hfront hnames =>
      obtain ⟨hmark, path, given, hitems, hgiven, hpath, hfound⟩ := hnames.item
      refine ⟨none, some path, ?_, nofun, fun input => ?_⟩
      · rw [hfront.read_file_among (hsplit ▸ hoptions) hmark hitems
          (take_path hfront.noFile hpath hgiven), ← hoptions.noQuery]
      · show QuerySource.read find input (.file path) = .ok query
        simp only [QuerySource.read, hfound, FileEntry.read, Text.ofBytes?_toBytes]

end Given

/-- What a run does before it reads its query does not depend on the standard input. -/
theorem before_input (world : World) (input : ByteArray) (invocation : Invocation) :
    ({ world with input := input } : World).unsettable? = world.unsettable? ∧
      ({ world with input := input } : World).environment = world.environment ∧
      usedConfig { world with input := input } invocation = usedConfig world invocation :=
  ⟨rfl, rfl, rfl⟩

/-- A source other than the standard input holds what it holds, whatever stands there. -/
theorem read_without_input {source : QuerySource} (h : source ≠ .standardInput)
    (find : Text → Except FileFault FileEntry) (input other : ByteArray) :
    source.read find input = source.read find other := by
  cases source with
  | inline | file => rfl
  | standardInput => exact absurd rfl h

/-- A run that does not read the standard input is the same whatever stands there. -/
theorem run_without_input {arguments : List Text} (h : readsInput arguments = false)
    (world : World) (input : ByteArray) :
    run { world with input := input } arguments = run world arguments := by
  unfold readsInput at h
  have hsettled : runSettled { world with input := input } arguments =
      runSettled world arguments := by
    cases hread : read arguments with
    | help | version | refused fault => simp only [runSettled, hread]
    | accepted invocation =>
        rw [hread] at h
        have hsource := read_without_input (by simpa using h) world.find input world.input
        obtain ⟨-, henvironment, hused⟩ := before_input world input invocation
        simp only [runSettled, hread, runAccepted, henvironment, hused, hsource]
  obtain ⟨hset, -, -⟩ := before_input world input .standard
  rw [run, run, hset, hsettled]

/-- A run that gets to a query prints the report on its tables. -/
theorem run_prints {world : World} {arguments : List Text} {invocation : Invocation}
    {config : Config} {query : Text} (hset : world.unsettable? = none)
    (hread : read arguments = .accepted invocation)
    (hconfig : Config.loadUsed world.find (usedConfig world invocation) = .ok config)
    (hquery : (QuerySource.ofGiven invocation.query invocation.file).read world.find world.input =
      .ok query) :
    Prints (run world arguments)
      (printedReport (report (config.resolve invocation.format invocation.unquote invocation.counts)
        (extract query))) := by
  constructor <;>
    simp only [run_of_settable hset, runSettled, hread, runAccepted, hconfig, hquery]
  rfl

/-- A report is printed as nothing only when it is empty, and else with one line end behind it. -/
theorem printed_report_cases (report : Text) :
    (printedReport report = [] ↔ report = []) ∧
      (printedReport report ≠ [] → printedReport report = report ++ ['\n']) := by
  unfold printedReport
  split <;> simp_all

/-- A run that gets a query by its arguments does not read the standard input. -/
theorem reads_no_input {find : Text → Except FileFault FileEntry} {query : Text}
    {options arguments : List Text} {invocation : Invocation}
    (h : Gives find query options arguments) (hoptions : AreOptions options invocation) :
    readsInput arguments = false := by
  obtain ⟨text, file, hread, hsource, -⟩ := h.read hoptions
  simpa [readsInput, hread] using hsource

/-- Every format, configuration file and switch can be asked for by options. Where the variables can
be set and the configuration for options can be loaded, all runs that get the same query besides
them, as it is, in a file or on the standard input, succeed and print the same: nothing when the
format is plain and the query has no tables, and else the report followed by one line end. What
stands on the standard input has no influence on the runs that get the query as it is or in a
file. -/
theorem same_answer_from_every_source :
    (∀ (format : Option Format) (path : Option Text) (unquote counts : Bool), path ≠ some [] →
      AreOptions (optionArguments format path unquote counts)
        ⟨none, none, format, path, unquote, counts, 0⟩) ∧
    ∀ (world : World) (options : List Text) (invocation : Invocation) (config : Config)
      (query : Text), AreOptions options invocation → world.unsettable? = none →
      Config.loadUsed world.find (usedConfig world invocation) = .ok config →
      let chosen := config.resolve invocation.format invocation.unquote invocation.counts
      ∃ printed : Text,
        (∀ arguments, Gives world.find query options arguments →
          Prints (run world arguments) printed ∧
            ∀ input, run { world with input := input } arguments = run world arguments) ∧
        Prints (run { world with input := Text.toBytes query } options) printed ∧
        (printed = [] ↔ chosen.format = .plain ∧ extract query = []) ∧
        (printed ≠ [] → printed = report chosen (extract query) ++ ['\n']) ∧
        (report chosen (extract query)).getLast? ≠ some '\n' := by
  refine ⟨fun format path unquote counts hpath => are_options hpath format unquote counts, ?_⟩
  intro world options invocation config query hoptions hset hconfig chosen
  obtain ⟨hempty, hended⟩ := printed_report_cases (report chosen (extract query))
  refine ⟨printedReport (report chosen (extract query)), fun arguments hgives => ⟨?_, ?_⟩, ?_,
    hempty.trans (report_eq_nil_iff chosen query), hended, last_of_report chosen query⟩
  · -- The invocation that is read differs from that of the options only in its source, on which
    -- neither the configuration nor the options of the report depend.
    obtain ⟨text, file, hread, -, hquery⟩ := hgives.read hoptions
    have hprints := run_prints hset hread hconfig (hquery world.input)
    exact hprints
  · exact run_without_input (reads_no_input hgives hoptions) world
  · refine run_prints hset hoptions.accepted hconfig ?_
    rw [hoptions.noQuery, hoptions.noFile]
    show QuerySource.standardInput.read world.find (Text.toBytes query) = .ok query
    simp only [QuerySource.read, Text.ofBytes?_toBytes]

/-- A query with one table. -/
def sampleQueryText : Text :=
  "SELECT * FROM a".toList

/-- A world with one file, which holds the query. -/
def sampleWorld : World where
  find path :=
    if path = "q".toList then .ok (.file (Text.toBytes sampleQueryText)) else .error .missing
  inherited := []
  account := none
  settings := none
  input := ByteArray.empty

/-- The query in the file is answered with its one table and the number of its occurrences, whether
the file is named before the option or behind it. -/
theorem sample_query_answered :
    AreOptions ["--counts".toList] ⟨none, none, none, none, false, true, 0⟩ ∧
      Gives sampleWorld.find sampleQueryText ["--counts".toList]
        ["-f".toList, "q".toList, "--counts".toList] ∧
      (run sampleWorld ["-f".toList, "q".toList, "--counts".toList]).printed = "a\t1\n".toList ∧
      (run { sampleWorld with input := Text.toBytes sampleQueryText } ["--counts".toList]).printed =
        "a\t1\n".toList := by
  obtain ⟨hsettings, hruns⟩ := same_answer_from_every_source
  have hoptions := hsettings none none false true nofun
  have hgives : Gives sampleWorld.find sampleQueryText ["--counts".toList]
      ["-f".toList, "q".toList, "--counts".toList] :=
    .file (List.nil_append _).symm .nil (.detached (.inr rfl) (by decide) (by decide) rfl)
  obtain ⟨printed, hgiven, hinput, hempty, hended, -⟩ :=
    hruns sampleWorld ["--counts".toList] _ Config.empty sampleQueryText hoptions rfl rfl
  have htables : extract sampleQueryText = [⟨"a".toList, .bare, 1⟩] := by decide +kernel
  have hprinted : printed = "a\t1\n".toList := by
    rw [htables] at hempty hended
    rw [hended fun h => List.cons_ne_nil _ _ (hempty.1 h).2]
    decide +kernel
  exact ⟨hoptions, hgives, (hgiven _ hgives).1.printed.trans hprinted,
    hinput.printed.trans hprinted⟩

end QueryTables
