import QueryTables.CommandLine
import QueryTables.CommandLine.Pages
import QueryTables.Config.Discovery
import QueryTables.Log.Filter
import QueryTables.Log.Scan
import QueryTables.QuerySource

/-!
# The program

A run is a function of its arguments and of the world it finds: files, variables, a settings file
and the standard input. It sets the variables of the settings file, and breaks off if one of them
cannot be set. Then it reads the arguments, then the configuration, then the query, and stops at the
first of them that fails; only a run that gets to the end prints anything. What it logs is collected
with its result and cut down by the filter at the end, so that a filter cannot change what the run
does.
-/

namespace QueryTables

/-- What a run finds around it: what paths lead to, the variables of the process, the home directory
of the user's account, what is in a settings file, and the standard input. -/
structure World where
  find : Text → Except FileFault FileEntry
  inherited : Environment
  account : Option Text
  settings : Option ByteArray
  input : ByteArray

namespace World

/-- The world of a file tree, in which the nearest file of variables is the settings file. -/
def ofTree (tree : FileTree) (inherited : Environment) (account : Option Text)
    (input : ByteArray) : World :=
  ⟨tree.find, inherited, account, (tree.nearestFile? ".env".toList).bind FileEntry.content?, input⟩

/-- What comes of the settings file. -/
def added (world : World) : Settings.Added :=
  match world.settings with
  | some content => Settings.addTo world.inherited content
  | none => ⟨world.inherited, none⟩

/-- The variables that are set, with those of the settings file. -/
def environment (world : World) : Environment :=
  world.added.environment

/-- The variable of the settings file that cannot be set, with its value. -/
def unsettable? (world : World) : Option (Text × Text) :=
  world.added.unsettable?

end World

/-- Why a run fails after its arguments were read. -/
inductive Failure where
  | configuration (fault : ConfigFault)
  | query (fault : QueryFault)

namespace Failure

/-- The messages for a failure: what was being done, and what went wrong. -/
def chain : Failure → List Text
  | configuration fault => ["failed to load configuration".toList, fault.message]
  | query fault => ["failed to read SQL input".toList, fault.message]

end Failure

/-- How a run ends: it does what was asked, fails, refuses its arguments, or breaks off over a
variable that cannot be set to a value. -/
inductive Ending where
  | success
  | failed (failure : Failure)
  | refused (fault : CommandLine.Fault)
  | brokenOff (name value : Text)

namespace Ending

/-- The exit status of a run. -/
def status : Ending → Nat
  | success => 0
  | failed _ => 1
  | refused _ => 2
  | brokenOff _ _ => 101

/-- The message for a variable that cannot be set to a value. -/
def unsettableMessage (name value : Text) : Text :=
  "failed to set environment variable `".toList ++ Text.inQuotationMarks name ++ "` to `".toList ++
    Text.inQuotationMarks value ++ "`: ".toList ++ FileFault.nulInPath.message

end Ending

/-- What a run leaves: how it ended, what it printed, and the records of its log that are
written. -/
structure Outcome where
  ending : Ending
  printed : Text
  log : List Log.Record

/-- A report as it is printed: with a line end, unless it is empty. -/
def printedReport (report : Text) : Text :=
  if report = [] then [] else report ++ ['\n']

/-- The text of a boolean in a record. -/
def booleanText (value : Bool) : Text :=
  if value then "true".toList else "false".toList

/-- The options as a record shows them. -/
def Options.logText (options : Options) : Text :=
  "ReportOptions \x7b format: ".toList ++
    (match options.format with
      | .plain => "Plain".toList
      | .json => "Json".toList) ++
    ", counts: ".toList ++ booleanText options.counts ++
    ", unquote: ".toList ++ booleanText options.unquote ++ " \x7d".toList

/-- The record that the end of a run leaves. -/
def finishedRecord (tables : List Table) (options : Options) : Log.Record :=
  ⟨.debug, "sqltables".toList, "extraction finished".toList,
    [⟨"tables".toList, .number tables.length⟩, ⟨"options".toList, .text options.logText⟩]⟩

/-- The configuration file that an invocation uses. -/
def usedConfig (world : World) (invocation : CommandLine.Invocation) : Option Text :=
  Config.used? world.find (Config.designated? invocation.config world.environment)
    (Config.userPath? world.environment world.account)

/-- The filter for the log: the one that a variable asks for, or else the one that the arguments ask
for. A variable from which no filter can be read counts as none. -/
def logFilter (environment : Environment) (invocation : CommandLine.Invocation) : Log.Filter :=
  ((environment.value? "RUST_LOG".toList).bind Log.Filter.ofSetting?).getD
    (.ofVerbosity invocation.verbosity)

/-- A run for arguments that were accepted, with all records of its log. -/
def runAccepted (world : World) (invocation : CommandLine.Invocation) : Outcome :=
  let used := usedConfig world invocation
  let configRecords := Config.loadRecords used
  match Config.loadUsed world.find used with
  | .error fault => ⟨.failed (.configuration fault), [], configRecords⟩
  | .ok config =>
      let source := QuerySource.ofGiven invocation.query invocation.file
      match source.read world.find world.input with
      | .error fault => ⟨.failed (.query fault), [], configRecords ++ source.readRecords⟩
      | .ok query =>
          let options := config.resolve invocation.format invocation.unquote invocation.counts
          let tables := extract query
          ⟨.success, printedReport (report options tables),
            configRecords ++ source.readRecords ++ Log.ofScan query ++
              [finishedRecord tables options]⟩

/-- A run whose variables are set. -/
def runSettled (world : World) (arguments : List Text) : Outcome :=
  match CommandLine.read arguments with
  | .help => ⟨.success, CommandLine.helpPage, []⟩
  | .version => ⟨.success, CommandLine.versionPage, []⟩
  | .refused fault => ⟨.refused fault, [], []⟩
  | .accepted invocation =>
      let outcome := runAccepted world invocation
      { outcome with log := Log.filtered (logFilter world.environment invocation) outcome.log }

/-- A run of the program. -/
def run (world : World) (arguments : List Text) : Outcome :=
  match world.unsettable? with
  | some (name, value) => ⟨.brokenOff name value, [], []⟩
  | none => runSettled world arguments

/-- A run goes on where its variables can be set. -/
theorem run_of_settable {world : World} (h : world.unsettable? = none) (arguments : List Text) :
    run world arguments = runSettled world arguments := by
  rw [run, h]

/-- The paths that a run may look up. -/
def pathsOfInterest (world : World) (arguments : List Text) : List Text :=
  match CommandLine.read arguments with
  | .accepted invocation =>
      [Config.designated? invocation.config world.environment,
        Config.userPath? world.environment world.account, invocation.file].filterMap id
  | .help | .version | .refused _ => []

/-- A run may read the standard input. -/
def readsInput (arguments : List Text) : Bool :=
  match CommandLine.read arguments with
  | .accepted invocation => QuerySource.ofGiven invocation.query invocation.file == .standardInput
  | .help | .version | .refused _ => false

end QueryTables
