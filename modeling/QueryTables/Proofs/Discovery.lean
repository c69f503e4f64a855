import Mathlib
import QueryTables.Proofs.Failures
import QueryTables.Proofs.QuerySources
import QueryTables.Proofs.SettingsFile

/-!
# Which configuration counts

A configuration file is designated on the command line, by a variable of the process, or by the same
variable in the settings file, and the first of these counts whatever it leads to. Only where none
of them designates a file is there a look at the user's own one, and only where that does not exist
are there no defaults (`first_designated_configuration_counts`). `Designates` and `UserPath` say
which file is meant, and `used_of_designates` and `user_path_iff` compare them with what is looked
up. What a run does with a configuration is said by `OptionsFollow` and `GoesBy`.
-/

namespace QueryTables

open CommandLine

/-- What can designate a configuration file, from the first that counts to the last. -/
inductive Designator where
  | commandLine
  | process
  | settings
deriving DecidableEq, Repr

/-- The path of the designated configuration file, and the first that designates it: the arguments,
a variable of the process, or the same variable set by the settings file. -/
inductive Designates (world : World) (invocation : Invocation) : Designator → Text → Prop where
  | commandLine {path : Text} (hgiven : invocation.config = some path) :
      Designates world invocation .commandLine path
  | process {path : Text} (hgiven : invocation.config = none)
      (hprocess : world.inherited.value? Config.pathVariable = some path) :
      Designates world invocation .process path
  | settings {path : Text} (hgiven : invocation.config = none)
      (hprocess : world.inherited.value? Config.pathVariable = none)
      (hsettings : world.environment.value? Config.pathVariable = some path) :
      Designates world invocation .settings path

/-- The user's home directory: the one that a variable states, or, where it states none or an empty
one, that of the user's account. -/
inductive UserHome (world : World) : Text → Prop where
  | stated {home : Text} (hset : world.environment.value? "HOME".toList = some home)
      (hne : home ≠ []) : UserHome world home
  | account {home : Text}
      (hstated : ∀ other, world.environment.value? "HOME".toList = some other → other = [])
      (haccount : world.account = some home) (hne : home ≠ []) : UserHome world home

/-- The directory of a user's configuration files: the one that a variable states by an absolute
path, or else one in the home directory. -/
inductive UserDirectory (world : World) : Text → Prop where
  | stated {directory : Text}
      (hset : world.environment.value? "XDG_CONFIG_HOME".toList = some directory)
      (habsolute : directory.head? = some '/') : UserDirectory world directory
  | home {home : Text}
      (hstated : ∀ directory, world.environment.value? "XDG_CONFIG_HOME".toList = some directory →
        directory.head? ≠ some '/')
      (hhome : UserHome world home) : UserDirectory world (Config.inside home ".config".toList)

/-- The path of the user's own configuration file. -/
def UserPath (world : World) (path : Text) : Prop :=
  ∃ directory, UserDirectory world directory ∧
    path = Config.inside (Config.inside directory "sqltables".toList) "config.toml".toList

/-- The file at a path is a document that makes up a configuration. -/
def ConfigAt (find : Text → Except FileFault FileEntry) (path : Text) (config : Config) : Prop :=
  ∃ source entries, find path = .ok (.file (Text.toBytes source)) ∧
    Toml.read? source = some entries ∧ Config.ofEntries entries = .ok config

/-- The configuration that a run loads. -/
def configuration (world : World) (invocation : Invocation) : Except ConfigFault Config :=
  Config.loadUsed world.find (usedConfig world invocation)

/-- The path of the file that a fault is about. -/
def ConfigFault.path : ConfigFault → Text
  | unreadable path _ | notToml path | badEntry path _ => path

/-- The query that a run reads: the one given as such, or else the text in the file given, or else
the text on the standard input. -/
inductive Asks (world : World) (invocation : Invocation) : Text → Prop where
  | inline {query : Text} (hquery : invocation.query = some query) : Asks world invocation query
  | file {path query : Text} (hquery : invocation.query = none)
      (hfile : invocation.file = some path)
      (hfound : world.find path = .ok (.file (Text.toBytes query))) : Asks world invocation query
  | input {query : Text} (hquery : invocation.query = none) (hfile : invocation.file = none)
      (hinput : world.input = Text.toBytes query) : Asks world invocation query

/-- The options for a report follow from the arguments and a configuration: the format is the one
that the arguments ask for, or else the one in the configuration, or else the plain one, and a
switch is on where either of them turns it on. -/
structure OptionsFollow (invocation : Invocation) (config : Config) (options : Options) : Prop where
  asked : ∀ format, invocation.format = some format → options.format = format
  configured : invocation.format = none →
    ∀ format, config.format = some format → options.format = format
  plain : invocation.format = none → config.format = none → options.format = .plain
  counts : options.counts = true ↔ invocation.counts = true ∨ config.counts = some true
  unquote : options.unquote = true ↔ invocation.unquote = true ∨ config.unquote = some true

/-- A run goes by a configuration: it succeeds with whatever query it reads, and prints the report on
its tables with the options that follow from the arguments and the configuration. -/
def GoesBy (world : World) (arguments : List Text) (invocation : Invocation) (config : Config) :
    Prop :=
  ∃ options, OptionsFollow invocation config options ∧
    ∀ query, Asks world invocation query →
      Prints (run world arguments) (printedReport (report options (extract query)))

/-- A run uses the file at a path: it goes by the configuration in it, or fails over the file where
none is in it. -/
inductive UsesFile (world : World) (arguments : List Text) (invocation : Invocation) (path : Text) :
    Prop where
  | loaded {config : Config} (hfile : ConfigAt world.find path config)
      (hconfig : configuration world invocation = .ok config)
      (hgoes : GoesBy world arguments invocation config)
  | failed {fault : ConfigFault} (hfile : ∀ config, ¬ ConfigAt world.find path config)
      (hpath : fault.path = path) (hconfig : configuration world invocation = .error fault)
      (hfails : FailsWith (run world arguments) (.configuration fault)
        "failed to load configuration".toList)

/-- Two runs read the same query and have the same setting for the log, and their variables can be
set. -/
structure SameBesides (world other : World) (invocation : Invocation) : Prop where
  settable : world.unsettable? = none ∧ other.unsettable? = none
  input : other.input = world.input
  file : ∀ path, invocation.file = some path → other.find path = world.find path
  log : other.environment.value? "RUST_LOG".toList = world.environment.value? "RUST_LOG".toList

section Paths

variable {world : World} {invocation : Invocation}

/-- A variable of the process is there for a run, whatever the settings file says. -/
theorem value_of_inherited {name value : Text} (h : world.inherited.value? name = some value) :
    world.environment.value? name = some value := by
  rw [World.environment, World.added]
  split
  · exact Settings.value_kept h _
  · exact h

/-- A designated file is the one that is used. -/
theorem used_of_designates {designator : Designator} {path : Text}
    (h : Designates world invocation designator path) :
    usedConfig world invocation = some path := by
  rw [← uses_config_iff]
  cases h with
  | commandLine hgiven => exact .given hgiven
  | process hgiven hprocess => exact .named hgiven (value_of_inherited hprocess)
  | settings hgiven _ hsettings => exact .named hgiven hsettings

/-- The variables of a settings file of lines that set variables can be set where each value can be
assigned. -/
theorem settable_by_assignments {text : Text} {assignments : List (Text × Text)}
    (hsettings : world.settings = some (Text.toBytes text))
    (h : Settings.Assigns text assignments) :
    world.unsettable? = none ↔ Settings.CanAssign world.inherited assignments := by
  rw [World.unsettable?, World.added, hsettings]
  exact Settings.settable_of_assignments_iff h world.inherited

/-- With a settings file of lines that set variables, these say what is set besides the variables of
the process. -/
theorem value_by_assignments {text : Text} {assignments : List (Text × Text)}
    (hsettings : world.settings = some (Text.toBytes text))
    (h : Settings.Assigns text assignments) (hset : world.unsettable? = none) (name : Text) :
    world.environment.value? name =
      (world.inherited.value? name).or (assignments.lookup name) := by
  rw [World.unsettable?, World.added, hsettings] at hset
  rw [World.environment, World.added, hsettings]
  exact Settings.value_of_assignments h hset name

/-- With a settings file of lines that set variables, these say what it designates. -/
theorem designated_by_assignments {text : Text} {assignments : List (Text × Text)}
    (hsettings : world.settings = some (Text.toBytes text))
    (h : Settings.Assigns text assignments) (hset : world.unsettable? = none) (path : Text) :
    Designates world invocation .settings path ↔
      invocation.config = none ∧ world.inherited.value? Config.pathVariable = none ∧
        assignments.lookup Config.pathVariable = some path := by
  have hvalue := value_by_assignments hsettings h hset Config.pathVariable
  constructor
  · intro hpath
    cases hpath with
    | settings hgiven hprocess hnamed =>
        rw [hvalue, hprocess, Option.none_or] at hnamed
        exact ⟨hgiven, hprocess, hnamed⟩
  · rintro ⟨hgiven, hprocess, hnamed⟩
    refine .settings hgiven hprocess ?_
    rw [hvalue, hprocess, Option.none_or, hnamed]

/-- Where nothing designates a file, neither the arguments nor the variable name one. -/
theorem nothing_given (h : ∀ designator path, ¬ Designates world invocation designator path) :
    invocation.config = none ∧ world.environment.value? Config.pathVariable = none := by
  have hgiven : invocation.config = none := by
    rw [Option.eq_none_iff_forall_ne_some]
    exact fun path hpath => h _ path (.commandLine hpath)
  have hprocess : world.inherited.value? Config.pathVariable = none := by
    rw [Option.eq_none_iff_forall_ne_some]
    exact fun path hpath => h _ path (.process hgiven hpath)
  refine ⟨hgiven, ?_⟩
  rw [Option.eq_none_iff_forall_ne_some]
  exact fun path hpath => h _ path (.settings hgiven hprocess hpath)

/-- The user's home directory is the one that is looked up. -/
theorem user_home_iff {home : Text} :
    UserHome world home ↔ Config.home? world.environment world.account = some home := by
  unfold Config.home?
  constructor
  · intro h
    cases h with
    | stated hset hne =>
        have hkept : (some home).filter (· ≠ []) = some home := by simp [hne]
        rw [hset, hkept, Option.some_or]
    | account hstated haccount hne =>
        have hnone : (world.environment.value? "HOME".toList).filter (· ≠ []) = none := by
          rw [Option.filter_eq_none_iff]
          intro other hother
          simpa using hstated other hother
        rw [hnone, haccount]
        simp [hne]
  · intro h
    rcases Option.or_eq_some_iff.1 h with hstated | ⟨hnone, haccount⟩
    · obtain ⟨hset, hne⟩ := Option.filter_eq_some_iff.1 hstated
      exact .stated hset (by simpa using hne)
    · obtain ⟨hset, hne⟩ := Option.filter_eq_some_iff.1 haccount
      rw [Option.filter_eq_none_iff] at hnone
      exact .account (fun other hother => by simpa using hnone other hother) hset
        (by simpa using hne)

/-- The directory of a user's configuration files is the one that is looked up. -/
theorem user_directory_iff {directory : Text} :
    UserDirectory world directory ↔
      Config.userDirectory? world.environment world.account = some directory := by
  unfold Config.userDirectory?
  constructor
  · intro h
    cases h with
    | stated hset habsolute =>
        obtain ⟨rest, rfl⟩ := List.head?_eq_some_iff.1 habsolute
        rw [hset]
        rfl
    | home hstated hhome =>
        split
        · rename_i hother
          exact absurd rfl (hstated _ hother)
        · rw [user_home_iff.1 hhome, Option.map_some]
  · intro h
    split at h
    · rename_i hset
      cases h
      exact .stated hset rfl
    · rename_i hother
      obtain ⟨home, hhome, rfl⟩ := Option.map_eq_some_iff.1 h
      refine .home (fun directory hstated habsolute => ?_) (user_home_iff.2 hhome)
      obtain ⟨rest, rfl⟩ := List.head?_eq_some_iff.1 habsolute
      exact hother rest hstated

/-- The path of the user's own file is the one that is looked up. -/
theorem user_path_iff {path : Text} :
    UserPath world path ↔ Config.userPath? world.environment world.account = some path := by
  rw [UserPath, Config.userPath?, Option.map_eq_some_iff]
  constructor
  · rintro ⟨directory, hdirectory, rfl⟩
    exact ⟨directory, user_directory_iff.1 hdirectory, rfl⟩
  · rintro ⟨directory, hdirectory, rfl⟩
    exact ⟨directory, user_directory_iff.2 hdirectory, rfl⟩

/-- No file is used exactly where none is designated and the user's own does not exist. -/
theorem used_eq_none_iff :
    usedConfig world invocation = none ↔
      (∀ designator path, ¬ Designates world invocation designator path) ∧
        ∀ path, UserPath world path → ∃ cause, world.find path = .error cause := by
  constructor
  · intro h
    have hnothing : ∀ designator path, ¬ Designates world invocation designator path := by
      intro designator path hpath
      rw [used_of_designates hpath] at h
      cases h
    obtain ⟨hgiven, hvariable⟩ := nothing_given hnothing
    refine ⟨hnothing, fun path huser => ?_⟩
    cases hfound : world.find path with
    | error cause => exact ⟨cause, rfl⟩
    | ok entry =>
        rw [uses_config_iff.1 (.own hgiven hvariable (user_path_iff.1 huser) hfound)] at h
        cases h
  · intro h
    obtain ⟨hnothing, huser⟩ := h
    obtain ⟨hgiven, hvariable⟩ := nothing_given hnothing
    rw [Option.eq_none_iff_forall_ne_some]
    intro path hused
    cases uses_config_iff.2 hused with
    | given hpath => rw [hgiven] at hpath; cases hpath
    | named _ hpath => rw [hvariable] at hpath; cases hpath
    | own _ _ hpath hfound =>
        obtain ⟨cause, hcause⟩ := huser path (user_path_iff.2 hpath)
        rw [hfound] at hcause
        cases hcause

end Paths

section Runs

variable {world : World} {arguments : List Text} {invocation : Invocation}

/-- A file that is loaded is a document that makes up the configuration. -/
theorem config_at_iff {find : Text → Except FileFault FileEntry} {path : Text} {config : Config} :
    ConfigAt find path config ↔ Config.load find path = .ok config := by
  constructor
  · rintro ⟨source, entries, hfile, htoml, hentries⟩
    rw [Config.load, hfile, read_of_text]
    simp only [Config.ofText, htoml, hentries]
  · intro h
    rw [Config.load] at h
    rcases unreadable_or_text (find path) with ⟨cause, hcause⟩ | ⟨source, hfile⟩
    · rw [hcause.read] at h
      cases h
    · rw [hfile, read_of_text] at h
      simp only [Config.ofText] at h
      split at h
      · cases h
      · rename_i entries htoml
        split at h
        · cases h
        · rename_i hentries
          cases h
          exact ⟨source, entries, hfile, htoml, hentries⟩

/-- A fault of loading a file is about the file. -/
theorem path_of_load {find : Text → Except FileFault FileEntry} {path : Text} {fault : ConfigFault}
    (h : Config.load find path = .error fault) : fault.path = path := by
  rw [Config.load] at h
  split at h
  · cases h
    rfl
  · rw [Config.ofText] at h
    split at h
    · cases h
      rfl
    · split at h <;> cases h
      rfl

/-- The query that a run reads is the one in its source. -/
theorem Asks.read {query : Text} (h : Asks world invocation query) :
    (QuerySource.ofGiven invocation.query invocation.file).read world.find world.input =
      .ok query := by
  cases h with
  | inline hquery =>
      rw [hquery]
      rfl
  | file hquery hfile hfound =>
      rw [hquery, hfile]
      simp only [QuerySource.ofGiven, QuerySource.read, hfound, read_of_text]
  | input hquery hfile hinput =>
      rw [hquery, hfile]
      simp only [QuerySource.ofGiven, QuerySource.read, hinput, Text.ofBytes?_toBytes]

/-- The options that a configuration is resolved to follow from it and the arguments. -/
theorem options_follow (invocation : Invocation) (config : Config) :
    OptionsFollow invocation config
      (config.resolve invocation.format invocation.unquote invocation.counts) where
  asked format hformat := by rw [Config.resolve, hformat]; rfl
  configured hnone format hformat := by rw [Config.resolve, hnone, hformat]; rfl
  plain hnone hformat := by rw [Config.resolve, hnone, hformat]; rfl
  counts := by cases hcounts : config.counts <;> simp [Config.resolve, hcounts]
  unquote := by cases hunquote : config.unquote <;> simp [Config.resolve, hunquote]

/-- Only one choice of options follows from the arguments and a configuration. -/
theorem OptionsFollow.unique {config : Config} {options others : Options}
    (h : OptionsFollow invocation config options) (hothers : OptionsFollow invocation config others) :
    options = others := by
  have hformat : options.format = others.format := by
    cases hasked : invocation.format with
    | some format => exact (h.asked format hasked).trans (hothers.asked format hasked).symm
    | none =>
        cases hconfigured : config.format with
        | some format =>
            exact (h.configured hasked format hconfigured).trans
              (hothers.configured hasked format hconfigured).symm
        | none => exact (h.plain hasked hconfigured).trans (hothers.plain hasked hconfigured).symm
  have hcounts : options.counts = others.counts :=
    Bool.eq_iff_iff.2 (h.counts.trans hothers.counts.symm)
  have hunquote : options.unquote = others.unquote :=
    Bool.eq_iff_iff.2 (h.unquote.trans hothers.unquote.symm)
  cases options
  cases others
  cases hformat
  cases hcounts
  cases hunquote
  rfl

/-- A run goes by the configuration that it loads. -/
theorem goes_by (hset : world.unsettable? = none) (hread : read arguments = .accepted invocation)
    {config : Config} (hconfig : configuration world invocation = .ok config) :
    GoesBy world arguments invocation config :=
  ⟨_, options_follow invocation config, fun _ hasks => run_prints hset hread hconfig hasks.read⟩

/-- The file that is looked up for the configuration is the one that the run uses. -/
theorem uses_file (hset : world.unsettable? = none) (hread : read arguments = .accepted invocation)
    {path : Text} (hused : usedConfig world invocation = some path) :
    UsesFile world arguments invocation path := by
  have hconfig : configuration world invocation = Config.load world.find path := by
    rw [configuration, hused, Config.loadUsed]
  cases hload : Config.load world.find path with
  | ok config =>
      have hloaded := hconfig.trans hload
      exact .loaded (config_at_iff.2 hload) hloaded (goes_by hset hread hloaded)
  | error fault =>
      refine .failed (fun config hfile => ?_) (path_of_load hload) (hconfig.trans hload)
        (run_fails_over_config hset hread (config_fails_iff.2 (hconfig.trans hload)))
      rw [config_at_iff.1 hfile] at hload
      cases hload

/-- Two runs that use the same file have the same configuration. -/
theorem same_configuration {other : World} {path : Text}
    (hused : usedConfig world invocation = some path)
    (hother : usedConfig other invocation = some path)
    (hfile : other.find path = world.find path) :
    configuration other invocation = configuration world invocation := by
  simp only [configuration, hused, hother, Config.loadUsed, Config.load, hfile]

/-- A source holds the same query where the same file is found and the same input. -/
theorem same_query {other : World} (h : SameBesides world other invocation) :
    (QuerySource.ofGiven invocation.query invocation.file).read other.find other.input =
      (QuerySource.ofGiven invocation.query invocation.file).read world.find world.input := by
  cases hquery : invocation.query with
  | some query => rfl
  | none =>
      cases hfile : invocation.file with
      | some path => simp only [QuerySource.ofGiven, QuerySource.read, h.file path hfile]
      | none => simp only [QuerySource.ofGiven, QuerySource.read, h.input]

/-- Two runs that use the same file and read the same query leave the same. -/
theorem same_run {other : World} (hread : read arguments = .accepted invocation) {path : Text}
    (hused : usedConfig world invocation = some path)
    (hother : usedConfig other invocation = some path)
    (hfile : other.find path = world.find path) (h : SameBesides world other invocation) :
    run other arguments = run world arguments := by
  have hconfig := same_configuration hused hother hfile
  have hquery := same_query h
  obtain ⟨hset, hotherSet⟩ := h.settable
  rw [configuration, configuration, hused, hother] at hconfig
  simp only [run_of_settable hset, run_of_settable hotherSet, runSettled, hread, runAccepted,
    logFilter, hused, hother, hconfig, hquery, h.log]

end Runs

/-- The variables of a run are those of the process, and besides them those that the settings file
sets; where its lines set variables, and none of these to a value that cannot be set, they have the
values of the first line for each name. A run with such variables whose arguments are accepted uses
the file that is designated first, whatever it leads to, and so do all runs with these arguments for
which the same file is designated by the same and is found the same, whatever else they find: they
have the same configuration, and leave the same where they also read the same query and have the
same setting for the log. A run for which nothing designates a file uses the user's own one if it
exists. There are no defaults exactly where neither is the case, and the run goes by the empty
configuration then. -/
theorem first_designated_configuration_counts (world : World) (arguments : List Text)
    (invocation : Invocation) (hread : read arguments = .accepted invocation) :
    ((world.settings = none → world.unsettable? = none ∧ world.environment = world.inherited) ∧
      (∀ name value, world.inherited.value? name = some value →
        world.environment.value? name = some value) ∧
      ∀ text assignments, world.settings = some (Text.toBytes text) →
        Settings.Assigns text assignments →
        (world.unsettable? = none ↔ Settings.CanAssign world.inherited assignments) ∧
        (world.unsettable? = none →
          (∀ name, world.environment.value? name =
            (world.inherited.value? name).or (assignments.lookup name)) ∧
          ∀ path, Designates world invocation .settings path ↔
            invocation.config = none ∧ world.inherited.value? Config.pathVariable = none ∧
              assignments.lookup Config.pathVariable = some path)) ∧
    (world.unsettable? = none → ∀ designator path, Designates world invocation designator path →
      UsesFile world arguments invocation path ∧
      ∀ other : World, Designates other invocation designator path →
        other.find path = world.find path →
        configuration other invocation = configuration world invocation ∧
        (SameBesides world other invocation → run other arguments = run world arguments)) ∧
    (world.unsettable? = none → (∀ designator path, ¬ Designates world invocation designator path) →
      ∀ path entry, UserPath world path → world.find path = .ok entry →
        UsesFile world arguments invocation path) ∧
    (world.unsettable? = none → usedConfig world invocation = none →
      configuration world invocation = .ok ⟨none, none, none⟩ ∧
        GoesBy world arguments invocation ⟨none, none, none⟩) ∧
    (usedConfig world invocation = none ↔
      (∀ designator path, ¬ Designates world invocation designator path) ∧
        ∀ path, UserPath world path → ∃ cause, world.find path = .error cause) := by
  refine ⟨⟨fun hnone => ?_, fun name value => value_of_inherited, ?_⟩, ?_, ?_, fun hset hnone => ?_,
    used_eq_none_iff⟩
  · rw [World.unsettable?, World.environment, World.added, hnone]
    exact ⟨rfl, rfl⟩
  · intro text assignments hsettings hassigns
    exact ⟨settable_by_assignments hsettings hassigns,
      fun hset => ⟨value_by_assignments hsettings hassigns hset,
        designated_by_assignments hsettings hassigns hset⟩⟩
  · intro hset designator path hpath
    have hused := used_of_designates hpath
    refine ⟨uses_file hset hread hused, fun other hother hfile => ?_⟩
    have hotherUsed := used_of_designates hother
    exact ⟨same_configuration hused hotherUsed hfile, same_run hread hused hotherUsed hfile⟩
  · intro hset hnothing path entry huser hfound
    obtain ⟨hgiven, hvariable⟩ := nothing_given hnothing
    have hown : UsesConfig world invocation path :=
      .own hgiven hvariable (user_path_iff.1 huser) hfound
    exact uses_file hset hread (uses_config_iff.1 hown)
  · have hconfig : configuration world invocation = .ok ⟨none, none, none⟩ := by
      rw [configuration, hnone]
      rfl
    exact ⟨hconfig, goes_by hset hread hconfig⟩

/-- A settings file that designates a configuration file. -/
def designatingLine : Text :=
  "SQLTABLES_CONFIG='c'\n".toList

/-- The line sets the variable that names a configuration file. -/
theorem designating_assigns :
    Settings.Assigns designatingLine [(Config.pathVariable, ['c'])] := by
  have hspells : Settings.Spells ['\'', 'c', '\''] ['c'] :=
    @Settings.Spells.single ['c'] (by simp)
  have hline : Settings.SetsLine "SQLTABLES_CONFIG='c'".toList Config.pathVariable ['c'] :=
    ⟨⟨['\'', 'c', '\''], rfl, hspells⟩, by decide⟩
  exact .cons hline .nil

/-- A world with that settings file and the file that it designates, for a user with a home
directory in which something is found at each path but those of files. -/
def designatingWorld (home : Text) (own : Except FileFault FileEntry) : World where
  find path := if path = ['c'] then .ok (.file (Text.toBytes "counts=true".toList)) else own
  inherited := [("XDG_CONFIG_HOME".toList, "relative".toList), ("HOME".toList, home)]
  account := none
  settings := some (Text.toBytes designatingLine)
  input := .empty

/-- The designated file counts, which asks for numbers of occurrences, and a run leaves the same for a
user whose own configuration is there and cannot be read. -/
theorem designating_line_counts :
    read ["FROM a".toList] = .accepted ⟨some "FROM a".toList, none, none, none, false, false, 0⟩ ∧
    Designates (designatingWorld "/h".toList (.error .missing))
      ⟨some "FROM a".toList, none, none, none, false, false, 0⟩ .settings ['c'] ∧
    configuration (designatingWorld "/h".toList (.error .missing))
      ⟨some "FROM a".toList, none, none, none, false, false, 0⟩ = .ok ⟨none, none, some true⟩ ∧
    (run (designatingWorld "/h".toList (.error .missing)) ["FROM a".toList]).printed =
      "a\t1\n".toList ∧
    run (designatingWorld [] (.ok (.unreadable (.other "Permission denied".toList))))
        ["FROM a".toList] =
      run (designatingWorld "/h".toList (.error .missing)) ["FROM a".toList] := by
  have hread : read ["FROM a".toList] =
      .accepted ⟨some "FROM a".toList, none, none, none, false, false, 0⟩ := by
    decide
  have hfile : ConfigAt (designatingWorld "/h".toList (.error .missing)).find ['c']
      ⟨none, none, some true⟩ :=
    ⟨"counts=true".toList, [("counts".toList, .boolean true)], rfl, by cbv, rfl⟩
  have hcan := @Settings.can_assign_of_clear [(Config.pathVariable, ['c'])] (by decide)
  obtain ⟨⟨-, -, hlines⟩, hdesignated, -⟩ := first_designated_configuration_counts
    (designatingWorld "/h".toList (.error .missing)) ["FROM a".toList] _ hread
  obtain ⟨⟨-, -, hotherLines⟩, -⟩ := first_designated_configuration_counts
    (designatingWorld [] (.ok (.unreadable (.other "Permission denied".toList))))
    ["FROM a".toList] _ hread
  obtain ⟨hsettable, hvariables⟩ := hlines _ _ rfl designating_assigns
  obtain ⟨hotherSettable, hotherVariables⟩ := hotherLines _ _ rfl designating_assigns
  have hset := hsettable.2 (hcan _)
  have hotherSet := hotherSettable.2 (hcan _)
  obtain ⟨hvalue, hpath⟩ := hvariables hset
  obtain ⟨hotherValue, hotherPath⟩ := hotherVariables hotherSet
  have hsettings := (hpath ['c']).2 ⟨rfl, rfl, rfl⟩
  obtain ⟨huses, hsame⟩ := hdesignated hset _ _ hsettings
  obtain ⟨-, hrun⟩ := hsame _ ((hotherPath ['c']).2 ⟨rfl, rfl, rfl⟩) rfl
  have hload : Config.load (designatingWorld "/h".toList (.error .missing)).find ['c'] =
      .ok ⟨none, none, some true⟩ := config_at_iff.1 hfile
  cases huses with
  | failed hnone => exact absurd hfile (hnone _)
  | loaded hloaded hconfig hgoes =>
      rw [config_at_iff, hload] at hloaded
      cases hloaded
      obtain ⟨options, hoptions, hprints⟩ := hgoes
      have hchosen : options = ⟨.plain, true, false⟩ := hoptions.unique (options_follow _ _)
      have htables : extract "FROM a".toList = [⟨"a".toList, .bare, 1⟩] := by decide +kernel
      refine ⟨hread, hsettings, hconfig, ?_,
        hrun ⟨⟨hset, hotherSet⟩, rfl, fun path hpath => ?_, ?_⟩⟩
      · rw [(hprints _ (.inline rfl)).printed, hchosen, htables]
        decide +kernel
      · cases hpath
      · have hunset : ∀ home own, (designatingWorld home own).inherited.value?
            "RUST_LOG".toList = none := fun _ _ => rfl
        rw [hvalue, hotherValue, hunset, hunset]

end QueryTables
