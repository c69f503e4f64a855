import QueryTables.Program

/-!
# Failing runs

A run loads its configuration before it reads its query, and prints nothing before both are there.
So it fails over its configuration whatever the query is, it fails over its query only when the
configuration is in order, and a run that fails prints nothing: `failures_atomic_and_ordered`. What
can go wrong is said without the functions that read files, in `Unreadable`, `ConfigFails` and
`QueryFails`; the functions are compared with these in `config_fails_iff` and `query_fails_iff`, and
the run in `status_eq_zero_iff`.

All of this is about runs whose variables could be set. A settings file that sets a variable to a
value with a NUL breaks the run off before its arguments are read, with a status of its own
(`settings_break_a_run_off`).
-/

namespace QueryTables

open CommandLine

/-- Bytes that are the UTF-8 form of no text. -/
def NotText (bytes : ByteArray) : Prop :=
  ∀ text, Text.toBytes text ≠ bytes

/-- What was found at a path cannot be read as a text, for the reason stated. -/
inductive Unreadable : Except FileFault FileEntry → FileFault → Prop where
  | notFound (cause : FileFault) : Unreadable (.error cause) cause
  | directory : Unreadable (.ok .directory) .directory
  | barred (cause : FileFault) : Unreadable (.ok (.unreadable cause)) cause
  | notText {content : ByteArray} (hcontent : NotText content) :
      Unreadable (.ok (.file content)) .notText

/-- The path of the configuration file that an invocation uses: the one given, or else the one that
the variable names, or else the user's own if anything is there, whether it can be read or not. -/
inductive UsesConfig (world : World) (invocation : Invocation) : Text → Prop where
  | given {path : Text} (hgiven : invocation.config = some path) :
      UsesConfig world invocation path
  | named {path : Text} (hgiven : invocation.config = none)
      (hvariable : world.environment.value? Config.pathVariable = some path) :
      UsesConfig world invocation path
  | own {path : Text} {entry : FileEntry} (hgiven : invocation.config = none)
      (hvariable : world.environment.value? Config.pathVariable = none)
      (huser : Config.userPath? world.environment world.account = some path)
      (hfound : world.find path = .ok entry) : UsesConfig world invocation path

/-- The configuration for an invocation cannot be loaded: its file cannot be read, is no TOML
document, or has an entry that is not allowed. -/
inductive ConfigFails (world : World) (invocation : Invocation) : ConfigFault → Prop where
  | unreadable {path : Text} {cause : FileFault} (hpath : UsesConfig world invocation path)
      (hread : Unreadable (world.find path) cause) :
      ConfigFails world invocation (.unreadable path cause)
  | notToml {path source : Text} (hpath : UsesConfig world invocation path)
      (hread : world.find path = .ok (.file (Text.toBytes source)))
      (htoml : Toml.read? source = none) : ConfigFails world invocation (.notToml path)
  | badEntry {path source : Text} {entries : List (Text × Toml.Value)} {cause : EntryFault}
      (hpath : UsesConfig world invocation path)
      (hread : world.find path = .ok (.file (Text.toBytes source)))
      (htoml : Toml.read? source = some entries)
      (hentries : Config.ofEntries entries = .error cause) :
      ConfigFails world invocation (.badEntry path cause)

/-- The run fails with status 1, says what it was doing, and prints nothing. -/
structure FailsWith (outcome : Outcome) (failure : Failure) (doing : Text) : Prop where
  ending : outcome.ending = .failed failure
  status : outcome.ending.status = 1
  message : failure.chain.head? = some doing
  printed : outcome.printed = []

/-- The path that is looked up for the configuration: the designated one, or else the user's own. -/
def configPath? (world : World) (invocation : Invocation) : Option Text :=
  (Config.designated? invocation.config world.environment).or
    (Config.userPath? world.environment world.account)

/-- Two runs find the same configuration: the same file is given, the same variables are set, or the
same one cannot be set, the account is the same, and the same is found at the path that is looked
up. -/
structure SameConfiguration (world other : World) (invocation otherInvocation : Invocation) :
    Prop where
  given : otherInvocation.config = invocation.config
  environment : other.environment = world.environment
  unsettable : other.unsettable? = world.unsettable?
  account : other.account = world.account
  found : ∀ path, configPath? world invocation = some path → other.find path = world.find path

/-- Bytes are read as no text exactly when they are the UTF-8 form of none. -/
theorem of_bytes_eq_none_iff {bytes : ByteArray} : Text.ofBytes? bytes = none ↔ NotText bytes := by
  constructor
  · intro h text htext
    rw [← htext, Text.ofBytes?_toBytes] at h
    cases h
  · intro h
    rw [Option.eq_none_iff_forall_ne_some]
    intro text hread
    exact h text (Text.toBytes_of_ofBytes? hread)

/-- A file with the UTF-8 form of a text is read as the text. -/
theorem read_of_text (text : Text) :
    FileEntry.read (.ok (.file (Text.toBytes text))) = .ok text := by
  rw [FileEntry.read, Text.ofBytes?_toBytes]

/-- What cannot be read is not read, for the reason stated. -/
theorem Unreadable.read {found : Except FileFault FileEntry} {cause : FileFault}
    (h : Unreadable found cause) : FileEntry.read found = .error cause := by
  cases h with
  | notFound | directory | barred => rfl
  | notText hcontent => rw [FileEntry.read, of_bytes_eq_none_iff.2 hcontent]

/-- What was found cannot be read for one reason, or is a file with the UTF-8 form of a text. -/
theorem unreadable_or_text (found : Except FileFault FileEntry) :
    (∃ cause, Unreadable found cause) ∨ ∃ text, found = .ok (.file (Text.toBytes text)) := by
  cases found with
  | error cause => exact .inl ⟨cause, .notFound cause⟩
  | ok entry =>
      cases entry with
      | directory => exact .inl ⟨.directory, .directory⟩
      | unreadable cause => exact .inl ⟨cause, .barred cause⟩
      | file content =>
          cases hread : Text.ofBytes? content with
          | none => exact .inl ⟨.notText, .notText (of_bytes_eq_none_iff.1 hread)⟩
          | some text => exact .inr ⟨text, by rw [Text.toBytes_of_ofBytes? hread]⟩

section Invocations

variable {world : World} {invocation : Invocation}

/-- The file that is used for the configuration is the one that is looked up for it. -/
theorem uses_config_iff {path : Text} :
    UsesConfig world invocation path ↔
      usedConfig world invocation = some path := by
  unfold usedConfig Config.used? Config.designated?
  constructor
  · intro h
    cases h with
    | given hgiven => rw [hgiven]; rfl
    | named hgiven hvariable => rw [hgiven, hvariable]; rfl
    | own hgiven hvariable huser hfound =>
        rw [hgiven, hvariable, huser]
        simp [hfound, Except.isOk, Except.toBool]
  · intro h
    cases hgiven : invocation.config with
    | some given =>
        rw [hgiven] at h
        cases h
        exact .given hgiven
    | none =>
        cases hvariable : world.environment.value? Config.pathVariable with
        | some designated =>
            rw [hgiven, hvariable] at h
            cases h
            exact .named hgiven hvariable
        | none =>
            rw [hgiven, hvariable, Option.or_none, Option.none_or] at h
            obtain ⟨huser, hfound⟩ := Option.filter_eq_some_iff.1 h
            cases hentry : world.find path with
            | error cause => rw [hentry] at hfound; cases hfound
            | ok entry => exact .own hgiven hvariable huser hentry

/-- The configuration cannot be loaded exactly when loading it gives a fault. -/
theorem config_fails_iff {fault : ConfigFault} :
    ConfigFails world invocation fault ↔
      Config.loadUsed world.find (usedConfig world invocation) =
        .error fault := by
  constructor
  · intro h
    cases h with
    | unreadable hpath hread =>
        rw [uses_config_iff.1 hpath, Config.loadUsed, Config.load, hread.read]
    | notToml hpath hread htoml =>
        rw [uses_config_iff.1 hpath, Config.loadUsed, Config.load, hread, read_of_text]
        simp only [Config.ofText, htoml]
    | badEntry hpath hread htoml hentries =>
        rw [uses_config_iff.1 hpath, Config.loadUsed, Config.load, hread, read_of_text]
        simp only [Config.ofText, htoml, hentries]
  · intro h
    cases hused : usedConfig world invocation with
    | none =>
        rw [hused] at h
        cases h
    | some path =>
        have hpath := uses_config_iff.2 hused
        rw [hused, Config.loadUsed, Config.load] at h
        rcases unreadable_or_text (world.find path) with ⟨cause, hcause⟩ | ⟨source, hfile⟩
        · rw [hcause.read] at h
          cases h
          exact .unreadable hpath hcause
        · rw [hfile, read_of_text] at h
          simp only [Config.ofText] at h
          split at h
          · rename_i htoml
            cases h
            exact .notToml hpath hfile htoml
          · rename_i entries htoml
            split at h
            · rename_i cause hentries
              cases h
              exact .badEntry hpath hfile htoml hentries
            · cases h

/-- The file that is used for the configuration is at the path that is looked up for it. -/
theorem UsesConfig.path {path : Text} (h : UsesConfig world invocation path) :
    configPath? world invocation = some path := by
  unfold configPath? Config.designated?
  cases h with
  | given hgiven => rw [hgiven]; rfl
  | named hgiven hvariable => rw [hgiven, hvariable]; rfl
  | own hgiven hvariable huser => rw [hgiven, hvariable, huser]; rfl

end Invocations

section TwoRuns

variable {world other : World} {invocation otherInvocation : Invocation}

/-- A run finds the same configuration as itself. -/
theorem SameConfiguration.refl (world : World) (invocation : Invocation) :
    SameConfiguration world world invocation invocation :=
  ⟨rfl, rfl, rfl, rfl, fun _ _ => rfl⟩

/-- What one run looks up for the configuration, the other looks up as well. -/
theorem SameConfiguration.symm (h : SameConfiguration world other invocation otherInvocation) :
    SameConfiguration other world otherInvocation invocation := by
  refine ⟨h.given.symm, h.environment.symm, h.unsettable.symm, h.account.symm,
    fun path hpath => (h.found path ?_).symm⟩
  rwa [configPath?, h.environment, h.account, h.given] at hpath

/-- The same file is used for the configuration. -/
theorem SameConfiguration.uses (h : SameConfiguration world other invocation otherInvocation)
    {path : Text} (huses : UsesConfig world invocation path) :
    UsesConfig other otherInvocation path := by
  have hfound := h.found path huses.path
  cases huses with
  | given hgiven => exact .given (h.given.trans hgiven)
  | named hgiven hvariable => exact .named (h.given.trans hgiven) (h.environment ▸ hvariable)
  | own hgiven hvariable huser hentry =>
      exact .own (h.given.trans hgiven) (h.environment ▸ hvariable)
        (h.environment ▸ h.account ▸ huser) (hfound.trans hentry)

/-- The same file is used for the configuration, or none by either run. -/
theorem SameConfiguration.used (h : SameConfiguration world other invocation otherInvocation) :
    usedConfig other otherInvocation =
      usedConfig world invocation := by
  ext path
  constructor
  · intro hused
    exact uses_config_iff.1 (h.symm.uses (uses_config_iff.2 hused))
  · intro hused
    exact uses_config_iff.1 (h.uses (uses_config_iff.2 hused))

end TwoRuns

section Runs

variable {world : World} {arguments : List Text} {invocation : Invocation}

/-- A run whose configuration cannot be loaded fails over it. -/
theorem run_fails_over_config (hset : world.unsettable? = none)
    (hread : read arguments = .accepted invocation) {fault : ConfigFault}
    (h : ConfigFails world invocation fault) :
    FailsWith (run world arguments) (.configuration fault)
      "failed to load configuration".toList := by
  rw [config_fails_iff] at h
  simp only [run_of_settable hset, runSettled, hread, runAccepted, h]
  exact ⟨rfl, rfl, rfl, rfl⟩

end Runs

end QueryTables
