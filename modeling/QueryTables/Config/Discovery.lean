import QueryTables.Config
import QueryTables.Environment
import QueryTables.Log

/-!
# Which configuration file is used

A file named on the command line or by a variable is used whatever it holds: if it cannot be used,
no other is tried. Otherwise the file in the user's configuration directory is used if it is there,
whether it can be read or not, and without it there are no defaults.
-/

namespace QueryTables.Config

/-- The variable that names a configuration file. -/
def pathVariable : Text :=
  "SQLTABLES_CONFIG".toList

/-- A path inside a directory. -/
def inside (directory name : Text) : Text :=
  if directory = [] ∨ directory.getLast? = some '/' then directory ++ name
  else directory ++ '/' :: name

/-- The user's home directory: the one that a variable gives, or else that of the user's account.
Neither counts if it is empty. -/
def home? (environment : Environment) (account : Option Text) : Option Text :=
  ((environment.value? "HOME".toList).filter (· ≠ [])).or (account.filter (· ≠ []))

/-- The directory for a user's configuration files: the one that a variable gives by an absolute
path, or else one in the home directory. -/
def userDirectory? (environment : Environment) (account : Option Text) : Option Text :=
  match environment.value? "XDG_CONFIG_HOME".toList with
  | some ('/' :: path) => some ('/' :: path)
  | _ => (home? environment account).map fun home => inside home ".config".toList

/-- The configuration file in the user's configuration directory. -/
def userPath? (environment : Environment) (account : Option Text) : Option Text :=
  (userDirectory? environment account).map fun directory =>
    inside (inside directory "sqltables".toList) "config.toml".toList

/-- The path designated by the command line or by the variable. -/
def designated? (given : Option Text) (environment : Environment) : Option Text :=
  given.or (environment.value? pathVariable)

/-- The file that is used: the designated one, or else the fallback if it exists. -/
def used? (find : Text → Except FileFault FileEntry) (designated fallback : Option Text) :
    Option Text :=
  designated.or (fallback.filter fun path => (find path).isOk)

/-- The configuration of the file that is used, or no defaults without one. -/
def loadUsed (find : Text → Except FileFault FileEntry) (used : Option Text) :
    Except ConfigFault Config :=
  match used with
  | some path => load find path
  | none => .ok empty

/-- The records that loading a configuration leaves. -/
def loadRecords (used : Option Text) : List Log.Record :=
  used.toList.map fun path =>
    ⟨.debug, "sqltables_infra::config::config_file".toList, "loading config".toList,
      [⟨"path".toList, .text path⟩]⟩

end QueryTables.Config
