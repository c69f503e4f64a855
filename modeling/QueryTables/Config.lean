import QueryTables.Binary64.Shortest
import QueryTables.FileTree
import QueryTables.Report
import QueryTables.Text.Quoted
import QueryTables.Toml.Reader

/-!
# Configuration

A configuration file gives defaults for the options of a report: `format`, `unquote` and `counts`,
each of which may be left out. Entries are judged in document order, and the first that is not
allowed is the one a message is about.
-/

namespace QueryTables

/-- The defaults that a configuration file gives. -/
structure Config where
  format : Option Format
  unquote : Option Bool
  counts : Option Bool
deriving DecidableEq, Repr

/-- What is wrong with an entry: its key is none of the known ones, its format is a word for none,
its format is no word at all, or its value should be a boolean. -/
inductive EntryFault where
  | unknownKey (key : Text)
  | unknownFormat (given : Text)
  | formatNotText
  | notBoolean (found : Toml.Value)

namespace EntryFault

/-- A value as it is named in a message about its kind. -/
def kind : Toml.Value → Text
  | .boolean value => "boolean `".toList ++ (if value then "true" else "false").toList ++ ['\x60']
  | .integer value => "integer `".toList ++ integer value ++ ['\x60']
  | .float value => "floating point `".toList ++ value.text ++ ['\x60']
  | .text value => "string ".toList ++ Text.inQuotationMarks value
  | .array _ => "sequence".toList
  | .moment | .table _ => "map".toList
where
  /-- The numeral of an integer, with its sign when it is negative. -/
  integer (value : Int) : Text :=
    if value < 0 then '-' :: Decimal.numeral value.natAbs else Decimal.numeral value.natAbs

/-- The message for a fault. There is none for a format that is no word. -/
def message? : EntryFault → Option Text
  | unknownKey key => some ("unknown field `".toList ++ key ++
      "`, expected one of `format`, `unquote`, `counts`".toList)
  | unknownFormat given => some (Format.unknownExactMessage given)
  | formatNotText => none
  | notBoolean found => some ("invalid type: ".toList ++ kind found ++ ", expected a boolean".toList)

end EntryFault

namespace Config

/-- The configuration that gives no defaults. -/
def empty : Config :=
  ⟨none, none, none⟩

/-- The format that a word names exactly. -/
def formatOfWord (word : Text) : Except EntryFault Format :=
  match Format.ofExactText? word with
  | some format => .ok format
  | none => .error (.unknownFormat word)

/-- The format that a value stands for: a word, or a table with that word as its only key and
nothing under it. -/
def formatOf : Toml.Value → Except EntryFault Format
  | .text word => formatOfWord word
  | .table [(word, content)] =>
      match formatOfWord word, content with
      | .error fault, _ => .error fault
      | .ok format, .table [] | .ok format, .array [] => .ok format
      | .ok _, _ => .error .formatNotText
  | _ => .error .formatNotText

/-- The boolean that a value is. -/
def booleanOf : Toml.Value → Except EntryFault Bool
  | .boolean value => .ok value
  | found => .error (.notBoolean found)

/-- The configuration with one more entry. -/
def addEntry (config : Config) (key : Text) (value : Toml.Value) : Except EntryFault Config :=
  if key = "format".toList then
    (formatOf value).map fun format => { config with format := some format }
  else if key = "unquote".toList then
    (booleanOf value).map fun unquote => { config with unquote := some unquote }
  else if key = "counts".toList then
    (booleanOf value).map fun counts => { config with counts := some counts }
  else .error (.unknownKey key)

/-- The configuration with further entries, or the fault of the first that is not allowed. -/
def addEntries (config : Config) : List (Text × Toml.Value) → Except EntryFault Config
  | [] => .ok config
  | (key, value) :: rest =>
      match addEntry config key value with
      | .error fault => .error fault
      | .ok config => addEntries config rest

/-- The configuration that the entries of a document make up. -/
def ofEntries (entries : List (Text × Toml.Value)) : Except EntryFault Config :=
  addEntries empty entries

/-- The options for a report, given what was asked for on the command line. A format that is asked
for wins over the default, and what is asked for cannot be switched off by it. -/
def resolve (config : Config) (format : Option Format) (unquote counts : Bool) : Options where
  format := (format.or config.format).getD .plain
  counts := counts || config.counts.getD false
  unquote := unquote || config.unquote.getD false

end Config

/-- Why a configuration file cannot be used: it cannot be read, it is no TOML document, or an entry
is not allowed. -/
inductive ConfigFault where
  | unreadable (path : Text) (cause : FileFault)
  | notToml (path : Text)
  | badEntry (path : Text) (cause : EntryFault)

namespace ConfigFault

/-- The message for a fault. -/
def message : ConfigFault → Text
  | unreadable path _ => "failed to read config file ".toList ++ path
  | notToml path | badEntry path _ => "invalid config file ".toList ++ path

/-- The message for what caused a fault, if there is one. -/
def causeMessage? : ConfigFault → Option Text
  | unreadable _ cause => some cause.message
  | notToml _ => none
  | badEntry _ cause => cause.message?

end ConfigFault

namespace Config

/-- The configuration in the text of a file. -/
def ofText (path source : Text) : Except ConfigFault Config :=
  match Toml.read? source with
  | none => .error (.notToml path)
  | some entries =>
      match ofEntries entries with
      | .error cause => .error (.badEntry path cause)
      | .ok config => .ok config

/-- The configuration in the file at a path, where files are looked up. -/
def load (find : Text → Except FileFault FileEntry) (path : Text) : Except ConfigFault Config :=
  match FileEntry.read (find path) with
  | .error cause => .error (.unreadable path cause)
  | .ok source => ofText path source

end Config

end QueryTables
