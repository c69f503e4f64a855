import QueryTables.Report
import QueryTables.Text.Visible

/-!
# The command line

Arguments are first told apart from left to right: options with a value, switches, and one query.
Then they are taken one after the other, and the first that is wrong decides the answer, as does a
request for help or for the version. A value may be attached to its option or be the next argument;
a detached value does not start with a hyphen, unless it is nothing else.
-/

namespace QueryTables.CommandLine

/-- The options that take a value. -/
inductive Setting where
  | file
  | format
  | config
deriving DecidableEq, Repr

/-- The options that take no value. -/
inductive Switch where
  | unquote
  | counts
  | verbose
  | help
  | version
deriving DecidableEq, Repr

/-- The name of an option with a value. -/
def Setting.name : Setting → Text
  | file => "file".toList
  | format => "format".toList
  | config => "config".toList

/-- An option with a value as messages show it. -/
def Setting.display : Setting → Text
  | file => "--file <FILE>".toList
  | format => "--format <FORMAT>".toList
  | config => "--config <CONFIG>".toList

/-- The name of an option without a value. -/
def Switch.name : Switch → Text
  | unquote => "unquote".toList
  | counts => "counts".toList
  | verbose => "verbose".toList
  | help => "help".toList
  | version => "version".toList

/-- An option without a value as messages show it. One that may be repeated is marked. -/
def Switch.display : Switch → Text
  | verbose => "--verbose...".toList
  | switch => "--".toList ++ switch.name

/-- The query as messages show it. -/
def queryDisplay : Text :=
  "[QUERY]".toList

/-- The option with a value of a name. -/
def Setting.ofName? (name : Text) : Option Setting :=
  [file, format, config].find? fun setting => setting.name == name

/-- The option without a value of a name. -/
def Switch.ofName? (name : Text) : Option Switch :=
  [unquote, counts, verbose, help, version].find? fun switch => switch.name == name

/-- The option without a value of a letter. -/
def Switch.ofLetter? (letter : Char) : Option Switch :=
  if letter = 'v' then some verbose
  else if letter = 'h' then some help
  else if letter = 'V' then some version
  else none

/-- The letter for the option that names a file. -/
def fileLetter : Char := 'f'

/-- The value of an option: attached to it, the argument behind it, or nowhere. -/
inductive Given where
  | attached (value : Text)
  | detached (value : Text)
  | absent
deriving DecidableEq, Repr

/-- What an argument is. -/
inductive Item where
  | query (text : Text)
  | setting (setting : Setting) (given : Given)
  | switch (switch : Switch)
deriving DecidableEq, Repr

/-- What is wrong with the arguments. -/
inductive Fault where
  | unexpectedArgument (argument : Text)
  | unexpectedValue (value : Text) (switch : Switch)
  | missingValue (setting : Setting)
  | invalidFormat (given : Text)
  | repeatedSetting (setting : Setting)
  | repeatedSwitch (switch : Switch)
  | queryBeforeFile
  | fileBeforeQuery
deriving DecidableEq, Repr

namespace Fault

/-- The end of a message, with a pointer to the help page. The name of the option stands out, which
cuts off a control sequence left open before it. -/
def closing (text : Text) : Text :=
  Text.visible (text ++ "\n\nFor more information, try '".toList) ++ "--help'.".toList

/-- The message for a fault. What was given stands out where it is first shown, and is shown only as
far as it is visible. -/
def message : Fault → Text
  | unexpectedArgument argument =>
      "unexpected argument '".toList ++ Text.visible argument ++ closing "' found".toList
  | unexpectedValue value switch =>
      "unexpected value '".toList ++ Text.visible value ++ "' for '".toList ++ switch.display ++
        closing "' found; no more were expected".toList
  | missingValue setting =>
      "a value is required for '".toList ++ setting.display ++
        closing "' but none was supplied".toList
  | invalidFormat given =>
      "invalid value '".toList ++ Text.visible given ++ "' for '".toList ++
        Setting.format.display ++ closing ("': ".toList ++ Format.unknownMessage given)
  | repeatedSetting setting => repeated setting.display
  | repeatedSwitch switch => repeated switch.display
  | queryBeforeFile => together queryDisplay Setting.file.display
  | fileBeforeQuery => together Setting.file.display queryDisplay
where
  /-- The message for what may be given only once. -/
  repeated (what : Text) : Text :=
    "the argument '".toList ++ what ++ closing "' cannot be used multiple times".toList
  /-- The message for two things that exclude each other. -/
  together (first second : Text) : Text :=
    "the argument '".toList ++ first ++ "' cannot be used with '".toList ++ second ++
      closing "'".toList

end Fault

/-- The argument can be the value of the option before it. -/
def isValue (argument : Text) : Bool :=
  argument.head? != some '-' || argument == ['-']

/-- What a group of letters ends with: nothing, the option that names a file with its value behind
it or still to come, or a letter that stands for no option. -/
inductive LettersEnd where
  | complete
  | fileAttached (value : Text)
  | fileOpen
  | unknown (letter : Char)
deriving DecidableEq, Repr

/-- Reads a group of letters behind one hyphen. An equals sign in front of an attached value is
dropped. -/
def readLetters : Text → List Switch × LettersEnd
  | [] => ([], .complete)
  | letter :: rest =>
      if letter = fileLetter then
        match rest with
        | [] => ([], .fileOpen)
        | c :: value => ([], .fileAttached (if c = '=' then value else c :: value))
      else match Switch.ofLetter? letter with
        | some switch =>
            let (switches, final) := readLetters rest
            (switch :: switches, final)
        | none => ([], .unknown letter)

/-- An option behind two hyphens, cut at its first equals sign into its name and the value attached
to it. -/
def splitName (option : Text) : Text × Option Text :=
  match option.dropWhile (· != '=') with
  | [] => (option, none)
  | _ :: value => (option.takeWhile (· != '='), some value)

/-- What an argument begins with: the mark that ends the options, a name, letters, or neither. -/
inductive Form where
  | mark
  | name (option : Text)
  | letters (letters : Text)
  | plain
deriving DecidableEq, Repr

/-- The form of an argument. -/
def formOf : Text → Form
  | ['-', '-'] => .mark
  | '-' :: '-' :: option => .name option
  | ['-'] => .plain
  | '-' :: letters => .letters letters
  | _ => .plain

/-- What a row of arguments holds, and the fault that cuts it short, if there is one. -/
structure Items where
  items : List Item
  fault : Option Fault
deriving DecidableEq, Repr

namespace Items

/-- Arguments that hold nothing. -/
def none : Items :=
  ⟨[], Option.none⟩

/-- A row that is cut short at once. -/
def stop (fault : Fault) : Items :=
  ⟨[], some fault⟩

/-- A row with further items in front. -/
def after (items : Items) (front : List Item) : Items :=
  ⟨front ++ items.items, items.fault⟩

end Items

/-- Reads arguments behind the mark that ends the options: each is a query, and there is only
one. -/
def readQueries (hasQuery : Bool) : List Text → Items
  | [] => .none
  | argument :: rest =>
      if hasQuery then .stop (.unexpectedArgument argument)
      else (readQueries true rest).after [.query argument]

/-- How reading goes on behind an argument: with the next one, with the value of an option, with
queries only, or not at all. -/
inductive Next where
  | argument
  | valueOf (setting : Setting)
  | queries
  | stop (fault : Fault)
deriving DecidableEq, Repr

/-- Reads an argument that starts with two hyphens and names an option. -/
def readNamed (option : Text) : List Item × Next :=
  match Setting.ofName? (splitName option).1, Switch.ofName? (splitName option).1,
      (splitName option).2 with
  | some setting, _, some value => ([.setting setting (.attached value)], .argument)
  | some setting, _, none => ([], .valueOf setting)
  | none, some switch, none => ([.switch switch], .argument)
  | none, some switch, some value => ([], .stop (.unexpectedValue value switch))
  | none, none, _ => ([], .stop (.unexpectedArgument ("--".toList ++ (splitName option).1)))

/-- Reads an argument that starts with one hyphen and has letters behind it. -/
def readGrouped (letters : Text) : List Item × Next :=
  let switches := (readLetters letters).1.map Item.switch
  match (readLetters letters).2 with
  | .complete => (switches, .argument)
  | .fileAttached value => (switches ++ [.setting .file (.attached value)], .argument)
  | .fileOpen => (switches, .valueOf .file)
  | .unknown letter => (switches, .stop (.unexpectedArgument ['-', letter]))

/-- Reads one argument, given whether there has been a query. -/
def readArgument (hasQuery : Bool) (argument : Text) : List Item × Next :=
  match formOf argument with
  | .mark => ([], .queries)
  | .plain =>
      if hasQuery then ([], .stop (.unexpectedArgument argument))
      else ([.query argument], .argument)
  | .name option => readNamed option
  | .letters letters => readGrouped letters

/-- The item is a query. -/
def Item.isQuery : Item → Bool
  | .query _ => true
  | .setting _ _ | .switch _ => false

/-- Reads arguments, given whether there has been a query. -/
def readItems (hasQuery : Bool) : List Text → Items
  | [] => .none
  | argument :: rest =>
      let front := (readArgument hasQuery argument).1
      match (readArgument hasQuery argument).2 with
      | .argument => (readItems (hasQuery || front.any Item.isQuery) rest).after front
      | .queries => readQueries hasQuery rest
      | .stop fault => (Items.stop fault).after front
      | .valueOf setting =>
          match rest with
          | [] => ⟨front ++ [.setting setting .absent], none⟩
          | value :: others =>
              if isValue value then
                (readItems hasQuery others).after (front ++ [.setting setting (.detached value)])
              else (readItems hasQuery (value :: others)).after (front ++ [.setting setting .absent])

/-- What the arguments ask the program to do. -/
structure Invocation where
  query : Option Text
  file : Option Text
  format : Option Format
  config : Option Text
  unquote : Bool
  counts : Bool
  verbosity : Nat
deriving DecidableEq, Repr

namespace Invocation

/-- What no arguments ask for. -/
def standard : Invocation :=
  ⟨none, none, none, none, false, false, 0⟩

end Invocation

/-- What arguments are answered with: a page, a fault, or a run. -/
inductive Reading where
  | help
  | version
  | refused (fault : Fault)
  | accepted (invocation : Invocation)
deriving DecidableEq, Repr

namespace Invocation

/-- The invocation with a value for one of its options. A missing value is noticed first, then a
repeated option, then a value that is not allowed. -/
def setValue (invocation : Invocation) (setting : Setting) (value : Text) :
    Except Fault Invocation :=
  match setting with
  | .file =>
      if invocation.file.isSome then .error (.repeatedSetting .file)
      else if value = [] then .error (.missingValue .file)
      else .ok { invocation with file := some value }
  | .config =>
      if invocation.config.isSome then .error (.repeatedSetting .config)
      else if value = [] then .error (.missingValue .config)
      else .ok { invocation with config := some value }
  | .format =>
      if invocation.format.isSome then .error (.repeatedSetting .format)
      else match Format.ofText? value with
        | some format => .ok { invocation with format := some format }
        | none => .error (.invalidFormat value)

end Invocation

/-- Takes one item: the invocation with it, or the answer that it calls for at once. -/
def take (invocation : Invocation) : Item → Except Reading Invocation
  | .query text => .ok { invocation with query := some text }
  | .setting setting .absent => .error (.refused (.missingValue setting))
  | .setting setting (.attached value) | .setting setting (.detached value) =>
      (invocation.setValue setting value).mapError Reading.refused
  | .switch .unquote =>
      if invocation.unquote then .error (.refused (.repeatedSwitch .unquote))
      else .ok { invocation with unquote := true }
  | .switch .counts =>
      if invocation.counts then .error (.refused (.repeatedSwitch .counts))
      else .ok { invocation with counts := true }
  | .switch .verbose => .ok { invocation with verbosity := invocation.verbosity + 1 }
  | .switch .help => .error .help
  | .switch .version => .error .version

/-- The item waits for the next argument before it is taken: its value could still have come from
there. -/
def Item.waits : Item → Bool
  | .setting _ (.detached _) | .setting _ .absent => true
  | .setting _ (.attached _) | .query _ | .switch _ => false

/-- Takes items one after the other. A fault that cuts the row short is noticed before an item that
still waits in front of it is taken. -/
def takeAll (invocation : Invocation) (fault : Option Fault) :
    List Item → Except Reading Invocation
  | [] =>
      match fault with
      | some fault => .error (.refused fault)
      | none => .ok invocation
  | item :: rest =>
      match fault, rest with
      | some fault, [] =>
          if item.waits then .error (.refused fault)
          else (take invocation item).bind fun _ => .error (.refused fault)
      | fault, rest => (take invocation item).bind fun invocation => takeAll invocation fault rest

/-- The fault of giving both a query and a file, named in the order in which they were given. -/
def togetherFault? (items : List Item) : Option Fault :=
  let isFile : Item → Bool
    | .setting .file _ => true
    | _ => false
  match items.find? fun item => item.isQuery || isFile item with
  | some (.query _) => if items.any isFile then some .queryBeforeFile else none
  | some _ => if items.any Item.isQuery then some .fileBeforeQuery else none
  | none => none

/-- The answer to the arguments. -/
def read (arguments : List Text) : Reading :=
  let row := readItems false arguments
  match takeAll Invocation.standard row.fault row.items with
  | .error answer => answer
  | .ok invocation =>
      match togetherFault? row.items with
      | some fault => .refused fault
      | none => .accepted invocation

end QueryTables.CommandLine
