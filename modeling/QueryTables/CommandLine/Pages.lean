import QueryTables.Text

/-!
# The pages for help and version
-/

namespace QueryTables.CommandLine

/-- The page that says what the program is and how it is called. -/
def helpPage : Text :=
  ("Heuristic extraction of table names referenced by SQL statements\n" ++
   "\n" ++
   "Usage: sqltables [OPTIONS] [QUERY]\n" ++
   "\n" ++
   "Arguments:\n" ++
   "  [QUERY]  SQL text to scan (read from stdin when neither QUERY nor --file is given)\n" ++
   "\n" ++
   "Options:\n" ++
   "  -f, --file <FILE>      Read the SQL text from a file\n" ++
   "      --format <FORMAT>  Output format: plain or json\n" ++
   "      --unquote          Strip backticks and merge names that only differ in quoting\n" ++
   "      --counts           Print how often each name was referenced\n" ++
   "      --config <CONFIG>  Config file (defaults to $SQLTABLES_CONFIG, then the user config dir)\n" ++
   "  -v, --verbose...       Increase log verbosity (-v debug, -vv trace)\n" ++
   "  -h, --help             Print help\n" ++
   "  -V, --version          Print version\n").toList

/-- The page that names the program and its version. -/
def versionPage : Text :=
  "sqltables 0.1.0\n".toList

end QueryTables.CommandLine
