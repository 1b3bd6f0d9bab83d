import LocalizedAccessors.Command.Option

/-!
# Usage

A command line that leads to no run: it asks for a text about the program, or it cannot be
understood.
-/

namespace LocalizedAccessors

/-- Why a command line leads to no run. -/
inductive UsageStop where
  | help
  | version
  /-- The command line is empty. -/
  | nothingAsked
  | missingCommand
  | unknownCommand (name : String)
  | unknownArgument (text : String)
  | missingValue (option : ValueOption)
  /-- A flag is given a value. -/
  | needlessValue (flag : Flag)
  | refusedValue (option : ValueOption) (fault : UnknownChoice)
  | repeatedOption (option : CommandOption)
  /-- The program is to say more and less at once. -/
  | verboseAndQuiet
  deriving DecidableEq, Repr

namespace UsageStop

/-- The exit status of the program. -/
def status : UsageStop → Nat
  | help | version => 0
  | _ => 2

/-- The help of the program. -/
def helpText : String :=
  "Usage: stringsgen [OPTIONS] <COMMAND>\n\nCommands:\n"
    ++ "  generate  Generate Swift accessors from localization files\n"
    ++ "  check     Validate localization files without writing anything\n"
    ++ "  help      Print this message\n\nOptions:\n"
    ++ "  -v, --verbose  Increase log output (-v info, -vv debug)\n"
    ++ "  -q, --quiet    Only log errors\n"
    ++ "  -h, --help     Print help\n"
    ++ "  -V, --version  Print version\n\nOptions of both commands:\n"
    ++ "  [INPUTS]...                         .strings and .stringsdict files\n"
    ++ "  --config <CONFIG>                   Configuration file\n"
    ++ "  --root-name <ROOT_NAME>             Name of the outermost generated struct\n"
    ++ "  --access <public|internal>          Access level of the generated declarations\n"
    ++ "  --package                           Look strings up in the package bundle\n"
    ++ "  --table <TABLE>                     Strings table to look up\n"
    ++ "  -m, --message <MESSAGE>             Message in the header comment\n"
    ++ "  --on-duplicate <overwrite|reject>   What to do with a key defined twice\n"
    ++ "  --strict                            Fail on inputs that cannot be read\n\n"
    ++ "Options of generate:\n"
    ++ "  -o, --output <OUTPUT>               The Swift file to write\n"
    ++ "  --debug                             Print the namespace tree\n"

def versionText : String := "stringsgen 0.3.0\n"

/-- What the program says instead of a run. -/
def message : UsageStop → String
  | help | nothingAsked => helpText
  | version => versionText
  | missingCommand => "error: a command is required\n"
  | unknownCommand name => "error: unrecognized command '" ++ name ++ "'\n"
  | unknownArgument text => "error: unexpected argument '" ++ text ++ "'\n"
  | missingValue option => "error: a value is required for '--" ++ option.name.long ++ "'\n"
  | needlessValue flag => "error: unexpected value for '--" ++ flag.name.long ++ "'\n"
  | refusedValue option fault =>
    "error: invalid value for '--" ++ option.name.long ++ "': " ++ fault.message ++ "\n"
  | repeatedOption option =>
    "error: '--" ++ option.name.long ++ "' cannot be used multiple times\n"
  | verboseAndQuiet => "error: '--quiet' cannot be used with '--verbose'\n"

end UsageStop

end LocalizedAccessors
