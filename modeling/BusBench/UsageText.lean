import BusBench.Arguments

namespace BusBench

namespace Usage

/-- The text that help gives. -/
def helpText : String :=
  "Cycle-driven verification harness\n\n" ++
  "Usage: cyclebench [OPTIONS] <COMMAND>\n\n" ++
  "Commands:\n" ++
  "  run      Preload memory and run the scripted device to a verdict\n" ++
  "  regress  Run every [[test]] entry and print a PASS/FAIL/ERROR table\n" ++
  "  check    Validate the configuration and memory image without simulating\n" ++
  "  help     Print this message\n\n" ++
  "Options:\n" ++
  "  -q, --quiet            Suppress all output except errors\n" ++
  "  -v, --verbose          Enable verbose output\n" ++
  "      --config <CONFIG>  Path to a cyclebench.toml file, or a directory containing one\n" ++
  "  -h, --help             Print help\n" ++
  "  -V, --version          Print version\n\n" ++
  "Options of run:\n" ++
  "      --image <IMAGE>              Memory image to preload\n" ++
  "      --offset <OFFSET>            Address of the first image word (hex)\n" ++
  "      --pass <PASS>                Pass sentinel address (hex)\n" ++
  "      --fail <FAIL>                Fail sentinel address (hex)\n" ++
  "      --timeout <TIMEOUT>          Tick count at which the run times out\n" ++
  "      --half-period <HALF_PERIOD>  Ticks between clock inversions\n" ++
  "      --waves <WAVES>              Record a VCD trace to this path\n" ++
  "      --no-waves                   Disable trace recording\n" ++
  "      --coverage <COVERAGE>        Write the toggle coverage database to this path\n" ++
  "  -f, --format <FORMAT>            Output format: text or json\n\n" ++
  "Options of regress:\n" ++
  "      [NAME]             Run only the test with this exact name\n" ++
  "      --filter <FILTER>  Run only tests whose name contains this substring\n" ++
  "      --no-waves         Disable trace recording\n"

/-- What to print for arguments that make no command. -/
def text : Usage → String
  | help => helpText
  | version => "cyclebench 0.1.0\n"
  | noArguments => helpText
  | conflict => "error: an argument is given twice or cannot be used with another one\n"
  | badValue => "error: an argument has a value that cannot be read\n"
  | invalidValue => "error: an argument lacks its value or has none of the possible ones\n"
  | tooManyValues => "error: a flag was given a value\n"
  | unknownArgument => "error: unexpected argument\n"
  | invalidCommand => "error: unrecognized command\n"
  | missingCommand => "error: a command is required\n"

/-- Help and version were asked for; all else is a mistake. -/
def wanted (u : Usage) : Bool := u.exitCode = 0

end Usage

end BusBench
