import Notebook.CommandLine.Request

/-! # Help on the command line

The text that is written when help is asked for, and beside a command line that makes no sense.
-/

namespace Notebook.CommandLine

def helpLines : List String := [
  "Usage: tiddle [--config PATH] [--load PATH] [--verbose] COMMAND",
  "",
  "Commands:",
  "  render [TITLE] [--format text|json] [--metrics]",
  "      Render a note once",
  "  watch [TITLE] [--interval-ms N] [--ticks N]",
  "      Render a note and keep it up to date while a clock ticks",
  "  list [--json]",
  "      List all titles and where they are found",
  "  help [COMMAND]",
  "      Show this text",
  "",
  "Options:",
  "  --config PATH   The settings (" ++ defaultConfig ++ " by default)",
  "  --load PATH     The notes to load, also given by TIDDLE_LOAD",
  "  -v, --verbose   Log more",
  "  -h, --help      Show this text",
  "  -V, --version   Show the version"]

def helpText : String :=
  "\n".intercalate helpLines

end Notebook.CommandLine
