import StoreQuery.CommandLine.Run

/-! # The program

Help and the program's output go to the standard output, every complaint to the standard error. The
exit status is 2 if the arguments are wrong, and 1 if the command fails.
-/

namespace StoreQuery.CommandLine

def version : String := "store-query 0.1.0"

def usage : String :=
  "Parse, format and inspect query statements for stores.\n\n" ++
  "Usage: store-query [OPTIONS] <COMMAND>\n\n" ++
  "Commands:\n" ++
  "  parse   Parse statements and print their syntax tree\n" ++
  "  format  Print statements in canonical form\n" ++
  "  params  List the parameters each statement references\n" ++
  "  help    Print this message\n\n" ++
  "Arguments of commands:\n" ++
  "  [QUERY]            Query text; read from a file or the standard input when omitted\n" ++
  "  -f, --file <FILE>  Read query text from a file\n" ++
  "      --json         Print the tree as JSON (parse only)\n\n" ++
  "Options:\n" ++
  "  -v, --verbose      Enable verbose output\n" ++
  "  -h, --help         Print help\n" ++
  "  -V, --version      Print version"

def UsageFault.complaint : UsageFault → String
  | helpWanted | nothingGiven => usage
  | versionWanted => version
  | noCommand => "error: a command is required"
  | unknownCommand => "error: unrecognized command"
  | unknownArgument => "error: unexpected argument"
  | conflict => "error: arguments cannot be used together"
  | noValue => "error: a value is required for --file"
  | valueNotTaken => "error: an option was given a value that it does not take"

def Source.bytes : Source → IO (Option ByteArray)
  | inline _ => return none
  | file path => do
    try
      return some (← IO.FS.readBinFile path)
    catch _ => return none
  | standardInput => do
    try
      return some (← (← IO.getStdin).readBinToEnd)
    catch _ => return none

end StoreQuery.CommandLine

open StoreQuery.CommandLine in
def main (args : List String) : IO UInt32 := do
  match Invocation.ofArguments args with
  | .error .helpWanted => IO.println usage; return 0
  | .error .versionWanted => IO.println version; return 0
  | .error fault => IO.eprintln fault.complaint; return 2
  | .ok i =>
    match i.run (← i.source.bytes) with
    | .ok output => IO.print output; return 0
    | .error failure => IO.eprintln ("Error: " ++ failure.message); return 1
