import TreeKinds.CommandLine.Argument

/-! Why a command line is refused, and what is printed then; the texts of help and version. -/
namespace TreeKinds.CommandLine

inductive Tip where
  /-- The word could be given as a value behind the divider. -/
  | asValue
  | similar (a : Argument)
  deriving DecidableEq, Repr

inductive Refusal where
  | missingDescription (given : List Argument)
  | unexpected (word : String) (tip : Option Tip) (given : List Argument)
  | valueRequired (a : Argument)
  | repeated (a : Argument)
  | unneededValue (value : String) (a : Argument) (given : List Argument)
  deriving DecidableEq, Repr

def programName : String := "gendef"

/-- A usage that shows options one by one, and the description, which is always needed. -/
def usageWith (options : List Argument) : String :=
  String.intercalate " " (programName :: options.map Argument.shown ++ [Argument.description.shown])

def usage : String := programName ++ " [OPTIONS] " ++ Argument.description.shown

namespace Refusal

def text : Refusal → String
  | missingDescription _ =>
    "the following required arguments were not provided:\n  " ++ Argument.description.shown
  | unexpected word _ _ => "unexpected argument '" ++ word ++ "' found"
  | valueRequired a => "a value is required for '" ++ a.shown ++ "' but none was supplied"
  | repeated a => "the argument '" ++ a.shown ++ "' cannot be used multiple times"
  | unneededValue value a _ =>
    "unexpected value '" ++ value ++ "' for '" ++ a.shown ++ "' found; no more were expected"

def tip? : Refusal → Option String
  | unexpected word (some .asValue) _ =>
    some ("to pass '" ++ word ++ "' as a value, use '" ++ "-- " ++ word ++ "'")
  | unexpected _ (some (.similar a)) _ =>
    some ("a similar argument exists: '--" ++ a.long ++ "'")
  | _ => none

/-- The options that were given are part of the usage in some of the refusals. -/
def usage? : Refusal → Option String
  | missingDescription given => some (usageWith given)
  | unexpected _ _ [] => some usage
  | unexpected _ _ given => some (usageWith given)
  | valueRequired _ => none
  | repeated _ => some usage
  | unneededValue _ _ given => some (usageWith given)

def message (r : Refusal) : String :=
  "error: " ++ r.text ++
    (r.tip?.map fun t => "\n\n  tip: " ++ t).getD "" ++
    (r.usage?.map fun u => "\n\nUsage: " ++ u).getD "" ++
    "\n\nFor more information, try '--help'.\n"

end Refusal

def help : String :=
  "Generate the `tree.def' file from a language description\n\n" ++
  "Usage: " ++ usage ++ "\n\n" ++
  "Arguments:\n" ++
  "  <LANG_DESC_FILE>  Set input language description file\n\n" ++
  "Options:\n" ++
  "  -o, --output <OUTPUT>  Set output filename [default: tree.def]\n" ++
  "  -c, --config <CONFIG>  Read settings from a TOML config file\n" ++
  "      --keep-partial     Keep a partially written output file when writing fails\n" ++
  "  -h, --help             Print help\n" ++
  "  -V, --version          Print version\n\n" ++
  "Where LANG_DESC_FILE is a language description file.\n"

def version : String := programName ++ " 0.1.0\n"

end TreeKinds.CommandLine
