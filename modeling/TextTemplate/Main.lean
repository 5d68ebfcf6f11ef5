import TextTemplate.CommandLine.Run

/-! The command line program. -/
namespace TextTemplate.CommandLine

def usage : String :=
  String.join <| List.map (· ++ "\n")
    ["Usage: text-template [OPTIONS] [WORDS]...",
      "",
      "Fills positional \x7bindex[,alignment][:spec]\x7d templates.",
      "",
      "Options:",
      "  -t, --template <TEXT>   Template text",
      "  -f, --args-file <FILE>  TOML file with a template and/or arguments",
      "  -r, --raw               Treat every word as text",
      "  -n, --no-newline        Do not print a trailing newline",
      "  -h, --help              Print help"]

def decode (bytes : ByteArray) : Except ReadFailure Text :=
  match String.fromUTF8? bytes with
  | some s => .ok s.toList
  | none => .error .notUnicode

def readFailure : IO.Error → ReadFailure
  | .noFileOrDirectory .. => .missing
  | .inappropriateType .. => .directory
  | e => .other e.toString.toList

def readContent (name : String) : IO (Except ReadFailure Text) := do
  try
    return decode (← IO.FS.readBinFile name)
  catch e =>
    return .error (readFailure e)

def contentFor (o : Options) : IO (Except ReadFailure Text) :=
  match o.file with
  | some name => readContent (String.ofList name)
  | none => return .error .missing

def inputFor (needed : Bool) : IO (Except ReadFailure Text) := do
  if needed then return decode (← (← IO.getStdin).readBinToEnd)
  else return .ok []

end TextTemplate.CommandLine

open TextTemplate in
def main (elements : List String) : IO UInt32 := do
  match CommandLine.read? (elements.map String.toList) with
  | none =>
    IO.eprint CommandLine.usage
    return 2
  | some .help =>
    IO.print CommandLine.usage
    return 0
  | some (.fill options) =>
    let content ← CommandLine.contentFor options
    let input ← CommandLine.inputFor (options.needsInput content)
    let outcome := options.run content input
    IO.print (String.ofList outcome.output)
    IO.eprint (String.ofList outcome.errors)
    return outcome.code.toUInt32
