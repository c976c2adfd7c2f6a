import CorpusQuery.Command

namespace CorpusQuery

/-- The text of a file, if there is one to be had. -/
def readFile? (path : String) : IO (Option Text) := do
  try
    return some (← IO.FS.readFile path).toList
  catch _ =>
    return none

end CorpusQuery

open CorpusQuery in
def main (args : List String) : IO UInt32 := do
  match Command.ofArgs? (args.map String.toList) with
  | none =>
    IO.eprint Command.Output.usage.stderr
    return Command.Output.usage.code
  | some command =>
    let input ← if command.readsInput then (← IO.getStdin).readToEnd else pure ""
    let content ← match command.settingsFile? with
      | some path => readFile? (String.ofList path)
      | none => pure none
    let output := command.run (command.source fun _ => content) input.toList
    IO.print output.stdout
    IO.eprint output.stderr
    return output.code
