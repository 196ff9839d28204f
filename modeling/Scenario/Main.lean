import Scenario.CommandLine.Report

namespace Scenario.CommandLine

def readEntry (path : String) : IO Entry := do
  try
    return .file (← IO.FS.readFile path)
  catch
    | .noFileOrDirectory .. => return .missing
    | .inappropriateType .. => return .folder
    | e => throw e

/-- Ends a run with the status of an uncaught failure. -/
def abort (message : String) : IO UInt32 := do
  (← IO.getStderr).putStrLn message
  return 1

def carryOut (r : Report) : IO UInt32 := do
  let out ← IO.getStdout
  for line in r.log do
    (← IO.getStderr).putStrLn line
  for line in r.lines do
    out.putStrLn line
  match r.ending with
  | .status n => return n.toUInt32
  | .abort a => abort a.message
  | .write path text line =>
    IO.FS.writeFile path text
    out.putStrLn line
    return 0

end Scenario.CommandLine

open Scenario.CommandLine in
def main (arguments : List String) : IO UInt32 := do
  match Command.ofArguments arguments with
  | .error .usage =>
    (← IO.getStdout).putStr Command.usage
    return 0
  | .error .rejected =>
    (← IO.getStderr).putStr Command.usage
    return 2
  | .ok c =>
    let entry ← match c.source? with
      | some path => readEntry path
      | none => pure .missing
    carryOut (c.report entry)
