import Scenario.CommandLine.Report

namespace Scenario.CommandLine

/-- A directory: the texts of the files in it and below, by their paths. -/
structure Directory where
  files : Fields String := []
  deriving Repr

namespace Directory

/-- Whether a folder of the given path is there. The directory itself has the path `.`. -/
def isFolder (d : Directory) (path : String) : Bool :=
  path = "." || d.files.any fun f => (path ++ "/").toList.isPrefixOf f.1.toList

/-- Whether a path leads through a file. -/
def isBelowFile (d : Directory) (path : String) : Bool :=
  d.files.any fun f => (f.1 ++ "/").toList.isPrefixOf path.toList

def entry (d : Directory) (path : String) : Entry :=
  let path := shownPath path
  if d.isFolder path then .folder
  else
    match d.files.get? path with
    | some text => .file text
    | none => if d.isBelowFile path then .belowFile else .missing

def parent (path : String) : String :=
  let steps := (shownPath path).toList.splitOn '/'
  match steps.dropLast with
  | [] => "."
  | steps => String.intercalate "/" (steps.map String.ofList)

def write (d : Directory) (path text : String) : Except Abort Directory :=
  match d.entry path with
  | .folder => .error (.isFolder (shownPath path))
  | .belowFile => .error (.notFolder (shownPath path))
  | _ =>
    if d.isFolder (parent path) then .ok ⟨d.files.put (shownPath path) text⟩
    else .error (.notFound (shownPath path))

end Directory

structure Run where
  exit : Except Abort Nat
  /-- Whether help is printed in place of any lines. -/
  usage : Bool := false
  lines : List String := []
  log : List String := []
  directory : Directory

def run (d : Directory) (arguments : List String) : Run :=
  match Command.ofArguments arguments with
  | .error .usage => { exit := .ok 0, usage := true, directory := d }
  | .error .rejected => { exit := .ok 2, directory := d }
  | .ok c =>
    let r := c.report ((c.source?.map d.entry).getD .missing)
    match r.ending with
    | .status n => { exit := .ok n, lines := r.lines, log := r.log, directory := d }
    | .abort a => { exit := .error a, lines := r.lines, log := r.log, directory := d }
    | .write path text line =>
      match d.write path text with
      | .ok d => { exit := .ok 0, lines := r.lines ++ [line], log := r.log, directory := d }
      | .error a => { exit := .error a, lines := r.lines, log := r.log, directory := d }

/-- The files that differ between two states of a directory, as they are in the second. -/
def Directory.changes (before after : Directory) : Fields String :=
  after.files.filter fun f => before.files.get? f.1 ≠ some f.2

end Scenario.CommandLine
