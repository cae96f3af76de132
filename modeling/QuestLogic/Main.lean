import QuestLogic.Runner

/-!
# The command line of the dialog runner

Fetches the files of a directory, and prints the report of the runner.
-/

namespace QuestLogic.Runner

/-- The files below a directory, each with the names of the directories around it. -/
partial def filesBelow (names : List String) (directory : String) : IO (List Library.File) := do
  let mut files := []
  for entry in ← (System.mkFilePath [directory]).readDir do
    let path := directory ++ "/" ++ entry.fileName
    let names := names ++ [entry.fileName]
    if ← entry.path.isDir then files := files ++ (← filesBelow names path)
    else
      let bytes ← IO.FS.readBinFile entry.path
      files := files ++ [⟨names, String.fromUTF8? bytes⟩]
  return files

/-- The files of a directory, if that is there. -/
def fetch (directory : String) : IO (Option Library.Directory) := do
  if ← (System.mkFilePath [directory]).isDir then return some (← filesBelow [] directory)
  else return none

/-- Prints a report. -/
def print (r : Report) : IO UInt32 := do
  r.output.forM IO.println
  r.errors.forM fun line => IO.eprintln line
  return if r.succeeded then 0 else 1

end QuestLogic.Runner

open QuestLogic.Runner in
/-- Runs a chain of snippets and reports where it leaves the party. -/
def main (arguments : List String) : IO UInt32 := do
  match Request.ofArguments arguments with
  | .error line => print (failure [] line)
  | .ok r => print (report (← fetch r.directory) r)
