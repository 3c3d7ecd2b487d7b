import Leasehold.Service.Launch

/-!
# The program

The program gathers its arguments, its variables and the files that its settings may be
read from, and shows what the service does with them.
-/

namespace Leasehold

/-- The text of a file that can be read. -/
def readText? (path : String) : IO (Option String) := do
  try
    let text ← IO.FS.readFile path
    pure (some text)
  catch _ => pure none

/-- The files among some paths. -/
def readFolder (paths : List String) : IO Folder := do
  let files ← paths.filterMapM fun path => do
    let text? ← readText? path
    pure (text?.map fun text => (path, text))
  pure ⟨files⟩

/-- Where the variables of the process are listed. -/
def variableListing : String := "/proc/self/environ"

/-- The variables of the process. -/
def readVariables : IO Variables := do
  let listing? ← readText? variableListing
  pure (Variables.ofListing (listing?.getD ""))

/-- The address by which the machine is known to itself. -/
def ownAddress : String := "127.0.0.1"

end Leasehold

/-- Runs the service and ends with its code. -/
def main (arguments : List String) : IO UInt32 := do
  let folder ← Leasehold.readFolder (Leasehold.Settings.filePaths arguments)
  let environment ← Leasehold.readVariables
  let report := Leasehold.Service.launch folder environment Leasehold.ownAddress arguments
  (← IO.getStdout).putStr report.output
  (← IO.getStderr).putStr report.errorOutput
  pure (UInt32.ofNat report.code)
