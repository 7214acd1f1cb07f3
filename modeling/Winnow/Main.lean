import Std.Time.DateTime.Timestamp
import Winnow.CommandLine

/-!
# The program

The program looks at the files that its words name, runs on what it saw, and writes the files that
the run changed.
-/

namespace Winnow.Program

/-- A text as a string. -/
def string (t : Text) : String := String.ofList t.chars

/-- What is at a path of the file system. -/
def look (p : Path) : IO (Option Node) := do
  try
    return some (.file (← IO.FS.readBinFile (string p.text)).toList)
  catch
    | .inappropriateType .. => return some .folder
    | _ => return none

/-- Adds what is at a path, and the folders on the way to it, to what was seen. -/
def see (seen : Folder) (p : Path) : IO Folder := do
  let mut seen := seen
  for n in List.range p.length do
    let way := p.take (n + 1)
    match seen.place way with
    | .error _ => return seen
    | .ok place =>
      match ← look way with
      | some node => seen := seen.put place node
      | none => return seen
  return seen

/-- The moment at which the program runs. -/
def now : IO Moment := do
  let timestamp ← Std.Time.Timestamp.now
  let micros := timestamp.toNanosecondsSinceUnixEpoch.val / 1000
  return (Moment.ofInstant? (epoch + micros)).getD default

/-- The variables of the environment that hold settings. -/
def environment : IO Environment := do
  let texts ← SettingKey.all.mapM fun key => do
    return (key.variableName, ← IO.getEnv (string key.variableName))
  return texts.filterMap fun e => e.2.map fun t => (e.1, Text.ofString t)

/-- Writes the files that a run changed. -/
def write (before after : Folder) : IO Unit := do
  for (p, content) in after.files do
    if before.file? p != some content then
      IO.FS.writeBinFile (string p.text) ⟨content.toArray⟩

/-- Reports a failure. -/
def report (fault : Fault) : IO Unit :=
  IO.eprintln (string (fault.message?.getD (Text.ofString (reprStr fault))))

/-- Runs the program on its words. -/
def run (settings : Settings) (words : List Text) : IO UInt32 := do
  let now ← now
  let named ← (CommandLine.filesNamed words).foldlM see ⟨[]⟩
  let seen ← match CommandLine.prepare settings now words named with
    | .ok session => see named session.log
    | .error _ => pure named
  let outcome := CommandLine.run settings now words seen
  write seen outcome.files
  IO.print (string outcome.output)
  IO.eprint (string outcome.errors)
  outcome.fault?.forM report
  return UInt32.ofNat outcome.exitCode

end Winnow.Program

def main (words : List String) : IO UInt32 := do
  match Winnow.Settings.reset (← Winnow.Program.environment) with
  | (.ok (), settings) => Winnow.Program.run settings (words.map Winnow.Text.ofString)
  | (.error fault, _) => do
    Winnow.Program.report fault
    return 1
