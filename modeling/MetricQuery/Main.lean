import MetricQuery.Command.Run

/-!
# The command line

Reads the files and environment variables that a run may use, runs, and carries
out what the run comes to.
-/

set_option autoImplicit false

namespace MetricQuery.Command

def fileFault : IO.Error → FileFault
  | .noFileOrDirectory _ _ _ => .missing
  | .permissionDenied _ _ _ => .denied
  | .inappropriateType _ _ _ => .notDirectory
  | .illegalOperation _ _ => .isDirectory
  | error => .other error.toString

def attempt {α : Type} (operation : IO α) : IO (Except FileFault α) := do
  try
    return .ok (← operation)
  catch error =>
    return .error (fileFault error)

def readText (path : String) : IO (Except FileFault String) := do
  match ← attempt (IO.FS.readBinFile path) with
  | .error fault => return .error fault
  | .ok bytes =>
    match String.fromUTF8? bytes with
    | some text => return .ok text
    | none => return .error .notText

def userDirectory : IO (Option String) := do
  match ← IO.getEnv "XDG_CONFIG_HOME", ← IO.getEnv "HOME" with
  | some directory, _ =>
    if directory.startsWith "/" then return some directory
    else return (← IO.getEnv "HOME").map (· ++ "/.config")
  | none, home => return home.map (· ++ "/.config")

def carryOut (shown : Shown) : IO UInt32 := do
  (← IO.getStdout).putStr shown.output
  (← IO.getStderr).putStr shown.complaint
  return UInt32.ofNat shown.code

end MetricQuery.Command

open MetricQuery MetricQuery.Command in
def main (arguments : List String) : IO UInt32 := do
  let directory ← userDirectory
  let mut texts : List (String × Except FileFault String) := []
  for path in settingsPaths directory arguments do
    texts := (path, ← readText path) :: texts
  let mut values : List (String × String) := []
  for name in Settings.variableNames do
    if let some value ← IO.getEnv name then
      values := (name, value) :: values
  let files : Files := fun path => (texts.lookup path).getD (.error .missing)
  match run files (values.lookup ·) directory arguments with
  | .printed text => carryOut ⟨0, text, ""⟩
  | .failed error => carryOut error.shown
  | .halted halt => carryOut halt.shown
  | .writes path text => carryOut (shownWrite path (← attempt (IO.FS.writeFile path text)))
  | .executes _ options _ =>
    carryOut ⟨1, "", "Error: query against " ++ options.endpoint ++ " failed\n"⟩
