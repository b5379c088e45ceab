import Intake.Demo

/-!
The command line: it gives the tour, with the more urgent events on the error stream.
-/

set_option autoImplicit false
set_option relaxedAutoImplicit false

namespace Intake

def readFile (path : String) : IO Storage.Outcome := do
  try
    let bytes ← IO.FS.readBinFile path
    return .contents bytes.toList
  catch
    | .noFileOrDirectory .. => return .absent
    | problem => return .refused (toString problem)

def Event.line (event : Event) : String :=
  event.details.foldl (fun line (name, value) => line ++ " " ++ name ++ "=" ++ value)
    (event.severity.label ++ " " ++ event.message)

/-- Gives the tour. -/
def tour : IO UInt32 := do
  let report := Demo.lines (← readFile Config.usualPath)
  for event in report.events do
    if event.severity ≠ .debug then IO.eprintln event.line
  match report.value with
  | .ok lines =>
    for line in lines do IO.println line
    return 0
  | .error fault =>
    IO.eprintln fault.line
    return 1

end Intake

def main : IO UInt32 := Intake.tour
