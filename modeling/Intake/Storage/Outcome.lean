/-!
What may come of reading a file.
-/

set_option autoImplicit false
set_option relaxedAutoImplicit false

namespace Intake.Storage

/-- What came of reading a file. -/
inductive Outcome where
  /-- There is no such file. -/
  | absent
  /-- The file cannot be opened or read; the reason is the wording of the system. -/
  | refused (reason : String)
  /-- The whole file. -/
  | contents (bytes : List UInt8)
  deriving DecidableEq, Repr

end Intake.Storage
