import Intake.Event
import Intake.Mail.Rule
import Intake.Profile

/-!
Counting profiles: the census of one batch, and a meter that adds up the sizes of all batches.
-/

set_option autoImplicit false
set_option relaxedAutoImplicit false

namespace Intake.Profile

/-- What is counted in a batch of profiles. -/
structure Census where
  total : UInt64 := 0
  validEmails : UInt64 := 0
  admins : UInt64 := 0
  active : UInt64 := 0
  deriving DecidableEq, Repr, Inhabited

namespace Census

def record : Json.Record Census (UInt64 × UInt64 × UInt64 × UInt64 × Unit) where
  name := "UserStats"
  fields :=
    .field "total_users" (.uint64 "usize") none <|
    .field "valid_emails" (.uint64 "usize") none <|
    .field "admin_users" (.uint64 "usize") none <|
    .field "active_users" (.uint64 "usize") none .nil
  toTuple c := (c.total, c.validEmails, c.admins, c.active, ())
  ofTuple := fun (total, validEmails, admins, active, _) => ⟨total, validEmails, admins, active⟩

def codec : Json.Codec Census := record.codec

/-- Counts one profile in, apart from the total. -/
def note (c : Census) (p : Profile) : Census :=
  let one (b : Bool) : UInt64 := if b then 1 else 0
  { c with
    validEmails := c.validEmails + one (Mail.isValid p.emailOrEmpty)
    admins := c.admins + one p.isAdmin
    active := c.active + one p.isActive }

def ofBatch (batch : List Profile) : Census :=
  batch.foldl note { total := batch.length.toUInt64 }

end Census

/-- The running total of the profiles of all batches. -/
structure Meter where
  processed : UInt64 := 0
  deriving DecidableEq, Repr, Inhabited

namespace Meter

/-- Adds a batch to the running total and gives the total before it. -/
def advance (meter : Meter) (batch : UInt64) : UInt64 × Meter :=
  (meter.processed, ⟨meter.processed + batch⟩)

/-- The event of a batch, from its size and the running total with it. -/
def batchEvent (batch processed : UInt64) : Event where
  severity := .debug
  message := "Processed user batch"
  details := [("batch", toString batch.toNat), ("processed", toString processed.toNat)]

/-- Takes a batch: its census, and the meter with the batch added. -/
def process (meter : Meter) (batch : List Profile) : Logged (Census × Meter) :=
  let census := Census.ofBatch batch
  let (previous, meter) := meter.advance census.total
  ⟨(census, meter), [batchEvent census.total (previous + census.total)]⟩

def processValues (meter : Meter) (batch : List Json.Value) : Logged (Census × Meter) :=
  meter.process (batch.map ofValue)

end Meter

end Intake.Profile
