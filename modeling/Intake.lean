import Intake.Main
import Intake.Directory.Remote
import Intake.Proofs.Keyed
import Intake.Proofs.Text.Utf8
import Intake.Proofs.Log.Tally
import Intake.Proofs.Log.Lines
import Intake.Proofs.Log.Parts
import Intake.Proofs.Log.Reads
import Intake.Proofs.Json.Document
import Intake.Proofs.Json.Members
import Intake.Proofs.Mail.Grammar
import Intake.Proofs.Json.Fields
import Intake.Proofs.Profile.Strict
import Intake.Proofs.Profile.RoundTrip
import Intake.Proofs.Directory.Outcomes
import Intake.Proofs.Directory.Mirror
import Intake.Proofs.Profile.Batches
import Intake.Proofs.Profile.Shared
import Intake.Proofs.Json.Keys
import Intake.Proofs.Log.Stored
import Intake.Proofs.Text.Decoding
import Intake.Proofs.Json.Accepted
import Intake.Proofs.Loading
import Intake.Proofs.Text.Ascii
import Intake.Proofs.Log.Marker
import Intake.Proofs.Mail.Overlap
import Intake.Proofs.Log.History
import Intake.Proofs.Json.Skip
import Intake.Proofs.Json.Agreement
import Intake.Proofs.Settings.Path
import Intake.Proofs.Settings.Readers
import Intake.Proofs.Settings.Tolerant
import Intake.Proofs.Sample.Ranks
import Intake.Proofs.Sample.Propagation
import Intake.Proofs.Sample.Middle
import Intake.Proofs.Sample.ReadBack
import Intake.Proofs.Log.Joined
import Intake.Proofs.Directory.Endpoint
import Intake.Proofs.Directory.Synthetic
import Intake.Proofs.Rendering
