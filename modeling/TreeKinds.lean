import TreeKinds.Main
import TreeKinds.Proofs.Description.Diagnosis
import TreeKinds.Session
import TreeKinds.Proofs.Description.Acceptance
import TreeKinds.Proofs.Description.FirstFault
import TreeKinds.Proofs.Description.Validity
import TreeKinds.Proofs.Definitions.Artifact
import TreeKinds.Proofs.Definitions.RoundTrip
import TreeKinds.Proofs.Files.Resolution
import TreeKinds.Proofs.Files.Access
import TreeKinds.Proofs.Files.Home
import TreeKinds.Proofs.Definitions.Cleanup
import TreeKinds.Proofs.Run.ExitCode
import TreeKinds.Proofs.Description.FinalFeed
import TreeKinds.Proofs.Description.Concatenation
import TreeKinds.Proofs.Description.Endings
import TreeKinds.Proofs.Definitions.Overwriting
import TreeKinds.Proofs.Run.Logging
import TreeKinds.Proofs.Run.Precedence
import TreeKinds.Proofs.Run.Repetition
import TreeKinds.Proofs.Session.History
import TreeKinds.Proofs.Definitions.Quoting
import TreeKinds.Proofs.Definitions.Delivery
import TreeKinds.Proofs.Description.Source
import TreeKinds.Proofs.Text.Quoted
import TreeKinds.Proofs.Description.Message
import TreeKinds.Proofs.Description.Visibility
import TreeKinds.Proofs.Settings.Schema
import TreeKinds.Proofs.Settings.LastChange
import TreeKinds.Proofs.CommandLine.Wording
import TreeKinds.Proofs.Definitions.Spelling
