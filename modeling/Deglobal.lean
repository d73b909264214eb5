import Deglobal.Main
import Deglobal.Rehearsal.Bench
import Deglobal.Rehearsal.Workstation
import Deglobal.Proofs.Script.Course
import Deglobal.Proofs.Script.FailStop
import Deglobal.Proofs.Pipeline.Steps
import Deglobal.Proofs.Pipeline.Trace
import Deglobal.Proofs.Pipeline.FailStop
import Deglobal.Proofs.Artifact.Apart
import Deglobal.Proofs.Script.Disk
import Deglobal.Proofs.Pipeline.Effects
import Deglobal.Proofs.Pipeline.Supply
import Deglobal.Proofs.Pipeline.Leftovers
import Deglobal.Proofs.Pipeline.Parallel
import Deglobal.Proofs.Pipeline.CompileThenLink
import Deglobal.Proofs.Request.Endings
import Deglobal.Proofs.Pipeline.Overwrite
import Deglobal.Proofs.Artifact.Spelling
import Deglobal.Proofs.Artifact.Clash
import Deglobal.Proofs.Script.Removals
import Deglobal.Proofs.Pipeline.Inputs
import Deglobal.Proofs.Pipeline.Removals
import Deglobal.Proofs.Pipeline.Temporaries
import Deglobal.Proofs.Script.Accounts
import Deglobal.Proofs.Pipeline.Verdict
import Deglobal.Proofs.Script.Precise
import Deglobal.Proofs.Pipeline.Footprint
import Deglobal.Proofs.Pipeline.ObjectTarget
import Deglobal.Proofs.Pipeline.Deferred
import Deglobal.Proofs.Session.Misconfiguration
import Deglobal.Proofs.Text.Substitute
import Deglobal.Proofs.Text.Words
import Deglobal.Proofs.Directories.Placeholders
import Deglobal.Proofs.Flags.Arguments
import Deglobal.Proofs.Script.Reports
import Deglobal.Proofs.Session.ExitStatus
import Deglobal.Proofs.Artifact.Ordinary
import Deglobal.Proofs.Pipeline.SourceOrder
import Deglobal.Proofs.Request.Units
import Deglobal.Proofs.Request.Contradictions
import Deglobal.Proofs.Text.Parts
import Deglobal.Proofs.Text.Integer
import Deglobal.Proofs.Request.Quoting
import Deglobal.Proofs.Toggles
import Deglobal.Proofs.Command.Shown
import Deglobal.Proofs.Description.Reading
import Deglobal.Proofs.Artifact.Beside
