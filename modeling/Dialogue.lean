import Dialogue.Decimal.Shortest
import Dialogue.Decimal.Places
import Dialogue.Seconds
import Dialogue.Table
import Dialogue.Json.Value
import Dialogue.Json.Draft
import Dialogue.Json.Mismatch
import Dialogue.Text.Blank
import Dialogue.Json.Record
import Dialogue.Json.Variant
import Dialogue.Script.Document
import Dialogue.Script.Decode
import Dialogue.Script.Encode
import Dialogue.Script.Conversation
import Dialogue.Stage.World
import Dialogue.Stage.Evaluation
import Dialogue.Stage.Speech
import Dialogue.Stage.Camera
import Dialogue.Playback.Cursor
import Dialogue.Playback.Lane
import Dialogue.Playback.Choice
import Dialogue.Playback.Event
import Dialogue.Playback.Chance
import Dialogue.Playback.Options
import Dialogue.Playback.Session
import Dialogue.Playback.Execution
import Dialogue.Playback.Pass
import Dialogue.Playback.Operation
import Dialogue.Playback.Snapshot
import Dialogue.Decimal.Reading
import Dialogue.Player.Run
import Dialogue.Player.Report
import Dialogue.Player.CommandLine
import Dialogue.Player.Disk
import Dialogue.Player.Folder
import Dialogue.Player.Program
import Dialogue.Main
import Dialogue.Proofs.Lanes
import Dialogue.Proofs.Performance
import Dialogue.Proofs.Settling
import Dialogue.Proofs.Unrolling
import Dialogue.Proofs.Refinement
import Dialogue.Proofs.Sessions
import Dialogue.Proofs.Turn
import Dialogue.Proofs.Passes
import Dialogue.Proofs.Moves
import Dialogue.Proofs.Origin
import Dialogue.Proofs.Choices
import Dialogue.Proofs.Waiting
import Dialogue.Proofs.Acknowledgement
import Dialogue.Proofs.Growth
import Dialogue.Proofs.Deeds
import Dialogue.Proofs.Chains
import Dialogue.Proofs.Cursors
import Dialogue.Proofs.Stretches
import Dialogue.Proofs.Arising
import Dialogue.Proofs.Isolation
import Dialogue.Proofs.Schedule
import Dialogue.Proofs.Guards
import Dialogue.Proofs.Endless
import Dialogue.Proofs.Roots
import Dialogue.Proofs.Integrity
import Dialogue.Proofs.Clocks
import Dialogue.Proofs.Gates
import Dialogue.Proofs.Stops
import Dialogue.Proofs.Numbering
import Dialogue.Proofs.Beats
import Dialogue.Proofs.Returns
import Dialogue.Proofs.Ownership
import Dialogue.Proofs.Troupe
import Dialogue.Proofs.Answering
import Dialogue.Proofs.Unasked
import Dialogue.Proofs.Orphans
import Dialogue.Proofs.Roster
import Dialogue.Proofs.RoundTrip
import Dialogue.Proofs.Calls
import Dialogue.Proofs.Loading
import Dialogue.Proofs.Namesakes
import Dialogue.Proofs.Mentions
import Dialogue.Proofs.Transcripts
import Dialogue.Proofs.Recording
import Dialogue.Proofs.Reporting
import Dialogue.Proofs.Pasts
import Dialogue.Proofs.Replays
import Dialogue.Proofs.Triggers
