import AmigaFleet.Reliability.Link
import AmigaFleet.Coordinator.Suppression
import AmigaFleet.Coordinator.Silence
import AmigaFleet.Coordinator.Sponsors
import AmigaFleet.Coordinator.Takeover
import AmigaFleet.Fleet.Fleet
import AmigaFleet.Fleet.Handover
import AmigaFleet.Coordinator.Speaking
import AmigaFleet.Fleet.Overlap
import AmigaFleet.Lib.Checksum
import AmigaFleet.Lib.Cobs
import AmigaFleet.Lora.Framing
import AmigaFleet.Lora.Flips
import AmigaFleet.Codec.Canonical
import AmigaFleet.Codec.Objects
import AmigaFleet.Coordinator.Annotations
import AmigaFleet.Coordinator.Memory
import AmigaFleet.Reliability.Reassembly
import AmigaFleet.Reliability.NoteLink
import AmigaFleet.Reliability.Books
import AmigaFleet.Mission.Whereabouts
import AmigaFleet.Verification.Gate
import AmigaFleet.Coordinator.Round
import AmigaFleet.Coordinator.Reader
import AmigaFleet.Verification.Meaning
import AmigaFleet.Verification.Formula
import AmigaFleet.Mission.Prune
import AmigaFleet.Mission.Pruning
import AmigaFleet.Mission.Remaining
import AmigaFleet.Lib.Groups
import AmigaFleet.Mission.Tasks
import AmigaFleet.Mission.Edits
import AmigaFleet.Mission.Reading
import AmigaFleet.Mission.Coverage
import AmigaFleet.Mission.Resolving
import AmigaFleet.Mission.Removal
import AmigaFleet.Mission.Lossless
import AmigaFleet.Mission.Declared
import AmigaFleet.Mission.Synthesis
import AmigaFleet.Replanning.Arbiter
import AmigaFleet.Replanning.Decisions
import AmigaFleet.Replanning.Sanction
import AmigaFleet.Replanning.Serial
import AmigaFleet.Replanning.Refusals
import AmigaFleet.Replanning.Verified
import AmigaFleet.Replanning.Objectives
import AmigaFleet.Replanning.Endings
import AmigaFleet.Replanning.Budgets
import AmigaFleet.Coordinator.Containment
import AmigaFleet.Coordinator.News
import AmigaFleet.Replanning.Robot
import AmigaFleet.Replanning.Agreement
import AmigaFleet.Lib.Json
import AmigaFleet.Triage.Replies
import AmigaFleet.Triage.Node
import AmigaFleet.Triage.Routing
import AmigaFleet.Triage.Interpretation
import AmigaFleet.Lib.Recency
import AmigaFleet.Reliability.Recall
import AmigaFleet.Lora.RingQueue
import AmigaFleet.Reliability.Retransmits
import AmigaFleet.Reliability.Hearing
import AmigaFleet.Lib.Recent
import AmigaFleet.Reliability.Assembly
import AmigaFleet.Intake.Demux
import AmigaFleet.Intake.Http
import AmigaFleet.Intake.Discovery
import AmigaFleet.Planners.Walk
import AmigaFleet.Lib.Gather
import AmigaFleet.Orchard.Documents
import AmigaFleet.Orchard.Readers
import AmigaFleet.Lib.BestFirst
import AmigaFleet.Planners.Grid
import AmigaFleet.Planners.Roadmap
import AmigaFleet.Planners.Routes
import AmigaFleet.Lora.Bursts
import AmigaFleet.Lib.Regex
import AmigaFleet.Planners.Obstacles
import AmigaFleet.Orchard.Lookup
import AmigaFleet.Triage.Logs
import AmigaFleet.Mission.Bindings
import AmigaFleet.Mission.Naming
import AmigaFleet.Mission.Rebuilding
import AmigaFleet.Lib.Cycles
import AmigaFleet.Lib.Plane
import AmigaFleet.Planners.Sight
import AmigaFleet.Lib.Shortest
import AmigaFleet.Planners.Cheapest
import AmigaFleet.Lib.Subdivision
import AmigaFleet.Planners.Insertion
import AmigaFleet.Planners.Canopies
import AmigaFleet.Lib.Climb
import AmigaFleet.Lora.Airtime
import AmigaFleet.Lora.Outbound
import AmigaFleet.Lora.Bridge
import AmigaFleet.Lora.Receiving
import AmigaFleet.Lora.Sending
import AmigaFleet.Lib.Agenda
import AmigaFleet.Lora.Air
import AmigaFleet.Lora.Channel
import AmigaFleet.Lib.Throttle
import AmigaFleet.Runner.Reporter
import AmigaFleet.Runner.Runner
import AmigaFleet.Runner.Ledger
import AmigaFleet.Mission.Ranges
import AmigaFleet.Coordinator.Escalation
import AmigaFleet.Coordinator.Node
import AmigaFleet.Verification.LtlGate
import AmigaFleet.Coordinator.MissionPort
