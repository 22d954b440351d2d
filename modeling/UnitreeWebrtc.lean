import UnitreeWebrtc.Table
import UnitreeWebrtc.Runs
import UnitreeWebrtc.Desk
import UnitreeWebrtc.Json
import UnitreeWebrtc.Ingress
import UnitreeWebrtc.Chunks
import UnitreeWebrtc.Correlation
import UnitreeWebrtc.Footprint
import UnitreeWebrtc.Traversal
import UnitreeWebrtc.Events
import UnitreeWebrtc.Traffic
import UnitreeWebrtc.Service
import UnitreeWebrtc.Routing
import UnitreeWebrtc.Calls
import UnitreeWebrtc.Provenance
import UnitreeWebrtc.Reassembly
import UnitreeWebrtc.Dispatch
import UnitreeWebrtc.Epoch
import UnitreeWebrtc.Flags
import UnitreeWebrtc.Readiness
import UnitreeWebrtc.Lifecycle
import UnitreeWebrtc.Gate
import UnitreeWebrtc.Reassembler
import UnitreeWebrtc.Media
import UnitreeWebrtc.Throttle
import UnitreeWebrtc.Twins
import UnitreeWebrtc.Leftovers
import UnitreeWebrtc.Engine
import UnitreeWebrtc.Teardown
import UnitreeWebrtc.Transport
import UnitreeWebrtc.Tenure
import UnitreeWebrtc.Overlap
import UnitreeWebrtc.Disconnect
import UnitreeWebrtc.Admission
import UnitreeWebrtc.Repacking
import UnitreeWebrtc.Envelope
import UnitreeWebrtc.Spacing
import UnitreeWebrtc.Outbound
import UnitreeWebrtc.Voxels
import UnitreeWebrtc.Python
import UnitreeWebrtc.Conversion
import UnitreeWebrtc.RoundTrip
import UnitreeWebrtc.Playback
import UnitreeWebrtc.Supervision
import UnitreeWebrtc.Commands
import UnitreeWebrtc.Diagnostics
import UnitreeWebrtc.Tally
import UnitreeWebrtc.Callbacks
import UnitreeWebrtc.Dispatcher
import UnitreeWebrtc.Invocations
import UnitreeWebrtc.Crew
import UnitreeWebrtc.Workers
import UnitreeWebrtc.Dialogue
import UnitreeWebrtc.Hosts
import UnitreeWebrtc.Signaling
import UnitreeWebrtc.Handshake
import UnitreeWebrtc.Streams
import UnitreeWebrtc.Tracks
import UnitreeWebrtc.Transmission
import UnitreeWebrtc.Intake
