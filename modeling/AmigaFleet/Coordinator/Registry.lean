import AmigaFleet.Coordinator.Model
import AmigaFleet.Lib.Flow

/-! Who else is out there, what they can do, and when they were last heard. -/
namespace AmigaFleet.Coordinator
open Lib AmigaFleet.Codec

abbrev Registry : Type := Dict Int PeerRecord

namespace Registry

def observe (peers : Registry) (heartbeat : Heartbeat) (now : ℚ) : Flow Registry :=
  let record := (peers.get? heartbeat.src).getD { robotId := heartbeat.src }
  let record := { record with capMask := heartbeat.capMask }
  match Target.ofWords? heartbeat.targetKind heartbeat.targetA heartbeat.targetB with
  | none => .raised (peers.set heartbeat.src record)
  | some location => .returned (peers.set heartbeat.src { record with
      location := some location
      battery := heartbeat.battery
      currentTask := heartbeat.curTask
      lastSeen := now })

def quiet (timeoutSec now : ℚ) (record : PeerRecord) : Bool := timeoutSec < now - record.lastSeen

/-- The peers dropped for having gone quiet, and the table without them. -/
def ageOut (peers : Registry) (timeoutSec now : ℚ) : List PeerRecord × Registry :=
  let gone := peers.values.filter (quiet timeoutSec now)
  (gone,gone.foldl (fun peers record => peers.pop record.robotId) peers)

def capable (peers : Registry) (required : Int) : List PeerRecord :=
  peers.values.filter (fun record => hasCapabilities record.capMask required)

end Registry
end AmigaFleet.Coordinator
