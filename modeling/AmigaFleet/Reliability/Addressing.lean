import AmigaFleet.Codec.Messages

/-! Who a message is for, and which messages go first on a busy radio. -/
namespace AmigaFleet.Reliability
open AmigaFleet.Codec

def addresseeOf : Message → Option Int
  | .grant m => some m.winnerId
  | _ => none

def isUnicast (message : Message) : Bool := message.type = .grant

def isAck (message : Message) : Bool := message.type = .ack

def isReliable (message : Message) : Bool := !isAck message && isUnicast message

def urgent : Int := 0
def bulk : Int := 1

def priorityOf (message : Message) : Int :=
  if message.type = .ack ∨ message.type = .grant then urgent else bulk

theorem isReliable_grant (message : Message) (reliable : isReliable message = true) :
    ∃ grant, message = .grant grant := by
  cases message <;> simp_all [isReliable,isAck,isUnicast,Message.type]

end AmigaFleet.Reliability
