import AmigaFleet.Codec.Definitions

/-! The six built message types. Each names the sender and its sequence number;
a place travels as three loose words. -/
namespace AmigaFleet.Codec

structure Heartbeat where
  src : Int
  seq : Int
  capMask : Int
  targetKind : Int
  targetA : Int
  targetB : Int
  battery : Int
  curTask : Int
  deriving DecidableEq, Repr

structure TaskAnnounce where
  src : Int
  seq : Int
  taskId : Int
  reqCapMask : Int
  targetKind : Int
  targetA : Int
  targetB : Int
  priority : Int
  reasonCode : Int
  deriving DecidableEq, Repr

structure Bid where
  src : Int
  seq : Int
  taskId : Int
  etaS : Int
  feasible : Bool
  cost : Int
  deriving DecidableEq, Repr

structure Grant where
  src : Int
  seq : Int
  taskId : Int
  winnerId : Int
  deriving DecidableEq, Repr

structure Ack where
  src : Int
  seq : Int
  ackSrc : Int
  ackSeq : Int
  deriving DecidableEq, Repr

structure Freeform where
  src : Int
  seq : Int
  taskId : Int
  noteId : Int
  fragIndex : Int
  fragCount : Int
  text : List UInt8
  deriving DecidableEq, Repr

inductive Message where
  | heartbeat (m : Heartbeat)
  | taskAnnounce (m : TaskAnnounce)
  | bid (m : Bid)
  | grant (m : Grant)
  | ack (m : Ack)
  | freeform (m : Freeform)
  deriving DecidableEq, Repr

namespace Message

def type : Message → MessageType
  | heartbeat _ => .heartbeat
  | taskAnnounce _ => .taskAnnounce
  | bid _ => .bid
  | grant _ => .grant
  | ack _ => .ack
  | freeform _ => .freeform

def src : Message → Int
  | heartbeat m => m.src
  | taskAnnounce m => m.src
  | bid m => m.src
  | grant m => m.src
  | ack m => m.src
  | freeform m => m.src

def seq : Message → Int
  | heartbeat m => m.seq
  | taskAnnounce m => m.seq
  | bid m => m.seq
  | grant m => m.seq
  | ack m => m.seq
  | freeform m => m.seq

/-- `msg.src = src; msg.seq = seq`. -/
def stamped (message : Message) (src seq : Int) : Message :=
  match message with
  | heartbeat m => heartbeat { m with src := src, seq := seq }
  | taskAnnounce m => taskAnnounce { m with src := src, seq := seq }
  | bid m => bid { m with src := src, seq := seq }
  | grant m => grant { m with src := src, seq := seq }
  | ack m => ack { m with src := src, seq := seq }
  | freeform m => freeform { m with src := src, seq := seq }

@[simp] theorem stamped_src (message : Message) (src seq : Int) : (message.stamped src seq).src = src := by
  cases message <;> rfl

@[simp] theorem stamped_seq (message : Message) (src seq : Int) : (message.stamped src seq).seq = seq := by
  cases message <;> rfl

@[simp] theorem stamped_type (message : Message) (src seq : Int) :
    (message.stamped src seq).type = message.type := by cases message <;> rfl

end Message
end AmigaFleet.Codec
