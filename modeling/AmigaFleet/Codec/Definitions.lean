import Mathlib.Data.Int.Bitwise
import Mathlib.Tactic.Linarith

/-! The wire vocabulary: tags, sentinels, field ranges and places. A place is
built legal, so a target the constructor refuses does not exist. -/
namespace AmigaFleet.Codec

inductive MessageType where
  | heartbeat
  | taskAnnounce
  | bid
  | grant
  | ack
  | freeform
  deriving DecidableEq, Repr

/-- The tag byte. Values are frozen once shipped. -/
def MessageType.tag : MessageType → Int
  | heartbeat => 0x01
  | taskAnnounce => 0x02
  | bid => 0x03
  | grant => 0x04
  | ack => 0x05
  | freeform => 0x07

def MessageType.all : List MessageType := [.heartbeat,.taskAnnounce,.bid,.grant,.ack,.freeform]

def reservedTypes : List Int := []

def headerBytes : Nat := 4
def defaultMaxPayloadBytes : Int := 50
def capMaskBits : Nat := 16
def taskNone : Int := 0
def robotIdNone : Int := 0
def targetWordMax : Int := 2^31 - 1
def targetWordMin : Int := -(2^31)
def indexMax : Int := 0xFFFF
def srcMax : Int := 0xFF
def seqMax : Int := 0xFFFF
def taskIdMax : Int := 0xFFFF
def batteryMax : Int := 100
def priorityMax : Int := 0xFF
def costMax : Int := 0xFF
def etaResolutionS : Int := 4
def etaMaxS : Int := 0xFF * etaResolutionS
def noteIdMax : Int := 0xFF
def fragMax : Int := 0xFF
def maxNoteFragments : Int := 8

namespace ReasonCode
def unspecified : Int := 0
def taskFailed : Int := 1
def batteryLow : Int := 2
def unreachable : Int := 3
def capabilityMissing : Int := 4
def operatorRequest : Int := 5
def timeout : Int := 6
end ReasonCode

inductive TargetKind where
  | none
  | tree
  | aisle
  | gps
  deriving DecidableEq, Repr

namespace TargetKind

def code : TargetKind → Int
  | none => 0
  | tree => 1
  | aisle => 2
  | gps => 3

def ofCode? (code : Int) : Option TargetKind :=
  if code = 0 then some none else if code = 1 then some tree
  else if code = 2 then some aisle else if code = 3 then some gps else Option.none

@[simp] theorem ofCode?_code (kind : TargetKind) : ofCode? kind.code = some kind := by
  cases kind <;> decide

end TargetKind

structure Target where
  kind : TargetKind
  a : Int := 0
  b : Int := 0
  wordA : targetWordMin ≤ a ∧ a ≤ targetWordMax := by decide
  wordB : targetWordMin ≤ b ∧ b ≤ targetWordMax := by decide
  index : kind = .tree ∨ kind = .aisle → (0 ≤ a ∧ a ≤ indexMax) ∧ b = 0 := by decide
  bare : kind = .none → a = 0 ∧ b = 0 := by decide
  deriving DecidableEq

namespace Target

def none : Target := { kind := .none }

def row : Target := { kind := .aisle, a := 5, wordB := none.wordB }

instance : Inhabited Target := ⟨none⟩

/-- `Target(kind, a, b)`, with nothing where the constructor raises. -/
def ofWords? (kind a b : Int) : Option Target :=
  match TargetKind.ofCode? kind with
  | Option.none => Option.none
  | some kind =>
    if wordA : targetWordMin ≤ a ∧ a ≤ targetWordMax then
      if wordB : targetWordMin ≤ b ∧ b ≤ targetWordMax then
        if index : kind = .tree ∨ kind = .aisle → (0 ≤ a ∧ a ≤ indexMax) ∧ b = 0 then
          if bare : kind = .none → a = 0 ∧ b = 0 then some ⟨kind,a,b,wordA,wordB,index,bare⟩
          else Option.none
        else Option.none
      else Option.none
    else Option.none

@[simp] theorem ofWords?_words (target : Target) :
    ofWords? target.kind.code target.a target.b = some target := by
  obtain ⟨kind,a,b,wordA,wordB,index,bare⟩ := target
  simp only [ofWords?,TargetKind.ofCode?_code,dif_pos wordA,dif_pos wordB]
  rw [dif_pos index,dif_pos bare]

def placed (target : Target) : Bool := target.kind ≠ .none

end Target

def hasCapabilities (mask required : Int) : Bool := Int.land mask required = required

end AmigaFleet.Codec
