import AmigaFleet.Lib.Json
import AmigaFleet.Lib.Socket
import AmigaFleet.Lib.Struct
import Mathlib.Algebra.Order.Field.Rat

/-! Missions over TCP. A client sends the mission and the orchard as two frames
on one connection; the node publishes them and answers with an ack. -/
namespace AmigaFleet.Intake
open Lib Lib.Socket Lib.Struct

abbrev Payload : Type := List UInt8

structure Params where
  payloadLengthIncluded : Bool := true
  order : String := "xml_then_json"
  expectJson : Bool := true
  defaultFrameSize : Int := 65536
  robotId : String
  batteryPct : ℚ := -1
  minBatteryPctForMission : ℚ := -1

structure AckInfo where
  accepted : Bool
  robotId : String
  missionId : Option String
  error : Option String
  deriving DecidableEq

def buildAck (info : AckInfo) : Json :=
  .dict [("accepted",.bool info.accepted),("error",info.error.elim .null .str),
    ("mission_id",info.missionId.elim .null .str),("robot_id",.str info.robotId)]

/-- What the node has published and answered, newest first, and what it reports to the planner. -/
structure Demux where
  missions : List Payload := []
  orchards : List Payload := []
  acks : List AckInfo := []
  currentStatus : String := "idle"
  currentMissionId : Option String := none
  deriving DecidableEq

/-- Without a length prefix a frame is what comes before the peer closes, up to a size. -/
def readUpTo : Nat → Stream → Option (Payload × Stream)
  | 0,stream => some ([],stream)
  | _+1,[] => some ([],[])
  | _+1,.failed::_ => none
  | n+1,.interrupted::later => readUpTo (n+1) later
  | n+1,.bytes first rest::later =>
    if rest.length ≤ n then (readUpTo (n - rest.length) later).map (fun read => (first::rest ++ read.1,read.2))
    else some (first::rest.take n,unread (rest.drop n) later)

variable (p : Params)

def readFrame (stream : Stream) : Option (Payload × Stream) :=
  if !p.payloadLengthIncluded then
    let size := if p.defaultFrameSize ≤ 0 then 65536 else p.defaultFrameSize.toNat
    (readUpTo size stream).filter (fun read => read.1 ≠ [])
  else
    match readExact 4 stream with
    | none => none
    | some (size,later) => readExact (fromBigEndian size) later

/-- `mission.mission_id` of the second frame. What the parser makes of a text is a parameter. -/
def extractMissionId (parse : Payload → Option Json) (frame2 : Payload) : Option String :=
  if frame2 = [] then none
  else
    match parse frame2 with
    | some (.dict fields) =>
      match fields.lookup "mission" with
      | some (.dict mission) =>
        match mission.lookup "mission_id" with
        | some (.str id) => some id
        | _ => none
      | _ => none
    | _ => none

def TooLow : Prop :=
  0 ≤ p.minBatteryPctForMission ∧ 0 ≤ p.batteryPct ∧ p.batteryPct < p.minBatteryPctForMission

instance : Decidable (TooLow p) := inferInstanceAs (Decidable (_ ∧ _ ∧ _))

def acceptAndAck (missionId : Option String) (d : Demux) : Demux :=
  if TooLow p then { d with acks := ⟨false,p.robotId,missionId,some "battery too low"⟩ :: d.acks }
  else { d with
    currentStatus := "busy"
    currentMissionId := missionId
    acks := ⟨true,p.robotId,missionId,none⟩ :: d.acks }

/-- One connection, from accept to close. -/
def serve (parse : Payload → Option Json) (d : Demux) (stream : Stream) : Demux :=
  if !p.expectJson then
    match readFrame p stream with
    | none => d
    | some (xml,_) => acceptAndAck p none { d with missions := xml :: d.missions }
  else if !p.payloadLengthIncluded then d
  else
    match readFrame p stream with
    | none => d
    | some (first,later) =>
      match readFrame p later with
      | none => d
      | some (second,_) =>
        let (xml,json) := if p.order = "json_then_xml" then (second,first) else (first,second)
        acceptAndAck p (extractMissionId parse json)
          { d with missions := xml :: d.missions, orchards := json :: d.orchards }

def frame (payload : Payload) : List UInt8 := bigEndian 4 payload.length ++ payload

/-- The frames a client sends, in the configured order. -/
def framed (mission orchard : Payload) : List UInt8 :=
  if p.expectJson then
    if p.order = "json_then_xml" then frame orchard ++ frame mission else frame mission ++ frame orchard
  else frame mission

/-- Every expected frame arrives complete. -/
structure Arrives (stream : Stream) (mission orchard : Payload) : Prop where
  missionFits : mission.length < 2^32
  orchardFits : orchard.length < 2^32
  whole : framed p mission orchard <+: received stream

/-- What an ack says under `accepted`. -/
def acceptedIn (ack : Json) : Option Bool :=
  match ack with
  | .dict fields =>
    match fields.lookup "accepted" with
    | some (.bool b) => some b
    | _ => none
  | _ => none

/-- The mission is taken whole or not at all, and not after it was refused. -/
structure TakenWhole (before : Demux) (stream : Stream) (after : Demux) : Prop where
  whole : after.missions ≠ before.missions ∨ after.orchards ≠ before.orchards →
    ∃ mission orchard, Arrives p stream mission orchard ∧ after.missions = mission :: before.missions ∧
      after.orchards = if p.expectJson then orchard :: before.orchards else before.orchards
  agreed : after.missions ≠ before.missions ↔
    ∃ ack, after.acks = ack :: before.acks ∧ acceptedIn (buildAck ack) = some true
  refused : TooLow p → after.missions = before.missions ∧ after.orchards = before.orchards ∧
    after.currentStatus = before.currentStatus ∧ after.currentMissionId = before.currentMissionId

variable {p}

theorem readFrame_found (prefixed : p.payloadLengthIncluded = true) (stream later : Stream) (payload : Payload)
    (found : readFrame p stream = some (payload,later)) :
    payload.length < 2^32 ∧ received stream = frame payload ++ received later := by
  simp only [readFrame,prefixed,Bool.not_true,Bool.false_eq_true,if_false] at found
  split at found
  · cases found
  rename_i size rest header
  obtain ⟨first,four⟩ := readExact_found 4 stream rest size header
  obtain ⟨second,length⟩ := readExact_found _ rest later payload found
  have small := fromBigEndian_lt size
  have digits := bigEndian_fromBigEndian size
  rw [four] at small digits
  rw [frame,length,first,second,digits,List.append_assoc]
  exact ⟨small,rfl⟩

theorem readFrame_some (prefixed : p.payloadLengthIncluded = true) (stream : Stream) (payload : Payload) (rest : List UInt8)
    (short : payload.length < 2^32) (whole : received stream = frame payload ++ rest) :
    ∃ later, readFrame p stream = some (payload,later) ∧ received later = rest := by
  have size : (bigEndian 4 payload.length).length = 4 := bigEndian_length 4 payload.length
  rw [frame,List.append_assoc] at whole
  obtain ⟨middle,header,left⟩ := readExact_some 4 stream (by rw [whole,List.length_append]; omega)
  rw [whole,List.take_left' size] at header
  rw [whole,List.drop_left' size] at left
  obtain ⟨later,body,last⟩ := readExact_some payload.length middle (by rw [left,List.length_append]; omega)
  rw [left,List.take_left' rfl] at body
  rw [left,List.drop_left' rfl] at last
  have length : fromBigEndian (bigEndian 4 payload.length) = payload.length := by
    rw [fromBigEndian_bigEndian]
    exact Nat.mod_eq_of_lt short
  apply Exists.intro later
  constructor
  · simp only [readFrame,prefixed,Bool.not_true,Bool.false_eq_true,if_false,header,length]
    exact body
  · exact last

theorem readFrame_none (prefixed : p.payloadLengthIncluded = true) (stream : Stream) (payload : Payload)
    (short : payload.length < 2^32) (missing : readFrame p stream = none) : ¬frame payload <+: received stream := by
  intro there
  obtain ⟨rest,whole⟩ := there
  obtain ⟨later,found,_⟩ := readFrame_some prefixed stream payload rest short whole.symm
  rw [found] at missing
  cases missing

/-- What a connection leads to depends on the frames that arrive, and on no cut between the reads. -/
theorem serve_cases (prefixed : p.payloadLengthIncluded = true) (parse : Payload → Option Json) (d : Demux)
    (stream : Stream) :
    (serve p parse d stream = d ∧ ∀ mission orchard, ¬Arrives p stream mission orchard) ∨
      ∃ mission orchard id, Arrives p stream mission orchard ∧ serve p parse d stream = acceptAndAck p id
        { d with
          missions := mission :: d.missions
          orchards := if p.expectJson then orchard :: d.orchards else d.orchards } := by
  by_cases json : p.expectJson = true
  · simp only [serve,json,prefixed,Bool.not_true,Bool.false_eq_true,if_false,if_true]
    cases one : readFrame p stream with
    | none =>
      left
      refine ⟨rfl,fun mission orchard arrives => ?_⟩
      have whole := arrives.whole
      simp only [framed,json,if_true] at whole
      split at whole
      · exact readFrame_none prefixed stream orchard arrives.orchardFits one ((List.prefix_append _ _).trans whole)
      · exact readFrame_none prefixed stream mission arrives.missionFits one ((List.prefix_append _ _).trans whole)
    | some read =>
      obtain ⟨first,later⟩ := read
      obtain ⟨short,start⟩ := readFrame_found prefixed stream later first one
      have next (mine other : Payload) (small : mine.length < 2^32) (whole : frame mine ++ frame other <+: received stream) :
          frame other <+: received later := by
        obtain ⟨rest,same⟩ := whole
        rw [List.append_assoc] at same
        obtain ⟨left,found,rest'⟩ := readFrame_some prefixed stream mine _ small same.symm
        rw [one] at found
        injection found with found
        injection found with _ found
        rw [found,rest']
        exact List.prefix_append _ _
      dsimp only
      cases two : readFrame p later with
      | none =>
        left
        refine ⟨rfl,fun mission orchard arrives => ?_⟩
        have whole := arrives.whole
        simp only [framed,json,if_true] at whole
        split at whole
        · exact readFrame_none prefixed later mission arrives.missionFits two (next orchard mission arrives.orchardFits whole)
        · exact readFrame_none prefixed later orchard arrives.orchardFits two (next mission orchard arrives.missionFits whole)
      | some read =>
        obtain ⟨second,last⟩ := read
        obtain ⟨small,middle⟩ := readFrame_found prefixed later last second two
        right
        by_cases order : p.order = "json_then_xml"
        · refine ⟨second,first,_,⟨small,short,?_⟩,by simp only [order,if_true]; rfl⟩
          simp only [framed,json,order,if_true,start,middle,← List.append_assoc]
          exact List.prefix_append _ _
        · refine ⟨first,second,_,⟨short,small,?_⟩,by simp only [order,if_false]; rfl⟩
          simp only [framed,json,order,if_true,if_false,start,middle,← List.append_assoc]
          exact List.prefix_append _ _
  · have plain : p.expectJson = false := Bool.eq_false_of_not_eq_true json
    simp only [serve,plain,Bool.not_false,if_true,Bool.false_eq_true,if_false]
    cases one : readFrame p stream with
    | none =>
      left
      refine ⟨rfl,fun mission orchard arrives => ?_⟩
      have whole := arrives.whole
      simp only [framed,plain,Bool.false_eq_true,if_false] at whole
      exact readFrame_none prefixed stream mission arrives.missionFits one whole
    | some read =>
      obtain ⟨first,later⟩ := read
      obtain ⟨short,start⟩ := readFrame_found prefixed stream later first one
      right
      refine ⟨first,[],none,⟨short,by decide,?_⟩,rfl⟩
      simp only [framed,plain,Bool.false_eq_true,if_false,start]
      exact List.prefix_append _ _

theorem acceptAndAck_publishes (id : Option String) (d : Demux) :
    (acceptAndAck p id d).missions = d.missions ∧ (acceptAndAck p id d).orchards = d.orchards := by
  unfold acceptAndAck
  split
  · exact ⟨rfl,rfl⟩
  · exact ⟨rfl,rfl⟩

/-- The ack says what the battery says. -/
theorem acceptAndAck_says (id : Option String) (d : Demux) :
    ∃ ack, (acceptAndAck p id d).acks = ack :: d.acks ∧ (acceptedIn (buildAck ack) = some true ↔ ¬TooLow p) := by
  unfold acceptAndAck
  split
  · rename_i low
    exact ⟨_,rfl,by simp [acceptedIn,buildAck,low]⟩
  · rename_i enough
    exact ⟨_,rfl,by simp [acceptedIn,buildAck,enough]⟩

/-- A mission of four bytes and an orchard of two, in four reads, one of them interrupted. -/
def cutStream : Stream :=
  [.bytes 0 [0,0],.bytes 4 [0x3C],.interrupted,.bytes 0x61 [0x2F,0x3E,0,0,0],.bytes 2 [0x7B,0x7D]]

/-- What the parser makes of two braces. -/
def braces (text : Payload) : Option Json := if text = [0x7B,0x7D] then some (.dict []) else none

def charged : Params := { robotId := "amiga-1", batteryPct := 50, minBatteryPctForMission := 20 }

def drained : Params := { robotId := "amiga-1", batteryPct := 10, minBatteryPctForMission := 20 }

end AmigaFleet.Intake
