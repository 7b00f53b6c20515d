import AmigaFleet.Coordinator.Clocks

/-! What notes and their interpretations can do to a session: nothing but wait
in a queue, and move or withdraw the one bid they are about. -/
namespace AmigaFleet.Coordinator
open Lib AmigaFleet.Codec AmigaFleet.Reliability

/-- A call from the note path. A revision outside the union is `none`. -/
inductive NoteCall where
  | onNote (note : CompletedNote)
  | takeNoteRequests
  | reviseBid (taskId : Int) (revision : Option BidRevision)

def NoteCall.op : NoteCall → Op
  | onNote note => .note note
  | takeNoteRequests => .takeNoteRequests
  | reviseBid taskId revision => .revise taskId revision

def noteLabels (calls : List (World × NoteCall)) : List Label :=
  calls.map (fun call => ⟨call.1,call.2.op⟩)

structure PendingBid.Revised (params : CoordinatorParams) (now : ℚ) (p q : PendingBid) : Prop where
  waits : p.sentAt = none
  same : q = { p with fitness := { p.fitness with cost := q.fitness.cost }, sendAt := q.sendAt }
  cost : 0 ≤ q.fitness.cost ∧ q.fitness.cost ≤ costMax
  soon : q.sendAt ≤ max now (p.createdAt + params.largestBackoffSec p.deliberative)

theorem PendingBid.Revised.trans (params : CoordinatorParams) (first second : ℚ) (p q r : PendingBid)
    (early : p.Revised params first q) (late : q.Revised params second r) : p.Revised params second r := by
  have deliberative : q.deliberative = p.deliberative := by rw [early.same]
  have createdAt : q.createdAt = p.createdAt := by rw [early.same]
  refine ⟨early.waits,?_,late.cost,?_⟩
  · have shape := late.same
    rw [early.same] at shape
    exact shape
  · have soon := late.soon
    rwa [deliberative,createdAt] at soon

namespace Session

/-- One bid, over a sequence of calls: as it was; or withdrawn, if it was waiting
and a call withdrew it; or revised by a call about its task. -/
def BidAfter (cfg : Config) (calls : List (World × NoteCall)) (log : Log) (id : Int) :
    Option PendingBid → Option PendingBid → Prop
  | none,after => after = none
  | some p,none => p.sentAt = none ∧ ∃ world reason, (world,.reviseBid id (some (.withdrawBid reason))) ∈ calls
  | some p,some q => q = p ∨ ∃ world costDelta reason,
      (world,.reviseBid id (some (.reviseBid costDelta reason))) ∈ calls ∧
        p.Revised cfg.params (world.clock log) q

structure Annotated (cfg : Config) (calls : List (World × NoteCall)) (s t : Session) : Prop where
  tasks : t.tasks = s.tasks
  peers : t.peers = s.peers
  log : t.log = s.log
  futures : t.futures = s.futures
  nextSerial : t.nextSerial = s.nextSerial
  nextHeartbeatAt : t.nextHeartbeatAt = s.nextHeartbeatAt
  bids : ∀ id, BidAfter cfg calls s.log id (s.bids.get? id) (t.bids.get? id)
  infeasible : ∀ id p q, s.bids.get? id = some p → t.bids.get? id = some q → p.fitness.feasible = false →
    q.wire = p.wire ∧ q.wire.feasible = false ∧ q.wire.cost = costMax

variable (cfg : Config) (world : World)

theorem revised_bid (pending : PendingBid) (costDelta : Int) (now : ℚ) (log : Log)
    (waits : pending.sentAt = none) :
    pending.Revised cfg.params now (revised cfg world pending costDelta now log) := by
  refine ⟨waits,rfl,⟨le_max_left _ _,max_le (by decide) (min_le_right _ _)⟩,max_le_max (le_refl _) ?_⟩
  have shorter := backoff_le cfg.params world log pending.deliberative
    (max 0 (min (pending.fitness.cost + costDelta) costMax))
  linarith

theorem bidAfter_refl (calls : List (World × NoteCall)) (log : Log) (id : Int) (before : Option PendingBid) :
    BidAfter cfg calls log id before before := by
  cases before with
  | none => rfl
  | some p => exact .inl rfl

theorem reviseBid_bids (taskId : Int) (revision : Option BidRevision) (s : Session) (id : Int) :
    BidAfter cfg [(world,.reviseBid taskId revision)] s.log id (s.bids.get? id)
      ((s.reviseBid cfg world taskId revision).bids.get? id) := by
  unfold reviseBid
  split
  · exact bidAfter_refl cfg _ _ id _
  · exact bidAfter_refl cfg _ _ id _
  rename_i revision pending found
  split
  · exact bidAfter_refl cfg _ _ id _
  rename_i waits
  have waits : pending.sentAt = none := by simpa using waits
  split
  · exact bidAfter_refl cfg _ _ id _
  · rename_i reason
    simp only [Dict.get?_pop]
    split
    · rename_i here
      subst here
      rw [found]
      exact ⟨waits,world,reason,List.mem_singleton.mpr rfl⟩
    · exact bidAfter_refl cfg _ _ id _
  · rename_i costDelta reason
    simp only [Dict.get?_set]
    split
    · rename_i here
      subst here
      rw [found]
      exact .inr ⟨world,costDelta,reason,List.mem_singleton.mpr rfl,revised_bid cfg world pending _ _ _ waits⟩
    · exact bidAfter_refl cfg _ _ id _

theorem BidAfter.trans (first later : List (World × NoteCall)) (log : Log) (id : Int)
    (a b c : Option PendingBid) (early : BidAfter cfg first log id a b) (late : BidAfter cfg later log id b c) :
    BidAfter cfg (first ++ later) log id a c := by
  cases a with
  | none =>
    have gone : b = none := early
    subst gone
    exact late
  | some p =>
    cases b with
    | none =>
      have gone : c = none := late
      subst gone
      obtain ⟨waits,world,reason,member⟩ := early
      exact ⟨waits,world,reason,List.mem_append_left _ member⟩
    | some q =>
      have waiting : ∀ _ : q.sentAt = none, p.sentAt = none := by
        intro waits
        obtain rfl | ⟨_,_,_,_,revised⟩ := early
        · exact waits
        · exact revised.waits
      cases c with
      | none =>
        obtain ⟨waits,world,reason,member⟩ := late
        exact ⟨waiting waits,world,reason,List.mem_append_right _ member⟩
      | some r =>
        obtain rfl | ⟨world,costDelta,reason,member,revised⟩ := late
        · obtain rfl | ⟨world,costDelta,reason,member,revised⟩ := early
          · exact .inl rfl
          · exact .inr ⟨world,costDelta,reason,List.mem_append_left _ member,revised⟩
        · obtain rfl | ⟨_,_,_,_,before⟩ := early
          · exact .inr ⟨world,costDelta,reason,List.mem_append_right _ member,revised⟩
          · exact .inr ⟨world,costDelta,reason,List.mem_append_right _ member,before.trans _ _ _ _ _ _ revised⟩

theorem infeasible_wire (calls : List (World × NoteCall)) (log : Log) (id : Int) (p q : PendingBid)
    (after : BidAfter cfg calls log id (some p) (some q)) (infeasible : p.fitness.feasible = false) :
    q.wire = p.wire ∧ q.wire.feasible = false ∧ q.wire.cost = costMax := by
  have same : q.wire = p.wire := by
    obtain rfl | ⟨_,_,_,_,revised⟩ := after
    · rfl
    · rw [revised.same]
      simp [PendingBid.wire,infeasible]
  refine ⟨same,?_,?_⟩
  · rw [same]
    exact infeasible
  · rw [same]
    simp [PendingBid.wire,infeasible]

theorem annotated_of_bids (calls : List (World × NoteCall)) (s t : Session)
    (frame : ∃ bids requests, t = { s with bids := bids, noteRequests := requests })
    (bids : ∀ id, BidAfter cfg calls s.log id (s.bids.get? id) (t.bids.get? id)) : Annotated cfg calls s t := by
  obtain ⟨_,_,rfl⟩ := frame
  refine ⟨rfl,rfl,rfl,rfl,rfl,rfl,bids,?_⟩
  intro id p q before after
  refine infeasible_wire cfg calls s.log id p q ?_
  rw [← before,← after]
  exact bids id

theorem noteCall_frame (call : NoteCall) (s : Session) :
    ∃ bids requests, (s.perform cfg world call.op).state = { s with bids := bids, noteRequests := requests } := by
  cases call with
  | onNote note =>
    simp only [NoteCall.op,perform,onNote,Flow.state_returned]
    split
    · exact ⟨_,_,rfl⟩
    split
    · exact ⟨_,_,rfl⟩
    split
    · exact ⟨_,_,rfl⟩
    · exact ⟨_,_,rfl⟩
  | takeNoteRequests => exact ⟨_,_,rfl⟩
  | reviseBid taskId revision =>
    simp only [NoteCall.op,perform,reviseBid,Flow.state_returned]
    split
    · exact ⟨_,_,rfl⟩
    · exact ⟨_,_,rfl⟩
    split
    · exact ⟨_,_,rfl⟩
    split
    · exact ⟨_,_,rfl⟩
    · exact ⟨_,_,rfl⟩
    · exact ⟨_,_,rfl⟩

theorem noteCall_annotated (call : NoteCall) (s : Session) :
    Annotated cfg [(world,call)] s (s.perform cfg world call.op).state := by
  refine annotated_of_bids cfg _ s _ (noteCall_frame cfg world call s) ?_
  intro id
  cases call with
  | onNote note =>
    have same := (onNote_beside cfg world note s).bids
    simp only [NoteCall.op,perform,Flow.state_returned,same]
    exact bidAfter_refl cfg _ _ id _
  | takeNoteRequests => exact bidAfter_refl cfg _ _ id _
  | reviseBid taskId revision => exact reviseBid_bids cfg world taskId revision s id

theorem Annotated.trans (first later : List (World × NoteCall)) (s t u : Session)
    (early : Annotated cfg first s t) (late : Annotated cfg later t u) : Annotated cfg (first ++ later) s u where
  tasks := late.tasks.trans early.tasks
  peers := late.peers.trans early.peers
  log := late.log.trans early.log
  futures := late.futures.trans early.futures
  nextSerial := late.nextSerial.trans early.nextSerial
  nextHeartbeatAt := late.nextHeartbeatAt.trans early.nextHeartbeatAt
  bids id := (early.bids id).trans cfg _ _ _ _ _ _ _ (early.log ▸ late.bids id)
  infeasible := by
    intro id p q before after
    refine infeasible_wire cfg (first ++ later) s.log id p q ?_
    rw [← before,← after]
    exact (early.bids id).trans cfg _ _ _ _ _ _ _ (early.log ▸ late.bids id)

/-- Whatever notes arrive, whenever the requests are taken and whatever comes
back as a revision: only bids change, only those a revision names, and only so. -/
theorem notes_annotate (s : Session) (calls : List (World × NoteCall)) :
    Annotated cfg calls s ((machine cfg).runs s (noteLabels calls)) := by
  induction calls generalizing s with
  | nil => exact annotated_of_bids cfg [] s s ⟨_,_,rfl⟩ (fun id => bidAfter_refl cfg _ _ id _)
  | cons call rest ih =>
    exact (noteCall_annotated cfg call.1 call.2 s).trans cfg [call] rest s _ _ (ih _)

end Session
end AmigaFleet.Coordinator
