import AmigaFleet.Codec.Messages
import AmigaFleet.Reliability.Dedup

/-! Note fragments are collected until a note is whole. A finished note is held
for a while, so that the announcement it precedes can find it. -/
namespace AmigaFleet.Reliability
open Lib AmigaFleet.Codec

structure CompletedNote where
  src : Int
  taskId : Int
  noteId : Int
  text : String
  completedAt : ℚ
  deriving DecidableEq

structure Partial where
  fragCount : Int
  fragments : Dict Int (List UInt8)
  expiresAt : ℚ

def Partial.complete (p : Partial) : Bool := (p.fragments.size : Int) = p.fragCount

structure NoteCounters where
  fragments : Nat := 0
  fragmentsDuplicate : Nat := 0
  fragmentsRefused : Nat := 0
  complete : Nat := 0
  abandoned : Nat := 0
  evicted : Nat := 0
  undecodable : Nat := 0
  deriving DecidableEq

structure NoteReassembler where
  ttl : ℚ
  completedTtl : ℚ
  maxPartial : Nat := 16
  maxCompleted : Nat := 32
  maxFragments : Int
  partials : Dict (Int × Int × Int) Partial := .empty
  finished : Dict (Int × Int) (CompletedNote × ℚ) := .empty
  counters : NoteCounters := {}
  lasting : 0 < ttl
  completedLasting : 0 < completedTtl
  somePartial : 1 ≤ maxPartial := by decide
  someCompleted : 1 ≤ maxCompleted := by decide
  someFragments : 1 ≤ maxFragments

namespace NoteReassembler

def prune (r : NoteReassembler) (now : ℚ) : NoteReassembler :=
  let partials := r.partials.dropStale (fun p => p.expiresAt ≤ now)
  { r with
    partials := partials
    counters := { r.counters with
      abandoned := r.counters.abandoned + (r.partials.size - partials.size) }
    finished := r.finished.dropStale (fun entry => entry.2 ≤ now) }

def remember (r : NoteReassembler) (note : CompletedNote) (now : ℚ) : NoteReassembler :=
  { r with
    finished := (r.finished.place (note.src,note.taskId) (note,now + r.completedTtl)).trim
      r.maxCompleted }

/-- `blob.decode("utf-8")`. -/
def decodeUtf8 (blob : List UInt8) : Option String := String.fromUTF8? ⟨blob.toArray⟩

/-- Take one fragment, and return the note if it was the last one missing. -/
def add (r : NoteReassembler) (msg : Freeform) (now : ℚ) :
    Option CompletedNote × NoteReassembler :=
  let r := r.prune now
  let count := msg.fragCount
  let index := msg.fragIndex
  if ¬(1 ≤ count ∧ count ≤ r.maxFragments) ∨ ¬(0 ≤ index ∧ index < count) then
    (none,{ r with counters := { r.counters with
      fragmentsRefused := r.counters.fragmentsRefused + 1 } })
  else
    let key := (msg.src,msg.taskId,msg.noteId)
    let found := r.partials.get? key
    -- One note described with two lengths starts again from this fragment.
    let clash := found.any (fun p => p.fragCount ≠ count)
    let fresh : Partial := ⟨count,.empty,now + r.ttl⟩
    let current := if clash then fresh else found.getD fresh
    let repeated := !clash && found.any (fun p => p.fragments.contains index)
    let partial_ : Partial :=
      ⟨current.fragCount,current.fragments.set index msg.text,now + r.ttl⟩
    let placed := r.partials.place key partial_
    let r := { r with
      partials := placed.trim r.maxPartial
      counters := { r.counters with
        fragments := r.counters.fragments + 1
        fragmentsRefused := r.counters.fragmentsRefused + if clash then 1 else 0
        fragmentsDuplicate := r.counters.fragmentsDuplicate + if repeated then 1 else 0
        evicted := r.counters.evicted + (placed.size - r.maxPartial) } }
    if partial_.complete then
      let r := { r with partials := r.partials.pop key }
      let blob := (List.range count.toNat).flatMap
        (fun i => (partial_.fragments.get? (i : Int)).getD [])
      match decodeUtf8 blob with
      | none =>
        (none,{ r with counters := { r.counters with undecodable := r.counters.undecodable + 1 } })
      | some text =>
        let note : CompletedNote := ⟨msg.src,msg.taskId,msg.noteId,text,now⟩
        let r := { r with counters := { r.counters with complete := r.counters.complete + 1 } }
        (some note,r.remember note now)
    else (none,r)

def completed (r : NoteReassembler) (src taskId : Int) (now : ℚ) :
    Option CompletedNote × NoteReassembler :=
  let r := r.prune now
  ((r.finished.get? (src,taskId)).map Prod.fst,r)

end NoteReassembler
end AmigaFleet.Reliability
