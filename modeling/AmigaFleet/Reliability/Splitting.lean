import AmigaFleet.Codec.Codec
import AmigaFleet.Reliability.Notes

/-! Cutting a note into fragments, on its UTF-8 bytes. -/
namespace AmigaFleet.Reliability
open Lib AmigaFleet.Codec

def noteHeaderBytes : Nat := headerBytes + Struct.size (slots .freeform)

inductive SplitError where
  | taskIdRange (taskId : Int)
  | noteIdRange (noteId : Int)
  | maxFragments (maxFragments : Int)
  | noRoom (maxPayloadBytes : Int)
  | noText
  | noteTooLong (bytes fragments : Nat) (perFragment maxFragments : Int)
  deriving DecidableEq

def textBytesPerFragment (maxPayloadBytes : Int) : Int := maxPayloadBytes - noteHeaderBytes

/-- `text.encode("utf-8")`. -/
def encodeUtf8 (text : String) : List UInt8 := text.toUTF8.data.toList

/-- `blob[i : i + step]` for `i` from 0 in steps. -/
def chunks (step : Nat) (blob : List UInt8) : List (List UInt8) :=
  (List.range ((blob.length + step - 1) / step)).map (fun i => (blob.drop (i*step)).take step)

/-- The fragments of a note; `src` and `seq` are stamped as each goes out. -/
def splitNote (taskId noteId : Int) (text : String) (maxPayloadBytes maxFragments : Int) :
    Except SplitError (List Freeform) :=
  if ¬(0 < taskId ∧ taskId ≤ taskIdMax) then .error (.taskIdRange taskId)
  else if ¬(0 ≤ noteId ∧ noteId ≤ noteIdMax) then .error (.noteIdRange noteId)
  else if maxFragments < 1 then .error (.maxFragments maxFragments)
  else
    let perFragment := textBytesPerFragment maxPayloadBytes
    if perFragment < 1 then .error (.noRoom maxPayloadBytes)
    else
      let blob := encodeUtf8 text
      if blob = [] then .error .noText
      else
        let chunks := chunks perFragment.toNat blob
        if maxFragments < chunks.length then
          .error (.noteTooLong blob.length chunks.length perFragment maxFragments)
        else .ok (chunks.zipIdx.map (fun (chunk,index) => ⟨0,0,taskId,noteId,index,chunks.length,chunk⟩))

theorem chunks_take (step : Nat) (blob : List UInt8) (count : Nat) :
    (List.range count).flatMap (fun i => (blob.drop (i*step)).take step) = blob.take (count*step) := by
  induction count with
  | zero => simp
  | succ count ih =>
    rw [List.range_succ,List.flatMap_append,ih,List.flatMap_singleton,Nat.succ_mul,List.take_add]

theorem chunks_flatten (step : Nat) (blob : List UInt8) (positive : 0 < step) : (chunks step blob).flatten = blob := by
  have enough : blob.length ≤ (blob.length + step - 1) / step * step := by
    have rounded := Nat.lt_div_mul_add (a := blob.length + step - 1) positive
    omega
  rw [chunks,← List.flatMap_def,chunks_take,List.take_of_length_le enough]

theorem decodeUtf8_encodeUtf8 (text : String) : NoteReassembler.decodeUtf8 (encodeUtf8 text) = some text := by
  have valid := text.isValidUTF8
  simp only [NoteReassembler.decodeUtf8,encodeUtf8,Array.toArray_toList,String.toUTF8]
  change String.fromUTF8? text.toByteArray = some text
  rw [String.fromUTF8?,dif_pos valid]
  rfl

theorem splitNote_chunks (taskId noteId : Int) (text : String) (maxPayloadBytes maxFragments : Int)
    (fragments : List Freeform) (ok : splitNote taskId noteId text maxPayloadBytes maxFragments = .ok fragments) :
    let pieces := chunks (textBytesPerFragment maxPayloadBytes).toNat (encodeUtf8 text)
    fragments.length = pieces.length ∧ pieces.flatten = encodeUtf8 text ∧
      ∀ fragment ∈ fragments, fragment.taskId = taskId ∧ fragment.noteId = noteId ∧
        fragment.fragCount = pieces.length ∧
        ∃ i : Nat, fragment.fragIndex = i ∧ pieces[i]? = some fragment.text := by
  unfold splitNote at ok
  split at ok
  · cases ok
  split at ok
  · cases ok
  split at ok
  · cases ok
  simp only at ok
  split at ok
  · cases ok
  rename_i room
  split at ok
  · cases ok
  split at ok
  · cases ok
  injection ok with ok
  subst ok
  refine ⟨by simp,chunks_flatten _ _ (by omega),?_⟩
  intro fragment member
  obtain ⟨⟨chunk,i⟩,inside,rfl⟩ := List.mem_map.mp member
  exact ⟨rfl,rfl,rfl,i,rfl,List.mem_zipIdx_iff_getElem?.mp inside⟩

end AmigaFleet.Reliability
