import AmigaFleet.Triage.Replies
import AmigaFleet.Lib.Regex
import Mathlib.Data.List.Sort
import Mathlib.Algebra.Order.Field.Rat

/-! The log lines that the triage node keeps, and those around a fault that the model
is shown. -/
namespace AmigaFleet.Triage
open Lib Regex

/-- A message on `/rosout`. -/
structure Log where
  stamp : ℚ
  level : Nat
  name : String
  msg : String

structure Entry where
  stamp : ℚ
  level : String
  name : String
  msg : String
  deriving DecidableEq

def logWindowSec : ℚ := 30
def faultContextSec : ℚ := 5
def maxLogLines : Nat := 60

def levelMap : List (Nat × String) := [(10,"DEBUG"),(20,"INFO"),(30,"WARN"),(40,"ERROR"),(50,"FATAL")]

/-- `\x1b\[[0-9;]*m` -/
def ansiEscape : Regex :=
  inOrder [char (Char.ofNat 27),char '[',star true (fun c => c.isDigit || c = ';'),char 'm']

def entryOf (msg : Log) : Entry where
  stamp := msg.stamp
  level := (levelMap.lookup msg.level).getD (toString msg.level)
  name := msg.name
  msg := String.ofList (eraseAll ansiEscape msg.msg.toList)

def onLog (now : ℚ) (buffer : List Entry) (msg : Log) : List Entry :=
  (buffer ++ [entryOf msg]).filter (fun e => now - e.stamp < logWindowSec)

/-- Within `FAULT_CONTEXT_SEC` of the fault. -/
def around (centre : ℚ) (e : Entry) : Bool :=
  centre - faultContextSec ≤ e.stamp && e.stamp ≤ centre + faultContextSec

def severe (e : Entry) : Bool := e.level ∈ ["ERROR","FATAL","WARN"]

def window (centre : ℚ) (buffer : List Entry) : List Entry := buffer.filter (around centre)

/-- The entries whose lines `_log_slice` joins. -/
def excerpt (centre : ℚ) (buffer : List Entry) : List Entry :=
  if maxLogLines < (window centre buffer).length then
    (((window centre buffer).filter severe ++ window centre buffer).take maxLogLines).insertionSort
      (fun a b => a.stamp ≤ b.stamp)
  else window centre buffer

def Entry.line (e : Entry) : String := "[" ++ e.level ++ "] " ++ e.name ++ ": " ++ e.msg

/-- `_log_slice`, where `float` reads a finite number. -/
def logSlice (float : Json → Option ℚ) (now : ℚ) (fault : Option Fields) (buffer : List Entry) : Option String :=
  let centre := match fault with
    | none => some now
    | some fields => (float ((fields.lookup "timestamp_ms").getD (.int 0))).map (· / 1000)
  centre.map (fun centre => "\n".intercalate ((excerpt centre buffer).map Entry.line))

/-- What the lines shown to the model should be of the buffer. -/
structure Evidence (centre : ℚ) (buffer lines : List Entry) : Prop where
  few : lines.length ≤ maxLogLines
  once : lines.Subperm buffer
  near : ∀ e ∈ lines, around centre e = true
  inOrder : lines.Pairwise (fun a b => a.stamp ≤ b.stamp)
  whole : (window centre buffer).length ≤ maxLogLines → (window centre buffer).Subperm lines
  severeFirst : maxLogLines < (window centre buffer).length → (∃ e ∈ lines, severe e = false) →
    ((window centre buffer).filter severe).Subperm lines

/-- In the order they came, at most the entries of the messages. -/
theorem buffer_sublist (messages : List (ℚ × Log)) :
    (messages.foldl (fun buffer m => onLog m.1 buffer m.2) []).Sublist (messages.map (fun m => entryOf m.2)) := by
  induction messages using List.reverseRecOn with
  | nil => exact List.Sublist.refl _
  | append_singleton messages m ih =>
    rw [List.foldl_append,List.map_append]
    exact List.filter_sublist.trans (ih.append (List.Sublist.refl _))

variable (centre : ℚ) (buffer : List Entry)

theorem window_around : ∀ e ∈ window centre buffer, around centre e = true :=
  fun _ member => (List.mem_filter.mp member).2

theorem window_subperm : (window centre buffer).Subperm buffer := List.filter_sublist.subperm

/-- When the window is cut, the severe entries and then a front of the window. -/
theorem excerpt_perm (many : maxLogLines < (window centre buffer).length) :
    (excerpt centre buffer).Perm (((window centre buffer).filter severe).take maxLogLines ++
      (window centre buffer).take (maxLogLines - ((window centre buffer).filter severe).length)) := by
  rw [excerpt,if_pos many,← List.take_append]
  exact List.perm_insertionSort _ _

/-- The front of the window holds no severe entry when no entry is shown twice. -/
theorem front_mild (many : maxLogLines < (window centre buffer).length) (once : (excerpt centre buffer).Subperm buffer) :
    ∀ e ∈ (window centre buffer).take (maxLogLines - ((window centre buffer).filter severe).length), severe e = false := by
  intro e member
  cases bad : severe e with
  | false => rfl
  | true =>
    exfalso
    have inside : e ∈ window centre buffer := List.mem_of_mem_take member
    have room : ((window centre buffer).filter severe).length < maxLogLines := by
      by_contra full
      rw [Nat.sub_eq_zero_of_le (Nat.le_of_not_lt full),List.take_zero] at member
      cases member
    have twice := (excerpt_perm centre buffer many).count_eq e
    rw [List.take_of_length_le room.le,List.count_append,List.count_filter bad] at twice
    have here := List.count_pos_iff.mpr member
    have all : (window centre buffer).count e = buffer.count e := List.count_filter (window_around centre buffer e inside)
    have bound := once.count_le e
    omega

theorem excerpt_evidence (many : maxLogLines < (window centre buffer).length)
    (mild : ∀ e ∈ (window centre buffer).take (maxLogLines - ((window centre buffer).filter severe).length), severe e = false) :
    Evidence centre buffer (excerpt centre buffer) := by
  have same := excerpt_perm centre buffer many
  have kept : (excerpt centre buffer).Subperm (window centre buffer) := by
    have rest : ((window centre buffer).take (maxLogLines - ((window centre buffer).filter severe).length)).Sublist
        ((window centre buffer).filter (fun e => !severe e)) := by
      have all := List.filter_eq_self (p := fun e => !severe e) |>.mpr (fun e member => by simpa using mild e member)
      rw [← all]
      exact (List.take_sublist _ _).filter _
    refine same.subperm.trans (((List.take_sublist _ _).append rest).subperm.trans ?_)
    exact (List.filter_append_perm severe (window centre buffer)).subperm
  refine ⟨?_,kept.trans (window_subperm centre buffer),fun e member => window_around centre buffer e (kept.subset member),?_,
    fun short => absurd short (Nat.not_le_of_lt many),fun _ other => ?_⟩
  · rw [same.length_eq,List.length_append,List.length_take,List.length_take]
    omega
  · have total : Std.Total (fun a b : Entry => a.stamp ≤ b.stamp) := ⟨fun a b => le_total a.stamp b.stamp⟩
    have trans : IsTrans Entry (fun a b => a.stamp ≤ b.stamp) := ⟨fun _ _ _ => le_trans⟩
    rw [excerpt,if_pos many]
    exact List.pairwise_insertionSort _ _
  · obtain ⟨e,shown,below⟩ := other
    rcases List.mem_append.mp (same.subset shown) with first | later
    · have above := (List.mem_filter.mp (List.mem_of_mem_take first)).2
      rw [below] at above
      cases above
    · have room : ((window centre buffer).filter severe).length ≤ maxLogLines := by
        by_contra full
        rw [Nat.sub_eq_zero_of_le (Nat.le_of_not_le full),List.take_zero] at later
        cases later
      rw [List.take_of_length_le room] at same
      exact (List.sublist_append_left _ _).subperm.trans same.symm.subperm

/-- The lines are a true excerpt exactly when a window that is not cut came in the order
of time, and otherwise the front that fills up the lines holds nothing severe. -/
theorem excerpt_evidence_iff :
    Evidence centre buffer (excerpt centre buffer) ↔
      if (window centre buffer).length ≤ maxLogLines then
        (window centre buffer).Pairwise (fun a b => a.stamp ≤ b.stamp)
      else ∀ e ∈ (window centre buffer).take (maxLogLines - ((window centre buffer).filter severe).length),
        severe e = false := by
  split
  · rename_i short
    have same : excerpt centre buffer = window centre buffer := if_neg (Nat.not_lt_of_le short)
    rw [same]
    refine ⟨fun evidence => evidence.inOrder,fun sorted => ⟨short,window_subperm centre buffer,window_around centre buffer,
      sorted,fun _ => List.Subperm.refl _,fun many => absurd short (Nat.not_le_of_lt many)⟩⟩
  · rename_i long
    have many := Nat.lt_of_not_le long
    exact ⟨fun evidence => front_mild centre buffer many evidence.once,excerpt_evidence centre buffer many⟩

/-- An error first, and sixty more lines. -/
def burst : List Entry :=
  ⟨0,"ERROR","nav","no path"⟩ :: (List.range 60).map (fun i => ⟨0,"INFO","nav",toString i⟩)

/-- The error is shown twice. -/
theorem burst_doubled : ¬Evidence 0 burst (excerpt 0 burst) := by
  intro evidence
  have twice : (excerpt 0 burst).count ⟨0,"ERROR","nav","no path"⟩ = 2 := by decide +kernel
  have once : burst.count ⟨0,"ERROR","nav","no path"⟩ = 1 := by decide +kernel
  have bound := evidence.once.count_le ⟨0,"ERROR","nav","no path"⟩
  omega

end AmigaFleet.Triage
