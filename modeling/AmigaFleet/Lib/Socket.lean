import Mathlib.Data.List.Basic

/-! Reading a stream socket. What the peer sends arrives in pieces of any sizes,
a signal may interrupt a read, and a read may fail. -/
namespace Lib.Socket

/-- What a blocking read finds. After the last arrival the peer has closed. -/
inductive Arrival where
  | bytes (first : UInt8) (rest : List UInt8)
  | interrupted
  | failed
  deriving DecidableEq

abbrev Stream : Type := List Arrival

/-- The bytes there are to read before the peer closes or a read fails. -/
def received : Stream → List UInt8
  | [] => []
  | .bytes first rest::later => first::rest ++ received later
  | .interrupted::later => received later
  | .failed::_ => []

/-- What a read left in the socket is there for the next one. -/
def unread (left : List UInt8) (later : Stream) : Stream :=
  match left with
  | [] => later
  | first::rest => .bytes first rest::later

/-- Read until there are `n` bytes. Nothing if the peer closes or a read fails before. -/
def readExact : Nat → Stream → Option (List UInt8 × Stream)
  | 0,stream => some ([],stream)
  | _+1,[] => none
  | _+1,.failed::_ => none
  | n+1,.interrupted::later => readExact (n+1) later
  | n+1,.bytes first rest::later =>
    if rest.length ≤ n then (readExact (n - rest.length) later).map (fun read => (first::rest ++ read.1,read.2))
    else some (first::rest.take n,unread (rest.drop n) later)

theorem received_unread (left : List UInt8) (later : Stream) : received (unread left later) = left ++ received later := by
  cases left with
  | nil => rfl
  | cons first rest => rfl

/-- The cuts between the reads make no difference. -/
theorem readExact_some (n : Nat) (stream : Stream) (enough : n ≤ (received stream).length) :
    ∃ later, readExact n stream = some ((received stream).take n,later) ∧ received later = (received stream).drop n := by
  induction stream generalizing n with
  | nil =>
    cases n with
    | zero => exact ⟨[],rfl,rfl⟩
    | succ n => cases enough
  | cons arrival later ih =>
    cases n with
    | zero => exact ⟨_,rfl,rfl⟩
    | succ n =>
      cases arrival with
      | failed => cases enough
      | interrupted => exact ih (n+1) enough
      | bytes first rest =>
        simp only [received,List.length_append,List.length_cons] at enough
        simp only [received,readExact,List.cons_append,List.take_succ_cons,List.drop_succ_cons]
        by_cases whole : rest.length ≤ n
        · obtain ⟨left,read,same⟩ := ih (n - rest.length) (by omega)
          apply Exists.intro left
          rw [if_pos whole,read,same,List.take_append,List.drop_append,List.take_of_length_le whole,
            List.drop_of_length_le whole]
          exact ⟨rfl,rfl⟩
        · apply Exists.intro (unread (rest.drop n) later)
          rw [if_neg whole,received_unread,List.take_append_of_le_length (by omega),
            List.drop_append_of_le_length (by omega)]
          exact ⟨rfl,rfl⟩

theorem readExact_none (n : Nat) (stream : Stream) (short : (received stream).length < n) : readExact n stream = none := by
  induction stream generalizing n with
  | nil =>
    cases n with
    | zero => cases short
    | succ n => rfl
  | cons arrival later ih =>
    cases n with
    | zero => cases short
    | succ n =>
      cases arrival with
      | failed => rfl
      | interrupted => exact ih (n+1) short
      | bytes first rest =>
        simp only [received,List.length_append,List.length_cons] at short
        simp only [readExact]
        rw [if_pos (by omega),ih (n - rest.length) (by omega)]
        rfl

theorem readExact_found (n : Nat) (stream later : Stream) (read : List UInt8) (found : readExact n stream = some (read,later)) :
    received stream = read ++ received later ∧ read.length = n := by
  by_cases enough : n ≤ (received stream).length
  · obtain ⟨left,taken,rest⟩ := readExact_some n stream enough
    rw [taken] at found
    injection found with found
    injection found with same other
    rw [← same,← other,rest,List.take_append_drop,List.length_take]
    exact ⟨rfl,Nat.min_eq_left enough⟩
  · rw [readExact_none n stream (Nat.lt_of_not_le enough)] at found
    cases found

end Lib.Socket
