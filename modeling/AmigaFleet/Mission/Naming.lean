import AmigaFleet.Mission.Synthesis

/-! Names that carry a task id: what the schema accepts, and that an id that is declared
is read back and can be declared anew. -/
namespace AmigaFleet.Mission
open Lib

/-- A character of the schema's `taskNameType`. -/
def nameChar (c : Char) : Bool := c.isAlphanum || c = '_'

/-- The schema's `taskNameType`. -/
def SchemaName (name : String) : Prop := name ≠ "" ∧ ∀ c ∈ name.toList, nameChar c = true

/-- A text that `_ident` leaves as it is. -/
structure Neat (text : List Char) : Prop where
  made : ∀ c ∈ text, nameChar c = true
  first : ∀ c ∈ text.head?, c ≠ '_'
  last : ∀ c ∈ text.getLast?, c ≠ '_'

def underscored (text : List Char) : List Char := text.map (fun c => if nameChar c then c else '_')

def trimmedName (text : List Char) : List Char := text.dropWhile (fun c => c = '_')

theorem ident_eq (text : String) :
    ident text = String.ofList (trimmedName (trimmedName (underscored text.toList)).reverse).reverse := by
  rw [ident,underscored]
  rfl

theorem trimmedName_first (text : List Char) : ∀ c ∈ (trimmedName text).head?, c ≠ '_' := by
  intro c first
  have stops := List.head?_dropWhile_not (fun c => decide (c = '_')) text
  rw [trimmedName] at first
  rw [Option.mem_def.mp first] at stops
  simpa using stops

theorem trimmedName_neat (text : List Char) (first : ∀ c ∈ text.head?, c ≠ '_') : trimmedName text = text := by
  cases text with
  | nil => rfl
  | cons c rest => exact List.dropWhile_cons_of_neg (by simpa using first c rfl)

theorem trimmedName_suffix (text : List Char) : trimmedName text <:+ text := List.dropWhile_suffix _

theorem ident_neat (text : String) : Neat (ident text).toList := by
  rw [ident_eq,String.toList_ofList]
  have front := trimmedName_suffix (underscored text.toList)
  have back := trimmedName_suffix (trimmedName (underscored text.toList)).reverse
  constructor
  · intro c member
    have inside := front.subset (List.mem_reverse.mp (back.subset (List.mem_reverse.mp member)))
    obtain ⟨d,_,rfl⟩ := List.mem_map.mp inside
    split
    · assumption
    · decide
  · intro c first
    rw [List.head?_reverse] at first
    refine trimmedName_first (underscored text.toList) c ?_
    obtain ⟨dropped,same⟩ := back
    have kept : (trimmedName (underscored text.toList)).reverse.getLast? = some c := by
      rw [← same,List.getLast?_append,Option.mem_def.mp first]
      rfl
    rwa [List.getLast?_reverse] at kept
  · intro c last
    rw [List.getLast?_reverse] at last
    exact trimmedName_first _ c last

theorem ident_of_neat (text : String) (neat : Neat text.toList) : ident text = text := by
  have same : underscored text.toList = text.toList := by
    have all := List.map_congr_left (l := text.toList) (f := fun c => if nameChar c then c else '_') (g := id)
      (fun c member => if_pos (neat.made c member))
    rw [underscored,all,List.map_id]
  rw [ident_eq,same,trimmedName_neat _ neat.first,trimmedName_neat _ (by simpa using neat.last),List.reverse_reverse,
    String.ofList_toList]

/-- A front that ends before the digits, and a numeral. -/
def numbered (front : List Char) (n : Nat) : String := String.ofList (front ++ n.repr.toList)

theorem repr_some (n : Nat) : n.repr.toList ≠ [] := by
  simp

theorem numbered_some (front : List Char) (n : Nat) : numbered front n ≠ "" := by
  intro empty
  have none_ := congrArg String.toList empty
  rw [numbered,String.toList_ofList,String.toList_empty,List.append_eq_nil_iff] at none_
  exact repr_some n none_.2

theorem numbered_neat (front : List Char) (n : Nat) (some_ : front ≠ []) (made : ∀ c ∈ front, nameChar c = true)
    (first : ∀ c ∈ front.head?, c ≠ '_') : Neat (numbered front n).toList := by
  have digits (c : Char) (member : c ∈ n.repr.toList) : nameChar c = true ∧ c ≠ '_' := by
    have digit := Text.repr_digits n c member
    refine ⟨by simp [nameChar,Char.isAlphanum,digit],?_⟩
    rintro rfl
    exact absurd digit (by decide)
  rw [numbered,String.toList_ofList]
  constructor
  · intro c member
    exact (List.mem_append.mp member).elim (made c) (fun inside => (digits c inside).1)
  · intro c start
    rw [List.head?_append,List.head?_eq_some_head some_] at start
    refine first c ?_
    rw [List.head?_eq_some_head some_]
    exact start
  · intro c stop
    rw [List.getLast?_append,List.getLast?_eq_some_getLast (repr_some n)] at stop
    exact (digits c (Option.some.inj stop ▸ List.getLast_mem (repr_some n))).2

/-- What a numeral behind an underscore declares. -/
theorem split_numbered (front : List Char) (n : Nat) (under : front.getLast? = some '_') (range : 0 < n ∧ (n : Int) ≤ Codec.taskIdMax)
    (shape : front = "task_".toList ∨ front.take (front.length - 7) ≠ [] ∧ '\n' ∉ front.take (front.length - 7) ∧
      front = front.take (front.length - 7) ++ "__task_".toList) :
    splitDeclaration (numbered front n) =
      (if front = "task_".toList then "" else String.ofList (front.take (front.length - 7)),some n) := by
  have digits (c : Char) (member : c ∈ n.repr.toList) : (Text.digit c).isSome = true := by
    rw [Text.digit_isDigit c (Text.repr_digits n c member)]
    rfl
  have line : (front ++ n.repr.toList).getLast? ≠ some '\n' := by
    intro same
    rw [List.getLast?_append,List.getLast?_eq_some_getLast (repr_some n)] at same
    have digit := Text.repr_digits n _ (List.getLast_mem (repr_some n))
    rw [Option.some.inj same] at digit
    exact absurd digit (by decide)
  have behind : ((front ++ n.repr.toList).reverse.takeWhile (fun c => (Text.digit c).isSome)).reverse = n.repr.toList := by
    rw [List.reverse_append,List.takeWhile_append_of_pos (fun c member => digits c (List.mem_reverse.mp member))]
    have stops : front.reverse.takeWhile (fun c => (Text.digit c).isSome) = [] := by
      rw [← List.head?_reverse] at under
      cases back : front.reverse with
      | nil => rfl
      | cons c rest =>
        rw [back] at under
        obtain rfl := Option.some.inj under
        exact List.takeWhile_cons_of_neg (by decide)
    rw [stops,List.append_nil,List.reverse_reverse]
  have before : (front ++ n.repr.toList).take ((front ++ n.repr.toList).length - n.repr.toList.length) = front := by
    simp
  rw [splitDeclaration,numbered,String.toList_ofList]
  simp only [if_neg line,behind,before,Text.foldl_repr]
  rw [if_pos ⟨⟨repr_some n,shape⟩,range⟩]

/-- The name of a base, or of none, with an id. -/
theorem split_named (base : String) (n : Nat) (made : ∀ c ∈ base.toList, nameChar c = true) (some_ : base ≠ "")
    (range : 0 < n ∧ (n : Int) ≤ Codec.taskIdMax) : splitDeclaration (numbered (base.toList ++ "__task_".toList) n) = (base,some n) := by
  have cut : (base.toList ++ "__task_".toList).take ((base.toList ++ "__task_".toList).length - 7) = base.toList := by
    have size : "__task_".toList.length = 7 := by decide
    rw [List.length_append,size,Nat.add_sub_cancel,List.take_left]
  have full : base.toList ≠ [] := by simpa using some_
  have other : base.toList ++ "__task_".toList ≠ "task_".toList := by
    intro same
    have sizes := congrArg List.length same
    rw [List.length_append] at sizes
    have long : "__task_".toList.length = 7 := by decide
    have short : "task_".toList.length = 5 := by decide
    omega
  have line : '\n' ∉ base.toList := fun member => absurd (made '\n' member) (by decide)
  have last : (base.toList ++ "__task_".toList).getLast? = some '_' := by
    rw [List.getLast?_append]
    rfl
  have split := split_numbered _ n last range (.inr ⟨by rwa [cut],by rwa [cut],by rw [cut]⟩)
  rw [split,cut,if_neg other,String.ofList_toList]

theorem split_bare (n : Nat) (range : 0 < n ∧ (n : Int) ≤ Codec.taskIdMax) :
    splitDeclaration (numbered "task_".toList n) = ("",some n) :=
  (split_numbered "task_".toList n (by decide) range (.inl rfl)).trans (by rw [if_pos rfl])

theorem nameWithTaskId_eq (label : String) (n : Nat) :
    nameWithTaskId label n = numbered (if ident (splitDeclaration (ident label)).1 = "" then "task_".toList
      else (ident (splitDeclaration (ident label)).1).toList ++ "__task_".toList) n := by
  rw [nameWithTaskId]
  split
  · rw [numbered,String.ofList_append,String.ofList_toList,String.ofList_toList]
    rfl
  · rw [numbered,String.ofList_append,String.ofList_append,String.ofList_toList,String.ofList_toList,String.ofList_toList]
    rfl

theorem nameWithTaskId_neat (label : String) (n : Nat) : Neat (nameWithTaskId label n).toList := by
  have neat := ident_neat (splitDeclaration (ident label)).1
  rw [nameWithTaskId_eq]
  split
  · refine numbered_neat _ n (by decide) (List.all_eq_true.mp (by decide)) (fun c start => ?_)
    obtain rfl : 't' = c := Option.some.inj start
    decide
  · rename_i some_
    have full : (ident (splitDeclaration (ident label)).1).toList ≠ [] := by simpa using some_
    refine numbered_neat _ n (by simp [full]) (fun c member => ?_) (fun c start => ?_)
    · have tail : ∀ c ∈ "__task_".toList, nameChar c = true := List.all_eq_true.mp (by decide)
      exact (List.mem_append.mp member).elim (neat.made c) (tail c)
    · rw [List.head?_append,List.head?_eq_some_head full] at start
      refine neat.first c ?_
      rw [List.head?_eq_some_head full]
      exact start

theorem nameWithTaskId_schema (label : String) (n : Nat) : SchemaName (nameWithTaskId label n) := by
  refine ⟨?_,(nameWithTaskId_neat label n).made⟩
  rw [nameWithTaskId_eq]
  exact numbered_some _ n

theorem nameWithTaskId_split (label : String) (n : Nat) (range : 0 < n ∧ (n : Int) ≤ Codec.taskIdMax) :
    splitDeclaration (nameWithTaskId label n) = (ident (splitDeclaration (ident label)).1,some n) := by
  rw [nameWithTaskId_eq]
  split
  · rename_i bare
    rw [split_bare n range,bare]
  · rename_i some_
    exact split_named _ n (ident_neat _).made some_ range

/-- Declaring anew is declaring the label. -/
theorem nameWithTaskId_again (label : String) (n m : Nat) (range : 0 < n ∧ (n : Int) ≤ Codec.taskIdMax) :
    nameWithTaskId (nameWithTaskId label n) m = nameWithTaskId label m := by
  rw [nameWithTaskId_eq (nameWithTaskId label n),ident_of_neat _ (nameWithTaskId_neat label n),
    nameWithTaskId_split label n range,ident_of_neat _ (ident_neat _),← nameWithTaskId_eq]

end AmigaFleet.Mission
