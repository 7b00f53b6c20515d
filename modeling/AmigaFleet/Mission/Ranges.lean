import AmigaFleet.Mission.Reading

/-! What a unit of a mission is called by and needs fits the fields that announce it. -/
namespace AmigaFleet.Mission
open Lib Codec

structure Fits (t : MissionTask) : Prop where
  taskId : (t.taskId : Int) ≤ taskIdMax
  capabilities : t.capabilities < 2^9
  priority : 0 ≤ t.priority ∧ t.priority ≤ priorityMax

theorem splitDeclaration_range (name : String) (n : Nat) (declared : (splitDeclaration name).2 = some n) :
    (n : Int) ≤ taskIdMax := by
  unfold splitDeclaration at declared
  generalize (if name.toList.getLast? = some '\n' then name.toList.dropLast else name.toList) = line at declared
  dsimp only at declared
  split at declared
  · rename_i range
    injection declared with same
    rw [← same]
    exact range.2.2
  · cases declared

theorem taskIdOf_range (own : Option String) (name : String) (actions : List Action) :
    (taskIdOf own name actions : Int) ≤ taskIdMax := by
  rw [taskIdOf]
  cases declared : declaredTaskId own with
  | some n => exact splitDeclaration_range _ n declared
  | none =>
    dsimp only
    generalize (if name = "" then String.intercalate " " (actions.map (fun a => a.named.getD a.tag.xmlElement)) else name)
      = material
    have room (n : Nat) : n % taskIdMax.toNat < taskIdMax.toNat := Nat.mod_lt n (by decide)
    have most : (taskIdMax.toNat : Int) = taskIdMax := rfl
    split
    · exact (by decide : (0 : Int) ≤ taskIdMax)
    · rw [← most]
      exact Int.ofNat_le.mpr (room _)

theorem priorityOf_range (control : Control) : 0 ≤ priorityOf control ∧ priorityOf control ≤ priorityMax := by
  rw [priorityOf]
  split
  · split_ifs with range
    · exact range
    · decide
  · decide

theorem capMask_room (capabilities : List Capability) (before : Nat) (room : before < 2^9) :
    capabilities.foldl (fun mask capability => mask ||| 1 <<< capability.index) before < 2^9 := by
  induction capabilities generalizing before with
  | nil => exact room
  | cons capability rest ih =>
    have bit : 1 <<< capability.index < 2^9 := by cases capability <;> decide
    exact ih _ (Nat.or_lt_two_pow room bit)

theorem capabilitiesOf_room (actions : List Action) : capabilitiesOf actions < 2^9 :=
  capMask_room _ 0 (by decide)

section
variable (fix : String → String → Option Target)

theorem taskOfGroup_fits (ref : Nat) (parent : Control) (elements : List Element) (t : MissionTask)
    (made : taskOfGroup fix ref parent elements = some t) : Fits t := by
  unfold taskOfGroup at made
  split_ifs at made
  injection made with made
  rw [← made]
  exact ⟨taskIdOf_range _ _ _,capabilitiesOf_room _,priorityOf_range parent⟩

theorem taskOf_fits (ref : Nat) (control : Control) (children : List Element) (t : MissionTask)
    (made : taskOf fix ref control children = some t) : Fits t := by
  unfold taskOf at made
  simp only at made
  split_ifs at made
  injection made with made
  rw [← made]
  exact ⟨taskIdOf_range _ _ _,capabilitiesOf_room _,priorityOf_range control⟩

theorem wholeUnit_fits (ref : Nat) (control : Control) (children : List Element) (u : Located)
    (member : u ∈ wholeUnit fix ref control children) : Fits u.task := by
  obtain ⟨t,made,rfl⟩ := Option.map_eq_some_iff.mp (Option.mem_toList.mp member)
  exact taskOf_fits fix ref control children t made

theorem locatedUnder_fits (t : Element) : ∀ u ∈ (locatedUnder fix t).units, Fits u.task := by
  induction t using Tree.induct with
  | leaf ref label => simp
  | node ref control children ih =>
    have read := locatedUnder_read fix ref control children
    generalize locatedUnder fix (.node ref control children) = reading at read ⊢
    intro u member
    cases read with
    | branching _ _ =>
      obtain ⟨reading,among,inside⟩ := mem_chain _ u member
      obtain ⟨child,listed,rfl⟩ := List.mem_map.mp among
      exact ih child listed u inside
    | grouped _ _ _ =>
      obtain ⟨group,_,made⟩ := List.mem_filterMap.mp member
      obtain ⟨t,built,rfl⟩ := Option.map_eq_some_iff.mp made
      exact taskOfGroup_fits fix ref control group t built
    | mixed _ =>
      rw [splitByPrerequisite] at member
      split at member
      · exact absurd member List.not_mem_nil
      · rename_i units _
        have tasks := leaveShared_tasks (builtUnits fix ref control units)
        have among : u.task ∈ (leaveShared (builtUnits fix ref control units)).map Located.task :=
          List.mem_map_of_mem member
        rw [tasks] at among
        obtain ⟨⟨t,elements⟩,listed,same⟩ := List.mem_map.mp among
        obtain ⟨group,_,made⟩ := List.mem_filterMap.mp listed
        obtain ⟨other,built,pair⟩ := Option.map_eq_some_iff.mp made
        injection pair with first _
        rw [← same,← first]
        exact taskOfGroup_fits fix ref control group other built
    | whole _ _ => exact wholeUnit_fits fix ref control children u member
    | declared _ _ _ => exact wholeUnit_fits fix ref control children u member

/-- The unit that a node of the plan belongs to can be announced, but for an id of 0. -/
theorem taskForNode_fits (tree : List Element) (name : String) (t : MissionTask)
    (found : taskForNode fix tree name = .ok (some t)) : Fits t := by
  unfold taskForNode at found
  by_cases bare : name = ""
  · rw [if_pos bare] at found
    cases found
  rw [if_neg bare] at found
  split at found
  · cases found
  · split at found
    · rename_i unit among
      injection found with found
      injection found with found
      obtain ⟨reading,listed,inside⟩ := mem_chain _ unit (List.mem_of_find?_eq_some among)
      obtain ⟨element,_,rfl⟩ := List.mem_map.mp listed
      rw [← found]
      exact locatedUnder_fits fix element unit inside
    · cases found
    · cases found

end
end AmigaFleet.Mission
