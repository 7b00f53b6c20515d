import Mathlib.Data.List.Basic

/-! Regular expressions as a backtracking matcher runs them: the first way that
succeeds, the longest one of a greedy star and the shortest one of a lazy star tried
first. Groups are numbered as they close. -/
namespace Lib

inductive Regex where
  | empty
  | one (p : Char → Bool)
  | star (greedy : Bool) (p : Char → Bool)
  | lineEnd
  | optional (r : Regex)
  | seq (first second : Regex)
  | group (r : Regex)

namespace Regex
variable {β : Type}

/-- As many as there are, then fewer. -/
def greedily (p : Char → Bool) (next : List Char → Option β) : List Char → Option β
  | [] => next []
  | c::rest => if p c then (greedily p next rest).or (next (c::rest)) else next (c::rest)

/-- None, then more. -/
def lazily (p : Char → Bool) (next : List Char → Option β) : List Char → Option β
  | [] => next []
  | c::rest => (next (c::rest)).or (if p c then lazily p next rest else none)

/-- The match of the expression here and of what comes next, from the groups so far. -/
def run : Regex → List (List Char) → (List (List Char) → List Char → Option β) → List Char → Option β
  | empty,groups,next,text => next groups text
  | one _,_,_,[] => none
  | one p,groups,next,c::rest => if p c then next groups rest else none
  | star true p,groups,next,text => greedily p (next groups) text
  | star false p,groups,next,text => lazily p (next groups) text
  | lineEnd,groups,next,text => if text.head?.all (· = '\n') then next groups text else none
  | optional r,groups,next,text => (run r groups next text).or (next groups text)
  | seq first second,groups,next,text => run first groups (fun groups rest => run second groups next rest) text
  | group r,groups,next,text =>
    run r groups (fun groups rest => next (groups ++ [text.take (text.length - rest.length)]) rest) text

/-- The groups of the match that begins here, and what is left. -/
def matchAt (r : Regex) (text : List Char) : Option (List (List Char) × List Char) :=
  run r [] (fun groups rest => some (groups,rest)) text

/-- `finditer`, within some number of steps. -/
def findFrom (r : Regex) : Nat → List Char → List (List (List Char))
  | 0,_ => []
  | n + 1,text =>
    match matchAt r text with
    | none => if text.isEmpty then [] else findFrom r n text.tail
    | some (groups,left) =>
      groups :: (if text.isEmpty then [] else findFrom r n (if left.length < text.length then left else text.tail))

def findAll (r : Regex) (text : List Char) : List (List (List Char)) := findFrom r (text.length + 1) text

/-- `sub` with nothing in place of a match, within some number of steps. -/
def eraseFrom (r : Regex) : Nat → List Char → List Char
  | 0,text => text
  | n + 1,text =>
    match matchAt r text with
    | none => text.take 1 ++ eraseFrom r n text.tail
    | some (_,left) => if left.length < text.length then eraseFrom r n left else text.take 1 ++ eraseFrom r n text.tail

def eraseAll (r : Regex) (text : List Char) : List Char := eraseFrom r text.length text

def char (c : Char) : Regex := one (· = c)

/-- A text, character by character. -/
def literal : List Char → Regex
  | [] => empty
  | c::rest => seq (char c) (literal rest)

def plus (p : Char → Bool) : Regex := seq (one p) (star true p)

/-- One after the other. -/
def inOrder (rs : List Regex) : Regex := rs.foldr seq empty

-- A greedy star gives back what the rest of the expression needs.
example : (matchAt (seq (star true fun _ => true) (char 'a')) ['a','a']).isSome = true := by
  simp [matchAt,run,greedily,char]

/-- What an expression takes of a text, with what is left after it. -/
def Takes : Regex → List Char → List Char → Prop
  | empty,taken,_ => taken = []
  | one p,taken,_ => ∃ c, p c = true ∧ taken = [c]
  | star _ p,taken,_ => ∀ c ∈ taken, p c = true
  | lineEnd,taken,rest => taken = [] ∧ ∀ c ∈ rest.head?, c = '\n'
  | optional r,taken,rest => Takes r taken rest ∨ taken = []
  | seq first second,taken,rest => ∃ front back, taken = front ++ back ∧ Takes first front (back ++ rest) ∧ Takes second back rest
  | group r,taken,rest => Takes r taken rest

theorem greedily_sound (p : Char → Bool) (next : List Char → Option β) (text : List Char) (result : β)
    (found : greedily p next text = some result) :
    ∃ taken rest, text = taken ++ rest ∧ (∀ c ∈ taken, p c = true) ∧ next rest = some result := by
  induction text with
  | nil => exact ⟨[],[],rfl,fun _ no => (List.not_mem_nil no).elim,found⟩
  | cons c rest ih =>
    have stopped (found : next (c::rest) = some result) : ∃ taken left, c::rest = taken ++ left ∧
        (∀ c ∈ taken, p c = true) ∧ next left = some result :=
      ⟨[],c::rest,rfl,fun _ no => (List.not_mem_nil no).elim,found⟩
    rw [greedily] at found
    split at found
    · rename_i more
      rcases Option.or_eq_some_iff.mp found with longer | ⟨_,here⟩
      · obtain ⟨taken,left,rfl,all,there⟩ := ih longer
        exact ⟨c::taken,left,rfl,List.forall_mem_cons.mpr ⟨more,all⟩,there⟩
      · exact stopped here
    · exact stopped found

theorem lazily_sound (p : Char → Bool) (next : List Char → Option β) (text : List Char) (result : β)
    (found : lazily p next text = some result) :
    ∃ taken rest, text = taken ++ rest ∧ (∀ c ∈ taken, p c = true) ∧ next rest = some result := by
  induction text with
  | nil => exact ⟨[],[],rfl,fun _ no => (List.not_mem_nil no).elim,found⟩
  | cons c rest ih =>
    rw [lazily] at found
    rcases Option.or_eq_some_iff.mp found with here | ⟨_,longer⟩
    · exact ⟨[],c::rest,rfl,fun _ no => (List.not_mem_nil no).elim,here⟩
    · split at longer
      · rename_i more
        obtain ⟨taken,left,rfl,all,there⟩ := ih longer
        exact ⟨c::taken,left,rfl,List.forall_mem_cons.mpr ⟨more,all⟩,there⟩
      · cases longer

/-- A match takes a front of the text, its groups are parts of that, and what comes
next succeeds on the rest. -/
theorem run_sound (r : Regex) (groups : List (List Char)) (next : List (List Char) → List Char → Option β)
    (text : List Char) (result : β) (found : run r groups next text = some result) :
    ∃ taken rest inner, text = taken ++ rest ∧ Takes r taken rest ∧ (∀ g ∈ inner, ∀ c ∈ g, c ∈ taken) ∧
      next (groups ++ inner) rest = some result := by
  have bare (taken : List Char) : ∀ g ∈ ([] : List (List Char)), ∀ c ∈ g, c ∈ taken :=
    fun _ no => (List.not_mem_nil no).elim
  induction r generalizing groups next text result with
  | empty => exact ⟨[],text,[],rfl,rfl,bare _,by rw [List.append_nil]; exact found⟩
  | one p =>
    cases text with
    | nil => cases found
    | cons c rest =>
      rw [run] at found
      split at found
      · rename_i fits
        exact ⟨[c],rest,[],rfl,⟨c,fits,rfl⟩,bare _,by simpa using found⟩
      · cases found
  | star greedy p =>
    cases greedy with
    | true =>
      obtain ⟨taken,rest,same,all,there⟩ := greedily_sound p _ text result found
      exact ⟨taken,rest,[],same,all,bare _,by simpa using there⟩
    | false =>
      obtain ⟨taken,rest,same,all,there⟩ := lazily_sound p _ text result found
      exact ⟨taken,rest,[],same,all,bare _,by simpa using there⟩
  | lineEnd =>
    rw [run] at found
    split at found
    · rename_i ends
      exact ⟨[],text,[],rfl,⟨rfl,fun c here => by rw [Option.mem_def.mp here] at ends; simpa using ends⟩,bare _,by simpa using found⟩
    · cases found
  | optional r ih =>
    rcases Option.or_eq_some_iff.mp found with there | ⟨_,here⟩
    · obtain ⟨taken,rest,inner,same,takes,parts,next_⟩ := ih _ _ _ _ there
      exact ⟨taken,rest,inner,same,.inl takes,parts,next_⟩
    · exact ⟨[],text,[],rfl,.inr rfl,bare _,by simpa using here⟩
  | seq first second ihf ihs =>
    obtain ⟨front,rest,inner,rfl,takes,parts,found⟩ := ihf _ _ _ _ found
    obtain ⟨back,left,more,rfl,takes',parts',there⟩ := ihs _ _ _ _ found
    refine ⟨front ++ back,left,inner ++ more,by rw [List.append_assoc],⟨front,back,rfl,takes,takes'⟩,?_,by rwa [← List.append_assoc]⟩
    intro g member c inside
    rcases List.mem_append.mp member with one | other
    · exact List.mem_append_left _ (parts g one c inside)
    · exact List.mem_append_right _ (parts' g other c inside)
  | group r ih =>
    obtain ⟨taken,rest,inner,rfl,takes,parts,there⟩ := ih _ _ _ _ found
    rw [List.length_append,Nat.add_sub_cancel,List.take_left] at there
    refine ⟨taken,rest,inner ++ [taken],rfl,takes,?_,by rwa [← List.append_assoc]⟩
    intro g member c inside
    rcases List.mem_append.mp member with one | last
    · exact parts g one c inside
    · rw [List.mem_singleton.mp last] at inside
      exact inside

/-- A greedy star goes to where it has to stop, if what comes next succeeds there. -/
theorem greedily_run (p : Char → Bool) (next : List Char → Option β) (taken rest : List Char)
    (all : ∀ c ∈ taken, p c = true) (stop : ∀ c ∈ rest.head?, p c = false) (found : (next rest).isSome = true) :
    greedily p next (taken ++ rest) = next rest := by
  induction taken with
  | nil =>
    cases rest with
    | nil => rfl
    | cons c rest => rw [List.nil_append,greedily,if_neg (by simp [stop c rfl])]
  | cons c taken ih =>
    rw [List.forall_mem_cons] at all
    rw [List.cons_append,greedily,if_pos all.1,ih all.2]
    exact Option.or_of_isSome found

/-- A lazy star goes to the first place where what comes next succeeds. -/
theorem lazily_run (p : Char → Bool) (next : List Char → Option β) (taken rest : List Char)
    (all : ∀ c ∈ taken, p c = true)
    (fails : ∀ before after, taken = before ++ after → after ≠ [] → next (after ++ rest) = none) :
    lazily p next (taken ++ rest) = lazily p next rest := by
  induction taken with
  | nil => rfl
  | cons c taken ih =>
    rw [List.forall_mem_cons] at all
    have here := fails [] (c::taken) rfl (List.cons_ne_nil _ _)
    rw [List.cons_append] at here ⊢
    rw [lazily,here,Option.none_or,if_pos all.1]
    exact ih all.2 (fun before after same => fails (c::before) after (by rw [same,List.cons_append]))

theorem lazily_found (p : Char → Bool) (next : List Char → Option β) (text : List Char) (found : (next text).isSome = true) :
    lazily p next text = next text := by
  cases text with
  | nil => rfl
  | cons c rest => exact Option.or_of_isSome found

theorem run_seq (first second : Regex) (groups : List (List Char)) (next : List (List Char) → List Char → Option β)
    (text : List Char) :
    run (seq first second) groups next text = run first groups (fun groups rest => run second groups next rest) text := by
  rw [run]

theorem run_literal (word : List Char) (groups : List (List Char)) (next : List (List Char) → List Char → Option β)
    (rest : List Char) : run (literal word) groups next (word ++ rest) = next groups rest := by
  induction word with
  | nil => rfl
  | cons c word ih =>
    rw [literal,run,char,List.cons_append,run,if_pos (by simp)]
    exact ih

theorem run_star (p : Char → Bool) (groups : List (List Char)) (next : List (List Char) → List Char → Option β)
    (taken rest : List Char) (result : β) (all : ∀ c ∈ taken, p c = true) (stop : ∀ c ∈ rest.head?, p c = false)
    (found : next groups rest = some result) : run (star true p) groups next (taken ++ rest) = some result :=
  (greedily_run p _ taken rest all stop (Option.isSome_of_eq_some found)).trans found

theorem run_plus (p : Char → Bool) (groups : List (List Char)) (next : List (List Char) → List Char → Option β)
    (taken rest : List Char) (result : β) (some_ : taken ≠ []) (all : ∀ c ∈ taken, p c = true)
    (stop : ∀ c ∈ rest.head?, p c = false) (found : next groups rest = some result) :
    run (plus p) groups next (taken ++ rest) = some result := by
  cases taken with
  | nil => exact absurd rfl some_
  | cons c taken =>
    rw [List.forall_mem_cons] at all
    rw [plus,run,List.cons_append,run,if_pos all.1]
    exact run_star p groups next taken rest result all.2 stop found

theorem run_char (c : Char) (groups : List (List Char)) (next : List (List Char) → List Char → Option β)
    (rest : List Char) : run (char c) groups next (c::rest) = next groups rest := by
  rw [char,run,if_pos (by simp)]

theorem run_char_other (c : Char) (groups : List (List Char)) (next : List (List Char) → List Char → Option β)
    (text : List Char) (other : ∀ d ∈ text.head?, d ≠ c) : run (char c) groups next text = none := by
  cases text with
  | nil => rfl
  | cons d rest => rw [char,run,if_neg (by simpa using other d rfl)]

theorem run_group (r : Regex) (groups : List (List Char)) (next : List (List Char) → List Char → Option β)
    (taken rest : List Char) (result : β)
    (run_ : ∀ next : List (List Char) → List Char → Option β, next groups rest = some result →
      run r groups next (taken ++ rest) = some result) (found : next (groups ++ [taken]) rest = some result) :
    run (group r) groups next (taken ++ rest) = some result := by
  have cut : (taken ++ rest).take ((taken ++ rest).length - rest.length) = taken := by simp
  rw [run]
  exact run_ _ (by rw [cut,found])

/-- A lazy group up to a character that is not in it. -/
theorem run_lazy_group (p : Char → Bool) (c : Char) (groups : List (List Char))
    (next : List (List Char) → List Char → Option β) (taken rest : List Char) (result : β) (all : ∀ d ∈ taken, p d = true)
    (outside : c ∉ taken) (found : next (groups ++ [taken]) rest = some result) :
    run (group (star false p)) groups (fun groups text => run (char c) groups next text) (taken ++ c :: rest) =
      some result := by
  have cut : (taken ++ c :: rest).take ((taken ++ c :: rest).length - (c :: rest).length) = taken := by simp
  rw [run,run,lazily_run p _ taken (c::rest) all (fun before after same some_ => ?_)]
  · have here := run_char c (groups ++ [taken]) next rest
    refine (lazily_found p _ _ ?_).trans ?_
    · rw [cut,here,found]
      rfl
    · rw [cut,here,found]
  · refine run_char_other c _ _ _ (fun d first => ?_)
    rw [List.head?_append,List.head?_eq_some_head some_] at first
    rintro rfl
    exact outside (same ▸ List.mem_append_right _ (Option.some.inj first ▸ List.head_mem some_))

theorem matchAt_sound (r : Regex) (text : List Char) (groups : List (List Char)) (left : List Char)
    (found : matchAt r text = some (groups,left)) :
    ∃ taken, text = taken ++ left ∧ Takes r taken left ∧ ∀ g ∈ groups, ∀ c ∈ g, c ∈ taken := by
  obtain ⟨taken,rest,inner,same,takes,parts,there⟩ := run_sound r [] _ text _ found
  cases there
  exact ⟨taken,same,takes,parts⟩

theorem findFrom_skip (r : Regex) (n : Nat) (c : Char) (rest : List Char) (none_ : matchAt r (c::rest) = none) :
    findFrom r (n + 1) (c::rest) = findFrom r n rest := by
  simp only [findFrom,none_]
  rfl

/-- Where no match begins within a front of the text, the search goes past it. -/
theorem findFrom_past (r : Regex) (front rest : List Char)
    (none_ : ∀ before after, front = before ++ after → after ≠ [] → matchAt r (after ++ rest) = none) (n : Nat) :
    findFrom r (front.length + n) (front ++ rest) = findFrom r n rest := by
  induction front with
  | nil => rw [List.length_nil,Nat.zero_add,List.nil_append]
  | cons c front ih =>
    rw [List.length_cons,Nat.add_right_comm,List.cons_append]
    refine (findFrom_skip r _ c _ (none_ [] (c::front) rfl (List.cons_ne_nil _ _))).trans ?_
    exact ih (fun before after same => none_ (c::before) after (by rw [same,List.cons_append]))

theorem findFrom_match (r : Regex) (n : Nat) (taken left : List Char) (groups : List (List Char)) (some_ : taken ≠ [])
    (found : matchAt r (taken ++ left) = some (groups,left)) :
    findFrom r (n + 1) (taken ++ left) = groups :: findFrom r n left := by
  have longer : left.length < (taken ++ left).length := by
    rw [List.length_append]
    have := List.length_pos_iff.mpr some_
    omega
  have full : (taken ++ left).isEmpty = false := by simp [some_]
  simp only [findFrom,found,full,longer,if_true]
  rfl

/-- More steps than the text has characters find the same. -/
theorem findFrom_enough (r : Regex) (n m : Nat) (text : List Char) (first : text.length < n) (second : text.length < m) :
    findFrom r n text = findFrom r m text := by
  induction n generalizing m text with
  | zero => omega
  | succ n ih =>
    cases m with
    | zero => omega
    | succ m =>
      have step (left : List Char) (short : left.length < text.length) : findFrom r n left = findFrom r m left :=
        ih m left (by omega) (by omega)
      have tail (some_ : text.isEmpty ≠ true) : text.tail.length < text.length := by
        have := List.length_pos_iff.mpr (fun none_ => some_ (List.isEmpty_iff.mpr none_))
        rw [List.length_tail]
        omega
      rw [findFrom,findFrom]
      split
      · split
        · rfl
        · rename_i some_
          exact step _ (tail some_)
      · congr 1
        split
        · rfl
        · rename_i some_
          split
          · rename_i short
            exact step _ short
          · exact step _ (tail some_)

/-- What is found is made of characters of the text. -/
theorem findFrom_parts (r : Regex) (n : Nat) (text : List Char) :
    ∀ groups ∈ findFrom r n text, ∀ g ∈ groups, ∀ c ∈ g, c ∈ text := by
  induction n generalizing text with
  | zero => exact fun _ no => (List.not_mem_nil no).elim
  | succ n ih =>
    intro groups member g inside c held
    rw [findFrom] at member
    split at member
    · split at member
      · cases member
      · exact List.mem_of_mem_tail (ih _ groups member g inside c held)
    · rename_i here left found
      obtain ⟨taken,same,_,parts⟩ := matchAt_sound r text here left found
      rcases List.mem_cons.mp member with this | later
      · rw [same]
        exact List.mem_append_left _ (parts g (this ▸ inside) c held)
      · split at later
        · cases later
        · split at later
          · rw [same]
            exact List.mem_append_right _ (ih left groups later g inside c held)
          · exact List.mem_of_mem_tail (ih _ groups later g inside c held)

theorem findAll_past (r : Regex) (front rest : List Char)
    (none_ : ∀ before after, front = before ++ after → after ≠ [] → matchAt r (after ++ rest) = none) :
    findAll r (front ++ rest) = findAll r rest := by
  rw [findAll,List.length_append,Nat.add_assoc]
  exact findFrom_past r front rest none_ _

theorem findAll_skip (r : Regex) (c : Char) (rest : List Char) (none_ : matchAt r (c::rest) = none) :
    findAll r (c::rest) = findAll r rest :=
  findFrom_skip r _ c rest none_

theorem findAll_match (r : Regex) (taken left : List Char) (groups : List (List Char)) (some_ : taken ≠ [])
    (found : matchAt r (taken ++ left) = some (groups,left)) : findAll r (taken ++ left) = groups :: findAll r left := by
  rw [findAll,findFrom_match r _ taken left groups some_ found]
  congr 1
  refine findFrom_enough r _ _ left ?_ (Nat.lt_succ_self _)
  have := List.length_pos_iff.mpr some_
  rw [List.length_append]
  omega

theorem eraseFrom_enough (r : Regex) (n m : Nat) (text : List Char) (first : text.length ≤ n) (second : text.length ≤ m) :
    eraseFrom r n text = eraseFrom r m text := by
  have none_ (k : Nat) : eraseFrom r k [] = [] := by
    induction k with
    | zero => rfl
    | succ k ih =>
      rw [eraseFrom]
      split
      · exact ih
      · rw [if_neg (by simp)]
        exact ih
  induction n generalizing m text with
  | zero =>
    obtain rfl := List.length_eq_zero_iff.mp (Nat.le_zero.mp first)
    rw [none_,none_]
  | succ n ih =>
    cases m with
    | zero =>
      obtain rfl := List.length_eq_zero_iff.mp (Nat.le_zero.mp second)
      rw [none_,none_]
    | succ m =>
      have tail : eraseFrom r n text.tail = eraseFrom r m text.tail :=
        ih m text.tail (by rw [List.length_tail]; omega) (by rw [List.length_tail]; omega)
      rw [eraseFrom,eraseFrom]
      split
      · rw [tail]
      · split
        · exact ih m _ (by omega) (by omega)
        · rw [tail]

theorem eraseAll_cons (r : Regex) (c : Char) (rest : List Char) (none_ : matchAt r (c::rest) = none) :
    eraseAll r (c::rest) = c :: eraseAll r rest := by
  rw [eraseAll,List.length_cons,eraseFrom,none_]
  rfl

theorem eraseAll_match (r : Regex) (taken left : List Char) (groups : List (List Char)) (some_ : taken ≠ [])
    (found : matchAt r (taken ++ left) = some (groups,left)) : eraseAll r (taken ++ left) = eraseAll r left := by
  have more := List.length_pos_iff.mpr some_
  have size : (taken ++ left).length = taken.length - 1 + left.length + 1 := by
    rw [List.length_append]
    omega
  rw [eraseAll,size,eraseFrom,found]
  dsimp only
  rw [if_pos (by omega)]
  exact eraseFrom_enough r _ _ left (by omega) (Nat.le_refl _)

theorem takes_literal (word taken rest : List Char) (takes : Takes (literal word) taken rest) : taken = word := by
  induction word generalizing taken with
  | nil => exact takes
  | cons c word ih =>
    obtain ⟨front,back,rfl,⟨d,same,rfl⟩,later⟩ := takes
    rw [ih back later,of_decide_eq_true same]
    rfl

/-- A match begins with the first character of a word. -/
theorem matchAt_word (word : List Char) (c : Char) (more : Regex) (d : Char) (rest : List Char) (other : d ≠ c) :
    matchAt (seq (literal (c::word)) more) (d::rest) = none := by
  rw [matchAt,run,literal,run,char,run,if_neg (by simpa using other)]

end Regex
end Lib
