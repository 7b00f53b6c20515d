import AmigaFleet.Lib.Text

/-! Python's `str.split` and `str.splitlines`, and a text put on one line: its words
with one blank between them, which split into the same words again. -/
namespace Lib.Words
open Text (isSpace strip Trimmed)

/-- The words of a text, where some characters of the first are already read. -/
def wordsFrom (word : List Char) : List Char → List (List Char)
  | [] => if word = [] then [] else [word]
  | c::rest =>
    if isSpace c then (if word = [] then wordsFrom [] rest else word :: wordsFrom [] rest)
    else wordsFrom (word ++ [c]) rest

/-- `text.split()`. -/
def words (text : List Char) : List (List Char) := wordsFrom [] text

/-- `" ".join(words)`. -/
def joined : List (List Char) → List Char
  | [] => []
  | [word] => word
  | word::rest => word ++ ' ' :: joined rest

/-- `" ".join(text.split()).strip()`. -/
def oneLine (text : String) : String := strip (String.ofList (joined (words text.toList)))

def isBreak (c : Char) : Bool := c.toNat ∈ [10,11,12,13,28,29,30,133,8232,8233]

/-- The lines of a text, where some characters of the first are already read. A carriage
return before a line feed breaks no line of its own. -/
def linesFrom (line : List Char) : List Char → List (List Char)
  | [] => if line = [] then [] else [line]
  | c::rest =>
    if c = '\r' ∧ rest.head? = some '\n' then linesFrom line rest
    else if isBreak c then line :: linesFrom [] rest
    else linesFrom (line ++ [c]) rest

/-- `text.splitlines()`. -/
def lines (text : String) : List String := (linesFrom [] text.toList).map String.ofList

def rstrip (text : String) : String := String.ofList (text.toList.reverse.dropWhile isSpace).reverse

def startsWith (text word : String) : Bool := word.toList.isPrefixOf text.toList

def endsWith (text word : String) : Bool := word.toList.isSuffixOf text.toList

/-- Some characters, none of them white. -/
def Word (word : List Char) : Prop := word ≠ [] ∧ ∀ c ∈ word, isSpace c = false

theorem wordsFrom_word (text word : List Char) (plain : ∀ c ∈ word, isSpace c = false) :
    ∀ w ∈ wordsFrom word text, Word w := by
  induction text generalizing word with
  | nil =>
    intro w member
    rw [wordsFrom] at member
    split at member
    · cases member
    · rename_i some
      rw [List.mem_singleton.mp member]
      exact ⟨some,plain⟩
  | cons c rest ih =>
    intro w member
    rw [wordsFrom] at member
    split at member
    · split at member
      · exact ih [] (by simp) w member
      rename_i some
      obtain rfl | later := List.mem_cons.mp member
      · exact ⟨some,plain⟩
      · exact ih [] (by simp) w later
    rename_i dark
    refine ih (word ++ [c]) (fun d inside => ?_) w member
    obtain old | new := List.mem_append.mp inside
    · exact plain d old
    · rw [List.mem_singleton.mp new]
      simpa using dark

theorem words_word (text : List Char) : ∀ w ∈ words text, Word w := wordsFrom_word text [] (by simp)

theorem wordsFrom_append (word plain rest : List Char) (dark : ∀ c ∈ plain, isSpace c = false) :
    wordsFrom word (plain ++ rest) = wordsFrom (word ++ plain) rest := by
  induction plain generalizing word with
  | nil => rw [List.nil_append,List.append_nil]
  | cons c plain ih =>
    rw [List.forall_mem_cons] at dark
    rw [List.cons_append,wordsFrom,if_neg (by simp [dark.1]),ih (word ++ [c]) dark.2,List.append_assoc,
      List.singleton_append]

theorem words_joined (ws : List (List Char)) (all : ∀ w ∈ ws, Word w) : words (joined ws) = ws := by
  induction ws with
  | nil => rfl
  | cons w ws ih =>
    rw [List.forall_mem_cons] at all
    cases ws with
    | nil =>
      have read := wordsFrom_append [] w [] all.1.2
      rw [List.append_nil,List.nil_append] at read
      rw [joined,words,read,wordsFrom,if_neg all.1.1]
    | cons next rest =>
      have later := ih all.2
      rw [joined,words,wordsFrom_append [] w _ all.1.2,List.nil_append,wordsFrom,if_pos (by decide),if_neg all.1.1]
      · exact congrArg (w :: ·) later
      · simp

theorem mem_joined (ws : List (List Char)) (c : Char) (member : c ∈ joined ws) : c = ' ' ∨ ∃ w ∈ ws, c ∈ w := by
  induction ws with
  | nil => cases member
  | cons w ws ih =>
    cases ws with
    | nil => exact .inr ⟨w,List.mem_cons_self,member⟩
    | cons next rest =>
      rw [joined,List.mem_append,List.mem_cons] at member
      · obtain here | rfl | later := member
        · exact .inr ⟨w,List.mem_cons_self,here⟩
        · exact .inl rfl
        · exact (ih later).imp_right (fun ⟨v,inside,of⟩ => ⟨v,List.mem_cons_of_mem w inside,of⟩)
      · simp

theorem joined_ends (ws : List (List Char)) (all : ∀ w ∈ ws, Word w) :
    (∀ c ∈ (joined ws).head?, isSpace c = false) ∧ ∀ c ∈ (joined ws).getLast?, isSpace c = false := by
  induction ws with
  | nil => simp [joined]
  | cons w ws ih =>
    rw [List.forall_mem_cons] at all
    have first : ∀ c ∈ w.head?, isSpace c = false := fun c found => all.1.2 c (List.mem_of_mem_head? found)
    cases ws with
    | nil => exact ⟨first,fun c found => all.1.2 c (List.mem_of_mem_getLast? found)⟩
    | cons next rest =>
      rw [joined]
      · refine ⟨fun c found => first c ?_,fun c found => (ih all.2).2 c ?_⟩
        · rw [List.head?_append,List.head?_eq_some_head all.1.1] at found
          rw [List.head?_eq_some_head all.1.1]
          exact found
        · have full : joined (next :: rest) ≠ [] := by
            intro none_
            have split := words_joined (next :: rest) all.2
            rw [none_] at split
            cases split
          rw [List.getLast?_append,List.getLast?_cons,List.getLast?_eq_some_getLast full] at found
          rw [List.getLast?_eq_some_getLast full]
          exact found
      · simp

theorem oneLine_toList (text : String) : (oneLine text).toList = joined (words text.toList) := by
  have ends := joined_ends (words text.toList) (words_word text.toList)
  rw [oneLine,Text.strip_of_trimmed _ ⟨by simpa using ends.1,by simpa using ends.2⟩,String.toList_ofList]

theorem words_oneLine (text : String) : words (oneLine text).toList = words text.toList := by
  rw [oneLine_toList,words_joined _ (words_word _)]

theorem oneLine_oneLine (text : String) : oneLine (oneLine text) = oneLine text := by
  rw [oneLine,words_oneLine]
  rfl

theorem oneLine_blank (text : String) (c : Char) (member : c ∈ (oneLine text).toList) (white : isSpace c = true) :
    c = ' ' := by
  rw [oneLine_toList] at member
  obtain rfl | ⟨w,word,inside⟩ := mem_joined _ c member
  · rfl
  · rw [(words_word _ w word).2 c inside] at white
    cases white

end Lib.Words
