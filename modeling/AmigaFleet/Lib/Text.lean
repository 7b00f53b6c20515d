import Mathlib.Data.List.Basic

/-! Python's `str.strip` and `int` on text, over Unicode white space and the
Unicode decimal digits. -/
namespace Lib.Text

def isSpace (c : Char) : Bool :=
  c.toNat ∈ [9,10,11,12,13,28,29,30,31,32,133,160,5760,8192,8193,8194,8195,8196,8197,8198,8199,8200,
    8201,8202,8232,8233,8239,8287,12288]

def strip (s : String) : String :=
  String.ofList ((s.toList.dropWhile isSpace).reverse.dropWhile isSpace).reverse

/-- The code points of the decimal digit zero; the other nine digits follow each. -/
def zeros : List Nat :=
  [48,1632,1776,1984,2406,2534,2662,2790,2918,3046,3174,3302,3430,3558,3664,3792,3872,4160,4240,6112,6160,
    6470,6608,6784,6800,6992,7088,7232,7248,42528,43216,43264,43472,43504,43600,44016,65296,66720,68912,
    69734,69872,69942,70096,70384,70736,70864,71248,71360,71472,71904,72016,72784,73040,73120,92768,92864,
    93008,120782,120792,120802,120812,120822,123200,123632,125264,130032]

def digit (c : Char) : Option Nat :=
  (zeros.find? (fun start => start ≤ c.toNat && c.toNat < start + 10)).map (fun start => c.toNat - start)

/-- Digits, with single underscores between them. -/
def numeral (n : Nat) : List Char → Option Nat
  | [] => some n
  | c::rest =>
    if c = '_' then
      match rest with
      | [] => none
      | d::rest => (digit d).bind (fun value => numeral (n*10 + value) rest)
    else (digit c).bind (fun value => numeral (n*10 + value) rest)

def natural : List Char → Option Nat
  | [] => none
  | c::rest => (digit c).bind (fun value => numeral value rest)

/-- `int(text)`; `none` where it raises `ValueError`. -/
def int (s : String) : Option Int :=
  match (strip s).toList with
  | '-'::rest => (natural rest).map (fun n => -(n : Int))
  | '+'::rest => (natural rest).map (fun n => (n : Int))
  | text => (natural text).map (fun n => (n : Int))

/-- `text.strip().lower() == "true"`. Only the eight ASCII letters lower to these. -/
def isTrue (s : String) : Bool := (strip s).toList.map Char.toLower = ['t','r','u','e']

example : int " 1_0 " = some 10 := by decide

/-- `str.lower` and `str.upper`, as far as an ASCII word can tell: the Kelvin sign
lowers to a `k`, and the dotless i and the long s have ASCII capitals. -/
def lower (s : String) : String :=
  String.ofList (s.toList.map (fun c => if c.toNat = 8490 then 'k' else c.toLower))

def upper (s : String) : String :=
  String.ofList (s.toList.map (fun c =>
    if c.toNat = 305 then 'I' else if c.toNat = 383 then 'S' else c.toUpper))

/-- `word in text`. -/
def contains (text word : String) : Bool := text.toList.tails.any (fun rest => word.toList.isPrefixOf rest)

/-- No white space at either end. -/
def Trimmed (s : String) : Prop :=
  (∀ c ∈ s.toList.head?, isSpace c = false) ∧ ∀ c ∈ s.toList.getLast?, isSpace c = false

theorem trimmed_of (s : String) (c d : Char) (first : s.toList.head? = some c) (last : s.toList.getLast? = some d)
    (front : isSpace c = false) (back : isSpace d = false) : Trimmed s := by
  constructor
  · intro e member
    rw [first,Option.mem_some_iff] at member
    exact member ▸ front
  · intro e member
    rw [last,Option.mem_some_iff] at member
    exact member ▸ back

theorem dropWhile_trimmed (cs : List Char) (c : Char) (first : c ∈ (cs.dropWhile isSpace).head?) :
    isSpace c = false := by
  have spec := List.head?_dropWhile_not isSpace cs
  rw [Option.mem_def.mp first] at spec
  simpa using spec

theorem dropWhile_getLast (p : Char → Bool) (cs : List Char) (c : Char)
    (last : c ∈ (cs.dropWhile p).getLast?) : c ∈ cs.getLast? := by
  have split := List.takeWhile_append_dropWhile (p := p) (l := cs)
  rw [← split,List.getLast?_append,Option.mem_def.mp last]
  rfl

theorem strip_trimmed (s : String) : Trimmed (strip s) := by
  refine ⟨fun c first => ?_,fun c last => ?_⟩
  · rw [strip,String.toList_ofList,List.head?_reverse] at first
    have whole := dropWhile_getLast _ _ c first
    rw [List.getLast?_reverse] at whole
    exact dropWhile_trimmed _ c whole
  · rw [strip,String.toList_ofList,List.getLast?_reverse] at last
    exact dropWhile_trimmed _ c last

theorem dropWhile_start (cs : List Char) (start : ∀ c ∈ cs.head?, isSpace c = false) : cs.dropWhile isSpace = cs := by
  cases cs with
  | nil => rfl
  | cons c rest => exact List.dropWhile_cons_of_neg (by simp [start c rfl])

theorem strip_of_trimmed (s : String) (trimmed : Trimmed s) : strip s = s := by
  rw [strip,dropWhile_start _ trimmed.1,dropWhile_start _ (by simpa using trimmed.2),List.reverse_reverse,
    String.ofList_toList]

theorem strip_subset (s : String) (c : Char) (member : c ∈ (strip s).toList) : c ∈ s.toList := by
  rw [strip,String.toList_ofList,List.mem_reverse] at member
  exact (List.dropWhile_sublist _).subset (List.mem_reverse.mp ((List.dropWhile_sublist _).subset member))

/-- White space around a text is what is stripped. -/
theorem strip_between (s : String) (front back : List Char) (trimmed : Trimmed s) (some : s ≠ "")
    (before : ∀ c ∈ front, isSpace c = true) (after : ∀ c ∈ back, isSpace c = true) :
    strip (String.ofList (front ++ (s.toList ++ back))) = s := by
  have full : s.toList ≠ [] := by simpa using some
  rw [strip,String.toList_ofList,List.dropWhile_append_of_pos before,dropWhile_start (s.toList ++ back),
    List.reverse_append,List.dropWhile_append_of_pos (by simpa using after),dropWhile_start s.toList.reverse,
    List.reverse_reverse,String.ofList_toList]
  · simpa using trimmed.2
  · intro c first
    rw [List.head?_append,List.head?_eq_some_head full] at first
    refine trimmed.1 c ?_
    rw [List.head?_eq_some_head full]
    exact first

theorem trimmed_between (first mid last : String) (start : Trimmed first) (stop : Trimmed last)
    (some : first ≠ "") (more : last ≠ "") : Trimmed (first ++ mid ++ last) := by
  refine ⟨fun c found => start.1 c ?_,fun c found => stop.2 c ?_⟩
  · have full : first.toList ≠ [] := by simpa using some
    simpa [String.toList_append,List.head?_append,List.head?_eq_some_head full] using found
  · have full : last.toList ≠ [] := by simpa using more
    simpa [String.toList_append,List.getLast?_append,List.getLast?_eq_some_getLast full] using found

theorem isSpace_digit (c : Char) (digit : c.isDigit = true) : isSpace c = false := by
  simp only [Char.isDigit,Bool.and_eq_true,decide_eq_true_eq,ge_iff_le,UInt32.le_iff_toNat_le] at digit
  change 48 ≤ c.toNat ∧ c.toNat ≤ 57 at digit
  simp only [isSpace,List.mem_cons,List.not_mem_nil,or_false,decide_eq_false_iff_not]
  omega

theorem repr_digits (n : Nat) : ∀ c ∈ n.repr.toList, c.isDigit = true := by
  intro c member
  rw [Nat.toList_repr] at member
  exact Nat.isDigit_of_mem_toDigits (by decide) (by decide) member

theorem repr_trimmed (n : Nat) : Trimmed n.repr := by
  have plain (c : Char) (member : c ∈ n.repr.toList) : isSpace c = false := isSpace_digit c (repr_digits n c member)
  exact ⟨fun c first => plain c (List.mem_of_mem_head? first),fun c last => plain c (List.mem_of_mem_getLast? last)⟩

theorem digit_isDigit (c : Char) (ascii : c.isDigit = true) : digit c = some (c.toNat - 48) := by
  simp only [Char.isDigit,Bool.and_eq_true,decide_eq_true_eq,ge_iff_le,UInt32.le_iff_toNat_le] at ascii
  change 48 ≤ c.toNat ∧ c.toNat ≤ 57 at ascii
  rw [digit,zeros,List.find?_cons_of_pos (by simp; omega)]
  rfl

/-- The digits of a numeral are read as its number. -/
theorem foldl_repr (n : Nat) : n.repr.toList.foldl (fun n c => n*10 + (digit c).getD 0) 0 = n := by
  have same (cs : List Char) (all : ∀ c ∈ cs, c.isDigit = true) (m : Nat) :
      cs.foldl (fun n c => n*10 + (digit c).getD 0) m = Nat.ofDigitChars 10 cs m := by
    induction cs generalizing m with
    | nil => rfl
    | cons c cs ih =>
      rw [List.forall_mem_cons] at all
      rw [List.foldl_cons,ih all.2,Nat.ofDigitChars_cons,digit_isDigit c all.1,Nat.mul_comm]
      rfl
  rw [same _ (repr_digits n),Nat.toList_repr,Nat.ofDigitChars_ten_toDigits]

theorem numeral_foldl (cs : List Char) (all : ∀ c ∈ cs, c.isDigit = true) (n : Nat) :
    numeral n cs = some (cs.foldl (fun n c => n*10 + (digit c).getD 0) n) := by
  induction cs generalizing n with
  | nil => rfl
  | cons c cs ih =>
    rw [List.forall_mem_cons] at all
    have other : c ≠ '_' := by
      rintro rfl
      exact absurd all.1 (by decide)
    rw [numeral.eq_def]
    simp only [if_neg other,digit_isDigit c all.1,Option.bind_some,List.foldl_cons,Option.getD_some]
    exact ih all.2 _

theorem repr_ne (n : Nat) : n.repr ≠ "" := by
  intro none
  have digits := Nat.toList_repr (n := n)
  rw [none] at digits
  exact Nat.toDigits_ne_nil digits.symm

theorem int_repr (n : Nat) : int n.repr = some (n : Int) := by
  have all := repr_digits n
  have value := foldl_repr n
  rw [int,strip_of_trimmed _ (repr_trimmed n)]
  cases digits : n.repr.toList with
  | nil => exact absurd (String.toList_eq_nil_iff.mp digits) (repr_ne n)
  | cons c rest =>
    rw [digits] at all value
    rw [List.forall_mem_cons] at all
    have read : natural (c::rest) = some n := by
      rw [natural,digit_isDigit c all.1,Option.bind_some,numeral_foldl rest all.2]
      rw [List.foldl_cons,digit_isDigit c all.1] at value
      simpa using value
    split
    · rename_i same
      cases same
      exact absurd all.1 (by decide)
    · rename_i same
      cases same
      exact absurd all.1 (by decide)
    · rw [read]
      rfl

/-- Words, a space and a number. -/
theorem numbered_trimmed (words : String) (n : Int) (trimmed : Trimmed words) (some : words ≠ "") :
    Trimmed (words ++ " " ++ toString n) := by
  cases n with
  | ofNat m => exact trimmed_between words " " m.repr trimmed (repr_trimmed m) some (repr_ne m)
  | negSucc m =>
    have same : words ++ " " ++ toString (Int.negSucc m) = words ++ " -" ++ (m + 1).repr := by
      change words ++ " " ++ ("-" ++ (m + 1).repr) = _
      simp only [← String.append_assoc]
      congr 1
      simp [String.append_assoc]
    rw [same]
    exact trimmed_between words " -" (m + 1).repr trimmed (repr_trimmed _) some (repr_ne _)

end Lib.Text
