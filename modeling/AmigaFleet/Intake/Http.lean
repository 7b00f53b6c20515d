import AmigaFleet.Lib.Search
import AmigaFleet.Lib.Socket
import Mathlib.Algebra.Group.Nat.Defs
import Mathlib.Algebra.Group.Int.Defs
import Mathlib.Data.List.TakeWhile

/-! Answers of the planner server, read by hand over a plain socket. The headers
are searched again after every piece that arrives. -/
namespace AmigaFleet.Intake
open Lib Lib.Socket Lib.Search

abbrev Text : Type := List UInt8

def crlf : Text := [13,10]

def blankLine : Text := [13,10,13,10]

/-- `content-length:`. -/
def contentLengthKey : Text := [0x63,0x6F,0x6E,0x74,0x65,0x6E,0x74,0x2D,0x6C,0x65,0x6E,0x67,0x74,0x68,0x3A]

/-- `tolower`, in the C locale. -/
def toLower (text : Text) : Text := text.map (fun byte => if 0x41 ≤ byte ∧ byte ≤ 0x5A then byte + 0x20 else byte)

/-- `isspace`, in the C locale. -/
def isSpace (byte : UInt8) : Bool := byte = 0x20 ∨ 9 ≤ byte ∧ byte ≤ 13

def isDigit (byte : UInt8) : Bool := 0x30 ≤ byte ∧ byte ≤ 0x39

def isBlank (byte : UInt8) : Bool := byte = 0x20 ∨ byte = 9

def decimal (digits : Text) : Nat := digits.foldl (fun n byte => 10*n + (byte.toNat - 0x30)) 0

/-- A sign and the digits after it: whether it is a minus, and what they say. -/
def signedDigits (text : Text) : Option (Bool × Nat) :=
  let (minus,text) := match text with
    | 0x2D::rest => (true,rest)
    | 0x2B::rest => (false,rest)
    | rest => (false,rest)
  let digits := text.takeWhile isDigit
  if digits = [] then none else some (minus,decimal digits)

/-- `std::stoul`, nothing where it throws. -/
def stoul (text : Text) : Option Nat :=
  match signedDigits (text.dropWhile isSpace) with
  | none => none
  | some (minus,n) => if 2^64 ≤ n then none else some (if minus then (2^64 - n) % 2^64 else n)

/-- `status_line >> http_version >> status_code`. -/
def statusCodeOf (line : Text) : Int :=
  let line := line.dropWhile isSpace
  if line = [] then 0
  else
    match signedDigits ((line.dropWhile (fun byte => !isSpace byte)).dropWhile isSpace) with
    | none => 0
    | some (minus,n) => if minus then max (-2^31) (-n) else min (2^31 - 1) n

structure ParsedHeaders where
  complete : Bool := false
  statusCode : Int := 0
  contentLength : Option Nat := none
  headerEnd : Nat := 0
  deriving DecidableEq

def untilCrlf (text : Text) : Text :=
  match find crlf text with
  | none => text
  | some end_ => text.take end_

/-- The value of the first `content-length:`, wherever it stands in the header block. -/
def lengthText (headerBlock : Text) : Option Text :=
  match find contentLengthKey (toLower headerBlock) with
  | none => none
  | some at_ => some (untilCrlf (headerBlock.drop (at_ + contentLengthKey.length)))

/-- Without the blanks around it. -/
def trimmed (value : Text) : Text := ((value.dropWhile isBlank).reverse.dropWhile isBlank).reverse

def parseHttpHeaders (raw : Text) : ParsedHeaders :=
  match find blankLine raw with
  | none => {}
  | some terminator =>
    { complete := true
      headerEnd := terminator + 4
      statusCode := match find crlf raw with
        | none => 0
        | some lineEnd => statusCodeOf (raw.take lineEnd)
      contentLength := match lengthText (raw.take terminator) with
        | none => none
        | some value => if trimmed value = [] then none else stoul (trimmed value) }

structure HttpResult where
  connected : Bool := false
  statusCode : Int := 0
  body : Text := []
  error : String := ""
  deriving DecidableEq

/-- What was read when the loop ends, or nothing if `recv` fails. Each arrival is what one `recv` returns. -/
def respond (raw : Text) : Stream → Option Text
  | [] => some raw
  | .failed::_ => none
  | .interrupted::later => respond raw later
  | .bytes first rest::later =>
    let raw := raw ++ first::rest
    let headers := parseHttpHeaders raw
    if headers.complete ∧ headers.contentLength.any (fun length => length ≤ raw.length - headers.headerEnd) then some raw
    else respond raw later

def resultOf (raw : Text) : HttpResult :=
  let headers := parseHttpHeaders raw
  if !headers.complete then { error := "malformed HTTP response (no header terminator)" }
  else
    { connected := true
      statusCode := headers.statusCode
      body := match headers.contentLength with
        | none => raw.drop headers.headerEnd
        | some length => (raw.drop headers.headerEnd).take length }

/-- A request that was sent, from the first byte of its answer on. -/
def httpRequest (stream : Stream) : HttpResult :=
  match respond [] stream with
  | none => { error := "recv() failed" }
  | some raw => resultOf raw

/-- Once the header block is there, what comes behind it changes no header. -/
theorem parse_append (raw more : Text) (complete : (parseHttpHeaders raw).complete = true) :
    parseHttpHeaders (raw ++ more) = parseHttpHeaders raw := by
  cases found : find blankLine raw with
  | none => simp [parseHttpHeaders,found] at complete
  | some terminator =>
    have inside := find_le blankLine raw terminator found
    have four : blankLine.length = 4 := rfl
    cases line : find crlf raw with
    | none =>
      have start : crlf <+: raw.drop terminator := List.IsPrefix.trans ⟨crlf,rfl⟩ (find_some blankLine raw terminator found)
      exact absurd start (find_none crlf raw line terminator (by omega))
    | some lineEnd =>
      have before := find_le crlf raw lineEnd line
      simp only [parseHttpHeaders,found,line,find_append _ _ more _ found,find_append _ _ more _ line]
      rw [List.take_append_of_le_length (by omega),List.take_append_of_le_length (by omega)]

theorem headerEnd_le (raw : Text) : (parseHttpHeaders raw).headerEnd ≤ raw.length := by
  cases found : find blankLine raw with
  | none => simp [parseHttpHeaders,found]
  | some terminator =>
    have inside := find_le blankLine raw terminator found
    have four : blankLine.length = 4 := rfl
    simp only [parseHttpHeaders,found]
    omega

/-- A body that is there in full is the same when more comes behind it. -/
theorem resultOf_append (raw more : Text) (complete : (parseHttpHeaders raw).complete = true) (length : Nat)
    (said : (parseHttpHeaders raw).contentLength = some length)
    (enough : length ≤ raw.length - (parseHttpHeaders raw).headerEnd) : resultOf (raw ++ more) = resultOf raw := by
  have inside := headerEnd_le raw
  simp only [resultOf,parse_append raw more complete,complete,said]
  rw [List.drop_append_of_le_length inside,List.take_append_of_le_length (by rw [List.length_drop]; exact enough)]

/-- The result depends on the bytes and not on the pieces they come in. -/
theorem respond_result (stream : Stream) (closed : .failed ∉ stream) (raw : Text) :
    ∃ read, respond raw stream = some read ∧ resultOf read = resultOf (raw ++ received stream) := by
  induction stream generalizing raw with
  | nil => exact ⟨raw,rfl,by simp [received]⟩
  | cons arrival later ih =>
    have rest : .failed ∉ later := fun member => closed (List.mem_cons_of_mem _ member)
    cases arrival with
    | failed => exact absurd List.mem_cons_self closed
    | interrupted => exact ih rest raw
    | bytes first others =>
      simp only [respond,received]
      split
      · rename_i stop
        obtain ⟨length,said,enough⟩ := Option.any_eq_true _ _ |>.mp stop.2
        apply Exists.intro _
        constructor
        · rfl
        · rw [← List.append_assoc]
          exact (resultOf_append _ _ stop.1 length said (of_decide_eq_true enough)).symm
      · obtain ⟨read,answered,same⟩ := ih rest (raw ++ first::others)
        rw [List.append_assoc] at same
        exact ⟨read,answered,same⟩

theorem httpRequest_eq (stream : Stream) (closed : .failed ∉ stream) : httpRequest stream = resultOf (received stream) := by
  obtain ⟨read,answered,same⟩ := respond_result stream closed []
  simp only [httpRequest,answered]
  exact same

/-- A header line of the block, the status line apart. -/
def HeaderLine (block name value : Text) : Prop :=
  ∃ before after, block = before ++ crlf ++ (name ++ 0x3A::value) ++ after ∧ (after = [] ∨ crlf <+: after) ∧
    ∀ j, ¬crlf <+: (name ++ 0x3A::value).drop j

/-- The block has a field of this whole name, and its value is this number. -/
def FieldLength (block : Text) (length : Nat) : Prop :=
  ∃ name value, HeaderLine block name value ∧ toLower name ++ [0x3A] = contentLengthKey ∧ trimmed value ≠ [] ∧
    (trimmed value).all isDigit = true ∧ decimal (trimmed value) = length

/-- What the discovery thread may rely on in an answer. -/
structure Sound (stream : Stream) : Prop where
  uncut : ∀ other, .failed ∉ other → received other = received stream → httpRequest other = httpRequest stream
  named : ∀ terminator, find blankLine (received stream) = some terminator → ∀ length,
    (parseHttpHeaders (received stream)).contentLength = some length →
      FieldLength ((received stream).take terminator) length
  whole : (httpRequest stream).connected = true → ∀ length,
    (parseHttpHeaders (received stream)).contentLength = some length → (httpRequest stream).body.length = length

/-- Where a number follows the first `content-length:` of the header block, the
words begin a line, the number stands alone, and as many bytes follow the block. -/
def Plain (raw : Text) : Prop :=
  ∀ terminator at_ length, find blankLine raw = some terminator →
    find contentLengthKey (toLower (raw.take terminator)) = some at_ →
      stoul (trimmed (untilCrlf ((raw.take terminator).drop (at_ + 15)))) = some length →
        crlf <:+ (raw.take terminator).take at_ ∧
          (trimmed (untilCrlf ((raw.take terminator).drop (at_ + 15)))).all isDigit = true ∧
            terminator + 4 + length ≤ raw.length

/-- The header block says `content-length:` in one place at most. -/
def Once (raw : Text) : Prop :=
  ∀ terminator i j, find blankLine raw = some terminator → contentLengthKey <+: (toLower (raw.take terminator)).drop i →
    contentLengthKey <+: (toLower (raw.take terminator)).drop j → i = j

theorem contentLength_some (raw : Text) (length : Nat) : (parseHttpHeaders raw).contentLength = some length ↔
    ∃ terminator at_, find blankLine raw = some terminator ∧
      find contentLengthKey (toLower (raw.take terminator)) = some at_ ∧
        stoul (trimmed (untilCrlf ((raw.take terminator).drop (at_ + 15)))) = some length := by
  have fifteen : contentLengthKey.length = 15 := rfl
  cases found : find blankLine raw with
  | none => simp [parseHttpHeaders,found]
  | some terminator =>
    cases named : find contentLengthKey (toLower (raw.take terminator)) with
    | none => simp [parseHttpHeaders,found,lengthText,named]
    | some at_ =>
      have read : (parseHttpHeaders raw).contentLength =
          if trimmed (untilCrlf ((raw.take terminator).drop (at_ + 15))) = [] then none
          else stoul (trimmed (untilCrlf ((raw.take terminator).drop (at_ + 15)))) := by
        simp only [parseHttpHeaders,found,lengthText,named,fifteen]
      rw [read]
      constructor
      · intro said
        split at said
        · cases said
        · exact ⟨terminator,at_,rfl,named,said⟩
      · intro shown
        obtain ⟨_,_,same,also,said⟩ := shown
        injection same with same
        rw [← same,named] at also
        injection also with also
        rw [← same,← also] at said
        rw [if_neg _]
        · exact said
        · intro empty
          rw [empty] at said
          cases said

/-- A text up to its first line end, and what follows. -/
theorem untilCrlf_spec (text : Text) : ∃ after, text = untilCrlf text ++ after ∧ (after = [] ∨ crlf <+: after) ∧
    ∀ j, ¬crlf <+: (untilCrlf text).drop j := by
  cases found : find crlf text with
  | none =>
    have whole : untilCrlf text = text := by simp only [untilCrlf,found]
    rw [whole]
    refine ⟨[],(List.append_nil _).symm,.inl rfl,fun j there => ?_⟩
    by_cases inside : j ≤ text.length
    · exact find_none crlf text found j inside there
    · rw [List.drop_of_length_le (by omega)] at there
      cases there.length_le
  | some end_ =>
    have cut : untilCrlf text = text.take end_ := by simp only [untilCrlf,found]
    have inside := find_le crlf text end_ found
    have two : crlf.length = 2 := rfl
    rw [cut]
    refine ⟨text.drop end_,(List.take_append_drop _ _).symm,.inr (find_some crlf text end_ found),fun j there => ?_⟩
    have short := there.length_le
    rw [List.length_drop,List.length_take] at short
    apply find_first crlf text end_ found j (by omega)
    rw [List.drop_take] at there
    exact there.trans (List.take_prefix _ _)

theorem untilCrlf_eq (value after : Text) (line : after = [] ∨ crlf <+: after) (single : ∀ j, ¬crlf <+: value.drop j) :
    untilCrlf (value ++ after) = value := by
  rcases line with rfl | next
  · rw [List.append_nil]
    cases found : find crlf value with
    | none => simp only [untilCrlf,found]
    | some end_ => exact absurd (find_some crlf value end_ found) (single end_)
  · have found : find crlf (value ++ after) = some value.length := by
      apply find_eq
      · rw [List.length_append]
        omega
      · rw [List.drop_left]
        exact next
      · intro j before there
        rw [List.drop_append_of_le_length (by omega)] at there
        obtain ⟨last,tail,left⟩ : ∃ last tail, value.drop j = last::tail := by
          apply List.exists_cons_of_ne_nil
          intro none_
          have length := congrArg List.length none_
          rw [List.length_drop,List.length_nil] at length
          omega
        rw [left] at there
        cases tail with
        | nil =>
          -- The line end would have to begin in the value and end in what follows.
          obtain ⟨more,same⟩ := next
          rw [← same] at there
          simp [crlf] at there
        | cons second tail =>
          apply single j
          rw [left]
          simp only [crlf,List.cons_append,List.cons_prefix_cons] at there ⊢
          exact ⟨there.1,there.2.1,List.nil_prefix⟩
    simp only [untilCrlf,found,List.take_left]

theorem toLower_length (text : Text) : (toLower text).length = text.length := List.length_map _

theorem toLower_drop (text : Text) (n : Nat) : (toLower text).drop n = toLower (text.drop n) := by
  rw [toLower,toLower,List.map_drop]

theorem mem_toLower (byte : UInt8) (text : Text) (member : byte ∈ text) (letterless : byte < 0x41) : byte ∈ toLower text := by
  apply List.mem_map.mpr
  apply Exists.intro byte
  constructor
  · exact member
  · rw [if_neg]
    intro both
    exact absurd letterless (UInt8.not_lt.mpr both.1)

/-- Only a colon becomes a colon. -/
theorem toLower_colon (byte : UInt8) (same : toLower [byte] = [0x3A]) : byte = 0x3A := by
  simp only [toLower,List.map_cons,List.map_nil,List.cons.injEq,and_true] at same
  split at same
  · rename_i letter
    simp only [UInt8.le_iff_toNat_le,← UInt8.toNat_inj,UInt8.toNat_add,UInt8.reduceToNat] at letter same
    omega
  · exact same

/-- Digits alone are read as what they say. -/
theorem stoul_digits (text : Text) (digits : text.all isDigit = true) (length : Nat) (read : stoul text = some length) :
    text ≠ [] ∧ decimal text = length := by
  cases text with
  | nil => cases read
  | cons first rest =>
    have all : ∀ byte ∈ first::rest, isDigit byte = true := List.all_eq_true.mp digits
    have start := all first List.mem_cons_self
    have solid : isSpace first = false := by
      simp only [isDigit,decide_eq_true_iff,isSpace,decide_eq_false_iff_not,not_or,not_and,UInt8.le_iff_toNat_le,
        ← UInt8.toNat_inj] at start ⊢
      simp only [UInt8.reduceToNat] at start ⊢
      omega
    have unsigned : signedDigits (first::rest) = some (false,decimal (first::rest)) := by
      have whole : (first::rest).takeWhile isDigit = first::rest := List.takeWhile_eq_self_iff.mpr all
      unfold signedDigits
      split
      · rename_i minus left given
        split at given
        · rename_i same
          injection same with same
          rw [same] at start
          cases start
        · rename_i same
          injection same with same
          rw [same] at start
          cases start
        · injection given with first' second
          rw [← first',← second,whole]
          rfl
    rw [stoul,List.dropWhile_cons_of_neg (by rw [solid]; exact Bool.false_ne_true),unsigned] at read
    simp only [Bool.false_eq_true,if_false] at read
    split at read
    · cases read
    · exact ⟨List.cons_ne_nil _ _,Option.some.inj read⟩

/-- A line end, the words and their value: a field. -/
theorem field_of_start (block : Text) (at_ length : Nat) (found : find contentLengthKey (toLower block) = some at_)
    (starts : crlf <:+ block.take at_) (digits : (trimmed (untilCrlf (block.drop (at_ + 15)))).all isDigit = true)
    (read : stoul (trimmed (untilCrlf (block.drop (at_ + 15)))) = some length) : FieldLength block length := by
  obtain ⟨after,split,line,single⟩ := untilCrlf_spec (block.drop (at_ + 15))
  obtain ⟨before,upTo⟩ := starts
  have here := find_some contentLengthKey (toLower block) at_ found
  rw [toLower_drop] at here
  obtain ⟨more,key⟩ := here
  have fifteen : contentLengthKey.length = 15 := rfl
  have words : toLower ((block.drop at_).take 15) = contentLengthKey := by
    rw [toLower,List.map_take]
    change (toLower (block.drop at_)).take 15 = contentLengthKey
    rw [← key,List.take_left' fifteen]
  obtain ⟨name,colon,shape⟩ : ∃ name colon, (block.drop at_).take 15 = name ++ [colon] := by
    have some_ : (block.drop at_).take 15 ≠ [] := by
      intro none_
      rw [none_] at words
      cases words
    exact ⟨_,_,(List.dropLast_append_getLast some_).symm⟩
  rw [shape,toLower,List.map_append] at words
  obtain ⟨first,last⟩ := List.append_inj' (words.trans (show contentLengthKey = contentLengthKey.dropLast ++ [0x3A] from rfl)) rfl
  obtain rfl := toLower_colon colon last
  have whole : name ++ 0x3A::untilCrlf (block.drop (at_ + 15)) =
      (name ++ [0x3A]) ++ untilCrlf (block.drop (at_ + 15)) := by rw [List.append_assoc]; rfl
  have size : (name ++ [0x3A]).length = 15 := by
    have length := congrArg List.length words
    rwa [← List.map_append,List.length_map] at length
  obtain ⟨some_,value⟩ := stoul_digits _ digits length read
  refine ⟨name,untilCrlf (block.drop (at_ + 15)),⟨before,after,?_,line,fun j there => ?_⟩,?_,some_,digits,value⟩
  · rw [whole,← shape,upTo,List.append_assoc,List.append_assoc,← split,← List.drop_drop,List.take_append_drop,
      List.take_append_drop]
  · rw [whole] at there
    by_cases inName : j < 15
    · rw [List.drop_append_of_le_length (by omega)] at there
      have head : 13 ∈ (name ++ [0x3A]).drop j := by
        cases left : (name ++ [0x3A]).drop j with
        | nil =>
          have none_ := congrArg List.length left
          rw [List.length_drop,List.length_nil] at none_
          omega
        | cons byte rest =>
          rw [left,List.cons_append,crlf,List.cons_prefix_cons] at there
          rw [← there.1]
          exact List.mem_cons_self
      have lower := mem_toLower 13 _ (List.mem_of_mem_drop head) (by decide)
      rw [toLower,List.map_append,words] at lower
      revert lower
      decide
    · rw [List.drop_append,List.drop_of_length_le (by omega),List.nil_append] at there
      exact single _ there
  · rw [toLower,first]
    rfl

/-- Where the words stand once, a field is where they stand. -/
theorem start_of_field (block : Text) (at_ length : Nat)
    (once : ∀ j, contentLengthKey <+: (toLower block).drop j → j = at_) (field : FieldLength block length) :
    crlf <:+ block.take at_ ∧ (trimmed (untilCrlf (block.drop (at_ + 15)))).all isDigit = true := by
  obtain ⟨name,value,⟨before,after,shape,line,single⟩,lower,_,digits,_⟩ := field
  have size : name.length = 14 := by
    have length := congrArg List.length lower
    rw [List.length_append,toLower_length] at length
    exact Nat.succ.inj length
  have whole : name ++ 0x3A::value = (name ++ [0x3A]) ++ value := by rw [List.append_assoc]; rfl
  have start : block.drop (before ++ crlf).length = name ++ 0x3A::value ++ after := by
    rw [shape,List.append_assoc (before ++ crlf),List.drop_left]
  have here : (before ++ crlf).length = at_ := by
    apply once
    rw [toLower_drop,start,whole,toLower,List.map_append,List.map_append,List.map_append]
    change contentLengthKey <+: toLower name ++ [0x3A] ++ _ ++ _
    rw [lower,List.append_assoc]
    exact List.prefix_append _ _
  rw [← here]
  constructor
  · rw [shape,List.append_assoc (before ++ crlf),List.take_left]
    exact List.suffix_append _ _
  · have rest : block.drop ((before ++ crlf).length + 15) = value ++ after := by
      rw [← List.drop_drop,start,whole,List.append_assoc,List.drop_left' (by rw [List.length_append,size]; rfl)]
    rw [rest,untilCrlf_eq value after line]
    · exact digits
    · intro j there
      apply single (15 + j)
      rw [whole,← List.drop_drop,List.drop_left' (by rw [List.length_append,size]; rfl)]
      exact there

/-- Where the headers are plain, an answer is read for what it says. -/
theorem sound_of_plain (stream : Stream) (closed : .failed ∉ stream) (plain : Plain (received stream)) : Sound stream := by
  constructor
  · intro other still same
    rw [httpRequest_eq other still,httpRequest_eq stream closed,same]
  · intro terminator ends length said
    obtain ⟨_,at_,same,found,read⟩ := (contentLength_some _ _).mp said
    rw [ends] at same
    injection same with same
    rw [← same] at found read
    obtain ⟨starts,digits,_⟩ := plain terminator at_ length ends found read
    exact field_of_start _ at_ length found starts digits read
  · intro connected length said
    obtain ⟨terminator,at_,ends,found,read⟩ := (contentLength_some _ _).mp said
    obtain ⟨_,_,enough⟩ := plain terminator at_ length ends found read
    have headerEnd : (parseHttpHeaders (received stream)).headerEnd = terminator + 4 := by
      simp only [parseHttpHeaders,ends]
    have complete : (parseHttpHeaders (received stream)).complete = true := by
      simp only [parseHttpHeaders,ends]
    rw [httpRequest_eq stream closed]
    simp only [resultOf,complete,said,Bool.not_true,Bool.false_eq_true,if_false,List.length_take,List.length_drop,headerEnd]
    omega

theorem plain_of_sound (stream : Stream) (closed : .failed ∉ stream) (once : Once (received stream)) (sound : Sound stream) :
    Plain (received stream) := by
  intro terminator at_ length ends found read
  have said := (contentLength_some _ _).mpr ⟨terminator,at_,ends,found,read⟩
  have here := find_some _ _ _ found
  obtain ⟨starts,digits⟩ := start_of_field _ at_ length
    (fun j there => once terminator j at_ ends there here) (sound.named terminator ends length said)
  have headerEnd : (parseHttpHeaders (received stream)).headerEnd = terminator + 4 := by
    simp only [parseHttpHeaders,ends]
  have complete : (parseHttpHeaders (received stream)).complete = true := by
    simp only [parseHttpHeaders,ends]
  have inside := headerEnd_le (received stream)
  have whole := sound.whole
  rw [httpRequest_eq stream closed] at whole
  simp only [resultOf,complete,said,Bool.not_true,Bool.false_eq_true,if_false,headerEnd] at whole
  have full := whole trivial length rfl
  rw [List.length_take,List.length_drop] at full
  rw [headerEnd] at inside
  exact ⟨starts,digits,by omega⟩

end AmigaFleet.Intake
