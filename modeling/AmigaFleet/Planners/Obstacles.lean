import AmigaFleet.Lib.Regex
import AmigaFleet.Lib.Text
import Mathlib.Data.List.TakeWhile

/-! The obstacles of a problem, read from Prolog facts by three regular expressions,
and the facts as Prolog lets them be written. -/
namespace AmigaFleet.Planners
open Lib Regex

def decimal (c : Char) : Bool := (Text.digit c).isSome

def pointWord : List Char := "point(".toList

def factWord : List Char := "obstacle_polygon(".toList

def white : Regex := star true Text.isSpace

/-- `-?\d+(?:\.\d+)?` -/
def numberRe : Regex :=
  inOrder [optional (char '-'),plus decimal,optional (inOrder [char '.',plus decimal])]

/-- `_POINT_RE`: `point\(\s*(..)\s*,\s*(..)\s*\)` -/
def pointRe : Regex :=
  inOrder [literal pointWord,white,group numberRe,white,char ',',white,group numberRe,white,char ')']

/-- `%.*$`, where `$` is also the end of a line. -/
def commentRe : Regex := inOrder [char '%',star true (· ≠ '\n'),lineEnd]

/-- `obstacle_polygon\(([^,]+),\s*\[(.*?)\]\s*\)\s*\.`, where a dot is any character. -/
def factRe : Regex :=
  inOrder [literal factWord,group (plus (· ≠ ',')),char ',',white,char '[',
    group (star false (fun _ => true)),char ']',white,char ')',white,char '.']

def stripPrologComments (text : List Char) : List Char := eraseAll commentRe text

section
variable {F : Type} (float : List Char → F)

def pointOfGroups : List (List Char) → Option (F × F)
  | [x,y] => some (float x,float y)
  | _ => none

def polygonOfGroups : List (List Char) → Option (String × List (F × F))
  | [id,body] =>
    let points := (findAll pointRe body).filterMap (pointOfGroups float)
    if 3 ≤ points.length then some (Text.strip (String.ofList id),points) else none
  | _ => none

def parseObstaclePolygons (text : List Char) : List (String × List (F × F)) :=
  (findAll factRe text).filterMap (polygonOfGroups float)

/-- `load_obstacle_polygons`, from what is in the file, if there is one. -/
def loadObstaclePolygons : Option String → List (String × List (F × F))
  | none => []
  | some text => parseObstaclePolygons float (stripPrologComments text.toList)

end

/-- White space, or a comment to the end of its line. -/
inductive Layout where
  | blank (c : Char) (space : Text.isSpace c = true)
  | comment (text : List Char) (line : '\n' ∉ text)

def Layout.written : Layout → List Char
  | blank c _ => [c]
  | comment text _ => '%' :: (text ++ ['\n'])

/-- Without the comment. -/
def Layout.bare : Layout → List Char
  | blank c _ => [c]
  | comment _ _ => ['\n']

abbrev Gap := List Layout

def Gap.written (gap : Gap) : List Char := gap.flatMap Layout.written

def Gap.bare (gap : Gap) : List Char := gap.flatMap Layout.bare

/-- What a numeral can be made of: digits, points and signs, the letters of exponents,
bases and infinities, and the quote behind a base. -/
def numeralChar (c : Char) : Bool := c.isAlphanum || c ∈ ['_','.','+','-',Char.ofNat 39]

structure Numeral where
  text : List Char
  some_ : text ≠ []
  made : ∀ c ∈ text, numeralChar c = true

structure Vertex where
  x : Numeral
  y : Numeral
  before : Gap := []
  beforeX : Gap := []
  afterX : Gap := []
  beforeY : Gap := []
  afterY : Gap := []
  after : Gap := []

/-- A polygon with its id, which has no comma in it and no white space at its ends. -/
structure Fact where
  id : String
  some_ : id ≠ ""
  commaFree : ',' ∉ id.toList
  trimmed : Text.Trimmed id
  vertices : List Vertex
  many : 3 ≤ vertices.length
  beforeId : Gap := []
  afterId : Gap := []
  beforeList : Gap := []
  afterList : Gap := []
  beforeDot : Gap := []
  after : Gap := []

section
variable (layout : Gap → List Char)

def Vertex.text (v : Vertex) : List Char :=
  layout v.before ++ (pointWord ++ (layout v.beforeX ++ (v.x.text ++ (layout v.afterX ++ ',' ::
    (layout v.beforeY ++ (v.y.text ++ (layout v.afterY ++ ')' :: layout v.after)))))))

def verticesText : List Vertex → List Char
  | [] => []
  | [v] => v.text layout
  | v::w::rest => v.text layout ++ ',' :: verticesText (w::rest)

def Fact.text (f : Fact) : List Char :=
  factWord ++ (layout f.beforeId ++ (f.id.toList ++ (layout f.afterId ++ ',' ::
    (layout f.beforeList ++ '[' :: (verticesText layout f.vertices ++ ']' ::
      (layout f.afterList ++ ')' :: (layout f.beforeDot ++ '.' :: layout f.after)))))))

def documentText (head : Gap) (facts : List Fact) : List Char := layout head ++ facts.flatMap (Fact.text layout)

end

/-- A minus or not, digits, and digits behind a point or not. -/
def Plain (text : List Char) : Prop :=
  ∃ sign whole fraction, text = sign ++ (whole ++ fraction) ∧ (sign = ['-'] ∨ sign = []) ∧
    (whole ≠ [] ∧ ∀ c ∈ whole, decimal c = true) ∧
    ((∃ digits, fraction = '.' :: digits ∧ digits ≠ [] ∧ ∀ c ∈ digits, decimal c = true) ∨ fraction = [])

/-! ### Comments -/

theorem match_comment (text rest : List Char) (line : '\n' ∉ text) (ends : ∀ c ∈ rest.head?, c = '\n') :
    matchAt commentRe (('%' :: text) ++ rest) = some ([],rest) := by
  have inside (c : Char) (member : c ∈ text) : (decide (c ≠ '\n')) = true := by
    have other : c ≠ '\n' := fun same => line (same ▸ member)
    simpa using other
  have closed : rest.head?.all (· = '\n') = true := by
    cases first : rest.head? with
    | none => rfl
    | some c => simpa using ends c first
  rw [matchAt,commentRe]
  simp only [inOrder,List.foldr_cons,List.foldr_nil,run,char,List.cons_append,decide_true,if_true]
  rw [greedily_run _ _ text rest inside (fun c here => by simp [ends c here]) (by simp [closed])]
  simp [closed]

theorem erase_comment (text rest : List Char) (line : '\n' ∉ text) (ends : ∀ c ∈ rest.head?, c = '\n') :
    eraseAll commentRe ('%' :: (text ++ rest)) = eraseAll commentRe rest :=
  eraseAll_match commentRe ('%' :: text) rest [] (List.cons_ne_nil _ _) (match_comment text rest line ends)

theorem match_other (c : Char) (rest : List Char) (other : c ≠ '%') : matchAt commentRe (c::rest) = none := by
  simp only [matchAt,commentRe,inOrder,List.foldr_cons,run,char]
  rw [if_neg (by simpa using other)]

theorem erase_char (c : Char) (rest : List Char) (other : c ≠ '%') : eraseAll commentRe (c::rest) = c :: eraseAll commentRe rest :=
  eraseAll_cons commentRe c rest (match_other c rest other)

theorem erase_plain (front rest : List Char) (clean : '%' ∉ front) :
    eraseAll commentRe (front ++ rest) = front ++ eraseAll commentRe rest := by
  induction front with
  | nil => rfl
  | cons c front ih =>
    rw [List.mem_cons,not_or] at clean
    rw [List.cons_append,erase_char c _ (Ne.symm clean.1),ih clean.2,List.cons_append]

theorem erase_gap (gap : Gap) (rest : List Char) :
    eraseAll commentRe (gap.written ++ rest) = gap.bare ++ eraseAll commentRe rest := by
  induction gap with
  | nil => rfl
  | cons piece gap ih =>
    rw [Gap.written,List.flatMap_cons,List.append_assoc,Gap.bare,List.flatMap_cons,List.append_assoc]
    cases piece with
    | blank c space =>
      have clean : '%' ∉ [c] := by
        intro member
        rw [← List.mem_singleton.mp member] at space
        exact absurd space (by decide)
      exact (erase_plain [c] _ clean).trans (congrArg ([c] ++ ·) ih)
    | comment text line =>
      rw [Layout.written,List.cons_append,List.append_assoc,List.singleton_append,erase_comment text _ line (by simp)]
      exact (erase_plain ['\n'] _ (by decide)).trans (congrArg (['\n'] ++ ·) ih)

/-- No comment sign is left. -/
theorem erase_clean (text : List Char) : '%' ∉ eraseAll commentRe text := by
  induction size : text.length using Nat.strongRecOn generalizing text with
  | _ n ih =>
    cases text with
    | nil => exact List.not_mem_nil
    | cons c rest =>
      by_cases sign : c = '%'
      · have split := List.takeWhile_append_dropWhile (p := (· ≠ '\n')) (l := rest)
        have line : '\n' ∉ rest.takeWhile (· ≠ '\n') := fun member => by simpa using List.mem_takeWhile_imp member
        have ends (d : Char) (first : d ∈ (rest.dropWhile (· ≠ '\n')).head?) : d = '\n' := by
          have stops := List.head?_dropWhile_not (· ≠ '\n') rest
          rw [Option.mem_def.mp first] at stops
          simpa using stops
        have shorter := (List.dropWhile_sublist (l := rest) (· ≠ '\n')).length_le
        rw [sign,← split,erase_comment _ _ line ends]
        refine ih _ ?_ _ rfl
        rw [← size,List.length_cons]
        omega
      · rw [erase_char c rest sign,List.mem_cons,not_or]
        refine ⟨Ne.symm sign,ih rest.length ?_ rest rfl⟩
        rw [← size,List.length_cons]
        omega

/-! ### Points -/

theorem bare_space (gap : Gap) : ∀ c ∈ gap.bare, Text.isSpace c = true := by
  intro c member
  obtain ⟨piece,_,inside⟩ := List.mem_flatMap.mp member
  cases piece with
  | blank d space =>
    rw [List.mem_singleton.mp inside]
    exact space
  | comment _ _ =>
    rw [List.mem_singleton.mp inside]
    decide

theorem space_of (c : Char) (space : Text.isSpace c = true) : decimal c = false ∧ numeralChar c = false := by
  have every : ∀ n ∈ [9,10,11,12,13,28,29,30,31,32,133,160,5760,8192,8193,8194,8195,8196,8197,8198,8199,8200,
      8201,8202,8232,8233,8239,8287,12288], decimal (Char.ofNat n) = false ∧ numeralChar (Char.ofNat n) = false := by
    decide
  have here := every c.toNat (of_decide_eq_true space)
  rwa [Char.ofNat_toNat] at here

/-- A front of one kind of characters ends where the next kind begins. -/
theorem front_unique (p : Char → Bool) (first second left right : List Char) (same : first ++ left = second ++ right)
    (all : ∀ c ∈ first, p c = true) (also : ∀ c ∈ second, p c = true) (stop : ∀ c ∈ left.head?, p c = false)
    (ends : ∀ c ∈ right.head?, p c = false) : first = second ∧ left = right := by
  have front (a b : List Char) (all : ∀ c ∈ a, p c = true) (stop : ∀ c ∈ b.head?, p c = false) :
      (a ++ b).takeWhile p = a := by
    rw [List.takeWhile_append_of_pos all]
    cases b with
    | nil => simp
    | cons c b => simp [stop c rfl]
  have one : first = second := by rw [← front first left all stop,same,front second right also ends]
  exact ⟨one,List.append_cancel_left (one ▸ same)⟩

theorem takes_number (taken rest : List Char) (takes : Takes numberRe taken rest) : Plain taken := by
  obtain ⟨sign,back,rfl,minus,whole,back',rfl,⟨d,digits,rfl,⟨e,first,rfl⟩,later⟩,fraction,none_,rfl,frac,rfl⟩ := takes
  refine ⟨sign,[e] ++ digits,fraction,by simp,?_,⟨by simp,?_⟩,?_⟩
  · rcases minus with ⟨c,same,rfl⟩ | none_
    · exact .inl (by rw [of_decide_eq_true same])
    · exact .inr none_
  · intro c member
    rcases List.mem_append.mp member with one | other
    · rw [List.mem_singleton.mp one]
      exact first
    · exact later c other
  · rcases frac with ⟨dot,tail,rfl,⟨c,same,rfl⟩,digits,nil_,rfl,⟨f,more,rfl,⟨g,here,rfl⟩,there⟩,rfl⟩ | none_
    · refine .inl ⟨[g] ++ more,by simp [of_decide_eq_true same],by simp,?_⟩
      intro c member
      rcases List.mem_append.mp member with one | other
      · rw [List.mem_singleton.mp one]
        exact here
      · exact there c other
    · exact .inr none_

variable {β : Type}

theorem run_number (groups : List (List Char)) (next : List (List Char) → List Char → Option β) (taken rest : List Char)
    (result : β) (plain : Plain taken) (stop : ∀ c ∈ rest.head?, decimal c = false ∧ c ≠ '.')
    (found : next groups rest = some result) : run numberRe groups next (taken ++ rest) = some result := by
  obtain ⟨sign,whole,fraction,rfl,minus,⟨some_,all⟩,frac⟩ := plain
  have digits : run (inOrder [plus decimal,optional (inOrder [char '.',plus decimal])]) groups next
      (whole ++ (fraction ++ rest)) = some result := by
    rcases frac with ⟨digits,rfl,more,tail⟩ | rfl
    · refine run_plus decimal groups _ whole _ result some_ all (fun c first => ?_) ?_
      · obtain rfl : '.' = c := by simpa using first
        decide
      · refine Option.or_eq_some_iff.mpr (.inl ?_)
        rw [List.cons_append,inOrder,List.foldr_cons,run,run_char]
        exact run_plus decimal groups _ digits rest result more tail (fun c first => (stop c first).1) found
    · refine run_plus decimal groups _ whole rest result some_ all (fun c first => (stop c first).1) ?_
      exact Option.or_eq_some_iff.mpr (.inr ⟨run_char_other '.' groups _ rest (fun c first => (stop c first).2),found⟩)
  rw [List.append_assoc,List.append_assoc]
  rcases minus with rfl | rfl
  · refine Option.or_eq_some_iff.mpr (.inl ?_)
    rw [List.singleton_append,run_char]
    exact digits
  · refine Option.or_eq_some_iff.mpr (.inr ⟨run_char_other '-' groups _ _ (fun c first => ?_),digits⟩)
    rw [List.nil_append,List.head?_append,List.head?_eq_some_head some_] at first
    rintro rfl
    exact absurd (all '-' (Option.some.inj first ▸ List.head_mem some_)) (by decide)

theorem run_white (groups : List (List Char)) (next : List (List Char) → List Char → Option β) (gap : Gap) (rest : List Char)
    (result : β) (stop : ∀ c ∈ rest.head?, Text.isSpace c = false) (found : next groups rest = some result) :
    run white groups next (gap.bare ++ rest) = some result :=
  run_star Text.isSpace groups next gap.bare rest result (bare_space gap) stop found

/-- Behind a gap comes white space or the character after it. -/
theorem gap_start (gap : List Char) (blank : ∀ c ∈ gap, Text.isSpace c = true) (c : Char) (rest : List Char) (p : Char → Prop)
    (here : p c) (white : ∀ d, Text.isSpace d = true → p d) : ∀ d ∈ (gap ++ c :: rest).head?, p d := by
  intro d first
  rw [List.head?_append] at first
  cases start : gap.head? with
  | none =>
    rw [start] at first
    exact Option.some.inj first ▸ here
  | some e =>
    rw [start] at first
    exact white d (blank d (Option.some.inj first ▸ List.mem_of_mem_head? start))

/-- Neither white space nor what stands around a coordinate. -/
def inner (c : Char) : Bool := !Text.isSpace c && c ∉ ['(',',',')']

theorem inner_blank (c : Char) (space : Text.isSpace c = true) : inner c = false := by
  rw [inner,space]
  rfl

theorem inner_numeral (c : Char) (numeral : numeralChar c = true) : inner c = true := by
  have nonspace : Text.isSpace c = false := by
    cases space : Text.isSpace c with
    | false => rfl
    | true =>
      rw [(space_of c space).2] at numeral
      cases numeral
  have other (d : Char) (bad : numeralChar d = false) : c ≠ d := by
    rintro rfl
    rw [bad] at numeral
    cases numeral
  simp [inner,nonspace,other '(' (by decide),other ',' (by decide),other ')' (by decide)]

theorem plain_inner (text : List Char) (plain : Plain text) : text ≠ [] ∧ ∀ c ∈ text, inner c = true := by
  obtain ⟨sign,whole,fraction,rfl,minus,⟨some_,all⟩,frac⟩ := plain
  have digit (c : Char) (here : decimal c = true) : inner c = true := by
    have nonspace : Text.isSpace c = false := by
      cases space : Text.isSpace c with
      | false => rfl
      | true =>
        rw [(space_of c space).1] at here
        cases here
    have other (d : Char) (bad : decimal d = false) : c ≠ d := by
      rintro rfl
      rw [bad] at here
      cases here
    simp [inner,nonspace,other '(' (by decide),other ',' (by decide),other ')' (by decide)]
  refine ⟨by simp [some_],?_⟩
  intro c member
  rcases List.mem_append.mp member with first | later
  · rcases minus with rfl | rfl
    · rw [List.mem_singleton.mp first]
      decide
    · cases first
  rcases List.mem_append.mp later with mid | last
  · exact digit c (all c mid)
  rcases frac with ⟨digits,rfl,_,tail⟩ | rfl
  · rcases List.mem_cons.mp last with rfl | inside
    · decide
    · exact digit c (tail c inside)
  · cases last

theorem inner_start (text rest : List Char) (some_ : text ≠ []) (made : ∀ c ∈ text, inner c = true) :
    ∀ c ∈ (text ++ rest).head?, Text.isSpace c = false := by
  intro c first
  rw [List.head?_append,List.head?_eq_some_head some_] at first
  have here := made c (Option.some.inj first ▸ List.head_mem some_)
  rw [inner,Bool.and_eq_true] at here
  simpa using here.1

/-- A coordinate within its white space reads in one way. -/
theorem coordinate_unique (white₁ white₂ white₃ white₄ first second left right : List Char) (c : Char)
    (same : white₁ ++ (first ++ (white₂ ++ c :: left)) = white₃ ++ (second ++ (white₄ ++ c :: right)))
    (space₁ : ∀ d ∈ white₁, Text.isSpace d = true) (space₂ : ∀ d ∈ white₂, Text.isSpace d = true)
    (space₃ : ∀ d ∈ white₃, Text.isSpace d = true) (space₄ : ∀ d ∈ white₄, Text.isSpace d = true)
    (made : first ≠ [] ∧ ∀ d ∈ first, inner d = true) (made' : second ≠ [] ∧ ∀ d ∈ second, inner d = true)
    (stop : inner c = false) (other : Text.isSpace c = false) : first = second ∧ left = right := by
  have behind := (front_unique Text.isSpace _ _ _ _ same space₁ space₃ (inner_start first _ made.1 made.2)
    (inner_start second _ made'.1 made'.2)).2
  obtain ⟨number,later⟩ := front_unique inner _ _ _ _ behind made.2 made'.2
    (gap_start white₂ space₂ c left _ stop inner_blank) (gap_start white₄ space₄ c right _ stop inner_blank)
  have last := (front_unique Text.isSpace _ _ _ _ later space₂ space₄ (by simp [other]) (by simp [other])).2
  exact ⟨number,(List.cons_eq_cons.mp last).2⟩

theorem numeral_inner (n : Numeral) : n.text ≠ [] ∧ ∀ c ∈ n.text, inner c = true :=
  ⟨n.some_,fun c member => inner_numeral c (n.made c member)⟩

/-- A vertex from its word on. -/
def Vertex.point (v : Vertex) (rest : List Char) : List Char :=
  pointWord ++ (v.beforeX.bare ++ (v.x.text ++ (v.afterX.bare ++ ',' :: (v.beforeY.bare ++
    (v.y.text ++ (v.afterY.bare ++ ')' :: rest))))))

def Vertex.plain (v : Vertex) : Prop := Plain v.x.text ∧ Plain v.y.text

theorem point_match (v : Vertex) (rest : List Char) (plain : v.plain) :
    matchAt pointRe (v.point rest) = some ([v.x.text,v.y.text],rest) := by
  have after (gap : Gap) (c : Char) (rest : List Char) (other : decimal c = false ∧ c ≠ '.') :
      ∀ d ∈ (gap.bare ++ c :: rest).head?, decimal d = false ∧ d ≠ '.' :=
    gap_start gap.bare (bare_space gap) c rest _ other (fun d space => ⟨(space_of d space).1,by rintro rfl; revert space; decide⟩)
  rw [matchAt,pointRe,Vertex.point]
  simp only [inOrder,List.foldr_cons,run_seq]
  rw [run_literal]
  refine run_white _ _ v.beforeX _ _ (inner_start v.x.text _ v.x.some_ (numeral_inner v.x).2) ?_
  refine run_group numberRe _ _ v.x.text _ _ (fun next found => ?_) ?_
  · exact run_number _ next v.x.text _ _ plain.1 (after v.afterX ',' _ (by decide)) found
  refine run_white _ _ v.afterX _ _ (by simp; decide) ?_
  rw [run_char]
  refine run_white _ _ v.beforeY _ _ (inner_start v.y.text _ v.y.some_ (numeral_inner v.y).2) ?_
  refine run_group numberRe _ _ v.y.text _ _ (fun next found => ?_) ?_
  · exact run_number _ next v.y.text _ _ plain.2 (after v.afterY ')' _ (by decide)) found
  refine run_white _ _ v.afterY _ _ (by simp; decide) ?_
  rw [run_char]
  rfl

/-- Where the search finds a vertex, the vertex is plain. -/
theorem match_plain (v : Vertex) (rest : List Char) (found : (matchAt pointRe (v.point rest)).isSome = true) : v.plain := by
  obtain ⟨⟨groups,left⟩,found⟩ := Option.isSome_iff_exists.mp found
  obtain ⟨taken,same,takes,_⟩ := matchAt_sound pointRe _ groups left found
  simp only [pointRe,inOrder,List.foldr_cons,List.foldr_nil] at takes
  obtain ⟨word,_,rfl,word_,white₁,_,rfl,space₁,number₁,_,rfl,takes₁,white₂,_,rfl,space₂,comma,_,rfl,⟨c,here,rfl⟩,
    white₃,_,rfl,space₃,number₂,_,rfl,takes₂,white₄,_,rfl,space₄,close,_,rfl,⟨d,there,rfl⟩,rfl⟩ := takes
  obtain rfl := takes_literal _ word _ word_
  obtain rfl := of_decide_eq_true here
  obtain rfl := of_decide_eq_true there
  have plain₁ : Plain number₁ := takes_number number₁ _ takes₁
  have plain₂ : Plain number₂ := takes_number number₂ _ takes₂
  simp only [Vertex.point,List.append_assoc,List.cons_append] at same
  obtain ⟨x,later⟩ := coordinate_unique _ _ _ _ _ _ _ (white₃ ++ (number₂ ++ (white₄ ++ ')' :: left))) ',' (List.append_cancel_left same) (bare_space _) (bare_space _)
    space₁ space₂ (numeral_inner v.x) (plain_inner _ plain₁) (by decide) (by decide)
  obtain ⟨y,_⟩ := coordinate_unique _ _ _ _ _ _ _ _ ')' later (bare_space _) (bare_space _)
    space₃ space₄ (numeral_inner v.y) (plain_inner _ plain₂) (by decide) (by decide)
  exact ⟨x ▸ plain₁,y ▸ plain₂⟩

theorem point_other (c : Char) (rest : List Char) (other : c ≠ 'p') : matchAt pointRe (c::rest) = none :=
  matchAt_word "oint(".toList 'p' _ c rest other

theorem past_other (front rest : List Char) (other : 'p' ∉ front) :
    findAll pointRe (front ++ rest) = findAll pointRe rest := by
  refine findAll_past pointRe front rest (fun before after same more => ?_)
  obtain ⟨c,after,rfl⟩ := List.exists_cons_of_ne_nil more
  refine point_other c _ (fun same_ => other ?_)
  rw [same,← same_]
  exact List.mem_append_right _ List.mem_cons_self

theorem past_coordinate (n : Numeral) (gap : Gap) (c : Char) (rest : List Char) (stop : inner c = false ∧ c ≠ '(') :
    findAll pointRe (n.text ++ (gap.bare ++ c :: rest)) = findAll pointRe (c::rest) := by
  have ends : ∀ d ∈ (gap.bare ++ c :: rest).head?, inner d = false ∧ d ≠ '(' :=
    gap_start gap.bare (bare_space gap) c rest _ stop
      (fun d space => ⟨inner_blank d space,by rintro rfl; exact absurd space (by decide)⟩)
  have blank : 'p' ∉ gap.bare := fun member => absurd (bare_space gap 'p' member) (by decide)
  refine Eq.trans ?_ (past_other gap.bare _ blank)
  refine findAll_past pointRe n.text _ (fun before after same _ => ?_)
  cases found : matchAt pointRe (after ++ (gap.bare ++ c :: rest)) with
  | none => rfl
  | some result =>
    obtain ⟨groups,left⟩ := result
    obtain ⟨taken,text,⟨word,more,rfl,takes,_⟩,_⟩ := matchAt_sound pointRe _ groups left found
    obtain rfl := takes_literal _ word _ takes
    have kept : ∀ d ∈ after, inner d = true :=
      fun d member => (numeral_inner n).2 d (same ▸ List.mem_append_right _ member)
    obtain ⟨_,same_⟩ := front_unique inner after "point".toList _ ('(' :: (more ++ left)) text kept
      (List.all_eq_true.mp (by decide))
      (fun d first => (ends d first).1) (by simp; decide)
    exact absurd rfl (ends '(' (by rw [same_]; rfl)).2

/-- The points of a text that begins with a vertex. -/
theorem findAll_vertex (v : Vertex) (rest : List Char) (plain : Bool) (meant : plain = true ↔ v.plain) :
    findAll pointRe (v.text Gap.bare ++ rest) = (if plain then [[v.x.text,v.y.text]] else []) ++ findAll pointRe rest := by
  have blank (gap : Gap) : 'p' ∉ gap.bare := fun member => absurd (bare_space gap 'p' member) (by decide)
  have text : v.text Gap.bare ++ rest = v.before.bare ++ v.point (v.after.bare ++ rest) := by
    simp only [Vertex.text,Vertex.point,List.append_assoc,List.cons_append]
  rw [text,past_other v.before.bare _ (blank v.before)]
  cases plain with
  | true =>
    have found := point_match v (v.after.bare ++ rest) (meant.mp rfl)
    obtain ⟨taken,same,_,_⟩ := matchAt_sound pointRe _ _ _ found
    have some_ : taken ≠ [] := by
      rintro rfl
      have sizes := congrArg List.length same
      simp only [Vertex.point,List.length_append,List.length_cons,List.length_nil] at sizes
      omega
    rw [same] at found ⊢
    rw [findAll_match pointRe taken _ _ some_ found,past_other _ rest (blank v.after)]
    rfl
  | false =>
    have none_ : matchAt pointRe (v.point (v.after.bare ++ rest)) = none := by
      cases found : matchAt pointRe (v.point (v.after.bare ++ rest)) with
      | none => rfl
      | some result => exact absurd (meant.mpr (match_plain v _ (Option.isSome_of_eq_some found))) (by decide)
    rw [Vertex.point] at none_ ⊢
    refine (findAll_skip pointRe 'p' _ none_).trans ?_
    calc findAll pointRe ("oint(".toList ++ _)
        = findAll pointRe (v.x.text ++ (v.afterX.bare ++ ',' :: (v.beforeY.bare ++ (v.y.text ++ (v.afterY.bare ++
            ')' :: (v.after.bare ++ rest)))))) := by rw [past_other _ _ (by decide),past_other _ _ (blank _)]
      _ = findAll pointRe ([','] ++ (v.beforeY.bare ++ (v.y.text ++ (v.afterY.bare ++ ')' :: (v.after.bare ++ rest))))) := by
        rw [past_coordinate v.x v.afterX ',' _ (by decide)]
        rfl
      _ = findAll pointRe (v.y.text ++ (v.afterY.bare ++ ')' :: (v.after.bare ++ rest))) := by
        rw [past_other _ _ (by decide),past_other _ _ (blank _)]
      _ = findAll pointRe ([')'] ++ (v.after.bare ++ rest)) := by
        rw [past_coordinate v.y v.afterY ')' _ (by decide)]
        rfl
      _ = findAll pointRe rest := by rw [past_other _ _ (by decide),past_other _ _ (blank _)]

section
variable (plain : Vertex → Bool) (meant : ∀ v, plain v = true ↔ v.plain)
include meant

theorem findAll_vertices (vertices : List Vertex) :
    findAll pointRe (verticesText Gap.bare vertices) = (vertices.filter plain).map (fun v => [v.x.text,v.y.text]) := by
  have one (v : Vertex) (rest : List Vertex) : ((v::rest).filter plain).map (fun v => [v.x.text,v.y.text]) =
      (if plain v then [[v.x.text,v.y.text]] else []) ++ (rest.filter plain).map (fun v => [v.x.text,v.y.text]) := by
    rw [List.filter_cons]
    split <;> rfl
  induction vertices with
  | nil => rfl
  | cons v rest ih =>
    cases rest with
    | nil =>
      have text := findAll_vertex v [] (plain v) (meant v)
      rw [List.append_nil] at text
      rw [one,verticesText,text]
      rfl
    | cons w rest =>
      rw [one,verticesText,findAll_vertex v _ (plain v) (meant v)]
      exact congrArg _ ((past_other [','] _ (by decide)).trans ih)

end

/-! ### Facts -/

theorem bracket_free (vertices : List Vertex) : ']' ∉ verticesText Gap.bare vertices := by
  have blank (gap : Gap) : ']' ∉ gap.bare := fun member => absurd (bare_space gap ']' member) (by decide)
  have numeral (n : Numeral) : ']' ∉ n.text := fun member => absurd (n.made ']' member) (by decide)
  have one (v : Vertex) : ']' ∉ v.text Gap.bare := by
    have word : ']' ∉ pointWord := by decide
    simp [Vertex.text,blank,numeral,word]
  induction vertices with
  | nil => exact List.not_mem_nil
  | cons v rest ih =>
    cases rest with
    | nil => exact one v
    | cons w rest =>
      rw [verticesText,List.mem_append,List.mem_cons]
      rintro (here | no | later)
      · exact one v here
      · exact absurd no (by decide)
      · exact ih later

def Fact.groups (f : Fact) : List (List Char) :=
  [f.beforeId.bare ++ (f.id.toList ++ f.afterId.bare),verticesText Gap.bare f.vertices]

theorem fact_match (f : Fact) (rest : List Char) :
    matchAt factRe (f.text Gap.bare ++ rest) = some (f.groups,f.after.bare ++ rest) := by
  have blank (gap : Gap) : ',' ∉ gap.bare := fun member => absurd (bare_space gap ',' member) (by decide)
  have text : f.text Gap.bare ++ rest = factWord ++ ((f.beforeId.bare ++ (f.id.toList ++ f.afterId.bare)) ++
      ',' :: (f.beforeList.bare ++ '[' :: (verticesText Gap.bare f.vertices ++ ']' ::
        (f.afterList.bare ++ ')' :: (f.beforeDot.bare ++ '.' :: (f.after.bare ++ rest)))))) := by
    simp only [Fact.text,List.append_assoc,List.cons_append]
  rw [matchAt,factRe,text]
  simp only [inOrder,List.foldr_cons,run_seq]
  rw [run_literal]
  refine run_group _ _ _ _ _ _ (fun next found => ?_) ?_
  · refine run_plus _ _ next _ _ _ ?_ (fun c member => ?_) (by simp) found
    · simp [String.toList_eq_nil_iff,f.some_]
    · have other : c ≠ ',' := by
        rintro rfl
        rcases List.mem_append.mp member with first | later
        · exact blank _ first
        · exact (List.mem_append.mp later).elim f.commaFree (blank _)
      simpa using other
  rw [run_char]
  refine run_white _ _ f.beforeList _ _ (by simp; decide) ?_
  rw [run_char]
  refine run_lazy_group _ ']' _ _ _ _ _ (fun _ _ => rfl) (bracket_free f.vertices) ?_
  refine run_white _ _ f.afterList _ _ (by simp; decide) ?_
  rw [run_char]
  refine run_white _ _ f.beforeDot _ _ (by simp; decide) ?_
  rw [run_char]
  rfl

theorem past_blank (gap : Gap) (rest : List Char) : findAll factRe (gap.bare ++ rest) = findAll factRe rest := by
  refine findAll_past factRe gap.bare rest (fun before after same more => ?_)
  obtain ⟨c,after,rfl⟩ := List.exists_cons_of_ne_nil more
  refine matchAt_word "bstacle_polygon(".toList 'o' _ c _ ?_
  rintro rfl
  exact absurd (bare_space gap 'o' (same ▸ List.mem_append_right _ List.mem_cons_self)) (by decide)

theorem findAll_facts (facts : List Fact) : findAll factRe (facts.flatMap (Fact.text Gap.bare)) = facts.map Fact.groups := by
  induction facts with
  | nil => rfl
  | cons f facts ih =>
    have found := fact_match f (facts.flatMap (Fact.text Gap.bare))
    obtain ⟨taken,same,_,_⟩ := matchAt_sound factRe _ _ _ found
    have some_ : taken ≠ [] := by
      rintro rfl
      have sizes := congrArg List.length same
      simp only [Fact.text,List.length_append,List.length_cons,List.length_nil] at sizes
      omega
    rw [List.flatMap_cons,List.map_cons,← ih]
    rw [same] at found ⊢
    rw [findAll_match factRe taken _ _ some_ found,past_blank]

/-! ### Documents -/

theorem strip_vertices (vertices : List Vertex) (rest : List Char) :
    eraseAll commentRe (verticesText Gap.written vertices ++ rest) =
      verticesText Gap.bare vertices ++ eraseAll commentRe rest := by
  have numeral (n : Numeral) : '%' ∉ n.text := fun member => absurd (n.made '%' member) (by decide)
  have one (v : Vertex) (rest : List Char) :
      eraseAll commentRe (v.text Gap.written ++ rest) = v.text Gap.bare ++ eraseAll commentRe rest := by
    simp only [Vertex.text,List.append_assoc,List.cons_append]
    rw [erase_gap,erase_plain pointWord _ (by decide),erase_gap,erase_plain _ _ (numeral v.x),erase_gap,
      erase_char ',' _ (by decide),erase_gap,erase_plain _ _ (numeral v.y),erase_gap,erase_char ')' _ (by decide),erase_gap]
  induction vertices with
  | nil => rfl
  | cons v more ih =>
    cases more with
    | nil => exact one v rest
    | cons w more =>
      rw [verticesText,List.append_assoc,one,List.cons_append,erase_char ',' _ (by decide),ih,verticesText,
        List.append_assoc,List.cons_append]

theorem strip_facts (facts : List Fact) (clean : ∀ f ∈ facts, '%' ∉ f.id.toList) :
    eraseAll commentRe (facts.flatMap (Fact.text Gap.written)) = facts.flatMap (Fact.text Gap.bare) := by
  induction facts with
  | nil => rfl
  | cons f facts ih =>
    rw [List.forall_mem_cons] at clean
    simp only [List.flatMap_cons,Fact.text,List.append_assoc,List.cons_append]
    rw [erase_plain factWord _ (by decide),erase_gap,erase_plain _ _ clean.1,erase_gap,erase_char ',' _ (by decide),erase_gap,
      erase_char '[' _ (by decide),strip_vertices,erase_char ']' _ (by decide),erase_gap,erase_char ')' _ (by decide),
      erase_gap,erase_char '.' _ (by decide),erase_gap,ih clean.2]

variable {F : Type} (float : List Char → F)

def Vertex.value (v : Vertex) : F × F := (float v.x.text,float v.y.text)

/-- What is read of a fact. -/
theorem polygonOfGroups_fact (f : Fact) (plain : Vertex → Bool) (meant : ∀ v, plain v = true ↔ v.plain) :
    polygonOfGroups float f.groups =
      if 3 ≤ (f.vertices.filter plain).length then some (f.id,(f.vertices.filter plain).map (Vertex.value float)) else none := by
  have points : (findAll pointRe (verticesText Gap.bare f.vertices)).filterMap (pointOfGroups float) =
      (f.vertices.filter plain).map (Vertex.value float) := by
    rw [findAll_vertices plain meant,List.filterMap_map,← List.filterMap_eq_map]
    rfl
  rw [Fact.groups,polygonOfGroups,points]
  simp only [List.length_map]
  rw [Text.strip_between f.id _ _ f.trimmed f.some_ (bare_space f.beforeId) (bare_space f.afterId)]

/-- The ids that are read hold no comment sign. -/
theorem loaded_clean (text : String) (polygon : String × List (F × F))
    (member : polygon ∈ loadObstaclePolygons float (some text)) : '%' ∉ polygon.1.toList := by
  intro sign
  obtain ⟨groups,found,made⟩ := List.mem_filterMap.mp member
  match groups,made with
  | [id,body],made =>
    rw [polygonOfGroups] at made
    split at made
    · obtain rfl := Option.some.inj made
      have inside := Text.strip_subset _ _ sign
      rw [String.toList_ofList] at inside
      exact erase_clean text.toList (findFrom_parts factRe _ _ _ found id List.mem_cons_self '%' inside)
    · cases made

/-- Where no id holds a comment sign, the document is read fact by fact. -/
theorem loaded_facts (head : Gap) (facts : List Fact) (clean : ∀ f ∈ facts, '%' ∉ f.id.toList) :
    loadObstaclePolygons float (some (String.ofList (documentText Gap.written head facts))) =
      facts.filterMap (fun f => polygonOfGroups float f.groups) := by
  rw [loadObstaclePolygons,String.toList_ofList,documentText,stripPrologComments,erase_gap,strip_facts facts clean,
    parseObstaclePolygons,past_blank,findAll_facts,List.filterMap_map]
  rfl

section
variable (text : String) (some_ : text.toList ≠ []) (made : text.toList.all numeralChar = true)

def numeral : Numeral := ⟨text.toList,some_,by simpa using made⟩

end

/-- `obstacle_polygon(pond, [point(6.1e-17, 2), point(0, 0), point(4, 0), point(4, 4)]).` -/
def pond : Fact where
  id := "pond"
  some_ := by decide
  commaFree := by decide
  trimmed := Text.trimmed_of "pond" 'p' 'd' rfl rfl rfl rfl
  vertices := [{x := numeral "6.1e-17" (by decide) (by decide),y := numeral "2" (by decide) (by decide)},
    {x := numeral "0" (by decide) (by decide),y := numeral "0" (by decide) (by decide)},
    {x := numeral "4" (by decide) (by decide),y := numeral "0" (by decide) (by decide)},
    {x := numeral "4" (by decide) (by decide),y := numeral "4" (by decide) (by decide)}]
  many := by decide

end AmigaFleet.Planners
