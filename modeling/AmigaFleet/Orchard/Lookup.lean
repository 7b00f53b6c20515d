import Mathlib.Data.Real.Basic
import Mathlib.Algebra.Order.Floor.Ring
import Mathlib.Analysis.SpecialFunctions.Trigonometric.Basic

/-! The orchard lookup service: which records of the cached document answer a request,
what of them is asked for, and the metric offset on their coordinates. -/
namespace AmigaFleet.Orchard

/-- A parsed value. The fields of an object stand in the order of their keys. -/
inductive Value (K : Type) where
  | null
  | boolean (b : Bool)
  | integer (n : Int)
  | float (x : K)
  | string (s : String)
  | array (items : List (Value K))
  | object (fields : List (String × Value K))

structure LookupRequest where
  indexType : Fin 256
  indicies : List (Fin 256)
  fields : List String

abbrev Record (K : Type) := List (String × Value K)

namespace Value
variable {K : Type}

/-- `contains(key)` and `[key]`. -/
def get? (key : String) : Value K → Option (Value K)
  | object fields => fields.lookup key
  | _ => none

def items? : Option (Value K) → Option (List (Value K))
  | some (array items) => some items
  | _ => none

def fields? : Option (Value K) → Option (Record K)
  | some (object fields) => some fields
  | _ => none

/-- `is_number()` and `get<double>()`. -/
def number [IntCast K] : Value K → Option K
  | integer n => some (n : K)
  | float x => some x
  | _ => none

end Value

section
variable {K : Type} [Field K] (cos : K → K) (pi : K)

def earthRadiusM : K := ((6378137 : Nat) : K)

def addMetersToGps (latDeg lonDeg dxEastM dyNorthM : K) : K × K :=
  let degrees : K := ((180 : Nat) : K)
  let latRad := latDeg*pi/degrees
  let dlat := dyNorthM/earthRadiusM
  let dlon := dxEastM/(earthRadiusM*cos latRad)
  (latDeg + dlat*degrees/pi,lonDeg + dlon*degrees/pi)

variable (offset : K → K → K × K)

/-- The value of a key that is there replaced. -/
def modify (key : String) (f : Value K → Value K) (fields : Record K) : Record K :=
  fields.map (fun e => (e.1,if e.1 = key then f e.2 else e.2))

/-- The coordinates under two keys, where both are numbers, with the offset. -/
def adjusted (fields : Record K) (latKey lonKey : String) : Option (K × K) :=
  match (fields.lookup latKey).bind Value.number,(fields.lookup lonKey).bind Value.number with
  | some lat,some lon => some (offset lat lon)
  | _,_ => none

def applyOffsetToKeys (fields : Record K) (latKey lonKey : String) : Record K :=
  match adjusted offset fields latKey lonKey with
  | none => fields
  | some adj => modify lonKey (fun _ => .float adj.2) (modify latKey (fun _ => .float adj.1) fields)

def offsetWaypoint : Value K → Value K
  | .array (lat::lon::rest) =>
    match lat.number,lon.number with
    | some x,some y => .array (.float (offset x y).1 :: .float (offset x y).2 :: rest)
    | _,_ => .array (lat::lon::rest)
  | other => other

def applyOffsetToRowWaypoints : Value K → Value K
  | .array waypoints => .array (waypoints.map (offsetWaypoint offset))
  | other => other

def offsetEntrance : Value K → Value K
  | .object fields => .object (applyOffsetToKeys offset fields "lat" "lon")
  | other => other

def offsetEntrances : Value K → Value K
  | .array entrances => .array (entrances.map (offsetEntrance offset))
  | other => other

def includeField (fields : List String) (k : String) : Bool := fields.isEmpty || k ∈ fields

def fieldNames : List String := ["tree_index","row","col","lat","lon","row_waypoints","aisle_entrances"]

/-- The fields that are asked for and there. -/
def chosen (fields : List String) (obj : Value K) : Record K :=
  (fieldNames.filter (includeField fields)).filterMap (fun field => (obj.get? field).map (fun value => (field,value)))

def projectObj (fields : List String) (obj : Value K) : Record K :=
  let out := applyOffsetToKeys offset (chosen fields obj) "lat" "lon"
  modify "aisle_entrances" (offsetEntrances offset)
    (modify "row_waypoints" (applyOffsetToRowWaypoints offset) out)

variable [LinearOrder K] [FloorRing K] (undefined : K → Int)

def intEnd : Int := 2^31

/-- `static_cast<int>` of a double. Outside the range of `int` the language leaves it open. -/
def truncate (x : K) : Int :=
  let n := if 0 ≤ x then ⌊x⌋ else ⌈x⌉
  if -intEnd ≤ n ∧ n < intEnd then n else undefined x

/-- `get<int>()` of a number. -/
def getInt : Value K → Option Int
  | .integer n => some (n.bmod (2^32))
  | .float x => some (truncate undefined x)
  | _ => none

/-- `std::stoi`. -/
def stoi (text : String) : Option Int :=
  let body := text.toList.dropWhile (fun c => c.toNat ∈ [9,10,11,12,13,32])
  let digits := ((if body.head? ∈ [some '-',some '+'] then body.tail else body).takeWhile Char.isDigit)
  let value : Int := digits.foldl (fun n c => 10*n + (c.toNat - 48)) 0
  let n := if body.head? = some '-' then -value else value
  if digits = [] ∨ ¬(-intEnd ≤ n ∧ n < intEnd) then none else some n

def keyOf (indexType : Fin 256) : String :=
  match indexType.val with
  | 0 => "tree_index"
  | 1 => "row"
  | 2 => "col"
  | 3 => "aisle_index"
  | _ => ""

def isInteger : Value K → Bool
  | .integer _ => true
  | _ => false

/-- The entrances with an index, as they are returned. -/
def entranceByIndex (entrances : List (Value K)) (index : Int) : Option (Value K) :=
  (entrances.reverse.find? (fun entrance =>
    ((entrance.get? "entrance_index").filter isInteger).bind (getInt undefined) = some index)).map (offsetEntrance offset)

def aisleRecord (request : LookupRequest) (table : Record K) (entrances : List (Value K)) (aisle : Int) : Option (Record K) :=
  (Value.items? (table.lookup (toString aisle))).map (fun indices =>
    ("aisle_index",.integer aisle) :: (if includeField request.fields "aisle_entrances" then
      [("aisle_entrances",.array (indices.filterMap (fun index =>
        (((some index).filter isInteger).bind (getInt undefined)).bind (entranceByIndex offset undefined entrances))))]
    else []))

/-- Whether the record of a tree answers the request. -/
def selects (request : LookupRequest) (obj : Value K) : Bool :=
  keyOf request.indexType = "" ||
    match (obj.get? (keyOf request.indexType)).bind (getInt undefined) with
    | none => false
    | some val => request.indicies.isEmpty || val ∈ request.indicies.map (fun v => (v.val : Int))

/-- `handle_request`: the records of the answer. -/
def handleRequest (data : Option (Value K)) (request : LookupRequest) : List (Record K) :=
  match Value.items? (data.bind (Value.get? "trees")) with
  | none => []
  | some trees =>
    if request.indexType = 3 then
      match Value.fields? (data.bind (Value.get? "aisle_to_entrance_indices")),
          Value.items? (data.bind (Value.get? "aisle_entrances")) with
      | some table,some entrances =>
        let filters := request.indicies.map (fun v => (v.val : Int))
        let aisles := if filters.isEmpty then table.filterMap (fun e => stoi e.1) else filters
        aisles.filterMap (aisleRecord offset undefined request table entrances)
      | _,_ => []
    else (trees.filter (selects undefined request)).map (projectObj offset request.fields)

/-- The key is there, and its number among the indices, if there are any. -/
def wanted (request : LookupRequest) (obj : Value K) : Bool :=
  match obj.get? (keyOf request.indexType) with
  | none => false
  | some value => request.indicies.isEmpty || request.indicies.any (fun i => value.number = some ((i.val : Nat) : K))

/-- A record cut down to the requested fields. -/
def cutDown (fields : List String) (record : Record K) : Record K := record.filter (fun e => includeField fields e.1)

/-- What a filter by fields should be: a projection of the answer to the same request
without it, which has the wanted records. -/
structure Projection (data : Option (Value K)) (trees : List (Value K)) (request : LookupRequest) : Prop where
  cut : handleRequest offset undefined data request =
    (handleRequest offset undefined data { request with fields := [] }).map (cutDown request.fields)
  exact : handleRequest offset undefined data { request with fields := [] } =
    (trees.filter (wanted request)).map (projectObj offset [])

/-- The key of a record is a number, if every record is asked for, and otherwise is not
taken for an index that it is not. -/
def KeyReads (request : LookupRequest) (obj : Value K) : Prop :=
  ∀ value, obj.get? (keyOf request.indexType) = some value →
    if request.indicies = [] then value.number.isSome = true
    else ∀ i ∈ request.indicies, getInt undefined value = some (i.val : Int) →
      ∃ i ∈ request.indicies, value.number = some ((i.val : Nat) : K)

/-- A coordinate that is asked for without the other is one that the offset leaves. -/
def HalfSteady (fields : List String) (obj : Value K) : Prop :=
  ∀ lat lon x y, obj.get? "lat" = some lat → obj.get? "lon" = some lon → lat.number = some x → lon.number = some y →
    (includeField fields "lat" = true → includeField fields "lon" = false → lat = .float (offset x y).1) ∧
    (includeField fields "lon" = true → includeField fields "lat" = false → lon = .float (offset x y).2)

end

section
variable {K : Type}

theorem filterMap_key (names : List String) (p : String → Bool) (f : String → Option (Value K)) :
    (names.filter p).filterMap (fun field => (f field).map (fun value => (field,value))) =
      (names.filterMap (fun field => (f field).map (fun value => (field,value)))).filter (fun e => p e.1) := by
  induction names with
  | nil => rfl
  | cons name names ih =>
    cases asked : p name <;> cases found : f name <;> simp [asked,found,ih]

theorem chosen_filter (fields : List String) (obj : Value K) :
    chosen fields obj = (chosen [] obj).filter (fun e => includeField fields e.1) := by
  have all : fieldNames.filter (includeField []) = fieldNames := List.filter_eq_self.mpr (fun _ _ => rfl)
  rw [chosen,chosen,all]
  exact filterMap_key fieldNames (includeField fields) (fun field => obj.get? field)

theorem lookup_filterMap (names : List String) (f : String → Option (Value K)) (key : String) :
    (names.filterMap (fun field => (f field).map (fun value => (field,value)))).lookup key =
      if key ∈ names then f key else none := by
  induction names with
  | nil => rfl
  | cons name names ih =>
    by_cases here : key = name
    · subst here
      cases found : f key with
      | none => simp [found,ih]
      | some value => simp [found]
    · cases found : f name with
      | none => simp [found,ih,here]
      | some value =>
        have other : (key == name) = false := by simpa using here
        simp [found,ih,here,List.lookup_cons,other]

theorem lookup_chosen (fields : List String) (obj : Value K) (key : String) (named : key ∈ fieldNames) :
    (chosen fields obj).lookup key = if includeField fields key then obj.get? key else none := by
  rw [chosen,lookup_filterMap]
  simp [named]

theorem mem_chosen (fields : List String) (obj : Value K) (e : String × Value K) :
    e ∈ chosen fields obj ↔ e.1 ∈ fieldNames ∧ includeField fields e.1 = true ∧ obj.get? e.1 = some e.2 := by
  rw [chosen,List.mem_filterMap]
  constructor
  · rintro ⟨field,member,found⟩
    obtain ⟨value,there,rfl⟩ := Option.map_eq_some_iff.mp found
    exact ⟨(List.mem_filter.mp member).1,(List.mem_filter.mp member).2,there⟩
  · rintro ⟨named,asked,there⟩
    exact ⟨e.1,List.mem_filter.mpr ⟨named,asked⟩,by rw [there]; rfl⟩

end

section
variable {K : Type} [Field K] (offset : K → K → K × K)

/-- The value of a field after the offset on a pair of coordinates. -/
def moved (pair : Option (K × K)) (e : String × Value K) : Value K :=
  match pair with
  | none => e.2
  | some adj => if e.1 = "lon" then .float adj.2 else if e.1 = "lat" then .float adj.1 else e.2

def finished (pair : Option (K × K)) (e : String × Value K) : String × Value K :=
  let waypoints := if e.1 = "row_waypoints" then applyOffsetToRowWaypoints offset (moved pair e) else moved pair e
  (e.1,if e.1 = "aisle_entrances" then offsetEntrances offset waypoints else waypoints)

theorem projectObj_map (fields : List String) (obj : Value K) :
    projectObj offset fields obj =
      (chosen fields obj).map (finished offset (adjusted offset (chosen fields obj) "lat" "lon")) := by
  have first : applyOffsetToKeys offset (chosen fields obj) "lat" "lon" =
      (chosen fields obj).map (fun e => (e.1,moved (adjusted offset (chosen fields obj) "lat" "lon") e)) := by
    rw [applyOffsetToKeys]
    cases adjusted offset (chosen fields obj) "lat" "lon" with
    | none => simp [moved]
    | some adj => simp [moved,modify,Function.comp_def]
  rw [projectObj,first]
  simp [modify,finished,Function.comp_def]

theorem adjusted_some (fields : Record K) (adj : K × K) :
    adjusted offset fields "lat" "lon" = some adj ↔ ∃ lat lon x y, fields.lookup "lat" = some lat ∧
      fields.lookup "lon" = some lon ∧ lat.number = some x ∧ lon.number = some y ∧ offset x y = adj := by
  rw [adjusted]
  constructor
  · intro found
    split at found
    · rename_i x y latFound lonFound
      obtain ⟨lat,here,number⟩ := Option.bind_eq_some_iff.mp latFound
      obtain ⟨lon,there,other⟩ := Option.bind_eq_some_iff.mp lonFound
      exact ⟨lat,lon,x,y,here,there,number,other,Option.some.inj found⟩
    · cases found
  · rintro ⟨lat,lon,x,y,here,there,number,other,rfl⟩
    simp [here,there,number,other]

/-- Where one coordinate is not asked for, the other is not adjusted. -/
theorem adjusted_half (fields : List String) (obj : Value K) (key : String) (pair : key = "lat" ∨ key = "lon")
    (missing : includeField fields key = false) : adjusted offset (chosen fields obj) "lat" "lon" = none := by
  rw [Option.eq_none_iff_forall_not_mem]
  intro adj found
  obtain ⟨lat,lon,_,_,here,there,_⟩ := (adjusted_some offset _ adj).mp found
  rw [lookup_chosen fields obj _ (by decide)] at here there
  rcases pair with rfl | rfl
  · rw [missing] at here
    cases here
  · rw [missing] at there
    cases there

theorem adjusted_both (fields : List String) (obj : Value K) (lat : includeField fields "lat" = true)
    (lon : includeField fields "lon" = true) :
    adjusted offset (chosen fields obj) "lat" "lon" = adjusted offset (chosen [] obj) "lat" "lon" := by
  have same (key : String) (named : key ∈ fieldNames) (asked : includeField fields key = true) :
      (chosen fields obj).lookup key = (chosen [] obj).lookup key := by
    rw [lookup_chosen fields obj key named,lookup_chosen [] obj key named,asked]
    rfl
  rw [adjusted,adjusted,same "lat" (by decide) lat,same "lon" (by decide) lon]

theorem cut_iff (fields : List String) (obj : Value K) :
    projectObj offset fields obj = cutDown fields (projectObj offset [] obj) ↔ HalfSteady offset fields obj := by
  have keys : (fun e => includeField fields e.1) ∘ finished offset (adjusted offset (chosen [] obj) "lat" "lon") =
      fun e : String × Value K => includeField fields e.1 := rfl
  rw [projectObj_map,projectObj_map,cutDown,List.filter_map,keys,← chosen_filter,List.map_inj_left]
  constructor
  · intro same lat lon x y latThere lonThere number other
    have latNamed : "lat" ∈ fieldNames := by decide
    have lonNamed : "lon" ∈ fieldNames := by decide
    have full : adjusted offset (chosen [] obj) "lat" "lon" = some (offset x y) := by
      refine (adjusted_some offset _ _).mpr ⟨lat,lon,x,y,?_,?_,number,other,rfl⟩
      · exact (lookup_chosen [] obj "lat" (by decide)).trans latThere
      · exact (lookup_chosen [] obj "lon" (by decide)).trans lonThere
    constructor
    · intro asked missing
      have here := same ("lat",lat) ((mem_chosen fields obj _).mpr ⟨latNamed,asked,latThere⟩)
      rw [full,adjusted_half offset fields obj "lon" (.inr rfl) missing] at here
      simpa [finished,moved] using here
    · intro asked missing
      have here := same ("lon",lon) ((mem_chosen fields obj _).mpr ⟨lonNamed,asked,lonThere⟩)
      rw [full,adjusted_half offset fields obj "lat" (.inl rfl) missing] at here
      simpa [finished,moved] using here
  · intro steady e member
    obtain ⟨_,asked,there⟩ := (mem_chosen fields obj e).mp member
    have settled (pair : Option (K × K)) (same : moved pair e = moved none e) :
        finished offset none e = finished offset pair e := by
      rw [finished,finished,same]
    cases full : adjusted offset (chosen [] obj) "lat" "lon" with
    | none =>
      have none_ : adjusted offset (chosen fields obj) "lat" "lon" = none := by
        cases lat : includeField fields "lat" with
        | false => exact adjusted_half offset fields obj "lat" (.inl rfl) lat
        | true =>
          cases lon : includeField fields "lon" with
          | false => exact adjusted_half offset fields obj "lon" (.inr rfl) lon
          | true => exact (adjusted_both offset fields obj lat lon).trans full
      rw [none_]
    | some adj =>
      obtain ⟨lat,lon,x,y,here,here',number,other,rfl⟩ := (adjusted_some offset _ adj).mp full
      rw [lookup_chosen [] obj _ (by decide)] at here here'
      obtain ⟨steadyLat,steadyLon⟩ := steady lat lon x y here here' number other
      cases latAsked : includeField fields "lat" with
      | true =>
        cases lonAsked : includeField fields "lon" with
        | true => rw [adjusted_both offset fields obj latAsked lonAsked,full]
        | false =>
          rw [adjusted_half offset fields obj "lon" (.inr rfl) lonAsked]
          refine settled _ ?_
          have other : e.1 ≠ "lon" := fun same => by rw [same,lonAsked] at asked; cases asked
          by_cases isLat : e.1 = "lat"
          · have value : lat = e.2 := Option.some.inj (here.symm.trans (isLat ▸ there))
            simp [moved,isLat,← value,← steadyLat latAsked lonAsked]
          · simp [moved,isLat,other]
      | false =>
        rw [adjusted_half offset fields obj "lat" (.inl rfl) latAsked]
        refine settled _ ?_
        have other : e.1 ≠ "lat" := fun same => by rw [same,latAsked] at asked; cases asked
        by_cases isLon : e.1 = "lon"
        · have value : lon = e.2 := Option.some.inj (here'.symm.trans (isLon ▸ there))
          simp [moved,isLon,← value,← steadyLon (isLon ▸ asked) latAsked]
        · simp [moved,isLon,other]

end

/-! ### Which records -/

theorem filter_agree {α β : Type} (f : α → β) (p q : α → Bool) (l : List α) (less : ∀ a ∈ l, p a = true → q a = true) :
    (l.filter p).map f = (l.filter q).map f ↔ ∀ a ∈ l, p a = q a := by
  constructor
  · intro same
    have sizes := congrArg List.length same
    rw [List.length_map,List.length_map] at sizes
    have sub : (l.filter p).Sublist (l.filter q) := by
      have both : l.filter p = (l.filter q).filter p := by
        rw [List.filter_filter]
        refine List.filter_congr (fun a member => ?_)
        cases here : p a with
        | false => rfl
        | true => rw [less a member here]; rfl
      rw [both]
      exact List.filter_sublist
    have equal := sub.eq_of_length sizes
    intro a member
    have iff_ : a ∈ l.filter p ↔ a ∈ l.filter q := by rw [equal]
    rw [List.mem_filter,List.mem_filter] at iff_
    exact Bool.eq_iff_iff.mpr ⟨fun here => (iff_.mp ⟨member,here⟩).2,fun here => (iff_.mpr ⟨member,here⟩).2⟩
  · intro same
    rw [List.filter_congr same]

section
variable {K : Type} [Field K] [LinearOrder K] (request : LookupRequest) (obj value : Value K)

theorem wanted_some (there : obj.get? (keyOf request.indexType) = some value) :
    wanted request obj = true ↔ request.indicies = [] ∨ ∃ i ∈ request.indicies, value.number = some ((i.val : Nat) : K) := by
  rw [wanted,there]
  simp

variable [FloorRing K] (undefined : K → Int)

theorem getInt_number : (getInt undefined value).isSome = value.number.isSome := by
  cases value <;> rfl

theorem selects_some (named : keyOf request.indexType ≠ "") (there : obj.get? (keyOf request.indexType) = some value) :
    selects undefined request obj = true ↔ ∃ n, getInt undefined value = some n ∧
      (request.indicies = [] ∨ ∃ i ∈ request.indicies, (i.val : Int) = n) := by
  rw [selects,there,Option.bind_some]
  cases getInt undefined value with
  | none => simp [named]
  | some n => simp [named]

variable [IsStrictOrderedRing K]

/-- A number that is an index is read as that index. -/
theorem getInt_index (i : Fin 256) (number : value.number = some ((i.val : Nat) : K)) :
    getInt undefined value = some (i.val : Int) := by
  have small := i.isLt
  cases value with
  | integer n =>
    have same : n = (i.val : Int) := by
      have cast := Option.some.inj number
      exact_mod_cast cast
    rw [getInt,same,Int.bmod_eq_of_le (by omega) (by omega)]
  | float x =>
    obtain rfl : x = ((i.val : Nat) : K) := Option.some.inj number
    rw [getInt,truncate,if_pos (Nat.cast_nonneg _),Int.floor_natCast,if_pos (by rw [intEnd]; omega)]
  | null | boolean | string | array | object => cases number

theorem selects_wanted_iff (named : keyOf request.indexType ≠ "") :
    selects undefined request obj = wanted request obj ↔ KeyReads undefined request obj := by
  cases there : obj.get? (keyOf request.indexType) with
  | none =>
    have first : selects undefined request obj = false := by
      rw [selects,there]
      simp [named]
    have second : wanted request obj = false := by rw [wanted,there]
    rw [first,second]
    refine ⟨fun _ value found => ?_,fun _ => rfl⟩
    rw [there] at found
    cases found
  | some value =>
    rw [Bool.eq_iff_iff,selects_some request obj value undefined named there,wanted_some request obj value there]
    constructor
    · intro same value' found
      obtain rfl : value = value' := Option.some.inj (there.symm.trans found)
      split
      · rename_i every
        obtain ⟨n,got,_⟩ := same.mpr (.inl every)
        rw [← getInt_number value undefined,got]
        rfl
      · rename_i some_
        exact fun i member got => (same.mp ⟨_,got,.inr ⟨i,member,rfl⟩⟩).resolve_left some_
    · intro reads
      have here := reads value there
      by_cases every : request.indicies = []
      · rw [if_pos every,← getInt_number value undefined] at here
        obtain ⟨n,got⟩ := Option.isSome_iff_exists.mp here
        exact ⟨fun _ => .inl every,fun _ => ⟨n,got,.inl every⟩⟩
      · rw [if_neg every] at here
        constructor
        · rintro ⟨n,got,no | ⟨i,member,rfl⟩⟩
          · exact absurd no every
          · exact .inr (here i member got)
        · rintro (no | ⟨i,member,number⟩)
          · exact absurd no every
          · exact ⟨_,getInt_index value undefined i number,.inr ⟨i,member,rfl⟩⟩

/-- Where every record is asked for, no other than a wanted one is selected; where
some are, every wanted one is. -/
theorem selects_exact_iff {β : Type} (f : Value K → β) (trees : List (Value K)) (named : keyOf request.indexType ≠ "") :
    (trees.filter (selects undefined request)).map f = (trees.filter (wanted request)).map f ↔
      ∀ obj ∈ trees, KeyReads undefined request obj := by
  have each : (∀ obj ∈ trees, selects undefined request obj = wanted request obj) ↔
      ∀ obj ∈ trees, KeyReads undefined request obj :=
    forall₂_congr (fun obj _ => selects_wanted_iff request obj undefined named)
  rw [← each]
  by_cases every : request.indicies = []
  · refine filter_agree f _ _ trees (fun obj _ here => ?_)
    cases there : obj.get? (keyOf request.indexType) with
    | none =>
      rw [selects,there] at here
      simp [named] at here
    | some value => exact (wanted_some request obj value there).mpr (.inl every)
  · have back := filter_agree f (wanted request) (selects undefined request) trees (fun obj _ here => ?_)
    · rw [eq_comm,back]
      exact forall₂_congr (fun obj _ => eq_comm)
    · cases there : obj.get? (keyOf request.indexType) with
      | none =>
        rw [wanted,there] at here
        cases here
      | some value =>
        obtain ⟨i,member,number⟩ := ((wanted_some request obj value there).mp here).resolve_left every
        exact (selects_some request obj value undefined named there).mpr
          ⟨_,getInt_index value undefined i number,.inr ⟨i,member,rfl⟩⟩

end

/-! ### Answers -/

section
variable {K : Type} [Field K] [LinearOrder K] [FloorRing K] (offset : K → K → K × K) (undefined : K → Int)
  (data : Option (Value K)) (trees : List (Value K)) (found : Value.items? (data.bind (Value.get? "trees")) = some trees)
  (request : LookupRequest) (plain : request.indexType.val < 3)
include found plain

theorem handle_trees : handleRequest offset undefined data request =
    (trees.filter (selects undefined request)).map (projectObj offset request.fields) := by
  have other : request.indexType ≠ 3 := by
    intro same
    rw [same] at plain
    exact absurd plain (by decide)
  rw [handleRequest,found]
  exact if_neg other

theorem handle_cut_iff :
    handleRequest offset undefined data request =
        (handleRequest offset undefined data { request with fields := [] }).map (cutDown request.fields) ↔
      ∀ obj ∈ trees, selects undefined request obj = true → HalfSteady offset request.fields obj := by
  have whole := handle_trees offset undefined data trees found { request with fields := [] } plain
  rw [handle_trees offset undefined data trees found request plain,whole,List.map_map]
  refine List.map_inj_left.trans ⟨fun same obj member here => ?_,fun steady obj member => ?_⟩
  · exact (cut_iff offset request.fields obj).mp (same obj (List.mem_filter.mpr ⟨member,here⟩))
  · exact (cut_iff offset request.fields obj).mpr (steady obj (List.mem_filter.mp member).1 (List.mem_filter.mp member).2)

end

theorem keyOf_named (indexType : Fin 256) (plain : indexType.val < 3) : keyOf indexType ≠ "" := by
  rw [keyOf]
  match indexType.val,plain with
  | 0,_ | 1,_ | 2,_ => decide

/-- The fields filter is a projection exactly when every key reads as the number that
it is, and a coordinate that is asked for without the other does not move. -/
theorem lookup_projection_iff {K : Type} [Field K] [LinearOrder K] [IsStrictOrderedRing K] [FloorRing K] (cos : K → K)
    (pi xOffset yOffset : K) (undefined : K → Int) (data : Option (Value K)) (trees : List (Value K))
    (found : Value.items? (data.bind (Value.get? "trees")) = some trees) (request : LookupRequest)
    (plain : request.indexType.val < 3) :
    Projection (fun lat lon => addMetersToGps cos pi lat lon xOffset yOffset) undefined data trees request ↔
      (∀ obj ∈ trees, KeyReads undefined request obj) ∧ ∀ obj ∈ trees, selects undefined request obj = true →
        HalfSteady (fun lat lon => addMetersToGps cos pi lat lon xOffset yOffset) request.fields obj := by
  have named := keyOf_named request.indexType plain
  have exact_ := selects_exact_iff request undefined
    (projectObj (fun lat lon => addMetersToGps cos pi lat lon xOffset yOffset) []) trees named
  have whole := handle_trees (fun lat lon => addMetersToGps cos pi lat lon xOffset yOffset) undefined data trees found
    { request with fields := [] } plain
  have cut := handle_cut_iff (fun lat lon => addMetersToGps cos pi lat lon xOffset yOffset) undefined data trees found
    request plain
  constructor
  · rintro ⟨first,second⟩
    exact ⟨exact_.mp (whole.symm.trans second),cut.mp first⟩
  · rintro ⟨reads,steady⟩
    exact ⟨cut.mpr steady,whole.trans (exact_.mpr reads)⟩

/-- A tree at a latitude of 37 degrees and a longitude of -120. -/
noncomputable def pear : Value ℝ :=
  .object [("tree_index",.integer 3),("row",.integer 1),("col",.integer 2),("lat",.float 37),("lon",.float (-120))]

noncomputable def pearDocument : Option (Value ℝ) := some (.object [("trees",.array [pear])])

/-- With an offset of a metre to the north, the latitude alone is the one without it. -/
theorem latitude_alone_unmoved :
    ¬Projection (fun lat lon => addMetersToGps Real.cos Real.pi lat lon 0 1) (fun _ => 0) pearDocument [pear]
      ⟨0,[3],["lat"]⟩ := by
  intro projection
  have selected : selects (fun _ => 0) ⟨0,[3],["lat"]⟩ pear = true :=
    (selects_some ⟨0,[3],["lat"]⟩ pear (.integer 3) _ (by decide) rfl).mpr ⟨3,rfl,.inr ⟨3,List.mem_cons_self,rfl⟩⟩
  have steady := (handle_cut_iff _ _ _ [pear] rfl ⟨0,[3],["lat"]⟩ (by decide)).mp projection.cut pear List.mem_cons_self selected
  have same := (steady (.float 37) (.float (-120)) 37 (-120) rfl rfl rfl rfl).1 rfl rfl
  have moved : (37 : ℝ) = (addMetersToGps Real.cos Real.pi 37 (-120) 0 1).1 := by
    simpa using same
  have pi_ := Real.pi_pos
  simp [addMetersToGps,earthRadiusM,pi_.ne'] at moved

theorem lookup_projection_pear :
    Projection (fun lat lon => addMetersToGps Real.cos Real.pi lat lon 0 1) (fun _ => 0) pearDocument [pear]
      ⟨0,[3],["lat","lon"]⟩ := by
  refine (lookup_projection_iff Real.cos Real.pi 0 1 (fun _ => 0) pearDocument [pear] rfl ⟨0,[3],["lat","lon"]⟩
    (by decide)).mpr ⟨?_,?_⟩
  · intro obj member value found
    obtain rfl := List.mem_singleton.mp member
    obtain rfl : .integer 3 = value := Option.some.inj found
    rw [if_neg (List.cons_ne_nil _ _)]
    exact fun _ _ _ => ⟨3,List.mem_cons_self,by simp [Value.number]⟩
  · intro obj member selected lat lon x y here there number other
    exact ⟨fun _ no => absurd no (by decide),fun _ no => absurd no (by decide)⟩

end AmigaFleet.Orchard
