import AmigaFleet.Orchard.Documents
import AmigaFleet.Lib.Gather
import AmigaFleet.Lib.Results

/-! The three Python readers of the orchard document: where things are, which aisle a
tree is in, and what stands in the way. When they return, and what a malformed
record costs. -/
namespace AmigaFleet.Orchard
open Lib

abbrev Fields := List (String × Json)

/-- The point of two values that should be numbers. -/
def pointAt (lat lon : Json) : Except Raised (Option Point) :=
  if isNumber lat && isNumber lon then do
    let lat ← toDouble lat
    let lon ← toDouble lon
    return some ⟨lat,lon⟩
  else .ok none

def pointOf (record : Json) : Except Raised (Option Point) :=
  match record with
  | .dict fields => pointAt ((fields.lookup "lat").getD .null) ((fields.lookup "lon").getD .null)
  | _ => .ok none

/-- `record.get(key)` where it is an integer. -/
def indexOf (key : String) (record : Json) : Option Int :=
  match record with
  | .dict fields => (fields.lookup key).bind asInt
  | _ => none

/-- A record with its index and its point. -/
def entryOf (key : String) (record : Json) : Except Raised (Option (Int × Point)) := do
  let point ← pointOf record
  return (indexOf key record).bind (fun index => point.map (fun p => (index,p)))

def entranceAt (entrances : Dict Int Point) (i : Json) : Except Raised (Option Point) := do
  let key ← asKey i
  return key.bind entrances.get?

/-- An aisle with its ends. -/
def endsOf (entrances : Dict Int Point) (entry : String × Json) : Except Raised (Option (Int × List Point)) :=
  match readInt entry.1 with
  | none => .ok none
  | some aisle => do
    let indices ← members (orEmpty (some entry.2))
    let ends ← collect (entranceAt entrances) indices
    return if ends = [] then none else some (aisle,ends)

/-- Every aisle of the document that has an end. -/
def aislesOf (entrances : Dict Int Point) (data : Fields) : Except Raised (Dict Int (List Point)) :=
  match data.lookup "aisle_to_entrance_indices" with
  | some (.dict mapping) => gather (endsOf entrances) mapping .empty
  | _ => .ok .empty

section
variable (loads : String → Except LoadError Json)

/-- `parse_orchard`. A `RecursionError` of `json.loads` is not caught. -/
def parseOrchard (payload : String) : Except Raised (Dict Int Point × Dict Int (List Point)) :=
  match loads payload with
  | .error .recursionError => .error .recursionError
  | .error _ => .ok (.empty,.empty)
  | .ok (.dict data) => do
    let trees ← gather (entryOf "tree_index") (← members (orEmpty (data.lookup "trees"))) .empty
    let entrances ← gather (entryOf "entrance_index") (← members (orEmpty (data.lookup "aisle_entrances"))) .empty
    let aisles ← aislesOf entrances data
    return (trees,aisles)
  | .ok _ => .ok (.empty,.empty)

/-- `AXIS_FIELD.get`. -/
def axisField (axis : String) : Option String :=
  if axis = "column" then some "col" else if axis = "row" then some "row" else none

def declaredAisles (data : Fields) : List Int :=
  match data.lookup "aisle_to_entrance_indices" with
  | some (.dict mapping) => mapping.filterMap (fun entry => readInt entry.1)
  | _ => []

/-- A tree with its aisle, if the document has that aisle. -/
def aisleOf (field : String) (declared : List Int) (tree : Json) : Except Raised (Option (Int × Int)) :=
  match indexOf "tree_index" tree,indexOf field tree with
  | some index,some aisle => .ok (if declared ≠ [] ∧ aisle ∉ declared then none else some (index,aisle))
  | _,_ => .ok none

variable (repr : Json → String)

def axisOf (data : Fields) : Option String :=
  axisField (Text.lower (Text.strip (Json.textOr repr "" (data.lookup "traversal_axis"))))

/-- `orchard.parse`. -/
def parse (payload : String) : Except Raised (Dict Int Int) :=
  match loads payload with
  | .error .recursionError => .error .recursionError
  | .error _ => .ok .empty
  | .ok (.dict data) =>
    match axisOf repr data with
    | none => .ok .empty
    | some field => do
      gather (aisleOf field (declaredAisles data)) (← members (orEmpty (data.lookup "trees"))) .empty
  | .ok _ => .ok .empty

structure Store where
  trees : List Json := []
  received : Bool := false

/-- `"lat" in t and "lon" in t`. -/
def located (t : Json) : Except Raised (Option Json) := do
  let lat ← holds "lat" t
  if lat then
    let lon ← holds "lon" t
    return if lon then some t else none
  else return none

/-- The records of either shape of the document. -/
def recordsOf : Json → Except Raised (List Json)
  | .dict data => members ((data.lookup "trees").getD (.list []))
  | .list items => .ok items
  | _ => .ok []

def treesOf (document : Json) : Except Raised (List Json) := do
  let records ← recordsOf document
  collect located records

/-- `_on_json`: the store after it, and what it raised. -/
def onJson (payload : String) (s : Store) : Store × Option Raised :=
  match loads payload with
  | .error .decodeError => ({ s with received := true },none)
  | .error e => ({ s with received := true },some e.raised)
  | .ok document =>
    match treesOf document with
    | .error e => ({ s with received := true },some e)
    | .ok trees => ({ trees,received := true },none)

structure Obstacle where
  id : String
  x : Coordinate
  y : Coordinate
  radius : ℚ
  deriving DecidableEq

/-- `tree[key]`. -/
def item (tree : Json) (key : String) : Except Raised Json :=
  match tree with
  | .dict fields => (fields.lookup key).elim (.error .keyError) .ok
  | _ => .error .typeError

/-- `tree.get("tree_index", i)` in a text. -/
def idOf (tree : Json) (i : Nat) : String :=
  match tree with
  | .dict fields => "tree_" ++ ((fields.lookup "tree_index").getD (.int i)).text repr
  | _ => ""

variable (latlonToLocal : Coordinate → Coordinate → Coordinate × Coordinate) (treeRadius : ℚ)

def obstacleOf (entry : Json × Nat) : Except Raised (Option Obstacle) := do
  let lat ← item entry.1 "lat"
  let lon ← item entry.1 "lon"
  let lat ← toDouble lat
  let lon ← toDouble lon
  let place := latlonToLocal lat lon
  return some ⟨idOf repr entry.1 entry.2,place.1,place.2,treeRadius⟩

def Store.getObstacles (s : Store) : Except Raised (List Obstacle) :=
  collect (obstacleOf repr latlonToLocal treeRadius) s.trees.zipIdx

/-- The store after a list of messages. -/
def Store.after (payloads : List String) : Store := payloads.foldl (fun s payload => (onJson loads payload s).1) {}

end

theorem pointAt_ok_iff (lat lon : Json) :
    (∃ point, pointAt lat lon = .ok point) ↔ (isNumber lat = true → isNumber lon = true → Fits lat ∧ Fits lon) := by
  unfold pointAt
  by_cases first : isNumber lat = true
  · by_cases second : isNumber lon = true
    · simp only [first,second,Bool.and_self,if_true,forall_const]
      have lat_ok := toDouble_ok_iff lat
      have lon_ok := toDouble_ok_iff lon
      simp only [first,second,true_and] at lat_ok lon_ok
      rw [← lat_ok,← lon_ok]
      cases toDouble lat with
      | error e => simp [bind,Except.bind]
      | ok x => cases toDouble lon <;> simp [bind,Except.bind,pure,Except.pure]
    · simp [first,second]
  · simp [first]

theorem pointAt_some (lat lon : Json) (point : Point) (here : pointAt lat lon = .ok (some point)) :
    isNumber lat = true ∧ isNumber lon = true ∧ toDouble lat = .ok point.lat ∧ toDouble lon = .ok point.lon := by
  unfold pointAt at here
  split at here
  · rename_i numbers
    obtain ⟨x,first,here⟩ := bind_ok _ _ _ here
    obtain ⟨y,second,here⟩ := bind_ok _ _ _ here
    cases here
    rw [Bool.and_eq_true] at numbers
    exact ⟨numbers.1,numbers.2,first,second⟩
  · cases here

theorem pointAt_of_numbers (lat lon : Json) (first : isNumber lat = true) (second : isNumber lon = true)
    (result : Option Point) (here : pointAt lat lon = .ok result) :
    ∃ point : Point, result = some point ∧ toDouble lat = .ok point.lat ∧ toDouble lon = .ok point.lon := by
  unfold pointAt at here
  rw [first,second,Bool.and_self,if_pos rfl] at here
  obtain ⟨x,first,here⟩ := bind_ok _ _ _ here
  obtain ⟨y,second,here⟩ := bind_ok _ _ _ here
  cases here
  exact ⟨⟨x,y⟩,rfl,first,second⟩

def latOf (record : Json) : Json :=
  match record with
  | .dict fields => (fields.lookup "lat").getD .null
  | _ => .null

def lonOf (record : Json) : Json :=
  match record with
  | .dict fields => (fields.lookup "lon").getD .null
  | _ => .null

theorem pointOf_eq (record : Json) : pointOf record = pointAt (latOf record) (lonOf record) := by
  cases record <;> rfl

/-- Numbers that a double holds, if they are numbers. -/
def Measured (record : Json) : Prop :=
  isNumber (latOf record) = true → isNumber (lonOf record) = true → Fits (latOf record) ∧ Fits (lonOf record)

theorem entryOf_ok_iff (key : String) (record : Json) :
    (∃ entry, entryOf key record = .ok entry) ↔ Measured record := by
  rw [Measured,← pointAt_ok_iff,← pointOf_eq,entryOf]
  cases pointOf record <;> simp [bind,Except.bind,pure,Except.pure]

/-- An object with an integer index and numbers for coordinates. -/
def WellFormed (record : Json) (index : Int) : Prop :=
  indexOf "tree_index" record = some index ∧ isNumber (latOf record) = true ∧ isNumber (lonOf record) = true

theorem entryOf_wellFormed (record : Json) (index : Int) (formed : WellFormed record index) (entry : Option (Int × Point))
    (here : entryOf "tree_index" record = .ok entry) :
    ∃ point : Point, entry = some (index,point) ∧ toDouble (latOf record) = .ok point.lat ∧
      toDouble (lonOf record) = .ok point.lon := by
  obtain ⟨result,found,here⟩ := bind_ok _ _ _ here
  rw [pointOf_eq] at found
  obtain ⟨point,rfl,lat,lon⟩ := pointAt_of_numbers _ _ formed.2.1 formed.2.2 result found
  cases here
  rw [formed.1]
  exact ⟨point,rfl,lat,lon⟩

theorem wellFormed_of_entryOf (record : Json) (index : Int) (point : Point)
    (here : entryOf "tree_index" record = .ok (some (index,point))) : WellFormed record index := by
  obtain ⟨result,found,here⟩ := bind_ok _ _ _ here
  rw [pointOf_eq] at found
  cases result with
  | none => cases at_ : indexOf "tree_index" record <;> rw [at_] at here <;> cases here
  | some place =>
    obtain ⟨lat,lon,_⟩ := pointAt_some _ _ place found
    cases at_ : indexOf "tree_index" record with
    | none =>
      rw [at_] at here
      cases here
    | some i =>
      rw [at_] at here
      cases here
      exact ⟨at_,lat,lon⟩

/-- A section that a loop can go through, each record as the loop needs it. -/
def Iterated (section_ : Option Json) (P : Json → Prop) : Prop :=
  ∃ records, members (orEmpty section_) = .ok records ∧ ∀ record ∈ records, P record

theorem entries_ok_iff (key : String) (section_ : Option Json) (d : Dict Int Point) :
    (∃ records, members (orEmpty section_) = .ok records ∧ ∃ full, gather (entryOf key) records d = .ok full) ↔
      Iterated section_ Measured := by
  simp only [gather_ok_iff,Iterated,entryOf_ok_iff]

theorem entranceAt_ok_iff (entrances : Dict Int Point) (i : Json) :
    (∃ value, entranceAt entrances i = .ok value) ↔ Hashable i := by
  rw [← asKey_ok_iff,entranceAt,bind_returns]
  exact ⟨fun ⟨key,here,_⟩ => ⟨key,here⟩,fun ⟨key,here⟩ => ⟨key,here,_,rfl⟩⟩

theorem endsOf_ok_iff (entrances : Dict Int Point) (entry : String × Json) :
    (∃ ends, endsOf entrances entry = .ok ends) ↔
      ((readInt entry.1).isSome = true → Iterated (some entry.2) Hashable) := by
  unfold endsOf
  cases readInt entry.1 with
  | none => simp
  | some aisle =>
    simp only [bind_returns,Option.isSome_some,forall_const,Iterated,← entranceAt_ok_iff entrances,← collect_ok_iff]
    constructor
    · rintro ⟨indices,here,ends,there,_⟩
      exact ⟨indices,here,ends,there⟩
    · rintro ⟨indices,here,ends,there⟩
      exact ⟨indices,here,ends,there,_,rfl⟩

theorem aislesOf_ok_iff (entrances : Dict Int Point) (data : Fields) :
    (∃ aisles, aislesOf entrances data = .ok aisles) ↔
      ∀ mapping, data.lookup "aisle_to_entrance_indices" = some (.dict mapping) →
        ∀ entry ∈ mapping, (readInt entry.1).isSome = true → Iterated (some entry.2) Hashable := by
  unfold aislesOf
  split
  · rename_i mapping found
    simp only [gather_ok_iff,endsOf_ok_iff]
    constructor
    · intro all other same
      rw [found] at same
      cases same
      exact all
    · exact fun all => all mapping found
  · rename_i other
    exact ⟨fun _ mapping found => absurd found (other mapping),fun _ => ⟨_,rfl⟩⟩

/-- The sections that `parse_orchard` goes through. -/
structure Plotted (data : Fields) : Prop where
  trees : Iterated (data.lookup "trees") Measured
  entrances : Iterated (data.lookup "aisle_entrances") Measured
  ends : ∀ mapping, data.lookup "aisle_to_entrance_indices" = some (.dict mapping) →
    ∀ entry ∈ mapping, (readInt entry.1).isSome = true → Iterated (some entry.2) Hashable

section
variable (loads : String → Except LoadError Json) (repr : Json → String)
  (latlonToLocal : Coordinate → Coordinate → Coordinate × Coordinate) (treeRadius : ℚ)

/-- A text that holds no object has no section to fail on. -/
theorem sectionless {α : Type} (payload : String) (P : Fields → Prop) (calm : loads payload ≠ .error .recursionError)
    (bare : ∀ data, loads payload ≠ .ok (.dict data)) (result : α) :
    (∃ value, (.ok result : Except Raised α) = .ok value) ↔
      loads payload ≠ .error .recursionError ∧ ∀ data, loads payload = .ok (.dict data) → P data :=
  ⟨fun _ => ⟨calm,fun data loaded => absurd loaded (bare data)⟩,fun _ => ⟨result,rfl⟩⟩

/-- The documents that `parse_orchard` reads without raising. -/
def Charted (payload : String) : Prop :=
  loads payload ≠ .error .recursionError ∧ ∀ data, loads payload = .ok (.dict data) → Plotted data

theorem parseOrchard_ok_iff (payload : String) :
    (∃ result, parseOrchard loads payload = .ok result) ↔ Charted loads payload := by
  unfold parseOrchard Charted
  split
  case h_1 failed => simp [failed]
  case h_2 e other failed =>
    exact sectionless loads payload _ (by simpa [failed] using other) (by simp [failed]) _
  case h_3 data loaded =>
    have plotted_ : (∀ other, loads payload = .ok (.dict other) → Plotted other) ↔ Plotted data := by
      refine ⟨fun all => all data loaded,fun plotted other found => ?_⟩
      rw [loaded] at found
      cases found
      exact plotted
    rw [plotted_,loaded]
    simp only [bind_returns]
    constructor
    · rintro ⟨records,listed,trees,placed,ends,also,entrances,entered,aisles,joined,_⟩
      exact ⟨(fun no => by cases no),(entries_ok_iff _ _ _).mp ⟨records,listed,trees,placed⟩,
        (entries_ok_iff _ _ _).mp ⟨ends,also,entrances,entered⟩,(aislesOf_ok_iff entrances data).mp ⟨aisles,joined⟩⟩
    · rintro ⟨_,trees,entrances,ends⟩
      obtain ⟨records,listed,trees,placed⟩ := (entries_ok_iff "tree_index" _ .empty).mpr trees
      obtain ⟨also,entered,entrances,placed_⟩ := (entries_ok_iff "entrance_index" _ .empty).mpr entrances
      obtain ⟨aisles,joined⟩ := (aislesOf_ok_iff entrances data).mpr ends
      exact ⟨records,listed,trees,placed,also,entered,entrances,placed_,aisles,joined,_,rfl⟩
  case h_4 document other loaded =>
    exact sectionless loads payload _ (by simp [loaded]) (by simpa [loaded] using other) _

/-- The documents that `orchard.parse` reads without raising. -/
def Rowed (payload : String) : Prop :=
  loads payload ≠ .error .recursionError ∧
    ∀ data, loads payload = .ok (.dict data) → (axisOf repr data).isSome = true → Iterable (orEmpty (data.lookup "trees"))

theorem aisleOf_ok (field : String) (declared : List Int) (tree : Json) :
    ∃ value, aisleOf field declared tree = .ok value := by
  unfold aisleOf
  split
  · exact ⟨_,rfl⟩
  · exact ⟨_,rfl⟩

theorem parse_ok_iff (payload : String) : (∃ result, parse loads repr payload = .ok result) ↔ Rowed loads repr payload := by
  unfold parse Rowed
  split
  case h_1 failed => simp [failed]
  case h_2 e other failed =>
    exact sectionless loads payload _ (by simpa [failed] using other) (by simp [failed]) _
  case h_3 data loaded =>
    have rowed_ : (∀ other, loads payload = .ok (.dict other) → (axisOf repr other).isSome = true →
        Iterable (orEmpty (other.lookup "trees"))) ↔
        ((axisOf repr data).isSome = true → Iterable (orEmpty (data.lookup "trees"))) := by
      refine ⟨fun all => all data loaded,fun rowed other found => ?_⟩
      rw [loaded] at found
      cases found
      exact rowed
    rw [rowed_,loaded]
    split
    · rename_i unknown
      simp [unknown]
    · rename_i field known
      simp only [bind_returns,gather_ok_iff,aisleOf_ok,implies_true,and_true,members_ok_iff,known,Option.isSome_some,
        forall_const]
      simp
  case h_4 document other loaded =>
    exact sectionless loads payload _ (by simp [loaded]) (by simpa [loaded] using other) _

/-- A record with the coordinates of an obstacle. -/
def Sited (t : Json) : Prop :=
  ∃ fields lat lon, t = .dict fields ∧ fields.lookup "lat" = some lat ∧ fields.lookup "lon" = some lon ∧
    (∃ x, toDouble lat = .ok x) ∧ ∃ y, toDouble lon = .ok y

theorem obstacleOf_ok_iff (t : Json) (i : Nat) :
    (∃ value, obstacleOf repr latlonToLocal treeRadius (t,i) = .ok value) ↔ Sited t := by
  unfold obstacleOf
  simp only [bind_returns]
  constructor
  · rintro ⟨lat,here,lon,there,x,first,y,second,_⟩
    cases t with
    | dict fields =>
      refine ⟨fields,lat,lon,rfl,?_,?_,⟨x,first⟩,⟨y,second⟩⟩
      · cases found : fields.lookup "lat" with
        | none => simp [item,found] at here
        | some value => simpa [item,found] using here
      · cases found : fields.lookup "lon" with
        | none => simp [item,found] at there
        | some value => simpa [item,found] using there
    | _ => cases here
  · rintro ⟨fields,lat,lon,rfl,here,there,⟨x,first⟩,⟨y,second⟩⟩
    exact ⟨lat,by simp [item,here],lon,by simp [item,there],x,first,y,second,_,rfl⟩

/-- What is taken for a record with coordinates. -/
def Located (t : Json) : Prop := holds "lat" t = .ok true ∧ holds "lon" t = .ok true

theorem located_ok_iff (t : Json) : (∃ value, located t = .ok value) ↔ Iterable t := by
  rw [← holds_ok_iff "lat",located,bind_returns]
  constructor
  · rintro ⟨lat,here,_⟩
    exact ⟨lat,here⟩
  · rintro ⟨lat,here⟩
    obtain ⟨lon,there⟩ := (holds_ok_iff "lon" t).mpr ((holds_ok_iff "lat" t).mp ⟨lat,here⟩)
    refine ⟨lat,here,?_⟩
    split
    · rw [there]
      exact ⟨_,rfl⟩
    · exact ⟨_,rfl⟩

theorem located_some (t kept : Json) (here : located t = .ok (some kept)) : kept = t ∧ Located t := by
  obtain ⟨lat,first,here⟩ := bind_ok _ _ _ here
  split at here
  · rename_i yes
    obtain ⟨lon,second,here⟩ := bind_ok _ _ _ here
    cases lon with
    | false => cases here
    | true =>
      cases here
      exact ⟨rfl,yes ▸ first,second⟩
  · cases here

theorem located_of (t : Json) (here : Located t) : located t = .ok (some t) := by
  rw [located,here.1]
  change (do let lon ← holds "lon" t; return if lon then some t else none) = _
  rw [here.2]
  rfl

/-- The documents that the store takes without raising, then or later. -/
def Storable (payload : String) : Prop :=
  loads payload ≠ .error .valueError ∧ loads payload ≠ .error .recursionError ∧
    ∀ document, loads payload = .ok document →
      ∃ records, recordsOf document = .ok records ∧ ∀ record ∈ records, Iterable record ∧ (Located record → Sited record)

theorem getObstacles_ok_iff (s : Store) :
    (∃ obstacles, s.getObstacles repr latlonToLocal treeRadius = .ok obstacles) ↔ ∀ t ∈ s.trees, Sited t := by
  rw [Store.getObstacles,collect_ok_iff]
  constructor
  · intro all t member
    obtain ⟨i,found⟩ := List.mem_iff_getElem?.mp member
    exact (obstacleOf_ok_iff repr latlonToLocal treeRadius t i).mp
      (all (t,i) (List.mk_mem_zipIdx_iff_getElem?.mpr found))
  · rintro all ⟨t,i⟩ member
    exact (obstacleOf_ok_iff repr latlonToLocal treeRadius t i).mpr
      (all t (List.mem_of_getElem? (List.mk_mem_zipIdx_iff_getElem?.mp member)))

/-- A storable document is taken, and what is kept of it can be placed. -/
theorem onJson_storable (payload : String) (storable : Storable loads payload) (s : Store) (sited : ∀ t ∈ s.trees, Sited t) :
    (onJson loads payload s).2 = none ∧ ∀ t ∈ (onJson loads payload s).1.trees, Sited t := by
  obtain ⟨short,shallow,taken⟩ := storable
  unfold onJson
  split
  case h_1 => exact ⟨rfl,sited⟩
  case h_2 e other failed =>
    cases e with
    | decodeError => exact absurd rfl other
    | valueError => exact absurd failed short
    | recursionError => exact absurd failed shallow
  case h_3 document loaded =>
    obtain ⟨records,listed,each⟩ := taken document loaded
    obtain ⟨trees,kept⟩ := (collect_ok_iff located records).mpr
      (fun record member => (located_ok_iff record).mpr (each record member).1)
    have whole : treesOf document = .ok trees := by
      rw [treesOf,listed]
      exact kept
    rw [whole]
    refine ⟨rfl,fun t member => ?_⟩
    obtain ⟨record,inside,here⟩ := (mem_collect located records trees kept t).mp member
    obtain ⟨rfl,there⟩ := located_some record t here
    exact (each t inside).2 there

theorem after_sited (payloads : List String) (storable : ∀ payload ∈ payloads, Storable loads payload) :
    ∀ t ∈ (Store.after loads payloads).trees, Sited t := by
  suffices carried : ∀ s : Store, (∀ t ∈ s.trees, Sited t) →
      ∀ t ∈ (payloads.foldl (fun s payload => (onJson loads payload s).1) s).trees, Sited t by
    exact carried {} (fun t member => by cases member)
  induction payloads with
  | nil => exact fun s sited => sited
  | cons payload rest ih =>
    rw [List.forall_mem_cons] at storable
    intro s sited
    exact ih storable.2 _ (onJson_storable loads payload storable.1 s sited).2

theorem parseOrchard_keeps (payload : String) (trees : Dict Int Point) (aisles : Dict Int (List Point))
    (ok : parseOrchard loads payload = .ok (trees,aisles)) (data : Fields) (loaded : loads payload = .ok (.dict data))
    (first : List Json) (record : Json) (rest : List Json)
    (listed : data.lookup "trees" = some (.list (first ++ record::rest))) (index : Int)
    (formed : WellFormed record index) (last : ∀ later ∈ rest, ¬WellFormed later index) :
    ∃ point : Point, trees.get? index = some point ∧ toDouble (latOf record) = .ok point.lat ∧
      toDouble (lonOf record) = .ok point.lon := by
  rw [parseOrchard,loaded] at ok
  obtain ⟨records,walked,ok⟩ := bind_ok _ _ _ ok
  obtain ⟨placed,gathered,ok⟩ := bind_ok _ _ _ ok
  obtain ⟨_,_,ok⟩ := bind_ok _ _ _ ok
  obtain ⟨_,_,ok⟩ := bind_ok _ _ _ ok
  obtain ⟨_,_,ok⟩ := bind_ok _ _ _ ok
  cases ok
  rw [listed,orEmpty_list] at walked
  cases walked
  have readable := (gather_ok_iff (entryOf "tree_index") _ _).mp ⟨trees,gathered⟩
  obtain ⟨entry,here⟩ := readable record (by simp)
  obtain ⟨point,rfl,lat,lon⟩ := entryOf_wellFormed record index formed entry here
  refine ⟨point,gather_last _ first record rest _ trees gathered index point here ?_,lat,lon⟩
  intro later member other found
  exact last later member (wellFormed_of_entryOf later index other found)

/-- A tree with its index and its aisle, one that the document has. -/
def Housed (field : String) (declared : List Int) (tree : Json) (index aisle : Int) : Prop :=
  indexOf "tree_index" tree = some index ∧ indexOf field tree = some aisle ∧ (declared = [] ∨ aisle ∈ declared)

theorem aisleOf_some_iff (field : String) (declared : List Int) (tree : Json) (index aisle : Int) :
    aisleOf field declared tree = .ok (some (index,aisle)) ↔ Housed field declared tree index aisle := by
  unfold aisleOf Housed
  cases indexOf "tree_index" tree with
  | none => simp
  | some i =>
    cases indexOf field tree with
    | none => simp
    | some a =>
      by_cases known : declared = [] ∨ a ∈ declared
      · have kept : ¬(declared ≠ [] ∧ a ∉ declared) := by
          rintro ⟨some_,absent⟩
          exact known.elim some_ absent
        simp only [if_neg kept,Except.ok.injEq,Option.some.injEq,Prod.mk.injEq]
        constructor
        · rintro ⟨rfl,rfl⟩
          exact ⟨rfl,rfl,known⟩
        · rintro ⟨rfl,rfl,_⟩
          exact ⟨rfl,rfl⟩
      · have dropped : declared ≠ [] ∧ a ∉ declared := not_or.mp known
        simp only [if_pos dropped,Except.ok.injEq,Option.some.injEq]
        constructor
        · intro no
          cases no
        · rintro ⟨_,rfl,there⟩
          exact absurd there known

theorem parse_keeps (payload : String) (aisles : Dict Int Int) (ok : parse loads repr payload = .ok aisles)
    (data : Fields) (loaded : loads payload = .ok (.dict data)) (field : String) (axis : axisOf repr data = some field)
    (first : List Json) (tree : Json) (rest : List Json)
    (listed : data.lookup "trees" = some (.list (first ++ tree::rest))) (index aisle : Int)
    (housed : Housed field (declaredAisles data) tree index aisle)
    (last : ∀ later ∈ rest, ∀ other, ¬Housed field (declaredAisles data) later index other) :
    aisles.get? index = some aisle := by
  rw [parse,loaded] at ok
  simp only [axis] at ok
  obtain ⟨records,walked,gathered⟩ := bind_ok _ _ _ ok
  rw [listed,orEmpty_list] at walked
  cases walked
  refine gather_last _ first tree rest _ aisles gathered index aisle ((aisleOf_some_iff _ _ _ _ _).mpr housed) ?_
  intro later member other found
  exact last later member other ((aisleOf_some_iff _ _ _ _ _).mp found)

theorem holds_of_lookup (key : String) (fields : Fields) (value : Json) (found : fields.lookup key = some value) :
    holds key (.dict fields) = .ok true := by
  have there : (fields.lookup key).isSome = true := by rw [found]; rfl
  obtain ⟨field,member,same⟩ := List.lookup_isSome_iff.mp there
  simp only [holds,Except.ok.injEq,List.any_eq_true,decide_eq_true_eq]
  exact ⟨field,member,(beq_iff_eq.mp same).symm⟩

theorem present_of_number (value : Option Json) (number : isNumber (value.getD .null) = true) :
    value = some (value.getD .null) := by
  cases value with
  | none => cases number
  | some value => rfl

theorem wellFormed_fields (record : Json) (index : Int) (formed : WellFormed record index) :
    ∃ fields value, record = .dict fields ∧ fields.lookup "tree_index" = some value ∧ asInt value = some index ∧
      fields.lookup "lat" = some (latOf record) ∧ fields.lookup "lon" = some (lonOf record) := by
  obtain ⟨at_,lat,lon⟩ := formed
  cases record with
  | dict fields =>
    obtain ⟨value,found,same⟩ := Option.bind_eq_some_iff.mp at_
    exact ⟨fields,value,rfl,found,same,present_of_number _ lat,present_of_number _ lon⟩
  | _ => cases at_

theorem obstacleOf_wellFormed (record : Json) (index : Int) (formed : WellFormed record index) (i : Nat)
    (value : Option Obstacle) (ok : obstacleOf repr latlonToLocal treeRadius (record,i) = .ok value) :
    ∃ number lat lon, asInt number = some index ∧ toDouble (latOf record) = .ok lat ∧ toDouble (lonOf record) = .ok lon ∧
      value = some ⟨"tree_" ++ number.text repr,(latlonToLocal lat lon).1,(latlonToLocal lat lon).2,treeRadius⟩ := by
  obtain ⟨fields,number,same,found,at_,lat,lon⟩ := wellFormed_fields record index formed
  obtain ⟨first,here,ok⟩ := bind_ok _ _ _ ok
  obtain ⟨second,there,ok⟩ := bind_ok _ _ _ ok
  obtain ⟨x,north,ok⟩ := bind_ok _ _ _ ok
  obtain ⟨y,east,ok⟩ := bind_ok _ _ _ ok
  cases ok
  have lat_eq : item record "lat" = .ok (latOf record) := by
    rw [same] at lat ⊢
    rw [item,lat]
    rfl
  have lon_eq : item record "lon" = .ok (lonOf record) := by
    rw [same] at lon ⊢
    rw [item,lon]
    rfl
  have named : idOf repr record i = "tree_" ++ number.text repr := by
    rw [same,idOf,found]
    rfl
  cases lat_eq.symm.trans here
  cases lon_eq.symm.trans there
  exact ⟨number,x,y,at_,north,east,by rw [named]⟩

theorem store_keeps (payload : String) (s : Store) (document : Json) (loaded : loads payload = .ok document)
    (taken : (onJson loads payload s).2 = none) (obstacles : List Obstacle)
    (ok : (onJson loads payload s).1.getObstacles repr latlonToLocal treeRadius = .ok obstacles) (records : List Json)
    (listed : recordsOf document = .ok records) (record : Json) (member : record ∈ records) (index : Int)
    (formed : WellFormed record index) :
    ∃ number lat lon, asInt number = some index ∧ toDouble (latOf record) = .ok lat ∧ toDouble (lonOf record) = .ok lon ∧
      ⟨"tree_" ++ number.text repr,(latlonToLocal lat lon).1,(latlonToLocal lat lon).2,treeRadius⟩ ∈ obstacles := by
  obtain ⟨fields,_,same,_,_,lat,lon⟩ := wellFormed_fields record index formed
  have here : located record = .ok (some record) := by
    refine located_of record ⟨?_,?_⟩
    · rw [same]
      exact holds_of_lookup _ _ _ lat
    · rw [same]
      exact holds_of_lookup _ _ _ lon
  cases kept : treesOf document with
  | error e =>
    rw [onJson,loaded] at taken
    simp only [kept] at taken
    cases taken
  | ok trees =>
    have whole : (onJson loads payload s).1.trees = trees := by
      rw [onJson,loaded]
      simp only [kept]
    rw [treesOf,listed] at kept
    have inside : record ∈ (onJson loads payload s).1.trees := by
      rw [whole]
      exact (mem_collect located records trees kept record).mpr ⟨record,member,here⟩
    obtain ⟨i,found⟩ := List.mem_iff_getElem?.mp inside
    have entry := List.mk_mem_zipIdx_iff_getElem?.mpr found
    obtain ⟨value,read⟩ := (collect_ok_iff _ _).mp ⟨obstacles,ok⟩ (record,i) entry
    obtain ⟨number,x,y,at_,north,east,rfl⟩ := obstacleOf_wellFormed repr latlonToLocal treeRadius record index formed i value read
    exact ⟨number,x,y,at_,north,east,(mem_collect _ _ _ ok _).mpr ⟨(record,i),entry,read⟩⟩

theorem onJson_unparsed (payload : String) (s : Store) (unread : ∀ document, loads payload ≠ .ok document) :
    (onJson loads payload s).1 = { s with received := true } := by
  unfold onJson
  split
  · rfl
  · rfl
  · rename_i document loaded
    exact absurd loaded (unread document)

/-- From a store that can be placed, only a storable document is taken and can be placed. -/
theorem storable_of_taken (payload : String) (s : Store) (taken : (onJson loads payload s).2 = none)
    (sited : ∀ t ∈ (onJson loads payload s).1.trees, Sited t) : Storable loads payload := by
  unfold onJson at taken sited
  refine ⟨fun failed => ?_,fun failed => ?_,fun document loaded => ?_⟩
  · rw [failed] at taken
    cases taken
  · rw [failed] at taken
    cases taken
  · rw [loaded] at taken sited
    cases whole : treesOf document with
    | error e =>
      simp only [whole] at taken
      cases taken
    | ok trees =>
      simp only [whole] at sited
      obtain ⟨records,listed,kept⟩ := bind_ok _ _ _ whole
      refine ⟨records,listed,fun record member => ⟨?_,fun there => ?_⟩⟩
      · exact (located_ok_iff record).mp ((collect_ok_iff located records).mp ⟨trees,kept⟩ record member)
      · exact sited record ((mem_collect located records trees kept record).mpr ⟨record,member,located_of record there⟩)

/-- A document whose sections can be gone through costs its malformed records and
nothing else, and one that does not parse leaves the trees. -/
theorem records_kept (payload : String) :
    (Charted loads payload → ∃ trees aisles, parseOrchard loads payload = .ok (trees,aisles) ∧
      ∀ data first record rest index, loads payload = .ok (.dict data) →
        data.lookup "trees" = some (.list (first ++ record::rest)) → WellFormed record index →
        (∀ later ∈ rest, ¬WellFormed later index) →
        ∃ point : Point, trees.get? index = some point ∧ toDouble (latOf record) = .ok point.lat ∧
          toDouble (lonOf record) = .ok point.lon) ∧
    (Rowed loads repr payload → ∃ aisles, parse loads repr payload = .ok aisles ∧
      ∀ data field first tree rest index aisle, loads payload = .ok (.dict data) → axisOf repr data = some field →
        data.lookup "trees" = some (.list (first ++ tree::rest)) → Housed field (declaredAisles data) tree index aisle →
        (∀ later ∈ rest, ∀ other, ¬Housed field (declaredAisles data) later index other) →
        aisles.get? index = some aisle) ∧
    (∀ payloads : List String, (∀ earlier ∈ payloads, Storable loads earlier) → Storable loads payload →
      (onJson loads payload (.after loads payloads)).2 = none ∧
      ∃ obstacles, (onJson loads payload (.after loads payloads)).1.getObstacles repr latlonToLocal treeRadius = .ok obstacles ∧
        ∀ document records record index, loads payload = .ok document → recordsOf document = .ok records →
          record ∈ records → WellFormed record index →
          ∃ number lat lon, asInt number = some index ∧ toDouble (latOf record) = .ok lat ∧
            toDouble (lonOf record) = .ok lon ∧
            ⟨"tree_" ++ number.text repr,(latlonToLocal lat lon).1,(latlonToLocal lat lon).2,treeRadius⟩ ∈ obstacles) ∧
    ∀ s : Store, (∀ document, loads payload ≠ .ok document) → (onJson loads payload s).1 = { s with received := true } := by
  refine ⟨fun charted => ?_,fun rowed => ?_,fun payloads earlier storable => ?_,fun s => onJson_unparsed loads payload s⟩
  · obtain ⟨⟨trees,aisles⟩,ok⟩ := (parseOrchard_ok_iff loads payload).mpr charted
    exact ⟨trees,aisles,ok,fun data first record rest index loaded listed formed last =>
      parseOrchard_keeps loads payload trees aisles ok data loaded first record rest listed index formed last⟩
  · obtain ⟨aisles,ok⟩ := (parse_ok_iff loads repr payload).mpr rowed
    exact ⟨aisles,ok,fun data field first tree rest index aisle loaded axis listed housed last =>
      parse_keeps loads repr payload aisles ok data loaded field axis first tree rest listed index aisle housed last⟩
  · obtain ⟨taken,sited⟩ := onJson_storable loads payload storable _ (after_sited loads payloads earlier)
    obtain ⟨obstacles,ok⟩ := (getObstacles_ok_iff repr latlonToLocal treeRadius _).mpr sited
    exact ⟨taken,obstacles,ok,fun document records record index loaded listed member formed =>
      store_keeps loads repr latlonToLocal treeRadius payload _ document loaded taken obstacles ok records listed record
        member index formed⟩
end

/-- One tree among records that are not trees. -/
def patchy : Json :=
  .dict [("traversal_axis",.str "Column"),
    ("trees",.list [.str "oak",.dict [("tree_index",.str "seven")],
      .dict [("tree_index",.int 7),("col",.int 2),("lat",.float "1.5" (some (3/2))),("lon",.float "4.5" (some (9/2)))],.list []]),
    ("aisle_entrances",.null)]

/-- The text of a document, and how it loads. -/
def sample (text : String) (document : Json) (payload : String) : Except LoadError Json :=
  if payload = text then .ok document else .error .decodeError

def patchyText : String := "\x7b\"traversal_axis\":\"Column\",\"trees\":[\"oak\",\x7b\"tree_index\":\"seven\"\x7d,\x7b\"tree_index\":7," ++
  "\"col\":2,\"lat\":1.5,\"lon\":4.5\x7d,[]],\"aisle_entrances\":null\x7d"

def patchyLoads : String → Except LoadError Json := sample patchyText patchy

def oakTree : Json := .dict [("tree_index",.int 7),("col",.int 2),("lat",.float "1.5" (some (3/2))),("lon",.float "4.5" (some (9/2)))]

def plainRepr (_ : Json) : String := "..."

theorem patchy_loaded : patchyLoads patchyText = .ok patchy := by
  rw [patchyLoads,sample,if_pos rfl]

theorem records_kept_patchy :
    (∃ trees aisles, parseOrchard patchyLoads patchyText = .ok (trees,aisles) ∧
      trees.get? 7 = some ⟨.finite (3/2),.finite (9/2)⟩) ∧
    (∃ aisles, parse patchyLoads plainRepr patchyText = .ok aisles ∧ aisles.get? 7 = some 2) ∧
    (∃ obstacles, (onJson patchyLoads patchyText {}).1.getObstacles plainRepr (fun lat lon => (lat,lon)) 1 = .ok obstacles ∧
      ⟨"tree_7",.finite (3/2),.finite (9/2),1⟩ ∈ obstacles) ∧
    (onJson patchyLoads "garbage" {}).1 = { received := true } := by
  have formed : WellFormed oakTree 7 := ⟨rfl,rfl,rfl⟩
  have charted : Charted patchyLoads patchyText := by
    rw [← parseOrchard_ok_iff,parseOrchard,patchy_loaded]
    exact ⟨_,rfl⟩
  have rowed : Rowed patchyLoads plainRepr patchyText := by
    rw [← parse_ok_iff,parse,patchy_loaded]
    exact ⟨_,rfl⟩
  have storable : Storable patchyLoads patchyText := by
    refine storable_of_taken patchyLoads patchyText {} ?_ ?_
    · rw [onJson,patchy_loaded]
      rfl
    · rw [onJson,patchy_loaded]
      intro t member
      rw [List.mem_singleton.mp member]
      exact ⟨_,_,_,rfl,rfl,rfl,⟨_,rfl⟩,⟨_,rfl⟩⟩
  have unread (document : Json) : patchyLoads "garbage" ≠ .ok document := by
    rw [patchyLoads,sample,if_neg (by decide)]
    intro no
    cases no
  have first := (records_kept patchyLoads plainRepr (fun lat lon => (lat,lon)) 1 patchyText).1 charted
  have second := (records_kept patchyLoads plainRepr (fun lat lon => (lat,lon)) 1 patchyText).2.1 rowed
  have third := (records_kept patchyLoads plainRepr (fun lat lon => (lat,lon)) 1 patchyText).2.2.1 []
    (fun _ member => by cases member) storable
  have fourth := (records_kept patchyLoads plainRepr (fun lat lon => (lat,lon)) 1 "garbage").2.2.2 {} unread
  refine ⟨?_,?_,?_,fourth⟩
  · obtain ⟨trees,aisles,ok,keeps⟩ := first
    obtain ⟨⟨x,y⟩,there,lat,lon⟩ := keeps _ [.str "oak",.dict [("tree_index",.str "seven")]] oakTree [.list []] 7
      patchy_loaded rfl formed (fun later member no => by rw [List.mem_singleton.mp member] at no; cases no.1)
    cases lat
    cases lon
    exact ⟨trees,aisles,ok,there⟩
  · obtain ⟨aisles,ok,keeps⟩ := second
    refine ⟨aisles,ok,keeps _ "col" [.str "oak",.dict [("tree_index",.str "seven")]] oakTree [.list []] 7 2
      patchy_loaded rfl rfl ⟨rfl,rfl,.inl rfl⟩ ?_⟩
    intro later member other no
    rw [List.mem_singleton.mp member] at no
    cases no.1
  · obtain ⟨_,obstacles,ok,keeps⟩ := third
    obtain ⟨number,x,y,at_,lat,lon,there⟩ := keeps patchy _ oakTree 7 patchy_loaded rfl (by simp [oakTree]) formed
    cases lat
    cases lon
    refine ⟨obstacles,ok,?_⟩
    cases number with
    | int n =>
      cases at_
      exact there
    | bool b => cases b <;> cases at_
    | _ => cases at_

/-- Trees that are a number. -/
def countedText : String := "\x7b\"traversal_axis\":\"row\",\"trees\":5\x7d"

def countedLoads : String → Except LoadError Json :=
  sample countedText (.dict [("traversal_axis",.str "row"),("trees",.int 5)])

/-- A tree of the outer row, in a document that lists its aisles. -/
def outerText : String := "\x7b\"traversal_axis\":\"row\",\"trees\":[\x7b\"tree_index\":7,\"row\":3\x7d]," ++
  "\"aisle_to_entrance_indices\":\x7b\"2\":[]\x7d\x7d"

def outerLoads : String → Except LoadError Json :=
  sample outerText (.dict [("traversal_axis",.str "row"),
    ("trees",.list [.dict [("tree_index",.int 7),("row",.int 3)]]),("aisle_to_entrance_indices",.dict [("2",.list [])])])

/-- A number where a list belongs ends every reader, the outer row has no aisle, and
a text that is no document counts as received. -/
theorem records_not_kept :
    (parseOrchard countedLoads countedText = .error .typeError ∧
      parse countedLoads plainRepr countedText = .error .typeError ∧
      (onJson countedLoads countedText {}).2 = some .typeError) ∧
    parse outerLoads plainRepr outerText = .ok .empty ∧
    (onJson patchyLoads "garbage" {}).1.received = true := by
  have counted : countedLoads countedText = .ok (.dict [("traversal_axis",.str "row"),("trees",.int 5)]) := by
    rw [countedLoads,sample,if_pos rfl]
  have outer : outerLoads outerText = .ok (.dict [("traversal_axis",.str "row"),
      ("trees",.list [.dict [("tree_index",.int 7),("row",.int 3)]]),
      ("aisle_to_entrance_indices",.dict [("2",.list [])])]) := by
    rw [outerLoads,sample,if_pos rfl]
  refine ⟨⟨?_,?_,?_⟩,?_,?_⟩
  · rw [parseOrchard,counted]
    rfl
  · rw [parse,counted]
    rfl
  · rw [onJson,counted]
    rfl
  · rw [parse,outer]
    rfl
  · rw [onJson,patchyLoads,sample,if_neg (by decide)]

end AmigaFleet.Orchard
