import AmigaFleet.Intake.Http
import AmigaFleet.Lib.Json
import AmigaFleet.Lib.Machine

/-! Registration with the planner. Its answer is parsed by a JSON library whose
exceptions leave the discovery thread, all but one kind. -/
namespace AmigaFleet.Intake
open Lib Lib.Socket Lib.Search

/-- What the library throws: on malformed text, on a number that no double holds, on a value of the wrong type. -/
inductive JsonError where
  | parseError
  | outOfRange
  | typeError
  deriving DecidableEq

inductive RegisterError where
  | unreached (error : String)
  | planner (statusCode : Int) (body : Text)
  | unparsed
  deriving DecidableEq

structure RegisterResult where
  ok : Bool := false
  ttlS : Int := 15
  schemaKnown : Bool := false
  error : Option RegisterError := none
  deriving DecidableEq

/-- `value.get<bool>()`. -/
def getBool : Json → Except JsonError Bool
  | .bool b => .ok b
  | _ => .error .typeError

variable (parse : Text → Except JsonError Json) (castInt : Json → Int)

/-- `value.get<int>()`. What a number or a truth value becomes is a parameter. -/
def getInt : Json → Except JsonError Int
  | .null | .str _ | .list _ | .dict _ => .error .typeError
  | number => .ok (castInt number)

/-- `j.value(key, default)`. -/
def valueOr {α : Type} (get : Json → Except JsonError α) (j : Json) (key : String) (default : α) : Except JsonError α :=
  match j with
  | .dict fields =>
    match fields.lookup key with
    | none => .ok default
    | some value => get value
  | _ => .error .typeError

/-- What `register_robot` makes of a response, or the exception that leaves it. -/
def registerResult (response : HttpResult) : Except JsonError RegisterResult :=
  if !response.connected then .ok { error := some (.unreached response.error) }
  else if response.statusCode ≠ 200 then .ok { error := some (.planner response.statusCode response.body) }
  else
    match parse response.body with
    | .error .parseError => .ok { error := some .unparsed }
    | .error other => .error other
    | .ok j =>
      match valueOr getBool j "ok" false,valueOr (getInt castInt) j "ttl_s" 15,valueOr getBool j "schema_known" true with
      | .ok ok,.ok ttlS,.ok schemaKnown => .ok { ok := ok, ttlS := ttlS, schemaKnown := schemaKnown }
      | .error error,_,_ => .error error
      | .ok _,.error error,_ => .error error
      | .ok _,.ok _,.error error => .error error

def registerRobot (stream : Stream) : Except JsonError RegisterResult := registerResult parse castInt (httpRequest stream)

/-- Registration returns, and with `ok` only for an object that says so. -/
def Survives (response : HttpResult) : Prop :=
  ∃ result, registerResult parse castInt response = .ok result ∧
    (result.ok = true → ∃ fields, parse response.body = .ok (.dict fields) ∧ fields.lookup "ok" = some (.bool true))

def IsBool (value : Json) : Prop := ∃ b, value = .bool b

def IsNumber (value : Json) : Prop :=
  (∃ b, value = .bool b) ∨ (∃ n, value = .int n) ∨ ∃ text x, value = .float text x

/-- An object whose three fields have their types where they are there. -/
def Typed (fields : List (String × Json)) : Prop :=
  (∀ value, fields.lookup "ok" = some value → IsBool value) ∧
    (∀ value, fields.lookup "ttl_s" = some value → IsNumber value) ∧
      ∀ value, fields.lookup "schema_known" = some value → IsBool value

/-- The response is none, or not a success, or its body is malformed or well typed. -/
def Harmless (response : HttpResult) : Prop :=
  response.connected = true → response.statusCode = 200 →
    parse response.body = .error .parseError ∨ ∃ fields, parse response.body = .ok (.dict fields) ∧ Typed fields

theorem getBool_ok (value : Json) : (∃ b, getBool value = .ok b) ↔ IsBool value := by
  cases value <;> simp [getBool,IsBool]

theorem getInt_ok (value : Json) : (∃ n, getInt castInt value = .ok n) ↔ IsNumber value := by
  cases value <;> simp [getInt,IsNumber]

/-- A field is read where it is missing or has its type. -/
theorem valueOr_ok {α : Type} (get : Json → Except JsonError α) (right : Json → Prop)
    (reads : ∀ value, (∃ read, get value = .ok read) ↔ right value) (fields : List (String × Json)) (key : String)
    (default : α) : (∃ read, valueOr get (.dict fields) key default = .ok read) ↔
      ∀ value, fields.lookup key = some value → right value := by
  cases found : fields.lookup key with
  | none =>
    simp only [valueOr,found]
    constructor
    · intro _ value same
      cases same
    · exact fun _ => ⟨default,rfl⟩
  | some value =>
    simp only [valueOr,found]
    rw [reads]
    constructor
    · intro fine other same
      injection same with same
      rwa [← same]
    · exact fun all => all value rfl

/-- Only a field that says so makes `ok` true. -/
theorem valueOr_true (fields : List (String × Json)) (key : String)
    (read : valueOr getBool (.dict fields) key false = .ok true) : fields.lookup key = some (.bool true) := by
  cases found : fields.lookup key with
  | none => simp [valueOr,found] at read
  | some value =>
    simp only [valueOr,found] at read
    cases value with
    | bool b =>
      injection read with read
      rw [read]
    | null => cases read
    | int n => cases read
    | float text x => cases read
    | str s => cases read
    | list items => cases read
    | dict fields => cases read

/-- What is read of an object is read of its three fields. -/
theorem typed_iff (fields : List (String × Json)) : Typed fields ↔
    (∃ ok, valueOr getBool (.dict fields) "ok" false = .ok ok) ∧
      (∃ ttlS, valueOr (getInt castInt) (.dict fields) "ttl_s" 15 = .ok ttlS) ∧
        ∃ schemaKnown, valueOr getBool (.dict fields) "schema_known" true = .ok schemaKnown := by
  rw [valueOr_ok getBool IsBool getBool_ok,valueOr_ok (getInt castInt) IsNumber (getInt_ok castInt),
    valueOr_ok getBool IsBool getBool_ok]
  rfl

theorem survives_iff (response : HttpResult) : Survives parse castInt response ↔ Harmless parse response := by
  by_cases connected : response.connected = true
  · by_cases success : response.statusCode = 200
    · have shape : Harmless parse response ↔ parse response.body = .error .parseError ∨
          ∃ fields, parse response.body = .ok (.dict fields) ∧ Typed fields := by
        simp only [Harmless,connected,success,forall_true_left]
      rw [shape]
      cases parsed : parse response.body with
      | error error =>
        cases error with
        | parseError => simp [Survives,registerResult,connected,success,parsed]
        | outOfRange => simp [Survives,registerResult,connected,success,parsed]
        | typeError => simp [Survives,registerResult,connected,success,parsed]
      | ok j =>
        cases j with
        | dict fields =>
          simp only [Survives,registerResult,connected,success,parsed,Bool.not_true,Bool.false_eq_true,if_false,
            ne_eq,not_true_eq_false]
          constructor
          · intro survives
            obtain ⟨result,returned,_⟩ := survives
            refine .inr ⟨fields,rfl,(typed_iff castInt fields).mpr ?_⟩
            cases one : valueOr getBool (.dict fields) "ok" false with
            | error error => simp [one] at returned
            | ok ok =>
              cases two : valueOr (getInt castInt) (.dict fields) "ttl_s" 15 with
              | error error => simp [one,two] at returned
              | ok ttlS =>
                cases three : valueOr getBool (.dict fields) "schema_known" true with
                | error error => simp [one,two,three] at returned
                | ok schemaKnown => exact ⟨⟨ok,rfl⟩,⟨ttlS,rfl⟩,⟨schemaKnown,rfl⟩⟩
          · intro shown
            rcases shown with shown | ⟨_,same,typed⟩
            · cases shown
            · injection same with same
              injection same with same
              rw [← same] at typed
              obtain ⟨⟨ok,one⟩,⟨ttlS,two⟩,⟨schemaKnown,three⟩⟩ := (typed_iff castInt fields).mp typed
              simp only [one,two,three]
              refine ⟨_,rfl,fun yes => ⟨fields,rfl,valueOr_true fields "ok" ?_⟩⟩
              rw [one]
              exact congrArg _ yes
        | null => simp [Survives,registerResult,connected,success,parsed,valueOr]
        | bool b => simp [Survives,registerResult,connected,success,parsed,valueOr]
        | int n => simp [Survives,registerResult,connected,success,parsed,valueOr]
        | float text x => simp [Survives,registerResult,connected,success,parsed,valueOr]
        | str text => simp [Survives,registerResult,connected,success,parsed,valueOr]
        | list items => simp [Survives,registerResult,connected,success,parsed,valueOr]
    · simp [Survives,Harmless,registerResult,connected,success]
  · simp [Survives,Harmless,registerResult,connected]

/-- An answer can be relied on where its headers are plain and its body is harmless,
and, if the header block says `content-length:` once at most, only there. -/
theorem answers_kept (stream : Stream) (closed : .failed ∉ stream) (response : HttpResult) :
    (Plain (received stream) ∧ Harmless parse response → Sound stream ∧ Survives parse castInt response) ∧
      (Once (received stream) → Sound stream ∧ Survives parse castInt response →
        Plain (received stream) ∧ Harmless parse response) := by
  rw [survives_iff]
  constructor
  · exact fun kept => ⟨sound_of_plain stream closed kept.1,kept.2⟩
  · exact fun once kept => ⟨plain_of_sound stream closed once kept.1,kept.2⟩

/-- Whether the planner acknowledged the beat, and whether it lost the robot. -/
def heartbeat (response : HttpResult) : Bool × Bool :=
  if !response.connected then (false,false)
  else if response.statusCode = 404 then (false,true)
  else (response.statusCode = 200,false)

/-- The discovery thread: it registers until the planner agrees, and then beats. -/
structure Discovery where
  registered : Bool := false
  beating : Bool := false
  killed : Bool := false
  deriving DecidableEq

/-- The planner's answers to one round of the loop. -/
inductive Round where
  | register (answer : Stream)
  | heartbeat (answer again : Stream)

def registering (answer : Stream) (d : Discovery) : Discovery :=
  match registerRobot parse castInt answer with
  | .error _ => { d with killed := true }
  | .ok result => if result.ok then { d with registered := true, beating := true } else d

def discoveryLoop : Machine Discovery Round where
  initial := fun d => d = {}
  enabled := fun d round => d.killed = false ∧
    match round with
    | .register _ => d.beating = false
    | .heartbeat _ _ => d.beating = true
  next := fun d round =>
    match round with
    | .register answer => registering parse castInt answer d
    | .heartbeat answer again =>
      if heartbeat (httpRequest answer) = (false,true) then registering parse castInt again d else d

/-- Every answer to a registration is harmless. -/
def Answered (_ : Discovery) (round : Round) : Prop :=
  match round with
  | .register answer => Harmless parse (httpRequest answer)
  | .heartbeat _ again => Harmless parse (httpRequest again)

theorem registering_survives (answer : Stream) (d : Discovery) (alive : d.killed = false)
    (harmless : Harmless parse (httpRequest answer)) : (registering parse castInt answer d).killed = false := by
  obtain ⟨result,returned,_⟩ := (survives_iff parse castInt _).mpr harmless
  have answered : registerRobot parse castInt answer = .ok result := returned
  simp only [registering,answered]
  split
  · exact alive
  · exact alive

/-- The thread lives through every run of harmless answers. -/
theorem discovery_survives (d : Discovery) (reached : (discoveryLoop parse castInt).Reaches (Answered parse) d) :
    d.killed = false := by
  apply reached.invariant (fun d => d.killed = false)
  · rintro d rfl
    rfl
  · intro d round _ alive _ answered
    cases round with
    | register answer => exact registering_survives parse castInt answer d alive answered
    | heartbeat answer again =>
      simp only [discoveryLoop]
      split
      · exact registering_survives parse castInt again d alive answered
      · exact alive

def ascii (text : String) : Text := text.toUTF8.data.toList

def piece (text : String) : Stream := unread (ascii text) []

/-- What the parser makes of `[]` and of an object whose `ok` is true. -/
def sampleParse (text : Text) : Except JsonError Json :=
  if text = ascii "[]" then .ok (.list [])
  else if text = ascii "\x7b\"ok\":true\x7d" then .ok (.dict [("ok",.bool true)])
  else .error .parseError

def truncate : Json → Int
  | .int n => n
  | _ => 0

/-- An answer in two pieces. -/
def welcome : Stream :=
  piece "HTTP/1.1 200 OK\r\nContent-Length: 1" ++ piece "1\r\n\r\n\x7b\"ok\":true\x7d"

theorem welcome_harmless : Harmless sampleParse (httpRequest welcome) := by
  intro _ _
  have body : (httpRequest welcome).body = ascii "\x7b\"ok\":true\x7d" := by decide +kernel
  have apart : ascii "\x7b\"ok\":true\x7d" ≠ ascii "[]" := by decide +kernel
  refine .inr ⟨[("ok",.bool true)],?_,?_⟩
  · rw [body,sampleParse,if_neg apart,if_pos rfl]
  · refine ⟨fun value found => ⟨true,?_⟩,fun value found => ?_,fun value found => ?_⟩
    · exact (Option.some.inj found).symm
    · cases found
    · cases found

theorem welcome_plain : Plain (received welcome) := by
  intro terminator at_ length ends found read
  have here : find blankLine (received welcome) = some 35 := by decide +kernel
  rw [here] at ends
  injection ends with ends
  rw [← ends] at found read ⊢
  have words : find contentLengthKey (toLower ((received welcome).take 35)) = some 17 := by decide +kernel
  rw [words] at found
  injection found with found
  rw [← found] at read ⊢
  have eleven : stoul (trimmed (untilCrlf (((received welcome).take 35).drop (17 + 15)))) = some 11 := by decide +kernel
  rw [eleven] at read
  injection read with read
  rw [← read]
  decide +kernel

theorem answers_kept_welcome : Sound welcome ∧ Survives sampleParse truncate (httpRequest welcome) :=
  (answers_kept sampleParse truncate welcome (by decide) (httpRequest welcome)).1 ⟨welcome_plain,welcome_harmless⟩

/-- A field that is not the length, read as the length. -/
def misnamed : Stream := piece "HTTP/1.1 200 OK\r\nX-Content-Length: 1\r\n\r\n[]"

/-- A server that closes before the end of what it announced. -/
def cutShort : Stream := piece "HTTP/1.1 200 OK\r\nContent-Length: 5\r\n\r\n[]"

/-- A body of one byte where two came, a connected answer of two bytes where five
were announced, and an array that ends the thread. -/
theorem answers_not_kept :
    (httpRequest misnamed).body = ascii "[" ∧
      ((parseHttpHeaders (received cutShort)).contentLength = some 5 ∧ (httpRequest cutShort).connected = true ∧
        (httpRequest cutShort).body.length = 2) ∧
      registerRobot sampleParse truncate cutShort = .error .typeError := by
  decide +kernel

end AmigaFleet.Intake