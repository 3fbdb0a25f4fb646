import Mathlib
import TacoBack.Lib.Encoding
import TacoBack.Lib.Parse
import TacoBack.Lib.Traverse
import TacoBack.Request.Store

/-!
# The request store as text

What Redis holds of a request is the text of `JSON.stringify`, and what the service reads is what `JSON.parse`
makes of it. The store of records is an abstraction of that store: whatever calls were made, it encodes to the
texts, and every read of the texts gives what the read of the records gives.
-/

namespace TacoBack

def ModuleKeys.text : ModuleKeys → String
  | .FRIEND => "FRIEND"
  | .GROUP => "GROUP"

def Action.text : Action → String
  | .ADD => "ADD"
  | .INVITE => "INVITE"
  | .JOIN => "JOIN"

def Status.text : Status → String
  | .accept => "accept"
  | .refuse => "refuse"

/-- The properties in the order of their assignment, those that are `undefined` among them. -/
def Request.properties (request : Request) : List (String × Option Json) :=
  [("action", some (.str request.action.text)), ("sender", some (.str request.sender)),
    ("module", some (.str request.module.text)), ("meta", request.metadata), ("expire", some (.num request.expire)),
    ("recive", some (.str request.recive)), ("rid", request.rid.map .str), ("sign", request.sign.map .str)]

/-- `JSON.stringify` leaves out a property that is `undefined`. -/
def defined (properties : List (String × Option Json)) : List (String × Json) :=
  properties.filterMap fun property => property.2.map fun value => (property.1, value)

def Request.toJson (request : Request) : Json := .obj (defined request.properties)

def Stored.toJson : Stored → Json
  | .record request => request.toJson
  | .number n => .num n

def Stored.text (stored : Stored) : String := String.ofList (Json.print stored.toJson)

/-- A published message, with the payload as JSON. -/
structure JsonMessage where
  exchange : String
  routingKey : String
  payload : Json

def Message.toJson (message : Message) : JsonMessage where
  exchange := message.exchange
  routingKey := message.routingKey
  payload := match message.payload with
    | .request request => request.toJson
    | .args fields => .obj fields

/-- What a read of the texts may throw. -/
inductive Thrown where
  | failure (error : Failure)
  | syntaxError

/-- `isEmpty` of lodash: a value with neither length nor properties is empty. -/
def isEmpty : Json → Bool
  | .str text => text = ""
  | .arr items => items.isEmpty
  | .obj fields => fields.isEmpty
  | _ => true

def toLowerCase (text : String) : String := String.ofList (text.toList.map Char.toLower)

namespace RequestText

open RequestService

variable (number : String → Json) (env : Env)

/-! ### The functions on texts -/

def addRequest (request : Request) (db : Redis.Db String) : Redis.Db String × Except Redis.ReplyError String :=
  let req := String.ofList (Json.print request.toJson)
  match Redis.hset db (REQUEST_NAMESPACE request.recive) (ridOf env request) req with
  | .error e => (db, .error e)
  | .ok hashed =>
    match Redis.hsetnx hashed (REQUEST_NAMESPACE request.recive) (ridOf env request)
        (toString (raisedExpire env request)) with
    | .error e => (hashed, .error e)
    | .ok marked =>
      match Redis.zadd marked (REQUEST_HASH_KEY_NAMESPACE request.recive) (raisedExpire env request)
          (ridOf env request) with
      | .error e => (marked, .error e)
      | .ok filed => (filed, .ok (ridOf env request))

def removeRequest (tid rid : String) (db : Redis.Db String) : Except Redis.ReplyError (Redis.Db String) :=
  Redis.hdel db (REQUEST_NAMESPACE tid) rid

def parseText (text : String) : Except Thrown Json :=
  match Json.parse number text with
  | some value => .ok value
  | none => .error .syntaxError

def getReuqest (tid rid : String) (db : Redis.Db String) : Except Thrown Json :=
  match Redis.hget db (REQUEST_NAMESPACE tid) rid with
  | .error e => .error (.failure (.redis e))
  | .ok found => parseText number (found.getD "{}")

/-- `JSON.parse` of `null` is `null`. -/
def parseField (tid key : String) (db : Redis.Db String) : Except Thrown Json :=
  match Redis.hget db (REQUEST_NAMESPACE tid) key with
  | .error e => .error (.failure (.redis e))
  | .ok found => parseText number (found.getD "null")

def requestKeys (size : Int) (tid : String) (page : Option Int) (db : Redis.Db String) :
    Except Redis.ReplyError (List String) :=
  match page with
  | none | some 0 => Redis.zrange db (REQUEST_HASH_KEY_NAMESPACE tid) 0 9007199254740991
  | some page => Redis.zrange db (REQUEST_HASH_KEY_NAMESPACE tid) (page - 1 * size) (page * size)

def getAllRequest (size : Int) (tid : String) (page : Option Int) (db : Redis.Db String) :
    Except Thrown (List Json) :=
  match requestKeys size tid page db with
  | .error e => .error (.failure (.redis e))
  | .ok keys => keys.mapM fun key => parseField number tid key db

/-- Of the numbers `expire` may hold, those that are no integers are left out. -/
def isExpired (request : Json) (now : Int) : Bool :=
  match request.get "expire" with
  | some (.num expire) => expire < now
  | _ => false

def call (now : Int) (tid rid : String) (status : Status) (db : Redis.Db String) : Except Thrown JsonMessage :=
  match getReuqest number tid rid db with
  | .error e => .error e
  | .ok request =>
    if isEmpty request then .error (.failure (.service .NOT_FIND_REQUEST .BAD_REQUEST))
    else if isExpired request now then .error (.failure (.service .REQUEST_EXPIRED .BAD_REQUEST))
    else .ok {
      exchange := "system.call"
      routingKey := toLowerCase (Json.template (request.get "module") ++ "." ++ Json.template (request.get "action") ++
        "." ++ status.text)
      payload := request }

variable {number} {env}

/-! ### The texts of the records -/

theorem defined_keys (properties : List (String × Option Json)) :
    List.Sublist ((defined properties).map Prod.fst) (properties.map Prod.fst) := by
  induction properties with
  | nil => exact .slnil
  | cons property properties ih =>
    obtain ⟨key, value⟩ := property
    cases value with
    | none => exact ih.cons key
    | some value => exact ih.cons_cons key

theorem properties_keys (request : Request) : request.properties.map Prod.fst =
    ["action", "sender", "module", "meta", "expire", "recive", "rid", "sign"] := rfl

theorem create_defined (request : Request) : Json.create (defined request.properties) = defined request.properties := by
  have keys := defined_keys request.properties
  rw [properties_keys] at keys
  refine Json.create_of_names (fun field member => ?_) (keys.nodup (by decide))
  have key := keys.subset (List.mem_map_of_mem (f := Prod.fst) member)
  have names : ∀ key ∈ ["action", "sender", "module", "meta", "expire", "recive", "rid", "sign"],
      Json.index key = none := by decide
  exact names _ key

/-- What of a request may be lost in its text: an `expire` that is read as another number, and the `meta`. -/
structure Readable (number : String → Json) (request : Request) : Prop where
  expire : number (toString request.expire) = .num request.expire
  metadata : ∀ value, request.metadata = some value → Json.Readable number value

theorem readable_defined {properties : List (String × Option Json)}
    (each : ∀ property ∈ properties, ∀ value, property.2 = some value → Json.Readable number value) :
    Json.ReadableFields number (defined properties) := by
  induction properties with
  | nil => trivial
  | cons property properties ih =>
    obtain ⟨key, value⟩ := property
    rw [List.forall_mem_cons] at each
    cases value with
    | none => exact ih each.2
    | some value => exact ⟨each.1 value rfl, ih each.2⟩

theorem Readable.toJson {request : Request} (readable : Readable number request) :
    Json.Readable number request.toJson := by
  refine ⟨create_defined request, readable_defined fun property member value set => ?_⟩
  simp only [Request.properties, List.mem_cons, List.not_mem_nil, or_false] at member
  have strings : ∀ text : Option String, text.map Json.str = some value → Json.Readable number value := by
    intro text same
    obtain ⟨text, -, rfl⟩ := Option.map_eq_some_iff.mp same
    trivial
  rcases member with rfl | rfl | rfl | rfl | rfl | rfl | rfl | rfl
  · exact strings (some _) set
  · exact strings (some _) set
  · exact strings (some _) set
  · exact readable.metadata value set
  · obtain rfl := Option.some.inj set
    exact readable.expire
  · exact strings (some _) set
  · exact strings request.rid set
  · exact strings request.sign set

theorem parseText_text {stored : Stored} (readable : Json.Readable number stored.toJson) :
    parseText number stored.text = .ok stored.toJson := by
  rw [parseText, Stored.text, Json.parse_print readable]

/-! ### Writes -/

/-- The store of texts for a store of records. -/
abbrev texts (db : Redis.Db Stored) : Redis.Db String := Redis.encode Stored.text db

theorem addRequest_texts (request : Request) (db : Redis.Db Stored) :
    addRequest env request (texts db) =
      (texts (RequestService.addRequest env request db).1, (RequestService.addRequest env request db).2) := by
  have number_text (n : Int) : toString n = Stored.text (.number n) := by
    rw [Stored.text, Stored.toJson, Json.print, String.ofList_toList]
  have hset := Redis.hset_encode Stored.text db (REQUEST_NAMESPACE request.recive) (ridOf env request) (.record request)
  unfold addRequest RequestService.addRequest addHset addHsetnx addZadd
  rw [number_text]
  rw [show String.ofList (Json.print request.toJson) = Stored.text (.record request) from rfl]
  simp only [hset]
  cases Redis.hset db (REQUEST_NAMESPACE request.recive) (ridOf env request) (.record request) with
  | error e => rfl
  | ok hashed =>
    have hsetnx := Redis.hsetnx_encode Stored.text hashed (REQUEST_NAMESPACE request.recive) (ridOf env request)
      (.number (raisedExpire env request))
    simp only [Except.map, hsetnx]
    cases Redis.hsetnx hashed (REQUEST_NAMESPACE request.recive) (ridOf env request)
        (.number (raisedExpire env request)) with
    | error e => rfl
    | ok marked =>
      have zadd := Redis.zadd_encode Stored.text marked (REQUEST_HASH_KEY_NAMESPACE request.recive)
        (raisedExpire env request) (ridOf env request)
      simp only [zadd]
      cases Redis.zadd marked (REQUEST_HASH_KEY_NAMESPACE request.recive) (raisedExpire env request)
          (ridOf env request) with
      | error e => rfl
      | ok filed => rfl

theorem removeRequest_texts (tid rid : String) (db : Redis.Db Stored) :
    removeRequest tid rid (texts db) = (RequestService.removeRequest tid rid db).map texts :=
  Redis.hdel_encode Stored.text db _ rid

/-! ### Reads -/

def redisThrown (e : Redis.ReplyError) : Thrown := .failure (.redis e)

/-- Every record and every number in the store is read back from its text. -/
def AllReadable (number : String → Json) (db : Redis.Db Stored) : Prop :=
  ∀ key field stored, Redis.Holds db key field stored → Json.Readable number stored.toJson

variable {db : Redis.Db Stored}

theorem parsed (readable : AllReadable number db) {key field : String} {found : Option Stored}
    (held : Redis.hget db key field = .ok found) {absent : String} {value : Json}
    (empty : parseText number absent = .ok value) :
    parseText number ((found.map Stored.text).getD absent) = .ok ((found.map Stored.toJson).getD value) := by
  cases found with
  | none => exact empty
  | some stored => exact parseText_text (readable key field stored held)

theorem parse_empty : parseText number "{}" = .ok (.obj []) := by
  have parsed := @Json.parse_print number (.obj []) ⟨rfl, trivial⟩
  rw [parseText, show "{}" = String.ofList (Json.print (.obj [])) from rfl, parsed]

theorem parse_null : parseText number "null" = .ok .null := by
  have parsed := @Json.parse_print number .null trivial
  rw [parseText, show "null" = String.ofList (Json.print .null) from rfl, parsed]

theorem getReuqest_texts (readable : AllReadable number db) (tid rid : String) :
    getReuqest number tid rid (texts db) = ((RequestService.getReuqest tid rid db).map fun found =>
      (found.map Stored.toJson).getD (.obj [])).mapError redisThrown := by
  unfold getReuqest RequestService.getReuqest
  rw [Redis.hget_encode]
  cases read : Redis.hget db (REQUEST_NAMESPACE tid) rid with
  | error e => rfl
  | ok found => exact parsed readable read parse_empty

theorem getAllRequest_texts (readable : AllReadable number db) (size : Int) (tid : String) (page : Option Int) :
    getAllRequest number size tid page (texts db) = ((RequestService.getAllRequest size tid page db).map
      (List.map fun found => (found.map Stored.toJson).getD .null)).mapError redisThrown := by
  have keys : requestKeys size tid page (texts db) = RequestService.requestKeys size tid page db := by
    have ranged : Redis.zrange (texts db) (REQUEST_HASH_KEY_NAMESPACE tid) =
        Redis.zrange db (REQUEST_HASH_KEY_NAMESPACE tid) :=
      funext fun start => funext fun stop => Redis.zrange_encode _ _ _ start stop
    unfold requestKeys
    rw [ranged]
    rfl
  unfold getAllRequest RequestService.getAllRequest
  rw [keys]
  cases RequestService.requestKeys size tid page db with
  | error e => rfl
  | ok keys =>
    refine Traverse.mapM_translate keys fun key _ => ?_
    rw [parseField, Redis.hget_encode]
    cases read : Redis.hget db (REQUEST_NAMESPACE tid) key with
    | error e => rfl
    | ok found => exact parsed readable read parse_null

theorem get_expire (request : Request) : request.toJson.get "expire" = some (.num request.expire) := by
  cases set : request.metadata <;>
    simp [Request.toJson, Request.properties, defined, set, Json.get, List.lookup_cons]

theorem routingKey_lower (request : Request) (status : Status) :
    toLowerCase (Json.template (request.toJson.get "module") ++ "." ++ Json.template (request.toJson.get "action") ++
      "." ++ status.text) =
      (getModule request).toLowerCase ++ "." ++ (getAction request).toLowerCase ++ "." ++ status.toLowerCase := by
  have module : request.toJson.get "module" = some (.str request.module.text) := by
    simp [Request.toJson, Request.properties, defined, Json.get, List.lookup_cons]
  have action : request.toJson.get "action" = some (.str request.action.text) := by
    simp [Request.toJson, Request.properties, defined, Json.get]
  rw [module, action, getModule, getAction]
  cases request.module <;> cases request.action <;> cases status <;> decide

theorem call_record {now : Int} {tid rid : String} {status : Status} {db : Redis.Db String} {request : Request}
    (read : getReuqest number tid rid db = .ok request.toJson) :
    call number now tid rid status db =
      ((callSend now request status).map Message.toJson).mapError Thrown.failure := by
  have full : isEmpty request.toJson = false := rfl
  have expired : isExpired request.toJson now = TacoBack.isExpired request now := by
    rw [isExpired, get_expire]
    rfl
  simp only [call, read, full, expired, routingKey_lower, callSend, Bool.false_eq_true, if_false]
  split <;> rfl

/-- `call` sends what the record says. -/
theorem call_texts (readable : AllReadable number db) (now : Int) (tid rid : String) (status : Status) :
    call number now tid rid status (texts db) =
      (((callRead tid rid db).bind fun request => callSend now request status).map Message.toJson).mapError
        Thrown.failure := by
  have answer := getReuqest_texts readable tid rid
  unfold callRead
  cases read : RequestService.getReuqest tid rid db with
  | error e =>
    rw [call, answer, read]
    rfl
  | ok found =>
    rw [read] at answer
    cases found with
    | none =>
      rw [call, answer]
      rfl
    | some stored =>
      cases stored with
      | number n =>
        rw [call, answer]
        rfl
      | record request => exact call_record answer

/-! ### Runs -/

open RequestSystem

def perform (env : Env) (db : Redis.Db String) : Call → Redis.Db String
  | .add request => (addRequest env request db).1
  | .remove tid rid =>
    match removeRequest tid rid db with
    | .ok removed => removed
    | .error _ => db

theorem perform_texts (db : Redis.Db Stored) (call : Call) :
    perform env (texts db) call = texts (RequestSystem.perform env db call) := by
  cases call with
  | add request => rw [perform, addRequest_texts, RequestSystem.perform]
  | remove tid rid =>
    rw [perform, removeRequest_texts, RequestSystem.perform]
    cases RequestService.removeRequest tid rid db <;> rfl

def Step (env : Env) (db : Redis.Db String) (call : Call) (after : Redis.Db String) : Prop :=
  after = perform env db call

abbrev Run (env : Env) : List (Redis.Db String × Call) → Redis.Db String → Prop :=
  Transition.Run (Step env) fun _ => none

theorem AllReadable.perform (readable : AllReadable number db) (call : Call)
    (fine : ∀ request, call = .add request → Readable number request) :
    AllReadable number (RequestSystem.perform env db call) := by
  intro key field stored held
  cases call with
  | add request =>
    rw [RequestSystem.perform] at held
    rcases addRequest_cases env request db with ⟨-, same⟩ | ⟨hashed, wrote, -⟩
    · exact readable key field stored (same ▸ held)
    · rw [holds_addRequest wrote] at held
      rcases (Redis.holds_hset wrote).mp held with ⟨-, -, rfl⟩ | ⟨-, before⟩
      · exact (fine request rfl).toJson
      · exact readable key field stored before
  | remove tid rid =>
    rw [RequestSystem.perform] at held
    split at held
    · rename_i removed done
      exact readable key field stored ((Redis.holds_hdel done).mp held).2
    · exact readable key field stored held

theorem run_texts {history : List (Redis.Db String × Call)} {db : Redis.Db String} (run : Run env history db) :
    ∃ past records, RequestSystem.Run env past records ∧ Transition.labels past = Transition.labels history ∧
      db = texts records := by
  induction run with
  | nil => exact ⟨[], _, .nil, rfl, rfl⟩
  | @snoc history t u call before taken ih =>
    obtain ⟨past, records, runs, same, rfl⟩ := ih
    refine ⟨_, _, runs.snoc (l := call) rfl, ?_, ?_⟩
    · rw [Transition.labels_append, same, Transition.labels_append]
      rfl
    · rw [taken, perform_texts]

theorem run_readable {past : List (Redis.Db Stored × Call)} {records : Redis.Db Stored}
    (run : RequestSystem.Run env past records)
    (fine : ∀ request, .add request ∈ Transition.labels past → Readable number request) :
    AllReadable number records := by
  induction run with
  | nil => exact fun _ _ _ held => (Redis.holds_empty held).elim
  | @snoc past t u call before taken ih =>
    simp only [Transition.labels_append, Transition.labels_cons, Transition.labels_nil] at fine
    obtain rfl := taken
    have readable := ih fun request member => fine request (List.mem_append_left _ member)
    exact readable.perform call fun request added => fine request (by simp [added])

/-- The service on texts answers every call as the service on records does, the records as JSON. -/
structure Answers (number : String → Json) (env : Env) (db : Redis.Db String) (records : Redis.Db Stored) : Prop where
  addRequest : ∀ request, (addRequest env request db).2 = (RequestService.addRequest env request records).2
  getReuqest : ∀ tid rid, getReuqest number tid rid db =
    ((RequestService.getReuqest tid rid records).map fun found =>
      (found.map Stored.toJson).getD (.obj [])).mapError redisThrown
  getAllRequest : ∀ size tid page, getAllRequest number size tid page db =
    ((RequestService.getAllRequest size tid page records).map
      (List.map fun found => (found.map Stored.toJson).getD .null)).mapError redisThrown
  call : ∀ now tid rid status, call number now tid rid status db =
    (((callRead tid rid records).bind fun request => callSend now request status).map Message.toJson).mapError
      Thrown.failure

/-- Every run of calls on the texts is a run of the same calls on the records. Where the requests can be read back
from their texts, no read throws a `SyntaxError`, and all answers are those of the records. -/
theorem texts_refine {history : List (Redis.Db String × Call)} {db : Redis.Db String} (run : Run env history db) :
    ∃ past records, RequestSystem.Run env past records ∧ Transition.labels past = Transition.labels history ∧
      db = texts records ∧
      ∀ number, (∀ request, .add request ∈ Transition.labels history → Readable number request) →
        Answers number env db records := by
  obtain ⟨past, records, runs, same, rfl⟩ := run_texts run
  refine ⟨past, records, runs, same, rfl, fun number fine => ?_⟩
  rw [← same] at fine
  have readable := run_readable runs fine
  exact {
    addRequest := fun request => congrArg Prod.snd (addRequest_texts request records)
    getReuqest := getReuqest_texts readable
    getAllRequest := getAllRequest_texts readable
    call := call_texts readable }

/-- A reader of integers. -/
def sampleNumber (text : String) : Json :=
  match text.toInt? with
  | some n => .num n
  | none => .float text

theorem texts_refine_sample : ∃ history db, Run sampleEnv history db ∧
    Transition.labels history = [.add sampleRequest] ∧
    ∃ past records, RequestSystem.Run sampleEnv past records ∧
      Transition.labels past = Transition.labels history ∧ db = texts records ∧
      Answers sampleNumber sampleEnv db records := by
  have run : Run sampleEnv [(fun _ => none, .add sampleRequest)] _ := .snoc .nil rfl
  have readable : Readable sampleNumber sampleRequest := by
    refine ⟨?_, fun value set => ?_⟩
    · rw [sampleNumber, show (toString sampleRequest.expire).toInt? = _ from Int.toInt?_repr sampleRequest.expire]
    · obtain rfl := Option.some.inj set
      exact ⟨rfl, trivial, trivial⟩
  obtain ⟨past, records, runs, same, kept, answers⟩ := texts_refine run
  refine ⟨_, _, run, rfl, past, records, runs, same, kept, answers sampleNumber fun request member => ?_⟩
  obtain rfl := Call.add.inj (List.mem_singleton.mp member)
  exact readable

end RequestText

end TacoBack
