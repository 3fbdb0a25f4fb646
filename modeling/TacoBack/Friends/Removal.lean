import Mathlib
import TacoBack.Config.Service
import TacoBack.Friends.Service
import TacoBack.Lib.Transition
import TacoBack.Notice.Service

/-!
# Removing a friend

`FriendsService.remove` at the granularity of its awaited steps, with the message it publishes and
the handler `NoticeService.setNotice`. Everything else may change the stores at any time.
-/

namespace TacoBack.RemovalSystem

open FriendsService NoticeService Transition

/-- What a channel takes: exchange, routing key and payload. -/
structure Published where
  exchange : Option Json
  routingKey : Option Json
  payload : Json

/-- The libraries. `accepts` tells which exchanges and routing keys `publish` takes without throwing;
`rawMessage` is the second argument of a message handler. -/
structure Rpc where
  accepts : Option Json → Option Json → Bool
  rawMessage : Json
  stringify : Json → String

/-- `publish` throws where the exchange or the routing key is not a string. -/
def Rpc.Lawful (rpc : Rpc) : Prop :=
  ∀ exchange routingKey, rpc.accepts exchange routingKey = true →
    ∃ name key, exchange = some (.str name) ∧ routingKey = some (.str key)

/-- The binding of `NoticeService.setNotice`. -/
def Bound (message : Published) : Prop :=
  message.exchange = some (.str "system.call") ∧ message.routingKey = some (.str "system.call.notice.setNotice")

instance (message : Published) : Decidable (Bound message) := inferInstanceAs (Decidable (_ ∧ _))

def option (config : Json) (nid source : String) : RequestOption Notice :=
  createRequestOption config "notice" "setNotice" (createNotice nid source .FRIEND (.obj []))

/-- `remove` publishes the notice alone: it does not say who is to get it. -/
def removeMessage (config : Json) (nid source : String) : Published where
  exchange := (option config nid source).exchange
  routingKey := (option config nid source).routingKey
  payload := (option config nid source).payload.toJson

inductive Task where
  | find (source target : String)
  | delete (source target id : String)
  | publish (source target : String)

/-- `removed`: a call of `remove` published its message and returned `true`. -/
inductive Event where
  | internal
  | removed (source target : String) (message : Published)
  | threw (source target : String)

structure State where
  friends : List Friend
  users : List Users
  redis : Redis.Db Unit
  tasks : List Task
  messages : List Published

def init : State where
  friends := []
  users := []
  redis := fun _ => none
  tasks := []
  messages := []

inductive Step (config : Json) (rpc : Rpc) (driver : Mongo.Driver) (s : State) : Event → State → Prop where
  | others {friends users redis} :
      Step config rpc driver s .internal { s with friends := friends, users := users, redis := redis }
  | remove {source target} (has : hasFriend s.friends source target = true) :
      Step config rpc driver s .internal { s with tasks := s.tasks ++ [.find source target] }
  | find {pre source target post id} (here : s.tasks = pre ++ .find source target :: post)
      (found : removedId driver s.users target = .ok id) :
      Step config rpc driver s .internal { s with tasks := pre ++ .delete source target id :: post }
  | unfound {pre source target post e} (here : s.tasks = pre ++ .find source target :: post)
      (lost : removedId driver s.users target = .error e) :
      Step config rpc driver s (.threw source target) { s with tasks := pre ++ post }
  | delete {pre source target id post} (here : s.tasks = pre ++ .delete source target id :: post) :
      Step config rpc driver s .internal
        { s with friends := deleteEdge source id s.friends, tasks := pre ++ .publish source target :: post }
  | publish {pre source target post nid} (here : s.tasks = pre ++ .publish source target :: post)
      (taken : rpc.accepts (removeMessage config nid source).exchange (removeMessage config nid source).routingKey =
        true) :
      Step config rpc driver s (.removed source target (removeMessage config nid source))
        { s with tasks := pre ++ post, messages := s.messages ++ [removeMessage config nid source] }
  | refused {pre source target post nid} (here : s.tasks = pre ++ .publish source target :: post)
      (refused : rpc.accepts (removeMessage config nid source).exchange
        (removeMessage config nid source).routingKey = false) :
      Step config rpc driver s (.threw source target) { s with tasks := pre ++ post }
  | deliver {pre message post redis} (here : s.messages = pre ++ message :: post) (bound : Bound message)
      (done : setNotice message.payload (rpc.stringify rpc.rawMessage) s.redis = .ok redis) :
      Step config rpc driver s .internal { s with redis := redis, messages := pre ++ post }

abbrev History := List (State × Event)

abbrev Run (config : Json) (rpc : Rpc) (driver : Mongo.Driver) : History → State → Prop :=
  Transition.Run (Step config rpc driver) init

/-- The message reaches `setNotice`, which files a notice of the source under the target. -/
structure Notifies (rpc : Rpc) (source target : String) (message : Published) : Prop where
  bound : Bound message
  stores : ∀ (redis : Redis.Db Unit) old, Redis.zsetAt redis (NOTICE_NAMESPACE target) = .ok old →
    ∃ after scores, ∃ notice : Notice,
      setNotice message.payload (rpc.stringify rpc.rawMessage) redis = .ok after ∧ notice.sender = source ∧
        after (NOTICE_NAMESPACE target) = some (.zset scores) ∧ rpc.stringify notice.toJson ∈ scores

/-- The requests of `add` and `accept` do have their routes in config.toml. -/
theorem request_routes (request : Request) :
    let added := createRequestOption shippedConfig "request" "addRequest" request
    let removed := createRequestOption shippedConfig "request" "removeRequest" (removeArgs request)
    added.exchange = some (.str (addRequestMessage request).exchange) ∧
      added.routingKey = some (.str (addRequestMessage request).routingKey) ∧
      removed.exchange = some (.str (removeRequestMessage request).exchange) ∧
      removed.routingKey = some (.str (removeRequestMessage request).routingKey) :=
  ⟨rfl, rfl, rfl, rfl⟩

variable {rpc : Rpc} {driver : Mongo.Driver} {h : History} {s : State}

theorem notifies_never (config : Json) (rpc : Rpc) (nid source target : String) :
    ¬ Notifies rpc source target (removeMessage config nid source) := by
  intro notifies
  obtain ⟨after, scores, notice, done, -⟩ := notifies.stores (fun _ => none) ∅ rfl
  rw [setNotice_fails] at done
  cases done

theorem Step.removed_message {config : Json} {s' : State} {source target : String} {message : Published}
    (taken : Step config rpc driver s (.removed source target message) s') :
    ∃ nid, message = removeMessage config nid source ∧ rpc.accepts message.exchange message.routingKey = true := by
  cases taken with
  | publish here taken => exact ⟨_, rfl, taken⟩

/-- With config.toml the message has no routing key, and the channel throws. -/
theorem shipped_refused (lawful : rpc.Lawful) (nid source : String) :
    rpc.accepts (removeMessage shippedConfig nid source).exchange (removeMessage shippedConfig nid source).routingKey =
      false := by
  have keyless : (removeMessage shippedConfig nid source).routingKey = none := by
    rw [removeMessage, option, setNotice_route]
  rw [← Bool.not_eq_true]
  intro taken
  obtain ⟨_, key, -, given⟩ := lawful _ _ taken
  rw [keyless] at given
  cases given

def sampleRpc : Rpc where
  accepts := fun exchange routingKey =>
    match exchange, routingKey with
    | some (.str _), some (.str _) => true
    | _, _ => false
  rawMessage := .obj []
  stringify := fun value => value.toText

theorem sampleRpc_lawful : sampleRpc.Lawful := by
  intro exchange routingKey taken
  simp only [sampleRpc] at taken
  split at taken
  · exact ⟨_, _, rfl, rfl⟩
  · cases taken

/-- User 1 has user 2 as a friend, who registered with a text for a tid, and removes him. -/
theorem sample_threw : ∃ h s state, Run shippedConfig sampleRpc .standard h s ∧
    (state, .threw "1" "2") ∈ h := by
  let user : Users := ⟨"660a3b1e9c1f4e0012ab34cd", some (.str "2"), none, none, none, none, none⟩
  have filled : Run shippedConfig sampleRpc .standard _ _ :=
    Transition.Run.nil.snoc (@Step.others _ _ _ init [⟨"1", "2", none⟩] [user] fun _ => none)
  have found : removedId .standard [user] "2" = .ok "660a3b1e9c1f4e0012ab34cd" := by rfl
  have begun := filled.snoc (@Step.remove _ _ _ _ "1" "2" rfl)
  have looked := begun.snoc (@Step.find _ _ _ _ [] "1" "2" [] _ rfl found)
  have deleted := looked.snoc (@Step.delete _ _ _ _ [] "1" "2" _ [] rfl)
  have refused := shipped_refused sampleRpc_lawful "660a3b1e9c1f4e0012ab34ce" "1"
  have threw := deleted.snoc (@Step.refused _ _ _ _ [] "1" "2" [] _ rfl refused)
  exact ⟨_, _, _, threw, List.mem_append_right _ (List.mem_singleton.mpr rfl)⟩

end TacoBack.RemovalSystem
