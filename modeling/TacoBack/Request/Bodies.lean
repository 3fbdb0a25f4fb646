import TacoBack.Friends.Service
import TacoBack.Lib.Canonical
import TacoBack.Request.Text

/-!
# Messages of friend requests

The body of a friend request is never validated: its `msg` may be any JSON. It is filed as part of a text, and every
later read parses that text. Whatever a client posted, the reads give exactly what its own text parsed to.
-/

namespace TacoBack

/-- What `add` reads of a body. A `tid` that is no string, and a `msg` that is `undefined`, are left out. -/
def AddFriendDto.ofBody (body : Json) : Option AddFriendDto :=
  match body.get "tid", body.get "msg" with
  | some (.str tid), some msg => some { tid := tid, msg := msg }
  | _, _ => none

theorem AddFriendDto.ofBody_msg {body : Json} {dto : AddFriendDto} (read : ofBody body = some dto) :
    body.get "msg" = some dto.msg := by
  unfold ofBody at read
  split at read
  · rename_i found
    obtain rfl := Option.some.inj read
    exact found
  · cases read

namespace RequestText

open RequestService RequestSystem Transition

variable (number : String → Json) (env : Env)

/-- The request `add` built from a body with this text, at some time. A number that is too large is left out: it is
read as `Infinity`, and written as `null`. -/
structure Posted (request : Request) (text : String) : Prop where
  built : ∃ now source body dto, Json.parse number text = some body ∧ Json.Finite body ∧
    AddFriendDto.ofBody body = some dto ∧ request = FriendsService.addedRequest env now source dto
  expire : number (toString request.expire) = .num request.expire

/-- One of the added requests, as JSON, with the `msg` of the body it was posted with. -/
def Carries (calls : List Call) (tid rid : String) (value : Json) : Prop :=
  ∃ request text, .add request ∈ calls ∧ Posted number env request text ∧ request.recive = tid ∧
    ridOf env request = rid ∧ value = request.toJson ∧
    (value.get "meta").bind (Json.get · "msg") = (Json.parse number text).bind (Json.get · "msg")

/-- What the read returns is good, and it throws no `SyntaxError`. -/
inductive Reads {α : Type} (good : α → Prop) : Except Thrown α → Prop
  | ok {value : α} (held : good value) : Reads good (.ok value)
  | failed (error : Failure) : Reads good (.error (.failure error))

variable {number} {env} {request : Request} {text : String}

theorem Posted.readable (reads : Json.ReadsNumbers number) (posted : Posted number env request text) :
    Readable number request := by
  refine ⟨posted.expire, fun value set => ?_⟩
  obtain ⟨now, source, body, dto, parsed, finite, read, rfl⟩ := posted.built
  obtain rfl := Option.some.inj set
  have whole := Json.parse_readable reads parsed finite
  exact ⟨rfl, whole.get (AddFriendDto.ofBody_msg read), trivial⟩

/-- The message of the body is the message of the request. -/
theorem Posted.message (posted : Posted number env request text) :
    (request.toJson.get "meta").bind (Json.get · "msg") = (Json.parse number text).bind (Json.get · "msg") := by
  obtain ⟨now, source, body, dto, parsed, -, read, rfl⟩ := posted.built
  rw [parsed, Option.bind_some, AddFriendDto.ofBody_msg read]
  rfl

/-! ### Runs -/

/-- Every field of the hashes is one of the added requests, under its own keys. -/
def Recorded (env : Env) (calls : List Call) (db : Redis.Db Stored) : Prop :=
  ∀ key field stored, Redis.Holds db key field stored → ∃ request, .add request ∈ calls ∧
    key = REQUEST_NAMESPACE request.recive ∧ field = ridOf env request ∧ stored = .record request

variable {calls : List Call} {db : Redis.Db Stored}

theorem Recorded.later (recorded : Recorded env calls db) (call : Call) : Recorded env (calls ++ [call]) db := by
  intro key field stored held
  obtain ⟨request, added, same⟩ := recorded key field stored held
  exact ⟨request, List.mem_append_left _ added, same⟩

theorem Recorded.perform (recorded : Recorded env calls db) (call : Call) :
    Recorded env (calls ++ [call]) (RequestSystem.perform env db call) := by
  intro key field stored held
  cases call with
  | add request =>
    rw [RequestSystem.perform] at held
    rcases addRequest_cases env request db with ⟨-, same⟩ | ⟨hashed, wrote, -⟩
    · exact recorded.later _ key field stored (same ▸ held)
    · rw [holds_addRequest wrote] at held
      rcases (Redis.holds_hset wrote).mp held with ⟨rfl, rfl, rfl⟩ | ⟨-, before⟩
      · exact ⟨request, by simp, rfl, rfl, rfl⟩
      · exact recorded.later _ key field stored before
  | remove tid rid =>
    rw [RequestSystem.perform] at held
    split at held
    · rename_i removed done
      exact recorded.later _ key field stored ((Redis.holds_hdel done).mp held).2
    · exact recorded.later _ key field stored held

theorem run_recorded {history : List (Redis.Db Stored × Call)} (run : RequestSystem.Run env history db) :
    Recorded env (labels history) db := by
  induction run with
  | nil => exact fun _ _ _ held => (Redis.holds_empty held).elim
  | @snoc past state next call before taken ih =>
    obtain rfl := taken
    rw [labels_append, labels_cons, labels_nil]
    exact ih.perform call

/-! ### What reads give -/

variable {tid rid : String}

/-- What is filed under one recipient carries what was posted. -/
theorem Recorded.carries (recorded : Recorded env calls db)
    (posted : ∀ request, .add request ∈ calls → ∃ text, Posted number env request text) {stored : Stored}
    (held : Redis.Holds db (REQUEST_NAMESPACE tid) rid stored) : Carries number env calls tid rid stored.toJson := by
  obtain ⟨request, added, key, rfl, rfl⟩ := recorded _ _ _ held
  obtain ⟨text, post⟩ := posted request added
  exact ⟨request, text, added, post, (requestNamespace_inj key).symm, rfl, rfl, post.message⟩

theorem Reads.getReuqest {good : Json → Prop} (readable : AllReadable number db) (empty : good (.obj []))
    (each : ∀ stored, Redis.Holds db (REQUEST_NAMESPACE tid) rid stored → good stored.toJson) :
    Reads good (getReuqest number tid rid (texts db)) := by
  rw [getReuqest_texts readable]
  cases read : RequestService.getReuqest tid rid db with
  | error e => exact .failed _
  | ok found =>
    cases found with
    | none => exact .ok empty
    | some stored => exact .ok (each stored read)

theorem Reads.getAllRequest {good : Json → Prop} (readable : AllReadable number db) (size : Int) (page : Option Int)
    (null : good .null)
    (each : ∀ rid stored, Redis.Holds db (REQUEST_NAMESPACE tid) rid stored → good stored.toJson) :
    Reads (fun listed => ∀ value ∈ listed, good value) (getAllRequest number size tid page (texts db)) := by
  rw [getAllRequest_texts readable]
  cases read : RequestService.getAllRequest size tid page db with
  | error e => exact .failed _
  | ok listed =>
    refine .ok fun value member => ?_
    obtain ⟨found, present, rfl⟩ := List.mem_map.mp member
    cases found with
    | none => exact null
    | some stored =>
      unfold RequestService.getAllRequest at read
      split at read
      · cases read
      · obtain ⟨rid, -, held⟩ := Traverse.mem_of_mapM read _ present
        exact each rid stored held

theorem Reads.call {good : Json → Prop} {db : Redis.Db String} (now : Int) (status : Status)
    (read : Reads (fun value => value = .obj [] ∨ good value) (RequestText.getReuqest number tid rid db)) :
    Reads (fun message => good message.payload) (call number now tid rid status db) := by
  unfold RequestText.call
  generalize RequestText.getReuqest number tid rid db = outcome at read ⊢
  cases read with
  | failed error => exact .failed error
  | @ok request held =>
    dsimp only
    split
    · exact .failed _
    · rename_i full
      split
      · exact .failed _
      · rcases held with rfl | carried
        · exact (full rfl).elim
        · exact .ok carried

/-- Where every request is posted by some client, with any message, no read of the texts throws a `SyntaxError`, and
all that reads give, or `call` sends, is nothing or a request with the very message that was posted. -/
theorem messages_kept {history : List (Redis.Db String × Call)} {db : Redis.Db String}
    (reads : Json.ReadsNumbers number) (run : Run env history db)
    (posted : ∀ request, .add request ∈ labels history → ∃ text, Posted number env request text) (tid : String) :
    (∀ rid, Reads (fun value => value = .obj [] ∨ Carries number env (labels history) tid rid value)
      (RequestText.getReuqest number tid rid db)) ∧
    (∀ size page, Reads (fun listed => ∀ value ∈ listed, value = .null ∨
      ∃ rid, Carries number env (labels history) tid rid value) (RequestText.getAllRequest number size tid page db)) ∧
    ∀ now rid status, Reads (fun message => Carries number env (labels history) tid rid message.payload)
      (call number now tid rid status db) := by
  obtain ⟨past, records, runs, same, rfl⟩ := run_texts run
  have readable : AllReadable number records := run_readable runs fun request added =>
    (posted request (same ▸ added)).elim fun text post => post.readable reads
  have recorded := run_recorded runs
  rw [same] at recorded
  have single (rid) : Reads (fun value => value = .obj [] ∨ Carries number env (labels history) tid rid value)
      (RequestText.getReuqest number tid rid (texts records)) :=
    Reads.getReuqest readable (.inl rfl) fun stored held => .inr (recorded.carries posted held)
  refine ⟨single, fun size page => ?_, fun now rid status => Reads.call now status (single rid)⟩
  exact Reads.getAllRequest readable size page (.inl rfl) fun rid stored held =>
    .inr ⟨rid, recorded.carries posted held⟩

theorem sampleNumber_toString (n : Int) : sampleNumber (toString n) = .num n := by
  rw [sampleNumber, show (toString n).toInt? = some n from Int.toInt?_repr n]

theorem sampleNumber_reads : Json.ReadsNumbers sampleNumber := by
  intro text accepted finite
  cases integral : text.toInt? with
  | some n =>
    rw [sampleNumber, integral]
    exact sampleNumber_toString n
  | none =>
    have same : sampleNumber text = .float text := by rw [sampleNumber, integral]
    rw [same] at finite ⊢
    exact ⟨finite, accepted, same⟩

def sampleBody : Json := .obj [("tid", .str "2"), ("msg", .arr [.num 7, .str "hi"])]

/-- The request user 1 posts with this body at time 0. -/
def samplePosted : Request :=
  FriendsService.addedRequest sampleEnv 0 "1" { tid := "2", msg := .arr [.num 7, .str "hi"] }

theorem samplePosted_posted :
    Posted sampleNumber sampleEnv samplePosted (String.ofList (Json.print sampleBody)) := by
  have readable : Json.Readable sampleNumber sampleBody :=
    ⟨rfl, trivial, ⟨sampleNumber_toString 7, trivial, trivial⟩, trivial⟩
  have finite : Json.Finite sampleBody := ⟨trivial, ⟨trivial, trivial, trivial⟩, trivial⟩
  have built : AddFriendDto.ofBody sampleBody = some { tid := "2", msg := .arr [.num 7, .str "hi"] } := rfl
  exact ⟨⟨0, "1", sampleBody, _, Json.parse_print readable, finite, built, rfl⟩, sampleNumber_toString _⟩

theorem messages_kept_sample : ∃ history db, Run sampleEnv history db ∧ labels history = [.add samplePosted] ∧
    Reads (fun value => value = .obj [] ∨
      Carries sampleNumber sampleEnv (labels history) "2" (ridOf sampleEnv samplePosted) value)
      (RequestText.getReuqest sampleNumber "2" (ridOf sampleEnv samplePosted) db) := by
  have run : Run sampleEnv [(fun _ => none, .add samplePosted)] _ := .snoc .nil rfl
  have kept := messages_kept sampleNumber_reads run (fun request added => by
    obtain rfl := Call.add.inj (List.mem_singleton.mp added)
    exact ⟨_, samplePosted_posted⟩) "2"
  exact ⟨_, _, run, rfl, kept.1 (ridOf sampleEnv samplePosted)⟩

end RequestText

end TacoBack
