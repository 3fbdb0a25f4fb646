import TacoBack.Lib.Mongo
import TacoBack.Request.Service
import TacoBack.Schemas

/-!
# FriendsService

The functions between the awaited store commands, as the source computes them.
-/

namespace TacoBack

structure AddFriendDto where
  tid : String
  msg : Json

structure ChangeFriendTag where
  tid : String
  tag : String

namespace FriendsService

def isEdge (source target : String) (friend : Friend) : Bool :=
  friend.source == source && friend.target == target

def hasFriend (friends : List Friend) (source target : String) : Bool :=
  (friends.find? (isEdge source target)).isSome

/-- The request `add` builds: `expire` is absolute, and `rid` is assigned last. -/
def addedRequest (env : Env) (now : Int) (source : String) (dto : AddFriendDto) : Request :=
  let request := createRequest now .ADD source .FRIEND env.requestExpire dto.tid
    (some (.obj [("msg", dto.msg)])) true
  { request with rid := some (createRid env request) }

/-- A message for `RequestService.addRequest`, on the route config.toml gives it. -/
def addRequestMessage (request : Request) : Message where
  exchange := "system.call"
  routingKey := "request.add"
  payload := .request request

def acceptMessage (request : Request) : Message where
  exchange := "system.call"
  routingKey := "friend.add.accept"
  payload := .request request

def removeArgs (dto : Request) : List (String × Json) :=
  ("tid", .str dto.recive) :: (dto.rid.map fun rid => ("rid", Json.str rid)).toList

def removeRequestMessage (dto : Request) : Message where
  exchange := "system.call"
  routingKey := "request.remove"
  payload := .args (removeArgs dto)

def edges (dto : Request) : List Friend :=
  [{ source := dto.sender, target := dto.recive, tag := none },
   { source := dto.recive, target := dto.sender, tag := none }]

def setTag (source : String) (dto : ChangeFriendTag) (friends : List Friend) : List Friend :=
  Mongo.updateOne (isEdge source dto.tid) (fun friend => { friend with tag := some dto.tag }) friends

/-- `remove` looks the target up in `Users` and goes on with the `_id` of the document. -/
def removedId (driver : Mongo.Driver) (users : List Users) (target : String) : Except Failure String :=
  match driver.mixedFilter (.str target) with
  | none => .error .castError
  | some p =>
    match users.find? fun user => p user.tid with
    | none => .error .typeError
    | some user => .ok user._id

def deleteEdge (source id : String) (friends : List Friend) : List Friend :=
  Mongo.deleteOne (isEdge source id) friends

/-! ### Messages -/

@[simp] theorem handlerOf_addRequestMessage (request : Request) :
    handlerOf (addRequestMessage request) = some .addRequest := by
  simp [handlerOf, addRequestMessage]

@[simp] theorem handlerOf_acceptMessage (request : Request) : handlerOf (acceptMessage request) = some .accept := by
  simp [handlerOf, acceptMessage]

@[simp] theorem handlerOf_removeRequestMessage (dto : Request) :
    handlerOf (removeRequestMessage dto) = some .removeRequest := by
  simp [handlerOf, removeRequestMessage]

/-! ### Edges -/

def edgeCount (friends : List Friend) (source target : String) : Nat :=
  friends.countP (isEdge source target)

@[simp] theorem isEdge_iff {source target : String} {friend : Friend} :
    isEdge source target friend = true ↔ friend.source = source ∧ friend.target = target := by
  simp [isEdge]

theorem hasFriend_iff {friends : List Friend} {source target : String} :
    hasFriend friends source target = true ↔ 0 < edgeCount friends source target := by
  simp [hasFriend, edgeCount, List.countP_pos_iff]

@[simp] theorem edgeCount_nil (source target : String) : edgeCount [] source target = 0 := rfl

@[simp] theorem edgeCount_append (xs ys : List Friend) (source target : String) :
    edgeCount (xs ++ ys) source target = edgeCount xs source target + edgeCount ys source target :=
  List.countP_append

theorem edgeCount_eq_map (friends : List Friend) (source target : String) :
    edgeCount friends source target =
      (friends.map fun friend => (friend.source, friend.target)).countP (· == (source, target)) := by
  rw [List.countP_map]
  exact List.countP_congr fun friend _ => by simp

theorem edgeCount_setTag (owner : String) (dto : ChangeFriendTag) (friends : List Friend) (source target : String) :
    edgeCount (setTag owner dto friends) source target = edgeCount friends source target := by
  have kept : (setTag owner dto friends).map (fun friend => (friend.source, friend.target)) =
      friends.map fun friend => (friend.source, friend.target) := Mongo.updateOne_map (by intro _; rfl) friends
  rw [edgeCount_eq_map, kept, ← edgeCount_eq_map]

theorem edgeCount_deleteEdge_le (owner id : String) (friends : List Friend) (source target : String) :
    edgeCount (deleteEdge owner id friends) source target ≤ edgeCount friends source target :=
  List.eraseP_sublist.countP_le

theorem removedId_mem {driver : Mongo.Driver} {users : List Users} {target id : String}
    (found : removedId driver users target = .ok id) : ∃ user ∈ users, user._id = id := by
  unfold removedId at found
  split at found
  · cases found
  · split at found
    · cases found
    · rename_i user hit
      exact ⟨user, List.mem_of_find?_eq_some hit, Except.ok.inj found⟩

end FriendsService

end TacoBack
