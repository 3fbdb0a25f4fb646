import TacoBack.Friends.Edges
import TacoBack.Friends.Frame

/-!
# Removed friends

An edge ends in the tid of a friend, and `remove` deletes one that ends in the `_id` of his document.
-/

namespace TacoBack

namespace FriendsService

/-- `published` is what the channel makes of the notice. -/
def remove (driver : Mongo.Driver) (published : Except Failure Unit) (source target : String) (friends : List Friend)
    (users : List Users) : Except Failure Bool × List Friend :=
  if hasFriend friends source target then
    match removedId driver users target with
    | .error e => (.error e, friends)
    | .ok id => (published.map fun _ => true, deleteEdge source id friends)
  else (.error (.service .NOT_HAS_FRIEND .BAD_REQUEST), friends)

def updateTag (source : String) (dto : ChangeFriendTag) (friends : List Friend) : Except Failure Bool × List Friend :=
  if hasFriend friends source dto.tid then (.ok true, setTag source dto friends)
  else (.error (.service .NOT_HAS_FRIEND .BAD_REQUEST), friends)

structure Gone (source target : String) (friends after : List Friend) : Prop where
  has : hasFriend after source target = false
  tag : ∀ tag, updateTag source ⟨target, tag⟩ after = (.error (.service .NOT_HAS_FRIEND .BAD_REQUEST), after)
  others : (after.filter fun friend => !isEdge source target friend) = friends.filter fun friend => !isEdge source target friend

def Removes (driver : Mongo.Driver) (source target : String) (friends : List Friend) (users : List Users) : Prop :=
  ∀ published after, remove driver published source target friends users = (.ok true, after) →
    Gone source target friends after

def NamedById (driver : Mongo.Driver) (source target : String) (friends : List Friend) (users : List Users) : Prop :=
  hasFriend friends source target = true → ∀ id, removedId driver users target = .ok id → id = target

variable {driver : Mongo.Driver} {source target id : String} {friends after : List Friend} {users : List Users}

theorem remove_ok {published : Except Failure Unit} :
    remove driver published source target friends users = (.ok true, after) ↔
      hasFriend friends source target = true ∧ published = .ok () ∧
        ∃ id, removedId driver users target = .ok id ∧ after = deleteEdge source id friends := by
  unfold remove
  cases hasFriend friends source target with
  | false => simp
  | true =>
    cases removedId driver users target with
    | error e => simp
    | ok id => cases published <;> simp [Except.map, eq_comm]

theorem edgeCount_deleteEdge_self (source target : String) (friends : List Friend) :
    edgeCount (deleteEdge source target friends) source target = edgeCount friends source target - 1 :=
  Mongo.countP_deleteOne _ _

theorem edgeCount_deleteEdge_of_ne (different : id ≠ target) (friends : List Friend) :
    edgeCount (deleteEdge source id friends) source target = edgeCount friends source target := by
  have apart : ∀ friend, isEdge source id friend = true → isEdge source target friend = false := by
    intro friend hit
    rw [← Bool.not_eq_true, isEdge_iff]
    exact fun same => different ((isEdge_iff.mp hit).2.symm.trans same.2)
  exact Mongo.countP_deleteOne_of_disjoint apart friends

theorem hasFriend_eq_false : hasFriend friends source target = false ↔ edgeCount friends source target = 0 := by
  rw [← Bool.not_eq_true, hasFriend_iff]
  omega

theorem removes_iff (driver : Mongo.Driver) (users : List Users) (single : edgeCount friends source target ≤ 1) :
    Removes driver source target friends users ↔ NamedById driver source target friends users := by
  constructor
  · intro removes has id found
    by_contra different
    have gone := removes (.ok ()) _ (remove_ok.mpr ⟨has, rfl, id, found, rfl⟩)
    have stays := @edgeCount_deleteEdge_of_ne source _ _ different friends
    rw [hasFriend_iff] at has
    have none := hasFriend_eq_false.mp gone.has
    omega
  · intro named published after done
    obtain ⟨has, -, id, found, rfl⟩ := remove_ok.mp done
    obtain rfl := named has id found
    have gone : hasFriend (deleteEdge source id friends) source id = false := by
      rw [hasFriend_eq_false, edgeCount_deleteEdge_self]
      omega
    refine ⟨gone, fun tag => by rw [updateTag, gone, if_neg Bool.false_ne_true], ?_⟩
    exact Mongo.filter_deleteOne (fun friend hit => by rw [hit]; rfl) friends

end FriendsService

/-! ### The same calls elsewhere -/

namespace FriendCalls

/-- Given a string, and commands that do not fail, the route does what `remove` does. -/
theorem remove_str {env : CallEnv} (lawful : env.driver.Lawful) (nid source target : String) (s : State) :
    let done := FriendsService.remove env.driver (.ok ()) source target s.friends s.users
    (remove env (fun _ => none) nid source (some (.str target)) s).1 = done.1 ∧
      (remove env (fun _ => none) nid source (some (.str target)) s).2.friends = done.2 := by
  dsimp only [remove, FriendsService.remove, attempt]
  rw [hasFriend_str lawful, removedId_str]
  cases FriendsService.hasFriend s.friends source target with
  | false => exact ⟨rfl, rfl⟩
  | true => cases FriendsService.removedId env.driver s.users target <;> exact ⟨rfl, rfl⟩

end FriendCalls

namespace FriendSystem

open FriendsService RequestService Transition

/-- Whatever else is under way, the system can run a `remove` to its end, as the function does. -/
theorem remove_run {env : Env} {driver : Mongo.Driver} (published : Except Failure Unit) (source target : String)
    (s : State) : ∃ history, Transition.Run (Step env driver) s history { s with store := { s.store with
      friends := (remove driver published source target s.store.friends s.store.users).2 } } := by
  obtain ⟨store, tasks⟩ := s
  have start : Transition.Run (Step env driver) ⟨store, tasks⟩ [] ⟨store, tasks⟩ := .nil
  by_cases has : hasFriend store.friends source target = true
  · have called := start.snoc (.remove has)
    simp only [remove, has]
    cases found : removedId driver store.users target with
    | error e =>
      have lost := called.snoc (.last rfl (.fail (List.mem_singleton.mpr rfl)))
      exact ⟨_, by simpa [found] using lost⟩
    | ok id =>
      have deleted := (called.snoc (.last rfl (.findUser found))).snoc (.last rfl .delete)
      exact ⟨_, by simpa [found] using deleted⟩
  · exact ⟨[], by simpa [remove, has] using start⟩

/-- In no run does a `remove` delete an edge, as long as no `_id` is the tid of a caller. -/
theorem remove_keeps {env : Env} {driver : Mongo.Driver} {now : Int} {history : History} {s : State}
    (run : Run env driver now history s)
    (apart : ∀ id tid, Identifies (labels history) id → Calls (labels history) tid → id ≠ tid)
    (published : Except Failure Unit) (source target : String) :
    (remove driver published source target s.store.friends s.store.users).2 = s.store.friends := by
  have paired := run_paired run apart
  unfold remove
  split
  · split
    · rfl
    rename_i id found
    obtain ⟨user, stored, rfl⟩ := removedId_mem found
    refine List.eraseP_of_forall_not fun friend member hit => ?_
    have target := paired.targets _ (List.mem_map_of_mem member)
    exact apart _ _ (paired.users user stored) target (isEdge_iff.mp hit).2.symm
  · rfl

/-- config.toml with a route for notices. -/
def routedConfig : Json :=
  match shippedConfig with
  | .obj sections => .obj (sections ++ [("notice", .obj [("setNotice", .obj [
      ("routingKey", .str "system.call.notice.setNotice")])])])
  | config => config

def routedNotice : RemovalSystem.Published := RemovalSystem.removeMessage routedConfig "660a3b1e9c1f4e0012ab34ce" "1"

/-- User 2 has accepted user 1. Both registered with a text for a tid. -/
theorem befriended : ∃ history s, Run sampleEnv .standard 0 history s ∧ Unique s ∧
    s.store.friends = edges (addedRequest sampleEnv 0 "1" sampleAdd) ∧
    removedId .standard s.store.users "2" = .ok "660a3b1e9c1f4e0012ab34cd" := by
  obtain ⟨history, s, run, -, -, friends, -, -⟩ := befriend sampleEnv .standard 0 "1" sampleAdd (by decide) (by decide)
  have stored := run.snoc (@Step.users _ _ _ [{ sampleUser with _id := "660a3b1e9c1f4e0012ab34cc", tid := some (.str "1") },
    sampleUser])
  refine ⟨_, _, stored, fun source target => ?_, friends, ?_⟩
  · dsimp only
    rw [friends, edgeCount_edges]
    have apart : ¬ ((addedRequest sampleEnv 0 "1" sampleAdd).sender = source ∧
        (addedRequest sampleEnv 0 "1" sampleAdd).recive = source) := by
      rintro ⟨same, same'⟩
      exact absurd (same.trans same'.symm) (by decide)
    split_ifs with first second
    · exact (apart ⟨first.1, second.1⟩).elim
    all_goals omega
  · rfl

theorem removes_iff_sample : ∃ history s, Run sampleEnv .standard 0 history s ∧
    (Removes .standard "1" "2" s.store.friends s.store.users ↔
      NamedById .standard "1" "2" s.store.friends s.store.users) := by
  obtain ⟨history, s, run, unique, -, -⟩ := befriended
  exact ⟨history, s, run, removes_iff .standard s.store.users (unique "1" "2")⟩

/-- User 1 removes user 2, on a channel that takes the notice, is told that he has, and still has him. -/
theorem removed_friend_stays : ∃ history s, Run sampleEnv .standard 0 history s ∧ Unique s ∧
    RemovalSystem.sampleRpc.accepts routedNotice.exchange routedNotice.routingKey = true ∧
    remove .standard (.ok ()) "1" "2" s.store.friends s.store.users = (.ok true, s.store.friends) ∧
    hasFriend s.store.friends "1" "2" = true ∧ ¬ Removes .standard "1" "2" s.store.friends s.store.users := by
  obtain ⟨history, s, run, unique, friends, found⟩ := befriended
  have has : hasFriend s.store.friends "1" "2" = true := by
    rw [friends]
    decide
  have done : remove .standard (.ok ()) "1" "2" s.store.friends s.store.users = (.ok true, s.store.friends) := by
    rw [remove, has, if_pos rfl, found, friends]
    rfl
  refine ⟨history, s, run, unique, rfl, done, has, fun removes => ?_⟩
  have gone := (removes (.ok ()) _ done).has
  rw [has] at gone
  cases gone

end FriendSystem

end TacoBack
