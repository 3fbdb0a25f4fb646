import TacoBack.Lib.Join
import TacoBack.Lib.Traverse
import TacoBack.Users.Reads

/-!
# Pages of friends

`get` limits before it skips and matches, so it pages through the edges of all users.
-/

namespace TacoBack.FriendsService

open Aggregate Traverse

def isSource (tid : String) (edge : Document) : Bool := edge.lookup "source" == some (.str tid)

/-- The user whose tid is the target of the edge. -/
def friendOf (db : Db) (edge : Document) : Document :=
  ((db "users").find? fun user => user.lookup "tid" == edge.lookup "target").getD []

/-- The `_id` and the tag of the edge, and the profile of the friend. -/
def entryOf (db : Db) (edge : Document) : Document :=
  (edge.filter fun entry => ["_id", "tag"].contains entry.1) ++ select listedFields (friendOf db edge)

/-- The tids of users are distinct numbers, and every edge leads to one of them. -/
structure Registered (db : Db) : Prop where
  users : Keyed (db "users") "tid"
  targets : ∀ edge ∈ db "friend", ∃ n, edge.lookup "target" = some (.num n) ∧
    ∃ user ∈ db "users", user.lookup "tid" = some (.num n)

/-- Each page has at most `size` entries, and `ceil(m/size)` of them have one entry for each of the `m`
edges of the user. -/
def Partitions (env : ReadEnv) (db : Db) (tid : String) (size : Nat) : Prop :=
  let edges := (db "friend").filter (isSource tid)
  (∀ page : Int, 1 ≤ page → ∃ entries, get env db (some (.str tid)) (some (.num page)) = .ok entries ∧
    entries.length ≤ size) ∧
  ∃ pages, ((List.range ((edges.length + size - 1) / size)).mapM fun i : Nat =>
    get env db (some (.str tid)) (some (.num (i + 1)))) = .ok pages ∧ pages.flatten.Perm (edges.map (entryOf db))

variable {env : ReadEnv} {db : Db} {tid : String} {size : Nat}

theorem Registered.friendOf {edge : Document} (registered : Registered db) (member : edge ∈ db "friend") :
    ∃ n, edge.lookup "target" = some (.num n) ∧ friendOf db edge ∈ db "users" ∧
      (FriendsService.friendOf db edge).lookup "tid" = some (.num n) := by
  obtain ⟨n, target, user, listed, number⟩ := registered.targets edge member
  cases found : (db "users").find? fun user => user.lookup "tid" == edge.lookup "target" with
  | none =>
    have missed := List.find?_eq_none.mp found user listed
    rw [number, target] at missed
    exact (missed (beq_self_eq_true _)).elim
  | some friend =>
    have hit := List.find?_some found
    rw [target, beq_iff_eq] at hit
    refine ⟨n, target, ?_⟩
    rw [FriendsService.friendOf, found]
    exact ⟨List.mem_of_find?_eq_some found, hit⟩

/-- What a page has of the edges. -/
def pageEdges (db : Db) (tid : String) (size : Nat) (page : Int) : List Document :=
  (((db "friend").take size).drop ((page - 1) * size).toNat).filter (isSource tid)

theorem get_eq (texts : env.MatchesText) (sized : FriendsService.size env = .num size) (positive : 1 ≤ size)
    (registered : Registered db) {page : Int} (later : 1 ≤ page) :
    get env db (some (.str tid)) (some (.num page)) = .ok ((pageEdges db tid size page).map (entryOf db)) := by
  have skipped : start env (some (.num page)) = .num ((page - 1) * size) := by
    rw [start, sized]
    rfl
  have limited : (Stage.limit (.num size)).run env.matchFilter db (db "friend") = .ok ((db "friend").take size) := by
    rw [Stage.run, if_pos (by omega)]
    rfl
  have rest : ∀ docs, (Stage.skip (.num ((page - 1) * size))).run env.matchFilter db docs =
      .ok (docs.drop ((page - 1) * size).toNat) := by
    intro docs
    have forward : 0 ≤ (page - 1) * size := Int.mul_nonneg (by omega) (by omega)
    rw [Stage.run, if_pos forward]
  have own : ∀ docs, (Stage.match "source" (some (.str tid))).run env.matchFilter db docs =
      .ok (docs.filter (isSource tid)) := by
    intro docs
    rw [Stage.run, texts]
    rfl
  rw [get, getPipeline, sized, skipped, aggregate_cons limited, aggregate_cons (rest _), aggregate_cons (own _)]
  refine aggregate_join listedFields registered.users rfl fun edge member => ?_
  have stored := List.mem_of_mem_take (List.mem_of_mem_drop (List.mem_of_mem_filter member))
  exact registered.friendOf stored

theorem pageEdges_succ (i : Nat) :
    pageEdges db tid size (i + 1) = if i = 0 then ((db "friend").take size).filter (isSource tid) else [] := by
  rw [pageEdges, Int.add_sub_cancel]
  split
  · rename_i first
    subst first
    simp
  · rename_i later
    have beyond : size ≤ ((i : Int) * size).toNat := by
      have least : 1 * size ≤ i * size := Nat.mul_le_mul_right size (Nat.one_le_iff_ne_zero.mpr later)
      rw [← Int.natCast_mul, Int.toNat_natCast]
      omega
    rw [List.drop_eq_nil_of_le (by rw [List.length_take]; omega)]
    rfl

theorem length_pageEdges_le (page : Int) : (pageEdges db tid size page).length ≤ size := by
  refine (List.length_filter_le _ _).trans ?_
  rw [List.length_drop, List.length_take]
  omega

theorem flatten_pages (count : Nat) :
    ((List.range (count + 1)).map fun i : Nat => (pageEdges db tid size (i + 1)).map (entryOf db)).flatten =
      (((db "friend").take size).filter (isSource tid)).map (entryOf db) := by
  rw [List.range_succ_eq_map, List.map_cons, List.flatten_cons, List.map_map]
  have nothing : ((List.range count).map ((fun i : Nat => (pageEdges db tid size (i + 1)).map (entryOf db)) ∘ Nat.succ)).flatten =
      [] := by
    rw [List.flatten_eq_nil_iff]
    intro page listed
    obtain ⟨i, -, rfl⟩ := List.mem_map.mp listed
    rw [Function.comp_apply, pageEdges_succ, if_neg (Nat.succ_ne_zero i)]
    rfl
  rw [nothing, List.append_nil, pageEdges_succ, if_pos rfl]

theorem flatten_enough (positive : 1 ≤ size) (rest : List Document) :
    let own := ((db "friend").take size).filter (isSource tid)
    ((List.range (((own ++ rest).length + size - 1) / size)).map
      fun i : Nat => (pageEdges db tid size (i + 1)).map (entryOf db)).flatten = own.map (entryOf db) := by
  intro own
  cases count : ((own ++ rest).length + size - 1) / size with
  | zero =>
    have few := (Nat.div_eq_zero_iff_lt (by omega)).mp count
    rw [List.length_append] at few
    have none : own = [] := List.eq_nil_of_length_eq_zero (by omega)
    rw [none]
    rfl
  | succ count' => exact flatten_pages count'

/-- The pages partition the friends of a user exactly if none of his edges lies behind the first `size`
edges of all users. -/
theorem partitions_iff (texts : env.MatchesText) (sized : FriendsService.size env = .num size)
    (positive : 1 ≤ size) (registered : Registered db) :
    Partitions env db tid size ↔ ∀ edge ∈ (db "friend").drop size, edge.lookup "source" ≠ some (.str tid) := by
  have pages : ∀ page : Int, 1 ≤ page → get env db (some (.str tid)) (some (.num page)) =
      .ok ((pageEdges db tid size page).map (entryOf db)) := by
    intro page later
    exact get_eq texts sized positive registered later
  have short : ∀ page : Int, 1 ≤ page → ∃ entries, get env db (some (.str tid)) (some (.num page)) = .ok entries ∧
      entries.length ≤ size := by
    intro page later
    refine ⟨_, pages page later, ?_⟩
    rw [List.length_map]
    exact length_pageEdges_le page
  have listed := fun count => mapM_eq_map (List.range count) fun (i : Nat) _ => pages (i + 1) (by omega)
  have split : (db "friend").filter (isSource tid) =
      ((db "friend").take size).filter (isSource tid) ++ ((db "friend").drop size).filter (isSource tid) := by
    rw [← List.filter_append, List.take_append_drop]
  have behind : (∀ edge ∈ (db "friend").drop size, edge.lookup "source" ≠ some (.str tid)) ↔
      ((db "friend").drop size).filter (isSource tid) = [] := by
    rw [List.filter_eq_nil_iff]
    simp only [isSource, beq_iff_eq, ne_eq]
  rw [behind, Partitions, split]
  generalize ((db "friend").drop size).filter (isSource tid) = rest
  have all := @flatten_enough db tid size positive rest
  constructor
  · rintro ⟨-, _, read, whole⟩
    obtain rfl := Except.ok.inj ((listed _).symm.trans read)
    have lengths := whole.length_eq
    rw [all, List.length_map, List.length_map, List.length_append] at lengths
    exact List.eq_nil_of_length_eq_zero (by omega)
  · rintro rfl
    refine ⟨short, _, listed _, ?_⟩
    rw [all, List.append_nil]

def singleEnv : ReadEnv := { sampleReadEnv with
  config := .obj [("system", .obj [("friends", .obj [("size", .num 1)])])] }

/-- User 2 made a friend before user 1 did. -/
def pageDb : Db
  | "users" => [
      [("_id", .str "u1"), ("tid", .num 1), ("nick", .str "one")],
      [("_id", .str "u2"), ("tid", .num 2), ("nick", .str "two")],
      [("_id", .str "u3"), ("tid", .num 3), ("nick", .str "three")]]
  | "friend" => [
      [("_id", .str "f1"), ("source", .str "2"), ("target", .num 3)],
      [("_id", .str "f2"), ("source", .str "1"), ("target", .num 2)]]
  | _ => []

theorem pageDb_registered : Registered pageDb where
  users := ⟨by simp [pageDb, List.lookup_cons], by simp [pageDb, List.lookup_cons]⟩
  targets := by simp [pageDb, List.lookup_cons]

theorem partitions_sample : Partitions sampleReadEnv pageDb "1" 10 ↔
    ∀ edge ∈ (pageDb "friend").drop 10, edge.lookup "source" ≠ some (.str "1") :=
  partitions_iff (fun _ => rfl) rfl (by decide) pageDb_registered

/-- On pages of one, the only friend of user 1 is on no page. -/
theorem friend_unpaged : get singleEnv pageDb (some (.str "1")) (some (.num 1)) = .ok [] ∧
    ((pageDb "friend").filter (isSource "1")).length = 1 ∧ ¬ Partitions singleEnv pageDb "1" 1 := by
  refine ⟨rfl, rfl, fun partitions => ?_⟩
  obtain ⟨-, pages, read, whole⟩ := partitions
  obtain rfl : [[]] = pages := Except.ok.inj read
  exact absurd whole.length_eq (by decide)

end TacoBack.FriendsService
