import TacoBack.BlackList.Service
import TacoBack.Lib.Join
import TacoBack.Users.Reads

/-!
# The list of blocked users

`getBlockList` joins the users under one name and opens another, so it never lists anyone.
-/

namespace TacoBack.BlackListService

open Aggregate

/-- `_inBlackList` over the stored documents, for the tid of a user. A target equals a tid when both
denote the same number. -/
def inBlackListOf (db : Db) (source : String) (user : Document) : Bool :=
  (db "black-list").any fun doc => doc.lookup "source" == some (.str source) && doc.lookup "target" == user.lookup "tid"

/-- The profiles listed are those of the users in the black list, each once. -/
def ListsBlocked (env : ReadEnv) (db : Db) (source : String) : Prop :=
  ∃ listed, getBlockList env db (some (.str source)) = .ok listed ∧
    (listed.map (exclude ["_id"])).Perm (((db "users").filter (inBlackListOf db source)).map (select listedFields))

/-- A document of the collection, where `number` has what targets and tids denote. -/
def toDocument (number : String → Json) (doc : BlackList) : Document :=
  [("source", .str doc.source), ("target", number doc.target)]

variable {env : ReadEnv} {db : Db} {source : String}

theorem inBlackListOf_iff {number : String → Json} {blackList : List BlackList} {user : Document}
    (stored : db "black-list" = blackList.map (toDocument number)) : inBlackListOf db source user = true ↔
      ∃ target, user.lookup "tid" = some (number target) ∧ _inBlackList source target blackList = true := by
  have source_eq : ∀ doc, (toDocument number doc).lookup "source" = some (.str doc.source) := fun _ => rfl
  have target_eq : ∀ doc, (toDocument number doc).lookup "target" = some (number doc.target) := fun _ => rfl
  simp only [inBlackListOf, stored, List.any_map, List.any_eq_true, Function.comp_apply, source_eq, target_eq,
    Bool.and_eq_true, beq_iff_eq, Option.some.injEq, Json.str.injEq, _inBlackList, List.find?_isSome, isBlock_iff,
    Prod.mk.injEq]
  constructor
  · rintro ⟨doc, member, own, same⟩
    exact ⟨doc.target, same.symm, doc, member, own, rfl⟩
  · rintro ⟨target, same, doc, member, own, rfl⟩
    exact ⟨doc, member, own, same.symm⟩

theorem getBlockList_eq (texts : env.MatchesText) (schema : ∀ doc ∈ db "black-list", doc.lookup "result" = none) :
    getBlockList env db (some (.str source)) = .ok [] := by
  have own : (Stage.match "source" (some (.str source))).run env.matchFilter db (db "black-list") =
      .ok ((db "black-list").filter fun doc => doc.lookup "source" == some (.str source)) := by
    rw [Stage.run, texts]
  rw [getBlockList, blockListPipeline, aggregate_cons own]
  exact aggregate_unopened (by decide) fun doc member => schema doc (List.mem_of_mem_filter member)

theorem lists_blocked_iff (texts : env.MatchesText) (schema : ∀ doc ∈ db "black-list", doc.lookup "result" = none)
    (source : String) : ListsBlocked env db source ↔ ∀ user ∈ db "users", inBlackListOf db source user = false := by
  have none : (∀ user ∈ db "users", inBlackListOf db source user = false) ↔
      (db "users").filter (inBlackListOf db source) = [] := by
    simp [List.filter_eq_nil_iff]
  rw [none, ListsBlocked]
  constructor
  · rintro ⟨listed, read, same⟩
    obtain rfl := Except.ok.inj ((getBlockList_eq texts schema).symm.trans read)
    exact List.map_eq_nil_iff.mp same.symm.eq_nil
  · intro empty
    refine ⟨[], getBlockList_eq texts schema, ?_⟩
    rw [empty]
    exact .nil

/-- User 1 has blocked user 2. -/
def blockedDb : Db
  | "users" => [
      [("_id", .str "u1"), ("tid", .num 1), ("nick", .str "one")],
      [("_id", .str "u2"), ("tid", .num 2), ("nick", .str "two")]]
  | "black-list" => [[("_id", .str "b1"), ("source", .str "1"), ("target", .num 2)]]
  | _ => []

theorem lists_blocked_sample : ListsBlocked sampleReadEnv blockedDb "2" :=
  (lists_blocked_iff (fun _ => rfl) (by decide) "2").mpr (by decide)

theorem blocked_unlisted : getBlockList sampleReadEnv blockedDb (some (.str "1")) = .ok [] ∧
    (blockedDb "users").map (inBlackListOf blockedDb "1") = [false, true] ∧
    ¬ ListsBlocked sampleReadEnv blockedDb "1" := by
  refine ⟨rfl, by decide, ?_⟩
  rintro ⟨listed, read, same⟩
  obtain rfl : [] = listed := Except.ok.inj read
  exact absurd same.length_eq (by decide)

end TacoBack.BlackListService
