import TacoBack.BlackList.Cache
import TacoBack.Lib.Transition

/-!
# block and unblock

Both branch on `inBlackList`, which is always true.
-/

namespace TacoBack

namespace FriendsService

open BlackListCacheService

variable {α : Type}

def block (ns source target : String) (db : Redis.Db α) : Redis.Db α × Except Failure Bool :=
  if inBlackList ns source target db then (db, .error (.service .IN_BLACK_LIST .INTERNAL_SERVER_ERROR))
  else
    match addBlackList ns source target db with
    | .ok added => (added, .ok true)
    | .error e => (db, .error (.redis e))

def unblock (ns source target : String) (db : Redis.Db α) : Redis.Db α × Except Failure Bool :=
  if inBlackList ns source target db then
    match removeTarget ns source target db with
    | .ok removed => (removed, .ok true)
    | .error e => (db, .error (.redis e))
  else (db, .error (.service .NOT_IN_BLACK_LIST .INTERNAL_SERVER_ERROR))

end FriendsService

namespace BlockSystem

open FriendsService BlackListCacheService Transition

inductive Call where
  | block (source target : String)
  | unblock (source target : String)

def perform (ns : String) (db : Redis.Db Unit) : Call → Redis.Db Unit × Except Failure Bool
  | .block source target => block ns source target db
  | .unblock source target => unblock ns source target db

structure Event where
  call : Call
  result : Except Failure Bool

def Step (ns : String) (db : Redis.Db Unit) (event : Event) (after : Redis.Db Unit) : Prop :=
  (after, event.result) = perform ns db event.call

abbrev History := List (Redis.Db Unit × Event)

abbrev Run (ns : String) : History → Redis.Db Unit → Prop := Transition.Run (Step ns) fun _ => none

/-! ### What the calls are meant to do -/

/-- What a call makes of the pair: a failed call, or one on another pair, changes nothing. -/
def Event.mark (source target : String) (now : Bool) (event : Event) : Bool :=
  match event.call with
  | .block s t => if s = source ∧ t = target ∧ event.result.isOk then true else now
  | .unblock s t => if s = source ∧ t = target ∧ event.result.isOk then false else now

/-- Whether the last successful call on the pair was a `block`. -/
def blocked (past : List Event) (source target : String) : Bool :=
  past.foldl (Event.mark source target) false

/-- A `block` succeeds just on pairs that are not blocked, an `unblock` just on those that are. -/
def Follows (past : List Event) (event : Event) : Prop :=
  match event.call with
  | .block source target => event.result.isOk = !blocked past source target
  | .unblock source target => event.result.isOk = blocked past source target

/-- The calls of a run, and the membership test after it, behave as those of a set. -/
structure Implements (ns : String) (h : History) (db : Redis.Db Unit) : Prop where
  follows : ∀ before x after, h = before ++ x :: after → Follows (labels before) x.2
  unchanged : ∀ x after, (x, after) ∈ h.zip (h.tail.map Prod.fst ++ [db]) → x.2.result.isOk = false → after = x.1
  members : ∀ source target, inBlackList ns source target db = blocked (labels h) source target

variable {ns : String} {h : History} {db after : Redis.Db Unit} {event : Event}

theorem blocked_snoc {past : List Event} {source target : String} :
    blocked (past ++ [event]) source target = event.mark source target (blocked past source target) :=
  List.foldl_append

/-- Nothing is ever stored, every `block` throws and every `unblock` returns `true`. -/
theorem Step.outcome (taken : Step ns (fun _ => none) event after) :
    after = (fun _ => none) ∧
      match event.call with
      | .block _ _ => event.result = .error (.service .IN_BLACK_LIST .INTERNAL_SERVER_ERROR)
      | .unblock _ _ => event.result = .ok true := by
  obtain ⟨call, result⟩ := event
  cases call with
  | block source target =>
    obtain ⟨same, failed⟩ := Prod.mk.inj taken
    exact ⟨same, failed⟩
  | unblock source target =>
    obtain ⟨same, done⟩ := Prod.mk.inj taken
    refine ⟨?_, done⟩
    rw [same]
    exact Function.update_eq_self _ _

theorem run_outcome (run : Run ns h db) : db = (fun _ => none) ∧
    (∀ source target, blocked (labels h) source target = false) ∧
    ∀ x ∈ h, x.1 = fun _ => none := by
  induction run with
  | nil => exact ⟨rfl, fun _ _ => rfl, by simp⟩
  | @snoc past state next event before taken ih =>
    obtain ⟨rfl, idle, empty⟩ := ih
    obtain ⟨rfl, outcome⟩ := taken.outcome
    refine ⟨rfl, fun source target => ?_, ?_⟩
    · rw [labels_append, labels_cons, labels_nil, blocked_snoc, idle]
      obtain ⟨call, result⟩ := event
      cases call with
      | block s t =>
        obtain rfl : result = _ := outcome
        simp [Event.mark, Except.isOk, Except.toBool]
      | unblock s t => simp [Event.mark]
    · rw [List.forall_mem_append, List.forall_mem_singleton]
      exact ⟨empty, rfl⟩

/-- Every call of every run goes against the set it should keep, and so does the membership test of
every pair in every state. -/
theorem never_implements (run : Run ns h db) :
    (∀ before x after, h = before ++ x :: after → ¬ Follows (labels before) x.2) ∧
    (∀ source target, inBlackList ns source target db ≠ blocked (labels h) source target) ∧
    ¬ Implements ns h db := by
  have idle := (run_outcome run).2.1
  have members : ∀ source target, inBlackList ns source target db ≠ blocked (labels h) source target := by
    intro source target
    rw [inBlackList_eq_true, idle]
    decide
  refine ⟨fun before x after whole => ?_, members, fun set => members "1" "2" (set.members "1" "2")⟩
  subst whole
  obtain ⟨first, next, taken, _⟩ := Run.split (x := x.1) (l := x.2) run
  obtain ⟨empty, idleBefore, _⟩ := run_outcome first
  rw [empty] at taken
  obtain ⟨_, outcome⟩ := taken.outcome
  obtain ⟨state, call, result⟩ := x
  cases call with
  | block source target =>
    obtain rfl : result = _ := outcome
    simp [Follows, idleBefore, Except.isOk, Except.toBool]
  | unblock source target =>
    obtain rfl : result = _ := outcome
    simp [Follows, idleBefore, Except.isOk, Except.toBool]

/-- User 1 blocks user 2 before anyone has blocked anyone. -/
def firstBlock : Event := ⟨.block "1" "2", .error (.service .IN_BLACK_LIST .INTERNAL_SERVER_ERROR)⟩

theorem firstBlock_run : Run BLACK_LIST_CACHE [(fun _ => none, firstBlock)] fun _ => none :=
  .snoc .nil rfl

theorem never_implements_sample : ¬ Follows [] firstBlock ∧
    ¬ Implements BLACK_LIST_CACHE [(fun _ => none, firstBlock)] fun _ => none := by
  obtain ⟨follows, _, set⟩ := never_implements firstBlock_run
  exact ⟨follows [] _ [] rfl, set⟩

/-- The first `block` of a pair that nobody blocked throws, and the pair counts as blocked. -/
theorem first_block_throws : ∃ h db, Run BLACK_LIST_CACHE h db ∧ labels h = [firstBlock] ∧
    inBlackList BLACK_LIST_CACHE "1" "2" db = true ∧ blocked (labels h) "1" "2" = false ∧
    ¬ Implements BLACK_LIST_CACHE h db := by
  refine ⟨_, _, firstBlock_run, rfl, rfl, rfl, ?_⟩
  intro set
  have succeeds := set.follows [] _ [] rfl
  cases succeeds

end BlockSystem

end TacoBack
