import TacoBack.Lib.Mongo
import TacoBack.Lib.Transition
import TacoBack.Schemas

/-!
# BlackListService

`block` inserts a document, however many there are of the pair; `unblock` deletes one of them.
-/

namespace TacoBack

namespace BlackListService

def isBlock (source target : String) (doc : BlackList) : Bool := doc.source == source && doc.target == target

def block (source target : String) (blackList : List BlackList) : List BlackList :=
  blackList ++ [{ source := source, target := target }]

def unblock (source target : String) (blackList : List BlackList) : List BlackList :=
  Mongo.deleteOne (isBlock source target) blackList

def _inBlackList (source target : String) (blackList : List BlackList) : Bool :=
  (blackList.find? (isBlock source target)).isSome

theorem isBlock_iff {source target : String} {doc : BlackList} :
    isBlock source target doc = true ↔ (doc.source, doc.target) = (source, target) := by
  simp [isBlock]

theorem inBlackList_iff {source target : String} {blackList : List BlackList} :
    _inBlackList source target blackList = true ↔ 0 < blackList.countP (isBlock source target) := by
  simp [_inBlackList, List.countP_pos_iff]

end BlackListService

namespace BlackListSystem

open BlackListService Transition

inductive Call where
  | block (source target : String)
  | unblock (source target : String)
  deriving DecidableEq

def Call.pair : Call → String × String
  | .block source target | .unblock source target => (source, target)

def perform (blackList : List BlackList) : Call → List BlackList
  | .block source target => block source target blackList
  | .unblock source target => unblock source target blackList

def Step (blackList : List BlackList) (call : Call) (after : List BlackList) : Prop := after = perform blackList call

abbrev Run : List (List BlackList × Call) → List BlackList → Prop := Transition.Run Step []

/-- The last call on a pair. -/
def lastOn (calls : List Call) (source target : String) : Option Call :=
  calls.reverse.find? fun call => call.pair == (source, target)

/-- `_inBlackList` tells of each pair whether the last call on it was a `block`. -/
def TellsLast (calls : List Call) (blackList : List BlackList) : Prop :=
  ∀ source target, _inBlackList source target blackList = true ↔ lastOn calls source target = some (.block source target)

/-- An `unblock` of a pair that has one document at most. -/
def Single (blackList : List BlackList) : Call → Prop
  | .block _ _ => True
  | .unblock source target => blackList.countP (isBlock source target) ≤ 1

variable {calls : List Call} {blackList after : List BlackList} {h : List (List BlackList × Call)} {call : Call}
  {source target : String}

theorem lastOn_own (call : Call) : lastOn (calls ++ [call]) call.pair.1 call.pair.2 = some call := by
  rw [lastOn, List.reverse_append, List.reverse_singleton, List.singleton_append]
  exact List.find?_cons_of_pos (beq_self_eq_true _)

theorem lastOn_of_ne (different : call.pair ≠ (source, target)) :
    lastOn (calls ++ [call]) source target = lastOn calls source target := by
  rw [lastOn, List.reverse_append, List.reverse_singleton, List.singleton_append]
  exact List.find?_cons_of_neg (by simpa using different)

theorem count_block (source target : String) : (block source target blackList).countP (isBlock source target) =
    blackList.countP (isBlock source target) + 1 := by
  simp [block, isBlock]

theorem count_of_ne (different : call.pair ≠ (source, target)) :
    (perform blackList call).countP (isBlock source target) = blackList.countP (isBlock source target) := by
  have apart : ∀ doc, isBlock call.pair.1 call.pair.2 doc = true → isBlock source target doc = false := by
    intro doc found
    rw [← Bool.not_eq_true, isBlock_iff]
    exact fun same => different ((isBlock_iff.mp found).symm.trans same)
  cases call with
  | block owner other =>
    rw [perform, block, List.countP_append, List.countP_singleton, apart _ (isBlock_iff.mpr rfl)]
    rfl
  | unblock owner other => exact Mongo.countP_deleteOne_of_disjoint apart blackList

/-- A `block` always tells; an `unblock` does if no second document of the pair is left. -/
theorem tellsLast_iff (tells : TellsLast calls blackList) :
    TellsLast (calls ++ [call]) (perform blackList call) ↔ Single blackList call := by
  have others : ∀ source target, call.pair ≠ (source, target) →
      (_inBlackList source target (perform blackList call) = true ↔
        lastOn (calls ++ [call]) source target = some (.block source target)) := by
    intro source target different
    rw [lastOn_of_ne different, ← tells, inBlackList_iff, inBlackList_iff, count_of_ne different]
  have own : (_inBlackList call.pair.1 call.pair.2 (perform blackList call) = true ↔
      lastOn (calls ++ [call]) call.pair.1 call.pair.2 = some (.block call.pair.1 call.pair.2)) ↔
        Single blackList call := by
    rw [lastOn_own, inBlackList_iff]
    cases call with
    | block owner other => simp [perform, count_block, Call.pair, Single]
    | unblock owner other =>
      dsimp only [Call.pair]
      have other : some (Call.unblock owner other) ≠ some (.block owner other) := by simp
      rw [perform, unblock, Mongo.countP_deleteOne, Single, iff_false_right other]
      omega
  rw [← own]
  refine ⟨fun after => after _ _, fun here source target => ?_⟩
  by_cases same : call.pair = (source, target)
  · obtain ⟨rfl, rfl⟩ := Prod.mk.inj same
    exact here
  · exact others source target same

/-- `_inBlackList` tells the last call in every state of a run for just as long as no `unblock` meets a
pair that was blocked twice. -/
theorem always_tells_iff (run : Run h blackList) :
    Always (fun past => TellsLast (labels past)) h blackList ↔ ∀ x ∈ h, Single x.1 x.2 := by
  refine run.always_iff (fun _ _ => by simp [_inBlackList, lastOn]) fun past state call next _ taken tells => ?_
  obtain rfl := taken
  rw [labels_append, labels_cons, labels_nil]
  exact tellsLast_iff tells

theorem always_tells_sample : ∃ h blackList, Run h blackList ∧ labels h = [.block "1" "2", .unblock "1" "2"] ∧
    Always (fun past => TellsLast (labels past)) h blackList := by
  have first : Run [([], .block "1" "2")] _ := .snoc .nil rfl
  have run := first.snoc (l := .unblock "1" "2") rfl
  refine ⟨_, _, run, rfl, (always_tells_iff run).mpr ?_⟩
  simp [Single, perform, block, List.countP_singleton]
  decide

/-- After two blocks and an unblock the user is still in the black list. -/
theorem still_blocked : ∃ h blackList, Run h blackList ∧
    labels h = [.block "1" "2", .block "1" "2", .unblock "1" "2"] ∧ _inBlackList "1" "2" blackList = true ∧
    ¬ TellsLast (labels h) blackList := by
  have first : Run [([], .block "1" "2")] _ := .snoc .nil rfl
  have run := (first.snoc (l := .block "1" "2") rfl).snoc (l := .unblock "1" "2") rfl
  refine ⟨_, _, run, rfl, rfl, fun tells => ?_⟩
  cases (tells "1" "2").mp rfl

end BlackListSystem

end TacoBack
