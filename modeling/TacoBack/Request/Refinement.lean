import Mathlib.Data.List.Induction
import TacoBack.Request.Store

/-!
# The request store as a finite map

What `getReuqest` answers after any run, against the map the calls were meant to keep.
-/

namespace TacoBack.RequestSystem

open RequestService Transition

variable {env : Env} {db after : Redis.Db Stored} {h : List (Redis.Db Stored × Call)} {calls : List Call}
  {call : Call} {tid rid : String}

/-! ### The abstract map -/

/-- The pending requests by recipient and rid. -/
abbrev Pending := String → String → Option Request

def Call.apply (env : Env) (pending : Pending) : Call → Pending
  | .add request, tid, rid =>
    if tid = request.recive ∧ rid = ridOf env request then some request else pending tid rid
  | .remove owner field, tid, rid => if tid = owner ∧ rid = field then none else pending tid rid

/-- The map after `calls`: the last `add` under a tid and rid counts, unless a `remove` came after it. -/
def pendingAfter (env : Env) (calls : List Call) : Pending :=
  calls.foldl (Call.apply env) fun _ _ => none

theorem pendingAfter_snoc : pendingAfter env (calls ++ [call]) = call.apply env (pendingAfter env calls) :=
  List.foldl_append

/-- `"split:"` and the tid of a recipient of one of the calls. -/
def IsSplit (calls : List Call) (tid : String) : Prop :=
  ∃ request, .add request ∈ calls ∧ tid = "split:" ++ request.recive

theorem isSplit_snoc : IsSplit (calls ++ [call]) tid ↔
    IsSplit calls tid ∨ ∃ request, call = .add request ∧ tid = "split:" ++ request.recive := by
  simp only [IsSplit, List.mem_append, List.mem_singleton, or_and_right, exists_or, eq_comm]

/-! ### The refinement -/

/-- The key `request:<tid>` of the store against the map: a sorted set where the tid is the split of a
recipient, else the hash of the records the map holds for it. -/
structure Refines (env : Env) (calls : List Call) (db : Redis.Db Stored) : Prop where
  split : ∀ tid, IsSplit calls tid → ∃ scores, db (REQUEST_NAMESPACE tid) = some (.zset scores)
  hash : ∀ tid, ¬ IsSplit calls tid → ∃ fields, Redis.HoldsHash db (REQUEST_NAMESPACE tid) fields ∧
    ∀ rid, fields.lookup rid = (pendingAfter env calls tid rid).map .record

theorem refines_empty : Refines env [] fun _ => none where
  split := by
    intro tid split
    obtain ⟨request, member, _⟩ := split
    cases member
  hash := fun _ _ => ⟨∅, rfl, fun _ => rfl⟩

def Addressed (calls : List Call) : Prop := ∀ request, .add request ∈ calls → Numeric request.recive

theorem not_split (numeric : Numeric tid) : ¬ IsSplit calls tid := by
  intro split
  obtain ⟨request, _, same⟩ := split
  exact numeric_ne_split numeric _ same

/-- Nobody files requests for a tid that is no number. -/
theorem pendingAfter_split (addressed : Addressed calls) : pendingAfter env calls ("split:" ++ tid) rid = none := by
  induction calls using List.reverseRecOn with
  | nil => rfl
  | append_singleton before last ih =>
    have earlier : Addressed before := fun request member => addressed request (List.mem_append_left _ member)
    rw [pendingAfter_snoc]
    cases last with
    | add request =>
      have numeric : Numeric request.recive := addressed request (by simp)
      have other : "split:" ++ tid ≠ request.recive := (numeric_ne_split numeric tid).symm
      simp only [Call.apply, other, false_and, if_false]
      exact ih earlier
    | remove owner field =>
      simp only [Call.apply]
      split
      · rfl
      · exact ih earlier

/-- A list of the pending requests of a recipient, kept up by an insertion. -/
theorem lookup_pending_add {β : Type} {f : Request → β} {values : AList fun _ : String => β}
    (found : ∀ rid, values.lookup rid = (pendingAfter env calls request.recive rid).map f) (rid : String) :
    (values.insert (ridOf env request) (f request)).lookup rid =
      (pendingAfter env (calls ++ [.add request]) request.recive rid).map f := by
  rw [pendingAfter_snoc, Call.apply]
  by_cases new : rid = ridOf env request
  · rw [if_pos ⟨rfl, new⟩, new, AList.lookup_insert, Option.map_some]
  · rw [if_neg (fun both => new both.2), AList.lookup_insert_ne new, found]

theorem Refines.zset (refines : Refines env calls db) (addressed : Addressed calls) :
    ∃ scores, Redis.zsetAt db (REQUEST_HASH_KEY_NAMESPACE tid) = .ok scores := by
  rw [split_eq_namespace]
  by_cases split : IsSplit calls ("split:" ++ tid)
  · obtain ⟨scores, held⟩ := refines.split _ split
    exact ⟨scores, by rw [Redis.zsetAt, held]⟩
  · obtain ⟨fields, held, found⟩ := refines.hash _ split
    have absent := held.absent fun rid => by rw [found, pendingAfter_split addressed, Option.map_none]
    exact ⟨∅, by rw [Redis.zsetAt, absent]⟩

theorem Refines.add {request : Request} (refines : Refines env calls db) (addressed : Addressed calls)
    (numeric : Numeric request.recive) : Refines env (calls ++ [.add request]) (perform env db (.add request)) := by
  obtain ⟨fields, held, found⟩ := refines.hash _ (not_split numeric)
  obtain ⟨scores, ranked⟩ := @Refines.zset env db calls request.recive refines addressed
  rw [perform_add held.read ranked]
  have zsetKey := split_eq_namespace request.recive
  constructor
  · intro tid split
    by_cases own : tid = "split:" ++ request.recive
    · subst own
      rw [← zsetKey]
      exact ⟨_, Function.update_self _ _ _⟩
    · have before : IsSplit calls tid := by simpa [isSplit_snoc, own] using split
      obtain ⟨old, stored⟩ := refines.split tid before
      refine ⟨old, ?_⟩
      rw [filing_of_ne, stored]
      · intro same
        rw [requestNamespace_inj same] at before
        exact not_split numeric before
      · rw [zsetKey]
        exact fun same => own (requestNamespace_inj same)
  · intro tid split
    have before : ¬ IsSplit calls tid := fun old => split (isSplit_snoc.mpr (.inl old))
    have apart : tid ≠ "split:" ++ request.recive :=
      fun same => split (isSplit_snoc.mpr (.inr ⟨request, rfl, same⟩))
    by_cases own : tid = request.recive
    · subst own
      refine ⟨_, (Redis.holdsHash_putHash _ _ _).of_eq
        (Function.update_of_ne (split_ne_namespace request.recive).symm _ _), fun rid => ?_⟩
      exact lookup_pending_add found rid
    · obtain ⟨old, stored, same⟩ := refines.hash tid before
      refine ⟨old, stored.of_eq (filing_of_ne ?_ ?_), fun rid => ?_⟩
      · exact fun equal => own (requestNamespace_inj equal)
      · rw [zsetKey]
        exact fun equal => apart (requestNamespace_inj equal)
      · rw [pendingAfter_snoc, Call.apply, if_neg (fun both => own both.1), same]

theorem Refines.remove (refines : Refines env calls db) :
    Refines env (calls ++ [.remove tid rid]) (perform env db (.remove tid rid)) := by
  have splits : ∀ other, IsSplit (calls ++ [.remove tid rid]) other ↔ IsSplit calls other := by
    intro other
    simp [isSplit_snoc]
  by_cases split : IsSplit calls tid
  · obtain ⟨scores, stored⟩ := refines.split tid split
    have failed : perform env db (.remove tid rid) = db := by
      rw [perform, removeRequest, Redis.hdel, Redis.hashAt, stored]
      rfl
    rw [failed]
    refine ⟨fun other now => refines.split other ((splits other).mp now), fun other now => ?_⟩
    obtain ⟨fields, held, found⟩ := refines.hash other fun old => now ((splits other).mpr old)
    refine ⟨fields, held, fun field => ?_⟩
    have apart : other ≠ tid := fun same => now ((splits other).mpr (same ▸ split))
    rw [pendingAfter_snoc, Call.apply, if_neg (fun both => apart both.1), found]
  · obtain ⟨fields, held, found⟩ := refines.hash tid split
    rw [perform_remove rid held.read]
    constructor
    · intro other now
      have before := (splits other).mp now
      obtain ⟨scores, stored⟩ := refines.split other before
      refine ⟨scores, ?_⟩
      rw [Redis.putHash_of_ne, stored]
      intro same
      rw [requestNamespace_inj same] at before
      exact split before
    · intro other now
      by_cases own : other = tid
      · subst own
        refine ⟨_, Redis.holdsHash_putHash _ _ _, fun field => ?_⟩
        rw [pendingAfter_snoc, Call.apply]
        by_cases gone : field = rid
        · rw [if_pos ⟨rfl, gone⟩, gone, AList.lookup_erase, Option.map_none]
        · rw [if_neg (fun both => gone both.2), AList.lookup_erase_ne gone, found]
      · obtain ⟨old, stored, same⟩ := refines.hash other fun before => now ((splits other).mpr before)
        refine ⟨old, stored.of_eq (Redis.putHash_of_ne _ _ fun equal => own (requestNamespace_inj equal)), ?_⟩
        intro field
        rw [pendingAfter_snoc, Call.apply, if_neg (fun both => own both.1), same]

theorem run_refines (run : Run env h db) (addressed : Addressed (labels h)) : Refines env (labels h) db := by
  induction run with
  | nil => exact refines_empty
  | @snoc past state next call before taken ih =>
    have earlier : Addressed (labels past) := fun request member => addressed request (by simp [member])
    obtain rfl := taken
    rw [labels_append, labels_cons, labels_nil]
    cases call with
    | add request => exact (ih earlier).add earlier (addressed request (by simp))
    | remove tid rid => exact (ih earlier).remove

/-- Where all recipients are numbers, `getReuqest` answers as the map does, except for the tids whose
hash key is the sorted set of a recipient: there it throws. -/
theorem getReuqest_refines (run : Run env h db) (addressed : Addressed (labels h)) (tid rid : String) :
    (¬ IsSplit (labels h) tid →
      getReuqest tid rid db = .ok ((pendingAfter env (labels h) tid rid).map .record)) ∧
    (IsSplit (labels h) tid → getReuqest tid rid db = .error .wrongType) := by
  have refines := run_refines run addressed
  constructor
  · intro split
    obtain ⟨fields, held, found⟩ := refines.hash tid split
    rw [getReuqest, Redis.hget, held.read, ← found]
    rfl
  · intro split
    obtain ⟨scores, stored⟩ := refines.split tid split
    rw [getReuqest, Redis.hget, Redis.hashAt, stored]
    rfl

/-- A request is added, then one of another user, then the first again; the second is removed. -/
def sampleCalls : List Call :=
  [.add sampleRequest, .add laterRequest, .add renewedRequest, .remove "2" "3-2-1-9253d76ce549de18"]

theorem sample_run : ∃ h db, Run sampleEnv h db ∧ labels h = sampleCalls := by
  have first : Run sampleEnv [(fun _ => none, .add sampleRequest)] _ := .snoc .nil rfl
  have second := (first.snoc (l := .add laterRequest) rfl).snoc (l := .add renewedRequest) rfl
  exact ⟨_, _, second.snoc (l := .remove "2" "3-2-1-9253d76ce549de18") rfl, rfl⟩

theorem getReuqest_refines_sample : ∃ h db, Run sampleEnv h db ∧ labels h = sampleCalls ∧
    getReuqest "2" "1-2-1-9253d76ce549de18" db = .ok (some (.record renewedRequest)) ∧
    getReuqest "2" "3-2-1-9253d76ce549de18" db = .ok none ∧
    getReuqest "split:2" "3-2-1-9253d76ce549de18" db = .error .wrongType := by
  obtain ⟨h, db, run, calls⟩ := sample_run
  have addressed : Addressed (labels h) := by
    simp [calls, sampleCalls, Addressed, sampleRequest, laterRequest, renewedRequest, Numeric]
  have renewed : pendingAfter sampleEnv (labels h) "2" "1-2-1-9253d76ce549de18" = some renewedRequest := by
    rw [calls]
    rfl
  have removed : pendingAfter sampleEnv (labels h) "2" "3-2-1-9253d76ce549de18" = none := by
    rw [calls]
    rfl
  have split : IsSplit (labels h) "split:2" := ⟨sampleRequest, by simp [calls, sampleCalls], rfl⟩
  have answers (rid : String) := (getReuqest_refines run addressed "2" rid).1 (not_split (by simp [Numeric]))
  refine ⟨h, db, run, calls, ?_, ?_, (getReuqest_refines run addressed _ _).2 split⟩
  · rw [answers, renewed, Option.map_some]
  · rw [answers, removed, Option.map_none]

/-- A tid that is `"split:"` and the tid of a recipient gets an error, not `{}`. -/
theorem split_key_throws : ∃ h db, Run sampleEnv h db ∧ labels h = [.add sampleRequest] ∧
    pendingAfter sampleEnv (labels h) "split:2" "x" = none ∧ getReuqest "split:2" "x" db = .error .wrongType := by
  have run : Run sampleEnv [(fun _ => none, .add sampleRequest)] _ := .snoc .nil rfl
  exact ⟨_, _, run, rfl, rfl, rfl⟩

end TacoBack.RequestSystem
