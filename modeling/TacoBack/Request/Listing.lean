import TacoBack.Request.Paging
import TacoBack.Request.Refinement

/-!
# The full listing

The sorted set of a recipient is ranked by the raised expiry of his requests. What is listed is their
records, whose own expiry lies below it by the same amount everywhere, as far as doubles go.
-/

namespace TacoBack.RequestSystem

open RequestService SortedSet Transition Traverse

variable {env : Env} {db : Redis.Db Stored} {h : List (Redis.Db Stored × Call)} {calls : List Call}
  {tid rid : String} {request : Request}

/-! ### Pending requests -/

theorem ridOf_of_pending (pending : pendingAfter env calls tid rid = some request) : ridOf env request = rid := by
  induction calls using List.reverseRecOn with
  | nil => cases pending
  | append_singleton before last ih =>
    rw [pendingAfter_snoc] at pending
    cases last with
    | add added =>
      rw [Call.apply] at pending
      split at pending
      · rename_i own
        obtain rfl := Option.some.inj pending
        exact own.2.symm
      · exact ih pending
    | remove owner field =>
      rw [Call.apply] at pending
      split at pending
      · cases pending
      · exact ih pending

theorem not_split_of_pending (addressed : Addressed calls) (pending : pendingAfter env calls tid rid = some request) :
    ¬ IsSplit calls tid := by
  rintro ⟨other, -, rfl⟩
  rw [pendingAfter_split addressed] at pending
  cases pending

theorem Refines.holds (refines : Refines env calls db) (addressed : Addressed calls)
    (pending : pendingAfter env calls tid rid = some request) :
    Redis.Holds db (REQUEST_NAMESPACE tid) rid (.record request) := by
  obtain ⟨fields, held, found⟩ := refines.hash tid (not_split_of_pending addressed pending)
  refine Redis.map_ok.mpr ⟨fields, held.read, ?_⟩
  rw [found, pending, Option.map_some]

/-! ### Scores -/

/-- The sorted set of each recipient has the rids of his pending requests, each with the raised expiry of
its request as its score. -/
def Scored (env : Env) (calls : List Call) (db : Redis.Db Stored) : Prop :=
  ∀ tid, ∃ scores, Redis.zsetAt db (REQUEST_HASH_KEY_NAMESPACE tid) = .ok scores ∧
    ∀ rid, scores.lookup rid =
      (pendingAfter env calls tid rid).map fun request => raisedExpire env request

theorem scored_empty (env : Env) : Scored env [] fun _ => none :=
  fun _ => ⟨∅, rfl, fun _ => rfl⟩

theorem Scored.add (scored : Scored env calls db) (refines : Refines env calls db)
    (numeric : Numeric request.recive) : Scored env (calls ++ [.add request]) (perform env db (.add request)) := by
  intro tid
  obtain ⟨fields, held, -⟩ := refines.hash _ (not_split numeric)
  obtain ⟨ranked, zset, -⟩ := scored request.recive
  rw [perform_add held.read zset]
  obtain ⟨scores, read, found⟩ := scored tid
  by_cases own : tid = request.recive
  · subst own
    refine ⟨_, zsetAt_filing, fun rid => ?_⟩
    obtain rfl := Except.ok.inj (zset.symm.trans read)
    exact lookup_pending_add found rid
  · refine ⟨scores, (zsetAt_filing_of_ne numeric own).trans read, fun rid => ?_⟩
    rw [pendingAfter_snoc, Call.apply, if_neg (fun both => own both.1), found]

theorem run_scored (run : Run env h db) (adds : Adds h) (addressed : Addressed (labels h)) :
    Scored env (labels h) db := by
  unfold Adds at adds
  induction run with
  | nil => exact scored_empty env
  | @snoc past state next call before taken ih =>
    have earlier : Addressed (labels past) := fun request member => addressed request (by simp [member])
    rw [labels_append, List.forall_mem_append] at adds
    obtain ⟨request, rfl⟩ := adds.2 call (by simp)
    obtain rfl := taken
    rw [labels_append, labels_cons, labels_nil]
    exact (ih adds.1 earlier).add (run_refines before earlier) (addressed request (by simp))

/-! ### The listing -/

/-- Two raised expiries that are the same double, at least one of them rounded. -/
def Tied (env : Env) (request later : Request) : Prop :=
  raisedExpire env request = raisedExpire env later ∧
    (2 ^ 53 < (request.expire + env.requestExpire).natAbs ∨ 2 ^ 53 < (later.expire + env.requestExpire).natAbs)

/-- Each rid that was filed for the recipient is listed once, with the request last filed under it, and
the requests that expire first come first, but for those that are tied. -/
structure Lists (env : Env) (calls : List Call) (tid : String) (listed : List Request) : Prop where
  complete : ∀ request, request ∈ listed ↔ ∃ rid, pendingAfter env calls tid rid = some request
  once : (listed.map (ridOf env)).Nodup
  ordered : listed.Pairwise fun request later => request.expire ≤ later.expire ∨ Tied env request later

theorem expire_le_or_tied {later : Request} (le : raisedExpire env request ≤ raisedExpire env later) :
    request.expire ≤ later.expire ∨ Tied env request later := by
  by_contra! apart
  obtain ⟨below, untied⟩ := apart
  have ge : raisedExpire env later ≤ raisedExpire env request := Double.round_mono (by omega)
  have same : raisedExpire env request = raisedExpire env later := le_antisymm le ge
  have small : ¬ (2 ^ 53 < (request.expire + env.requestExpire).natAbs ∨
      2 ^ 53 < (later.expire + env.requestExpire).natAbs) := fun rounded => untied ⟨same, rounded⟩
  rw [not_or, Nat.not_lt, Nat.not_lt] at small
  rw [raisedExpire, raisedExpire, Double.add, Double.add, Double.round_of_le small.1, Double.round_of_le small.2] at same
  omega

section Ranked

variable {scores : AList fun _ : String => Int}
  (found : ∀ rid, scores.lookup rid =
    (pendingAfter env calls tid rid).map fun request => raisedExpire env request)

include found in
theorem pending_of_ranked (member : rid ∈ ranked scores) : ∃ request, pendingAfter env calls tid rid = some request := by
  have scored := AList.lookup_isSome.mpr (mem_ranked.mp member)
  rw [found, Option.isSome_map] at scored
  exact Option.isSome_iff_exists.mp scored

include found in
theorem lists_ranked : Lists env calls tid ((ranked scores).filterMap (pendingAfter env calls tid)) where
  complete := by
    intro request
    rw [List.mem_filterMap]
    refine exists_congr fun rid => and_iff_right_of_imp fun pending => ?_
    rw [mem_ranked, ← AList.lookup_isSome, found, pending]
    rfl
  once := by
    rw [map_filterMap_of_some (k := id), List.map_id]
    · exact nodup_ranked scores
    · intro rid member
      obtain ⟨request, pending⟩ := pending_of_ranked found member
      exact ⟨request, pending, ridOf_of_pending pending⟩
  ordered := by
    rw [List.pairwise_filterMap]
    refine (pairwise_ranked scores).imp fun {rid other} order request pending later pending' => ?_
    exact expire_le_or_tied (order (raisedExpire env request) (raisedExpire env later)
      (by rw [found, pending]; rfl) (by rw [found, pending']; rfl))

end Ranked

/-- Whatever was added in whatever order, the full listing has the request last added under each rid,
once, and by expiry where the raised expiries are not tied. -/
theorem getAllRequest_lists (run : Run env h db) (adds : Adds h) (addressed : Addressed (labels h)) (tid : String)
    (size : Int) (few : ∀ scores, Redis.zsetAt db (REQUEST_HASH_KEY_NAMESPACE tid) = .ok scores →
      scores.entries.length < 2 ^ 53) :
    ∃ listed, getAllRequest size tid none db = .ok (listed.map fun request => some (.record request)) ∧
      Lists env (labels h) tid listed := by
  obtain ⟨scores, zset, found⟩ := run_scored run adds addressed tid
  refine ⟨_, ?_, lists_ranked found⟩
  have bound := few scores zset
  have whole : window (ranked scores) 0 9007199254740991 = ranked scores := by
    rw [window_front (.inl rfl) (by decide), List.take_of_length_le]
    rw [length_ranked]
    omega
  rw [getAllRequest_all (run_filed run adds) zset, whole]
  refine congrArg Except.ok (map_filterMap_of_some _ fun rid member => ?_).symm
  obtain ⟨request, pending⟩ := pending_of_ranked found member
  have read : Redis.hget db (REQUEST_NAMESPACE tid) rid = .ok (some (.record request)) :=
    (run_refines run addressed).holds addressed pending
  exact ⟨request, pending, by rw [recordAt, read]⟩

theorem getAllRequest_lists_sample : ∃ h db, Run sampleEnv h db ∧
    labels h = [.add sampleRequest, .add laterRequest, .add renewedRequest] ∧
    getAllRequest 10 "2" none db = .ok [some (.record laterRequest), some (.record renewedRequest)] ∧
    ∃ listed, getAllRequest 10 "2" none db = .ok (listed.map fun request => some (.record request)) ∧
      Lists sampleEnv (labels h) "2" listed := by
  have first : Run sampleEnv [(fun _ => none, .add sampleRequest)] _ := .snoc .nil rfl
  have run := (first.snoc (l := .add laterRequest) rfl).snoc (l := .add renewedRequest) rfl
  refine ⟨_, _, run, rfl, rfl, getAllRequest_lists run ?_ ?_ "2" 10 ?_⟩
  · simp [Adds]
  · simp [Addressed, sampleRequest, laterRequest, renewedRequest, Numeric]
  · intro scores zset
    obtain rfl := Except.ok.inj zset
    decide

/-- Two requests whose raised expiries are one double. The one that expires first has the larger rid. -/
def roundedRequest : Request := { sampleRequest with rid := some "a", expire := 9007199254740989 }

def evenRequest : Request := { sampleRequest with rid := some "b", expire := 9007199254740988 }

theorem listing_decreases : ∃ h db, Run sampleEnv h db ∧ labels h = [.add roundedRequest, .add evenRequest] ∧
    getAllRequest 10 "2" none db = .ok [some (.record roundedRequest), some (.record evenRequest)] ∧
    ¬ ∃ listed : List Request, getAllRequest 10 "2" none db = .ok (listed.map fun request => some (.record request)) ∧
      listed.Pairwise fun request later => request.expire ≤ later.expire := by
  have first : Run sampleEnv [(fun _ => none, .add roundedRequest)] _ := .snoc .nil rfl
  have run := first.snoc (l := .add evenRequest) rfl
  have listing : getAllRequest 10 "2" none (perform sampleEnv (perform sampleEnv (fun _ => none) (.add roundedRequest))
      (.add evenRequest)) = .ok [some (.record roundedRequest), some (.record evenRequest)] := rfl
  refine ⟨_, _, run, rfl, listing, ?_⟩
  rintro ⟨listed, same, ordered⟩
  obtain rfl : listed = [roundedRequest, evenRequest] := by
    have records : [roundedRequest, evenRequest].map (fun request => some (Stored.record request)) =
        listed.map fun request => some (Stored.record request) := Except.ok.inj (listing.symm.trans same)
    have injective : Function.Injective fun request : Request => some (Stored.record request) := by
      intro a b equal
      exact Stored.record.inj (Option.some.inj equal)
    exact (List.map_injective_iff.mpr injective records).symm
  exact absurd ordered (by decide)

end TacoBack.RequestSystem
