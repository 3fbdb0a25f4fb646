import TacoBack.Lib.Traverse
import TacoBack.Request.Store

/-!
# The two halves of the request store

The hash of a recipient and his sorted set hold the same rids until a `removeRequest` finds the
request it is asked to remove.
-/

namespace TacoBack.RequestSystem

open RequestService Transition Traverse

variable {env : Env} {db after : Redis.Db Stored} {h : List (Redis.Db Stored × Call)}

/-- The fields of `request:<tid>` are the members of `request:split:<tid>`. -/
def Agrees (db : Redis.Db Stored) : Prop :=
  ∀ tid, Numeric tid → ∃ fields scores, Redis.hashAt db (REQUEST_NAMESPACE tid) = .ok fields ∧
    Redis.zsetAt db (REQUEST_HASH_KEY_NAMESPACE tid) = .ok scores ∧ ∀ rid, rid ∈ fields ↔ rid ∈ scores

/-- `getAllRequest` returns stored request records and nothing else. -/
def ListsRecords (db : Redis.Db Stored) : Prop :=
  ∀ tid, Numeric tid → ∀ size page, ∃ listed, getAllRequest size tid page db = .ok listed ∧
    ∀ entry ∈ listed, ∃ rid request, entry = some (.record request) ∧
      Redis.Holds db (REQUEST_NAMESPACE tid) rid (.record request)

structure InStep (db : Redis.Db Stored) : Prop where
  agrees : Agrees db
  lists : ListsRecords db

/-- The keys of a recipient have their types, and no field holds the number of `HSETNX`. -/
def Typed (db : Redis.Db Stored) : Prop :=
  ∀ tid, Numeric tid → ∃ fields scores, Redis.hashAt db (REQUEST_NAMESPACE tid) = .ok fields ∧
    Redis.zsetAt db (REQUEST_HASH_KEY_NAMESPACE tid) = .ok scores ∧
    ∀ rid stored, fields.lookup rid = some stored → ∃ request, stored = .record request

/-- A removal that finds no request. -/
def Harmless (db : Redis.Db Stored) : Call → Prop
  | .add _ => True
  | .remove tid rid => getReuqest tid rid db = .ok none

/-! ### What a call does to the two keys of a recipient -/

theorem hashAt_filing_of_ne {request : Request} {fields : AList fun _ : String => Stored}
    {scores : AList fun _ : String => Int} {tid : String} (numeric : Numeric tid) (other : tid ≠ request.recive) :
    Redis.hashAt (filing env request fields scores db) (REQUEST_NAMESPACE tid) =
      Redis.hashAt db (REQUEST_NAMESPACE tid) := by
  apply Redis.hashAt_congr
  apply filing_of_ne
  · exact fun same => other (requestNamespace_inj same)
  · rw [split_eq_namespace]
    exact fun same => numeric_ne_split numeric _ (requestNamespace_inj same)

theorem zsetAt_filing_of_ne {request : Request} {fields : AList fun _ : String => Stored}
    {scores : AList fun _ : String => Int} {tid : String} (numeric : Numeric request.recive)
    (other : tid ≠ request.recive) :
    Redis.zsetAt (filing env request fields scores db) (REQUEST_HASH_KEY_NAMESPACE tid) =
      Redis.zsetAt db (REQUEST_HASH_KEY_NAMESPACE tid) := by
  apply Redis.zsetAt_congr
  apply filing_of_ne
  · rw [split_eq_namespace]
    exact fun same => numeric_ne_split numeric _ (requestNamespace_inj same).symm
  · exact fun same => other (splitNamespace_inj same)

theorem hashAt_removed_of_ne {tid rid other : String} {fields : AList fun _ : String => Stored}
    (different : other ≠ tid) :
    Redis.hashAt (Redis.putHash db (REQUEST_NAMESPACE tid) (fields.erase rid)) (REQUEST_NAMESPACE other) =
      Redis.hashAt db (REQUEST_NAMESPACE other) :=
  Redis.hashAt_putHash_of_ne _ _ fun same => different (requestNamespace_inj same)

theorem zsetAt_removed {tid other : String} {fields : AList fun _ : String => Stored} (numeric : Numeric tid) :
    Redis.zsetAt (Redis.putHash db (REQUEST_NAMESPACE tid) fields) (REQUEST_HASH_KEY_NAMESPACE other) =
      Redis.zsetAt db (REQUEST_HASH_KEY_NAMESPACE other) := by
  apply Redis.zsetAt_congr
  apply Redis.putHash_of_ne
  rw [split_eq_namespace]
  exact fun same => numeric_ne_split numeric _ (requestNamespace_inj same).symm

theorem Step.typed {call : Call} (taken : Step env db call after) (numeric : Numeric call.tid) (typed : Typed db) :
    Typed after := by
  intro tid digits
  obtain ⟨fields, scores, hash, zset, records⟩ := typed tid digits
  obtain rfl := taken
  cases call with
  | add request =>
    obtain ⟨held, ranked, readHash, readZset, _⟩ := typed _ numeric
    rw [perform_add readHash readZset]
    by_cases same : tid = request.recive
    · subst same
      obtain rfl := Except.ok.inj (readHash.symm.trans hash)
      refine ⟨_, _, hashAt_filing, zsetAt_filing, ?_⟩
      intro rid stored found
      by_cases new : rid = ridOf env request
      · subst new
        rw [AList.lookup_insert] at found
        exact ⟨request, (Option.some.inj found).symm⟩
      · rw [AList.lookup_insert_ne new] at found
        exact records rid stored found
    · exact ⟨fields, scores, (hashAt_filing_of_ne digits same).trans hash,
        (zsetAt_filing_of_ne numeric same).trans zset, records⟩
  | remove owner rid =>
    obtain ⟨held, _, readHash, _⟩ := typed owner numeric
    rw [perform_remove rid readHash]
    by_cases same : tid = owner
    · subst same
      obtain rfl := Except.ok.inj (readHash.symm.trans hash)
      refine ⟨_, scores, Redis.hashAt_putHash _ _ _, (zsetAt_removed numeric).trans zset, ?_⟩
      intro other stored found
      by_cases gone : other = rid
      · subst gone
        rw [AList.lookup_erase] at found
        cases found
      · rw [AList.lookup_erase_ne gone] at found
        exact records other stored found
    · exact ⟨fields, scores, (hashAt_removed_of_ne same).trans hash, (zsetAt_removed numeric).trans zset, records⟩

theorem typed_empty : Typed fun _ => none := fun _ _ =>
  ⟨∅, ∅, rfl, rfl, fun _ _ found => by simp at found⟩

/-! ### The listing -/

theorem requestKeys_members {tid : String} {scores : AList fun _ : String => Int} (size : Int) (page : Option Int)
    (zset : Redis.zsetAt db (REQUEST_HASH_KEY_NAMESPACE tid) = .ok scores) :
    ∃ keys, requestKeys size tid page db = .ok keys ∧ ∀ key ∈ keys, key ∈ scores := by
  unfold requestKeys
  split <;> refine ⟨_, by rw [Redis.zrange, zset]; rfl, ?_⟩ <;> exact fun _ => SortedSet.mem_of_mem_range

/-- Where the two halves agree, every listed rid is a stored request. -/
theorem Agrees.lists (agrees : Agrees db) (typed : Typed db) : ListsRecords db := by
  intro tid numeric size page
  obtain ⟨fields, scores, hash, zset, same⟩ := agrees tid numeric
  obtain ⟨held, _, readHash, _, records⟩ := typed tid numeric
  obtain rfl := Except.ok.inj (hash.symm.trans readHash)
  obtain ⟨keys, read, members⟩ := requestKeys_members size page zset
  rw [getAllRequest, read]
  apply mapM_ok
  intro rid member
  have present : (fields.lookup rid).isSome := AList.lookup_isSome.mpr ((same rid).mpr (members rid member))
  obtain ⟨stored, found⟩ := Option.isSome_iff_exists.mp present
  obtain ⟨request, rfl⟩ := records rid stored found
  have held : Redis.Holds db (REQUEST_NAMESPACE tid) rid (.record request) :=
    Redis.map_ok.mpr ⟨fields, hash, found⟩
  exact ⟨some (.record request), held, rid, request, rfl, held⟩

/-! ### Runs -/

theorem agrees_add {request : Request} (agrees : Agrees db) (numeric : Numeric request.recive) :
    Agrees (perform env db (.add request)) := by
  intro tid digits
  obtain ⟨fields, scores, hash, zset, same⟩ := agrees _ numeric
  rw [perform_add hash zset]
  by_cases owner : tid = request.recive
  · subst owner
    refine ⟨_, _, hashAt_filing, zsetAt_filing, fun rid => ?_⟩
    rw [AList.mem_insert, AList.mem_insert, same rid]
  · rw [hashAt_filing_of_ne digits owner, zsetAt_filing_of_ne numeric owner]
    exact agrees tid digits

/-- A removal keeps the two halves in step exactly when there is nothing to remove. -/
theorem agrees_remove {tid rid : String} (agrees : Agrees db) (numeric : Numeric tid) :
    Agrees (perform env db (.remove tid rid)) ↔ Harmless db (.remove tid rid) := by
  obtain ⟨fields, scores, hash, zset, same⟩ := agrees tid numeric
  have harmless : Harmless db (.remove tid rid) ↔ rid ∉ fields := by
    rw [Harmless, getReuqest, Redis.hget, hash, ← AList.lookup_eq_none]
    simp [Except.map]
  rw [perform_remove rid hash, harmless]
  constructor
  · intro after present
    obtain ⟨left, ranked, readHash, readZset, still⟩ := after tid numeric
    obtain rfl := Except.ok.inj ((Redis.hashAt_putHash _ _ _).symm.trans readHash)
    obtain rfl := Except.ok.inj (((zsetAt_removed numeric).trans zset).symm.trans readZset)
    have gone := (still rid).mpr ((same rid).mp present)
    exact (AList.mem_erase.mp gone).1 rfl
  · intro absent other digits
    by_cases owner : other = tid
    · subst owner
      refine ⟨_, scores, Redis.hashAt_putHash _ _ _, (zsetAt_removed numeric).trans zset, fun field => ?_⟩
      rw [AList.mem_erase, ← same field]
      exact and_iff_right_of_imp fun present equal => absent (equal ▸ present)
    · rw [hashAt_removed_of_ne owner, zsetAt_removed numeric]
      exact agrees other digits

theorem Step.agrees_iff {call : Call} (taken : Step env db call after) (numeric : Numeric call.tid)
    (agrees : Agrees db) : Agrees after ↔ Harmless db call := by
  obtain rfl := taken
  cases call with
  | add request => exact iff_of_true (agrees_add agrees numeric) trivial
  | remove tid rid => exact agrees_remove agrees numeric

theorem agrees_empty : Agrees fun _ => none := fun _ _ => ⟨∅, ∅, rfl, rfl, fun _ => Iff.rfl⟩

/-- In runs with numeric tids the two halves agree, and the listings hold records only, for just as
long as no `removeRequest` finds a request. -/
theorem halves_agree_iff (run : Run env h db) (numeric : ∀ call ∈ labels h, Numeric call.tid) :
    Everywhere InStep h db ↔ ∀ x ∈ h, Harmless x.1 x.2 := by
  have meets : ∀ x ∈ h, Numeric x.2.tid := fun x member => numeric x.2 (List.mem_map_of_mem member)
  have start : InStep fun _ => none := ⟨agrees_empty, agrees_empty.lists typed_empty⟩
  apply (run.restrict (C := fun _ call => Numeric call.tid) meets).everywhere_iff start
  intro past state call next before taken now
  have typed : Typed state := before.preserved typed_empty fun _ _ _ typed taken => taken.1.typed taken.2 typed
  rw [← taken.1.agrees_iff taken.2 now.agrees]
  exact ⟨InStep.agrees, fun agrees => ⟨agrees, agrees.lists (taken.1.typed taken.2 typed)⟩⟩

/-- Two requests, the first of them twice, and a removal that finds none. -/
theorem halves_agree_sample : ∃ h db, Run sampleEnv h db ∧
    labels h = [.add sampleRequest, .add laterRequest, .add renewedRequest, .remove "2" "2-2-1-9253d76ce549de18"] ∧
    Everywhere InStep h db := by
  have first : Run sampleEnv [(fun _ => none, .add sampleRequest)] _ := .snoc .nil rfl
  have second := (first.snoc (l := .add laterRequest) rfl).snoc (l := .add renewedRequest) rfl
  have run := second.snoc (l := .remove "2" "2-2-1-9253d76ce549de18") rfl
  refine ⟨_, _, run, rfl, (halves_agree_iff run ?_).mpr ?_⟩
  · simp [Call.tid, sampleRequest, laterRequest, renewedRequest, Numeric]
  · simp only [List.mem_append, List.mem_singleton]
    rintro x (((rfl | rfl) | rfl) | rfl)
    · trivial
    · trivial
    · trivial
    · rfl

/-- A request that is added and removed stays in the sorted set, and is listed as `null`. -/
theorem removed_listed_null : ∃ h db, Run sampleEnv h db ∧
    labels h = [.add sampleRequest, .remove "2" "1-2-1-9253d76ce549de18"] ∧
    ¬ Agrees db ∧ getAllRequest 10 "2" none db = .ok [none] := by
  let added := perform sampleEnv (fun _ => none) (.add sampleRequest)
  let removed := perform sampleEnv added (.remove "2" "1-2-1-9253d76ce549de18")
  have first : Run sampleEnv [(fun _ => none, .add sampleRequest)] added := .snoc .nil rfl
  have listed : getAllRequest 10 "2" none removed = .ok [none] := rfl
  refine ⟨_, removed, first.snoc rfl, rfl, fun agrees => ?_, listed⟩
  obtain ⟨fields, scores, hash, zset, same⟩ := agrees "2" (by simp [Numeric])
  have empty : fields = ∅ := (Except.ok.inj hash).symm
  have member : "1-2-1-9253d76ce549de18" ∈ scores := by
    obtain rfl := Except.ok.inj zset
    decide
  simp [empty] at same
  exact same _ member

end TacoBack.RequestSystem
