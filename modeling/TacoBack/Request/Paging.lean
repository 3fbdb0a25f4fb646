import TacoBack.Request.Agreement

/-!
# Pages

A page runs from rank `page - size` to rank `page * size`, both included, and negative ranks count from
the end.
-/

namespace TacoBack.RequestSystem

open RequestService SortedSet Transition Traverse

/-! ### Pages of a list -/

def pageOf (size : Nat) (page : Int) (xs : List String) : List String :=
  window xs (page - 1 * size) (page * size)

/-- Pages 1 up to `⌈n / size⌉`, one after the other. -/
def allPages (size : Nat) (xs : List String) : List String :=
  (List.range ((xs.length + size - 1) / size)).flatMap fun i : Nat => pageOf size (i + 1) xs

/-- Fewer entries than a page holds, or one on pages of one. -/
def Fits (n size : Nat) : Prop := (n < size ∧ n ≤ 9007199254740992) ∨ (n = 1 ∧ size = 1)

variable {xs : List String} {size : Nat}

/-- Page `size` starts at rank 0. -/
theorem length_le_of_pages (positive : 1 ≤ size)
    (short : ∀ page : Int, 1 ≤ page → (pageOf size page xs).length ≤ size) : xs.length ≤ size := by
  have bound := short size (by omega)
  have square : (size : Int) * 1 ≤ size * size := Int.mul_le_mul_of_nonneg_left (by omega) (by omega)
  rw [pageOf, window_front (by omega) (by omega), List.length_take] at bound
  have stop : size + 1 ≤ ((size : Int) * size + 1).toNat := by omega
  omega

theorem allPages_one (positive : 1 ≤ size) (some : 1 ≤ xs.length) (fits : xs.length ≤ size) :
    allPages size xs = pageOf size 1 xs := by
  have one : (xs.length + size - 1) / size = 1 := by
    rw [Nat.div_eq_iff (by omega)]
    omega
  rw [allPages, one]
  simp

/-- The first page starts at the front, unless there are as many entries as it may hold. -/
theorem first_page (fits : xs.length ≤ size) (positive : 1 ≤ size) :
    pageOf size 1 xs = if xs.length = size ∧ 2 ≤ size then xs.drop 1 else xs := by
  split
  · rename_i full
    have start : (rank xs.length (1 - 1 * (size : Int))).toNat = 1 := by
      unfold rank
      split <;> omega
    have stop : xs.length ≤ (rank xs.length (1 * (size : Int)) + 1).toNat := by
      unfold rank
      split <;> omega
    rw [pageOf, window, start, List.take_of_length_le stop]
  · rw [pageOf, window_front (by omega) (by omega), List.take_of_length_le (by omega)]

theorem pages_iff (distinct : xs.Nodup) (positive : 1 ≤ size) :
    ((∀ page : Int, 1 ≤ page → (pageOf size page xs).length ≤ size) ∧
      allPages size xs = window xs 0 9007199254740991) ↔ Fits xs.length size := by
  have full : window xs 0 9007199254740991 = xs.take 9007199254740992 := window_front (.inl rfl) (by decide)
  rw [full]
  constructor
  · rintro ⟨short, whole⟩
    have fits := length_le_of_pages positive short
    rcases Nat.eq_zero_or_pos xs.length with empty | some
    · exact .inl (by omega)
    rw [allPages_one positive some fits, first_page fits positive] at whole
    split at whole
    · rename_i exact
      obtain ⟨x, y, rest, rfl⟩ : ∃ x y rest, xs = x :: y :: rest := by
        match xs, exact with
        | [], exact | [_], exact => simp at exact; omega
        | x :: y :: rest, _ => exact ⟨x, y, rest, rfl⟩
      rw [List.drop_one, List.tail_cons, List.take_succ_cons] at whole
      rw [List.nodup_cons, List.mem_cons, not_or] at distinct
      exact (distinct.1.1 (List.cons.inj whole).1.symm).elim
    · have lengths := congrArg List.length whole
      rw [List.length_take] at lengths
      unfold Fits
      omega
  · intro fits
    constructor
    · intro page later
      rw [pageOf, length_window]
      unfold Fits at fits
      omega
    · rcases Nat.eq_zero_or_pos xs.length with empty | some
      · obtain rfl := List.length_eq_zero_iff.mp empty
        simp [allPages, pageOf, window]
      unfold Fits at fits
      rw [allPages_one positive some (by omega), first_page (by omega) positive, if_neg (by omega),
        List.take_of_length_le (by omega)]

/-! ### Filed requests -/

variable {env : Env} {db after : Redis.Db Stored} {h : List (Redis.Db Stored × Call)} {tid : String}
  {scores : AList fun _ : String => Int}

/-- Every rid in the sorted set of a recipient is the field of its request in his hash. -/
def Filed (env : Env) (db : Redis.Db Stored) : Prop :=
  ∀ tid scores, Redis.zsetAt db (REQUEST_HASH_KEY_NAMESPACE tid) = .ok scores → ∀ rid ∈ scores,
    ∃ request, Redis.Holds db (REQUEST_NAMESPACE tid) rid (.record request) ∧ ridOf env request = rid

theorem filed_empty (env : Env) : Filed env fun _ => none := by
  intro tid scores zset rid member
  obtain rfl := Except.ok.inj zset
  cases member

theorem Filed.hset (filed : Filed env db) {request : Request} (done : addHset env request db = .ok after) :
    Filed env after := by
  intro tid scores zset rid member
  have apart : REQUEST_HASH_KEY_NAMESPACE tid ≠ REQUEST_NAMESPACE request.recive := by
    intro same
    have held := (Redis.holds_hset done).mpr (.inl ⟨rfl, rfl, rfl⟩)
    rw [same, Redis.zsetAt_of_holds held] at zset
    cases zset
  rw [Redis.zsetAt_congr (Redis.hset_of_ne done apart)] at zset
  obtain ⟨old, held, named⟩ := filed tid scores zset rid member
  by_cases here : REQUEST_NAMESPACE tid = REQUEST_NAMESPACE request.recive ∧ rid = ridOf env request
  · exact ⟨request, (Redis.holds_hset done).mpr (.inl ⟨here.1, here.2, rfl⟩), here.2.symm⟩
  · exact ⟨old, (Redis.holds_hset done).mpr (.inr ⟨here, held⟩), named⟩

theorem Filed.zadd (filed : Filed env db) {request : Request}
    (held : Redis.Holds db (REQUEST_NAMESPACE request.recive) (ridOf env request) (.record request))
    (done : addZadd env request db = .ok after) : Filed env after := by
  intro tid scores zset rid member
  obtain ⟨before, read, rfl⟩ := Redis.map_ok.mp done
  by_cases own : tid = request.recive
  · subst own
    rw [Redis.zsetAt, Function.update_self] at zset
    obtain rfl := Except.ok.inj zset
    rcases (AList.mem_insert before).mp member with rfl | old
    · exact ⟨request, (Redis.holds_zadd done).mpr held, rfl⟩
    · obtain ⟨first, still, named⟩ := filed request.recive before read rid old
      exact ⟨first, (Redis.holds_zadd done).mpr still, named⟩
  · have apart : REQUEST_HASH_KEY_NAMESPACE tid ≠ REQUEST_HASH_KEY_NAMESPACE request.recive :=
      fun same => own (splitNamespace_inj same)
    rw [Redis.zsetAt_congr (Redis.zadd_of_ne done apart)] at zset
    obtain ⟨old, still, named⟩ := filed tid scores zset rid member
    exact ⟨old, (Redis.holds_zadd done).mpr still, named⟩

theorem Filed.add (filed : Filed env db) (request : Request) : Filed env (perform env db (.add request)) := by
  rw [perform]
  rcases addRequest_cases env request db with ⟨-, same⟩ | ⟨hashed, wrote, ⟨-, same⟩ | ranked⟩
  · rwa [same]
  · rw [same]
    exact filed.hset wrote
  · exact (filed.hset wrote).zadd (holds_addHset wrote) ranked

/-- A run that calls `addRequest` alone. -/
def Adds (h : List (Redis.Db Stored × Call)) : Prop := ∀ call ∈ labels h, ∃ request, call = .add request

theorem run_filed (run : Run env h db) (adds : Adds h) : Filed env db := by
  unfold Adds at adds
  induction run with
  | nil => exact filed_empty env
  | @snoc h t u call before taken ih =>
    rw [labels_append, List.forall_mem_append] at adds
    obtain ⟨request, rfl⟩ := adds.2 call (by simp)
    rw [Step] at taken
    rw [taken]
    exact (ih adds.1).add request

/-! ### Listed requests -/

def recordAt (db : Redis.Db Stored) (tid rid : String) : Option Stored :=
  match Redis.hget db (REQUEST_NAMESPACE tid) rid with
  | .ok stored => stored
  | .error _ => none

def ridFrom (env : Env) : Option Stored → Option String
  | some (.record request) => some (ridOf env request)
  | _ => none

theorem Filed.recordAt (filed : Filed env db) (zset : Redis.zsetAt db (REQUEST_HASH_KEY_NAMESPACE tid) = .ok scores)
    {rid : String} (member : rid ∈ scores) :
    Redis.hget db (REQUEST_NAMESPACE tid) rid = .ok (recordAt db tid rid) ∧
      ridFrom env (recordAt db tid rid) = some rid := by
  obtain ⟨request, held, named⟩ := filed tid scores zset rid member
  have read : Redis.hget db (REQUEST_NAMESPACE tid) rid = .ok (some (.record request)) := held
  rw [RequestSystem.recordAt, read]
  exact ⟨rfl, congrArg some named⟩

theorem getAllRequest_all (filed : Filed env db)
    (zset : Redis.zsetAt db (REQUEST_HASH_KEY_NAMESPACE tid) = .ok scores) (size : Int) :
    getAllRequest size tid none db =
      .ok ((window (ranked scores) 0 9007199254740991).map (RequestSystem.recordAt db tid)) := by
  have keys : requestKeys size tid none db = .ok (range scores 0 9007199254740991) := by
    rw [requestKeys, Redis.zrange, zset]
    rfl
  rw [getAllRequest, keys, ← range_eq_window]
  exact mapM_eq_map _ fun rid listed => (filed.recordAt zset (mem_of_mem_range listed)).1

theorem getAllRequest_page (filed : Filed env db)
    (zset : Redis.zsetAt db (REQUEST_HASH_KEY_NAMESPACE tid) = .ok scores) (size : Nat) {page : Int}
    (later : 1 ≤ page) :
    getAllRequest size tid (some page) db = .ok ((pageOf size page (ranked scores)).map (RequestSystem.recordAt db tid)) := by
  have keys : requestKeys size tid (some page) db = .ok (range scores (page - 1 * size) (page * size)) := by
    unfold requestKeys
    split
    · rename_i none
      cases none
    · rename_i zero
      obtain rfl := Option.some.inj zero
      omega
    · rename_i same
      obtain rfl := Option.some.inj same
      rw [Redis.zrange, zset]
      rfl
  rw [getAllRequest, keys, pageOf, ← range_eq_window]
  exact mapM_eq_map _ fun rid listed => (filed.recordAt zset (mem_of_mem_range listed)).1

/-- The pages agree with the full listing: each has at most `size` records, and one after the other they
have every record in its order. -/
def Paged (size : Nat) (tid : String) (db : Redis.Db Stored) : Prop :=
  ∃ scores all, Redis.zsetAt db (REQUEST_HASH_KEY_NAMESPACE tid) = .ok scores ∧
    getAllRequest size tid none db = .ok all ∧
    (∀ page : Int, 1 ≤ page → ∃ records, getAllRequest size tid (some page) db = .ok records ∧
      records.length ≤ size) ∧
    ∃ pages, ((List.range ((scores.entries.length + size - 1) / size)).mapM fun i : Nat =>
      getAllRequest size tid (some (i + 1)) db) = .ok pages ∧ pages.flatten = all

theorem records_eq_iff (filed : Filed env db)
    (zset : Redis.zsetAt db (REQUEST_HASH_KEY_NAMESPACE tid) = .ok scores) {keys keys' : List String}
    (members : ∀ key ∈ keys, key ∈ scores) (members' : ∀ key ∈ keys', key ∈ scores) :
    keys.map (recordAt db tid) = keys'.map (recordAt db tid) ↔ keys = keys' := by
  have back : ∀ keys : List String, (∀ key ∈ keys, key ∈ scores) →
      (keys.map (recordAt db tid)).map (ridFrom env) = keys.map some := by
    intro keys members
    rw [List.map_map]
    exact List.map_congr_left fun key member => (filed.recordAt zset (members key member)).2
  constructor
  · intro same
    have rids := congrArg (List.map (ridFrom env)) same
    rw [back keys members, back keys' members'] at rids
    exact (List.map_injective_iff.mpr (Option.some_injective _)) rids
  · exact congrArg _

theorem mem_pageOf {size : Nat} {page : Int} {key : String} (listed : key ∈ pageOf size page (ranked scores)) :
    key ∈ scores := by
  rw [pageOf, ← range_eq_window] at listed
  exact mem_of_mem_range listed

theorem paged_iff_fits (filed : Filed env db)
    (zset : Redis.zsetAt db (REQUEST_HASH_KEY_NAMESPACE tid) = .ok scores) (positive : 1 ≤ size) :
    Paged size tid db ↔ Fits scores.entries.length size := by
  have all := getAllRequest_all filed zset size
  have each : ∀ i : Nat, getAllRequest size tid (some (i + 1)) db =
      .ok ((pageOf size (i + 1) (ranked scores)).map (recordAt db tid)) :=
    fun i => getAllRequest_page filed zset size (by omega)
  have listed := mapM_eq_map (List.range ((scores.entries.length + size - 1) / size)) fun i _ => each i
  have joined : ((List.range ((scores.entries.length + size - 1) / size)).map fun i : Nat =>
      (pageOf size (i + 1) (ranked scores)).map (recordAt db tid)).flatten =
        (allPages size (ranked scores)).map (recordAt db tid) := by
    rw [allPages, length_ranked, List.map_flatMap]
    rfl
  have inside : ∀ key ∈ allPages size (ranked scores), key ∈ scores := by
    intro key member
    obtain ⟨i, -, present⟩ := List.mem_flatMap.mp member
    exact mem_pageOf present
  have inside' : ∀ key ∈ window (ranked scores) 0 9007199254740991, key ∈ scores := by
    intro key member
    rw [← range_eq_window] at member
    exact mem_of_mem_range member
  rw [← length_ranked, ← pages_iff (nodup_ranked scores) positive]
  constructor
  · rintro ⟨scores', records, zset', read, short, pages, concat, same⟩
    obtain rfl := Except.ok.inj (zset.symm.trans zset')
    obtain rfl := Except.ok.inj (all.symm.trans read)
    obtain rfl := Except.ok.inj (listed.symm.trans concat)
    refine ⟨fun page later => ?_, (records_eq_iff filed zset inside inside').mp (joined.symm.trans same)⟩
    obtain ⟨records, read, bound⟩ := short page later
    obtain rfl := Except.ok.inj ((getAllRequest_page filed zset size later).symm.trans read)
    rwa [List.length_map] at bound
  · rintro ⟨short, whole⟩
    refine ⟨scores, _, zset, all, fun page later => ?_, _, listed, by rw [joined, whole]⟩
    exact ⟨_, getAllRequest_page filed zset size later, by rw [List.length_map]; exact short page later⟩

/-- In a state that only `addRequest` calls have built, the pages agree with the listing exactly if the
sorted set of the recipient can be read and fits. -/
theorem paged_iff (run : Run env h db) (adds : Adds h) (tid : String) {size : Nat} (positive : 1 ≤ size) :
    Paged size tid db ↔ ∃ scores, Redis.zsetAt db (REQUEST_HASH_KEY_NAMESPACE tid) = .ok scores ∧
      Fits scores.entries.length size := by
  have filed := run_filed run adds
  constructor
  · intro paged
    obtain ⟨scores, -, zset, -⟩ := id paged
    exact ⟨scores, zset, (paged_iff_fits filed zset positive).mp paged⟩
  · rintro ⟨scores, zset, fits⟩
    exact (paged_iff_fits filed zset positive).mpr fits

theorem two_added : ∃ h db, Run sampleEnv h db ∧ labels h = [.add sampleRequest, .add laterRequest] ∧
    getAllRequest 2 "2" none db = .ok [some (.record sampleRequest), some (.record laterRequest)] ∧
    getAllRequest 2 "2" (some 1) db = .ok [some (.record laterRequest)] ∧
    ∃ scores, Redis.zsetAt db (REQUEST_HASH_KEY_NAMESPACE "2") = .ok scores ∧ scores.entries.length = 2 := by
  have first : Run sampleEnv [(fun _ => none, .add sampleRequest)] _ := .snoc .nil rfl
  have run := first.snoc (l := .add laterRequest) rfl
  exact ⟨_, _, run, rfl, rfl, rfl, _, rfl, rfl⟩

theorem paged_iff_sample : ∃ h db, Run sampleEnv h db ∧ labels h = [.add sampleRequest, .add laterRequest] ∧
    (Paged 10 "2" db ↔ ∃ scores, Redis.zsetAt db (REQUEST_HASH_KEY_NAMESPACE "2") = .ok scores ∧
      Fits scores.entries.length 10) := by
  obtain ⟨h, db, run, calls, -⟩ := two_added
  exact ⟨h, db, run, calls, paged_iff run (by simp [Adds, calls]) "2" (by decide)⟩

/-- Of two requests, on pages of two, the first is on no page. -/
theorem first_request_unpaged : ∃ h db, Run sampleEnv h db ∧
    labels h = [.add sampleRequest, .add laterRequest] ∧
    getAllRequest 2 "2" none db = .ok [some (.record sampleRequest), some (.record laterRequest)] ∧
    getAllRequest 2 "2" (some 1) db = .ok [some (.record laterRequest)] ∧ ¬ Paged 2 "2" db := by
  obtain ⟨h, db, run, calls, all, page, scores, zset, two⟩ := two_added
  have filed := run_filed run (by simp [Adds, calls])
  refine ⟨h, db, run, calls, all, page, ?_⟩
  rw [paged_iff_fits filed zset (by decide), two, Fits]
  omega

end TacoBack.RequestSystem
