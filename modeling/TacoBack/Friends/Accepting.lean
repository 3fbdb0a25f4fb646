import TacoBack.Friends.Progress

/-!
# Accepting a request

`accept` saves both edges in a transaction and has the request removed before it commits. The session is
opened before the clock is checked, and only what comes after the check closes it.
-/

namespace TacoBack.FriendsService

open RequestService RequestSystem

inductive SessionCommand where
  | saveFirst
  | saveSecond
  | commit
  | abort

/-- How `request.remove` ends: what the channel rejects with, and what it leaves of the store. -/
structure Removal where
  fault : Option Failure
  redis : Redis.Db Stored

/-- `sessions` counts the open ones. -/
structure AcceptStore where
  now : Int
  friends : List Friend
  redis : Redis.Db Stored
  sessions : Nat

/-- The `try` block. What is saved shows with the commit. -/
def acceptTry (faults : SessionCommand → Option Failure) (removal : Removal) (dto : Request) (s : AcceptStore) :
    Except Failure Unit × AcceptStore :=
  match faults .saveFirst with
  | some e => (.error e, s)
  | none =>
    match faults .saveSecond with
    | some e => (.error e, s)
    | none =>
      match removal.fault with
      | some e => (.error e, { s with redis := removal.redis })
      | none =>
        match faults .commit with
        | some e => (.error e, { s with redis := removal.redis })
        | none => (.ok (), { s with redis := removal.redis, friends := s.friends ++ edges dto })

def endSession (s : AcceptStore) : AcceptStore := { s with sessions := s.sessions - 1 }

/-- The `catch` block aborts, which may reject as well; the `finally` block ends the session. -/
def accept (faults : SessionCommand → Option Failure) (removal : Removal) (dto : Request) (s : AcceptStore) :
    Except Failure Unit × AcceptStore :=
  let opened := { s with sessions := s.sessions + 1 }
  if isExpired dto s.now then (.error (.service .REQUEST_EXPIRED .BAD_REQUEST), opened)
  else
    match acceptTry faults removal dto opened with
    | (.ok (), t) => (.ok (), endSession t)
    | (.error _, t) =>
      (attempt (faults .abort) (.error (.service .UNKNOWN_ERROR .INTERNAL_SERVER_ERROR)), endSession t)

def SameRequests (redis other : Redis.Db Stored) : Prop :=
  ∀ tid rid stored, Redis.Holds other (REQUEST_NAMESPACE tid) rid stored ↔ Redis.Holds redis (REQUEST_NAMESPACE tid) rid stored

def Restores (faults : SessionCommand → Option Failure) (removal : Removal) (dto : Request) (s : AcceptStore) : Prop :=
  ∀ e t, accept faults removal dto s = (.error e, t) →
    t.friends = s.friends ∧ SameRequests s.redis t.redis ∧ t.sessions = s.sessions

/-- A missing rid is sent as the empty text. -/
def removedRid (dto : Request) : String := dto.rid.getD ""

def Deletes (removal : Removal) (dto : Request) (redis : Redis.Db Stored) : Prop :=
  removal.fault = none → removeRequest dto.recive (removedRid dto) redis = .ok removal.redis

/-- The request has not expired. If both edges are saved, a `request.remove` that rejects has deleted
nothing, and after one that succeeds the commit does too, or there was no such request. -/
def Undoable (faults : SessionCommand → Option Failure) (removal : Removal) (dto : Request) (s : AcceptStore) : Prop :=
  isExpired dto s.now = false ∧ (faults .saveFirst = none → faults .saveSecond = none →
    (removal.fault ≠ none → SameRequests s.redis removal.redis) ∧
      (removal.fault = none → faults .commit = none ∨
        ∀ stored, ¬ Redis.Holds s.redis (REQUEST_NAMESPACE dto.recive) (removedRid dto) stored))

variable {faults : SessionCommand → Option Failure} {removal : Removal} {dto : Request} {s t : AcceptStore}

theorem SameRequests.refl (redis : Redis.Db Stored) : SameRequests redis redis := fun _ _ _ => Iff.rfl

theorem sameRequests_removed_iff {tid rid : String} {redis removed : Redis.Db Stored}
    (done : removeRequest tid rid redis = .ok removed) : SameRequests redis removed ↔
      ∀ stored, ¬ Redis.Holds redis (REQUEST_NAMESPACE tid) rid stored := by
  have after : ∀ owner field stored, Redis.Holds removed (REQUEST_NAMESPACE owner) field stored ↔ _ :=
    fun owner field stored => Redis.holds_hdel done
  constructor
  · intro same stored held
    have still := (after tid rid stored).mp ((same tid rid stored).mpr held)
    exact still.1 ⟨rfl, rfl⟩
  · intro absent owner field stored
    rw [after]
    refine and_iff_right_of_imp fun held both => ?_
    rw [both.1, both.2] at held
    exact absent stored held

/-- What an `accept` leaves: an open session where the request has expired, nothing new where a save
fails, and what `request.remove` left where it or the commit fails. -/
theorem accept_cases (faults : SessionCommand → Option Failure) (removal : Removal) (dto : Request) (s : AcceptStore) :
    (isExpired dto s.now = true ∧ accept faults removal dto s =
      (.error (.service .REQUEST_EXPIRED .BAD_REQUEST), { s with sessions := s.sessions + 1 })) ∨
    (isExpired dto s.now = false ∧
      (((faults .saveFirst ≠ none ∨ faults .saveSecond ≠ none) ∧ ∃ e, accept faults removal dto s = (.error e, s)) ∨
      (faults .saveFirst = none ∧ faults .saveSecond = none ∧
        (((removal.fault ≠ none ∨ faults .commit ≠ none) ∧
            ∃ e, accept faults removal dto s = (.error e, { s with redis := removal.redis })) ∨
          (removal.fault = none ∧ faults .commit = none ∧ accept faults removal dto s =
            (.ok (), { s with redis := removal.redis, friends := s.friends ++ edges dto })))))) := by
  have rejected : ∃ e, attempt (faults .abort) (.error (.service .UNKNOWN_ERROR .INTERNAL_SERVER_ERROR)) =
      (.error e : Except Failure Unit) := by
    cases faults .abort <;> exact ⟨_, rfl⟩
  obtain ⟨e, rejected⟩ := rejected
  unfold accept
  cases expired : isExpired dto s.now with
  | true => exact .inl ⟨rfl, rfl⟩
  | false =>
    refine .inr ⟨rfl, ?_⟩
    unfold acceptTry
    cases first : faults .saveFirst with
    | some _ => exact .inl ⟨.inl nofun, e, by rw [← rejected]; rfl⟩
    | none =>
      cases second : faults .saveSecond with
      | some _ => exact .inl ⟨.inr nofun, e, by rw [← rejected]; rfl⟩
      | none =>
        refine .inr ⟨rfl, rfl, ?_⟩
        cases removed : removal.fault with
        | some _ => exact .inl ⟨.inl nofun, e, by rw [← rejected]; rfl⟩
        | none =>
          cases committed : faults .commit with
          | some _ => exact .inl ⟨.inr nofun, e, by rw [← rejected]; rfl⟩
          | none => exact .inr ⟨rfl, rfl, rfl⟩

theorem restores_iff (deletes : Deletes removal dto s.redis) :
    Restores faults removal dto s ↔ Undoable faults removal dto s := by
  unfold Restores Undoable
  rcases accept_cases faults removal dto s with
    ⟨expired, thrown⟩ | ⟨fresh, ⟨fails, e, thrown⟩ | ⟨first, second, ⟨fails, e, thrown⟩ | ⟨removed, committed, done⟩⟩⟩
  · refine iff_of_false (fun restores => ?_) fun undoable => Bool.false_ne_true (undoable.1.symm.trans expired)
    have open' := (restores _ _ thrown).2.2
    simp at open'
  · refine iff_of_true ?_ ⟨fresh, fun first second => ?_⟩
    · intro _ _ same
      obtain ⟨-, rfl⟩ := Prod.mk.inj (thrown.symm.trans same)
      exact ⟨rfl, .refl _, rfl⟩
    · exact (fails.elim (· first) (· second)).elim
  · have requests : (∀ e t, accept faults removal dto s = (.error e, t) →
        t.friends = s.friends ∧ SameRequests s.redis t.redis ∧ t.sessions = s.sessions) ↔
          SameRequests s.redis removal.redis := by
      refine ⟨fun restores => (restores e _ thrown).2.1, fun same _ _ again => ?_⟩
      obtain ⟨-, rfl⟩ := Prod.mk.inj (thrown.symm.trans again)
      exact ⟨rfl, same, rfl⟩
    rw [requests]
    simp only [fresh, first, second, true_and, forall_const]
    by_cases removed : removal.fault = none
    · rw [sameRequests_removed_iff (deletes removed)]
      have failed : faults .commit ≠ none := fails.resolve_left (· removed)
      simp [removed, failed]
    · simp [removed]
  · refine iff_of_true ?_ ⟨fresh, fun _ _ => ⟨fun failed => (failed removed).elim, fun _ => .inl committed⟩⟩
    intro _ _ same
    cases done.symm.trans same

def requestedStore (now : Int) : AcceptStore where
  now := now
  friends := []
  redis := (addRequest sampleEnv sampleRequest fun _ => none).1
  sessions := 0

def removes : Removal where
  fault := none
  redis := Redis.putHash (requestedStore 0).redis (REQUEST_NAMESPACE "2") ∅

def commitFails : SessionCommand → Option Failure
  | .commit => some .typeError
  | _ => none

theorem removes_deletes (now : Int) : Deletes removes sampleRequest (requestedStore now).redis := by
  intro _
  rfl

/-- The commit of a request that `request.remove` has deleted fails. -/
theorem restores_sample :
    (accept commitFails removes sampleRequest (requestedStore 0)).1 =
      .error (.service .UNKNOWN_ERROR .INTERNAL_SERVER_ERROR) ∧
    (Restores commitFails removes sampleRequest (requestedStore 0) ↔
      Undoable commitFails removes sampleRequest (requestedStore 0)) :=
  ⟨rfl, restores_iff (removes_deletes 0)⟩

/-- An expired request leaves a session open, and a commit that fails leaves neither request nor
friendship. -/
theorem failed_accept_leaves : (∀ now, Deletes removes sampleRequest (requestedStore now).redis) ∧
    (∃ t, accept (fun _ => none) removes sampleRequest (requestedStore 604800001) =
        (.error (.service .REQUEST_EXPIRED .BAD_REQUEST), t) ∧ t.sessions = 1 ∧
      ¬ Restores (fun _ => none) removes sampleRequest (requestedStore 604800001)) ∧
    ∃ t, accept commitFails removes sampleRequest (requestedStore 0) =
        (.error (.service .UNKNOWN_ERROR .INTERNAL_SERVER_ERROR), t) ∧ t.friends = [] ∧
      callRead "2" "1-2-1-9253d76ce549de18" (requestedStore 0).redis = .ok sampleRequest ∧
      callRead "2" "1-2-1-9253d76ce549de18" t.redis = .error (.service .NOT_FIND_REQUEST .BAD_REQUEST) ∧
      ¬ Restores commitFails removes sampleRequest (requestedStore 0) := by
  refine ⟨removes_deletes, ⟨_, rfl, rfl, fun restores => ?_⟩, _, rfl, rfl, rfl, rfl, fun restores => ?_⟩
  · exact absurd (restores _ _ rfl).2.2 (by decide)
  · have same := (restores _ _ rfl).2.1 "2" "1-2-1-9253d76ce549de18" (.record sampleRequest)
    have held := same.mpr (callRead_ok.mp rfl)
    cases held.symm.trans rfl

end TacoBack.FriendsService

namespace TacoBack.FriendSystem

open RequestService FriendsService

variable {env : Env} {driver : Mongo.Driver} {faults : SessionCommand → Option Failure} {removal : Removal}
  {dto : Request}

/-- The handler of `request.remove` did its work, or the channel rejects and it did not. -/
def Handled (env : Env) (removal : Removal) (dto : Request) (redis : Redis.Db Stored) : Prop :=
  removeRequestHandler env (removeArgs dto) redis = .ok removal.redis ∨
    (removal.fault ≠ none ∧ removal.redis = redis)

theorem accept_removes {s : State} {caller : Option Caller} {redis : Redis.Db Stored} {rest : List Task}
    (here : s.tasks = .accept caller dto .started :: rest) (fresh : isExpired dto s.store.now = false)
    (done : removeRequestHandler env (removeArgs dto) s.store.redis = .ok redis) :
    ∃ history, Transition.Run (Step env driver) s history
      { store := { s.store with redis := redis }, tasks := .accept caller dto (.removed s.store.now) :: rest } := by
  have start : Transition.Run (Step env driver) s [] s := .nil
  have opened := start.snoc (.first here (.open fresh))
  have saved := (opened.snoc (.first rfl .saveFirst)).snoc (.first rfl .saveSecond)
  have removed := saved.snoc (.first rfl (.remove done))
  exact ⟨_, removed⟩

theorem accept_reached {s : State} {caller : Option Caller} {rest : List Task}
    (here : s.tasks = .accept caller dto .started :: rest) (handled : Handled env removal dto s.store.redis)
    (sessions : Nat) :
    let t := (accept faults removal dto ⟨s.store.now, s.store.friends, s.store.redis, sessions⟩).2
    ∃ history tasks, Transition.Run (Step env driver) s history
      { store := { s.store with friends := t.friends, redis := t.redis }, tasks := tasks } := by
  rcases accept_cases faults removal dto ⟨s.store.now, s.store.friends, s.store.redis, sessions⟩ with
    ⟨-, left⟩ | ⟨fresh, ⟨-, _, left⟩ | ⟨-, -, ⟨-, _, left⟩ | ⟨removed, -, left⟩⟩⟩
  · rw [left]
    exact ⟨[], s.tasks, .nil⟩
  · rw [left]
    exact ⟨[], s.tasks, .nil⟩
  · rw [left]
    rcases handled with done | ⟨-, same⟩
    · obtain ⟨history, run⟩ := @accept_removes env driver dto s caller _ rest here fresh done
      exact ⟨history, _, run⟩
    · refine ⟨[], s.tasks, ?_⟩
      dsimp only
      rw [same]
      exact .nil
  · rw [left]
    obtain ⟨history, run⟩ := @accept_removes env driver dto s caller _ rest here fresh
      (handled.resolve_right fun failed => failed.1 removed)
    exact ⟨_, _, run.snoc (.first rfl .commit)⟩

end TacoBack.FriendSystem
