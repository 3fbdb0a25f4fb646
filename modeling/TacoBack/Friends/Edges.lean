import TacoBack.Friends.Consent

/-!
# The edges of the friend collection

`accept` inserts both edges of a friendship at once and checks neither. `remove` deletes by the
`_id` of a user document, which is no endpoint of an edge.
-/

namespace TacoBack.FriendSystem

open RequestService FriendsService Transition

variable {env : Env} {driver : Mongo.Driver} {past : List Event}

/-! ### Duplicates -/

theorem edgeCount_edges (dto : Request) (source target : String) :
    edgeCount (edges dto) source target =
      (if dto.sender = source ∧ dto.recive = target then 1 else 0) +
        (if dto.recive = source ∧ dto.sender = target then 1 else 0) := by
  simp only [edgeCount, edges, List.countP_cons, List.countP_nil, isEdge_iff]
  omega

def Unique (s : State) : Prop := ∀ source target, edgeCount s.store.friends source target ≤ 1

def Fresh (s : State) : Event → Prop
  | .accept dto _ => dto.sender ≠ dto.recive ∧ edgeCount s.store.friends dto.sender dto.recive = 0 ∧
      edgeCount s.store.friends dto.recive dto.sender = 0
  | _ => True

theorem unique_append_edges {friends : List Friend} {dto : Request}
    (unique : ∀ source target, edgeCount friends source target ≤ 1) :
    (∀ source target, edgeCount (friends ++ edges dto) source target ≤ 1) ↔
      dto.sender ≠ dto.recive ∧ edgeCount friends dto.sender dto.recive = 0 ∧
        edgeCount friends dto.recive dto.sender = 0 := by
  simp only [edgeCount_append, edgeCount_edges]
  constructor
  · intro still
    have forward := still dto.sender dto.recive
    have backward := still dto.recive dto.sender
    simp only [and_self, if_true] at forward backward
    refine ⟨fun same => ?_, by omega, by omega⟩
    simp only [same, and_self, if_true] at forward
    omega
  · rintro ⟨different, forward, backward⟩ source target
    have before := unique source target
    by_cases sent : dto.sender = source ∧ dto.recive = target
    · obtain ⟨rfl, rfl⟩ := sent
      simp [different.symm, forward]
    · by_cases received : dto.recive = source ∧ dto.sender = target
      · obtain ⟨rfl, rfl⟩ := received
        simp [different, backward]
      · simpa [sent, received] using before

theorem Step.unique_iff {s s' : State} {event : Event} (taken : Step env driver s event s') (unique : Unique s) :
    Unique s' ↔ Fresh s event := by
  rcases taken.friends_cases with ⟨caller, dto, clock, rfl, -, inserted⟩ | ⟨never, trims⟩
  · rw [Unique, inserted]
    exact unique_append_edges unique
  · have fresh : Fresh s event := by
      cases event with
      | accept dto clock => exact (never dto clock rfl).elim
      | _ => trivial
    exact iff_of_true (fun source target => (trims.edgeCount_le source target).trans (unique source target)) fresh

/-- The collection stays free of duplicates in exactly the runs in which every `accept` befriends
two different users who are not friends at that moment. -/
theorem everywhere_unique_iff {now : Int} {history : History} {s : State} (run : Run env driver now history s) :
    Everywhere Unique history s ↔ ∀ x ∈ history, Fresh x.1 x.2 :=
  run.everywhere_iff (by simp [Unique, init]) fun _ _ _ _ _ taken unique => taken.unique_iff unique

theorem everywhere_unique_sample : ∃ history s, Run sampleEnv .standard 0 history s ∧
    (∃ x dto, (x, .accept dto 0) ∈ history) ∧
    (Everywhere Unique history s ↔ ∀ x ∈ history, Fresh x.1 x.2) := by
  obtain ⟨history, s, run, -, -, -, whole, -⟩ :=
    befriend sampleEnv .standard 0 "1" sampleAdd (by decide) (by decide)
  have member : .accept (addedRequest sampleEnv 0 "1" sampleAdd) 0 ∈ labels history := by simp [whole]
  obtain ⟨⟨x, -⟩, step, rfl⟩ := List.mem_map.mp member
  exact ⟨history, s, run, ⟨x, _, step⟩, everywhere_unique_iff run⟩

theorem accepted_twice : ∃ history s, Run sampleEnv .standard 0 history s ∧
    edgeCount s.store.friends "1" "2" = 2 ∧ ¬ Everywhere Unique history s := by
  obtain ⟨first, s, run, idle, clock, friends, -, held, removable⟩ :=
    befriend sampleEnv .standard 0 "1" sampleAdd (by decide) (by decide)
  have fresh : isExpired (addedRequest sampleEnv 0 "1" sampleAdd) s.store.now = false := by
    rw [clock]
    decide
  obtain ⟨second, redis, again, -⟩ :=
    @call_accepts sampleEnv .standard s _ _ _ idle (by decide) held rfl rfl fresh removable
  have twice : edgeCount (s.store.friends ++ edges (addedRequest sampleEnv 0 "1" sampleAdd)) "1" "2" = 2 := by
    rw [friends]
    decide
  refine ⟨_, _, run.append again, twice, fun unique => ?_⟩
  have once := unique.2 "1" "2"
  simp only [twice] at once
  omega

/-! ### Balance -/

def Balanced (friends : List Friend) : Prop :=
  ∀ source target, edgeCount friends source target = edgeCount friends target source

def Calls (past : List Event) (tid : String) : Prop :=
  (∃ target clock, .add tid target clock ∈ past) ∨ ∃ rid status, .call tid rid status ∈ past

def Identifies (past : List Event) (id : String) : Prop :=
  ∃ users user, .users users ∈ past ∧ user ∈ users ∧ user._id = id

theorem Calls.append {tid : String} (calls : Calls past tid) (more : List Event) : Calls (past ++ more) tid := by
  rcases calls with ⟨target, clock, member⟩ | ⟨rid, status, member⟩
  · exact .inl ⟨target, clock, List.mem_append_left _ member⟩
  · exact .inr ⟨rid, status, List.mem_append_left _ member⟩

theorem Identifies.append {id : String} (identifies : Identifies past id) (more : List Event) :
    Identifies (past ++ more) id := by
  obtain ⟨users, user, member, rest⟩ := identifies
  exact ⟨users, user, List.mem_append_left _ member, rest⟩

theorem Consented.calls {dto : Request} (consented : Consented env past dto) :
    Calls past dto.sender ∧ Calls past dto.recive := by
  obtain ⟨before, after, rfl, clock, member, -⟩ := consented
  exact ⟨.inl ⟨dto.recive, clock, List.mem_append_left _ member⟩, .inr ⟨ridOf env dto, .accept, by simp⟩⟩

structure Paired (past : List Event) (s : State) : Prop where
  users : ∀ user ∈ s.store.users, Identifies past user._id
  deletes : ∀ source id, .delete source id ∈ s.tasks → Identifies past id
  targets : ∀ tid ∈ s.store.friends.map Friend.target, Calls past tid
  balanced : Balanced s.store.friends

theorem balanced_edges (dto : Request) : Balanced (edges dto) := by
  intro source target
  simp only [edgeCount_edges, and_comm]
  exact Nat.add_comm _ _

theorem Balanced.append {xs ys : List Friend} (first : Balanced xs) (second : Balanced ys) :
    Balanced (xs ++ ys) := by
  intro source target
  rw [edgeCount_append, edgeCount_append, first source target, second source target]

theorem Balanced.hasFriend_eq {friends : List Friend} (balanced : Balanced friends) (source target : String) :
    hasFriend friends source target = hasFriend friends target source := by
  rw [Bool.eq_iff_iff, hasFriend_iff, hasFriend_iff, balanced source target]

theorem Effect.users {s store : Store} {task : Task} {event : Event} {rest : List Task}
    (effect : Effect env driver s task event store rest) : store.users = s.users := by
  cases effect <;> rfl

theorem Effect.deletes {s store : Store} {task : Task} {event : Event} {rest : List Task} {source id : String}
    (effect : Effect env driver s task event store rest) (member : .delete source id ∈ rest) :
    ∃ user ∈ s.users, user._id = id := by
  cases effect with
  | findUser found =>
    obtain ⟨rfl, rfl⟩ := Task.delete.inj (List.mem_singleton.mp member)
    exact removedId_mem found
  | fail left =>
    rcases leftovers_cases left member with ⟨_, -, same⟩ | ⟨_, _, _, -, same | same⟩ <;> cases same
  | _ => simp at member

/-- No edge ends in the `_id` of a user document, so no edge is deleted. -/
theorem Paired.deleteEdge_eq {s : State} {source id : String} (paired : Paired past s)
    (apart : ∀ id tid, Identifies past id → Calls past tid → id ≠ tid) (waiting : .delete source id ∈ s.tasks) :
    deleteEdge source id s.store.friends = s.store.friends := by
  refine List.eraseP_of_forall_not fun friend member hit => ?_
  have target := paired.targets _ (List.mem_map_of_mem member)
  exact apart id _ (paired.deletes source id waiting) target (isEdge_iff.mp hit).2.symm

theorem Paired.trims_keep {s : State} {friends : List Friend} (paired : Paired past s)
    (apart : ∀ id tid, Identifies past id → Calls past tid → id ≠ tid) (trims : Trims s friends) :
    friends.map Friend.target = s.store.friends.map Friend.target ∧
      ∀ source target, edgeCount friends source target = edgeCount s.store.friends source target := by
  rcases trims with rfl | ⟨owner, dto, rfl⟩ | ⟨owner, id, waiting, rfl⟩
  · exact ⟨rfl, fun _ _ => rfl⟩
  · exact ⟨Mongo.updateOne_map (by intro _; rfl) _, edgeCount_setTag owner dto _⟩
  · rw [paired.deleteEdge_eq apart waiting]
    exact ⟨rfl, fun _ _ => rfl⟩

theorem Step.paired {s s' : State} {event : Event} (taken : Step env driver s event s') (sound : Sound env past s)
    (apart : ∀ id tid, Identifies past id → Calls past tid → id ≠ tid) (paired : Paired past s) :
    Paired (past ++ [event]) s' := by
  have users : ∀ user ∈ s'.store.users, Identifies (past ++ [event]) user._id := by
    cases taken with
    | @users users => exact fun user member => ⟨users, user, by simp, member, rfl⟩
    | run _ effect => exact fun user member => (paired.users user (effect.users ▸ member)).append _
    | _ => exact fun user member => (paired.users user member).append _
  have deletes : ∀ source id, .delete source id ∈ s'.tasks → Identifies (past ++ [event]) id := by
    intro source id member
    cases taken with
    | @run pre task post event store rest here effect =>
      simp only [List.mem_append] at member
      rcases member with (old | new) | old
      · exact (paired.deletes source id (by simp [here, old])).append _
      · obtain ⟨user, stored, rfl⟩ := effect.deletes new
        exact (paired.users user stored).append _
      · exact (paired.deletes source id (by simp [here, old])).append _
    | _ => exact (paired.deletes source id (by simpa using member)).append _
  rcases taken.friends_cases with ⟨caller, dto, clock, rfl, waiting, inserted⟩ | ⟨-, trims⟩
  · refine ⟨users, deletes, fun tid member => ?_, ?_⟩
    · rw [inserted, List.map_append, List.mem_append] at member
      rcases member with old | new
      · exact (paired.targets tid old).append _
      · obtain ⟨sender, recipient⟩ := (sound.1 _ waiting).1.calls
        simp only [edges, List.map_cons, List.map_nil, List.mem_cons, List.not_mem_nil, or_false] at new
        rcases new with rfl | rfl
        · exact recipient.append _
        · exact sender.append _
    · rw [inserted]
      exact paired.balanced.append (balanced_edges dto)
  · obtain ⟨targets, counts⟩ := paired.trims_keep apart trims
    refine ⟨users, deletes, fun tid member => ?_, fun source target => ?_⟩
    · rw [targets] at member
      exact (paired.targets tid member).append _
    · rw [counts, counts, paired.balanced source target]

theorem run_paired {now : Int} {history : History} {s : State} (run : Run env driver now history s)
    (apart : ∀ id tid, Identifies (labels history) id → Calls (labels history) tid → id ≠ tid) :
    Paired (labels history) s := by
  refine Transition.Run.invariant
    (P := fun history s => (∀ id tid, Identifies (labels history) id → Calls (labels history) tid → id ≠ tid) →
      Paired (labels history) s)
    (fun _ => ⟨by simp [init], by simp [init], by simp [init], by simp [init, Balanced]⟩)
    (fun history t event u before paired taken apart => ?_) run apart
  rw [labels_append] at apart ⊢
  have earlier : ∀ id tid, Identifies (labels history) id → Calls (labels history) tid → id ≠ tid :=
    fun id tid identifies calls => apart id tid (identifies.append _) (calls.append _)
  exact taken.paired (run_sound before) earlier (paired earlier)

/-- Friendship is mutual in every state a run reaches, as long as no `_id` is the tid of a caller. -/
theorem friends_balanced {now : Int} {history : History} {s : State} (run : Run env driver now history s)
    (apart : ∀ id tid, Identifies (labels history) id → Calls (labels history) tid → id ≠ tid) (a b : String) :
    edgeCount s.store.friends a b = edgeCount s.store.friends b a ∧
      hasFriend s.store.friends a b = hasFriend s.store.friends b a :=
  have paired := run_paired run apart
  ⟨paired.balanced a b, paired.balanced.hasFriend_eq a b⟩

def sampleUser : Users where
  _id := "660a3b1e9c1f4e0012ab34cd"
  tid := some (.str "2")
  nick := none
  description := none
  password := none
  email := none
  sex := none

theorem friends_balanced_sample : ∃ history s, Run sampleEnv .standard 0 history s ∧
    s.store.users = [sampleUser] ∧ edgeCount s.store.friends "1" "2" = 1 ∧
    edgeCount s.store.friends "1" "2" = edgeCount s.store.friends "2" "1" ∧
      hasFriend s.store.friends "1" "2" = hasFriend s.store.friends "2" "1" := by
  obtain ⟨history, s, run, -, -, friends, whole, -⟩ :=
    befriend sampleEnv .standard 0 "1" sampleAdd (by decide) (by decide)
  have stored : Run sampleEnv .standard 0 (history ++ [(s, .users [sampleUser])]) _ := run.snoc .users
  refine ⟨_, _, stored, rfl, by rw [friends]; decide, friends_balanced stored ?_ "1" "2"⟩
  have callers : ∀ tid, Calls (labels (history ++ [(s, .users [sampleUser])])) tid → tid = "1" ∨ tid = "2" := by
    rintro tid (⟨target, clock, member⟩ | ⟨rid, status, member⟩) <;>
      simp [whole, sampleAdd] at member <;> simp [member]
  rintro id tid ⟨users, user, member, listed, rfl⟩ calls
  simp only [labels_append, whole, labels_cons, labels_nil, List.mem_append, List.mem_cons, List.not_mem_nil,
    or_false, Event.users.injEq, reduceCtorEq, false_or] at member
  subst member
  obtain rfl := List.mem_singleton.mp listed
  rcases callers tid calls with rfl | rfl <;> decide

end TacoBack.FriendSystem
