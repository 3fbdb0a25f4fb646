import TacoBack.Lib.Transition
import TacoBack.Notice.Service

/-!
# Delivery of notices

Calls of `getNotice`, each cut between its two commands, with insertions in between. The second
command removes whatever is at the ranks the first has read.
-/

namespace TacoBack.NoticeSystem

open NoticeService Transition

variable {S : Type} [LinearOrder S]

/-- A call of `getNotice` that has read, with what it returns. -/
structure Reading where
  tid : String
  page : Int
  res : List String

inductive Event where
  | insert (tid notice : String)
  | read (tid : String) (page : Int)
  | remove (call : Reading)

/-- `running` are the calls between their two commands. The last three fields only record what
happened. -/
structure State (S : Type) where
  sets : SortedSets S
  running : List Reading
  inserted : List (String × String)
  returned : List Reading
  removed : List (String × String)

def init : State S where
  sets := fun _ => ∅
  running := []
  inserted := []
  returned := []
  removed := []

inductive Step (size : Int) (s : State S) : Event → State S → Prop where
  | insert {tid notice score} (distinct : (tid, notice) ∉ s.inserted) :
      Step size s (.insert tid notice)
        { s with sets := insertNotice tid notice score s.sets, inserted := s.inserted ++ [(tid, notice)] }
  | read {tid page} (page_pos : 1 ≤ page) :
      Step size s (.read tid page)
        { s with
          running := s.running ++ [⟨tid, page, zrangePage size tid page s.sets⟩]
          returned := s.returned ++ [⟨tid, page, zrangePage size tid page s.sets⟩] }
  | remove {pre call post} (here : s.running = pre ++ call :: post) :
      Step size s (.remove call)
        { s with
          sets := zremrangePage size call.tid call.page s.sets
          running := pre ++ post
          removed := s.removed ++ (zrangePage size call.tid call.page s.sets).map fun notice => (call.tid, notice) }

abbrev History (S : Type) := List (State S × Event)

abbrev Run (size : Int) : History S → State S → Prop := Transition.Run (Step size) init

/-- How many calls have returned the notice. -/
def deliveries (calls : List Reading) (tid notice : String) : Nat :=
  calls.countP fun call => call.tid == tid && call.res.contains notice

structure Delivered (s : State S) : Prop where
  once : ∀ tid notice, (tid, notice) ∈ s.removed → deliveries s.returned tid notice = 1
  notTwice : ∀ tid notice, deliveries s.returned tid notice ≤ 1

/-! ### One step -/

/-- A read finds nothing that was returned before, and a removal nothing that was not. -/
def Clear (size : Int) (s : State S) : Event → Prop
  | .insert _ _ => True
  | .read tid page => ∀ notice ∈ zrangePage size tid page s.sets, deliveries s.returned tid notice = 0
  | .remove call => ∀ notice ∈ zrangePage size call.tid call.page s.sets,
      0 < deliveries s.returned call.tid notice

variable {size : Int} {s s' : State S} {event : Event}

omit [LinearOrder S] in
theorem deliveries_snoc {calls : List Reading} {call : Reading} {tid notice : String} :
    deliveries (calls ++ [call]) tid notice =
      deliveries calls tid notice + if call.tid = tid ∧ notice ∈ call.res then 1 else 0 := by
  simp [deliveries, List.countP_append, List.countP_singleton]

theorem Step.delivered_iff (taken : Step size s event s') (delivered : Delivered s) :
    Delivered s' ↔ Clear size s event := by
  cases taken with
  | insert => exact iff_of_true ⟨delivered.once, delivered.notTwice⟩ trivial
  | @read tid page =>
    constructor
    · intro after notice found
      have bound := after.notTwice tid notice
      rw [deliveries_snoc, if_pos ⟨rfl, found⟩] at bound
      omega
    · intro clear
      have counted : ∀ owner notice, deliveries (s.returned ++ [⟨tid, page, zrangePage size tid page s.sets⟩]) owner notice
          ≤ 1 := by
        intro owner notice
        rw [deliveries_snoc]
        split
        · rename_i found
          have none := clear notice found.2
          rw [show owner = tid from found.1.symm, none]
        · exact delivered.notTwice owner notice
      refine ⟨fun owner notice gone => ?_, counted⟩
      have before := delivered.once owner notice gone
      have now := counted owner notice
      rw [deliveries_snoc] at now ⊢
      omega
  | @remove pre call post here =>
    constructor
    · intro after notice found
      have one := after.once call.tid notice (List.mem_append_right _ (List.mem_map_of_mem found))
      show 0 < deliveries s.returned call.tid notice
      rw [show deliveries s.returned call.tid notice = 1 from one]
      exact Nat.one_pos
    · intro clear
      refine ⟨fun owner notice gone => ?_, delivered.notTwice⟩
      rcases List.mem_append.mp gone with before | now
      · exact delivered.once owner notice before
      · obtain ⟨found, read, same⟩ := List.mem_map.mp now
        obtain ⟨rfl, rfl⟩ := Prod.mk.inj same
        have bound := delivered.notTwice call.tid found
        have some := clear found read
        show deliveries s.returned call.tid found = 1
        omega

omit [LinearOrder S] in
theorem init_delivered : Delivered (init : State S) := ⟨by simp [init], by simp [init, deliveries]⟩

/-! ### Undisturbed runs -/

/-- Between the commands of a call its ranks have not moved, and no other call reads what it holds. -/
def Undisturbed (size : Int) (s : State S) : Event → Prop
  | .insert _ _ => True
  | .read tid page => ∀ call ∈ s.running, call.tid = tid →
      ∀ notice ∈ zrangePage size tid page s.sets, notice ∉ call.res
  | .remove call => zrangePage size call.tid call.page s.sets = call.res

/-- A returned notice that is still in its sorted set is held by a running call. -/
structure Held (s : State S) : Prop where
  members : ∀ tid notice, notice ∈ s.sets (NOTICE_NAMESPACE tid) → (tid, notice) ∈ s.inserted
  returned : ∀ call ∈ s.returned, ∀ notice ∈ call.res, (call.tid, notice) ∈ s.inserted ∧
    (notice ∈ s.sets (NOTICE_NAMESPACE call.tid) →
      ∃ holder ∈ s.running, holder.tid = call.tid ∧ notice ∈ holder.res)
  running : ∀ call ∈ s.running, call ∈ s.returned

omit [LinearOrder S] in
theorem deliveries_pos {calls : List Reading} {tid notice : String} :
    0 < deliveries calls tid notice ↔ ∃ call ∈ calls, call.tid = tid ∧ notice ∈ call.res := by
  simp [deliveries, List.countP_pos_iff]

theorem Held.clear (held : Held s) (undisturbed : Undisturbed size s event)
    (here : ∀ call, event = .remove call → call ∈ s.running) : Clear size s event := by
  cases event with
  | insert => trivial
  | read tid page =>
    intro notice found
    apply Nat.eq_zero_of_not_pos
    intro before
    obtain ⟨call, member, rfl, old⟩ := deliveries_pos.mp before
    obtain ⟨holder, running, same, holds⟩ := (held.returned call member notice old).2 (mem_of_mem_zrangePage found)
    exact undisturbed holder running same notice found holds
  | remove call =>
    intro notice found
    have own : notice ∈ call.res := by
      rw [← show zrangePage size call.tid call.page s.sets = call.res from undisturbed]
      exact found
    exact deliveries_pos.mpr ⟨call, held.running call (here call rfl), rfl, own⟩

theorem Step.held (taken : Step size s event s') (undisturbed : Undisturbed size s event) (held : Held s) :
    Held s' := by
  cases taken with
  | @insert tid notice score distinct =>
    constructor
    · intro owner member found
      rcases mem_insertNotice.mp found with ⟨rfl, rfl⟩ | old
      · simp
      · exact List.mem_append_left _ (held.members owner member old)
    · intro call returned member read
      obtain ⟨before, holder⟩ := held.returned call returned member read
      refine ⟨List.mem_append_left _ before, fun found => ?_⟩
      rcases mem_insertNotice.mp found with ⟨rfl, rfl⟩ | old
      · exact absurd before distinct
      · exact holder old
    · exact held.running
  | @read tid page =>
    refine ⟨held.members, fun call returned notice read => ?_, fun call running => ?_⟩
    · rcases List.mem_append.mp returned with old | new
      · obtain ⟨before, holder⟩ := held.returned call old notice read
        refine ⟨before, fun found => ?_⟩
        obtain ⟨other, running, same, holds⟩ := holder found
        exact ⟨other, List.mem_append_left _ running, same, holds⟩
      · obtain rfl := List.mem_singleton.mp new
        exact ⟨held.members tid notice (mem_of_mem_zrangePage read),
          fun _ => ⟨_, List.mem_append_right _ new, rfl, read⟩⟩
    · rcases List.mem_append.mp running with old | new
      · exact List.mem_append_left _ (held.running call old)
      · exact List.mem_append_right _ new
  | @remove pre call post here =>
    have exactly : zrangePage size call.tid call.page s.sets = call.res := undisturbed
    refine ⟨fun tid notice found => ?_, fun other returned notice read => ?_, fun other running => ?_⟩
    · exact held.members tid notice (mem_zremrangePage.mp found).1
    · obtain ⟨before, holder⟩ := held.returned other returned notice read
      refine ⟨before, fun found => ?_⟩
      obtain ⟨old, kept⟩ := mem_zremrangePage.mp found
      obtain ⟨other', running, same, holds⟩ := holder old
      rw [here] at running
      rcases List.mem_append.mp running with front | back
      · exact ⟨other', List.mem_append_left _ front, same, holds⟩
      · rcases List.mem_cons.mp back with rfl | rest
        · exact absurd ⟨same.symm, exactly ▸ holds⟩ kept
        · exact ⟨other', List.mem_append_right _ rest, same, holds⟩
    · apply held.running
      rw [here]
      exact (List.Sublist.append_left (List.sublist_cons_self call post) pre).subset running

omit [LinearOrder S] in
theorem init_held : Held (init : State S) :=
  ⟨fun _ _ found => absurd found (AList.notMem_empty _), by simp [init], by simp [init]⟩

theorem Step.remove_running {call : Reading} (taken : Step size s (.remove call) s') : call ∈ s.running := by
  cases taken with
  | remove here =>
    rw [here]
    simp

variable {h : History S}

theorem everywhere_delivered_iff (run : Run size h s) :
    Everywhere Delivered h s ↔ ∀ x ∈ h, Clear size x.1 x.2 :=
  run.everywhere_iff init_delivered fun _ _ _ _ _ taken delivered => taken.delivered_iff delivered

theorem run_clear (run : Run size h s) (undisturbed : ∀ x ∈ h, Undisturbed size x.1 x.2) :
    Held s ∧ ∀ x ∈ h, Clear size x.1 x.2 := by
  induction run with
  | nil => exact ⟨init_held, by simp⟩
  | @snoc past state next event before taken ih =>
    rw [List.forall_mem_append, List.forall_mem_singleton] at undisturbed ⊢
    obtain ⟨held, earlier⟩ := ih undisturbed.1
    have running : ∀ call, event = .remove call → call ∈ state.running := by
      intro call same
      subst same
      exact taken.remove_running
    exact ⟨taken.held undisturbed.2 held, earlier, held.clear undisturbed.2 running⟩

/-- Notices are delivered exactly once where no step is disturbed, and to the letter where every step
is clear. -/
theorem everywhere_delivered (run : Run size h s) :
    ((∀ x ∈ h, Undisturbed size x.1 x.2) → Everywhere Delivered h s) ∧
    (Everywhere Delivered h s ↔ ∀ x ∈ h, Clear size x.1 x.2) := by
  have exactly := everywhere_delivered_iff run
  exact ⟨fun undisturbed => exactly.mpr (run_clear run undisturbed).2, exactly⟩

theorem everywhere_delivered_sample : ∃ (h : History Int) (s : State Int), Run 10 h s ∧
    labels h = [.insert "1" "hello", .read "1" 1, .remove ⟨"1", 1, ["hello"]⟩] ∧
    s.removed = [("1", "hello")] ∧ Everywhere Delivered h s := by
  have inserted : Run 10 _ _ := Transition.Run.nil.snoc (@Step.insert Int _ 10 init "1" "hello" 0 (by simp [init]))
  have read := inserted.snoc (@Step.read Int _ 10 _ "1" 1 (by decide))
  have removed := read.snoc (@Step.remove Int _ 10 _ [] _ [] rfl)
  refine ⟨_, _, removed, rfl, rfl, (everywhere_delivered removed).1 ?_⟩
  rw [List.forall_mem_append, List.forall_mem_append, List.forall_mem_append]
  simp [Undisturbed, init]

/-- Two calls read the same notice, and a notice that comes between the commands of a call is removed
unread. -/
theorem notices_doubled_and_lost :
    (∃ (h : History Int) (s : State Int), Run 10 h s ∧
      labels h = [.insert "1" "hello", .read "1" 1, .read "1" 1] ∧ deliveries s.returned "1" "hello" = 2) ∧
    ∃ (h : History Int) (s : State Int), Run 10 h s ∧
      labels h = [.insert "1" "hello", .read "1" 1, .insert "1" "again", .remove ⟨"1", 1, ["hello"]⟩] ∧
      ("1", "again") ∈ s.removed ∧ deliveries s.returned "1" "again" = 0 := by
  have inserted : Run 10 _ _ := Transition.Run.nil.snoc (@Step.insert Int _ 10 init "1" "hello" 0 (by simp [init]))
  have read := inserted.snoc (@Step.read Int _ 10 _ "1" 1 (by decide))
  constructor
  · exact ⟨_, _, read.snoc (@Step.read Int _ 10 _ "1" 1 (by decide)), rfl, rfl⟩
  · have second := read.snoc (@Step.insert Int _ 10 _ "1" "again" 1 (by simp [init]))
    exact ⟨_, _, second.snoc (@Step.remove Int _ 10 _ [] _ [] rfl), rfl, .tail _ (.head _), rfl⟩

/-! ### Calls that do not overlap -/

/-- Nothing comes between the commands of a running call on its sorted set. -/
def Alone (s : State S) : Event → Prop
  | .insert tid _ | .read tid _ => ∀ call ∈ s.running, call.tid ≠ tid
  | .remove _ => True

structure Still (size : Int) (s : State S) : Prop where
  ranks : ∀ call ∈ s.running, zrangePage size call.tid call.page s.sets = call.res
  apart : s.running.Pairwise fun call other => call.tid ≠ other.tid

theorem Step.still (taken : Step size s event s') (alone : Alone s event) (still : Still size s) : Still size s' := by
  cases taken with
  | @insert tid notice score =>
    refine ⟨fun call running => ?_, still.apart⟩
    rw [← still.ranks call running]
    exact zrangePage_congr (Function.update_of_ne (fun same => alone call running (noticeNamespace_inj same)) _ _)
  | @read tid page =>
    constructor
    · intro call running
      rcases List.mem_append.mp running with old | new
      · exact still.ranks call old
      · obtain rfl := List.mem_singleton.mp new
        rfl
    · refine List.pairwise_append.mpr ⟨still.apart, List.pairwise_singleton _ _, fun call running new member => ?_⟩
      obtain rfl := List.mem_singleton.mp member
      exact alone call running
  | @remove pre call post here =>
    have apart := still.apart
    rw [here, List.pairwise_middle fun distinct => distinct.symm, List.pairwise_cons] at apart
    refine ⟨fun other running => ?_, apart.2⟩
    have before : other ∈ s.running := by
      rw [here]
      exact (List.Sublist.append_left (List.sublist_cons_self call post) pre).subset running
    rw [← still.ranks other before]
    apply zrangePage_congr
    exact Function.update_of_ne (fun same => apart.1 other running (noticeNamespace_inj same).symm) _ _

/-- Calls that do not overlap lose nothing and deliver nothing twice. -/
theorem alone_delivered (run : Run size h s) (alone : ∀ x ∈ h, Alone x.1 x.2) : Everywhere Delivered h s := by
  have undisturbed : Still size s ∧ ∀ x ∈ h, Undisturbed size x.1 x.2 := by
    induction run with
    | nil => exact ⟨⟨by simp [init], by simp [init]⟩, by simp⟩
    | @snoc past state next event before taken ih =>
      rw [List.forall_mem_append, List.forall_mem_singleton] at alone ⊢
      obtain ⟨still, earlier⟩ := ih alone.1
      refine ⟨taken.still alone.2 still, earlier, ?_⟩
      cases event with
      | insert => trivial
      | read tid page => exact fun call running same => absurd same (alone.2 call running)
      | remove call => exact still.ranks call taken.remove_running
  exact (everywhere_delivered_iff run).mpr (run_clear run undisturbed.2).2

end TacoBack.NoticeSystem
