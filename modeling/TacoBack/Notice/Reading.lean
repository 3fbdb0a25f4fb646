import TacoBack.Notice.Service

/-!
# Reading notices page by page

With no other call running, the pages are read in order. What `setNotice` was to file is not there to be
read.
-/

namespace TacoBack.NoticeService

open SortedSet

/-! ### Pages in order -/

section Pages

variable {S : Type} [LinearOrder S] {size : Nat} {tid : String} {sets : SortedSets S}

/-- The first `count` pages, one `getNotice` after the other, and what is left of the sets. -/
def readPages (size : Int) (tid : String) : Nat → SortedSets S → List (List String) × SortedSets S
  | 0, sets => ([], sets)
  | count + 1, sets =>
    let (pages, left) := readPages size tid count sets
    let (page, rest) := getNotice size tid (count + 1) left
    (pages ++ [page], rest)

/-- `ceil(n/size)` pages have at most `size` notices each, and one after the other they have all notices
in their order. -/
def Delivers (size : Nat) (tid : String) (sets : SortedSets S) : Prop :=
  let scores := sets (NOTICE_NAMESPACE tid)
  let pages := (readPages size tid ((scores.entries.length + size - 1) / size) sets).1
  (∀ page ∈ pages, page.length ≤ size) ∧ pages.flatten = ranked scores

theorem first_page (size : Nat) (tid : String) (sets : SortedSets S) :
    zrangePage size tid 1 sets = (ranked (sets (NOTICE_NAMESPACE tid))).take (size + 1) := by
  rw [zrangePage, range_eq_window, window_front (.inl (by omega)) (by omega)]
  congr 1
  omega

theorem readPages_one (size : Int) (tid : String) (sets : SortedSets S) :
    (readPages size tid 1 sets).1 = [zrangePage size tid 1 sets] := rfl

theorem first_page_read (size : Int) (tid : String) (count : Nat) (sets : SortedSets S) :
    zrangePage size tid 1 sets ∈ (readPages size tid (count + 1) sets).1 := by
  induction count with
  | zero => exact List.mem_singleton.mpr rfl
  | succ count ih => exact List.mem_append_left _ ih

/-- Reading in order delivers the notices as it should exactly if they fit on one page. -/
theorem delivers_iff (tid : String) (sets : SortedSets S) (positive : 1 ≤ size) :
    Delivers size tid sets ↔ (sets (NOTICE_NAMESPACE tid)).entries.length ≤ size := by
  unfold Delivers
  dsimp only
  generalize length : (sets (NOTICE_NAMESPACE tid)).entries.length = n
  have ranks : (ranked (sets (NOTICE_NAMESPACE tid))).length = n := (length_ranked _).trans length
  constructor
  · rintro ⟨short, -⟩
    by_contra more
    obtain ⟨count, some⟩ : ∃ count, (n + size - 1) / size = count + 1 := by
      have pages : 0 < (n + size - 1) / size := Nat.div_pos (by omega) (by omega)
      exact ⟨_, (Nat.succ_pred_eq_of_pos pages).symm⟩
    rw [some] at short
    have bound := short _ (first_page_read size tid count sets)
    rw [first_page, List.length_take, ranks] at bound
    omega
  · intro fits
    rcases Nat.eq_zero_or_pos n with empty | some
    · have none : (n + size - 1) / size = 0 := Nat.div_eq_of_lt (by omega)
      rw [none, List.eq_nil_of_length_eq_zero (ranks.trans empty)]
      exact ⟨by simp [readPages], rfl⟩
    · have one : (n + size - 1) / size = 1 := by
        rw [Nat.div_eq_iff (by omega)]
        omega
      rw [one, readPages_one, first_page, List.take_of_length_le (by omega)]
      simpa [ranks] using fits

theorem delivers_sample : Delivers 2 "2" (insertNotice "2" "n1" (1 : Int) fun _ => ∅) ↔
    (insertNotice "2" "n1" (1 : Int) (fun _ => ∅) (NOTICE_NAMESPACE "2")).entries.length ≤ 2 :=
  delivers_iff "2" _ (by decide)

/-- Of three notices on pages of one, the first page has two, and the third notice is on no page. -/
theorem third_notice_unread : ∃ sets : SortedSets Int,
    ranked (sets (NOTICE_NAMESPACE "2")) = ["n1", "n2", "n3"] ∧
    (readPages 1 "2" 3 sets).1 = [["n1", "n2"], [], []] ∧ ¬ Delivers 1 "2" sets := by
  let sets : SortedSets Int :=
    insertNotice "2" "n3" 3 (insertNotice "2" "n2" 2 (insertNotice "2" "n1" 1 fun _ => ∅))
  have all : ranked (sets (NOTICE_NAMESPACE "2")) = ["n1", "n2", "n3"] := by rfl
  have pages : (readPages 1 "2" 3 sets).1 = [["n1", "n2"], [], []] := by rfl
  refine ⟨sets, all, pages, fun delivers => ?_⟩
  rw [Delivers, ← length_ranked, all] at delivers
  have bound := delivers.1 ["n1", "n2"] (by rw [show (["n1", "n2", "n3"].length + 1 - 1) / 1 = 3 from rfl]; simp [pages])
  exact absurd bound (by decide)

end Pages

/-! ### What was set -/

section Setting

variable {α : Type} (stringify : Json → String) (parse : String → Option Json)

def setAll (tid : String) : List Notice → Redis.Db α → List (Except Redis.ReplyError Unit) × Redis.Db α
  | [], db => ([], db)
  | notice :: notices, db =>
    match setNotice (.str tid) (stringify notice.toJson) db with
    | .ok filed =>
      let (replies, after) := setAll tid notices filed
      (.ok () :: replies, after)
    | .error e =>
      let (replies, after) := setAll tid notices db
      (.error e :: replies, after)

/-- The sorted sets of a store; any other key is an empty one. -/
def setsOf (db : Redis.Db α) : SortedSets Int := fun key =>
  match db key with
  | some (.zset scores) => scores
  | _ => ∅

/-- All calls go through, and a page that has room for the whole set shows all the notices. -/
def Readable (tid : String) (notices : List Notice) (db : Redis.Db α) : Prop :=
  let (replies, after) := setAll stringify tid notices db
  (∀ reply ∈ replies, reply = .ok ()) ∧
    ∀ size : Nat, (setsOf after (NOTICE_NAMESPACE tid)).entries.length ≤ size → ∀ notice ∈ notices,
      ∃ text ∈ (getNotice size tid 1 (setsOf after)).1, parse text = some notice.toJson

variable {stringify parse}

theorem setAll_eq (tid : String) (notices : List Notice) (db : Redis.Db α) :
    setAll stringify tid notices db = (notices.map fun _ => .error .wrongArity, db) := by
  induction notices with
  | nil => rfl
  | cons notice notices ih =>
    rw [setAll, setNotice_fails]
    dsimp only
    rw [ih]
    rfl

/-- A notice that is set can never be read: only a sequence of no calls succeeds. -/
theorem readable_iff (stringify : Json → String) (parse : String → Option Json) (tid : String)
    (notices : List Notice) (db : Redis.Db α) : Readable stringify parse tid notices db ↔ notices = [] := by
  unfold Readable
  rw [setAll_eq]
  constructor
  · rintro ⟨succeed, -⟩
    refine List.eq_nil_iff_forall_not_mem.mpr fun notice member => ?_
    cases succeed _ (List.mem_map_of_mem member)
  · rintro rfl
    exact ⟨by simp, fun _ _ _ member => nomatch member⟩

def sampleNotice : Notice := createNotice "660a3b1e9c1f4e0012ab34d1" "1" .FRIEND (.obj [])

def sampleText : String :=
  "\x7b\"sender\":\"1\",\"senderType\":\"friend\",\"meta\":\x7b\x7d,\"nid\":\"660a3b1e9c1f4e0012ab34d1\"\x7d"

def emptyStore : Redis.Db Json := fun _ => none

/-- A notice set on the empty store is refused, and the first page is empty. -/
theorem set_notice_lost : setAll (fun _ => sampleText) "2" [sampleNotice] emptyStore =
      ([.error .wrongArity], emptyStore) ∧
    (getNotice 10 "2" 1 (setsOf emptyStore)).1 = [] ∧
    ¬ Readable (fun _ => sampleText) (fun _ => some sampleNotice.toJson) "2" [sampleNotice] emptyStore := by
  refine ⟨setAll_eq _ _ _, rfl, fun readable => ?_⟩
  cases readable.1 (.error .wrongArity) (List.mem_singleton.mpr rfl)

end Setting

end TacoBack.NoticeService
