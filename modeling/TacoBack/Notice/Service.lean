import TacoBack.Lib.Json
import TacoBack.Lib.Redis

/-!
# NoticeService

The notices of a user are the members of the sorted set `NOTICE:<tid>`. A notice stands for its
JSON text, which `JSON.parse` turns back into it. Scores are of any ordered type.
-/

namespace TacoBack

inductive SenderType where
  | FRIEND
  | GROUP
  | SYSTEM
  deriving DecidableEq

def SenderType.toText : SenderType → String
  | .FRIEND => "friend"
  | .GROUP => "group"
  | .SYSTEM => "system"

/-- `metadata` is the field `meta`. -/
structure Notice where
  nid : String
  sender : String
  senderType : SenderType
  metadata : Json

/-- `nid` is the fresh `ObjectId` the constructor draws. -/
def createNotice (nid sender : String) (sender_type : SenderType) (metadata : Json) : Notice where
  nid := nid
  sender := sender
  senderType := sender_type
  metadata := metadata

def Notice.toJson (notice : Notice) : Json :=
  .obj [("sender", .str notice.sender), ("senderType", .str notice.senderType.toText), ("meta", notice.metadata),
    ("nid", .str notice.nid)]

/-- The sorted sets of Redis by key. An absent key is an empty one. -/
abbrev SortedSets (S : Type) := String → SortedSet.Scores S

namespace NoticeService

variable {S : Type} [LinearOrder S]

def NOTICE_NAMESPACE (tid : String) : String := "NOTICE:" ++ tid

def insertNotice (tid notice : String) (score : S) (sets : SortedSets S) : SortedSets S :=
  Function.update sets (NOTICE_NAMESPACE tid) ((sets (NOTICE_NAMESPACE tid)).insert notice score)

/-- The first command of `getNotice`. Both ranks are included, so a page is one longer than `size`. -/
def zrangePage (size : Int) (tid : String) (page : Int) (sets : SortedSets S) : List String :=
  SortedSet.range (sets (NOTICE_NAMESPACE tid)) ((page - 1) * size) (page * size)

/-- The second command of `getNotice`. -/
def zremrangePage (size : Int) (tid : String) (page : Int) (sets : SortedSets S) : SortedSets S :=
  Function.update sets (NOTICE_NAMESPACE tid)
    (SortedSet.removeRange (sets (NOTICE_NAMESPACE tid)) ((page - 1) * size) (page * size))

/-- A call of `getNotice` with nothing in between its two commands. -/
def getNotice (size : Int) (tid : String) (page : Int) (sets : SortedSets S) : List String × SortedSets S :=
  (zrangePage size tid page sets, zremrangePage size tid page sets)

/-- `text` is what `JSON.stringify` makes of the second argument. It goes to `ZADD` without a score. -/
def setNotice {α : Type} (tid : Json) (text : String) (db : Redis.Db α) : Except Redis.ReplyError (Redis.Db α) :=
  Redis.zaddArgs db (NOTICE_NAMESPACE (Json.template (some tid))) [text]

theorem setNotice_fails {α : Type} (tid : Json) (text : String) (db : Redis.Db α) :
    setNotice tid text db = .error .wrongArity := rfl

theorem noticeNamespace_inj {a b : String} (same : NOTICE_NAMESPACE a = NOTICE_NAMESPACE b) : a = b := by
  simpa [NOTICE_NAMESPACE] using same

variable {size page : Int} {tid other notice member : String} {sets : SortedSets S}

omit [LinearOrder S] in
theorem mem_insertNotice {score : S} :
    member ∈ insertNotice tid notice score sets (NOTICE_NAMESPACE other) ↔
      (other = tid ∧ member = notice) ∨ member ∈ sets (NOTICE_NAMESPACE other) := by
  by_cases same : other = tid
  · subst same
    simp [insertNotice]
  · have apart : NOTICE_NAMESPACE other ≠ NOTICE_NAMESPACE tid := fun equal => same (noticeNamespace_inj equal)
    simp [insertNotice, Function.update_of_ne apart, same]

theorem zrangePage_congr {sets' : SortedSets S} (same : sets (NOTICE_NAMESPACE tid) = sets' (NOTICE_NAMESPACE tid)) :
    zrangePage size tid page sets = zrangePage size tid page sets' := by
  rw [zrangePage, zrangePage, same]

theorem mem_of_mem_zrangePage (read : member ∈ zrangePage size tid page sets) :
    member ∈ sets (NOTICE_NAMESPACE tid) := SortedSet.mem_of_mem_range read

theorem mem_zremrangePage :
    member ∈ zremrangePage size tid page sets (NOTICE_NAMESPACE other) ↔
      member ∈ sets (NOTICE_NAMESPACE other) ∧ ¬ (other = tid ∧ member ∈ zrangePage size tid page sets) := by
  by_cases same : other = tid
  · subst same
    simp [zremrangePage, zrangePage, SortedSet.mem_removeRange]
  · have apart : NOTICE_NAMESPACE other ≠ NOTICE_NAMESPACE tid := fun equal => same (noticeNamespace_inj equal)
    simp [zremrangePage, Function.update_of_ne apart, same]

end NoticeService

end TacoBack
