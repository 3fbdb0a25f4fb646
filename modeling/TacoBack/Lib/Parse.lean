import Mathlib.Data.List.Induction
import Mathlib.Data.List.TakeWhile
import TacoBack.Lib.Stringify

/-!
# JSON.parse

White space is skipped between the tokens. How the text of a number rounds is a parameter. Every value whose
numbers read back as themselves and whose objects are in property order is what its own text parses to.
-/

namespace Json

/-! ### Property order -/

def decimal (text : List Char) : Nat := text.foldl (fun n c => n * 10 + (c.toNat - 48)) 0

/-- An array index, as a property key. -/
def index (key : String) : Option Nat :=
  match key.toList with
  | [] => none
  | ['0'] => some 0
  | '0' :: _ => none
  | text => if text.all Char.isDigit ∧ decimal text < 4294967295 then some (decimal text) else none

/-- Indices come first, in ascending order. The other keys follow in the order of their creation. -/
def precedes (key name : String) : Bool :=
  match index key, index name with
  | some i, some j => i < j
  | some _, none => true
  | none, _ => false

/-- Storing under a key that is there replaces the value in place. -/
def store (key : String) (value : Json) : List (String × Json) → List (String × Json)
  | [] => [(key, value)]
  | (name, old) :: fields =>
    if name = key then (key, value) :: fields
    else if precedes key name then (key, value) :: (name, old) :: fields
    else (name, old) :: store key value fields

def create (entries : List (String × Json)) : List (String × Json) :=
  entries.foldl (fun fields entry => store entry.1 entry.2 fields) []

theorem precedes_trans {key name other : String} (first : precedes key name = true) (second : precedes name other = true) :
    precedes key other = true := by
  unfold precedes at *
  cases i : index key with
  | none => simp [i] at first
  | some i' =>
    cases j : index name with
    | none => simp [j] at second
    | some j' =>
      cases k : index other with
      | none => rfl
      | some k' =>
        simp only [i, j, k, decide_eq_true_eq] at first second ⊢
        exact first.trans second

theorem precedes_asymm {key name : String} (first : precedes key name = true) : precedes name key = false := by
  cases later : precedes name key with
  | false => rfl
  | true =>
    have itself := precedes_trans first later
    unfold precedes at itself
    cases same : index key <;> simp [same] at itself

/-- No key comes twice, or before one that precedes it. -/
def Ordered (fields : List (String × Json)) : Prop :=
  fields.Pairwise fun first later => first.1 ≠ later.1 ∧ precedes later.1 first.1 = false

theorem mem_store {key : String} {value : Json} {field : String × Json} {fields : List (String × Json)}
    (member : field ∈ store key value fields) : field = (key, value) ∨ field ∈ fields := by
  induction fields with
  | nil => exact .inl (List.mem_singleton.mp member)
  | cons other fields ih =>
    obtain ⟨name, old⟩ := other
    rw [store] at member
    split at member
    · exact (List.mem_cons.mp member).imp_right (List.mem_cons_of_mem _)
    · split at member
      · exact List.mem_cons.mp member
      · rcases List.mem_cons.mp member with rfl | later
        · exact .inr List.mem_cons_self
        · exact (ih later).imp_right (List.mem_cons_of_mem _)

theorem Ordered.store {key : String} {value : Json} {fields : List (String × Json)} (ordered : Ordered fields) :
    Ordered (store key value fields) := by
  induction fields with
  | nil => exact List.pairwise_singleton _ _
  | cons field fields ih =>
    obtain ⟨name, old⟩ := field
    obtain ⟨head, rest⟩ := List.pairwise_cons.mp ordered
    rw [Json.store]
    split
    · rename_i same
      subst same
      exact List.pairwise_cons.mpr ⟨head, rest⟩
    · rename_i different
      split
      · rename_i first
        -- The key comes before all that the first field comes before.
        have late : ∀ field ∈ (name, old) :: fields, precedes field.1 key = false := by
          rintro field member
          rcases List.mem_cons.mp member with rfl | later
          · exact precedes_asymm first
          · refine Bool.eq_false_iff.mpr fun sooner => ?_
            cases (head field later).2.symm.trans (precedes_trans sooner first)
        refine List.pairwise_cons.mpr ⟨fun field member => ⟨?_, late field member⟩, ordered⟩
        rintro rfl
        rcases List.mem_cons.mp member with rfl | later
        · exact different rfl
        · cases (head field later).2.symm.trans first
      · rename_i late
        refine List.pairwise_cons.mpr ⟨fun field member => ?_, ih rest⟩
        rcases mem_store member with rfl | later
        · exact ⟨different, Bool.eq_false_iff.mpr late⟩
        · exact head field later

theorem create_append (entries : List (String × Json)) (field : String × Json) :
    create (entries ++ [field]) = store field.1 field.2 (create entries) := by
  rw [create, List.foldl_append]
  rfl

theorem ordered_create (entries : List (String × Json)) : Ordered (create entries) := by
  induction entries using List.reverseRecOn with
  | nil => exact List.Pairwise.nil
  | append_singleton before field ih =>
    rw [create_append]
    exact ih.store

theorem mem_create {field : String × Json} {entries : List (String × Json)} (member : field ∈ create entries) :
    field ∈ entries := by
  induction entries using List.reverseRecOn with
  | nil => exact member
  | append_singleton before last ih =>
    rw [create_append] at member
    rcases mem_store member with rfl | earlier
    · simp
    · exact List.mem_append_left _ (ih earlier)

theorem store_last {key : String} {value : Json} {fields : List (String × Json)}
    (late : ∀ field ∈ fields, field.1 ≠ key ∧ precedes key field.1 = false) :
    store key value fields = fields ++ [(key, value)] := by
  induction fields with
  | nil => rfl
  | cons field fields ih =>
    obtain ⟨name, old⟩ := field
    obtain ⟨head, rest⟩ := List.forall_mem_cons.mp late
    rw [store, if_neg head.1, if_neg (Bool.eq_false_iff.mp head.2), ih rest]
    rfl

theorem create_of_ordered {fields : List (String × Json)} (ordered : Ordered fields) : create fields = fields := by
  induction fields using List.reverseRecOn with
  | nil => rfl
  | append_singleton before field ih =>
    obtain ⟨first, -, late⟩ := List.pairwise_append.mp ordered
    rw [create_append, ih first]
    exact store_last fun earlier member => late earlier member field (List.mem_singleton_self field)

/-- Names that are no indices stay in the order of their creation. -/
theorem create_of_names {fields : List (String × Json)} (names : ∀ field ∈ fields, index field.1 = none)
    (distinct : (fields.map Prod.fst).Nodup) : create fields = fields := by
  refine create_of_ordered (List.Pairwise.imp_of_mem ?_ (List.pairwise_map.mp distinct))
  intro first later _ member different
  refine ⟨different, ?_⟩
  unfold precedes
  rw [names later member]

/-! ### Tokens -/

def skip (text : List Char) : List Char := text.dropWhile fun c => c ∈ [' ', '\t', '\n', '\r']

def hexDigitValue (c : Char) : Option Nat :=
  if c.isDigit then some (c.toNat - 48)
  else if 'a' ≤ c ∧ c ≤ 'f' then some (c.toNat - 87)
  else if 'A' ≤ c ∧ c ≤ 'F' then some (c.toNat - 55)
  else none

/-- The four digits of a code unit. -/
def readUnit : List Char → Option (Nat × List Char)
  | a :: b :: c :: d :: rest =>
    match hexDigitValue a, hexDigitValue b, hexDigitValue c, hexDigitValue d with
    | some a, some b, some c, some d => some (((a * 16 + b) * 16 + c) * 16 + d, rest)
    | _, _, _, _ => none
  | _ => none

/-- A surrogate that stands alone, which no `String` holds, reads as U+FFFD. -/
def readEscapedUnit (text : List Char) : Option (Char × List Char) :=
  match readUnit text with
  | none => none
  | some (unit, rest) =>
    if 0xD800 ≤ unit ∧ unit < 0xE000 then
      match rest with
      | '\\' :: 'u' :: tail =>
        match readUnit tail with
        | some (low, tail) =>
          if unit < 0xDC00 ∧ 0xDC00 ≤ low ∧ low < 0xE000 then
            some (Char.ofNat (0x10000 + (unit - 0xD800) * 0x400 + (low - 0xDC00)), tail)
          else some (Char.ofNat 0xFFFD, rest)
        | none => none
      | _ => some (Char.ofNat 0xFFFD, rest)
    else some (Char.ofNat unit, rest)

def escaped : Char → Option Char
  | '"' => some '"'
  | '\\' => some '\\'
  | '/' => some '/'
  | 'b' => some '\x08'
  | 'f' => some '\x0c'
  | 'n' => some '\n'
  | 'r' => some '\r'
  | 't' => some '\t'
  | _ => none

/-- One character of a string, and what follows it. -/
def readChar : List Char → Option (Char × List Char)
  | '\\' :: 'u' :: rest => readEscapedUnit rest
  | '\\' :: c :: rest => (escaped c).map fun c => (c, rest)
  | c :: rest => if c = '"' ∨ c.toNat < 32 then none else some (c, rest)
  | [] => none

/-- The characters up to the closing quotation mark. -/
def readChars : Nat → List Char → Option (List Char × List Char)
  | _, '"' :: rest => some ([], rest)
  | 0, _ => none
  | fuel + 1, text =>
    match readChar text with
    | none => none
    | some (c, rest) => (readChars fuel rest).map fun read => (c :: read.1, read.2)

def readQuoted (text : List Char) : Option (String × List Char) :=
  (readChars text.length text).map fun read => (String.ofList read.1, read.2)

/-- The key of a field and the colon after it. -/
def readKey (text : List Char) : Option (String × List Char) :=
  match skip text with
  | '"' :: rest =>
    match readQuoted rest with
    | some (key, rest) =>
      match skip rest with
      | ':' :: rest => some (key, rest)
      | _ => none
    | none => none
  | _ => none

/-! ### Numbers -/

def digits : List Char → Option (List Char)
  | c :: rest => if c.isDigit then some (rest.dropWhile Char.isDigit) else none
  | [] => none

/-- What follows the integer part, which has no leading zero. -/
def integer : List Char → Option (List Char)
  | '-' :: '0' :: rest | '0' :: rest => some rest
  | '-' :: rest | rest => digits rest

def fraction : List Char → Option (List Char)
  | '.' :: rest => digits rest
  | rest => some rest

def exponent : List Char → Option (List Char)
  | 'e' :: '+' :: rest | 'e' :: '-' :: rest | 'e' :: rest => digits rest
  | 'E' :: '+' :: rest | 'E' :: '-' :: rest | 'E' :: rest => digits rest
  | rest => some rest

def isNumber (text : List Char) : Bool := ((integer text).bind fraction).bind exponent == some []

def numeric (c : Char) : Bool := c.isDigit || c ∈ ['.', 'e', 'E', '+', '-']

section

variable (number : String → Json)

/-- No letter of a number can follow one. -/
def readNumber (text : List Char) : Option (Json × List Char) :=
  let read := text.takeWhile numeric
  if isNumber read then some (number (String.ofList read), text.dropWhile numeric) else none

/-! ### Values -/

mutual

/-- A value takes one character at least before it goes on with less fuel, so the fuel of `parse` is never used up. -/
def readValue : Nat → List Char → Option (Json × List Char)
  | 0, _ => none
  | fuel + 1, text =>
    match skip text with
    | 'n' :: 'u' :: 'l' :: 'l' :: rest => some (null, rest)
    | 't' :: 'r' :: 'u' :: 'e' :: rest => some (bool true, rest)
    | 'f' :: 'a' :: 'l' :: 's' :: 'e' :: rest => some (bool false, rest)
    | '"' :: rest => (readQuoted rest).map fun read => (str read.1, read.2)
    | '[' :: rest =>
      match skip rest with
      | ']' :: rest => some (arr [], rest)
      | inner =>
        match readValue fuel inner with
        | none => none
        | some (item, rest) => (readItems fuel rest).map fun read => (arr (item :: read.1), read.2)
    | '\x7b' :: rest =>
      match skip rest with
      | '\x7d' :: rest => some (obj [], rest)
      | inner =>
        match readKey inner with
        | none => none
        | some (key, rest) =>
          match readValue fuel rest with
          | none => none
          | some (value, rest) =>
            (readFields fuel rest).map fun read => (obj (create ((key, value) :: read.1)), read.2)
    | rest => readNumber number rest

/-- The items after the first, up to the bracket. -/
def readItems : Nat → List Char → Option (List Json × List Char)
  | 0, _ => none
  | fuel + 1, text =>
    match skip text with
    | ']' :: rest => some ([], rest)
    | ',' :: rest =>
      match readValue fuel rest with
      | none => none
      | some (item, rest) => (readItems fuel rest).map fun read => (item :: read.1, read.2)
    | _ => none

/-- The fields after the first, up to the brace. -/
def readFields : Nat → List Char → Option (List (String × Json) × List Char)
  | 0, _ => none
  | fuel + 1, text =>
    match skip text with
    | '\x7d' :: rest => some ([], rest)
    | ',' :: rest =>
      match readKey rest with
      | none => none
      | some (key, rest) =>
        match readValue fuel rest with
        | none => none
        | some (value, rest) => (readFields fuel rest).map fun read => ((key, value) :: read.1, read.2)
    | _ => none

end

/-- `JSON.parse`; `none` stands for its `SyntaxError`. -/
def parse (text : String) : Option Json :=
  match readValue number (text.length + 1) text.toList with
  | some (value, rest) => if skip rest = [] then some value else none
  | none => none

/-! ### Reading what was printed -/

theorem hexDigitValue_hexDigit : ∀ n < 16, hexDigitValue (hexDigit n) = some n := by decide

theorem readUnit_control {n : Nat} (control : n < 32) (rest : List Char) :
    readUnit ('0' :: '0' :: hexDigit (n / 16) :: hexDigit (n % 16) :: rest) = some (n, rest) := by
  have zero : hexDigitValue '0' = some 0 := by decide
  have high := hexDigitValue_hexDigit (n / 16) (by omega)
  have low := hexDigitValue_hexDigit (n % 16) (by omega)
  simp only [readUnit, zero, high, low]
  congr 2
  omega

theorem readChar_escape (c : Char) (rest : List Char) : readChar (escape c ++ rest) = some (c, rest) := by
  unfold escape
  split
  case h_8 =>
    split
    · rename_i control
      have low : ¬ (0xD800 ≤ c.toNat ∧ c.toNat < 0xE000) := by omega
      simp only [List.cons_append, List.nil_append, readChar, readEscapedUnit, readUnit_control control, if_neg low,
        Char.ofNat_toNat]
    · simp only [List.cons_append, List.nil_append]
      unfold readChar
      split <;> simp_all
  all_goals rfl

theorem escape_ne_quote (c : Char) (rest tail : List Char) : escape c ++ rest ≠ '"' :: tail := by
  intro same
  have read := congrArg readChar same
  rw [readChar_escape] at read
  simp [readChar] at read

theorem readChars_escape {chars : List Char} {fuel : Nat} (enough : chars.length ≤ fuel) (rest : List Char) :
    readChars fuel (chars.flatMap escape ++ '"' :: rest) = some (chars, rest) := by
  induction chars generalizing fuel with
  | nil => simp [readChars]
  | cons c chars ih =>
    obtain ⟨fuel, rfl⟩ : ∃ less, fuel = less + 1 := ⟨fuel - 1, by simp at enough; omega⟩
    rw [List.flatMap_cons, List.append_assoc, readChars, readChar_escape]
    · dsimp only
      rw [ih (by simpa using enough), Option.map_some]
    · exact fun tail => escape_ne_quote c _ tail

theorem readQuoted_quote (text : String) (rest : List Char) :
    readQuoted (text.toList.flatMap escape ++ '"' :: rest) = some (text, rest) := by
  have enough : text.toList.length ≤ (text.toList.flatMap escape ++ '"' :: rest).length := by
    rw [List.length_append, List.length_flatMap]
    have each : text.toList.length ≤ (text.toList.map fun c => (escape c).length).sum := by
      induction text.toList with
      | nil => simp
      | cons c chars ih =>
        have long : 0 < (escape c).length := by
          refine List.length_pos_iff.mpr fun empty => ?_
          have read := readChar_escape c []
          rw [empty] at read
          cases read
        simp only [List.length_cons, List.map_cons, List.sum_cons]
        omega
    omega
  rw [readQuoted, readChars_escape enough, Option.map_some, String.ofList_toList]

theorem skip_of_head {c : Char} (solid : c ∉ [' ', '\t', '\n', '\r']) (rest : List Char) : skip (c :: rest) = c :: rest :=
  List.dropWhile_cons_of_neg (by simpa using solid)

theorem readKey_quote (key : String) (rest : List Char) : readKey (quote key ++ ':' :: rest) = some (key, rest) := by
  have start : quote key ++ ':' :: rest = '"' :: (key.toList.flatMap escape ++ '"' :: ':' :: rest) := by simp [quote]
  simp only [start, readKey, skip_of_head (show '"' ∉ [' ', '\t', '\n', '\r'] by decide), readQuoted_quote,
    skip_of_head (show ':' ∉ [' ', '\t', '\n', '\r'] by decide)]

/-! ### Numbers -/

theorem digitChar_ne_zero : ∀ n < 10, n ≠ 0 → n.digitChar ≠ '0' := by decide

theorem toDigits_head {n : Nat} (positive : n ≠ 0) : ∃ c rest, Nat.toDigits 10 n = c :: rest ∧ c ≠ '0' := by
  induction n using Nat.strong_induction_on with
  | _ n ih =>
    by_cases small : n < 10
    · exact ⟨n.digitChar, [], Nat.toDigits_of_lt_base small, digitChar_ne_zero n small positive⟩
    · obtain ⟨c, rest, same, head⟩ := ih (n / 10) (by omega) (by omega)
      exact ⟨c, rest ++ [(n % 10).digitChar], by rw [Nat.toDigits_of_base_le (by decide) (by omega), same]; rfl, head⟩

theorem digits_of_all {text : List Char} (nonempty : text ≠ []) (all : ∀ c ∈ text, c.isDigit) : digits text = some [] := by
  cases text with
  | nil => contradiction
  | cons c rest =>
    rw [digits, if_pos (all c List.mem_cons_self), List.dropWhile_eq_nil_iff.mpr fun d member => all d (.tail _ member)]

theorem integer_of_head {c : Char} (digit : c.isDigit) (head : c ≠ '0') (rest : List Char) :
    integer (c :: rest) = digits (c :: rest) ∧ integer ('-' :: c :: rest) = digits (c :: rest) := by
  have sign : c ≠ '-' := by
    rintro rfl
    cases digit
  unfold integer
  constructor <;> split <;> simp_all

theorem isNumber_toDigits (n : Nat) :
    isNumber (Nat.toDigits 10 n) = true ∧ isNumber ('-' :: Nat.toDigits 10 n) = true := by
  by_cases zero : n = 0
  · subst zero
    exact ⟨by decide, by decide⟩
  · obtain ⟨c, rest, same, head⟩ := toDigits_head zero
    have all : ∀ d ∈ Nat.toDigits 10 n, d.isDigit := fun d member =>
      Nat.isDigit_of_mem_toDigits (by decide) (by decide) member
    have read := digits_of_all Nat.toDigits_ne_nil all
    rw [same] at read all ⊢
    obtain ⟨plain, signed⟩ := integer_of_head (all c List.mem_cons_self) head rest
    constructor
    · rw [isNumber, plain, read]
      rfl
    · rw [isNumber, signed, read]
      rfl

theorem numeric_of_isDigit {c : Char} (digit : c.isDigit = true) : numeric c = true := by
  rw [numeric, digit, Bool.true_or]

theorem int_text (n : Int) : isNumber (toString n).toList = true ∧ ∀ c ∈ (toString n).toList, numeric c = true := by
  have digit : ∀ m : Nat, ∀ c ∈ Nat.toDigits 10 m, numeric c = true := fun m c member =>
    numeric_of_isDigit (Nat.isDigit_of_mem_toDigits (by decide) (by decide) member)
  rw [Int.toString_eq_repr, Int.repr_eq_if]
  split
  · rw [Nat.toList_repr]
    exact ⟨(isNumber_toDigits _).1, digit _⟩
  · have minus : ("-" ++ (-n).toNat.repr).toList = '-' :: Nat.toDigits 10 (-n).toNat := by
      rw [String.toList_append, Nat.toList_repr]
      rfl
    rw [minus]
    exact ⟨(isNumber_toDigits _).2, List.forall_mem_cons.mpr ⟨by decide, digit _⟩⟩

theorem isNumber_head {c : Char} {rest : List Char} (read : isNumber (c :: rest) = true) :
    c.isDigit = true ∨ c = '-' := by
  by_contra neither
  simp only [not_or] at neither
  have stuck : integer (c :: rest) = none := by
    unfold integer
    split <;> simp_all [digits]
  rw [isNumber, stuck] at read
  cases read

/-- What may follow a number. -/
def Ends (rest : List Char) : Prop := ∀ c tail, rest = c :: tail → numeric c = false

theorem ends_cons {c : Char} (other : numeric c = false) (tail : List Char) : Ends (c :: tail) := by
  intro d rest same
  rwa [← List.head_eq_of_cons_eq same]

theorem readNumber_text {text : String} (read : isNumber text.toList = true)
    (all : ∀ c ∈ text.toList, numeric c = true) {rest : List Char} (ends : Ends rest) :
    readNumber number (text.toList ++ rest) = some (number text, rest) := by
  have stop : rest.takeWhile numeric = [] ∧ rest.dropWhile numeric = rest := by
    cases rest with
    | nil => exact ⟨rfl, rfl⟩
    | cons c tail =>
      have other := ends c tail rfl
      simp [other]
  rw [readNumber, List.takeWhile_append_of_pos all, List.dropWhile_append_of_pos all, stop.1, stop.2, List.append_nil,
    if_pos read, String.ofList_toList]

theorem readValue_of_head {c : Char} (head : c.isDigit = true ∨ c = '-') (fuel : Nat) (rest : List Char) :
    readValue number (fuel + 1) (c :: rest) = readNumber number (c :: rest) := by
  have solid : c ∉ [' ', '\t', '\n', '\r'] := by
    rintro member
    simp only [List.mem_cons, List.not_mem_nil, or_false] at member
    rcases member with rfl | rfl | rfl | rfl <;> simp at head
  rw [readValue, skip_of_head solid]
  split <;> simp_all

/-! ### Values -/

mutual

/-- The numbers read back as themselves, and the objects have their fields in property order. -/
def Readable : Json → Prop
  | num n => number (toString n) = num n
  | float text => isFinite text = true ∧ isNumber text.toList = true ∧ number text = float text
  | arr items => ReadableItems items
  | obj fields => create fields = fields ∧ ReadableFields fields
  | _ => True

def ReadableItems : List Json → Prop
  | [] => True
  | item :: items => Readable item ∧ ReadableItems items

def ReadableFields : List (String × Json) → Prop
  | [] => True
  | (_, value) :: fields => Readable value ∧ ReadableFields fields

end

variable {number}

theorem readValue_text {text : String} (read : isNumber text.toList = true)
    (all : ∀ c ∈ text.toList, numeric c = true) {rest : List Char} (ends : Ends rest) (fuel : Nat) :
    readValue number (fuel + 1) (text.toList ++ rest) = some (number text, rest) := by
  have same := readNumber_text number read all ends
  cases chars : text.toList with
  | nil =>
    rw [chars] at read
    cases read
  | cons c tail =>
    rw [chars] at read same
    rw [List.cons_append, readValue_of_head number (isNumber_head read)]
    exact same

/-- The text of a value starts with its token, and not with a bracket that closes. -/
def Starts (text : List Char) : Prop := ∃ c rest, text = c :: rest ∧ c ∉ [' ', '\t', '\n', '\r'] ∧ c ≠ ']'

theorem starts_of_isNumber {text : List Char} (read : isNumber text = true) : Starts text := by
  cases text with
  | nil => cases read
  | cons c rest =>
    refine ⟨c, rest, rfl, fun member => ?_, ?_⟩
    · simp only [List.mem_cons, List.not_mem_nil, or_false] at member
      rcases member with rfl | rfl | rfl | rfl <;> cases isNumber_head read <;> contradiction
    · rintro rfl
      cases isNumber_head read <;> contradiction

theorem print_starts_token {value : Json} (readable : Readable number value) : Starts (print value) := by
  cases value with
  | null => exact ⟨'n', _, rfl, by decide, by decide⟩
  | bool b =>
    cases b with
    | false => exact ⟨'f', _, rfl, by decide, by decide⟩
    | true => exact ⟨'t', _, rfl, by decide, by decide⟩
  | num n =>
    rw [print]
    exact starts_of_isNumber (int_text n).1
  | float text =>
    obtain ⟨finite, read, -⟩ := readable
    rw [print, if_pos finite]
    exact starts_of_isNumber read
  | str text => exact ⟨'"', _, rfl, by decide, by decide⟩
  | arr items => exact ⟨'[', _, rfl, by decide, by decide⟩
  | obj fields => exact ⟨'\x7b', _, rfl, by decide, by decide⟩

theorem numeric_of_isFinite {text : String} (finite : isFinite text = true) :
    ∀ c ∈ text.toList, numeric c = true := by
  have letters := List.all_eq_true.mp (Bool.and_eq_true_iff.mp finite).2
  intro c member
  have letter := letters c member
  simp only [List.mem_cons, List.not_mem_nil, or_false, Bool.or_eq_true, decide_eq_true_eq] at letter
  rcases letter with digit | rfl | rfl | rfl | rfl
  · exact numeric_of_isDigit digit
  all_goals decide

theorem Starts.append {text : List Char} (starts : Starts text) (rest : List Char) : Starts (text ++ rest) := by
  obtain ⟨c, tail, rfl, solid, other⟩ := starts
  exact ⟨c, tail ++ rest, rfl, solid, other⟩

theorem ends_items (items : List Json) (rest : List Char) : Ends (printItems items ++ ']' :: rest) := by
  cases items with
  | nil => exact ends_cons (by decide) _
  | cons item items => exact ends_cons (by decide) _

theorem ends_fields (fields : List (String × Json)) (rest : List Char) : Ends (printFields fields ++ '\x7d' :: rest) := by
  cases fields with
  | nil => exact ends_cons (by decide) _
  | cons field fields => exact ends_cons (by decide) _

theorem readValue_array {inner tail rest : List Char} {fuel : Nat} {item : Json} {items : List Json}
    (starts : Starts inner) (first : readValue number fuel inner = some (item, tail))
    (others : readItems number fuel tail = some (items, rest)) :
    readValue number (fuel + 1) ('[' :: inner) = some (.arr (item :: items), rest) := by
  obtain ⟨c, text, rfl, solid, other⟩ := starts
  rw [readValue, skip_of_head (by decide)]
  simp only [skip_of_head solid]
  split
  · rename_i same
    exact (other (List.head_eq_of_cons_eq same)).elim
  · rw [first]
    simp only [others, Option.map_some]

mutual

theorem readValue_print : ∀ (value : Json) (fuel : Nat) (rest : List Char), Readable number value →
    (print value).length ≤ fuel → Ends rest → readValue number fuel (print value ++ rest) = some (value, rest)
  | value, 0, rest, readable, enough, _ => by
    obtain ⟨c, tail, same, -⟩ := print_starts_token readable
    rw [same] at enough
    cases enough
  | .null, fuel + 1, rest, _, _, _ => rfl
  | .bool true, fuel + 1, rest, _, _, _ => rfl
  | .bool false, fuel + 1, rest, _, _, _ => rfl
  | .num n, fuel + 1, rest, readable, _, ends => by
    rw [print, readValue_text (int_text n).1 (int_text n).2 ends, readable]
  | .float text, fuel + 1, rest, readable, _, ends => by
    obtain ⟨finite, read, same⟩ := readable
    rw [print, if_pos finite, readValue_text read (numeric_of_isFinite finite) ends, same]
  | .str text, fuel + 1, rest, _, _, _ => by
    have start : print (.str text) ++ rest = '"' :: (text.toList.flatMap escape ++ '"' :: rest) := by
      simp [print, quote]
    rw [start, readValue, skip_of_head (by decide)]
    simp only [readQuoted_quote, Option.map_some]
  | .arr [], fuel + 1, rest, _, _, _ => rfl
  | .arr (item :: items), fuel + 1, rest, readable, enough, _ => by
    have start : print (.arr (item :: items)) ++ rest = '[' :: (print item ++ (printItems items ++ ']' :: rest)) := by
      simp [print, printItems]
    have long : (print (.arr (item :: items))).length = (print item).length + (printItems items).length + 2 := by
      simp [print, printItems]
      omega
    rw [start]
    exact readValue_array ((print_starts_token readable.1).append _)
      (readValue_print item fuel _ readable.1 (by omega) (ends_items items rest))
      (readItems_print items fuel rest readable.2 (by omega))
  | .obj [], fuel + 1, rest, _, _, _ => rfl
  | .obj ((key, value) :: fields), fuel + 1, rest, readable, enough, _ => by
    have start : print (.obj ((key, value) :: fields)) ++ rest =
        '\x7b' :: (quote key ++ ':' :: (print value ++ (printFields fields ++ '\x7d' :: rest))) := by
      simp [print, printFields, quote]
    have long : (print (.obj ((key, value) :: fields))).length =
        (quote key).length + (print value).length + (printFields fields).length + 3 := by
      simp [print, printFields, quote]
      omega
    obtain ⟨ordered, first, others⟩ := readable
    have read := readValue_print value fuel _ first (by omega) (ends_fields fields rest)
    have more := readFields_print fields fuel rest others (by omega)
    have key_read := readKey_quote key (print value ++ (printFields fields ++ '\x7d' :: rest))
    rw [start, readValue, skip_of_head (by decide)]
    have inner : skip (quote key ++ ':' :: (print value ++ (printFields fields ++ '\x7d' :: rest))) =
        quote key ++ ':' :: (print value ++ (printFields fields ++ '\x7d' :: rest)) := skip_of_head (by decide) _
    simp only [inner]
    split
    · rename_i same
      cases same
    · simp only [key_read, read, more, Option.map_some, ordered]

theorem readItems_print : ∀ (items : List Json) (fuel : Nat) (rest : List Char), ReadableItems number items →
    (printItems items).length < fuel →
    readItems number fuel (printItems items ++ ']' :: rest) = some (items, rest)
  | items, 0, rest, _, enough => by cases enough
  | [], fuel + 1, rest, _, _ => rfl
  | item :: items, fuel + 1, rest, readable, enough => by
    have long : (printItems (item :: items)).length = (print item).length + (printItems items).length + 1 := by
      simp [printItems]
    have read := readValue_print item fuel _ readable.1 (by omega) (ends_items items rest)
    have more := readItems_print items fuel rest readable.2 (by omega)
    rw [printItems, List.cons_append, List.cons_append, List.append_assoc, readItems, skip_of_head (by decide)]
    simp only [read, more, Option.map_some]

theorem readFields_print : ∀ (fields : List (String × Json)) (fuel : Nat) (rest : List Char),
    ReadableFields number fields → (printFields fields).length < fuel →
    readFields number fuel (printFields fields ++ '\x7d' :: rest) = some (fields, rest)
  | fields, 0, rest, _, enough => by cases enough
  | [], fuel + 1, rest, _, _ => rfl
  | (key, value) :: fields, fuel + 1, rest, readable, enough => by
    have start : printFields ((key, value) :: fields) ++ '\x7d' :: rest =
        ',' :: (quote key ++ ':' :: (print value ++ (printFields fields ++ '\x7d' :: rest))) := by
      simp [printFields]
    have long : (printFields ((key, value) :: fields)).length =
        (quote key).length + (print value).length + (printFields fields).length + 2 := by
      simp [printFields]
      omega
    have read := readValue_print value fuel _ readable.1 (by omega) (ends_fields fields rest)
    have more := readFields_print fields fuel rest readable.2 (by omega)
    rw [start, readFields, skip_of_head (by decide)]
    simp only [readKey_quote, read, more, Option.map_some]

end

theorem parse_print {value : Json} (readable : Readable number value) :
    parse number (String.ofList (print value)) = some value := by
  have read := readValue_print value ((print value).length + 1) [] readable (by omega) (by intro c tail same; cases same)
  rw [List.append_nil] at read
  rw [parse, String.length_ofList, String.toList_ofList, read]
  exact if_pos rfl

end

end Json
