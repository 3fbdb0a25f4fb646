import TacoBack.Lib.Json

/-!
# JSON.stringify

The text of a value, as characters: strings quoted and escaped, the fields of an object in property order.
-/

namespace Json

def hexDigit (n : Nat) : Char := Nat.digitChar n

/-- The characters that stand for one character of a string. -/
def escape : Char → List Char
  | '\x08' => ['\\', 'b']
  | '\t' => ['\\', 't']
  | '\n' => ['\\', 'n']
  | '\x0c' => ['\\', 'f']
  | '\r' => ['\\', 'r']
  | '"' => ['\\', '"']
  | '\\' => ['\\', '\\']
  | c => if c.toNat < 32 then ['\\', 'u', '0', '0', hexDigit (c.toNat / 16), hexDigit (c.toNat % 16)] else [c]

def quote (text : String) : List Char := '"' :: text.toList.flatMap escape ++ ['"']

/-- The text of a finite number. The names of the other three, such as `NaN`, have other letters. -/
def isFinite (text : String) : Bool := text != "" && text.toList.all fun c => c.isDigit || c ∈ ['.', 'e', '+', '-']

mutual

def print : Json → List Char
  | null => "null".toList
  | bool b => if b then "true".toList else "false".toList
  | num n => (toString n).toList
  | float text => if isFinite text then text.toList else "null".toList
  | str text => quote text
  | arr items => '[' :: (printItems items).drop 1 ++ [']']
  | obj fields => '\x7b' :: (printFields fields).drop 1 ++ ['\x7d']

/-- The items, each after a comma. -/
def printItems : List Json → List Char
  | [] => []
  | item :: items => ',' :: print item ++ printItems items

def printFields : List (String × Json) → List Char
  | [] => []
  | (key, value) :: fields => ',' :: quote key ++ ':' :: print value ++ printFields fields

end

/-- `JSON.stringify`, which gives no text for `undefined`. -/
def stringify (value : Option Json) : Option String := value.map fun value => String.ofList (print value)

/-! ### Reading a string back -/

def hexValue (c : Char) : Nat := if c.isDigit then c.toNat - 48 else c.toNat - 87

/-- The first character of an escaped text, and what follows it. -/
def unescape : List Char → Option (Char × List Char)
  | '\\' :: 'u' :: '0' :: '0' :: high :: low :: rest => some (Char.ofNat (16 * hexValue high + hexValue low), rest)
  | '\\' :: 'b' :: rest => some ('\x08', rest)
  | '\\' :: 't' :: rest => some ('\t', rest)
  | '\\' :: 'n' :: rest => some ('\n', rest)
  | '\\' :: 'f' :: rest => some ('\x0c', rest)
  | '\\' :: 'r' :: rest => some ('\r', rest)
  | '\\' :: c :: rest => some (c, rest)
  | '"' :: _ => none
  | c :: rest => some (c, rest)
  | [] => none

theorem hexValue_hexDigit : ∀ n < 16, hexValue (hexDigit n) = n := by decide

theorem unescape_escape (c : Char) (rest : List Char) : unescape (escape c ++ rest) = some (c, rest) := by
  unfold escape
  split
  case h_8 =>
    split
    · rename_i control
      have high := hexValue_hexDigit (c.toNat / 16) (by omega)
      have low := hexValue_hexDigit (c.toNat % 16) (by omega)
      simp only [List.cons_append, List.nil_append, unescape, high, low, Nat.div_add_mod, Char.ofNat_toNat]
    · simp only [List.cons_append, List.nil_append]
      unfold unescape
      split <;> simp_all
  all_goals rfl

theorem flatMap_escape_inj {first second rest after : List Char}
    (same : first.flatMap escape ++ '"' :: rest = second.flatMap escape ++ '"' :: after) :
    first = second ∧ rest = after := by
  induction first generalizing second with
  | nil =>
    cases second with
    | nil => exact ⟨rfl, List.tail_eq_of_cons_eq same⟩
    | cons c second =>
      have read := congrArg unescape same
      rw [List.flatMap_cons, List.append_assoc, unescape_escape] at read
      cases read
  | cons c first ih =>
    have read := congrArg unescape same
    rw [List.flatMap_cons, List.append_assoc, unescape_escape] at read
    cases second with
    | nil => cases read
    | cons d second =>
      rw [List.flatMap_cons, List.append_assoc, unescape_escape] at read
      obtain ⟨head, tail⟩ := Prod.mk.inj (Option.some.inj read)
      obtain ⟨same, ends⟩ := ih tail
      rw [head, same]
      exact ⟨rfl, ends⟩

theorem quote_append_inj {first second : String} {rest after : List Char}
    (same : quote first ++ rest = quote second ++ after) : first = second ∧ rest = after := by
  simp only [quote, List.cons_append, List.append_assoc, List.nil_append] at same
  obtain ⟨same, ends⟩ := flatMap_escape_inj (List.tail_eq_of_cons_eq same)
  exact ⟨String.toList_injective same, ends⟩

/-! ### Objects of strings -/

theorem toString_int_starts (n : Int) : ∃ c rest, (toString n).toList = c :: rest ∧ (c = '-' ∨ c.isDigit = true) := by
  have digits : ∀ m : Nat, ∃ c rest, m.repr.toList = c :: rest ∧ c.isDigit = true := by
    intro m
    rw [Nat.toList_repr]
    obtain ⟨c, rest, same⟩ := List.exists_cons_of_ne_nil (Nat.toDigits_ne_nil (n := m) (b := 10))
    exact ⟨c, rest, same, Nat.isDigit_of_mem_toDigits (by decide) (by decide) (same ▸ List.mem_cons_self)⟩
  rw [Int.toString_eq_repr, Int.repr_eq_if]
  split
  · obtain ⟨c, rest, same, digit⟩ := digits n.toNat
    exact ⟨c, rest, same, .inr digit⟩
  · exact ⟨'-', _, by simp; rfl, .inl rfl⟩

/-- Only strings start with a quotation mark, and only objects with a brace. -/
theorem print_starts (value : Json) : (∃ text, value = .str text) ∨ (∃ fields, value = .obj fields) ∨
    ∃ c rest, print value = c :: rest ∧ c ≠ '"' ∧ c ≠ '\x7b' := by
  cases value with
  | str text => exact .inl ⟨text, rfl⟩
  | obj fields => exact .inr (.inl ⟨fields, rfl⟩)
  | null => exact .inr (.inr ⟨'n', _, rfl, by decide, by decide⟩)
  | bool b =>
    cases b with
    | false => exact .inr (.inr ⟨'f', _, rfl, by decide, by decide⟩)
    | true => exact .inr (.inr ⟨'t', _, rfl, by decide, by decide⟩)
  | num n =>
    obtain ⟨c, rest, same, starts⟩ := toString_int_starts n
    refine .inr (.inr ⟨c, rest, by rw [print, same], ?_, ?_⟩) <;> rintro rfl <;> simp at starts
  | float text =>
    by_cases finite : isFinite text = true
    · obtain ⟨nonempty, letters⟩ := Bool.and_eq_true_iff.mp finite
      cases chars : text.toList with
      | nil => simp [String.toList_eq_nil_iff.mp chars] at nonempty
      | cons c rest =>
        rw [chars, List.all_cons, Bool.and_eq_true] at letters
        refine .inr (.inr ⟨c, rest, by rw [print, if_pos finite, chars], ?_, ?_⟩) <;> rintro rfl <;> simp at letters
    · exact .inr (.inr ⟨'n', "ull".toList, by rw [print, if_neg finite]; rfl, by decide, by decide⟩)
  | arr items => exact .inr (.inr ⟨'[', _, rfl, by decide, by decide⟩)

def strings (entries : List (String × String)) : List (String × Json) :=
  entries.map fun entry => (entry.1, .str entry.2)

theorem printFields_inj {fields : List (String × Json)} {entries : List (String × String)}
    (same : printFields fields ++ ['\x7d'] = printFields (strings entries) ++ ['\x7d']) : fields = strings entries := by
  induction entries generalizing fields with
  | nil =>
    cases fields with
    | nil => rfl
    | cons field fields => simp [printFields, strings] at same
  | cons entry entries ih =>
    obtain ⟨name, text⟩ := entry
    cases fields with
    | nil => simp [printFields, strings] at same
    | cons field fields =>
      obtain ⟨key, value⟩ := field
      simp only [strings, List.map_cons, printFields, print, List.cons_append, List.append_assoc,
        List.cons.injEq, true_and] at same
      obtain ⟨rfl, colon⟩ := quote_append_inj same
      have values := List.tail_eq_of_cons_eq colon
      rcases print_starts value with ⟨text, rfl⟩ | ⟨fields, rfl⟩ | ⟨c, rest, starts, noQuote, -⟩
      · obtain ⟨rfl, rest⟩ := quote_append_inj values
        rw [ih rest]
        rfl
      · cases values
      · rw [starts] at values
        exact (noQuote (List.head_eq_of_cons_eq values)).elim

/-- An object of strings is the only value with its text. -/
theorem print_inj {value : Json} {entries : List (String × String)}
    (same : print value = print (.obj (strings entries))) : value = .obj (strings entries) := by
  rcases print_starts value with ⟨text, rfl⟩ | ⟨fields, rfl⟩ | ⟨c, rest, starts, -, noBrace⟩
  · cases same
  · have inner : (printFields fields).drop 1 ++ ['\x7d'] = (printFields (strings entries)).drop 1 ++ ['\x7d'] :=
      List.tail_eq_of_cons_eq same
    cases fields with
    | nil =>
      cases entries with
      | nil => rfl
      | cons entry entries => simp [printFields, strings, quote] at inner
    | cons field fields =>
      cases entries with
      | nil => simp [printFields, strings, quote] at inner
      | cons entry entries =>
        have whole : printFields (field :: fields) ++ ['\x7d'] = printFields (strings (entry :: entries)) ++ ['\x7d'] :=
          congrArg (List.cons ',') inner
        rw [printFields_inj whole]
  · rw [starts] at same
    exact (noBrace (List.head_eq_of_cons_eq same)).elim


theorem stringify_eq_iff {value : Option Json} {entries : List (String × String)} :
    stringify (some (.obj (strings entries))) = stringify value ↔ value = some (.obj (strings entries)) := by
  constructor
  · intro same
    cases value with
    | none => cases same
    | some value =>
      have texts := String.ofList_injective (Option.some.inj same)
      rw [print_inj texts.symm]
  · rintro rfl
    rfl

end Json
