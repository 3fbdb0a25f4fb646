import TacoBack.Lib.Parse

/-!
# What JSON.parse accepts

Whatever text a value is parsed from, its objects are in property order, and its numbers read back from their own
texts, unless one is too large. So the text of the value parses to the value again.
-/

namespace Json

mutual

/-- No number is infinite. -/
def Finite : Json → Prop
  | float text => isFinite text = true
  | arr items => FiniteItems items
  | obj fields => FiniteFields fields
  | _ => True

def FiniteItems : List Json → Prop
  | [] => True
  | item :: items => Finite item ∧ FiniteItems items

def FiniteFields : List (String × Json) → Prop
  | [] => True
  | (_, value) :: fields => Finite value ∧ FiniteFields fields

end

theorem finiteFields_iff {fields : List (String × Json)} : FiniteFields fields ↔ ∀ field ∈ fields, Finite field.2 := by
  induction fields with
  | nil => simp [FiniteFields]
  | cons field fields ih => rw [FiniteFields, List.forall_mem_cons, ih]

/-- How a number is read: as one that its own text is read as, or as one that is too large. -/
def ReadsNumbers (number : String → Json) : Prop :=
  ∀ text, isNumber text.toList = true → Finite (number text) → Readable number (number text)

variable {number : String → Json}

theorem readableFields_iff {fields : List (String × Json)} :
    ReadableFields number fields ↔ ∀ field ∈ fields, Readable number field.2 := by
  induction fields with
  | nil => simp [ReadableFields]
  | cons field fields ih => rw [ReadableFields, List.forall_mem_cons, ih]

theorem readable_create {entries : List (String × Json)}
    (each : ∀ entry ∈ entries, Finite entry.2 → Readable number entry.2) (finite : Finite (obj (create entries))) :
    Readable number (obj (create entries)) := by
  refine ⟨create_of_ordered (ordered_create entries), readableFields_iff.mpr fun field member => ?_⟩
  exact each field (mem_create member) (finiteFields_iff.mp finite field member)

theorem readNumber_readable (reads : ReadsNumbers number) {text rest : List Char} {value : Json}
    (read : readNumber number text = some (value, rest)) (finite : Finite value) : Readable number value := by
  simp only [readNumber] at read
  split at read
  · rename_i accepted
    obtain ⟨rfl, -⟩ := Prod.mk.inj (Option.some.inj read)
    exact reads _ (by rwa [String.toList_ofList]) finite
  · cases read

/-- What is read with a given fuel: values, items and fields. -/
structure ReadsReadable (number : String → Json) (fuel : Nat) : Prop where
  value : ∀ text value rest, readValue number fuel text = some (value, rest) → Finite value → Readable number value
  items : ∀ text items rest, readItems number fuel text = some (items, rest) → FiniteItems items →
    ReadableItems number items
  fields : ∀ text fields rest, readFields number fuel text = some (fields, rest) →
    ∀ field ∈ fields, Finite field.2 → Readable number field.2

theorem readValue_readable (reads : ReadsNumbers number) {fuel : Nat} (ih : ReadsReadable number fuel)
    {text rest : List Char} {value : Json} (read : readValue number (fuel + 1) text = some (value, rest))
    (finite : Finite value) : Readable number value := by
  rw [readValue] at read
  split at read
  · cases read
    trivial
  · cases read
    trivial
  · cases read
    trivial
  · obtain ⟨quoted, -, same⟩ := Option.map_eq_some_iff.mp read
    cases same
    trivial
  · split at read
    · cases read
      trivial
    · split at read
      · cases read
      · rename_i item tail first
        obtain ⟨others, more, same⟩ := Option.map_eq_some_iff.mp read
        cases same
        exact ⟨ih.value _ _ _ first finite.1, ih.items _ _ _ more finite.2⟩
  · split at read
    · cases read
      exact ⟨rfl, trivial⟩
    · split at read
      · cases read
      · split at read
        · cases read
        · rename_i value tail first
          obtain ⟨others, more, same⟩ := Option.map_eq_some_iff.mp read
          cases same
          refine readable_create (List.forall_mem_cons.mpr ⟨ih.value _ _ _ first, ?_⟩) finite
          exact ih.fields _ _ _ more
  · exact readNumber_readable reads read finite

theorem reads_readable (reads : ReadsNumbers number) : ∀ fuel, ReadsReadable number fuel
  | 0 => ⟨nofun, nofun, nofun⟩
  | fuel + 1 => by
    have ih := reads_readable reads fuel
    refine ⟨fun text value rest read => readValue_readable reads ih read, ?_, ?_⟩
    · intro text items rest read finite
      rw [readItems] at read
      split at read
      · cases read
        trivial
      · split at read
        · cases read
        · rename_i item tail first
          obtain ⟨others, more, same⟩ := Option.map_eq_some_iff.mp read
          cases same
          exact ⟨ih.value _ _ _ first finite.1, ih.items _ _ _ more finite.2⟩
      · cases read
    · intro text fields rest read
      rw [readFields] at read
      split at read
      · cases read
        simp
      · split at read
        · cases read
        · split at read
          · cases read
          · rename_i value tail first
            obtain ⟨others, more, same⟩ := Option.map_eq_some_iff.mp read
            cases same
            exact List.forall_mem_cons.mpr ⟨ih.value _ _ _ first, ih.fields _ _ _ more⟩
      · cases read

theorem parse_readable (reads : ReadsNumbers number) {text : String} {value : Json}
    (parsed : parse number text = some value) (finite : Finite value) : Readable number value := by
  unfold parse at parsed
  split at parsed
  · rename_i read
    split at parsed
    · obtain rfl := Option.some.inj parsed
      exact (reads_readable reads _).value _ _ _ read finite
    · cases parsed
  · cases parsed

/-- What is read from a field of an object that was parsed is readable as well. -/
theorem Readable.get {value field : Json} {key : String} (readable : Readable number value)
    (found : value.get key = some field) : Readable number field := by
  cases value with
  | obj fields =>
    obtain ⟨before, after, rfl, -⟩ := List.lookup_eq_some_iff.mp found
    exact readableFields_iff.mp readable.2 (key, field) (by simp)
  | _ => cases found

end Json
