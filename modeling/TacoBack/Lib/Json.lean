import Mathlib.Data.List.Basic

/-!
# JSON values

The values `JSON.parse` returns, with the object fields in property order.
`undefined`, which JSON lacks, is the `none` of `Option Json`.
-/

/-- `num` is an integer that JavaScript prints in full. Every other number is a `float`, known by
the text JavaScript prints for it. -/
inductive Json where
  | null
  | bool (b : Bool)
  | num (n : Int)
  | float (text : String)
  | str (s : String)
  | arr (items : List Json)
  | obj (fields : List (String × Json))

namespace Json

mutual

def beq : Json → Json → Bool
  | null, null => true
  | bool a, bool b => a == b
  | num a, num b => a == b
  | float a, float b => a == b
  | str a, str b => a == b
  | arr a, arr b => beqItems a b
  | obj a, obj b => beqFields a b
  | _, _ => false

def beqItems : List Json → List Json → Bool
  | [], [] => true
  | x :: xs, y :: ys => beq x y && beqItems xs ys
  | _, _ => false

def beqFields : List (String × Json) → List (String × Json) → Bool
  | [], [] => true
  | (j, x) :: xs, (k, y) :: ys => j == k && beq x y && beqFields xs ys
  | _, _ => false

end

mutual

theorem eq_of_beq : ∀ x y : Json, beq x y = true → x = y
  | null, y, h | bool _, y, h | num _, y, h | float _, y, h | str _, y, h => by
    cases y <;> simp_all [beq]
  | arr xs, y, h => by
    cases y with
    | arr ys =>
      simp only [beq] at h
      rw [eq_of_beqItems xs ys h]
    | _ => simp [beq] at h
  | obj xs, y, h => by
    cases y with
    | obj ys =>
      simp only [beq] at h
      rw [eq_of_beqFields xs ys h]
    | _ => simp [beq] at h

theorem eq_of_beqItems : ∀ xs ys : List Json, beqItems xs ys = true → xs = ys
  | [], [], _ => rfl
  | x :: xs, y :: ys, h => by
    simp only [beqItems, Bool.and_eq_true] at h
    rw [eq_of_beq x y h.1, eq_of_beqItems xs ys h.2]
  | [], _ :: _, h | _ :: _, [], h => by simp [beqItems] at h

theorem eq_of_beqFields : ∀ xs ys : List (String × Json), beqFields xs ys = true → xs = ys
  | [], [], _ => rfl
  | (j, x) :: xs, (k, y) :: ys, h => by
    simp only [beqFields, Bool.and_eq_true, beq_iff_eq] at h
    rw [h.1.1, eq_of_beq x y h.1.2, eq_of_beqFields xs ys h.2]
  | [], _ :: _, h | _ :: _, [], h => by simp [beqFields] at h

end

mutual

theorem beq_refl : ∀ x : Json, beq x x = true
  | null => rfl
  | bool _ | num _ | float _ | str _ => by simp [beq]
  | arr xs => by simpa only [beq] using beqItems_refl xs
  | obj xs => by simpa only [beq] using beqFields_refl xs

theorem beqItems_refl : ∀ xs : List Json, beqItems xs xs = true
  | [] => rfl
  | x :: xs => by simp [beqItems, beq_refl x, beqItems_refl xs]

theorem beqFields_refl : ∀ xs : List (String × Json), beqFields xs xs = true
  | [] => rfl
  | (_, x) :: xs => by simp [beqFields, beq_refl x, beqFields_refl xs]

end

instance : DecidableEq Json := fun x y =>
  decidable_of_iff (beq x y = true) ⟨eq_of_beq x y, fun same => same ▸ beq_refl x⟩

/-- `value[key]` for a key that only objects can carry. -/
def get : Json → String → Option Json
  | obj fields, key => fields.lookup key
  | _, _ => none

/-- Objects and arrays, which a query may read as operators; the rest are plain values. -/
def isContainer : Json → Bool
  | obj _ | arr _ => true
  | _ => false

mutual

def toText : Json → String
  | null => "null"
  | bool b => if b then "true" else "false"
  | num n => toString n
  | float text => text
  | str s => s
  | arr items => ",".intercalate (itemTexts items)
  | obj _ => "[object Object]"

/-- The parts `Array.prototype.join` puts together: a `null` item prints as nothing. -/
def itemTexts : List Json → List String
  | [] => []
  | null :: items => "" :: itemTexts items
  | item :: items => toText item :: itemTexts items

end

/-- `${value}`, where the value may be `undefined`. -/
def template : Option Json → String
  | none => "undefined"
  | some value => value.toText

theorem lookup_sizeOf {fields : List (String × Json)} {key : String} {value : Json}
    (found : fields.lookup key = some value) : sizeOf value < sizeOf fields := by
  induction fields with
  | nil => simp at found
  | cons field fields ih =>
    obtain ⟨name, item⟩ := field
    rw [List.lookup_cons] at found
    split at found
    · obtain rfl := Option.some.inj found
      simp only [List.cons.sizeOf_spec, Prod.mk.sizeOf_spec]
      omega
    · have smaller := ih found
      simp only [List.cons.sizeOf_spec]
      omega

theorem get_sizeOf {value item : Json} {key : String} (found : value.get key = some item) :
    sizeOf item < sizeOf value := by
  cases value with
  | obj fields =>
    have smaller := lookup_sizeOf found
    simp only [obj.sizeOf_spec]
    omega
  | _ => simp [get] at found

end Json
