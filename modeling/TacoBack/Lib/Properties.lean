import Mathlib.Data.List.AList

/-!
# Objects as lists of properties

The own properties of a JavaScript object are an association list in property order. Storing under a key that is
there replaces the value in place.
-/

namespace AList

variable {α : Type*} {β : Type*} {γ : Type*}

/-- The object with a function applied to each value. -/
def mapValues (f : β → γ) (object : AList fun _ : α => β) : AList fun _ : α => γ where
  entries := object.entries.map fun entry => ⟨entry.1, f entry.2⟩
  nodupKeys := by
    have distinct := object.keys_nodup
    rw [List.NodupKeys, List.keys, List.map_map]
    exact distinct

theorem keys_mapValues (f : β → γ) (object : AList fun _ : α => β) : (object.mapValues f).keys = object.keys := by
  rw [keys, List.keys, mapValues, List.map_map]
  rfl

variable [DecidableEq α] {key other : α}

/-- The entries are read off the keys. -/
theorem entries_eq_keys (object : AList fun _ : α => β) :
    object.entries = object.keys.filterMap fun key => (object.lookup key).map (Sigma.mk key) := by
  have own : ∀ entry ∈ object.entries, (object.lookup entry.1).map (Sigma.mk entry.1) = some entry := by
    intro entry member
    have found : object.lookup entry.1 = some entry.2 := mem_lookup_iff.mpr member
    rw [found]
    rfl
  calc object.entries = object.entries.filterMap some := List.filterMap_some.symm
    _ = object.entries.filterMap fun entry => (object.lookup entry.1).map (Sigma.mk entry.1) :=
      List.filterMap_congr fun entry member => (own entry member).symm
    _ = object.keys.filterMap fun key => (object.lookup key).map (Sigma.mk key) := by
      rw [keys, List.keys, List.filterMap_map]
      rfl

theorem eq_of_lookup {first second : AList fun _ : α => β} (order : first.keys = second.keys)
    (same : ∀ key, first.lookup key = second.lookup key) : first = second := by
  apply AList.ext
  rw [entries_eq_keys first, entries_eq_keys second, order]
  simp only [same]

private theorem kreplace_cons (key first : α) (value old : β) (entries : List (Sigma fun _ : α => β)) :
    (⟨first, old⟩ :: entries).kreplace key value =
      if key = first then ⟨key, value⟩ :: entries else ⟨first, old⟩ :: entries.kreplace key value := by
  unfold List.kreplace
  split
  · rename_i here
    exact List.lookmap_cons_some _ _ (if_pos here)
  · rename_i other
    exact List.lookmap_cons_none _ _ (if_neg other)

private theorem dlookup_kreplace (key other : α) (value : β) (entries : List (Sigma fun _ : α => β)) :
    (entries.kreplace key value).dlookup other =
      if other = key then (entries.dlookup key).map fun _ => value else entries.dlookup other := by
  induction entries with
  | nil => simp [List.kreplace]
  | cons entry entries ih =>
    obtain ⟨first, old⟩ := entry
    rw [kreplace_cons]
    by_cases here : key = first
    · subst here
      by_cases same : other = key
      · subst same
        simp
      · simp [same]
    · by_cases same : other = first
      · subst same
        simp [here, Ne.symm here]
      · simp [same, here, ih]

theorem lookup_replace (object : AList fun _ : α => β) (key other : α) (value : β) :
    (object.replace key value).lookup other =
      if other = key then (object.lookup key).map fun _ => value else object.lookup other :=
  dlookup_kreplace key other value object.entries

theorem lookup_replace_self {object : AList fun _ : α => β} (present : key ∈ object) (value : β) :
    (object.replace key value).lookup key = some value := by
  obtain ⟨old, found⟩ := Option.isSome_iff_exists.mp (lookup_isSome.mpr present)
  rw [lookup_replace, if_pos rfl, found, Option.map_some]

theorem lookup_replace_of_ne (object : AList fun _ : α => β) (different : other ≠ key) (value : β) :
    (object.replace key value).lookup other = object.lookup other := by
  rw [lookup_replace, if_neg different]

theorem lookup_mapValues (f : β → γ) (object : AList fun _ : α => β) (key : α) :
    (object.mapValues f).lookup key = (object.lookup key).map f :=
  List.dlookup_map₂ (f := fun _ => f) key

end AList
