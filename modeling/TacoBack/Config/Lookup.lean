import TacoBack.Config.Service

/-!
# ConfigService.get as path lookup

The tables of the document are JavaScript objects, and its leaves have properties too. The loop takes a
property of either kind for a key, and a value that is falsy for a missing one.
-/

namespace TacoBack.ConfigService

/-- A value that the loop may reach: a value of the document, a number or a text, or else an object of the
language itself, such as a function. -/
inductive Value (N : Type) where
  | data (value : Json)
  | native (object : N)

/-- The properties that values have apart from the keys of tables: inherited ones, and the indices and
lengths of arrays and texts. -/
structure Builtins (N : Type) where
  property : Json → String → Option (Value N)
  member : N → String → Option (Value N)

variable {N : Type} (builtins : Builtins N)

/-- `tmp[key]`, without `undefined`. -/
def property : Value N → String → Option (Value N)
  | .data value, key =>
    match value.get key with
    | some next => some (.data next)
    | none => builtins.property value key
  | .native object, key => builtins.member object key

def Value.truthy : Value N → Bool
  | .data value => ConfigService.truthy value
  | .native _ => true

/-- The loop of `get`, with all the properties of JavaScript values. -/
def walkIn : List String → Value N → Option (Value N)
  | [], tmp => some tmp
  | key :: path, tmp =>
    match property builtins tmp key with
    | none => none
    | some next => if next.truthy then walkIn path next else none

def getIn (config : Json) (key : String) : Option (Value N) := walkIn builtins (path key) (.data config)

/-- The value under the segments of a path, as keys of the document. -/
def lookup : List String → Json → Option Json
  | [], value => some value
  | key :: path, value => (value.get key).bind (lookup path)

def LooksUp (config : Json) (key : String) : Prop :=
  getIn builtins config key = (lookup (path key) config).map .data

/-- The segments lead from one value to another through properties that are truthy. -/
inductive Leads : Value N → List String → Value N → Prop where
  | nil {value} : Leads value [] value
  | cons {value key next path last} (here : property builtins value key = some next) (counts : next.truthy = true)
      (rest : Leads next path last) : Leads value (key :: path) last

/-- The first segment that is no key of the document is a truthy property of the value reached, and the
others lead on from it. -/
inductive Strays : Json → List String → Prop where
  | leave {value key next path last} (absent : value.get key = none)
      (there : builtins.property value key = some next) (counts : next.truthy = true)
      (rest : Leads builtins next path last) : Strays value (key :: path)
  | step {value next : Json} {key path} (here : value.get key = some next) (counts : ConfigService.truthy next = true)
      (rest : Strays next path) : Strays value (key :: path)

variable {builtins} {config value next : Json} {key : String} {segments : List String}

theorem walkIn_iff {tmp last : Value N} : walkIn builtins segments tmp = some last ↔ Leads builtins tmp segments last := by
  induction segments generalizing tmp with
  | nil =>
    constructor
    · intro same
      obtain rfl := Option.some.inj same
      exact .nil
    · rintro ⟨⟩
      rfl
  | cons key segments ih =>
    rw [walkIn]
    constructor
    · intro walked
      split at walked
      · cases walked
      rename_i next here
      split at walked
      · rename_i counts
        exact .cons here counts (ih.mp walked)
      · cases walked
    · rintro (_ | ⟨here, counts, rest⟩)
      rw [here]
      dsimp only
      rw [if_pos counts]
      exact ih.mpr rest

theorem walkIn_absent (absent : value.get key = none) : walkIn builtins (key :: segments) (.data value) = none ↔
    ¬ Strays builtins value (key :: segments) := by
  have there : property builtins (.data value) key = builtins.property value key := by rw [property, absent]
  constructor
  · rintro nothing (⟨_, there', counts, rest⟩ | ⟨here, -, -⟩)
    · have walked := walkIn_iff.mpr (Leads.cons (there.trans there') counts rest)
      cases nothing.symm.trans walked
    · cases absent.symm.trans here
  · intro stays
    cases walked : walkIn builtins (key :: segments) (.data value) with
    | none => rfl
    | some last =>
      obtain _ | ⟨here, counts, rest⟩ := walkIn_iff.mp walked
      exact (stays (.leave absent (there.symm.trans here) counts rest)).elim

theorem walkIn_present (present : value.get key = some next) : walkIn builtins (key :: segments) (.data value) =
    if truthy next then walkIn builtins segments (.data next) else none := by
  rw [walkIn, property, present]
  rfl

theorem strays_present (present : value.get key = some next) :
    Strays builtins value (key :: segments) ↔ truthy next = true ∧ Strays builtins next segments := by
  constructor
  · rintro (⟨absent, -, -, -⟩ | ⟨here, counts, rest⟩)
    · cases absent.symm.trans present
    · obtain rfl := Option.some.inj (here.symm.trans present)
      exact ⟨counts, rest⟩
  · rintro ⟨counts, rest⟩
    exact .step present counts rest

theorem truthy_of_get (present : value.get key = some next) : truthy value = true := by
  cases value with
  | obj fields => rfl
  | _ => cases present

theorem walkIn_eq_iff (key : String) (segments : List String) (value : Json) :
    walkIn builtins (key :: segments) (.data value) = (lookup (key :: segments) value).map .data ↔
      (∀ found, lookup (key :: segments) value = some found → truthy found = true) ∧
        ¬ Strays builtins value (key :: segments) := by
  induction segments generalizing key value with
  | nil =>
    cases present : value.get key with
    | none => simp [lookup, present, walkIn_absent present]
    | some next =>
      have ends : ¬ Strays builtins next [] := nofun
      rw [walkIn_present present, strays_present present, lookup, present]
      by_cases counts : truthy next <;> simp [counts, ends, lookup, walkIn]
  | cons second segments ih =>
    cases present : value.get key with
    | none => simp [lookup, present, walkIn_absent present]
    | some next =>
      have deeper : lookup (key :: second :: segments) value = lookup (second :: segments) next := by
        rw [lookup, present, Option.bind_some]
      rw [walkIn_present present, strays_present present, deeper]
      by_cases counts : truthy next
      · rw [if_pos counts, ih second next]
        simp [counts]
      · have leaf : next.get second = none := by
          cases below : next.get second with
          | none => rfl
          | some _ => exact (counts (truthy_of_get below)).elim
        simp [counts, lookup, leaf]

theorem path_ne_nil (key : String) : path key ≠ [] := by
  intro empty
  exact List.splitOn_ne_nil _ _ (List.map_eq_nil_iff.mp empty)

/-- `get` looks its path up exactly if what it finds is truthy, and a path that is absent strays nowhere. -/
theorem looks_up_iff (builtins : Builtins N) (config : Json) (key : String) : LooksUp builtins config key ↔
    (∀ found, lookup (path key) config = some found → truthy found = true) ∧ ¬ Strays builtins config (path key) := by
  rw [LooksUp, getIn]
  cases segments : path key with
  | nil => exact (path_ne_nil key segments).elim
  | cons first rest => exact walkIn_eq_iff first rest config

theorem getIn_of_get (builtins : Builtins N) (found : get config key = some value) :
    getIn builtins config key = some (.data value) := by
  rw [getIn]
  unfold get at found
  generalize path key = segments at found
  induction segments generalizing config with
  | nil =>
    obtain rfl := Option.some.inj found
    rfl
  | cons first rest ih =>
    rw [walk] at found
    split at found
    · cases found
    rename_i next present
    split at found
    · rename_i counts
      rw [walkIn_present present, if_pos counts]
      exact ih found
    · cases found

/-- Texts have a length, and numbers a constructor with a name. -/
def sampleBuiltins : Builtins String where
  property
    | .str text, "length" => some (.data (.num text.length))
    | .num _, "constructor" => some (.native "Number")
    | _, _ => none
  member
    | name, "name" => some (.data (.str name))
    | _, _ => none

/-- Redis database 0 is lost, and a path beyond the port is found. -/
theorem zero_lost :
    getIn sampleBuiltins (.obj [("global", .obj [("redis", .obj [("db", .num 0)])])]) "global.redis.db" = none ∧
    lookup (path "global.redis.db") (.obj [("global", .obj [("redis", .obj [("db", .num 0)])])]) = some (.num 0) ∧
    getIn sampleBuiltins shippedConfig "http.port.constructor.name" = some (.data (.str "Number")) ∧
    lookup (path "http.port.constructor.name") shippedConfig = none ∧
    ¬ LooksUp sampleBuiltins (.obj [("global", .obj [("redis", .obj [("db", .num 0)])])]) "global.redis.db" ∧
    ¬ LooksUp sampleBuiltins shippedConfig "http.port.constructor.name" := by
  refine ⟨rfl, rfl, rfl, rfl, fun looks => ?_, fun looks => ?_⟩ <;> cases looks

end TacoBack.ConfigService
