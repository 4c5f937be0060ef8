import Mathlib.Data.List.Forall2
import Mathlib.Tactic.Common

/-!
# JSON values

JSON values over a type of numbers and one of texts. An object is the list of its entries in the
order in which its keys are enumerated; a key is looked up by its first entry. Two values are the
`Same` if they differ only in the order of keys.

Operations on the fields of an object (`mapValues`, `modify`) are known by what they do to a lookup;
`filterKeys` deletes keys at every depth, and `KeyAt` says that a key occurs at some depth. `cutAt`
replaces what lies at a depth, which changes nothing in a value that is not so deep.
-/

namespace FermiSdk.Lib

/-- A JSON value with numbers in `N` and texts in `S`. -/
inductive Json (N S : Type) where
  | null
  | bool (value : Bool)
  | number (value : N)
  | string (value : S)
  | array (items : List (Json N S))
  | object (fields : List (String × Json N S))

namespace Json

variable {N S : Type}

/-! ## Induction -/

/-- Induction over a value, with a hypothesis for every item and every field. -/
@[elab_as_elim]
theorem induct {motive : Json N S → Prop} (null : motive .null) (bool : ∀ b, motive (.bool b))
    (number : ∀ n, motive (.number n)) (string : ∀ s, motive (.string s))
    (array : ∀ items, (∀ item ∈ items, motive item) → motive (.array items))
    (object : ∀ fields, (∀ entry ∈ fields, motive entry.2) → motive (.object fields))
    (value : Json N S) : motive value :=
  @Json.rec N S motive (fun items => ∀ item ∈ items, motive item)
    (fun fields => ∀ entry ∈ fields, motive entry.2) (fun entry => motive entry.2)
    null bool number string array object nofun
    (fun _ _ hfirst hrest _ h => (List.mem_cons.1 h).elim (fun heq => heq ▸ hfirst) (hrest _))
    nofun
    (fun _ _ hfirst hrest _ h => (List.mem_cons.1 h).elim (fun heq => heq ▸ hfirst) (hrest _))
    (fun _ _ h => h) value

/-! ## Fields -/

/-- The fields with the keys in `keep`, with `f` applied to their values. -/
def mapValues (keep : String → Bool) (f : Json N S → Json N S) (fields : List (String × Json N S)) :
    List (String × Json N S) :=
  (fields.filter fun entry => keep entry.1).map fun entry => (entry.1, f entry.2)

/-- The fields with `f` applied to the value under a key. -/
def modify (key : String) (f : Json N S → Json N S) (fields : List (String × Json N S)) :
    List (String × Json N S) :=
  fields.map fun entry => (entry.1, if entry.1 = key then f entry.2 else entry.2)

variable {keep keep' : String → Bool} {f g h h' : Json N S → Json N S} {key key' : String}
  {fields : List (String × Json N S)}

@[simp] theorem lookup_mapValues :
    (mapValues keep f fields).lookup key =
      if keep key then (fields.lookup key).map f else none := by
  unfold mapValues
  induction fields with
  | nil => simp
  | cons entry fields ih =>
    obtain ⟨name, value⟩ := entry
    by_cases hkey : key = name
    · subst hkey
      by_cases hkeep : keep key
      · simp [hkeep]
      · simpa [hkeep] using ih
    · have hne : (key == name) = false := beq_false_of_ne hkey
      by_cases hkeep : keep name
      · simpa [hkeep, List.lookup_cons, hne] using ih
      · simpa [hkeep, List.lookup_cons, hne] using ih

@[simp] theorem lookup_modify :
    (modify key f fields).lookup key' =
      (fields.lookup key').map fun value => if key' = key then f value else value := by
  unfold modify
  induction fields with
  | nil => rfl
  | cons entry fields ih =>
    obtain ⟨name, value⟩ := entry
    by_cases hkey : key' = name
    · subst hkey
      simp
    · have hne : (key' == name) = false := beq_false_of_ne hkey
      simpa [List.lookup_cons, hne] using ih

theorem mapValues_mapValues :
    mapValues keep f (mapValues keep' g fields) =
      mapValues (fun key => keep' key && keep key) (f ∘ g) fields := by
  unfold mapValues
  induction fields with
  | nil => rfl
  | cons entry fields ih =>
    by_cases hkeep' : keep' entry.1
    · by_cases hkeep : keep entry.1
      · simpa [hkeep', hkeep] using ih
      · simpa [hkeep', hkeep] using ih
    · simpa [hkeep'] using ih

theorem mapValues_congr (hkeep : ∀ entry ∈ fields, keep entry.1 = keep' entry.1)
    (hf : ∀ entry ∈ fields, f entry.2 = g entry.2) :
    mapValues keep f fields = mapValues keep' g fields := by
  unfold mapValues
  rw [List.filter_congr hkeep]
  apply List.map_congr_left
  intro entry hentry
  rw [hf entry (List.mem_of_mem_filter hentry)]

theorem mapValues_eq_self (h : ∀ entry ∈ fields, keep entry.1 = true ∧ f entry.2 = entry.2) :
    mapValues keep f fields = fields := by
  unfold mapValues
  rw [List.filter_eq_self.2 fun entry hentry => (h entry hentry).1]
  refine (List.map_congr_left fun entry hentry => ?_).trans (List.map_id _)
  rw [(h entry hentry).2]
  rfl

theorem modify_eq_self (h : ∀ entry ∈ fields, entry.1 = key → f entry.2 = entry.2) :
    modify key f fields = fields := by
  unfold modify
  refine (List.map_congr_left fun entry hentry => ?_).trans (List.map_id _)
  split
  · next hkey =>
    rw [h entry hentry hkey]
    rfl
  · rfl

/-- What is looked up is a field. -/
theorem mem_of_lookup {value : Json N S} (h : fields.lookup key = some value) :
    (key, value) ∈ fields := by
  obtain ⟨before, after, rfl, -⟩ := List.lookup_eq_some_iff.1 h
  simp

/-- The fields picked by name are looked up by name. -/
theorem lookup_filterMap {names : List String} {pick : String → Option (String × Json N S)}
    (hpick : ∀ name entry, pick name = some entry → entry.1 = name) :
    (names.filterMap pick).lookup key = if key ∈ names then (pick key).map Prod.snd else none := by
  induction names with
  | nil => rfl
  | cons name names ih =>
    rw [List.filterMap_cons]
    by_cases hkey : key = name
    · subst hkey
      cases hentry : pick key with
      | none => simp [ih, hentry]
      | some entry =>
        obtain ⟨name, value⟩ := entry
        obtain rfl : name = key := hpick key _ hentry
        simp
    · cases hentry : pick name with
      | none => simp [ih, hkey]
      | some entry =>
        obtain ⟨name', value⟩ := entry
        obtain rfl : name' = name := hpick name _ hentry
        simp [List.lookup_cons, beq_false_of_ne hkey, ih, hkey]

theorem modify_comm (hne : key ≠ key') :
    modify key f (modify key' g fields) = modify key' g (modify key f fields) := by
  unfold modify
  simp only [List.map_map]
  apply List.map_congr_left
  intro entry _
  by_cases hkey : entry.1 = key
  · simp [hkey, hne]
  · simp [hkey]

/-- A modification that a later one makes up for does not show. -/
theorem modify_mapValues_modify (heq : ∀ value, h (f (g value)) = h' (f value)) :
    modify key h (mapValues keep f (modify key g fields)) =
      modify key h' (mapValues keep f fields) := by
  unfold modify mapValues
  induction fields with
  | nil => rfl
  | cons entry fields ih =>
    by_cases hkeep : keep entry.1
    · by_cases hkey : entry.1 = key
      · simpa [hkeep, hkey ▸ hkeep, hkey, heq] using ih
      · simpa [hkeep, hkey] using ih
    · simpa [hkeep] using ih

/-! ## Deleting keys at every depth -/

mutual

/-- The value without the keys outside `keep`, at any depth. -/
def filterKeys (keep : String → Bool) : Json N S → Json N S
  | .array items => .array (filterKeysItems keep items)
  | .object fields => .object (filterKeysFields keep fields)
  | value => value

/-- The same for the items of a list and the fields of an object. -/
def filterKeysItems (keep : String → Bool) : List (Json N S) → List (Json N S)
  | [] => []
  | item :: items => filterKeys keep item :: filterKeysItems keep items

def filterKeysFields (keep : String → Bool) :
    List (String × Json N S) → List (String × Json N S)
  | [] => []
  | (key, value) :: fields =>
    if keep key then (key, filterKeys keep value) :: filterKeysFields keep fields
    else filterKeysFields keep fields

end

@[simp] theorem filterKeys_array {items : List (Json N S)} :
    filterKeys keep (.array items) = .array (items.map (filterKeys keep)) := by
  rw [filterKeys]
  congr 1
  induction items with
  | nil => rfl
  | cons item items ih => rw [filterKeysItems, ih, List.map_cons]

@[simp] theorem filterKeys_object :
    filterKeys keep (.object fields) = .object (mapValues keep (filterKeys keep) fields) := by
  rw [filterKeys]
  congr 1
  unfold mapValues
  induction fields with
  | nil => rfl
  | cons entry fields ih =>
    rw [filterKeysFields, ih]
    by_cases hkeep : keep entry.1 <;> simp [hkeep]

/-! ## Keys at any depth -/

/-- The key occurs in the value, at some depth. -/
inductive KeyAt (key : String) : Json N S → Prop where
  | here {fields value} (h : (key, value) ∈ fields) : KeyAt key (.object fields)
  | field {fields entry} (h : entry ∈ fields) (hkey : KeyAt key entry.2) :
      KeyAt key (.object fields)
  | item {items item} (h : item ∈ items) (hkey : KeyAt key item) : KeyAt key (.array items)

theorem not_keyAt_array {items : List (Json N S)} (hitems : ∀ item ∈ items, ¬ KeyAt key item) :
    ¬ KeyAt key (.array items) := by
  rintro (_ | _ | ⟨hitem, hkey⟩)
  exact hitems _ hitem hkey

theorem not_keyAt_object
    (hfields : ∀ entry ∈ fields, entry.1 ≠ key ∧ ¬ KeyAt key entry.2) :
    ¬ KeyAt key (.object fields) := by
  rintro (h | ⟨h, hkey⟩)
  · exact (hfields _ h).1 rfl
  · exact (hfields _ h).2 hkey

/-! ## Depth -/

mutual

/-- The value with null in place of every value at the depth `n` below it. -/
def cutAt : Nat → Json N S → Json N S
  | 0, _ => .null
  | n + 1, .array items => .array (cutItems n items)
  | n + 1, .object fields => .object (cutFields n fields)
  | _ + 1, value => value

/-- The same for items and fields. -/
def cutItems (n : Nat) : List (Json N S) → List (Json N S)
  | [] => []
  | item :: items => cutAt n item :: cutItems n items

def cutFields (n : Nat) : List (String × Json N S) → List (String × Json N S)
  | [] => []
  | (key, value) :: fields => (key, cutAt n value) :: cutFields n fields

end

mutual

/-- The depth of the deepest value inside. -/
def depth : Json N S → Nat
  | .array items => depthItems items
  | .object fields => depthFields fields
  | _ => 0

/-- The largest depth of the items. -/
def depthItems : List (Json N S) → Nat
  | [] => 0
  | item :: items => max (depth item + 1) (depthItems items)

def depthFields : List (String × Json N S) → Nat
  | [] => 0
  | (_, value) :: fields => max (depth value + 1) (depthFields fields)

end

@[simp] theorem cutAt_zero (value : Json N S) : cutAt 0 value = .null := by
  rw [cutAt]

@[simp] theorem cutAt_array {n : Nat} {items : List (Json N S)} :
    cutAt (n + 1) (.array items) = .array (items.map (cutAt n)) := by
  rw [cutAt]
  congr 1
  induction items with
  | nil => rfl
  | cons item items ih => rw [cutItems, ih, List.map_cons]

@[simp] theorem cutAt_object {n : Nat} :
    cutAt (n + 1) (.object fields) = .object (mapValues (fun _ => true) (cutAt n) fields) := by
  rw [cutAt]
  congr 1
  unfold mapValues
  induction fields with
  | nil => rfl
  | cons entry fields ih =>
    rw [cutFields, ih]
    rfl

theorem depth_lt_array {items : List (Json N S)} {item : Json N S} (h : item ∈ items) :
    depth item < depth (.array items) := by
  rw [depth]
  induction items with
  | nil => cases h
  | cons first items ih =>
    rw [depthItems]
    rcases List.mem_cons.1 h with rfl | h
    · omega
    · have := ih h
      omega

theorem depth_lt_object {entry : String × Json N S} (h : entry ∈ fields) :
    depth entry.2 < depth (.object fields) := by
  rw [depth]
  induction fields with
  | nil => cases h
  | cons first fields ih =>
    rw [depthFields]
    rcases List.mem_cons.1 h with rfl | h
    · omega
    · have := ih h
      omega

/-- A value that is not so deep stays as it is. -/
theorem cutAt_of_depth_lt {n : Nat} {value : Json N S} (h : depth value < n) :
    cutAt n value = value := by
  obtain ⟨n, rfl⟩ : ∃ m, n = m + 1 := ⟨n - 1, by omega⟩
  induction value using induct generalizing n with
  | array items ih =>
    rw [cutAt_array]
    congr 1
    refine (List.map_congr_left fun item hitem => ?_).trans (List.map_id _)
    have hlt := depth_lt_array hitem
    obtain ⟨m, rfl⟩ : ∃ m, n = m + 1 := ⟨n - 1, by omega⟩
    exact ih item hitem m (by omega)
  | object fields ih =>
    rw [cutAt_object, mapValues_eq_self]
    intro entry hentry
    have hlt := depth_lt_object hentry
    obtain ⟨m, rfl⟩ : ∃ m, n = m + 1 := ⟨n - 1, by omega⟩
    exact ⟨rfl, ih entry hentry m (by omega)⟩
  | _ => rfl

/-! ## Texts -/

mutual

/-- The texts of a value at any depth, those of keys included. -/
def texts : Json N String → List String
  | .string text => [text]
  | .array items => textsItems items
  | .object fields => textsFields fields
  | _ => []

/-- The texts of the items, then those of the fields. -/
def textsItems : List (Json N String) → List String
  | [] => []
  | item :: items => texts item ++ textsItems items

def textsFields : List (String × Json N String) → List String
  | [] => []
  | (key, value) :: fields => key :: (texts value ++ textsFields fields)

end

/-! ## Equality up to the order of keys -/

/-- The values are equal but for the order of keys in their objects. -/
inductive Same : Json N S → Json N S → Prop where
  | null : Same .null .null
  | bool (b) : Same (.bool b) (.bool b)
  | number (n) : Same (.number n) (.number n)
  | string (s) : Same (.string s) (.string s)
  | array {xs ys} (hlength : xs.length = ys.length) (h : ∀ x y, (x, y) ∈ xs.zip ys → Same x y) :
      Same (.array xs) (.array ys)
  | object {fs gs} (hkeys : ∀ key, (fs.lookup key).isSome = (gs.lookup key).isSome)
      (h : ∀ key v w, fs.lookup key = some v → gs.lookup key = some w → Same v w) :
      Same (.object fs) (.object gs)

theorem Same.refl (value : Json N S) : Same value value := by
  induction value using induct with
  | null => exact .null
  | bool b => exact .bool b
  | number n => exact .number n
  | string s => exact .string s
  | array items ih =>
    refine .array rfl ?_
    intro x y hxy
    obtain ⟨i, hi, hget⟩ := List.mem_iff_getElem.1 hxy
    rw [List.getElem_zip, Prod.mk.injEq] at hget
    obtain ⟨rfl, rfl⟩ := hget
    exact ih _ (List.getElem_mem _)
  | object fields ih =>
    refine .object (fun _ => rfl) ?_
    intro key v w hv hw
    rw [hv, Option.some_inj] at hw
    subst hw
    exact ih (key, v) (mem_of_lookup hv)

theorem same_array_iff {xs ys : List (Json N S)} :
    Same (.array xs) (.array ys) ↔ List.Forall₂ Same xs ys := by
  rw [List.forall₂_iff_zip]
  constructor
  · rintro (_ | _ | _ | _ | ⟨hlength, h⟩)
    exact ⟨hlength, fun {x y} => h x y⟩
  · rintro ⟨hlength, h⟩
    exact .array hlength fun x y => h

/-- The fields of the same object, looked up one by one. -/
theorem same_object_iff {fs gs : List (String × Json N S)} :
    Same (.object fs) (.object gs) ↔
      ∀ key, Option.Rel Same (fs.lookup key) (gs.lookup key) := by
  constructor
  · rintro (_ | _ | _ | _ | _ | ⟨hkeys, h⟩) key
    have hkey := hkeys key
    cases hv : fs.lookup key with
    | none =>
      rw [hv, Option.isSome_none, eq_comm, Option.isSome_eq_false_iff, Option.isNone_iff_eq_none]
        at hkey
      rw [hkey]
      exact .none
    | some v =>
      rw [hv, Option.isSome_some, eq_comm, Option.isSome_iff_exists] at hkey
      obtain ⟨w, hw⟩ := hkey
      rw [hw]
      exact .some (h key v w hv hw)
  · intro h
    refine .object ?_ ?_
    · intro key
      have hkey := h key
      generalize fs.lookup key = v, gs.lookup key = w at hkey
      cases hkey <;> rfl
    · intro key v w hv hw
      have hkey := h key
      rw [hv, hw] at hkey
      cases hkey with
      | some hvw => exact hvw

end Json

end FermiSdk.Lib
