import FermiSdk.TriggerOrderViews

/-!
# Redaction leaks nothing of the signed request

What a response may show is its `publicPart`: no forbidden key at any depth, and of the legs under
`orders` and `order` only the fields of a view. Redaction shows no forbidden key
(`not_keyAt_redact`), and is a function of the public part (`redact_publicPart`): each of its two
passes makes up for what the public part leaves out. It also does not look at the order of keys
(`redact_same`). So bodies with one public part are redacted to one output.
-/

namespace FermiSdk.TriggerOrderViews

open FermiSdk.Lib FermiSdk.Lib.Json

/-! ## The public part -/

/-- The value without the fields outside a list, if it is an object. -/
def keepFields (fields : List String) : JsonValue → JsonValue
  | .object record => .object (mapValues (· ∈ fields) id record)
  | value => value

/-- The leg with the fields of a view, and their details with theirs. -/
def keepLeg : JsonValue → JsonValue
  | .object record => .object
    (modify "armed" (keepFields TRIGGER_LEG_ARMED_FIELDS)
      (modify "last_fire" (keepFields TRIGGER_LEG_LAST_FIRE_FIELDS)
        (mapValues (· ∈ TRIGGER_LEG_VIEW_FIELDS) id record)))
  | value => value

def keepOrders : JsonValue → JsonValue
  | .array legs => .array (legs.map keepLeg)
  | value => value

/-- A body without its forbidden keys, at any depth. -/
def withoutForbidden (body : JsonValue) : JsonValue :=
  filterKeys (· ∉ TRIGGER_FORBIDDEN_KEYS) body

/-- A body without its forbidden keys, at any depth, and with only the fields of a view in its
legs. -/
def publicPart (body : JsonValue) : JsonValue :=
  match withoutForbidden body with
  | .object record => .object (modify "order" keepLeg (modify "orders" keepOrders record))
  | value => value

/-! ## The first pass -/

variable {depth : Nat} {value : JsonValue} {record : JsonRecord} {items : List JsonValue}

/-- The keys that the first pass keeps. -/
def keptKey (key : String) : Bool := ¬ (key ∈ TRIGGER_FORBIDDEN_KEYS ∨ key = "__proto__")

theorem strip_of_gt (h : depth > MAX_REDACT_DEPTH) : stripForbiddenKeys depth value = .null := by
  cases value <;> simp [stripForbiddenKeys, h]

theorem strip_array (h : ¬ depth > MAX_REDACT_DEPTH) :
    stripForbiddenKeys depth (.array items) =
      .array (items.map (stripForbiddenKeys (depth + 1))) := by
  rw [stripForbiddenKeys, if_neg h]
  congr 1
  induction items with
  | nil => rfl
  | cons item items ih => rw [stripItems, ih, List.map_cons]

theorem strip_object (h : ¬ depth > MAX_REDACT_DEPTH) :
    stripForbiddenKeys depth (.object record) =
      .object (mapValues keptKey (stripForbiddenKeys (depth + 1)) record) := by
  rw [stripForbiddenKeys, if_neg h]
  congr 1
  unfold mapValues
  induction record with
  | nil => rfl
  | cons entry record ih =>
    rw [stripRecord, ih]
    by_cases hkey : entry.1 ∈ TRIGGER_FORBIDDEN_KEYS ∨ entry.1 = "__proto__"
    · have hkept : ¬ keptKey entry.1 = true := by simpa only [keptKey, decide_eq_true_eq, not_not]
      simp [hkey, hkept]
    · have hkept : keptKey entry.1 = true := by simpa only [keptKey, decide_eq_true_eq]
      simp [hkey, hkept]

theorem strip_scalar (h : isJsonScalar value = true) (hdepth : ¬ depth > MAX_REDACT_DEPTH) :
    stripForbiddenKeys depth value = value := by
  cases value with
  | array items => cases h
  | object record => cases h
  | _ => simp [stripForbiddenKeys, hdepth]

/-- Above the depth limit a pass only deletes keys that the first pass deletes too. -/
structure DeletesOnly (pass : Nat → JsonValue → JsonValue) (keep : String → Bool) : Prop where
  scalar : ∀ {depth value}, ¬ depth > MAX_REDACT_DEPTH → isJsonScalar value = true →
    pass depth value = value
  array : ∀ {depth items}, ¬ depth > MAX_REDACT_DEPTH →
    pass depth (.array items) = .array (items.map (pass (depth + 1)))
  object : ∀ {depth record}, ¬ depth > MAX_REDACT_DEPTH →
    pass depth (.object record) = .object (mapValues keep (pass (depth + 1)) record)
  kept : ∀ key, keptKey key = true → keep key = true

/-- What such a pass did before does not matter to the first pass. -/
theorem DeletesOnly.strip {pass : Nat → JsonValue → JsonValue} {keep : String → Bool}
    (hpass : DeletesOnly pass keep) :
    stripForbiddenKeys depth (pass depth value) = stripForbiddenKeys depth value := by
  induction value using Json.induct generalizing depth with
  | array items ih =>
    by_cases h : depth > MAX_REDACT_DEPTH
    · rw [strip_of_gt h, strip_of_gt h]
    · rw [hpass.array h, strip_array h, strip_array h, List.map_map]
      congr 1
      apply List.map_congr_left
      intro item hitem
      exact ih item hitem
  | object fields ih =>
    by_cases h : depth > MAX_REDACT_DEPTH
    · rw [strip_of_gt h, strip_of_gt h]
    · rw [hpass.object h, strip_object h, strip_object h, mapValues_mapValues]
      congr 1
      apply mapValues_congr
      · intro entry _
        cases hkept : keptKey entry.1 with
        | true => rw [hpass.kept entry.1 hkept, Bool.and_self]
        | false => exact Bool.and_false _
      · intro entry hentry
        exact ih entry hentry
  | _ =>
    by_cases h : depth > MAX_REDACT_DEPTH
    · rw [strip_of_gt h, strip_of_gt h]
    · rw [hpass.scalar h rfl]

theorem deletesOnly_forbidden :
    DeletesOnly (fun _ => withoutForbidden) (· ∉ TRIGGER_FORBIDDEN_KEYS) where
  scalar {_ value} _ hscalar := by
    cases value with
    | array items => cases hscalar
    | object record => cases hscalar
    | _ => rfl
  array _ := filterKeys_array
  object _ := filterKeys_object
  kept key hkey := by
    simp only [keptKey, decide_eq_true_eq, not_or] at hkey
    exact decide_eq_true hkey.1

/-- Forbidden keys do not matter to the first pass. -/
theorem strip_withoutForbidden :
    stripForbiddenKeys depth (withoutForbidden value) = stripForbiddenKeys depth value :=
  deletesOnly_forbidden.strip

/-! ## The second pass -/

/-- A scalar entry of the stripped fields is one of the fields. -/
theorem scalarEntry_strip {fields : List String} {field : String} (hfield : field ∈ fields) :
    scalarEntry (mapValues keptKey (stripForbiddenKeys depth)
      (mapValues (· ∈ fields) id record)) field =
    scalarEntry (mapValues keptKey (stripForbiddenKeys depth) record) field := by
  simp [scalarEntry, hfield]

/-- The details of a view are those of its own fields. -/
theorem pickScalars_strip_keepFields {fields : List String} :
    pickScalars (stripForbiddenKeys depth (keepFields fields value)) fields =
      pickScalars (stripForbiddenKeys depth value) fields := by
  cases value with
  | object record =>
    by_cases h : depth > MAX_REDACT_DEPTH
    · rw [strip_of_gt h, strip_of_gt h]
    · rw [keepFields, strip_object h, strip_object h, pickScalars, pickScalars]
      congr 1
      apply List.filterMap_congr
      intro field hfield
      exact scalarEntry_strip hfield
  | _ => rfl

theorem keptKey_of_viewField :
    ∀ field ∈ TRIGGER_LEG_VIEW_FIELDS, keptKey field = true := by
  decide

/-- An entry of the view of the stripped fields is one of the kept fields. -/
theorem viewEntry_strip_keepLeg {field : String} (hfield : field ∈ TRIGGER_LEG_VIEW_FIELDS) :
    viewEntry (mapValues keptKey (stripForbiddenKeys depth)
      (modify "armed" (keepFields TRIGGER_LEG_ARMED_FIELDS)
        (modify "last_fire" (keepFields TRIGGER_LEG_LAST_FIRE_FIELDS)
          (mapValues (· ∈ TRIGGER_LEG_VIEW_FIELDS) id record)))) field =
    viewEntry (mapValues keptKey (stripForbiddenKeys depth) record) field := by
  have hkept := keptKey_of_viewField field hfield
  by_cases harmed : field = "armed"
  · subst harmed
    simp only [viewEntry, if_pos, lookup_mapValues, lookup_modify, hfield, decide_true,
      hkept]
    cases record.lookup "armed" <;> simp [pickScalars_strip_keepFields]
  by_cases hfire : field = "last_fire"
  · subst hfire
    simp only [viewEntry, harmed, if_false, if_pos, lookup_mapValues, lookup_modify, hfield,
      decide_true, hkept]
    cases record.lookup "last_fire" <;> simp [pickScalars_strip_keepFields]
  · simp [viewEntry, scalarEntry, harmed, hfire, hfield]

/-- The view of a stripped leg is that of its view fields. -/
theorem whitelist_strip_keepLeg :
    whitelistTriggerLegView (stripForbiddenKeys depth (keepLeg value)) =
      whitelistTriggerLegView (stripForbiddenKeys depth value) := by
  cases value with
  | object record =>
    by_cases h : depth > MAX_REDACT_DEPTH
    · rw [strip_of_gt h, strip_of_gt h]
    · rw [keepLeg, strip_object h, strip_object h, whitelistTriggerLegView,
        whitelistTriggerLegView]
      congr 2
      apply List.filterMap_congr
      intro field hfield
      exact viewEntry_strip_keepLeg hfield
  | _ => rfl

theorem redactOrder_eq : redactOrder value = (whitelistTriggerLegView value).getD .null := by
  cases value <;> rfl

theorem redactOrder_strip_keepLeg :
    redactOrder (stripForbiddenKeys depth (keepLeg value)) =
      redactOrder (stripForbiddenKeys depth value) := by
  rw [redactOrder_eq, redactOrder_eq, whitelist_strip_keepLeg]

theorem redactOrders_strip_keepOrders :
    redactOrders (stripForbiddenKeys depth (keepOrders value)) =
      redactOrders (stripForbiddenKeys depth value) := by
  cases value with
  | array legs =>
    by_cases h : depth > MAX_REDACT_DEPTH
    · rw [strip_of_gt h, strip_of_gt h]
    · rw [keepOrders, strip_array h, strip_array h, redactOrders, redactOrders]
      congr 1
      rw [List.filterMap_map, List.filterMap_map, List.filterMap_map]
      apply List.filterMap_congr
      intro leg _
      exact whitelist_strip_keepLeg
  | _ => rfl

theorem redact_object :
    redactTriggerKeeperResponse (.object record) = .object (modify "order" redactOrder
      (modify "orders" redactOrders (mapValues keptKey (stripForbiddenKeys 1) record))) := by
  rw [redactTriggerKeeperResponse, strip_object (by decide)]

/-- **Redaction is a function of the public part.** -/
theorem redact_publicPart (body : JsonValue) :
    redactTriggerKeeperResponse (publicPart body) = redactTriggerKeeperResponse body := by
  have hstrip : redactTriggerKeeperResponse (withoutForbidden body) =
      redactTriggerKeeperResponse body := by
    unfold redactTriggerKeeperResponse
    rw [strip_withoutForbidden]
  rw [← hstrip, publicPart]
  cases withoutForbidden body with
  | object record =>
    simp only [redact_object]
    congr 1
    -- each modification is made up for by the pass over the same field
    rw [modify_comm (by decide), modify_mapValues_modify fun _ => redactOrder_strip_keepLeg,
      modify_comm (by decide), modify_mapValues_modify fun _ => redactOrders_strip_keepOrders]
  | _ => rfl

/-! ## No forbidden key -/

variable {key : String}

theorem forbidden_ne_fields : ∀ key ∈ TRIGGER_FORBIDDEN_KEYS,
    key ∉ TRIGGER_LEG_VIEW_FIELDS ∧ key ∉ TRIGGER_LEG_ARMED_FIELDS ∧
      key ∉ TRIGGER_LEG_LAST_FIRE_FIELDS := by
  decide

theorem not_keyAt_scalar (h : isJsonScalar value = true) : ¬ KeyAt key value := by
  intro hkey
  cases hkey <;> cases h

theorem not_keyAt_strip (hkey : key ∈ TRIGGER_FORBIDDEN_KEYS) :
    ¬ KeyAt key (stripForbiddenKeys depth value) := by
  induction value using Json.induct generalizing depth with
  | array items ih =>
    by_cases h : depth > MAX_REDACT_DEPTH
    · rw [strip_of_gt h]
      exact not_keyAt_scalar rfl
    · rw [strip_array h]
      apply not_keyAt_array
      intro stripped hstripped
      obtain ⟨item, hitem, rfl⟩ := List.mem_map.1 hstripped
      exact ih item hitem
  | object fields ih =>
    by_cases h : depth > MAX_REDACT_DEPTH
    · rw [strip_of_gt h]
      exact not_keyAt_scalar rfl
    · rw [strip_object h]
      apply not_keyAt_object
      intro stripped hstripped
      obtain ⟨entry, hentry, rfl⟩ := List.mem_map.1 hstripped
      obtain ⟨hmem, hkept⟩ := List.mem_filter.1 hentry
      refine ⟨?_, ih entry hmem⟩
      rintro rfl
      simp [keptKey, hkey] at hkept
  | _ =>
    by_cases h : depth > MAX_REDACT_DEPTH
    · rw [strip_of_gt h]
      exact not_keyAt_scalar rfl
    · rw [strip_scalar rfl h]
      exact not_keyAt_scalar rfl

theorem scalarEntry_eq_some {field : String} {entry : String × JsonValue}
    (h : scalarEntry record field = some entry) :
    entry.1 = field ∧ isJsonScalar entry.2 = true := by
  simp only [scalarEntry, Option.bind_eq_bind, Option.bind_eq_some_iff,
    Option.ite_none_right_eq_some, Option.some_inj] at h
  obtain ⟨value, -, hscalar, rfl⟩ := h
  exact ⟨rfl, hscalar⟩

theorem not_keyAt_pickScalars {fields : List String} (h : key ∉ fields) :
    ¬ KeyAt key (pickScalars value fields) := by
  cases value with
  | object record =>
    apply not_keyAt_object
    intro entry hentry
    obtain ⟨field, hfield, hentry⟩ := List.mem_filterMap.1 hentry
    obtain ⟨hname, hscalar⟩ := scalarEntry_eq_some hentry
    refine ⟨?_, not_keyAt_scalar hscalar⟩
    rintro rfl
    exact h (hname ▸ hfield)
  | _ => exact not_keyAt_scalar rfl

/-- An entry of a view has the name of its field, and no forbidden key inside. -/
theorem viewEntry_eq_some (hkey : key ∈ TRIGGER_FORBIDDEN_KEYS) {field : String}
    {entry : String × JsonValue} (h : viewEntry record field = some entry) :
    entry.1 = field ∧ ¬ KeyAt key entry.2 := by
  obtain ⟨-, harmed, hfire⟩ := forbidden_ne_fields key hkey
  unfold viewEntry at h
  split at h
  · obtain ⟨value, -, rfl⟩ := Option.map_eq_some_iff.1 h
    exact ⟨rfl, not_keyAt_pickScalars harmed⟩
  · split at h
    · obtain ⟨value, -, rfl⟩ := Option.map_eq_some_iff.1 h
      exact ⟨rfl, not_keyAt_pickScalars hfire⟩
    · obtain ⟨hname, hscalar⟩ := scalarEntry_eq_some h
      exact ⟨hname, not_keyAt_scalar hscalar⟩

theorem not_keyAt_whitelist (hkey : key ∈ TRIGGER_FORBIDDEN_KEYS) {view : JsonValue}
    (h : whitelistTriggerLegView value = some view) : ¬ KeyAt key view := by
  cases value with
  | object record =>
    rw [whitelistTriggerLegView, Option.some_inj] at h
    subst h
    apply not_keyAt_object
    intro entry hentry
    obtain ⟨field, hfield, hentry⟩ := List.mem_filterMap.1 hentry
    obtain ⟨hname, hinside⟩ := viewEntry_eq_some hkey hentry
    refine ⟨?_, hinside⟩
    rintro rfl
    exact (forbidden_ne_fields _ hkey).1 (hname ▸ hfield)
  | _ => cases h

theorem not_keyAt_redactOrder (hkey : key ∈ TRIGGER_FORBIDDEN_KEYS) :
    ¬ KeyAt key (redactOrder value) := by
  rw [redactOrder_eq]
  cases h : whitelistTriggerLegView value with
  | none => exact not_keyAt_scalar rfl
  | some view => exact not_keyAt_whitelist hkey h

theorem not_keyAt_redactOrders (hkey : key ∈ TRIGGER_FORBIDDEN_KEYS) (h : ¬ KeyAt key value) :
    ¬ KeyAt key (redactOrders value) := by
  cases value with
  | array legs =>
    apply not_keyAt_array
    intro view hview
    obtain ⟨leg, -, hview⟩ := List.mem_filterMap.1 hview
    exact not_keyAt_whitelist hkey hview
  | _ => exact h

/-- **A redacted response has no forbidden key, at any depth.** -/
theorem not_keyAt_redact (hkey : key ∈ TRIGGER_FORBIDDEN_KEYS) :
    ¬ KeyAt key (redactTriggerKeeperResponse value) := by
  unfold redactTriggerKeeperResponse
  have hstripped : ¬ KeyAt key (stripForbiddenKeys 0 value) := not_keyAt_strip hkey
  cases h : stripForbiddenKeys 0 value with
  | object record =>
    rw [h] at hstripped
    apply not_keyAt_object
    intro redacted hredacted
    obtain ⟨ordered, hordered, rfl⟩ := List.mem_map.1 hredacted
    obtain ⟨entry, hentry, rfl⟩ := List.mem_map.1 hordered
    have hname : entry.1 ≠ key := by
      rintro rfl
      exact hstripped (.here hentry)
    have hinside : ¬ KeyAt key entry.2 := fun h => hstripped (.field hentry h)
    refine ⟨hname, ?_⟩
    by_cases horders : entry.1 = "orders"
    · simpa [horders] using not_keyAt_redactOrders hkey hinside
    · by_cases horder : entry.1 = "order"
      · simpa [horders, horder] using not_keyAt_redactOrder hkey
      · simpa [horders, horder] using hinside
  | _ =>
    rw [h] at hstripped
    exact hstripped

/-! ## The order of keys -/

variable {value' : JsonValue} {record' : JsonRecord}

theorem strip_same (h : Same value value') :
    Same (stripForbiddenKeys depth value) (stripForbiddenKeys depth value') := by
  induction h generalizing depth with
  | array hlength h ih =>
    by_cases hdepth : depth > MAX_REDACT_DEPTH
    · rw [strip_of_gt hdepth, strip_of_gt hdepth]
      exact .null
    · rw [strip_array hdepth, strip_array hdepth, same_array_iff, List.forall₂_map_left_iff,
        List.forall₂_map_right_iff, List.forall₂_iff_zip]
      exact ⟨hlength, fun hmem => ih _ _ hmem⟩
  | @object fs gs hkeys h ih =>
    by_cases hdepth : depth > MAX_REDACT_DEPTH
    · rw [strip_of_gt hdepth, strip_of_gt hdepth]
      exact .null
    · rw [strip_object hdepth, strip_object hdepth]
      refine .object ?_ ?_
      · intro key
        by_cases hkept : keptKey key <;> simp [hkept, hkeys key]
      · intro key v w hv hw
        rw [lookup_mapValues, Option.ite_none_right_eq_some] at hv hw
        obtain ⟨v', hv', rfl⟩ := Option.map_eq_some_iff.1 hv.2
        obtain ⟨w', hw', rfl⟩ := Option.map_eq_some_iff.1 hw.2
        exact ih key v' w' hv' hw'
  | _ => exact Same.refl _

/-- Scalars are the same only if they are equal. -/
theorem scalar_same (h : Same value value') :
    isJsonScalar value = isJsonScalar value' ∧ (isJsonScalar value = true → value = value') := by
  cases h with
  | array => exact ⟨rfl, nofun⟩
  | object => exact ⟨rfl, nofun⟩
  | _ => exact ⟨rfl, fun _ => rfl⟩

theorem scalarEntry_same (h : Same (.object record) (.object record')) (field : String) :
    scalarEntry record field = scalarEntry record' field := by
  have hfield := same_object_iff.1 h field
  unfold scalarEntry
  generalize record.lookup field = v, record'.lookup field = w at hfield
  cases hfield with
  | none => rfl
  | @some v w hvw =>
    obtain ⟨hscalar, heq⟩ := scalar_same hvw
    by_cases hv : isJsonScalar v = true
    · simp [heq hv]
    · simp [hv, ← hscalar]

theorem pickScalars_same (h : Same value value') (fields : List String) :
    pickScalars value fields = pickScalars value' fields := by
  cases h with
  | object hkeys h =>
    rw [pickScalars, pickScalars]
    congr 1
    apply List.filterMap_congr
    intro field _
    exact scalarEntry_same (.object hkeys h) field
  | _ => rfl

theorem viewEntry_same (h : Same (.object record) (.object record')) (field : String) :
    viewEntry record field = viewEntry record' field := by
  have hfield := same_object_iff.1 h field
  unfold viewEntry
  rw [scalarEntry_same h]
  generalize record.lookup field = v, record'.lookup field = w at hfield
  cases hfield with
  | none => rfl
  | some hvw => simp only [Option.map_some, pickScalars_same hvw]

theorem whitelist_same (h : Same value value') :
    whitelistTriggerLegView value = whitelistTriggerLegView value' := by
  cases h with
  | object hkeys h =>
    rw [whitelistTriggerLegView, whitelistTriggerLegView]
    congr 2
    apply List.filterMap_congr
    intro field _
    exact viewEntry_same (.object hkeys h) field
  | _ => rfl

theorem redactOrder_same (h : Same value value') :
    Same (redactOrder value) (redactOrder value') := by
  rw [redactOrder_eq, redactOrder_eq, whitelist_same h]
  exact Same.refl _

theorem redactOrders_same (h : Same value value') :
    Same (redactOrders value) (redactOrders value') := by
  cases h with
  | @array xs ys hlength h =>
    have hviews : xs.filterMap whitelistTriggerLegView = ys.filterMap whitelistTriggerLegView := by
      have hlegs := same_array_iff.1 (.array hlength h)
      clear hlength h
      induction hlegs with
      | nil => rfl
      | cons hleg _ ih => rw [List.filterMap_cons, List.filterMap_cons, whitelist_same hleg, ih]
    rw [redactOrders, redactOrders, hviews]
    exact Same.refl _
  | object hkeys h => exact .object hkeys h
  | _ => exact Same.refl _

theorem modify_same {f : JsonValue → JsonValue} (hf : ∀ v w, Same v w → Same (f v) (f w))
    (h : Same (.object record) (.object record')) :
    Same (.object (modify key f record)) (.object (modify key f record')) := by
  rw [same_object_iff] at h ⊢
  intro name
  rw [lookup_modify, lookup_modify]
  have hname := h name
  generalize record.lookup name = v, record'.lookup name = w at hname
  cases hname with
  | none => exact .none
  | some hvw =>
    by_cases hkey : name = key
    · simpa [hkey] using hf _ _ hvw
    · simpa [hkey] using hvw

/-- Redaction does not look at the order of keys. -/
theorem redact_same (h : Same value value') :
    Same (redactTriggerKeeperResponse value) (redactTriggerKeeperResponse value') := by
  have hstrip : Same (stripForbiddenKeys 0 value) (stripForbiddenKeys 0 value') := strip_same h
  unfold redactTriggerKeeperResponse
  generalize stripForbiddenKeys 0 value = v, stripForbiddenKeys 0 value' = w at hstrip
  cases hstrip with
  | object hkeys h =>
    exact modify_same (fun _ _ => redactOrder_same)
      (modify_same (fun _ _ => redactOrders_same) (.object hkeys h))
  | array hlength h => exact .array hlength h
  | _ => exact Same.refl _

/-! ## Main result -/

/-- **Redaction leaks nothing about the signed request.** No forbidden key occurs in a redacted
response, and bodies with one public part have one redacted response: with the keys in the same
order, or, if the public parts have their keys in different orders, up to the order of keys. -/
theorem redaction_leaks_nothing :
    (∀ body, ∀ key ∈ TRIGGER_FORBIDDEN_KEYS, ¬ KeyAt key (redactTriggerKeeperResponse body)) ∧
    (∀ a b, publicPart a = publicPart b →
      redactTriggerKeeperResponse a = redactTriggerKeeperResponse b) ∧
    (∀ a b, Same (publicPart a) (publicPart b) →
      Same (redactTriggerKeeperResponse a) (redactTriggerKeeperResponse b)) := by
  refine ⟨fun body key hkey => not_keyAt_redact hkey, ?_, ?_⟩
  · intro a b h
    rw [← redact_publicPart a, h, redact_publicPart]
  · intro a b h
    rw [← redact_publicPart a, ← redact_publicPart b]
    exact redact_same h

/-- A response with a stored request in a leg, in the history, and next to the fields of `armed`. -/
def storedBody : JsonValue := .object [
  ("orders", .array [.object [
    ("id", .string (.ofString "leg-1")),
    ("request", .object [("payload_b64", .string (.ofString "AQMAAP8="))]),
    ("armed", .object [("slot", .number (.int 7)), ("intent", .string (.ofString "AQMAAP8="))]),
    ("signed", .string (.ofString "AQMAAP8="))]]),
  ("history", .array [.object [("payload_b64", .string (.ofString "AQMAAP8=")), ("ok", .bool true)]])]

/-- What is public of it. -/
def publicBody : JsonValue := .object [
  ("orders", .array [.object [
    ("id", .string (.ofString "leg-1")), ("armed", .object [("slot", .number (.int 7))])]]),
  ("history", .array [.object [("ok", .bool true)]])]

theorem redaction_leaks_nothing_stored :
    ¬ KeyAt "payload_b64" (redactTriggerKeeperResponse storedBody) ∧
      redactTriggerKeeperResponse storedBody = redactTriggerKeeperResponse publicBody ∧
      Same (redactTriggerKeeperResponse storedBody) (redactTriggerKeeperResponse publicBody) := by
  have hpublic : publicPart storedBody = publicPart publicBody := rfl
  refine ⟨redaction_leaks_nothing.1 _ _ (by decide), redaction_leaks_nothing.2.1 _ _ hpublic, ?_⟩
  apply redaction_leaks_nothing.2.2
  rw [hpublic]
  exact Same.refl _

end FermiSdk.TriggerOrderViews
