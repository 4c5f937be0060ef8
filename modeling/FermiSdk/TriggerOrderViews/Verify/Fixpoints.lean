import FermiSdk.TriggerOrderViews.Verify.Redaction

/-!
# Redaction removes nothing else

The first pass leaves a value as it is once it was applied (`strip_strip`), and the second pass does
so with a leg view (`whitelist_whitelist`), which the first pass leaves alone as well. So a redacted
response is redacted to itself (`redact_redact`).

Without forbidden keys the first pass only cuts at its depth limit (`strip_eq_cutAt`), and a leg that
is in the shape of a view already is the same as its view (`whitelist_same_of_isView`).
-/

namespace FermiSdk.TriggerOrderViews

open FermiSdk.Lib FermiSdk.Lib.Json

variable {depth : Nat} {value view : JsonValue} {record : JsonRecord}

/-! ## The passes, applied again -/

theorem deletesOnly_strip : DeletesOnly stripForbiddenKeys keptKey where
  scalar h hscalar := strip_scalar hscalar h
  array := strip_array
  object := strip_object
  kept _ := id

theorem strip_strip :
    stripForbiddenKeys depth (stripForbiddenKeys depth value) = stripForbiddenKeys depth value :=
  deletesOnly_strip.strip

/-- An object whose fields the first pass leaves alone. -/
theorem strip_object_eq_self (h : ¬ depth > MAX_REDACT_DEPTH)
    (hrecord : ∀ entry ∈ record,
      keptKey entry.1 = true ∧ stripForbiddenKeys (depth + 1) entry.2 = entry.2) :
    stripForbiddenKeys depth (.object record) = .object record := by
  rw [strip_object h, mapValues_eq_self hrecord]

theorem scalarEntry_name {field : String} {entry : String × JsonValue}
    (h : scalarEntry record field = some entry) : entry.1 = field :=
  (scalarEntry_eq_some h).1

theorem strip_pickScalars {fields : List String} (h : depth + 1 ≤ MAX_REDACT_DEPTH)
    (hfields : ∀ field ∈ fields, keptKey field = true) :
    stripForbiddenKeys depth (pickScalars value fields) = pickScalars value fields := by
  cases value with
  | object record =>
    apply strip_object_eq_self (by omega)
    intro entry hentry
    obtain ⟨field, hfield, hentry⟩ := List.mem_filterMap.1 hentry
    obtain ⟨rfl, hscalar⟩ := scalarEntry_eq_some hentry
    exact ⟨hfields _ hfield, strip_scalar hscalar (by omega)⟩
  | _ => exact strip_scalar rfl (by omega)

theorem viewEntry_name {field : String} {entry : String × JsonValue}
    (h : viewEntry record field = some entry) : entry.1 = field := by
  unfold viewEntry at h
  split at h
  · obtain ⟨value, -, rfl⟩ := Option.map_eq_some_iff.1 h
    rfl
  · split at h
    · obtain ⟨value, -, rfl⟩ := Option.map_eq_some_iff.1 h
      rfl
    · exact scalarEntry_name h

theorem strip_viewEntry {field : String} {entry : String × JsonValue}
    (hdepth : depth + 1 ≤ MAX_REDACT_DEPTH) (h : viewEntry record field = some entry) :
    stripForbiddenKeys depth entry.2 = entry.2 := by
  unfold viewEntry at h
  split at h
  · obtain ⟨value, -, rfl⟩ := Option.map_eq_some_iff.1 h
    exact strip_pickScalars hdepth (by decide)
  · split at h
    · obtain ⟨value, -, rfl⟩ := Option.map_eq_some_iff.1 h
      exact strip_pickScalars hdepth (by decide)
    · exact strip_scalar (scalarEntry_eq_some h).2 (by omega)

/-- The first pass leaves a view alone. -/
theorem strip_whitelist (hdepth : depth + 2 ≤ MAX_REDACT_DEPTH)
    (h : whitelistTriggerLegView value = some view) : stripForbiddenKeys depth view = view := by
  cases value with
  | object record =>
    rw [whitelistTriggerLegView, Option.some_inj] at h
    subst h
    apply strip_object_eq_self (by omega)
    intro entry hentry
    obtain ⟨field, hfield, hentry⟩ := List.mem_filterMap.1 hentry
    refine ⟨?_, strip_viewEntry (by omega) hentry⟩
    rw [viewEntry_name hentry]
    exact keptKey_of_viewField field hfield
  | _ => cases h

theorem lookup_scalars {fields : List String} {field : String} :
    (fields.filterMap (scalarEntry record)).lookup field =
      if field ∈ fields then (scalarEntry record field).map Prod.snd else none :=
  lookup_filterMap fun _ _ => scalarEntry_name

theorem lookup_view {field : String} :
    (TRIGGER_LEG_VIEW_FIELDS.filterMap (viewEntry record)).lookup field =
      if field ∈ TRIGGER_LEG_VIEW_FIELDS then (viewEntry record field).map Prod.snd else none :=
  lookup_filterMap fun _ _ => viewEntry_name

/-- An entry that was picked is picked again. -/
theorem scalarEntry_of_lookup {record' : JsonRecord} {field : String}
    (h : record'.lookup field = (scalarEntry record field).map Prod.snd) :
    scalarEntry record' field = scalarEntry record field := by
  unfold scalarEntry at h ⊢
  rw [h]
  cases hvalue : record.lookup field with
  | none => rfl
  | some value => by_cases hscalar : isJsonScalar value = true <;> simp [hscalar]

theorem pickScalars_pickScalars {fields : List String} :
    pickScalars (pickScalars value fields) fields = pickScalars value fields := by
  cases value with
  | object record =>
    rw [pickScalars, pickScalars]
    congr 1
    apply List.filterMap_congr
    intro field hfield
    apply scalarEntry_of_lookup
    rw [lookup_scalars, if_pos hfield]
  | _ => rfl

theorem viewEntry_of_lookup {record' : JsonRecord} {field : String}
    (h : record'.lookup field = (viewEntry record field).map Prod.snd) :
    viewEntry record' field = viewEntry record field := by
  unfold viewEntry at h ⊢
  split
  · next harmed =>
    rw [if_pos harmed] at h
    rw [h]
    cases record.lookup field <;> simp [pickScalars_pickScalars]
  · next harmed =>
    rw [if_neg harmed] at h
    split
    · next hfire =>
      rw [if_pos hfire] at h
      rw [h]
      cases record.lookup field <;> simp [pickScalars_pickScalars]
    · next hfire =>
      rw [if_neg hfire] at h
      exact scalarEntry_of_lookup h

/-- A view is its own view. -/
theorem whitelist_whitelist (h : whitelistTriggerLegView value = some view) :
    whitelistTriggerLegView view = some view := by
  cases value with
  | object record =>
    rw [whitelistTriggerLegView, Option.some_inj] at h
    subst h
    rw [whitelistTriggerLegView]
    congr 2
    apply List.filterMap_congr
    intro field hfield
    apply viewEntry_of_lookup
    rw [lookup_view, if_pos hfield]
  | _ => cases h

theorem redactOrder_redactOrder : redactOrder (redactOrder value) = redactOrder value := by
  have heq : redactOrder value = (whitelistTriggerLegView value).getD .null := redactOrder_eq
  rw [heq]
  cases h : whitelistTriggerLegView value with
  | none => rfl
  | some view => rw [Option.getD_some, redactOrder_eq, whitelist_whitelist h, Option.getD_some]

theorem redactOrders_redactOrders : redactOrders (redactOrders value) = redactOrders value := by
  cases value with
  | array legs =>
    rw [redactOrders, redactOrders]
    congr 1
    induction legs with
    | nil => rfl
    | cons leg legs ih =>
      cases h : whitelistTriggerLegView leg with
      | none => rw [List.filterMap_cons_none h, ih]
      | some view =>
        rw [List.filterMap_cons_some h, List.filterMap_cons_some (whitelist_whitelist h), ih]
  | _ => rfl

/-! ## A redacted response is redacted to itself -/

/-- A field of a redacted response: each pass leaves it alone. -/
structure FixedField (entry : String × JsonValue) : Prop where
  kept : keptKey entry.1 = true
  strip : stripForbiddenKeys 1 entry.2 = entry.2
  orders : entry.1 = "orders" → redactOrders entry.2 = entry.2
  order : entry.1 = "order" → redactOrder entry.2 = entry.2

theorem redact_of_fixed (h : ∀ entry ∈ record, FixedField entry) :
    redactTriggerKeeperResponse (.object record) = .object record := by
  rw [redact_object, mapValues_eq_self fun entry hentry => ⟨(h entry hentry).kept,
    (h entry hentry).strip⟩, modify_eq_self fun entry hentry => (h entry hentry).orders,
    modify_eq_self fun entry hentry => (h entry hentry).order]

theorem strip_redactOrders (h : stripForbiddenKeys 1 value = value) :
    stripForbiddenKeys 1 (redactOrders value) = redactOrders value := by
  cases value with
  | array legs =>
    rw [redactOrders, strip_array (by decide)]
    congr 1
    refine (List.map_congr_left fun view hview => ?_).trans (List.map_id _)
    obtain ⟨leg, -, hleg⟩ := List.mem_filterMap.1 hview
    exact strip_whitelist (by decide) hleg
  | _ => exact h

theorem strip_redactOrder : stripForbiddenKeys 1 (redactOrder value) = redactOrder value := by
  rw [redactOrder_eq]
  cases h : whitelistTriggerLegView value with
  | none => rfl
  | some view => exact strip_whitelist (by decide) h

/-- The fields of a redacted response are fixed. -/
theorem fixedField_redact {entry : String × JsonValue} (h : entry ∈ modify "order" redactOrder
    (modify "orders" redactOrders (mapValues keptKey (stripForbiddenKeys 1) record))) :
    FixedField entry := by
  obtain ⟨ordered, hordered, rfl⟩ := List.mem_map.1 h
  obtain ⟨stripped, hstripped, rfl⟩ := List.mem_map.1 hordered
  obtain ⟨source, hsource, rfl⟩ := List.mem_map.1 hstripped
  obtain ⟨-, hkept⟩ := List.mem_filter.1 hsource
  have hne : "orders" ≠ "order" := by decide
  by_cases horders : source.1 = "orders"
  · simp only [horders, hne, if_true, if_false]
    exact ⟨rfl, strip_redactOrders strip_strip, fun _ => redactOrders_redactOrders,
      fun heq => absurd heq hne⟩
  · by_cases horder : source.1 = "order"
    · simp only [horder, hne.symm, if_true, if_false]
      exact ⟨rfl, strip_redactOrder, fun heq => absurd heq hne.symm,
        fun _ => redactOrder_redactOrder⟩
    · simp only [horders, horder, if_false]
      exact ⟨hkept, strip_strip, fun heq => absurd heq horders, fun heq => absurd heq horder⟩

theorem redact_redact (body : JsonValue) :
    redactTriggerKeeperResponse (redactTriggerKeeperResponse body) =
      redactTriggerKeeperResponse body := by
  cases body with
  | object record =>
    rw [redact_object]
    exact redact_of_fixed fun entry => fixedField_redact
  | array items =>
    have hstrip : stripForbiddenKeys 0 (.array items) =
        .array (items.map (stripForbiddenKeys 1)) := strip_array (by decide)
    unfold redactTriggerKeeperResponse
    rw [hstrip]
    dsimp only
    rw [← hstrip, strip_strip, hstrip]
  | _ => rfl

/-! ## The shape of a view -/

/-- A detail of a view: null, or an object of scalars under the detail's fields. -/
def IsDetail (fields : List String) : JsonValue → Prop
  | .null => True
  | .object record => ∀ entry ∈ record, entry.1 ∈ fields ∧ isJsonScalar entry.2 = true
  | _ => False

/-- A field in the shape that it has in a view. -/
def IsViewField (entry : String × JsonValue) : Prop :=
  if entry.1 = "armed" then IsDetail TRIGGER_LEG_ARMED_FIELDS entry.2
  else if entry.1 = "last_fire" then IsDetail TRIGGER_LEG_LAST_FIRE_FIELDS entry.2
  else isJsonScalar entry.2 = true

/-- An object with the fields of a view. -/
def IsView : JsonValue → Prop
  | .object record => ∀ entry ∈ record, entry.1 ∈ TRIGGER_LEG_VIEW_FIELDS ∧ IsViewField entry
  | _ => False

/-- The legs under `orders`, if it is an array, and the leg under `order`, if it is not null, are in
the shape of a view. -/
def LegsAreViews : JsonValue → Prop
  | .object record =>
    (∀ legs, record.lookup "orders" = some (.array legs) → ∀ leg ∈ legs, IsView leg) ∧
      ∀ leg, record.lookup "order" = some leg → leg ≠ .null → IsView leg
  | _ => True

theorem cutAt_scalar {n : Nat} (h : isJsonScalar value = true) : cutAt (n + 1) value = value := by
  cases value with
  | array items => cases h
  | object record => cases h
  | _ => rfl

theorem cutAt_isDetail {n : Nat} {fields : List String} (h : IsDetail fields value) :
    cutAt (n + 2) value = value := by
  cases value with
  | null => rfl
  | object record =>
    rw [cutAt_object, mapValues_eq_self]
    exact fun entry hentry => ⟨rfl, cutAt_scalar (h entry hentry).2⟩
  | _ => exact h.elim

/-- A view is not deep. -/
theorem cutAt_isView {n : Nat} (h : IsView value) : cutAt (n + 3) value = value := by
  cases value with
  | object record =>
    rw [cutAt_object, mapValues_eq_self]
    intro entry hentry
    have hfield := (h entry hentry).2
    refine ⟨rfl, ?_⟩
    unfold IsViewField at hfield
    split at hfield
    · exact cutAt_isDetail hfield
    · split at hfield
      · exact cutAt_isDetail hfield
      · exact cutAt_scalar hfield
  | _ => exact h.elim

/-- The picked fields of an object are its fields, if these are among the names picked and are
picked as they are. -/
theorem same_filterMap {names : List String} {pick : String → Option (String × JsonValue)}
    (hname : ∀ name entry, pick name = some entry → entry.1 = name)
    (hnone : ∀ name, record.lookup name = none → pick name = none)
    (hpick : ∀ entry ∈ record, entry.1 ∈ names ∧ (record.lookup entry.1 = some entry.2 →
      ∃ value, pick entry.1 = some (entry.1, value) ∧ Same value entry.2)) :
    Same (.object (names.filterMap pick)) (.object record) := by
  rw [same_object_iff]
  intro key
  rw [lookup_filterMap hname]
  cases hvalue : record.lookup key with
  | none =>
    rw [hnone key hvalue]
    split <;> exact .none
  | some value =>
    obtain ⟨hmem, hpick⟩ := hpick (key, value) (mem_of_lookup hvalue)
    obtain ⟨picked, hpicked, hsame⟩ := hpick hvalue
    rw [if_pos hmem, hpicked]
    exact .some hsame

theorem scalarEntry_of_scalar {field : String} (hvalue : record.lookup field = some value)
    (hscalar : isJsonScalar value = true) : scalarEntry record field = some (field, value) := by
  simp [scalarEntry, hvalue, hscalar]

theorem pickScalars_same_of_isDetail {fields : List String} (h : IsDetail fields value) :
    Same (pickScalars value fields) value := by
  cases value with
  | null => exact .null
  | object record =>
    refine same_filterMap (fun _ _ => scalarEntry_name) ?_ ?_
    · intro name hnone
      simp [scalarEntry, hnone]
    · intro entry hentry
      obtain ⟨hmem, hscalar⟩ := h entry hentry
      exact ⟨hmem, fun hvalue => ⟨_, scalarEntry_of_scalar hvalue hscalar, Same.refl _⟩⟩
  | _ => exact h.elim

/-- A leg in the shape of a view is the same as its view. -/
theorem whitelist_same_of_isView (h : IsView value) :
    ∃ view, whitelistTriggerLegView value = some view ∧ Same view value := by
  cases value with
  | object record =>
    refine ⟨_, rfl, same_filterMap (fun _ _ => viewEntry_name) ?_ ?_⟩
    · intro name hnone
      simp [viewEntry, scalarEntry, hnone]
    · intro entry hentry
      obtain ⟨hmem, hfield⟩ := h entry hentry
      refine ⟨hmem, fun hvalue => ?_⟩
      unfold IsViewField at hfield
      unfold viewEntry
      split
      · next harmed =>
        rw [if_pos harmed] at hfield
        rw [hvalue]
        exact ⟨_, rfl, pickScalars_same_of_isDetail hfield⟩
      · next harmed =>
        rw [if_neg harmed] at hfield
        split
        · next hfire =>
          rw [if_pos hfire] at hfield
          rw [hvalue]
          exact ⟨_, rfl, pickScalars_same_of_isDetail hfield⟩
        · next hfire =>
          rw [if_neg hfire] at hfield
          exact ⟨_, scalarEntry_of_scalar hvalue hfield, Same.refl _⟩
  | _ => exact h.elim

/-! ## Without forbidden keys -/

/-- No key occurs that the first pass removes. -/
def Permitted (value : JsonValue) : Prop :=
  ∀ key, key ∈ TRIGGER_FORBIDDEN_KEYS ∨ key = "__proto__" → ¬ KeyAt key value

theorem Permitted.of_mem_array {items : List JsonValue} {item : JsonValue}
    (h : Permitted (.array items)) (hitem : item ∈ items) : Permitted item :=
  fun key hkey hat => h key hkey (.item hitem hat)

theorem Permitted.of_mem_object {entry : String × JsonValue} (h : Permitted (.object record))
    (hentry : entry ∈ record) : keptKey entry.1 = true ∧ Permitted entry.2 := by
  refine ⟨?_, fun key hkey hat => h key hkey (.field hentry hat)⟩
  rw [keptKey, decide_eq_true_eq]
  exact fun hkey => h entry.1 hkey (.here hentry)

theorem strip_eq_cutAt_of_gt (h : depth > MAX_REDACT_DEPTH) :
    stripForbiddenKeys depth value = cutAt (MAX_REDACT_DEPTH + 1 - depth) value := by
  rw [strip_of_gt h, Nat.sub_eq_zero_of_le h, cutAt_zero]

theorem levels_succ (h : ¬ depth > MAX_REDACT_DEPTH) :
    MAX_REDACT_DEPTH + 1 - depth = MAX_REDACT_DEPTH + 1 - (depth + 1) + 1 := by
  omega

/-- Without forbidden keys the first pass only cuts. -/
theorem strip_eq_cutAt (h : Permitted value) :
    stripForbiddenKeys depth value = cutAt (MAX_REDACT_DEPTH + 1 - depth) value := by
  induction value using Json.induct generalizing depth with
  | array items ih =>
    by_cases hdepth : depth > MAX_REDACT_DEPTH
    · exact strip_eq_cutAt_of_gt hdepth
    · rw [strip_array hdepth, levels_succ hdepth, cutAt_array]
      congr 1
      apply List.map_congr_left
      intro item hitem
      exact ih item hitem (h.of_mem_array hitem)
  | object fields ih =>
    by_cases hdepth : depth > MAX_REDACT_DEPTH
    · exact strip_eq_cutAt_of_gt hdepth
    · rw [strip_object hdepth, levels_succ hdepth, cutAt_object]
      congr 1
      apply mapValues_congr
      · intro entry hentry
        exact (h.of_mem_object hentry).1
      · intro entry hentry
        exact ih entry hentry (h.of_mem_object hentry).2
  | _ =>
    by_cases hdepth : depth > MAX_REDACT_DEPTH
    · exact strip_eq_cutAt_of_gt hdepth
    · rw [strip_scalar rfl hdepth, levels_succ hdepth, cutAt_scalar rfl]

/-- A leg in the shape of a view stays as it is, but for the order of its keys. -/
theorem redactOrder_same_of_isView (h : IsView value) :
    Same (redactOrder (cutAt 12 value)) (cutAt 12 value) := by
  obtain ⟨view, hview, hsame⟩ := whitelist_same_of_isView h
  rw [cutAt_isView h, redactOrder_eq, hview]
  exact hsame

theorem redactOrders_same_of_isView
    (h : ∀ legs, value = .array legs → ∀ leg ∈ legs, IsView leg) :
    Same (redactOrders (cutAt 12 value)) (cutAt 12 value) := by
  cases value with
  | array legs =>
    have hlegs := h legs rfl
    have hcut : legs.map (cutAt 11) = legs :=
      (List.map_congr_left fun leg hleg => cutAt_isView (hlegs leg hleg)).trans (List.map_id _)
    rw [cutAt_array, hcut, redactOrders, same_array_iff]
    clear h hcut
    induction legs with
    | nil => exact .nil
    | cons leg legs ih =>
      obtain ⟨view, hview, hsame⟩ := whitelist_same_of_isView (hlegs leg List.mem_cons_self)
      rw [List.filterMap_cons_some hview]
      exact .cons hsame (ih fun other hmem => hlegs other (List.mem_cons_of_mem _ hmem))
  | object fields =>
    rw [cutAt_object]
    exact Same.refl _
  | _ => exact Same.refl _

/-- **Redaction only cuts** what has no forbidden key and holds legs in the shape of views. -/
theorem redact_same_cutAt (hkeys : Permitted value) (hlegs : LegsAreViews value) :
    Same (redactTriggerKeeperResponse value) (cutAt (MAX_REDACT_DEPTH + 1) value) := by
  cases value with
  | object record =>
    have hstrip : mapValues keptKey (stripForbiddenKeys 1) record =
        mapValues (fun _ => true) (cutAt 12) record := by
      apply mapValues_congr
      · intro entry hentry
        exact (hkeys.of_mem_object hentry).1
      · intro entry hentry
        exact strip_eq_cutAt (hkeys.of_mem_object hentry).2
    rw [redact_object, hstrip, cutAt_object, same_object_iff]
    intro key
    simp only [lookup_modify, lookup_mapValues, if_true, Option.map_map]
    cases hvalue : record.lookup key with
    | none => exact .none
    | some value =>
      refine .some ?_
      simp only [Function.comp_apply]
      by_cases horders : key = "orders"
      · subst horders
        have hne : "orders" ≠ "order" := by decide
        rw [if_pos rfl, if_neg hne]
        exact redactOrders_same_of_isView fun legs heq => hlegs.1 legs (heq ▸ hvalue)
      · rw [if_neg horders]
        by_cases horder : key = "order"
        · subst horder
          rw [if_pos rfl]
          by_cases hnull : value = .null
          · subst hnull
            exact .null
          · exact redactOrder_same_of_isView (hlegs.2 value hvalue hnull)
        · rw [if_neg horder]
          exact Same.refl _
  | array items =>
    have hstrip : stripForbiddenKeys 0 (.array items) = cutAt (MAX_REDACT_DEPTH + 1) (.array items) :=
      strip_eq_cutAt hkeys
    rw [cutAt_array] at hstrip ⊢
    unfold redactTriggerKeeperResponse
    rw [hstrip]
    exact Same.refl _
  | _ => exact Same.refl _

/-- **Redaction removes nothing else and is idempotent.** A redacted response is redacted to itself;
and a body without forbidden keys whose legs are in the shape of views is only cut at the depth
limit, so that it stays as it is, but for the order of keys, if it is not deeper. -/
theorem redaction_removes_nothing_else :
    (∀ body, redactTriggerKeeperResponse (redactTriggerKeeperResponse body) =
      redactTriggerKeeperResponse body) ∧
    (∀ body : JsonValue,
      (∀ key, key ∈ TRIGGER_FORBIDDEN_KEYS ∨ key = "__proto__" → ¬ KeyAt key body) →
      LegsAreViews body →
      Same (redactTriggerKeeperResponse body) (cutAt 13 body) ∧
        (body.depth ≤ 12 → Same (redactTriggerKeeperResponse body) body)) := by
  refine ⟨redact_redact, fun body hkeys hlegs => ?_⟩
  have hsame := redact_same_cutAt hkeys hlegs
  refine ⟨hsame, fun hdepth => ?_⟩
  rw [MAX_REDACT_DEPTH, cutAt_of_depth_lt (by omega)] at hsame
  exact hsame

/-- A leg in the shape of a view, with its keys in another order. -/
def viewBody : JsonValue := .object [
  ("order", .object [("armed", .object [("slot", .number (.int 7))]), ("id", .null)])]

theorem redaction_removes_nothing_else_view :
    Same (redactTriggerKeeperResponse viewBody) viewBody := by
  have hkeys : ∀ key, key ∈ TRIGGER_FORBIDDEN_KEYS ∨ key = "__proto__" → ¬ KeyAt key viewBody := by
    intro key hkey
    have hnames : ∀ name ∈ ["order", "armed", "slot", "id"], name ≠ key := by
      rintro name hname rfl
      exact absurd hkey (by revert name; decide)
    have hseven : ¬ KeyAt key (.number (.int 7) : JsonValue) := not_keyAt_scalar rfl
    have hnull : ¬ KeyAt key (.null : JsonValue) := not_keyAt_scalar rfl
    have harmed : ¬ KeyAt key (.object [("slot", .number (.int 7))] : JsonValue) :=
      not_keyAt_object (by simp [hnames, hseven])
    have hleg : ¬ KeyAt key (.object [("armed", .object [("slot", .number (.int 7))]),
        ("id", .null)] : JsonValue) :=
      not_keyAt_object (by simp [hnames, harmed, hnull])
    exact not_keyAt_object (by simp [hnames, hleg])
  have hlegs : LegsAreViews viewBody := by
    refine ⟨nofun, ?_⟩
    rintro leg ⟨⟩ -
    simp [IsView, IsViewField, IsDetail, TRIGGER_LEG_VIEW_FIELDS, TRIGGER_LEG_ARMED_FIELDS,
      isJsonScalar]
  exact (redaction_removes_nothing_else.2 viewBody hkeys hlegs).2 (by decide)

end FermiSdk.TriggerOrderViews
