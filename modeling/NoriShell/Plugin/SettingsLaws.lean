import NoriShell.Plugin.Settings

namespace NoriShell.Plugin.Settings

open Collections

theorem F64.not_isNan {x : F64} (finite : x.isFinite = true) : x.isNan = false := by
  simp only [isFinite, decide_eq_true_eq] at finite
  simp only [isNan, decide_eq_false_iff_not, not_lt]
  omega

theorem F64.le_of_not_lt {x y : F64} (x_finite : x.isFinite = true) (y_finite : y.isFinite = true)
    (not_lt : y.lt x = false) : x.le y = true := by
  simp only [lt, not_isNan x_finite, not_isNan y_finite, Bool.not_false, Bool.true_and,
    decide_eq_false_iff_not] at not_lt
  simpa [le, not_isNan x_finite, not_isNan y_finite] using not_lt

theorem validateOptions_ok {values all : List String} {options : List PluginSettingSelectOption}
    (accepted : validateOptions values options = .ok all) :
    all = values ++ options.map (·.value) := by
  induction options generalizing values with
  | nil =>
    cases accepted
    simp
  | cons option options ih =>
    simp only [validateOptions, Check.bind_unit_eq_ok] at accepted
    rw [ih accepted.2.2]
    simp

theorem default_valid {field : PluginSettingField} (accepted : validateField field = .ok ()) :
    settingValueIsValid field field.default = true := by
  cases field with
  | boolean => rfl
  | number key label default min max =>
    simp only [validateField, Check.bind_unit_eq_ok, Check.reject_eq_ok, Bool.or_eq_true, not_or,
      Bool.not_eq_true, Bool.not_eq_eq_eq_not] at accepted
    obtain ⟨-, ⟨⟨⟨⟨⟨finite, min_finite⟩, max_finite⟩, -⟩, above⟩, below⟩⟩ := accepted
    replace finite : default.isFinite = true := by simpa using finite
    simp only [settingValueIsValid, PluginSettingField.default, finite, Bool.true_and,
      Bool.and_eq_true]
    constructor
    · cases min with
      | none => rfl
      | some min =>
        exact F64.le_of_not_lt (by simpa using min_finite) finite (by simpa using above)
    · cases max with
      | none => rfl
      | some max =>
        exact F64.le_of_not_lt finite (by simpa using max_finite) (by simpa using below)
  | string key label default maxLength =>
    simp only [validateField, Check.bind_unit_eq_ok, Check.reject_eq_ok, not_or] at accepted
    obtain ⟨-, -, short, plain⟩ := accepted
    simp only [settingValueIsValid, PluginSettingField.default, Bool.and_eq_true, decide_eq_true_eq]
    exact ⟨Nat.le_of_not_lt short, by simpa using plain⟩
  | select key label default options =>
    simp only [validateField, Check.bind_unit_eq_ok, Check.reject_eq_ok] at accepted
    obtain ⟨-, -, rest⟩ := accepted
    obtain ⟨values, read, listed⟩ := Check.bind_eq_ok.1 rest
    rw [Check.reject_eq_ok] at listed
    rw [validateOptions_ok read] at listed
    simpa [settingValueIsValid, PluginSettingField.default] using listed

theorem validateFields_ok {seen last : Seen} {fields : List PluginSettingField}
    (nodup : seen.keys.Nodup) (accepted : validateFields seen fields = .ok last) :
    (seen.keys ++ fields.map (·.key)).Nodup ∧ ∀ field ∈ fields, validateField field = .ok () := by
  induction fields generalizing seen with
  | nil => simpa using nodup
  | cons field fields ih =>
    simp only [validateFields, Check.bind_unit_eq_ok, Check.reject_eq_ok, Bool.or_eq_true, not_or]
      at accepted
    obtain ⟨⟨-, fresh⟩, valid, rest⟩ := accepted
    have longer : (seen.keys ++ [field.key]).Nodup := by
      rw [List.nodup_append]
      refine ⟨nodup, List.nodup_singleton _, ?_⟩
      rintro a member b same rfl
      rw [List.mem_singleton.1 same] at member
      exact fresh (List.contains_iff_mem.2 member)
    obtain ⟨all_nodup, all_valid⟩ := ih longer rest
    rw [List.append_assoc] at all_nodup
    refine ⟨all_nodup, ?_⟩
    intro f member
    rcases List.mem_cons.1 member with rfl | member
    · exact valid
    · exact all_valid f member

structure WellFormed (schema : PluginSettingsSchema) : Prop where
  accepted : validateSettingsSchema schema = .ok ()
  nodup : (schema.fields.map (·.key)).Nodup
  defaults : ∀ field ∈ schema.fields, settingValueIsValid field field.default = true

theorem wellFormed_of_accepted {schema : PluginSettingsSchema}
    (accepted : validateSettingsSchema schema = .ok ()) : WellFormed schema := by
  have passes := accepted
  simp only [validateSettingsSchema, Check.bind_eq_ok] at passes
  obtain ⟨-, -, seen, fields, -⟩ := passes
  obtain ⟨nodup, valid⟩ := validateFields_ok List.nodup_nil fields
  exact ⟨accepted, nodup, fun field member => default_valid (valid field member)⟩

section

variable {writeNumber : F64 → List Char} {parse : List UInt8 → Option PluginSettingsSchema}

theorem wellFormed_of_inspect {bytes : List UInt8} {inspected : InspectedPluginSettings}
    (accepted : inspectPluginSettings writeNumber parse bytes = .ok inspected) :
    WellFormed inspected.schema := by
  simp only [inspectPluginSettings, Check.bind_eq_ok] at accepted
  obtain ⟨-, -, schema, -, ⟨⟩, valid, -, -, json, -, same⟩ := accepted
  cases same
  exact wellFormed_of_accepted valid

def valuesOf (schema : PluginSettingsSchema) (choose : PluginSettingField → PluginSettingValue) :
    PluginSettingsValues :=
  BTreeMap.ofList (schema.fields.map fun field => (field.key, choose field))

variable {schema : PluginSettingsSchema} {choose : PluginSettingField → PluginSettingValue}

theorem defaultSettingsValues_eq :
    defaultSettingsValues schema = valuesOf schema PluginSettingField.default := rfl

theorem fst_entries : (schema.fields.map fun field => (field.key, choose field)).map Prod.fst =
    schema.fields.map (·.key) := by
  rw [List.map_map]
  rfl

theorem WellFormed.get?_valuesOf (wellFormed : WellFormed schema) {key : String}
    {value : PluginSettingValue} :
    (valuesOf schema choose).get? key = some value ↔
      ∃ field ∈ schema.fields, field.key = key ∧ choose field = value := by
  rw [valuesOf, BTreeMap.get?_ofList (by rw [fst_entries]; exact wellFormed.nodup), List.mem_map]
  simp only [Prod.mk.injEq]

theorem WellFormed.get?_field (wellFormed : WellFormed schema) {field : PluginSettingField}
    (member : field ∈ schema.fields) :
    (valuesOf schema choose).get? field.key = some (choose field) :=
  wellFormed.get?_valuesOf.2 ⟨field, member, rfl, rfl⟩

theorem WellFormed.size_valuesOf (wellFormed : WellFormed schema) :
    (valuesOf schema choose).size = schema.fields.length := by
  rw [valuesOf, BTreeMap.size,
    (BTreeMap.toList_ofList_perm (by rw [fst_entries]; exact wellFormed.nodup)).length_eq,
    List.length_map]

theorem WellFormed.validate_valuesOf (wellFormed : WellFormed schema)
    (suits : ∀ field ∈ schema.fields, settingValueIsValid field (choose field) = true) :
    validateSettingsValues writeNumber schema (valuesOf schema choose) = .ok () ↔
      String.utf8Len (valuesJson writeNumber (valuesOf schema choose)) ≤
        maxPluginSettingsValuesBytes := by
  simp only [validateSettingsValues, Check.bind_unit_eq_ok, wellFormed.accepted,
    Check.reject_eq_ok, Check.each_eq_ok, true_and, not_lt]
  constructor
  · rintro ⟨-, -, -, short⟩
    exact short
  · intro short
    refine ⟨not_not.2 wellFormed.size_valuesOf, ?_, ?_, short⟩
    · intro field member
      simp [wellFormed.get?_field member, suits field member]
    · simp only [List.any_eq_true, not_exists, not_and, Bool.not_eq_true', Bool.not_eq_false]
      intro key present
      obtain ⟨value, found⟩ := BTreeMap.mem_keys.1 present
      obtain ⟨field, member, same, -⟩ := wellFormed.get?_valuesOf.1 found
      exact ⟨field, member, decide_eq_true same⟩

/-- A value that an update has to keep: its key is in both schemas with the same kind, and it
meets the constraints of the new field. -/
structure Keeps (old : PluginSettingsSchema) (values : PluginSettingsValues)
    (field : PluginSettingField) (value : PluginSettingValue) : Prop where
  declared : ∃ before ∈ old.fields, before.key = field.key ∧ before.kind = field.kind
  held : values.get? field.key = some value
  suits : settingValueIsValid field value = true

variable {old : PluginSettingsSchema} {values : PluginSettingsValues}
  {field : PluginSettingField} {value : PluginSettingValue}

theorem WellFormed.find?_key (wellFormed : WellFormed old) {before : PluginSettingField}
    {key : String} :
    old.fields.find? (·.key = key) = some before ↔ before ∈ old.fields ∧ before.key = key := by
  constructor
  · intro found
    exact ⟨List.mem_of_find?_eq_some found, by simpa using List.find?_some found⟩
  · rintro ⟨member, rfl⟩
    cases found : old.fields.find? (·.key = before.key) with
    | none => exact absurd (decide_eq_true rfl) (List.find?_eq_none.1 found before member)
    | some first =>
      have same : first.key = before.key := by simpa using List.find?_some found
      rw [List.inj_on_of_nodup_map wellFormed.nodup (List.mem_of_find?_eq_some found) member same]

theorem WellFormed.preserved_iff (wellFormed : WellFormed old) :
    preserved (some old) (some values) field = some value ↔ Keeps old values field value := by
  simp only [preserved, Option.bind_some, Option.filter_eq_some_iff, Option.bind_eq_some_iff,
    wellFormed.find?_key, decide_eq_true_eq]
  constructor
  · rintro ⟨⟨before, ⟨⟨member, key⟩, kind⟩, held⟩, suits⟩
    exact ⟨⟨before, member, key, kind⟩, held, suits⟩
  · rintro ⟨⟨before, member, key, kind⟩, held, suits⟩
    exact ⟨⟨before, ⟨⟨member, key⟩, kind⟩, held⟩, suits⟩

def settled (old : PluginSettingsSchema) (values : PluginSettingsValues)
    (field : PluginSettingField) : PluginSettingValue :=
  (preserved (some old) (some values) field).getD field.default

def mixture (new old : PluginSettingsSchema) (values : PluginSettingsValues) :
    PluginSettingsValues :=
  valuesOf new (settled old values)

def resets (new old : PluginSettingsSchema) (values : PluginSettingsValues) : List String :=
  (new.fields.filter fun field => (preserved (some old) (some values) field).isNone).map (·.key)

theorem WellFormed.settled_valid (wellFormed : WellFormed schema) :
    ∀ field ∈ schema.fields, settingValueIsValid field (settled old values field) = true := by
  intro field member
  rw [settled]
  cases kept : preserved (some old) (some values) field with
  | none => exact wellFormed.defaults field member
  | some value => exact (Option.filter_eq_some_iff.1 kept).2

theorem foldl_settled (fields : List PluginSettingField) (soFar : PluginSettingsValues)
    (keys : List String) :
    fields.foldl (fun soFar field => (soFar.1.insert field.key (settled old values field),
        if (preserved (some old) (some values) field).isNone then soFar.2 ++ [field.key]
        else soFar.2)) (soFar, keys) =
      (soFar.extend (fields.map fun field => (field.key, settled old values field)),
        keys ++ (fields.filter fun field =>
          (preserved (some old) (some values) field).isNone).map (·.key)) := by
  induction fields generalizing soFar keys with
  | nil =>
    rw [List.filter_nil, List.map_nil, List.map_nil, List.append_nil]
    rfl
  | cons field fields ih =>
    rw [List.foldl_cons, ih, List.filter_cons]
    refine Prod.ext rfl ?_
    dsimp only
    split <;> simp

theorem WellFormed.foldlM_reconcileField (wellFormed : WellFormed schema) : schema.fields.foldlM
        (reconcileField (some old) (some values) (defaultSettingsValues schema)) (.empty, []) =
      .ok (mixture schema old values, resets schema old values) := by
  rw [Check.foldlM_eq_ok (g := fun soFar field =>
    (soFar.1.insert field.key (settled old values field),
      if (preserved (some old) (some values) field).isNone then soFar.2 ++ [field.key]
      else soFar.2))]
  · rw [foldl_settled]
    rfl
  · intro soFar field member
    have default : (defaultSettingsValues schema).get? field.key = some field.default := by
      rw [defaultSettingsValues_eq, wellFormed.get?_field member]
    unfold reconcileField settled
    cases kept : preserved (some old) (some values) field with
    | none =>
      rw [default]
      rfl
    | some value => rfl

theorem WellFormed.reconcile_eq_ok (wellFormed : WellFormed schema)
    {outcome : PluginSettingsValues × List String} :
    reconcileSettingsValues writeNumber schema (some old) (some values) = .ok outcome ↔
      String.utf8Len (valuesJson writeNumber (mixture schema old values)) ≤
          maxPluginSettingsValuesBytes ∧
        outcome = (mixture schema old values, resets schema old values) := by
  have suits : ∀ field ∈ schema.fields,
      settingValueIsValid field (settled old values field) = true := wellFormed.settled_valid
  rw [mixture, ← wellFormed.validate_valuesOf suits, ← mixture]
  simp only [reconcileSettingsValues, wellFormed.accepted, wellFormed.foldlM_reconcileField]
  change (validateSettingsValues writeNumber schema (mixture schema old values) >>= fun _ =>
    Except.ok (mixture schema old values, resets schema old values)) = .ok outcome ↔ _
  rw [Check.bind_unit_eq_ok, Except.ok.injEq, eq_comm (a := outcome)]

/-- An update succeeds exactly if the kept values and the new defaults are not too long together.
Then the result is valid, keeps exactly the values that still fit, has the default of every other
field, and these fields are reported as reset. -/
theorem reconcile_succeeds_iff {newBytes oldBytes : List UInt8}
    {new previous : InspectedPluginSettings} (values : PluginSettingsValues)
    (new_accepted : inspectPluginSettings writeNumber parse newBytes = .ok new)
    (old_accepted : inspectPluginSettings writeNumber parse oldBytes = .ok previous) :
    ((∃ outcome, reconcileSettingsValues writeNumber new.schema (some previous.schema)
        (some values) = .ok outcome) ↔
      String.utf8Len (valuesJson writeNumber (mixture new.schema previous.schema values)) ≤
        maxPluginSettingsValuesBytes) ∧
    ∀ result resetKeys, reconcileSettingsValues writeNumber new.schema (some previous.schema)
        (some values) = .ok (result, resetKeys) →
      validateSettingsValues writeNumber new.schema result = .ok () ∧
      (∀ field ∈ new.schema.fields, ∀ value, Keeps previous.schema values field value →
        result.get? field.key = some value) ∧
      (∀ field ∈ new.schema.fields, (∀ value, ¬ Keeps previous.schema values field value) →
        result.get? field.key = some field.default) ∧
      (∀ key, result.contains key = true ↔ ∃ field ∈ new.schema.fields, field.key = key) ∧
      resetKeys.Nodup ∧
      (∀ key, key ∈ resetKeys ↔ ∃ field ∈ new.schema.fields, field.key = key ∧
        ∀ value, ¬ Keeps previous.schema values field value) := by
  have new_wellFormed := wellFormed_of_inspect new_accepted
  have old_wellFormed := wellFormed_of_inspect old_accepted
  have unkept {field : PluginSettingField} : (∀ value, ¬ Keeps previous.schema values field value) ↔
        preserved (some previous.schema) (some values) field = none := by
    rw [Option.eq_none_iff_forall_ne_some]
    exact forall_congr' fun value => not_congr old_wellFormed.preserved_iff.symm
  constructor
  · simp only [new_wellFormed.reconcile_eq_ok, exists_and_left, exists_eq, and_true]
  · intro result resetKeys reconciled
    obtain ⟨short, same⟩ := new_wellFormed.reconcile_eq_ok.1 reconciled
    cases same
    refine ⟨(new_wellFormed.validate_valuesOf new_wellFormed.settled_valid).2 short, ?_, ?_, ?_,
      ?_, ?_⟩
    · intro field member value keeps
      rw [mixture, new_wellFormed.get?_field member, settled,
        old_wellFormed.preserved_iff.2 keeps, Option.getD_some]
    · intro field member none_kept
      rw [mixture, new_wellFormed.get?_field member, settled, unkept.1 none_kept, Option.getD_none]
    · intro key
      rw [BTreeMap.contains_iff_mem_keys, BTreeMap.mem_keys]
      simp only [mixture, new_wellFormed.get?_valuesOf]
      constructor
      · rintro ⟨-, field, member, same, -⟩
        exact ⟨field, member, same⟩
      · rintro ⟨field, member, same⟩
        exact ⟨_, field, member, same, rfl⟩
    · exact (List.filter_sublist.map _).nodup new_wellFormed.nodup
    · intro key
      simp only [resets, List.mem_map, List.mem_filter, unkept, Option.isNone_iff_eq_none]
      constructor
      · rintro ⟨field, ⟨member, reset⟩, same⟩
        exact ⟨field, member, same, reset⟩
      · rintro ⟨field, member, same, reset⟩
        exact ⟨field, ⟨member, reset⟩, same⟩

def plainLabel : PluginSettingLabel := ⟨"A", "A"⟩

def noteField (key default : String) : PluginSettingField := .string key plainLabel default 2048

def published : PluginSettingsSchema := ⟨1, [noteField "a" ""], []⟩

def updated (default : String) : PluginSettingsSchema :=
  ⟨1, [noteField "a" "", noteField "b" default], []⟩

@[simp] theorem key_noteField (key default : String) : (noteField key default).key = key := rfl

section

variable {text : String}

theorem accepted_published : validateSettingsSchema published = .ok () := by
  decide

theorem accepted_updated (short : text.length ≤ 2048) (plain : invalidText text = false) :
    validateSettingsSchema (updated text) = .ok () := by
  have first : validateField (noteField "a" "") = .ok () := by decide
  have second : validateField (noteField "b" text) = .ok () := by
    have label : validateLabel plainLabel = .ok () := by decide
    simp only [noteField, validateField, Check.bind_unit_eq_ok, label, Check.reject_eq_ok, plain,
      true_and]
    simpa using short
  have keyA : (!validSettingKey "a" || sensitivePluginSettingKey "a") = false := by decide
  have keyB : (!validSettingKey "b" || sensitivePluginSettingKey "b") = false := by decide
  simp only [validateSettingsSchema, updated, validateFields, first, second]
  simp [noteField, PluginSettingField.key, keyA, keyB, reject, validateTargets]
  exact ⟨by decide, rfl⟩

theorem length_words :
    (String.utf8Len (labelJson plainLabel) = 22 ∧ String.utf8Len (JsonText.natural 2048) = 4 ∧
      String.utf8Len (JsonText.natural 1) = 1) ∧
    (String.utf8Len (JsonText.quote "type") = 6 ∧ String.utf8Len (JsonText.quote "string") = 8 ∧
      String.utf8Len (JsonText.quote "key") = 5 ∧ String.utf8Len (JsonText.quote "label") = 7 ∧
      String.utf8Len (JsonText.quote "default") = 9 ∧
      String.utf8Len (JsonText.quote "maxLength") = 11 ∧
      String.utf8Len (JsonText.quote "schemaVersion") = 15 ∧
      String.utf8Len (JsonText.quote "fields") = 8) ∧
    (String.utf8Len (JsonText.quote "a") = 3 ∧ String.utf8Len (JsonText.quote "b") = 3 ∧
      String.utf8Len (JsonText.quote "") = 2) ∧
    ('\x7b'.utf8Size = 1 ∧ '\x7d'.utf8Size = 1 ∧ ','.utf8Size = 1 ∧ ':'.utf8Size = 1 ∧
      '['.utf8Size = 1 ∧ ']'.utf8Size = 1) := by
  decide

theorem length_noteField (key text : String) :
    String.utf8Len (fieldJson writeNumber (noteField key text)) =
      String.utf8Len (JsonText.quote key) + String.utf8Len (JsonText.quote text) + 83 := by
  simp [fieldJson, noteField, JsonText.object, JsonText.members, String.utf8Len_append,
    String.utf8Len_cons, length_words]
  omega

theorem length_published : String.utf8Len (schemaJson writeNumber published) = 119 := by
  simp [schemaJson, published, JsonText.object, JsonText.array, JsonText.members,
    String.utf8Len_append, String.utf8Len_cons, List.intercalate, length_noteField, length_words]

theorem length_updated (text : String) : String.utf8Len (schemaJson writeNumber (updated text)) =
      String.utf8Len (JsonText.quote text) + 206 := by
  simp [schemaJson, updated, JsonText.object, JsonText.array, JsonText.members,
    String.utf8Len_append, String.utf8Len_cons, List.intercalate, length_noteField, length_words]
  omega

theorem length_published_values {note : String}
    (chosen : choose (noteField "a" "") = .string note) :
    String.utf8Len (valuesJson writeNumber (valuesOf published choose)) =
      String.utf8Len (JsonText.quote note) + 6 := by
  have ordered : Entries.Sorted (published.fields.map fun field => (field.key, choose field)) :=
    List.pairwise_singleton _ _
  rw [valuesJson, valuesOf, BTreeMap.toList_ofList ordered]
  simp [published, chosen, valueJson, JsonText.object, JsonText.members, String.utf8Len_append,
    String.utf8Len_cons, length_words]
  omega

theorem length_updated_values {note more : String}
    (first : choose (noteField "a" "") = .string note)
    (second : choose (noteField "b" text) = .string more) :
    String.utf8Len (valuesJson writeNumber (valuesOf (updated text) choose)) =
      String.utf8Len (JsonText.quote note) + String.utf8Len (JsonText.quote more) + 11 := by
  have ordered : Entries.Sorted ((updated text).fields.map fun field =>
      (field.key, choose field)) := List.pairwise_pair.2 (by decide : "a" < "b")
  rw [valuesJson, valuesOf, BTreeMap.toList_ofList ordered]
  simp [updated, first, second, valueJson, JsonText.object, JsonText.members,
    String.utf8Len_append, String.utf8Len_cons, length_words]
  omega

end

def asset (text : List Char) : List UInt8 := (String.ofList text).toByteArray.data.toList

theorem length_asset (text : List Char) : (asset text).length = String.utf8Len text :=
  String.utf8ByteSize_ofList text

theorem inspect_of_accepted {bytes : List UInt8} (read : parse bytes = some schema)
    (nonempty : bytes ≠ []) (short : bytes.length ≤ maxPluginSettingsSchemaBytes)
    (accepted : validateSettingsSchema schema = .ok ())
    (json_short : String.utf8Len (schemaJson writeNumber schema) ≤ maxPluginSettingsSchemaBytes)
    (defaults : validateSettingsValues writeNumber schema (defaultSettingsValues schema) = .ok ()) :
    ∃ inspected, inspectPluginSettings writeNumber parse bytes = .ok inspected ∧
      inspected.schema = schema := by
  refine ⟨⟨schema, schemaJson writeNumber schema, defaultSettingsValues schema,
    valuesJson writeNumber (defaultSettingsValues schema)⟩, ?_, rfl⟩
  have first : reject (bytes = [] ∨ bytes.length > maxPluginSettingsSchemaBytes)
      PluginPlatformError.invalidSettingsSchema = .ok () :=
    if_neg fun bad => bad.elim nonempty (Nat.not_lt.2 short)
  have second : reject (String.utf8Len (schemaJson writeNumber schema) >
      maxPluginSettingsSchemaBytes) PluginPlatformError.invalidSettingsSchema = .ok () :=
    if_neg (Nat.not_lt.2 json_short)
  have written : settingsValuesJson writeNumber schema (defaultSettingsValues schema) =
      .ok (valuesJson writeNumber (defaultSettingsValues schema)) := by
    rw [settingsValuesJson, defaults]
    rfl
  simp only [inspectPluginSettings, Check.bind_eq_ok]
  exact ⟨(), first, schema, by rw [read]; rfl, (), accepted, (), second, _, written, rfl⟩

end

def noNumbers : F64 → List Char := fun _ => []

def readBack (schemas : List PluginSettingsSchema) (bytes : List UInt8) :
    Option PluginSettingsSchema :=
  schemas.find? fun schema => asset (schemaJson noNumbers schema) = bytes

def wideText : String := String.ofList (List.replicate 2048 '😀')

theorem wideText_plain : wideText.length = 2048 ∧ invalidText wideText = false ∧
    String.utf8Len (JsonText.quote wideText) = 8194 := by
  have chars : wideText.toList = List.replicate 2048 '😀' := String.toList_ofList
  have bytes (n : Nat) : String.utf8Len (List.replicate n '😀') = 4 * n := by
    induction n with
    | zero => rfl
    | succ n ih =>
      rw [List.replicate_succ, String.utf8Len_cons, ih]
      rfl
  refine ⟨?_, ?_, ?_⟩
  · rw [← String.length_toList, chars, List.length_replicate]
  · rw [invalidText, chars, List.any_replicate, if_neg (by decide)]
    decide
  · rw [JsonText.utf8Len_quote, chars, bytes]
    intro c member
    rw [chars] at member
    rw [List.eq_of_mem_replicate member]
    decide

theorem wellFormed_published : WellFormed published := wellFormed_of_accepted accepted_published

theorem wellFormed_updated : WellFormed (updated wideText) :=
  wellFormed_of_accepted (accepted_updated (Nat.le_of_eq wideText_plain.1) wideText_plain.2.1)

theorem wideText_valid (key default : String) :
    settingValueIsValid (noteField key default) (.string wideText) = true := by
  simp [settingValueIsValid, noteField, wideText_plain.1, wideText_plain.2.1]

def notes : PluginSettingsValues := valuesOf published fun _ => .string wideText

theorem notes_valid : validateSettingsValues noNumbers published notes = .ok () := by
  refine (wellFormed_published.validate_valuesOf ?_).2 ?_
  · intro field member
    rw [List.mem_singleton.1 member]
    exact wideText_valid _ _
  · rw [length_published_values rfl, wideText_plain.2.2]
    decide

theorem settled_note : settled published notes (noteField "a" "") = .string wideText := by
  have member : noteField "a" "" ∈ published.fields := List.mem_singleton_self _
  have keeps : Keeps published notes (noteField "a" "") (.string wideText) :=
    ⟨⟨_, member, rfl, rfl⟩, wellFormed_published.get?_field member, wideText_valid _ _⟩
  rw [settled, wellFormed_published.preserved_iff.2 keeps, Option.getD_some]

abbrev reads : List UInt8 → Option PluginSettingsSchema := readBack [published, updated wideText]

theorem published_inspected : ∃ inspected,
    inspectPluginSettings noNumbers reads (asset (schemaJson noNumbers published)) =
      .ok inspected ∧ inspected.schema = published := by
  have length := length_asset (schemaJson noNumbers published)
  rw [length_published] at length
  refine inspect_of_accepted (List.find?_cons_of_pos (decide_eq_true rfl)) ?_ ?_
    accepted_published ?_ ?_
  · exact List.ne_nil_of_length_pos (by omega)
  · rw [length]
    decide
  · rw [length_published]
    decide
  · refine (wellFormed_published.validate_valuesOf wellFormed_published.defaults).2 ?_
    rw [length_published_values rfl, length_words.2.2.1.2.2]
    decide

theorem updated_inspected : ∃ inspected,
    inspectPluginSettings noNumbers reads (asset (schemaJson noNumbers (updated wideText))) =
      .ok inspected ∧ inspected.schema = updated wideText := by
  have length := length_asset (schemaJson noNumbers (updated wideText))
  rw [length_updated, wideText_plain.2.2] at length
  have apart : asset (schemaJson noNumbers published) ≠
      asset (schemaJson noNumbers (updated wideText)) := by
    intro same
    rw [← same, length_asset, length_published] at length
    omega
  have read : reads (asset (schemaJson noNumbers (updated wideText))) = some (updated wideText) := by
    rw [reads, readBack, List.find?_cons_of_neg (by simpa using apart)]
    exact List.find?_cons_of_pos (decide_eq_true rfl)
  refine inspect_of_accepted read ?_ ?_ wellFormed_updated.accepted ?_ ?_
  · exact List.ne_nil_of_length_pos (by omega)
  · rw [length]
    decide
  · rw [length_updated, wideText_plain.2.2]
    decide
  · refine (wellFormed_updated.validate_valuesOf wellFormed_updated.defaults).2 ?_
    rw [length_updated_values rfl rfl, length_words.2.2.1.2.2, wideText_plain.2.2]
    decide

theorem reconcile_succeeds_iff_same :
    ∃ outcome, reconcileSettingsValues noNumbers published (some published) (some notes) =
      .ok outcome := by
  obtain ⟨inspected, accepted, same⟩ := published_inspected
  have succeeds := (reconcile_succeeds_iff notes accepted accepted).1.2
  rw [same] at succeeds
  refine succeeds ?_
  rw [mixture, length_published_values settled_note, wideText_plain.2.2]
  decide

/-- A field with a long default makes the update fail, though the settings were valid and so are
the defaults. -/
theorem long_default_fails : ∃ new previous,
      inspectPluginSettings noNumbers reads (asset (schemaJson noNumbers (updated wideText))) =
        .ok new ∧
      inspectPluginSettings noNumbers reads (asset (schemaJson noNumbers published)) =
        .ok previous ∧
      validateSettingsValues noNumbers previous.schema notes = .ok () ∧
      ∀ outcome, reconcileSettingsValues noNumbers new.schema (some previous.schema)
        (some notes) ≠ .ok outcome := by
  obtain ⟨new, new_accepted, new_schema⟩ := updated_inspected
  obtain ⟨previous, old_accepted, old_schema⟩ := published_inspected
  refine ⟨new, previous, new_accepted, old_accepted, old_schema ▸ notes_valid, ?_⟩
  intro outcome succeeded
  rw [new_schema, old_schema] at succeeded
  have short := (wellFormed_updated.reconcile_eq_ok.1 succeeded).1
  rw [mixture, length_updated_values settled_note rfl, wideText_plain.2.2] at short
  revert short
  decide

end NoriShell.Plugin.Settings
