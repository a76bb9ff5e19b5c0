import NoriShell.Collections.BTreeMap
import NoriShell.Collections.Check
import NoriShell.Collections.JsonText
import NoriShell.Collections.Text

/-! The settings that a plugin package declares: the checks of a schema and of values in
`plugin-platform`, and how values are carried over to the schema of an update. -/

namespace NoriShell.Plugin.Settings

open Collections

def pluginSettingsSchemaVersion : UInt16 := 1
def maxPluginSettingsSchemaBytes : Nat := 32 * 1024
def maxPluginSettingsValuesBytes : Nat := 16 * 1024
def maxPluginSettingsFields : Nat := 32
def maxSettingKeyBytes : Nat := 80
def maxSettingLabelBytes : Nat := 512
def maxSelectOptions : Nat := 256
def maxSelectValueBytes : Nat := 256

inductive PluginPlatformError where
  | invalidArchive
  | rejectedArchivePath
  | extractionLimitExceeded
  | installConflict
  | installCommitUncertain
  | io
  | invalidSettingsSchema
  | invalidSettingsValues
  | panicked
  deriving DecidableEq

structure F64 where
  bits : UInt64
  deriving DecidableEq

namespace F64

def magnitude (x : F64) : Nat := x.bits.toNat % 2 ^ 63

def isFinite (x : F64) : Bool := x.magnitude < 0x7ff * 2 ^ 52

def isNan (x : F64) : Bool := 0x7ff * 2 ^ 52 < x.magnitude

/-- The place of a number in the order of all; the two zeros share theirs. -/
def place (x : F64) : Int := if x.bits.toNat < 2 ^ 63 then x.magnitude else -x.magnitude

def lt (x y : F64) : Bool := !x.isNan && !y.isNan && x.place < y.place

def le (x y : F64) : Bool := !x.isNan && !y.isNan && x.place ≤ y.place

end F64

structure PluginSettingLabel where
  en : String
  zhCn : String
  deriving DecidableEq

inductive PluginSettingValue where
  | boolean (value : Bool)
  | number (value : F64)
  | string (value : String)
  deriving DecidableEq

structure PluginSettingSelectOption where
  value : String
  label : PluginSettingLabel
  deriving DecidableEq

inductive PluginSettingField where
  | boolean (key : String) (label : PluginSettingLabel) (default : Bool)
  | number (key : String) (label : PluginSettingLabel) (default : F64) (min max : Option F64)
  | string (key : String) (label : PluginSettingLabel) (default : String) (maxLength : UInt16)
  | select (key : String) (label : PluginSettingLabel) (default : String)
    (options : List PluginSettingSelectOption)
  deriving DecidableEq

structure PluginSettingsTargetVisibility where
  targetId : String
  settingKey : String
  deriving DecidableEq

structure PluginSettingsSchema where
  schemaVersion : UInt16
  fields : List PluginSettingField
  targetVisibility : List PluginSettingsTargetVisibility
  deriving DecidableEq

abbrev PluginSettingsValues : Type := BTreeMap String PluginSettingValue

inductive SettingKind where
  | boolean
  | number
  | string
  | select
  deriving DecidableEq

namespace PluginSettingField

def key : PluginSettingField → String
  | boolean key .. | number key .. | string key .. | select key .. => key

def label : PluginSettingField → PluginSettingLabel
  | boolean _ label .. | number _ label .. | string _ label .. | select _ label .. => label

def kind : PluginSettingField → SettingKind
  | boolean .. => .boolean
  | number .. => .number
  | string .. => .string
  | select .. => .select

def default : PluginSettingField → PluginSettingValue
  | boolean _ _ default => .boolean default
  | number _ _ default _ _ => .number default
  | string _ _ default _ | select _ _ default _ => .string default

end PluginSettingField

def invalidText (value : String) : Bool :=
  value.toList.any fun c => Text.isControl c || c.toNat = 0x061c || c.toNat = 0x200e ||
    c.toNat = 0x200f || (0x202a ≤ c.toNat && c.toNat ≤ 0x202e) ||
    (0x2066 ≤ c.toNat && c.toNat ≤ 0x2069)

def validateLabel (label : PluginSettingLabel) : Except PluginPlatformError Unit :=
  each [label.en, label.zhCn] fun value =>
    reject (Text.trim value.toList = [] ∨ value.utf8ByteSize > maxSettingLabelBytes ∨
      invalidText value) .invalidSettingsSchema

def validSettingKey (value : String) : Bool :=
  value ≠ "" && value.utf8ByteSize ≤ maxSettingKeyBytes && value.toList.all Text.isAscii &&
    value.toList.head?.any Text.isAsciiAlphanumeric &&
    value.toList.all fun c => Text.isAsciiAlphanumeric c || ['.', '_', '-'].contains c

def sensitivePluginSettingKey (value : String) : Bool :=
  let normalized := (value.toList.map Char.toLower).filter fun c => !(['.', '_', '-'].contains c)
  ["password", "passphrase", "secret", "token", "apikey", "privatekey", "script"].any
    fun needle => needle.toList <:+: normalized

def validateOptions : List String → List PluginSettingSelectOption →
    Except PluginPlatformError (List String)
  | values, [] => .ok values
  | values, option :: options => do
    reject (option.value = "" ∨ option.value.utf8ByteSize > maxSelectValueBytes ∨
      invalidText option.value ∨ values.contains option.value) .invalidSettingsSchema
    validateLabel option.label
    validateOptions (values ++ [option.value]) options

def validateField : PluginSettingField → Except PluginPlatformError Unit
  | .boolean _ label _ => validateLabel label
  | .number _ label default min max => do
    validateLabel label
    reject (!default.isFinite || min.any (!·.isFinite) || max.any (!·.isFinite) ||
      min.any (fun min => max.any (·.lt min)) || min.any default.lt || max.any (·.lt default))
      .invalidSettingsSchema
  | .string _ label default maxLength => do
    validateLabel label
    reject (¬ (1 ≤ maxLength ∧ maxLength ≤ 2048) ∨ default.length > maxLength.toNat ∨
      invalidText default) .invalidSettingsSchema
  | .select _ label default options => do
    validateLabel label
    reject (options = [] ∨ options.length > maxSelectOptions) .invalidSettingsSchema
    let values ← validateOptions [] options
    reject (!values.contains default) .invalidSettingsSchema

structure Seen where
  keys : List String := []
  kinds : BTreeMap String SettingKind := .empty

def validateFields : Seen → List PluginSettingField → Except PluginPlatformError Seen
  | seen, [] => .ok seen
  | seen, field :: fields => do
    reject (!validSettingKey field.key || sensitivePluginSettingKey field.key ||
      seen.keys.contains field.key) .invalidSettingsSchema
    validateField field
    validateFields ⟨seen.keys ++ [field.key], seen.kinds.insert field.key field.kind⟩ fields

def validateTargets (kinds : BTreeMap String SettingKind) :
    List String → List PluginSettingsTargetVisibility → Except PluginPlatformError Unit
  | _, [] => .ok ()
  | targets, visibility :: visibilities => do
    reject (targets.contains visibility.targetId ∨
      kinds.get? visibility.settingKey ≠ some .boolean) .invalidSettingsSchema
    validateTargets kinds (targets ++ [visibility.targetId]) visibilities

def validateSettingsSchema (schema : PluginSettingsSchema) : Except PluginPlatformError Unit := do
  reject (schema.schemaVersion ≠ pluginSettingsSchemaVersion ∨ schema.fields = [] ∨
    schema.fields.length > maxPluginSettingsFields) .invalidSettingsSchema
  let seen ← validateFields {} schema.fields
  validateTargets seen.kinds [] schema.targetVisibility

def settingValueIsValid : PluginSettingField → PluginSettingValue → Bool
  | .boolean .., .boolean _ => true
  | .number _ _ _ min max, .number value =>
    value.isFinite && min.all (·.le value) && max.all value.le
  | .string _ _ _ maxLength, .string value => value.length ≤ maxLength.toNat && !invalidText value
  | .select _ _ _ options, .string value => options.any (·.value = value)
  | _, _ => false

def defaultSettingsValues (schema : PluginSettingsSchema) : PluginSettingsValues :=
  BTreeMap.ofList (schema.fields.map fun field => (field.key, field.default))

section

-- How `serde_json` writes a number.
variable (writeNumber : F64 → List Char)

def boolJson (value : Bool) : List Char := (if value then "true" else "false").toList

def valueJson : PluginSettingValue → List Char
  | .boolean value => boolJson value
  | .number value => writeNumber value
  | .string value => JsonText.quote value

def valuesJson (values : PluginSettingsValues) : List Char :=
  JsonText.object (values.toList.map fun (key, value) => (key, valueJson writeNumber value))

def labelJson (label : PluginSettingLabel) : List Char :=
  JsonText.object [("en", JsonText.quote label.en), ("zh-CN", JsonText.quote label.zhCn)]

def optionJson (option : PluginSettingSelectOption) : List Char :=
  JsonText.object [("value", JsonText.quote option.value), ("label", labelJson option.label)]

def fieldJson : PluginSettingField → List Char
  | .boolean key label default =>
    JsonText.object [("type", JsonText.quote "boolean"), ("key", JsonText.quote key),
      ("label", labelJson label), ("default", boolJson default)]
  | .number key label default min max =>
    JsonText.object [("type", JsonText.quote "number"), ("key", JsonText.quote key),
      ("label", labelJson label), ("default", writeNumber default),
      ("min", JsonText.optional writeNumber min), ("max", JsonText.optional writeNumber max)]
  | .string key label default maxLength =>
    JsonText.object [("type", JsonText.quote "string"), ("key", JsonText.quote key),
      ("label", labelJson label), ("default", JsonText.quote default),
      ("maxLength", JsonText.natural maxLength.toNat)]
  | .select key label default options =>
    JsonText.object [("type", JsonText.quote "select"), ("key", JsonText.quote key),
      ("label", labelJson label), ("default", JsonText.quote default),
      ("options", JsonText.array (options.map optionJson))]

def targetJson (visibility : PluginSettingsTargetVisibility) : List Char :=
  JsonText.object [("targetId", JsonText.quote visibility.targetId),
    ("settingKey", JsonText.quote visibility.settingKey)]

def schemaJson (schema : PluginSettingsSchema) : List Char :=
  JsonText.object ([("schemaVersion", JsonText.natural schema.schemaVersion.toNat),
    ("fields", JsonText.array (schema.fields.map (fieldJson writeNumber)))] ++
    if schema.targetVisibility = [] then []
    else [("targetVisibility", JsonText.array (schema.targetVisibility.map targetJson))])

def validateSettingsValues (schema : PluginSettingsSchema) (values : PluginSettingsValues) :
    Except PluginPlatformError Unit := do
  validateSettingsSchema schema
  reject (values.size ≠ schema.fields.length) .invalidSettingsValues
  each schema.fields fun field =>
    reject (!(values.get? field.key).any (settingValueIsValid field)) .invalidSettingsValues
  reject (values.keys.any fun key => !schema.fields.any (·.key = key)) .invalidSettingsValues
  reject (String.utf8Len (valuesJson writeNumber values) > maxPluginSettingsValuesBytes)
    .invalidSettingsValues

def settingsValuesJson (schema : PluginSettingsSchema) (values : PluginSettingsValues) :
    Except PluginPlatformError (List Char) := do
  validateSettingsValues writeNumber schema values
  return valuesJson writeNumber values

structure InspectedPluginSettings where
  schema : PluginSettingsSchema
  schemaJson : List Char
  defaultValues : PluginSettingsValues
  defaultValuesJson : List Char

def inspectPluginSettings (parse : List UInt8 → Option PluginSettingsSchema)
    (bytes : List UInt8) : Except PluginPlatformError InspectedPluginSettings := do
  reject (bytes = [] ∨ bytes.length > maxPluginSettingsSchemaBytes) .invalidSettingsSchema
  let schema ← (parse bytes).elim (.error .invalidSettingsSchema) .ok
  validateSettingsSchema schema
  let schemaJson := schemaJson writeNumber schema
  reject (String.utf8Len schemaJson > maxPluginSettingsSchemaBytes) .invalidSettingsSchema
  let defaultValues := defaultSettingsValues schema
  let defaultValuesJson ← settingsValuesJson writeNumber schema defaultValues
  return { schema, schemaJson, defaultValues, defaultValuesJson }

def preserved (previousSchema : Option PluginSettingsSchema)
    (previousValues : Option PluginSettingsValues) (field : PluginSettingField) :
    Option PluginSettingValue :=
  ((previousSchema.bind fun schema => schema.fields.find? (·.key = field.key)).filter
    (·.kind = field.kind)).bind (fun _ => previousValues.bind (·.get? field.key)) |>.filter
      (settingValueIsValid field)

def reconcileField (previousSchema : Option PluginSettingsSchema)
    (previousValues : Option PluginSettingsValues) (defaults : PluginSettingsValues)
    (soFar : PluginSettingsValues × List String) (field : PluginSettingField) :
    Except PluginPlatformError (PluginSettingsValues × List String) :=
  match preserved previousSchema previousValues field with
  | some value => .ok (soFar.1.insert field.key value, soFar.2)
  | none => do
    let value ← (defaults.get? field.key).elim (.error .panicked) .ok
    return (soFar.1.insert field.key value,
      if previousValues.isSome then soFar.2 ++ [field.key] else soFar.2)

def reconcileSettingsValues (newSchema : PluginSettingsSchema)
    (previousSchema : Option PluginSettingsSchema)
    (previousValues : Option PluginSettingsValues) :
    Except PluginPlatformError (PluginSettingsValues × List String) := do
  validateSettingsSchema newSchema
  let defaults := defaultSettingsValues newSchema
  let (values, resetKeys) ← newSchema.fields.foldlM
    (reconcileField previousSchema previousValues defaults) (.empty, [])
  validateSettingsValues writeNumber newSchema values
  return (values, resetKeys)

end

end NoriShell.Plugin.Settings
