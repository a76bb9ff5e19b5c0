import NoriShell.Collections.Check
import NoriShell.Collections.Text

/-! Host-rendered plugin documents, and their validation in `plugin-platform`.  Fields that
no check reads (directions, tones, widths and the like) are left out. -/

namespace NoriShell.Plugin

open Collections

def maxUiNodes : Nat := 256
def maxUiDepth : Nat := 32
def maxChildren : Nat := 64
def maxTotalTextBytes : Nat := 256 * 1024
def maxTextBytes : Nat := 16 * 1024
def maxLabelBytes : Nat := 512
def maxTableRows : Nat := 512
def maxTableColumns : Nat := 24
def maxSelectOptions : Nat := 256
def pluginUiSchemaVersion : UInt16 := 1
def maxPluginUiIdBytes : Nat := 160

def isUiIdCharacter (c : Char) : Bool :=
  Text.isAsciiAlphanumeric c || c ∈ ['.', ':', '_', '-']

def isUiId (value : String) : Bool :=
  value ≠ "" && value.utf8ByteSize ≤ maxPluginUiIdBytes && value.toList.all Text.isAscii &&
    !value.toList.head?.any (· ∈ ['.', ':', '-']) &&
    !value.toList.getLast?.any (· ∈ ['.', ':', '-']) && value.toList.all isUiIdCharacter

abbrev PluginUiId : Type := { value : String // isUiId value = true }

abbrev PluginUiNodeId : Type := PluginUiId
abbrev PluginUiActionId : Type := PluginUiId
abbrev PluginUiFieldId : Type := PluginUiId

inductive PluginUiFieldKind where
  | text
  | search
  | number
  | url
  | multiline
  | password
  deriving DecidableEq, Repr

structure PluginUiSelectOption where
  value : String
  label : String
  disabled : Bool
  deriving DecidableEq, Repr

structure PluginUiTableColumn where
  columnId : String
  label : String
  deriving DecidableEq, Repr

structure PluginUiTableRow where
  rowId : String
  cells : List String
  actionId : Option PluginUiActionId
  deriving DecidableEq, Repr

structure PluginUiTab where
  id : String
  label : String
  children : List PluginUiNodeId
  deriving DecidableEq, Repr

inductive PluginUiTreeItem where
  | mk (id label : String) (children : Option (List PluginUiTreeItem))
    (actionId : Option PluginUiActionId)

structure PluginUiFiniteNumber where
  bits : UInt64
  deriving DecidableEq, Repr

def PluginUiFiniteNumber.isFinite (number : PluginUiFiniteNumber) : Bool :=
  (number.bits >>> 52) &&& 0x7ff ≠ 0x7ff

structure PluginUiChartSeries where
  label : String
  values : List PluginUiFiniteNumber
  deriving DecidableEq, Repr

inductive PluginUiNode where
  | stack (nodeId : PluginUiNodeId) (gap : UInt8) (children : List PluginUiNodeId)
  | grid (nodeId : PluginUiNodeId) (columns : UInt8) (columnWeights : Option (List UInt16))
    (gap : UInt8) (children : List PluginUiNodeId)
  | section_ (nodeId : PluginUiNodeId) (title : Option String) (children : List PluginUiNodeId)
  | divider (nodeId : PluginUiNodeId)
  | text (nodeId : PluginUiNodeId) (text : String)
  | code (nodeId : PluginUiNodeId) (text : String) (language : Option String)
  | icon (nodeId : PluginUiNodeId) (icon accessibleLabel : String)
  | status (nodeId : PluginUiNodeId) (label : String)
  | progress (nodeId : PluginUiNodeId) (label : Option String) (valuePercent : Option UInt8)
  | button (nodeId : PluginUiNodeId) (actionId : PluginUiActionId) (label : String)
    (icon : Option String) (disabled : Bool)
  | copyButton (nodeId : PluginUiNodeId) (actionId : PluginUiActionId) (label : String)
    (disabled : Bool)
  | textField (nodeId : PluginUiNodeId) (fieldId : PluginUiFieldId) (label value : String)
    (placeholder : Option String) (fieldKind : PluginUiFieldKind) (required disabled : Bool)
  | select (nodeId : PluginUiNodeId) (fieldId : PluginUiFieldId) (label : String)
    (value : Option String) (options : List PluginUiSelectOption) (disabled : Bool)
  | checkbox (nodeId : PluginUiNodeId) (fieldId : PluginUiFieldId) (label : String)
    (disabled : Bool)
  | switch (nodeId : PluginUiNodeId) (fieldId : PluginUiFieldId) (label : String)
    (disabled : Bool)
  | table (nodeId : PluginUiNodeId) (label : String) (columns : List PluginUiTableColumn)
    (rows : List PluginUiTableRow) (emptyText : Option String)
  | menu (nodeId : PluginUiNodeId) (label : String) (children : List PluginUiNodeId)
  | dialog (nodeId : PluginUiNodeId) (title : String) (description : Option String)
    (triggerLabel closeLabel : String) (children : List PluginUiNodeId)
  | disclosure (nodeId : PluginUiNodeId) (label : String) (children : List PluginUiNodeId)
  | sshSyncBrowser (nodeId : PluginUiNodeId) (profileId : String)
    (children : List PluginUiNodeId)
  | tabs (nodeId : PluginUiNodeId) (label : String) (tabs : List PluginUiTab)
  | tree (nodeId : PluginUiNodeId) (label : String) (items : List PluginUiTreeItem)
  | chart (nodeId : PluginUiNodeId) (label : String) (series : List PluginUiChartSeries)
    (labels : List String)
  | editor (nodeId : PluginUiNodeId) (fieldId : PluginUiFieldId) (label value language : String)
    (readOnly : Bool)

namespace PluginUiNode

def nodeId : PluginUiNode → PluginUiNodeId
  | stack id .. | grid id .. | section_ id .. | divider id | text id .. | code id .. | icon id ..
  | status id .. | progress id .. | button id .. | copyButton id .. | textField id ..
  | select id .. | checkbox id .. | switch id .. | table id .. | menu id .. | dialog id ..
  | disclosure id .. | sshSyncBrowser id .. | tabs id .. | tree id .. | chart id ..
  | editor id .. => id

def childIds : PluginUiNode → List PluginUiNodeId
  | stack _ _ children | grid _ _ _ _ children | section_ _ _ children | menu _ _ children
  | dialog _ _ _ _ _ children | disclosure _ _ children | sshSyncBrowser _ _ children => children
  | _ => []

def referencedChildIds : PluginUiNode → List PluginUiNodeId
  | tabs _ _ entries => entries.flatMap (·.children)
  | node => node.childIds

end PluginUiNode

structure PluginUiDocument where
  schemaVersion : UInt16
  rootNodeId : PluginUiNodeId
  nodes : List PluginUiNode

inductive PluginUiValidationError where
  | unsupportedSchema
  | limitExceeded
  | duplicateIdentifier
  | invalidReference
  | cycle
  | invalidValue
  | unreachableNode
  deriving DecidableEq, Repr

structure PluginUiValidationPolicy where
  allowPasswordFields : Bool
  allowDialogs : Bool
  allowSshSyncBrowser : Bool
  deriving DecidableEq, Repr

def pageUiPolicy : PluginUiValidationPolicy := ⟨true, true, true⟩
def dialogUiPolicy : PluginUiValidationPolicy := ⟨false, true, false⟩

structure Totals where
  actionIds : Finset String := ∅
  fieldIds : Finset String := ∅
  textBytes : Nat := 0

abbrev Pass := StateT Totals (Except PluginUiValidationError)

def require (c : Prop) [Decidable c] (error : PluginUiValidationError) : Pass Unit :=
  if c then return () else throw error

def knownSecret (value : String) : Bool :=
  ["password=", "api_key=", "secret=", "authorization: bearer", "-----begin private key"].any
    fun needle => needle.toList <:+: value.toList.map Char.toLower

def boundedGap (gap : UInt8) : Pass Unit := require (gap ≤ 64) .invalidValue

def insertNew (value : String) (values : Finset String) (error : PluginUiValidationError) :
    Pass (Finset String) := do
  require (value ∉ values) error
  return insert value values

def uniqueAction (actionId : PluginUiActionId) : Pass Unit := do
  let actionIds ← insertNew actionId.1 (← get).actionIds .duplicateIdentifier
  modify ({ · with actionIds })

def uniqueField (fieldId : PluginUiFieldId) : Pass Unit := do
  let fieldIds ← insertNew fieldId.1 (← get).fieldIds .duplicateIdentifier
  modify ({ · with fieldIds })

def asciiToken (value : String) (maximumBytes : Nat) : Pass Unit :=
  require (value ≠ "" ∧ value.utf8ByteSize ≤ maximumBytes ∧ value.toList.all Text.isAscii ∧
    value.toList.all isUiIdCharacter) .invalidValue

def validProfileId (value : String) : Bool :=
  value ≠ "" && value.utf8ByteSize ≤ 160 && value.toList.all Text.isAscii &&
    value.toList.all fun c => isUiIdCharacter c || c = '/'

def iconNames : List String :=
  ["terminal", "server", "folder", "settings", "plugin", "command", "copy", "search", "info",
    "check", "warning", "close", "more", "play", "stop", "refresh", "download", "upload", "link",
    "shield", "clock", "key", "lock", "cloud", "eye", "chevronRight", "history", "user", "logout",
    "sparkles", "code"]

def iconName (value : String) : Pass Unit := require (value ∈ iconNames) .invalidValue

def isBidiControl (c : Char) : Bool :=
  c.toNat = 0x061c || c.toNat = 0x200e || c.toNat = 0x200f ||
    (0x202a ≤ c.toNat && c.toNat ≤ 0x202e) || (0x2066 ≤ c.toNat && c.toNat ≤ 0x2069)

def optionalText (value : String) (maximumBytes : Nat) : Pass Unit := do
  require (value.utf8ByteSize ≤ maximumBytes ∧ ¬value.toList.any fun c =>
    isBidiControl c || (Text.isControl c && c ∉ ['\t', '\n'])) .invalidValue
  modify fun totals => { totals with textBytes := totals.textBytes + value.utf8ByteSize }

def text (value : String) (maximumBytes : Nat) : Pass Unit := do
  require (Text.trim value.toList ≠ []) .invalidValue
  optionalText value maximumBytes

mutual

def validateTreeItem (depth : Nat) : PluginUiTreeItem → Finset String → Pass (Finset String)
  | .mk id label children actionId, ids => do
    asciiToken id 160
    text label maxLabelBytes
    let ids ← insertNew id ids .duplicateIdentifier
    actionId.forM uniqueAction
    match children with
    | none => return ids
    | some children =>
      require (depth + 1 ≤ maxUiDepth ∧ children.length ≤ maxChildren) .limitExceeded
      validateTreeItemList (depth + 1) children ids

def validateTreeItemList (depth : Nat) :
    List PluginUiTreeItem → Finset String → Pass (Finset String)
  | [], ids => return ids
  | item :: items, ids => do
    let ids ← validateTreeItem depth item ids
    validateTreeItemList depth items ids

end

def validateTreeItems (depth : Nat) (items : List PluginUiTreeItem) (ids : Finset String) :
    Pass (Finset String) := do
  require (depth ≤ maxUiDepth ∧ items.length ≤ maxChildren) .limitExceeded
  validateTreeItemList depth items ids

def validateOption (values : Finset String) (option : PluginUiSelectOption) :
    Pass (Finset String) := do
  text option.label maxLabelBytes
  asciiToken option.value 160
  insertNew option.value values .duplicateIdentifier

def validateColumn (columnIds : Finset String) (column : PluginUiTableColumn) :
    Pass (Finset String) := do
  asciiToken column.columnId 80
  let columnIds ← insertNew column.columnId columnIds .duplicateIdentifier
  text column.label maxLabelBytes
  return columnIds

def validateRow (width : Nat) (rowIds : Finset String) (row : PluginUiTableRow) :
    Pass (Finset String) := do
  asciiToken row.rowId 160
  require (row.cells.length = width) .invalidValue
  let rowIds ← insertNew row.rowId rowIds .invalidValue
  row.cells.forM (optionalText · maxTextBytes)
  row.actionId.forM uniqueAction
  return rowIds

def validateTab (ids : Finset String) (tab : PluginUiTab) : Pass (Finset String) := do
  asciiToken tab.id 160
  text tab.label maxLabelBytes
  let ids ← insertNew tab.id ids .invalidValue
  require (tab.children ≠ []) .invalidValue
  return ids

def validateSeries (count : Nat) (series : PluginUiChartSeries) : Pass Unit := do
  text series.label maxLabelBytes
  require (series.values.length = count ∧ series.values.length ≤ 128 ∧
    series.values.all (·.isFinite)) .invalidValue

def validateNode (policy : PluginUiValidationPolicy) : PluginUiNode → Pass Unit
  | .stack _ gap _ => boundedGap gap
  | .grid _ columns columnWeights gap _ => do
    require (1 ≤ columns ∧ columns ≤ 12) .invalidValue
    require (¬columnWeights.any fun weights => weights.length ≠ columns.toNat ||
      weights.any fun weight => !(1 ≤ weight && weight ≤ 4096)) .invalidValue
    boundedGap gap
  | .section_ _ title _ => title.forM (text · maxLabelBytes)
  | .divider _ => return ()
  | .text _ value => text value maxTextBytes
  | .code _ value language => do
    text value maxTextBytes
    language.forM (asciiToken · 40)
  | .icon _ name accessibleLabel => do
    iconName name
    text accessibleLabel maxLabelBytes
  | .status _ label => text label maxLabelBytes
  | .progress _ label valuePercent => do
    require (¬valuePercent.any (· > 100)) .invalidValue
    label.forM (text · maxLabelBytes)
  | .button _ actionId label icon _ => do
    uniqueAction actionId
    text label maxLabelBytes
    icon.forM iconName
  | .copyButton _ actionId label _ => do
    uniqueAction actionId
    text label maxLabelBytes
  | .textField _ fieldId label value placeholder fieldKind _ _ => do
    require (¬(fieldKind = .password ∧ (¬policy.allowPasswordFields ∨ value ≠ ""))) .invalidValue
    uniqueField fieldId
    text label maxLabelBytes
    optionalText value maxTextBytes
    placeholder.forM (optionalText · maxLabelBytes)
  | .select _ fieldId label value options _ => do
    uniqueField fieldId
    text label maxLabelBytes
    require (options.length ≤ maxSelectOptions) .limitExceeded
    let values ← options.foldlM validateOption ∅
    require (∀ chosen ∈ value, chosen ∈ values) .invalidValue
  | .checkbox _ fieldId label _ | .switch _ fieldId label _ => do
    uniqueField fieldId
    text label maxLabelBytes
  | .table _ label columns rows emptyText => do
    text label maxLabelBytes
    require (columns ≠ [] ∧ columns.length ≤ maxTableColumns ∧ rows.length ≤ maxTableRows)
      .limitExceeded
    let _ ← columns.foldlM validateColumn ∅
    let _ ← rows.foldlM (validateRow columns.length) ∅
    emptyText.forM (text · maxLabelBytes)
  | .menu _ label _ | .disclosure _ label _ => text label maxLabelBytes
  | .dialog _ title description triggerLabel closeLabel _ => do
    require policy.allowDialogs .invalidValue
    text title maxLabelBytes
    description.forM (text · maxTextBytes)
    text triggerLabel maxLabelBytes
    text closeLabel maxLabelBytes
  | .tabs _ label entries => do
    text label maxLabelBytes
    require (entries ≠ [] ∧ entries.length ≤ 16) .limitExceeded
    let _ ← entries.foldlM validateTab ∅
  | .tree _ label items => do
    text label maxLabelBytes
    let _ ← validateTreeItems 0 items ∅
  | .chart _ label series labels => do
    text label maxLabelBytes
    require (series ≠ [] ∧ series.length ≤ 8 ∧ labels ≠ [] ∧ labels.length ≤ 128) .limitExceeded
    labels.forM (text · maxLabelBytes)
    series.forM (validateSeries labels.length)
  | .editor _ fieldId label value language readOnly => do
    uniqueField fieldId
    text label maxLabelBytes
    asciiToken language 40
    optionalText value maxTextBytes
    require (readOnly ∨ ¬knownSecret value) .invalidValue
  | .sshSyncBrowser _ profileId _ =>
    require (policy.allowSshSyncBrowser ∧ validProfileId profileId) .invalidValue

/-- The nodes on the way from the root, and those whose children have all been seen. -/
structure Visit where
  visiting : Finset PluginUiNodeId := ∅
  visited : Finset PluginUiNodeId := ∅

/-- The node that an identifier names: the nodes of a document have distinct ones. -/
def lookup (nodes : List PluginUiNode) (nodeId : PluginUiNodeId) : Option PluginUiNode :=
  nodes.find? (·.nodeId = nodeId)

/-- The walk down the references.  The depth is told by the levels that are left. -/
def visit (nodes : List PluginUiNode) :
    Nat → Visit → PluginUiNodeId → Except PluginUiValidationError Visit
  | 0, _, _ => .error .limitExceeded
  | levels + 1, state, nodeId =>
    if nodeId ∈ state.visited then .ok state
    else if nodeId ∈ state.visiting then .error .cycle
    else
      match lookup nodes nodeId with
      | none => .error .invalidReference
      | some node => do
        reject (node.referencedChildIds.length > maxChildren) .limitExceeded
        let state ← node.referencedChildIds.foldlM (visit nodes levels)
          { state with visiting := insert nodeId state.visiting }
        return { visiting := state.visiting.erase nodeId, visited := insert nodeId state.visited }

def validateNodes (policy : PluginUiValidationPolicy) (ids : Finset PluginUiNodeId)
    (node : PluginUiNode) : Pass (Finset PluginUiNodeId) := do
  require (node.nodeId ∉ ids) .duplicateIdentifier
  validateNode policy node
  return insert node.nodeId ids

def validatePluginUiDocumentWithPolicy (document : PluginUiDocument)
    (policy : PluginUiValidationPolicy) : Except PluginUiValidationError Unit := do
  reject (document.schemaVersion ≠ pluginUiSchemaVersion ∨ document.nodes = [] ∨
    document.nodes.length > maxUiNodes) .unsupportedSchema
  let (ids, totals) ← (document.nodes.foldlM (validateNodes policy) ∅).run {}
  reject (totals.textBytes > maxTotalTextBytes ∨ document.rootNodeId ∉ ids) .limitExceeded
  let state ← visit document.nodes maxUiDepth {} document.rootNodeId
  reject (state.visited.card ≠ document.nodes.length) .unreachableNode

def validatePluginPageDocument (document : PluginUiDocument) :
    Except PluginUiValidationError Unit :=
  validatePluginUiDocumentWithPolicy document pageUiPolicy

def validatePluginDialogDocument (document : PluginUiDocument) :
    Except PluginUiValidationError Unit :=
  validatePluginUiDocumentWithPolicy document dialogUiPolicy

end NoriShell.Plugin
