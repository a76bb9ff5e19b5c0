import NoriShell.Collections.Check
import NoriShell.Collections.Text
import NoriShell.Sync.Schema

/-! Field checks of the single objects, with the texts of their errors. -/

namespace NoriShell.Sync

open Collections

inductive SyncCodecError
  | invalidBundle (reason : String)
  | boundExceeded (name : String)
  | duplicateObjectId
  | danglingObjectReference
  | bindingMismatch
  | authenticationFailed
  | serialization
  deriving DecidableEq

def maxObjectsPerKind : Nat := 10000
def maxSmallTextBytes : Nat := 1024
def maxLargeTextBytes : Nat := 64 * 1024
def maxCollectionItems : Nat := 1024

def validateCount (count : Nat) (name : String) : Except SyncCodecError Unit :=
  reject (count > maxObjectsPerKind) (.boundExceeded name)

def validateCollection (count : Nat) (name : String) : Except SyncCodecError Unit :=
  reject (count > maxCollectionItems) (.boundExceeded name)

def validateUniqueIds (ids : List PortableObjectId) (name : String) :
    Except SyncCodecError Unit := do
  validateCollection ids.length name
  reject (¬ids.Nodup)
    (.invalidBundle "ordered object references must not contain duplicates")

def validateText (value : String) (maxBytes : Nat) (name : String) :
    Except SyncCodecError Unit := do
  reject (value = "") (.invalidBundle name)
  reject (value.utf8ByteSize > maxBytes) (.boundExceeded name)
  reject (value.toList.any Text.isControl)
    (.invalidBundle "text fields must not contain control characters")

def validateOptionalText (value : Option String) (name : String) : Except SyncCodecError Unit :=
  match value with
  | none => .ok ()
  | some value => validateText value maxSmallTextBytes name

def validateDesktopText (value : String) (name : String) : Except SyncCodecError Unit := do
  reject (value.utf8ByteSize > 256) (.boundExceeded name)
  reject (value.toList.any Text.isControl)
    (.invalidBundle "desktop text fields must not contain control characters")

def validateDesktopLabel (value : String) : Except SyncCodecError Unit := do
  reject (Text.trim value.toList = []) (.invalidBundle "desktop label")
  validateDesktopText value "desktop label"

def validateSeconds (value : UInt32) (name : String) : Except SyncCodecError Unit :=
  reject (¬(1 ≤ value.toNat ∧ value.toNat ≤ 86400)) (.invalidBundle name)

/-! The standard library's address grammar, as far as it decides acceptance. -/

namespace IpAddr

inductive Kind
  | v4 | v6
  deriving DecidableEq

def digit (radix : Nat) (c : Char) : Option Nat :=
  let value :=
    if '0' ≤ c ∧ c ≤ '9' then some (c.toNat - '0'.toNat)
    else if 'a' ≤ c ∧ c ≤ 'z' then some (c.toNat - 'a'.toNat + 10)
    else if 'A' ≤ c ∧ c ≤ 'Z' then some (c.toNat - 'A'.toNat + 10)
    else none
  value.filter (· < radix)

def readDigits (radix : Nat) : List Char → List Nat × List Char
  | [] => ([], [])
  | c :: cs =>
    match digit radix c with
    | none => ([], c :: cs)
    | some d =>
      let (digits, rest) := readDigits radix cs
      (d :: digits, rest)

def readNumber (radix maxDigits : Nat) (allowZeroPrefix : Bool) (max : Nat) (cs : List Char) :
    Option (List Char) :=
  let (digits, rest) := readDigits radix cs
  let value := digits.foldl (fun value d => value * radix + d) 0
  if digits = [] ∨ digits.length > maxDigits then none
  else if !allowZeroPrefix ∧ digits.head? = some 0 ∧ digits.length > 1 then none
  else if value > max then none
  else some rest

def readGivenChar (c : Char) : List Char → Option (List Char)
  | [] => none
  | c' :: cs => if c = c' then some cs else none

def readSeparator (sep : Char) (index : Nat) (inner : List Char → Option (List Char))
    (cs : List Char) : Option (List Char) :=
  if index = 0 then inner cs else (readGivenChar sep cs).bind inner

def readIpv4Addr (cs : List Char) : Option (List Char) :=
  [0, 1, 2, 3].foldlM (fun cs i => readSeparator '.' i (readNumber 10 3 false 255) cs) cs

/-- Reads up to the given number of colon-separated groups from the given index
on; returns how many were read and whether an embedded IPv4 address ended them. -/
def readGroups (limit : Nat) : Nat → Nat → List Char → (Nat × Bool) × List Char
  | 0, index, cs => ((index, false), cs)
  | remaining + 1, index, cs =>
    let ipv4 :=
      if index + 1 < limit then readSeparator ':' index readIpv4Addr cs else none
    match ipv4 with
    | some rest => ((index + 2, true), rest)
    | none =>
      match readSeparator ':' index (readNumber 16 4 true 65535) cs with
      | some rest => readGroups limit remaining (index + 1) rest
      | none => ((index, false), cs)

def readIpv6Addr (cs : List Char) : Option (List Char) :=
  let ((headSize, headIpv4), rest) := readGroups 8 8 0 cs
  if headSize = 8 then some rest
  else if headIpv4 then none
  else do
    let rest ← readGivenChar ':' rest
    let rest ← readGivenChar ':' rest
    let limit := 8 - (headSize + 1)
    some (readGroups limit limit 0 rest).2

def parse (cs : List Char) : Option Kind :=
  match readIpv4Addr cs with
  | some rest => if rest = [] then some .v4 else none
  | none =>
    match readIpv6Addr cs with
    | some rest => if rest = [] then some .v6 else none
    | none => none

end IpAddr

def stripBrackets (cs : List Char) : Option (List Char) :=
  match cs with
  | '[' :: rest => if rest.getLast? = some ']' then some rest.dropLast else none
  | _ => none

def hostnameLabelInvalid (label : List Char) : Bool :=
  label.isEmpty || label.length > 63 ||
    !label.all (fun c => Text.isAsciiAlphanumeric c || c == '-') ||
    !label.head?.any Text.isAsciiAlphanumeric ||
    !label.getLast?.any Text.isAsciiAlphanumeric

def validateDesktopEndpoint (input : String) (port : UInt16) : Except SyncCodecError Unit := do
  reject (port = 0) (.invalidBundle "desktop port must be positive")
  let input := Text.trim input.toList
  reject (input = []) (.invalidBundle "desktop endpoint")
  let (address, bracketed) :=
    match stripBrackets input with
    | some address => (address, true)
    | none => (input, false)
  match IpAddr.parse address with
  | some kind => reject (bracketed ∧ kind ≠ .v6) (.invalidBundle "desktop endpoint")
  | none =>
    reject (bracketed ∨ !address.all Text.isAscii) (.invalidBundle "desktop endpoint")
    let hostname :=
      (if address.getLast? = some '.' then address.dropLast else address).map Char.toLower
    reject (hostname = [] ∨ hostname.length > 253) (.invalidBundle "desktop endpoint")
    let labels := hostname.splitOn '.'
    reject (labels.length = 4 ∧ labels.all (·.all Text.isAsciiDigit))
      (.invalidBundle "desktop endpoint")
    reject (labels.any hostnameLabelInvalid) (.invalidBundle "desktop endpoint")

namespace PortableHost

def validate (host : PortableHost) : Except SyncCodecError Unit := do
  validateText host.label maxSmallTextBytes "host label"
  validateText host.address maxSmallTextBytes "host address"
  reject (host.port = 0) (.invalidBundle "host port must be positive")
  validateOptionalText host.username "username"
  validateCollection host.tags.size "host tags"
  each host.tags.toList fun tag => validateText tag maxSmallTextBytes "host tag"

end PortableHost

namespace PortableDesktopProfile

def validate (desktop : PortableDesktopProfile) : Except SyncCodecError Unit := do
  validateDesktopLabel desktop.label
  validateDesktopEndpoint desktop.address desktop.port
  validateDesktopText desktop.username "desktop username"
  validateDesktopText desktop.domain "desktop domain"
  reject (desktop.protocol = .vnc ∧ desktop.audioPlaybackEnabled)
    (.invalidBundle "VNC desktop profiles cannot enable audio playback")
  reject (desktop.protocol = .rdp ∧
      (desktop.vncProtocolVersion ≠ .auto ∨ desktop.vncResolutionMode ≠ .server))
    (.invalidBundle "RDP cannot select VNC options")
  reject (desktop.protocol = .vnc ∧
      (desktop.rdpTransportMode ≠ .auto ∨ desktop.rdpGraphicsMode ≠ .auto ∨
        desktop.rdpResolutionMode ≠ .fixed))
    (.invalidBundle "VNC cannot select RDP transport, graphics or resolution modes")
  reject (desktop.width = 0 ∨ desktop.height = 0 ∨ desktop.width.toNat > 8192 ∨
      desktop.height.toNat > 8192 ∨ desktop.width.toNat * desktop.height.toNat > 16777216)
    (.invalidBundle "invalid desktop dimensions")

def requiresModeSchema (desktop : PortableDesktopProfile) : Bool :=
  desktop.rdpTransportMode ≠ .auto || desktop.rdpGraphicsMode ≠ .auto ||
    desktop.rdpResolutionMode ≠ .fixed || desktop.vncResolutionMode ≠ .server

end PortableDesktopProfile

namespace PortableIdentity

def validate (identity : PortableIdentity) : Except SyncCodecError Unit := do
  validateText identity.label maxSmallTextBytes "identity label"
  validateOptionalText identity.username "identity username"
  validateUniqueIds identity.credentialIds "identity credentials"

end PortableIdentity

namespace PortableCredential

def validate (credential : PortableCredential) : Except SyncCodecError Unit := do
  validateText credential.label maxSmallTextBytes "credential label"
  match credential.material with
  | .password _ => .ok ()
  | .privateKey _ fingerprint _ _ | .certificate _ fingerprint _ _ _ =>
    validateText fingerprint maxSmallTextBytes "public key fingerprint"
  | .keyboardInteractive maxRounds =>
    reject (¬(1 ≤ maxRounds.toNat ∧ maxRounds.toNat ≤ 32))
      (.invalidBundle "keyboard-interactive max rounds must be between 1 and 32")

end PortableCredential

namespace PortableRoute

def validate (route : PortableRoute) : Except SyncCodecError Unit := do
  validateCollection route.jumpHops.length "jump hops"
  reject (route.jumpHops.length > 5) (.boundExceeded "jump hops")
  match route.ingress with
  | .direct => .ok ()
  | .httpConnect host port username _ | .socks5 host port username _ _ =>
    validateText host maxSmallTextBytes "proxy host"
    reject (port = 0) (.invalidBundle "proxy port must be positive")
    validateOptionalText username "proxy username"

end PortableRoute

namespace PortableAuthenticationPlan

def validate (plan : PortableAuthenticationPlan) : Except SyncCodecError Unit :=
  validateUniqueIds plan.credentialIds "authentication plan"

end PortableAuthenticationPlan

namespace PortableAlgorithmPolicy

def validate (policy : PortableAlgorithmPolicy) : Except SyncCodecError Unit := do
  validateText policy.policyId maxSmallTextBytes "algorithm policy ID"
  validateCollection policy.compatibilityExceptions.length "algorithm compatibility exceptions"
  each policy.compatibilityExceptions fun exception => do
    validateText exception.exceptionId maxSmallTextBytes "algorithm compatibility exception ID"
    validateOptionalText exception.reason "algorithm exception reason"

end PortableAlgorithmPolicy

namespace PortableHeartbeatPolicy

def validate (policy : PortableHeartbeatPolicy) : Except SyncCodecError Unit :=
  match policy.mode with
  | .disabled => .ok ()
  | .transportKeepalive intervalSeconds replyTimeoutSeconds maxMissedReplies => do
    validateSeconds intervalSeconds "keepalive interval"
    validateSeconds replyTimeoutSeconds "keepalive timeout"
    reject (maxMissedReplies = 0) (.invalidBundle "max missed replies must be positive")
  | .shellHeartbeat intervalSeconds idleSeconds payload _ => do
    validateSeconds intervalSeconds "shell heartbeat interval"
    validateSeconds idleSeconds "shell heartbeat idle threshold"
    validateText payload maxLargeTextBytes "shell heartbeat payload"

end PortableHeartbeatPolicy

namespace PortableMonitoringPolicy

def durationsAgree (policy : PortableMonitoringPolicy) : Bool :=
  match policy.intervalMillis, policy.timeoutMillis with
  | none, none => true
  | some interval, some timeout =>
    (1500 ≤ interval.toNat && interval.toNat ≤ 300000) &&
      (500 ≤ timeout.toNat && timeout.toNat ≤ 30000) &&
      (interval.toNat + 999) / 1000 == policy.intervalSeconds.toNat &&
      (timeout.toNat + 999) / 1000 == policy.timeoutSeconds.toNat
  | _, _ => false

def validate (policy : PortableMonitoringPolicy) : Except SyncCodecError Unit := do
  validateSeconds policy.intervalSeconds "monitoring interval"
  validateSeconds policy.timeoutSeconds "monitoring timeout"
  reject (!policy.durationsAgree) (.invalidBundle "invalid monitoring duration")
  validateCollection policy.resources.size "monitoring resources"

end PortableMonitoringPolicy

namespace LoginAutomationStep

def validate : LoginAutomationStep → Except SyncCodecError Unit
  | .expect pattern timeoutSeconds => do
    validateText pattern maxLargeTextBytes "expect pattern"
    validateSeconds timeoutSeconds "expect timeout"
  | .sendText text _ timeoutSeconds => do
    validateText text maxLargeTextBytes "send text"
    validateSeconds timeoutSeconds "send text timeout"
  | .sendSecret _ secretLabel _ timeoutSeconds => do
    validateText secretLabel maxSmallTextBytes "send secret label"
    validateSeconds timeoutSeconds "send secret timeout"

end LoginAutomationStep

namespace PortableLoginAutomation

def validate (automation : PortableLoginAutomation) : Except SyncCodecError Unit := do
  validateCollection automation.steps.length "login automation steps"
  each automation.steps LoginAutomationStep.validate

end PortableLoginAutomation

namespace PortableObjectKind

/-- The count name and the field check of each kind; a secret has no field check. -/
def countName : PortableObjectKind → String
  | .host => "hosts"
  | .desktopProfile => "desktop profiles"
  | .identity => "identities"
  | .credential => "credentials"
  | .route => "routes"
  | .authenticationPlan => "authentication plans"
  | .algorithmPolicy => "algorithm policies"
  | .heartbeatPolicy => "heartbeat policies"
  | .monitoringPolicy => "monitoring policies"
  | .loginAutomation => "login automations"
  | .secret => "secrets"

def validateValue : (k : PortableObjectKind) → k.Value → Except SyncCodecError Unit
  | .host => PortableHost.validate
  | .desktopProfile => PortableDesktopProfile.validate
  | .identity => PortableIdentity.validate
  | .credential => PortableCredential.validate
  | .route => PortableRoute.validate
  | .authenticationPlan => PortableAuthenticationPlan.validate
  | .algorithmPolicy => PortableAlgorithmPolicy.validate
  | .heartbeatPolicy => PortableHeartbeatPolicy.validate
  | .monitoringPolicy => PortableMonitoringPolicy.validate
  | .loginAutomation => PortableLoginAutomation.validate
  | .secret => fun _ => .ok ()

end PortableObjectKind

end NoriShell.Sync
