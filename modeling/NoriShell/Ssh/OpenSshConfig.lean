import NoriShell.Ssh.Endpoint

/-! The OpenSSH import preview of `ssh-domain`.  Texts are lists of characters. -/

namespace NoriShell.Ssh.OpenSsh

open Collections

def maxConfigBytes : Nat := 1024 * 1024
def maxConfigLines : Nat := 8192
def maxLineBytes : Nat := 4096
def maxCandidates : Nat := 512
def maxIdentityFileHints : Nat := 64
def maxJumpHops : Nat := 5

inductive DiagnosticSeverity where
  | warning
  | error
  deriving DecidableEq

inductive DiagnosticCode where
  | inputTooLarge
  | tooManyLines
  | lineTooLong
  | tooManyCandidates
  | tooManyIdentityFiles
  | invalidSyntax
  | invalidHostAlias
  | invalidHostName
  | invalidUser
  | invalidPort
  | invalidIdentityFile
  | invalidProxyJump
  | unsupportedProxyCommand
  | unsupportedDirective
  | unsupportedHostPattern
  | includeUnsupported
  | matchUnsupported
  | dangerousExpansion
  | dangerousToken
  | noLiteralHostCandidates
  deriving DecidableEq

structure Diagnostic where
  code : DiagnosticCode
  severity : DiagnosticSeverity
  line : Option Nat
  directive : Option (List Char)
  message : String
  blocking : Bool
  deriving DecidableEq

def diagnostic (code : DiagnosticCode) (line : Option Nat) (directive : Option (List Char))
    (message : String) (blocking : Bool) : Diagnostic where
  code
  severity := if blocking then .error else .warning
  line
  directive
  message
  blocking

structure EndpointPreview where
  address : List Char
  port : UInt16
  deriving DecidableEq

structure JumpHopPreview where
  endpoint : EndpointPreview
  user : Option (List Char)
  deriving DecidableEq

inductive RoutePreview where
  | direct
  | jumpChain (hops : List JumpHopPreview)
  | httpConnect (proxy : EndpointPreview)
  | socks5 (proxy : EndpointPreview)
  deriving DecidableEq

structure HostCandidate where
  hostAlias : List Char
  endpoint : Option EndpointPreview
  user : Option (List Char)
  identityFileHints : List (List Char)
  route : RoutePreview
  diagnostics : List Diagnostic
  importable : Bool
  deriving DecidableEq

structure ConfigPreview where
  candidates : List HostCandidate
  diagnostics : List Diagnostic
  deriving DecidableEq

def isValidAlias (value : List Char) : Bool :=
  !value.isEmpty && String.utf8Len value ≤ 253 && value.all Text.isAscii &&
    value.all fun c => Text.isAsciiAlphanumeric c || c ∈ ['.', '_', '-']

def isValidUser (value : List Char) : Bool :=
  !value.isEmpty && String.utf8Len value ≤ 255 && value.all Text.isAscii &&
    value.all fun c => Text.isAsciiAlphanumeric c || c ∈ ['.', '_', '-', '+', '@']

def isExpansion : Char × Char → Bool
  | (a, b) => a = '$' && (b = '_' || Text.isAsciiAlphanumeric b)

def containsDangerousExpansion (value : List Char) : Bool :=
  '`' ∈ value || ('$', '(') ∈ Text.pairs value || ('$', '\x7b') ∈ Text.pairs value ||
    (Text.pairs value).any isExpansion

def isValidIdentityHint (value : List Char) : Bool :=
  !value.isEmpty && String.utf8Len value ≤ maxLineBytes && !value.any Text.isControl &&
    !containsDangerousExpansion value && !value.any (· ∈ ['`', ';', '|'])

def containsShellToken (value : List Char) : Bool :=
  containsDangerousExpansion value || value.any (· ∈ ['`', ';', '|', '>', '<']) ||
    ('&', '&') ∈ Text.pairs value

/-- A row of the table: which beginnings of the value the pattern so far matches. -/
def globStar : Bool → List Bool → List Bool
  | _, [] => []
  | before, here :: rest => (here || before) :: globStar (here || before) rest

def globRow (value : List UInt8) (previous : List Bool) (byte : UInt8) : List Bool :=
  if byte = 42 then globStar false previous
  else false :: List.zipWith (fun before v =>
    before && (byte = 63 || asciiLower byte = asciiLower v)) previous value
where
  asciiLower (byte : UInt8) : UInt8 := if 65 ≤ byte ∧ byte ≤ 90 then byte + 32 else byte

def globMatches (pattern value : List UInt8) : Bool :=
  (pattern.foldl (globRow value) (true :: List.replicate value.length false)).getLastD false

structure ParsedLine where
  keyword : List Char
  values : List (List Char)
  deriving DecidableEq

structure Tokens where
  tokens : List (List Char) := []
  token : List Char := []
  started : Bool := false

namespace Tokens

def push (state : Tokens) (c : Char) : Tokens :=
  { state with token := state.token ++ [c], started := true }

def close (state : Tokens) : Tokens :=
  if state.started then { tokens := state.tokens ++ [state.token] } else state

end Tokens

def isEscapable (c : Char) : Bool := Text.isWhitespace c || c ∈ ['#', '\\', '\'', '"']

def tokenizeFrom : Option Char → Tokens → List Char → Except String (List (List Char))
  | none, state, [] => .ok state.close.tokens
  | some _, _, [] => .error "Unterminated quoted value"
  | some quote, state, c :: cs =>
    if c = quote then tokenizeFrom none state cs
    else if c = '\\' then
      match cs with
      | [] => .error "Trailing escape in quoted value"
      | escaped :: cs => tokenizeFrom (some quote) (state.push escaped) cs
    else tokenizeFrom (some quote) (state.push c) cs
  | none, state, c :: cs =>
    if c = '\'' ∨ c = '"' then tokenizeFrom (some c) { state with started := true } cs
    else if c = '#' then .ok state.close.tokens
    else if Text.isWhitespace c then tokenizeFrom none state.close cs
    else if c = '\\' then
      match cs with
      | [] => .error "Trailing escape in value"
      | escaped :: cs =>
        if isEscapable escaped then tokenizeFrom none (state.push escaped) cs
        else tokenizeFrom none ((state.push '\\').push escaped) cs
    else tokenizeFrom none (state.push c) cs

def tokenize (line : List Char) : Except String (List (List Char)) := tokenizeFrom none {} line

def parseLine (line : List Char) : Except String (Option ParsedLine) := do
  match ← tokenize line with
  | [] => return none
  | first :: tokens =>
    match Text.splitOnce '=' first with
    | some (keyword, value) =>
      reject (keyword = []) "Directive name is empty"
      return some { keyword, values := if value = [] then tokens else value :: tokens }
    | none =>
      return some {
        keyword := first
        values := if tokens.head? = some ['='] then tokens.tail else tokens }

structure HostPattern where
  pattern : List Char
  negated : Bool
  deriving DecidableEq

inductive BlockSelector where
  | global
  | host (patterns : List HostPattern) (ambiguous : Bool)
  | matchBlock
  deriving DecidableEq

def bytes (cs : List Char) : List UInt8 := cs.flatMap String.utf8EncodeChar

def patternsMatch (hostAlias : List Char) : Bool → List HostPattern → Bool
  | positive, [] => positive
  | positive, pattern :: patterns =>
    if globMatches (bytes pattern.pattern) (bytes hostAlias) then
      if pattern.negated then false else patternsMatch hostAlias true patterns
    else patternsMatch hostAlias positive patterns

def BlockSelector.matches (hostAlias : List Char) : BlockSelector → Bool
  | global | matchBlock => true
  | host patterns ambiguous => ambiguous || patternsMatch hostAlias false patterns

inductive DirectiveSlot where
  | always
  | hostName
  | user
  | port
  | identityFile
  | route
  deriving DecidableEq

inductive RouteSource where
  | proxyJump (value : List Char)
  | proxyCommand (values : List (List Char))
  deriving DecidableEq

inductive ParsedDirective where
  | hostName (value : List Char) (line : Nat)
  | user (value : List Char) (line : Nat)
  | port (value : List Char) (line : Nat)
  | identityFile (value : List Char) (line : Nat)
  | route (value : RouteSource) (line : Nat)
  | blocking (diagnostic : Diagnostic) (slot : DirectiveSlot)
  | ignored
  deriving DecidableEq

structure ConfigBlock where
  selector : BlockSelector := .global
  directives : List ParsedDirective := []
  diagnostics : List Diagnostic := []
  deriving DecidableEq

def keywordIs (keyword : List Char) (name : String) : Bool :=
  Text.eqIgnoreAsciiCase keyword name.toList

/-- What a `Host` line gives: its patterns, whether one of them cannot be evaluated, the literal
aliases that it introduces, and what is wrong with it. -/
structure HostSelector where
  patterns : List HostPattern := []
  ambiguous : Bool := false
  discovered : List (List Char) := []
  diagnostics : List Diagnostic := []

/-- Whether an exclamation mark precedes the pattern, and the pattern. -/
def splitNegation (value : List Char) : Bool × List Char :=
  match Text.stripPrefix '!' value with
  | some pattern => (true, pattern)
  | none => (false, value)

def readHostPattern (line : Nat) (selector : HostSelector) (value : List Char) : HostSelector :=
  let (negated, pattern) := splitNegation value
  if pattern = [] ∨ containsDangerousExpansion pattern then
    { selector with
      ambiguous := true
      diagnostics := selector.diagnostics ++ [diagnostic .invalidHostAlias (some line)
        (some "Host".toList) "Host pattern is empty or contains unsafe expansion syntax" true] }
  else if '[' ∈ pattern ∨ ']' ∈ pattern then
    { selector with
      ambiguous := true
      diagnostics := selector.diagnostics ++ [diagnostic .unsupportedHostPattern (some line)
        (some "Host".toList)
        "Bracket Host patterns are not evaluated by the safe import preview" true] }
  else
    let selector := { selector with
      patterns := selector.patterns ++ [{ pattern := pattern.map Char.toLower, negated }] }
    if !negated ∧ '*' ∉ pattern ∧ '?' ∉ pattern then
      if isValidAlias pattern then
        { selector with discovered := selector.discovered ++ [pattern] }
      else
        { selector with
          diagnostics := selector.diagnostics ++ [diagnostic .invalidHostAlias (some line)
            (some "Host".toList) "Literal Host alias is not a safe ASCII alias" true] }
    else selector

def parseHostSelector (values : List (List Char)) (line : Nat) : HostSelector :=
  if values = [] then
    { ambiguous := true
      diagnostics := [diagnostic .invalidSyntax (some line) (some "Host".toList)
        "Host requires at least one pattern" true] }
  else values.foldl (readHostPattern line) {}

def slotForKeyword (keyword : List Char) : DirectiveSlot :=
  if keyword = "hostname".toList then .hostName
  else if keyword = "user".toList then .user
  else if keyword = "port".toList then .port
  else if keyword = "identityfile".toList then .identityFile
  else if keyword = "proxyjump".toList ∨ keyword = "proxycommand".toList then .route
  else .always

def ignoredDirectives : List String :=
  ["addkeystoagent", "addressfamily", "bindaddress", "canonicalizefallbacklocal", "compression",
    "connectionattempts", "connecttimeout", "controlmaster", "controlpath", "controlpersist",
    "dynamicforward", "escapechar", "exitonforwardfailure", "forkafterauthentication",
    "forwardagent", "forwardx11", "forwardx11trusted", "gatewayports", "ipqos", "localforward",
    "loglevel", "requesttty", "remoteforward", "sendenv", "serveralivecountmax",
    "serveraliveinterval", "sessiontype", "setenv", "streamlocalbindmask", "streamlocalbindunlink",
    "tcpkeepalive", "tunnel", "tunneldevice", "visualhostkey"]

def isIgnoredDirective (keyword : List Char) : Bool := keyword ∈ ignoredDirectives.map String.toList

def singleValue (parsed : ParsedLine) (line : Nat) (slot : DirectiveSlot)
    (make : List Char → ParsedDirective) : ParsedDirective :=
  match parsed.values with
  | [value] => make value
  | _ => .blocking (diagnostic .invalidSyntax (some line) (some parsed.keyword)
      "Directive requires exactly one value" true) slot

def parseDirective (parsed : ParsedLine) (line : Nat) : ParsedDirective :=
  let keyword := parsed.keyword.map Char.toLower
  if parsed.values.any containsDangerousExpansion then
    .blocking (diagnostic .dangerousExpansion (some line) (some parsed.keyword)
      "Command substitution or environment expansion is not imported" true)
      (slotForKeyword keyword)
  else if keyword = "hostname".toList then singleValue parsed line .hostName (.hostName · line)
  else if keyword = "user".toList then singleValue parsed line .user (.user · line)
  else if keyword = "port".toList then singleValue parsed line .port (.port · line)
  else if keyword = "identityfile".toList then
    singleValue parsed line .identityFile (.identityFile · line)
  else if keyword = "proxyjump".toList then
    singleValue parsed line .route fun value => .route (.proxyJump value) line
  else if keyword = "proxycommand".toList then .route (.proxyCommand parsed.values) line
  else if keyword = "include".toList then
    .blocking (diagnostic .includeUnsupported (some line) (some parsed.keyword)
      "Include is not resolved by the pure-text import preview" true) .always
  else if isIgnoredDirective keyword then .ignored
  else
    .blocking (diagnostic .unsupportedDirective (some line) (some parsed.keyword)
      "Directive is outside the safely importable non-secret subset" true) .always

/-- The address after the `%%` and `%h` tokens are replaced. -/
def expandHostname (hostAlias : List Char) : List Char → Option (List Char)
  | [] => some []
  | '%' :: '%' :: rest => (expandHostname hostAlias rest).map ('%' :: ·)
  | '%' :: 'h' :: rest => (expandHostname hostAlias rest).map (hostAlias ++ ·)
  | c :: rest => if c = '%' then none else (expandHostname hostAlias rest).map (c :: ·)

abbrev Reported (α : Type) := α × List Diagnostic

def parseHostname (hostAlias : List Char) : Option (List Char × Nat) → Reported (Option (List Char))
  | none => (some hostAlias, [])
  | some (value, line) =>
    match expandHostname hostAlias value with
    | some output => (some output, [])
    | none => (none, [diagnostic .invalidHostName (some line) (some "HostName".toList)
        "HostName only permits the %% and %h tokens" true])

def parsePort : Option (List Char × Nat) → Reported (Option UInt16)
  | none => (some 22, [])
  | some (value, line) =>
    match (Text.parseU16 value).filter (· ≠ 0) with
    | some port => (some port, [])
    | none => (none, [diagnostic .invalidPort (some line) (some "Port".toList)
        "Port must be an integer between 1 and 65535" true])

def parseUser : Option (List Char × Nat) → Reported (Option (List Char))
  | none => (none, [])
  | some (value, line) =>
    if isValidUser value then (some value, [])
    else (none, [diagnostic .invalidUser (some line) (some "User".toList)
      "User must be a bounded literal ASCII username" true])

def parseLiteralPort (value : List Char) : Except String UInt16 :=
  match (Text.parseU16 value).filter (· ≠ 0) with
  | some port => .ok port
  | none => .error "Port must be between 1 and 65535"

def parseHostPort (value : List Char) (requirePort : Bool) :
    Except String (List Char × UInt16) := do
  let (address, port) ←
    match Text.stripPrefix '[' value with
    | some afterOpen =>
      match Text.splitOnce ']' afterOpen with
      | none => .error "Bracketed endpoint is missing a closing bracket"
      | some (address, remainder) =>
        if remainder = [] ∧ !requirePort then .ok (address, 22)
        else
          match Text.stripPrefix ':' remainder with
          | none => .error "Bracketed endpoint has invalid trailing syntax"
          | some port => return (address, ← parseLiteralPort port)
    | none =>
      match Text.rsplitOnce ':' value with
      | some (address, port) =>
        if ':' ∈ address then .error "IPv6 endpoints must use brackets"
        else return (address, ← parseLiteralPort port)
      | none =>
        if requirePort then .error "Endpoint requires an explicit port" else .ok (value, 22)
  reject (address = []) "Endpoint address is empty"
  return (address, port)

def parseEndpoint {ε : Type} (address : List Char) (port : UInt16) (error : ε) :
    Except ε EndpointPreview :=
  match Endpoint.parse address port with
  | .ok endpoint => .ok { address := endpoint.normalizedAddress, port := endpoint.port }
  | .error _ => .error error

def splitUser (value : List Char) : Except String (Option (List Char) × List Char) :=
  match Text.rsplitOnce '@' value with
  | some (user, endpoint) =>
    if !isValidUser user ∨ '@' ∈ user then
      .error "ProxyJump user is not a safe literal username"
    else .ok (some user, endpoint)
  | none => .ok (none, value)

def parseJumpHop (value : List Char) : Except String JumpHopPreview := do
  reject (containsDangerousExpansion value ∨ value.any (· ∈ ['*', '?', '!', ',']))
    "ProxyJump hop must be literal and cannot contain patterns or expansions"
  let (user, endpoint) ← splitUser value
  let (address, port) ← parseHostPort endpoint false
  return {
    endpoint := ← parseEndpoint address port
      "ProxyJump endpoint is not a supported literal endpoint"
    user }

def parseProxyJump (value : List Char) : Except String (List JumpHopPreview) := do
  reject (Text.eqIgnoreAsciiCase value "none".toList) "ProxyJump none is not a literal jump hop"
  let parts := value.splitOn ','
  reject (parts = [] ∨ parts.length > maxJumpHops ∨ parts.any (·.isEmpty))
    "ProxyJump must contain between one and five literal hops"
  parts.mapM parseJumpHop

/-- The strict form of the command: its proxy mode and the proxy's endpoint. -/
def ncArguments : List (List Char) → Option (List Char × List Char)
  | [command, versionFlag, mode, proxyFlag, endpoint, host, port] =>
    if command = "/usr/bin/nc".toList ∧ versionFlag = "-X".toList ∧ proxyFlag = "-x".toList ∧
        host = "%h".toList ∧ port = "%p".toList then
      some (mode, endpoint)
    else none
  | _ => none

def parseProxyCommand (values : List (List Char)) :
    Except (DiagnosticCode × String) RoutePreview := do
  if values.length = 1 ∧ values.all (Text.eqIgnoreAsciiCase · "none".toList) then return .direct
  reject (values.any containsShellToken)
    (.dangerousToken, "ProxyCommand contains shell or command-substitution syntax")
  match ncArguments values with
  | none => .error (.unsupportedProxyCommand,
      "Only the strict /usr/bin/nc proxy form is safely importable")
  | some (mode, endpoint) =>
    let (address, port) ← (parseHostPort endpoint true).mapError fun _ =>
      (.unsupportedProxyCommand, "ProxyCommand proxy endpoint must be a literal HOST:PORT")
    let proxy ← parseEndpoint address port
      (.unsupportedProxyCommand, "ProxyCommand proxy endpoint is invalid")
    if Text.eqIgnoreAsciiCase mode "connect".toList then return .httpConnect proxy
    else if mode = "5".toList then return .socks5 proxy
    else .error (.unsupportedProxyCommand, "nc proxy mode must be connect or 5")

def parseRoute : Option (RouteSource × Nat) → Reported RoutePreview
  | none => (.direct, [])
  | some (.proxyJump value, line) =>
    match parseProxyJump value with
    | .ok hops => (.jumpChain hops, [])
    | .error message => (.direct, [diagnostic .invalidProxyJump (some line)
        (some "ProxyJump".toList) message true])
  | some (.proxyCommand values, line) =>
    match parseProxyCommand values with
    | .ok route => (route, [])
    | .error (code, message) => (.direct, [diagnostic code (some line)
        (some "ProxyCommand".toList) message true])

/-- The values found so far, and the slots that are decided. -/
structure Evaluation where
  diagnostics : List Diagnostic
  hostname : Option (List Char × Nat) := none
  user : Option (List Char × Nat) := none
  port : Option (List Char × Nat) := none
  route : Option (RouteSource × Nat) := none
  identityFileHints : List (List Char) := []
  hostnameSeen : Bool := false
  userSeen : Bool := false
  portSeen : Bool := false
  routeSeen : Bool := false
  deriving DecidableEq

namespace Evaluation

def report (state : Evaluation) (item : Diagnostic) : Evaluation :=
  { state with diagnostics := state.diagnostics ++ [item] }

def addIdentityFile (state : Evaluation) (value : List Char) (line : Nat) : Evaluation :=
  if Text.eqIgnoreAsciiCase value "none".toList then { state with identityFileHints := [] }
  else if state.identityFileHints.length = maxIdentityFileHints then
    if state.diagnostics.any (·.code = .tooManyIdentityFiles) then state
    else state.report (diagnostic .tooManyIdentityFiles (some line) (some "IdentityFile".toList)
      "IdentityFile hint limit exceeded" true)
  else if isValidIdentityHint value then
    { state with identityFileHints := state.identityFileHints ++ [value] }
  else state.report (diagnostic .invalidIdentityFile (some line) (some "IdentityFile".toList)
    "IdentityFile hint is empty, oversized, or contains unsafe syntax" true)

def addDirective (state : Evaluation) : ParsedDirective → Evaluation
  | .hostName value line =>
    if state.hostnameSeen then state
    else { state with hostnameSeen := true, hostname := some (value, line) }
  | .user value line =>
    if state.userSeen then state else { state with userSeen := true, user := some (value, line) }
  | .port value line =>
    if state.portSeen then state else { state with portSeen := true, port := some (value, line) }
  | .identityFile value line => state.addIdentityFile value line
  | .route value line =>
    if state.routeSeen then state
    else { state with routeSeen := true, route := some (value, line) }
  | .blocking item .always | .blocking item .identityFile => state.report item
  | .blocking item .hostName =>
    if state.hostnameSeen then state else { state with hostnameSeen := true }.report item
  | .blocking item .user =>
    if state.userSeen then state else { state with userSeen := true }.report item
  | .blocking item .port =>
    if state.portSeen then state else { state with portSeen := true }.report item
  | .blocking item .route =>
    if state.routeSeen then state else { state with routeSeen := true }.report item
  | .ignored => state

def addBlock (hostAlias : List Char) (state : Evaluation) (block : ConfigBlock) : Evaluation :=
  if block.selector.matches hostAlias then
    block.directives.foldl addDirective
      { state with diagnostics := state.diagnostics ++ block.diagnostics }
  else state

def resolveEndpoint (hostname : Option (List Char × Nat)) :
    Option (List Char) → Option UInt16 → Reported (Option EndpointPreview)
  | some address, some port =>
    match parseEndpoint address port () with
    | .ok endpoint => (some endpoint, [])
    | .error () => (none, [diagnostic .invalidHostName (hostname.map (·.2))
        (some "HostName".toList) "HostName is not a supported IPv4, IPv6, or ASCII DNS address"
        true])
  | _, _ => (none, [])

def finish (hostAlias : List Char) (state : Evaluation) : HostCandidate :=
  let (port, portReport) := parsePort state.port
  let (address, addressReport) := parseHostname hostAlias state.hostname
  let (endpoint, endpointReport) := resolveEndpoint state.hostname address port
  let (user, userReport) := parseUser state.user
  let (route, routeReport) := parseRoute state.route
  let diagnostics := state.diagnostics ++ portReport ++ addressReport ++ endpointReport ++
    userReport ++ routeReport
  { hostAlias, endpoint, user, identityFileHints := state.identityFileHints, route, diagnostics
    importable := endpoint.isSome && diagnostics.all (!·.blocking) }

end Evaluation

def buildCandidate (blocks : List ConfigBlock) (documentDiagnostics : List Diagnostic)
    (hostAlias : List Char) : HostCandidate :=
  (blocks.foldl (Evaluation.addBlock hostAlias) { diagnostics := documentDiagnostics }).finish
    hostAlias

structure Document where
  blocks : List ConfigBlock := []
  current : ConfigBlock := {}
  aliases : List (List Char) := []
  seenAliases : Finset (List Char) := ∅
  diagnostics : List Diagnostic := []
  candidateLimitReported : Bool := false

namespace Document

def report (document : Document) (item : Diagnostic) : Document :=
  { document with diagnostics := document.diagnostics ++ [item] }

def addAlias (line : Nat) (document : Document) (hostAlias : List Char) : Document :=
  let key := hostAlias.map Char.toLower
  if key ∈ document.seenAliases then document
  else if document.aliases.length = maxCandidates then
    if document.candidateLimitReported then document
    else { document with candidateLimitReported := true }.report
      (diagnostic .tooManyCandidates (some line) (some "Host".toList)
        "OpenSSH config exceeds the literal Host candidate limit" true)
  else
    { document with
      seenAliases := insert key document.seenAliases
      aliases := document.aliases ++ [hostAlias] }

def startBlock (document : Document) (block : ConfigBlock) : Document :=
  { document with blocks := document.blocks ++ [document.current], current := block }

def addHost (document : Document) (values : List (List Char)) (line : Nat) : Document :=
  let selector := parseHostSelector values line
  selector.discovered.foldl (addAlias line) (document.startBlock {
    selector := .host selector.patterns selector.ambiguous, diagnostics := selector.diagnostics })

def addMatch (document : Document) (values : List (List Char)) (line : Nat) : Document :=
  let code := if values.any (keywordIs · "exec") then .dangerousToken else .matchUnsupported
  document.startBlock {
    selector := .matchBlock
    diagnostics := [diagnostic code (some line) (some "Match".toList)
      "Match blocks are not evaluated by the safe import preview" true] }

def addParsed (document : Document) (parsed : ParsedLine) (line : Nat) : Document :=
  if keywordIs parsed.keyword "host" then document.addHost parsed.values line
  else if keywordIs parsed.keyword "match" then document.addMatch parsed.values line
  else
    { document with current := { document.current with
        directives := document.current.directives ++ [parseDirective parsed line] } }

def addLine (document : Document) (line : Nat) (rawLine : List Char) : Document :=
  if String.utf8Len rawLine > maxLineBytes then
    document.report (diagnostic .lineTooLong (some line) none
      "OpenSSH config line exceeds the preview line-length limit" true)
  else
    match parseLine rawLine with
    | .ok none => document
    | .ok (some parsed) => document.addParsed parsed line
    | .error message =>
      { document with current := { document.current with
          diagnostics := document.current.diagnostics ++
            [diagnostic .invalidSyntax (some line) none message true] } }

def addLines (document : Document) : Nat → List (List Char) → Document
  | _, [] => document
  | index, rawLine :: rest =>
    if index ≥ maxConfigLines then
      document.report (diagnostic .tooManyLines (some (index + 1)) none
        "OpenSSH config exceeds the preview line limit" true)
    else addLines (document.addLine (index + 1) rawLine) (index + 1) rest

def preview (document : Document) : ConfigPreview :=
  let blocks := document.blocks ++ [document.current]
  let diagnostics := document.diagnostics ++
    if document.aliases = [] then
      [diagnostic .noLiteralHostCandidates none (some "Host".toList)
        "No literal Host aliases were found" false]
    else []
  { candidates := document.aliases.map (buildCandidate blocks diagnostics), diagnostics }

end Document

def parseOpenSshConfigPreview (input : List Char) : ConfigPreview :=
  if String.utf8Len input > maxConfigBytes then
    { candidates := []
      diagnostics := [diagnostic .inputTooLarge none none
        "OpenSSH config exceeds the preview byte limit" true] }
  else (Document.addLines {} 0 (Text.lines input)).preview

end NoriShell.Ssh.OpenSsh
