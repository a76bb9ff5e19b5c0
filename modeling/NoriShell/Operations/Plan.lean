import Mathlib
import NoriShell.Collections.Check

/-! The command catalog of `plugin-platform`: typed remote operations and the shell
commands planned for them. -/

namespace NoriShell.Operations

open Collections

/-- Part of a command: fixed text, fixed text in quotes, and the two ways a parameter
enters it. -/
inductive Segment where
  | text (text : String)
  | fixed (text : String)
  | quoted (value : String)
  | number (value : Nat)
  deriving DecidableEq, Repr

def shellQuote (value : List Char) : List Char :=
  '\'' :: (value.flatMap fun character =>
    if character = '\'' then ['\'', '"', '\'', '"', '\''] else [character]) ++ ['\'']

def digits (value : Nat) : List Char := Nat.toDigits 10 value

def Segment.render : Segment → List Char
  | .text value => value.toList
  | .fixed value => shellQuote value.toList
  | .quoted value => shellQuote value.toList
  | .number value => digits value

inductive PlanError where
  | invalidParameter (field : String)
  | parameterTooLarge (field : String) (maximum : Nat)
  | knownSecretMaterial
  | commandTooLarge
  deriving DecidableEq, Repr

inductive OperationClass where
  | readOnly
  | mutation
  deriving DecidableEq, Repr

inductive ApprovalRequirement where
  | none
  | coreProtectedPerExecution
  deriving DecidableEq, Repr

inductive OperationKind where
  | text
  | crontabSnapshot
  | processSnapshot
  | cpuUsage
  deriving DecidableEq, Repr

structure ProcessIdentity where
  pid : UInt32
  startTimeTicks : UInt64
  deriving DecidableEq, Repr

inductive OperationPrecondition where
  | processIdentity (identity : ProcessIdentity)
  | crontabSha256 (sha256 : String)
  | nginxConfigTest
  deriving DecidableEq, Repr

inductive DockerOperation where
  | list (all : Bool)
  | stats
  | logs (containerId : String) (lines : UInt32) (sinceSeconds : Option UInt32)
  | start (containerId : String)
  | stop (containerId : String) (timeoutSeconds : UInt16)
  | restart (containerId : String) (timeoutSeconds : UInt16)
  deriving DecidableEq, Repr

inductive SystemdOperation where
  | list
  | status (unit : String)
  | journal (unit : String) (lines : UInt32)
  | start (unit : String)
  | stop (unit : String)
  | restart (unit : String)
  | enable (unit : String)
  | disable (unit : String)
  deriving DecidableEq, Repr

inductive DiskOperation where
  | filesystems
  | usage (path : String) (maxDepth : UInt8)
  | largeFiles (path : String) (minimumBytes : UInt64) (limit : UInt16)
  deriving DecidableEq, Repr

inductive NetworkOperation where
  | dns (host : String)
  | tcp (host : String) (port : UInt16) (timeoutSeconds : UInt8)
  | http (url : String) (timeoutSeconds : UInt8)
  | routes
  | routeTo (destination : String)
  | tls (host : String) (port : UInt16) (serverName : Option String) (timeoutSeconds : UInt8)
  deriving DecidableEq, Repr

inductive ProcessSort where
  | cpu
  | memory
  deriving DecidableEq, Repr

inductive ProcessSignal where
  | term
  | kill
  deriving DecidableEq, Repr

inductive ProcessOperation where
  | list (sort : ProcessSort)
  | sockets
  | detail (pid : UInt32)
  | cpuUsage
  | signal (identity : ProcessIdentity) (signal : ProcessSignal)
  deriving DecidableEq, Repr

inductive CrontabOperation where
  | read
  | replace (expectedSha256 : String) (content : String)
  deriving DecidableEq, Repr

inductive NginxOperation where
  | sites
  | configTest
  | reload
  deriving DecidableEq, Repr

inductive CustomOperation where
  | shell (command : String) (timeoutSeconds : UInt16) (maxOutputBytes : UInt32)
  deriving DecidableEq, Repr

inductive RemoteOperation where
  | docker (operation : DockerOperation)
  | systemd (operation : SystemdOperation)
  | disk (operation : DiskOperation)
  | network (operation : NetworkOperation)
  | process (operation : ProcessOperation)
  | crontab (operation : CrontabOperation)
  | nginx (operation : NginxOperation)
  | custom (operation : CustomOperation)
  deriving DecidableEq, Repr

def maxCommandBytes : Nat := 64 * 1024
def maxPathBytes : Nat := 4 * 1024
def maxOutput : Nat := 64 * 1024
def maxCrontabBytes : Nat := 32 * 1024
def cpuUsageMaxOutputBytes : Nat := 4 * 1024

def bytes (value : String) : List UInt8 := value.toByteArray.data.toList

def text (value field : String) (maximum : Nat) : Except PlanError Unit := do
  reject (value = "" ∨ (bytes value).any fun byte => byte = 0 || byte < 0x20 || byte = 0x7f)
    (.invalidParameter field)
  reject (value.utf8ByteSize > maximum) (.parameterTooLarge field maximum)

def isAsciiAlphanumeric (byte : UInt8) : Bool :=
  (48 ≤ byte && byte ≤ 57) || (65 ≤ byte && byte ≤ 90) || (97 ≤ byte && byte ≤ 122)

/-- Letters, digits and `_ . - @ :`, and no leading `-`. -/
def identifier (value field : String) (maximum : Nat) : Except PlanError Unit := do
  text value field maximum
  reject (value.toList.head? = some '-' ∨ ¬(bytes value).all fun byte =>
    isAsciiAlphanumeric byte || byte = 95 || byte = 46 || byte = 45 || byte = 64 || byte = 58)
    (.invalidParameter field)

def path (value : String) : Except PlanError Unit := text value "path" maxPathBytes

def host (value field : String) : Except PlanError Unit := do
  identifier value field 253
  reject ('@' ∈ value.toList) (.invalidParameter field)

def afterScheme : List Char → List Char
  | ':' :: '/' :: '/' :: tail => tail
  | _ :: rest => afterScheme rest
  | [] => []

def httpUrl (value : String) : Except PlanError Unit := do
  text value "url" 2048
  reject (¬("http://".toList <+: value.toList ∨ "https://".toList <+: value.toList))
    (.invalidParameter "url")
  let authority := (afterScheme value.toList).takeWhile fun c => !(c = '/' || c = '?' || c = '#')
  reject (authority = [] ∨ '@' ∈ authority) (.invalidParameter "url")

def isAsciiHexdigit (byte : UInt8) : Bool :=
  (48 ≤ byte && byte ≤ 57) || (65 ≤ byte && byte ≤ 70) || (97 ≤ byte && byte ≤ 102)

def toAsciiLowercase (value : String) : String := value.map Char.toLower

def sha256 (value field : String) : Except PlanError String := do
  reject (value.utf8ByteSize ≠ 64 ∨ ¬(bytes value).all isAsciiHexdigit)
    (.invalidParameter field)
  return toAsciiLowercase value

def knownSecretMarkers : List String :=
  ["-----begin private key-----", "-----begin openssh private key-----",
    "authorization: bearer ", "proxy-authorization: bearer ", "aws_secret_access_key=",
    "private_key="]

def customShell (value : String) : Except PlanError Unit := do
  reject (value = "" ∨ value.utf8ByteSize > 16 * 1024 ∨ 0 ∈ bytes value)
    (.invalidParameter "command")
  reject (knownSecretMarkers.any fun marker =>
    marker.toList <:+: (toAsciiLowercase value).toList) .knownSecretMaterial

def unitName (unit : String) : Except PlanError Unit := identifier unit "unit" 256

def boundedTimeout (timeoutSeconds : UInt8) : Except PlanError Unit :=
  reject (¬(1 ≤ timeoutSeconds ∧ timeoutSeconds ≤ 60)) (.invalidParameter "timeout_seconds")

def portAndTimeout (port : UInt16) (timeoutSeconds : UInt8) : Except PlanError Unit := do
  reject (port = 0) (.invalidParameter "port")
  boundedTimeout timeoutSeconds

def validPid (pid : UInt32) : Except PlanError Unit :=
  reject (pid < 2 ∨ pid.toNat > 2 ^ 31 - 1) (.invalidParameter "pid")

def lineCount (lines : UInt32) : Except PlanError Unit :=
  reject (¬(1 ≤ lines ∧ lines ≤ 10000)) (.invalidParameter "lines")

def DockerOperation.command : DockerOperation → List Segment
  | .list all => [.text "docker ps", .text (if all then " --all" else ""),
    .text " --no-trunc --format '\x7b\x7b.ID\x7d\x7d\\t\x7b\x7b.Names\x7d\x7d\\t\x7b\x7b.Image\x7d\x7d\\t\x7b\x7b.Status\x7d\x7d\\t\x7b\x7b.Ports\x7d\x7d'"]
  | .stats => [
    .text "docker stats --no-stream --format '\x7b\x7b.ID\x7d\x7d\\t\x7b\x7b.Name\x7d\x7d\\t\x7b\x7b.CPUPerc\x7d\x7d\\t\x7b\x7b.MemUsage\x7d\x7d\\t\x7b\x7b.NetIO\x7d\x7d\\t\x7b\x7b.BlockIO\x7d\x7d'"]
  | .logs containerId lines sinceSeconds =>
    [.text "docker logs --tail ", .number lines.toNat] ++
      (match sinceSeconds with
        | none => []
        | some seconds => [.text " --since ", .number seconds.toNat, .text "s"]) ++
      [.text " -- ", .quoted containerId]
  | .start containerId => [.text "docker start -- ", .quoted containerId]
  | .stop containerId timeoutSeconds =>
    [.text "docker stop --time ", .number timeoutSeconds.toNat, .text " -- ", .quoted containerId]
  | .restart containerId timeoutSeconds =>
    [.text "docker restart --time ", .number timeoutSeconds.toNat, .text " -- ",
      .quoted containerId]

def SystemdOperation.command : SystemdOperation → List Segment
  | .list => [
    .text "systemctl list-units --type=service --all --no-pager --plain --no-legend"]
  | .status unit => [.text "systemctl status --no-pager --full -- ", .quoted unit,
    .text "; norishell_systemd_status=$?; if [ \"$norishell_systemd_status\" -eq 3 ]; then exit 0; fi; exit \"$norishell_systemd_status\""]
  | .journal unit lines =>
    [.text "journalctl --no-pager --output=short-iso --lines=", .number lines.toNat,
      .text " --unit=", .quoted unit]
  | .start unit => [.text "systemctl ", .text "start", .text " -- ", .quoted unit]
  | .stop unit => [.text "systemctl ", .text "stop", .text " -- ", .quoted unit]
  | .restart unit => [.text "systemctl ", .text "restart", .text " -- ", .quoted unit]
  | .enable unit => [.text "systemctl ", .text "enable", .text " -- ", .quoted unit]
  | .disable unit => [.text "systemctl ", .text "disable", .text " -- ", .quoted unit]

def DiskOperation.command : DiskOperation → List Segment
  | .filesystems => [.text "df -P -B1"]
  | .usage path maxDepth => [
    .text "work=$(mktemp -d) || exit 1; raw=\"$work/raw\"; sorted=\"$work/sorted\"; trap 'rm -rf -- \"$work\"' EXIT HUP INT TERM; du -x -B1 --max-depth=",
    .number maxDepth.toNat, .text " -- ", .quoted path,
    .text " >\"$raw\" && sort -nr -- \"$raw\" >\"$sorted\" && head -n 500 -- \"$sorted\""]
  | .largeFiles path minimumBytes limit => [
    .text "work=$(mktemp -d) || exit 1; raw=\"$work/raw\"; sorted=\"$work/sorted\"; trap 'rm -rf -- \"$work\"' EXIT HUP INT TERM; find -- ", .quoted path,
    .text " -xdev -type f -size +", .number (minimumBytes.toNat - 1),
    .text "c -printf '%s\\t%p\\n' >\"$raw\" && sort -nr -- \"$raw\" >\"$sorted\" && head -n ",
    .number limit.toNat, .text " -- \"$sorted\""]

def httpMetrics : String :=
  "\nNORISHELL_HTTP_METRICS status=%\x7bhttp_code\x7d remote_ip=%\x7bremote_ip\x7d dns=%\x7btime_namelookup\x7d connect=%\x7btime_connect\x7d tls=%\x7btime_appconnect\x7d first_byte=%\x7btime_starttransfer\x7d total=%\x7btime_total\x7d\n"

/-- The `-connect` argument of `openssl s_client`; an IPv6 address is bracketed. -/
def tlsConnect (host : String) (port : UInt16) : String :=
  .ofList (if ':' ∈ host.toList then '[' :: host.toList ++ [']', ':'] ++ digits port.toNat
    else host.toList ++ ':' :: digits port.toNat)

def NetworkOperation.command : NetworkOperation → List Segment
  | .dns host => [.text "getent ahosts -- ", .quoted host]
  | .tcp host port timeoutSeconds =>
    [.text "timeout ", .number timeoutSeconds.toNat, .text " nc -z -v -w ",
      .number timeoutSeconds.toNat, .text " -- ", .quoted host, .text " ", .number port.toNat]
  | .http url timeoutSeconds => [
    .text "curl --disable --silent --show-error --include --max-time ",
    .number timeoutSeconds.toNat, .text " --max-filesize ", .number maxOutput,
    .text " --write-out ", .fixed httpMetrics, .text " --url ", .quoted url]
  | .routes => [.text "ip -details route show"]
  | .routeTo destination => [.text "ip route get ", .quoted destination]
  | .tls host port serverName timeoutSeconds =>
    [.text "timeout ", .number timeoutSeconds.toNat, .text " openssl s_client -brief -connect ",
      .quoted (tlsConnect host port), .text " -servername ", .quoted (serverName.getD host),
      .text " </dev/null"]

def processIdentityPrefix (pid : UInt32) (expected : Option UInt64) : List Segment :=
  [.text "pid=", .number pid.toNat,
    .text "; stat=$(cat -- \"/proc/$pid/stat\") || \x7b printf '%s\\n' 'NORISHELL_OP_ERROR:process-identity-mismatch' >&2; exit 73; \x7d; set -- $\x7bstat##*) \x7d; actual_start=$\x7b20-\x7d; [ -n \"$actual_start\" ] || \x7b printf '%s\\n' 'NORISHELL_OP_ERROR:process-identity-mismatch' >&2; exit 73; \x7d; "] ++
    match expected with
    | none => []
    | some expected => [.text "[ \"$actual_start\" = ", .number expected.toNat,
      .text " ] || \x7b printf '%s\\n' 'NORISHELL_OP_ERROR:process-identity-mismatch' >&2; exit 73; \x7d; "]

def ProcessSort.key : ProcessSort → String
  | .cpu => "-pcpu"
  | .memory => "-rss"

def ProcessSignal.name : ProcessSignal → String
  | .term => "TERM"
  | .kill => "KILL"

def ProcessOperation.command : ProcessOperation → List Segment
  | .list sort => [
    .text "ps -eo pid=,ppid=,user=,stat=,pcpu=,pmem=,rss=,etimes=,comm= --sort=", .text sort.key]
  | .sockets => [.text "ss -H -n -l -t -u -p"]
  | .detail pid => processIdentityPrefix pid none ++ [
    .text "printf 'NORISHELL_PROCESS_IDENTITY:%s:%s\\n' \"$pid\" \"$actual_start\"; ps -p \"$pid\" -o pid=,ppid=,uid=,user=,stat=,pcpu=,pmem=,rss=,lstart=,etimes=,comm= || exit $?; if command -v systemctl >/dev/null 2>&1; then unit=$(awk -F/ '\x7b for (i = NF; i >= 1; i--) if ($i ~ /[.]service$/) \x7b print $i; exit \x7d \x7d' \"/proc/$pid/cgroup\"); if [ -n \"$unit\" ]; then printf 'NORISHELL_PROCESS_SYSTEMD:available:%s\\n' \"$unit\"; else printf '%s\\n' 'NORISHELL_PROCESS_SYSTEMD:not-found'; fi; else printf '%s\\n' 'NORISHELL_PROCESS_SYSTEMD:unavailable'; fi"]
  | .cpuUsage => [
    .text "IFS= read -r first < /proc/stat || exit 1; printf 'NORISHELL_CPU_STAT:first:%s\\n' \"$first\"; sleep 0.2; IFS= read -r second < /proc/stat || exit 1; printf 'NORISHELL_CPU_STAT:second:%s\\n' \"$second\""]
  | .signal identity sent => processIdentityPrefix identity.pid (some identity.startTimeTicks) ++
    [.text "kill -", .text sent.name, .text " \"$pid\""]

def crontabWorkPrefix : Segment :=
  .text "umask 077; work=$(mktemp -d) || exit 1; current=\"$work/current\"; error=\"$work/error\"; trap 'rm -rf -- \"$work\"' EXIT HUP INT TERM; "

def crontabReadCurrent : Segment :=
  .text "if crontab -l >\"$current\" 2>\"$error\"; then :; elif grep -q '^no crontab for ' \"$error\"; then : >\"$current\"; else cat -- \"$error\" >&2; exit 1; fi; "

section

variable (digest : String → String)

/-- `digest` is the lower-case SHA-256 of a text. -/
def CrontabOperation.command : CrontabOperation → List Segment
  | .read => [crontabWorkPrefix, crontabReadCurrent,
    .text "hash=$(sha256sum \"$current\"); hash=$\x7bhash%% *\x7d; printf 'NORISHELL_CRONTAB_SHA256:%s\\n' \"$hash\"; cat -- \"$current\""]
  | .replace expectedSha256 content => [crontabWorkPrefix,
    .text "replacement=\"$work/replacement\"; cat >\"$replacement\" || exit 1; replacement_hash=$(sha256sum \"$replacement\"); replacement_hash=$\x7breplacement_hash%% *\x7d; [ \"$replacement_hash\" = ", .quoted (digest content),
    .text " ] || exit 74; ", crontabReadCurrent,
    .text "current_hash=$(sha256sum \"$current\"); current_hash=$\x7bcurrent_hash%% *\x7d; [ \"$current_hash\" = ",
    .quoted (toAsciiLowercase expectedSha256),
    .text " ] || \x7b printf '%s\\n' 'NORISHELL_OP_ERROR:crontab-cas-mismatch' >&2; exit 73; \x7d; crontab \"$replacement\""]

def NginxOperation.command : NginxOperation → List Segment
  | .sites => [
    .text "find -- /etc/nginx/sites-enabled -mindepth 1 -maxdepth 1 -printf '%f\\t%y\\t%l\\n'"]
  | .configTest => [.text "nginx -t"]
  | .reload => [
    .text "nginx -t; result=$?; [ \"$result\" -eq 0 ] || \x7b printf '%s\\n' 'NORISHELL_OP_ERROR:nginx-config-test-failed' >&2; exit \"$result\"; \x7d; nginx -s reload"]

def CustomOperation.command : CustomOperation → List Segment
  | .shell command _ _ => [.text command]

structure Spec where
  command : List Segment
  tools : List String
  operationClass : OperationClass
  timeoutSeconds : Nat := 15
  maxOutputBytes : Nat := maxOutput
  kind : OperationKind := .text
  recognizesInternalMarkers : Bool := true
  preconditions : List OperationPrecondition := []
  stdin : Option String := none
  commandIsSensitive : Bool := false
  stdinIsSensitive : Bool := false

structure OperationPlan where
  command : String
  stdin : Option String
  operationClass : OperationClass
  approval : ApprovalRequirement
  timeoutSeconds : Nat
  maxOutputBytes : Nat
  kind : OperationKind
  recognizesInternalMarkers : Bool
  preconditions : List OperationPrecondition
  commandIsSensitive : Bool
  stdinIsSensitive : Bool

def toolCheck (tool : String) : List Segment :=
  [.text "command -v ", .fixed tool,
    .text " >/dev/null 2>&1 || \x7b printf '%s\\n' 'NORISHELL_OP_ERROR:missing-tool:", .text tool,
    .text "' >&2; exit 127; \x7d; "]

def Spec.segments (spec : Spec) : List Segment :=
  .text "LC_ALL=C; export LC_ALL; " :: spec.tools.flatMap toolCheck ++ spec.command

def finish (spec : Spec) : Except PlanError OperationPlan := do
  let command := String.ofList (spec.segments.flatMap Segment.render)
  reject (command.utf8ByteSize > maxCommandBytes) .commandTooLarge
  return {
    command
    stdin := spec.stdin
    operationClass := spec.operationClass
    approval := if spec.operationClass = .mutation then .coreProtectedPerExecution else .none
    timeoutSeconds := spec.timeoutSeconds
    maxOutputBytes := spec.maxOutputBytes
    kind := spec.kind
    recognizesInternalMarkers := spec.recognizesInternalMarkers
    preconditions := spec.preconditions
    commandIsSensitive := spec.commandIsSensitive
    stdinIsSensitive := spec.stdinIsSensitive }

def docker (operation : DockerOperation) : Except PlanError Spec := do
  let readOnly : Spec :=
    { command := operation.command, tools := ["docker"], operationClass := .readOnly }
  let mutation : Spec := { readOnly with operationClass := .mutation }
  match operation with
  | .list _ => return readOnly
  | .stats => return { readOnly with timeoutSeconds := 20 }
  | .logs containerId lines _ =>
    identifier containerId "container_id" 128
    lineCount lines
    return { readOnly with timeoutSeconds := 30 }
  | .start containerId =>
    identifier containerId "container_id" 128
    return mutation
  | .stop containerId timeoutSeconds =>
    identifier containerId "container_id" 128
    reject (timeoutSeconds > 300) (.invalidParameter "timeout_seconds")
    return { mutation with timeoutSeconds := timeoutSeconds.toNat + 15 }
  | .restart containerId timeoutSeconds =>
    identifier containerId "container_id" 128
    reject (timeoutSeconds > 300) (.invalidParameter "timeout_seconds")
    return { mutation with timeoutSeconds := timeoutSeconds.toNat + 30 }

def systemd (operation : SystemdOperation) : Except PlanError Spec := do
  let readOnly : Spec :=
    { command := operation.command, tools := ["systemctl"], operationClass := .readOnly }
  let mutation : Spec := { readOnly with operationClass := .mutation, timeoutSeconds := 45 }
  match operation with
  | .list => return readOnly
  | .status unit =>
    unitName unit
    return readOnly
  | .journal unit lines =>
    unitName unit
    lineCount lines
    return { readOnly with tools := ["journalctl"], timeoutSeconds := 30 }
  | .start unit | .stop unit | .restart unit | .enable unit | .disable unit =>
    unitName unit
    return mutation

def disk (operation : DiskOperation) : Except PlanError Spec := do
  let command := operation.command
  match operation with
  | .filesystems => return { command, tools := ["df"], operationClass := .readOnly }
  | .usage value maxDepth =>
    path value
    reject (maxDepth > 16) (.invalidParameter "max_depth")
    return {
      command
      tools := ["du", "mktemp", "rm", "sort", "head"]
      operationClass := .readOnly
      timeoutSeconds := 45 }
  | .largeFiles value minimumBytes limit =>
    path value
    reject (minimumBytes = 0) (.invalidParameter "minimum_bytes")
    reject (¬(1 ≤ limit ∧ limit ≤ 1000)) (.invalidParameter "limit")
    return {
      command
      tools := ["mktemp", "rm", "find", "sort", "head"]
      operationClass := .readOnly
      timeoutSeconds := 60 }

def network (operation : NetworkOperation) : Except PlanError Spec := do
  let command := operation.command
  match operation with
  | .dns value =>
    host value "host"
    return { command, tools := ["getent"], operationClass := .readOnly }
  | .tcp value port timeoutSeconds =>
    host value "host"
    portAndTimeout port timeoutSeconds
    return { command, tools := ["timeout", "nc"], operationClass := .readOnly }
  | .http url timeoutSeconds =>
    httpUrl url
    boundedTimeout timeoutSeconds
    return {
      command
      tools := ["curl"]
      operationClass := .readOnly
      timeoutSeconds := timeoutSeconds.toNat + 5
      commandIsSensitive := '?' ∈ url.toList ∨ '#' ∈ url.toList }
  | .routes => return { command, tools := ["ip"], operationClass := .readOnly }
  | .routeTo destination =>
    host destination "destination"
    return { command, tools := ["ip"], operationClass := .readOnly }
  | .tls value port serverName timeoutSeconds =>
    host value "host"
    portAndTimeout port timeoutSeconds
    if let some serverName := serverName then host serverName "server_name"
    return {
      command
      tools := ["timeout", "openssl"]
      operationClass := .readOnly
      timeoutSeconds := timeoutSeconds.toNat + 5 }

def process (operation : ProcessOperation) : Except PlanError Spec := do
  let command := operation.command
  match operation with
  | .list _ => return { command, tools := ["ps"], operationClass := .readOnly }
  | .sockets => return { command, tools := ["ss"], operationClass := .readOnly }
  | .detail pid =>
    validPid pid
    return {
      command
      tools := ["cat", "ps", "awk"]
      operationClass := .readOnly
      kind := .processSnapshot }
  | .cpuUsage => return {
      command
      tools := ["sleep"]
      operationClass := .readOnly
      timeoutSeconds := 2
      maxOutputBytes := cpuUsageMaxOutputBytes
      kind := .cpuUsage }
  | .signal identity _ =>
    validPid identity.pid
    reject (identity.startTimeTicks = 0) (.invalidParameter "start_time_ticks")
    return {
      command
      tools := ["cat", "kill"]
      operationClass := .mutation
      preconditions := [.processIdentity identity] }

def crontab (operation : CrontabOperation) : Except PlanError Spec := do
  let command := operation.command digest
  let tools := ["crontab", "mktemp", "rm", "grep", "sha256sum", "cat"]
  match operation with
  | .read => return { command, tools, operationClass := .readOnly, kind := .crontabSnapshot }
  | .replace expectedSha256 content =>
    let expectedSha256 ← sha256 expectedSha256 "expected_sha256"
    reject (content.utf8ByteSize > maxCrontabBytes) (.parameterTooLarge "content" maxCrontabBytes)
    reject (0 ∈ bytes content) (.invalidParameter "content")
    return {
      command
      tools
      operationClass := .mutation
      timeoutSeconds := 20
      preconditions := [.crontabSha256 expectedSha256]
      stdin := some content
      stdinIsSensitive := true }

def nginx (operation : NginxOperation) : Spec :=
  let command := operation.command
  match operation with
  | .sites => { command, tools := ["find"], operationClass := .readOnly }
  | .configTest =>
    { command, tools := ["nginx"], operationClass := .readOnly, timeoutSeconds := 20 }
  | .reload => {
    command
    tools := ["nginx"]
    operationClass := .mutation
    timeoutSeconds := 30
    preconditions := [.nginxConfigTest] }

def custom (operation : CustomOperation) : Except PlanError Spec := do
  let .shell command timeoutSeconds maxOutputBytes := operation
  customShell command
  reject (¬(1 ≤ timeoutSeconds ∧ timeoutSeconds ≤ 120)) (.invalidParameter "timeout_seconds")
  reject (¬(1024 ≤ maxOutputBytes.toNat ∧ maxOutputBytes.toNat ≤ maxOutput))
    (.invalidParameter "max_output_bytes")
  return {
    command := operation.command
    tools := []
    operationClass := .mutation
    recognizesInternalMarkers := false
    commandIsSensitive := true
    timeoutSeconds := timeoutSeconds.toNat
    maxOutputBytes := maxOutputBytes.toNat }

def plan (operation : RemoteOperation) : Except PlanError OperationPlan :=
  (match operation with
    | .docker operation => docker operation
    | .systemd operation => systemd operation
    | .disk operation => disk operation
    | .network operation => network operation
    | .process operation => process operation
    | .crontab operation => crontab digest operation
    | .nginx operation => .ok (nginx operation)
    | .custom operation => custom operation) >>= finish

end

end NoriShell.Operations
