import Mathlib
import NoriShell.Collections.Check

/-! The remote paths of `sftp_session_service`, and the paths that a running transfer keeps to
itself while mutations share its channel. -/

namespace NoriShell.Sftp

open Collections

inductive SftpRuntimeError where
  | invalidInput
  | staleGeneration
  | invalidState
  | conflict
  | unsafeReplaceUnsupported
  | progressRegression
  | lengthMismatch
  | cleanupIncomplete
  | resumeEvidenceMismatch
  | unsupportedPathEncoding
  deriving DecidableEq

def maxRemotePathBytes : Nat := 4096

def slash : UInt8 := 47
def dot : UInt8 := 46

structure IsRemotePath (bytes : List UInt8) : Prop where
  absolute : bytes.head? = some slash
  short : bytes.length ≤ maxRemotePathBytes
  noNul : 0 ∉ bytes

instance (bytes : List UInt8) : Decidable (IsRemotePath bytes) :=
  decidable_of_iff (bytes.head? = some slash ∧ bytes.length ≤ maxRemotePathBytes ∧ 0 ∉ bytes)
    ⟨fun ⟨absolute, short, noNul⟩ => ⟨absolute, short, noNul⟩,
      fun ⟨absolute, short, noNul⟩ => ⟨absolute, short, noNul⟩⟩

structure RemotePath where
  bytes : List UInt8
  isRemotePath : IsRemotePath bytes
  deriving DecidableEq

def RemotePath.parse (bytes : List UInt8) : Except SftpRuntimeError RemotePath :=
  if h : IsRemotePath bytes then .ok ⟨bytes, h⟩ else .error .invalidInput

/-- The paths of a mutation; what else it carries plays no part here. -/
inductive FileMutationPlan where
  | createDirectory (path : RemotePath)
  | createEmptyFile (path : RemotePath)
  | writeText (path : RemotePath)
  | renameNoReplace (source target : RemotePath)
  | deleteConfirmed (path : RemotePath)
  | setPermissions (path : RemotePath)
  | createZip (sources : List RemotePath) (target : RemotePath)
  | extractZip (source targetDirectory : RemotePath)
  | downloadUrl (target : RemotePath)

def FileMutationPlan.touchedPaths : FileMutationPlan → List RemotePath
  | .createDirectory path | .createEmptyFile path | .writeText path | .deleteConfirmed path
  | .setPermissions path => [path]
  | .renameNoReplace source target => [source, target]
  | .createZip sources target => sources ++ [target]
  | .extractZip source targetDirectory => [source, targetDirectory]
  | .downloadUrl target => [target]

def utf8 (text : String) : List UInt8 := text.toByteArray.data.toList

def isUtf8 (bytes : List UInt8) : Bool := (String.fromUTF8? ⟨bytes.toArray⟩).isSome

def fileName (bytes : List UInt8) : List UInt8 := (bytes.reverse.takeWhile (· ≠ slash)).reverse

def beforeName (bytes : List UInt8) : List UInt8 :=
  bytes.take (bytes.length - (fileName bytes).length - 1)

/-- The hidden sibling that a transfer writes before it commits. -/
def remoteTemporaryTarget (target : RemotePath) (transferId : String) :
    Except SftpRuntimeError RemotePath := do
  reject (!isUtf8 target.bytes) .unsupportedPathEncoding
  let name := fileName target.bytes
  reject (name = []) .invalidInput
  let parent := if beforeName target.bytes = [] then [slash] else beforeName target.bytes
  let separator := if parent = [slash] then [] else [slash]
  RemotePath.parse (parent ++ separator ++ dot :: name ++ utf8 ".norishell-" ++ utf8 transferId ++
    utf8 ".part")

/-- Every remote endpoint of a transfer with the temporary target beside it. -/
def transferBusyPaths (transferId : String) (paths : List RemotePath) : List RemotePath :=
  paths.flatMap fun path => path ::
    match remoteTemporaryTarget path transferId with
    | .ok temporary => [temporary]
    | .error _ => []

/-- At most one trailing slash is ignored, and never the root itself. -/
def withoutTrailingSlash (bytes : List UInt8) : List UInt8 :=
  if 1 < bytes.length ∧ bytes.getLast? = some slash then bytes.dropLast else bytes

def containsPath (ancestor path : List UInt8) : Bool :=
  let ancestor := withoutTrailingSlash ancestor
  path = ancestor ∨ (ancestor <+: path ∧ (ancestor = [slash] ∨ path[ancestor.length]? = some slash))

def remotePathsOverlap (left right : List UInt8) : Bool :=
  containsPath left right || containsPath right left

def mutationTouchesBusyPaths (plan : FileMutationPlan) (busyPaths : List RemotePath) : Bool :=
  plan.touchedPaths.any fun touched =>
    busyPaths.any fun busy => remotePathsOverlap touched.bytes busy.bytes

/-- The channel of a session: its own, one lent to the transfer that owns the given paths, or
none. -/
inductive SessionChannel where
  | live
  | lent (busyPaths : List RemotePath)
  | missing

def admitMutation (plan : FileMutationPlan) : SessionChannel → Except SftpRuntimeError Unit
  | .live => .ok ()
  | .lent busyPaths => reject (mutationTouchesBusyPaths plan busyPaths) .conflict
  | .missing => .error .invalidState

def sharedChannelForWrite (written : List RemotePath) :
    SessionChannel → Except SftpRuntimeError Unit
  | .live => .ok ()
  | .lent busyPaths =>
    reject (written.any fun path =>
      busyPaths.any fun busy => remotePathsOverlap path.bytes busy.bytes) .conflict
  | .missing => .error .invalidState

end NoriShell.Sftp
