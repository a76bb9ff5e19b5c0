import NoriShell.Collections.Check
import NoriShell.Collections.Text
import NoriShell.Net.IpAddr

/-! The connection of a saved host, with the token that fences approvals of it. -/

namespace NoriShell.Ssh

open Collections Net

def isLowerHex (c : Char) : Bool :=
  Text.isAsciiDigit c || 'a' ≤ c && c ≤ 'f'

/-- As a UUID is printed: five groups of hexadecimal digits. -/
def isCanonicalUuid (text : List Char) : Bool :=
  text.length = 36 && text.zipIdx.all fun (c, index) =>
    if index ∈ [8, 13, 18, 23] then c = '-' else isLowerHex c

structure UuidId where
  asStr : List Char
  canonical : isCanonicalUuid asStr

abbrev HostId := UuidId

abbrev CredentialRefId := UuidId

abbrev IdentityId := UuidId

abbrev WireSequence := UInt64

inductive CredentialRecordDetails
  | password
  | privateKey
  | keyboardInteractive
  | sshAgent
  deriving DecidableEq

/-- The database keeps the versions of credentials positive. -/
structure CredentialRecord where
  credentialRefId : CredentialRefId
  identityId : IdentityId
  details : CredentialRecordDetails
  stateVersion : WireSequence
  positive : 1 ≤ stateVersion.toNat

inductive ConnectionCredential
  | stored (record : CredentialRecord)
  | transient (credentialRefId : CredentialRefId)

def ConnectionCredential.credentialRefId : ConnectionCredential → CredentialRefId
  | .stored record => record.credentialRefId
  | .transient credentialRefId => credentialRefId

def credentialStateVersion : ConnectionCredential → WireSequence
  | .stored record => record.stateVersion
  | .transient _ => 0

structure ProxyEndpoint where
  address : List Char
  port : UInt16

inductive ProxyDnsMode
  | local
  | proxy

inductive RouteIngress
  | directTcp
  | httpConnectProxy (endpoint : ProxyEndpoint) (proxyAuthCredentialRefId : Option CredentialRefId)
  | socks5Proxy (endpoint : ProxyEndpoint) (dnsMode : ProxyDnsMode)
    (proxyAuthCredentialRefId : Option CredentialRefId)

structure RoutePlan where
  revision : WireSequence
  ingress : RouteIngress
  jumpHostIds : List HostId

structure AlgorithmPolicySummary (Exception : Type) where
  policyId : List Char
  revision : WireSequence
  compatibilityExceptions : List Exception

structure HostConnectionConfig (Exception : Type) where
  routePlan : RoutePlan
  authenticationRevision : WireSequence
  algorithmPolicy : AlgorithmPolicySummary Exception

structure HostSummary where
  hostId : HostId
  address : List Char
  port : UInt16
  username : Option (List Char)
  stateVersion : WireSequence

structure IdentitySummary where
  username : Option (List Char)

structure HostConnectionSnapshot (Exception : Type) where
  host : HostSummary
  identity : Option IdentitySummary
  config : HostConnectionConfig Exception
  credentials : List CredentialRecord

inductive AppPersistenceError
  | notFound
  | conflict
  | invalidInput
  | endpoint
  | unavailable

inductive ConnectionProfileError
  | invalidTarget
  | staleHost
  | credentialUnavailable
  | loginAutomationConfirmationRequired
  | unsupportedConfiguration
  | persistenceUnavailable
  deriving DecidableEq

def mapPersistenceError : AppPersistenceError → ConnectionProfileError
  | .notFound | .conflict => .staleHost
  | .invalidInput | .endpoint => .invalidTarget
  | .unavailable => .persistenceUnavailable

/-- What the resolver asks the database and the algorithm catalog. -/
structure HostService (Exception Transport : Type) where
  getConnectionSnapshot : HostId → Except AppPersistenceError (HostConnectionSnapshot Exception)
  getReadyCredential : CredentialRefId → Except AppPersistenceError CredentialRecord
  getIdentitySummary : IdentityId → Except AppPersistenceError IdentitySummary
  resolveTransport : List Char → List Exception → Option Transport

structure SshSessionEndpoint where
  address : List Char
  port : UInt16
  username : Option (List Char)

structure ResolvedProxyAuthentication where
  username : List Char
  credential : CredentialRecord

inductive ResolvedRouteIngress
  | directTcp
  | httpConnectProxy (endpoint : ProxyEndpoint)
    (authentication : Option ResolvedProxyAuthentication)
  | socks5Proxy (endpoint : ProxyEndpoint) (dnsMode : ProxyDnsMode)
    (authentication : Option ResolvedProxyAuthentication)

structure ResolvedAlgorithmPolicy (Transport : Type) where
  transport : Transport
  policyId : List Char
  policyRevision : Option WireSequence

structure ResolvedJumpHost (Transport : Type) where
  hostId : HostId
  endpoint : SshSessionEndpoint
  username : List Char
  credentials : List ConnectionCredential
  algorithmPolicy : ResolvedAlgorithmPolicy Transport
  revisionToken : List Char

structure ResolvedSshConnectionBase (Transport : Type) where
  endpoint : SshSessionEndpoint
  username : List Char
  ingress : ResolvedRouteIngress
  jumpHosts : List (ResolvedJumpHost Transport)
  credentials : List ConnectionCredential
  algorithmPolicy : ResolvedAlgorithmPolicy Transport
  revisionToken : List Char

section

def utf8Bytes (text : List Char) : Nat := (text.map Char.utf8Size).sum

def wireText (version : WireSequence) : List Char := decimal version.toNat

def revisionTokenComponent (value : List Char) : List Char :=
  decimal (utf8Bytes value) ++ ':' :: value

def connectionCredentialsToken (credentials : List ConnectionCredential) : List Char :=
  [','].intercalate (credentials.map fun credential =>
    credential.credentialRefId.asStr ++ ':' :: wireText (credentialStateVersion credential))

def ResolvedRouteIngress.authentication : ResolvedRouteIngress → Option ResolvedProxyAuthentication
  | .directTcp => none
  | .httpConnectProxy _ authentication | .socks5Proxy _ _ authentication => authentication

def ingressCredentialToken (ingress : ResolvedRouteIngress) : List Char :=
  match ingress.authentication with
  | none => "none".toList
  | some authentication =>
    authentication.credential.credentialRefId.asStr ++ ':' ::
      (wireText authentication.credential.stateVersion ++ ':' ::
        revisionTokenComponent authentication.username)

variable {Exception : Type}

def jumpRevisionToken (snapshot : HostConnectionSnapshot Exception) (username : List Char)
    (credentials : List ConnectionCredential) : List Char :=
  "jump-v2:".toList ++ (snapshot.host.hostId.asStr ++ ':' ::
    (wireText snapshot.host.stateVersion ++ ':' :: (revisionTokenComponent username ++ ':' ::
      (wireText snapshot.config.authenticationRevision ++ ':' ::
        (wireText snapshot.config.algorithmPolicy.revision ++ ':' ::
          (wireText snapshot.config.routePlan.revision ++ ':' ::
            connectionCredentialsToken credentials))))))

def baseRevisionToken (snapshot : HostConnectionSnapshot Exception) (username : List Char)
    (ingressToken : List Char) (jumpTokens : List (List Char))
    (credentials : List ConnectionCredential) : List Char :=
  "base-v2:".toList ++ (snapshot.host.hostId.asStr ++ ':' ::
    (wireText snapshot.host.stateVersion ++ ':' :: (revisionTokenComponent username ++ ':' ::
      (wireText snapshot.config.routePlan.revision ++ ':' ::
        (wireText snapshot.config.authenticationRevision ++ ':' ::
          (wireText snapshot.config.algorithmPolicy.revision ++ ':' :: (ingressToken ++ ':' ::
            ([';'].intercalate jumpTokens ++ ':' :: connectionCredentialsToken credentials))))))))

end

def requiredUsername (value : Option (List Char)) : Except ConnectionProfileError (List Char) :=
  match (value.map Text.trim).filter (· ≠ []) with
  | some username => .ok username
  | none => .error .invalidTarget

def selectStoredCredentials (credentials : List CredentialRecord) :
    Except ConnectionProfileError (List ConnectionCredential) :=
  if credentials = [] then .error .credentialUnavailable else .ok (credentials.map .stored)

section

variable {Exception Transport : Type} (hosts : HostService Exception Transport)

def resolveProxyAuthentication :
    Option CredentialRefId → Except ConnectionProfileError (Option ResolvedProxyAuthentication)
  | none => .ok none
  | some credentialRefId => do
    let credential ← (hosts.getReadyCredential credentialRefId).mapError mapPersistenceError
    reject (credential.details ≠ .password) .credentialUnavailable
    let identity ← (hosts.getIdentitySummary credential.identityId).mapError mapPersistenceError
    let username ← requiredUsername identity.username
    return some ⟨username, credential⟩

def resolveRouteIngress : RouteIngress → Except ConnectionProfileError ResolvedRouteIngress
  | .directTcp => .ok .directTcp
  | .httpConnectProxy endpoint credentialRefId => do
    return .httpConnectProxy endpoint (← resolveProxyAuthentication hosts credentialRefId)
  | .socks5Proxy endpoint dnsMode credentialRefId => do
    return .socks5Proxy endpoint dnsMode (← resolveProxyAuthentication hosts credentialRefId)

def resolveAlgorithmPolicy (summary : AlgorithmPolicySummary Exception) :
    Except ConnectionProfileError (ResolvedAlgorithmPolicy Transport) :=
  match hosts.resolveTransport summary.policyId summary.compatibilityExceptions with
  | some transport => .ok ⟨transport, summary.policyId, some summary.revision⟩
  | none => .error .unsupportedConfiguration

def validateJumpHostIds (targetHostId : HostId) (jumpHostIds : List HostId) :
    Except ConnectionProfileError Unit :=
  reject (5 < jumpHostIds.length ∨ ¬(jumpHostIds.map UuidId.asStr).Nodup ∨
    (jumpHostIds.map UuidId.asStr).contains targetHostId.asStr) .unsupportedConfiguration

def snapshotUsername (snapshot : HostConnectionSnapshot Exception) : Option (List Char) :=
  snapshot.host.username <|> snapshot.identity.bind IdentitySummary.username

def RouteIngress.isDirect : RouteIngress → Bool
  | .directTcp => true
  | _ => false

def resolveJumpHost (hostId : HostId) :
    Except ConnectionProfileError (ResolvedJumpHost Transport) := do
  let snapshot ← (hosts.getConnectionSnapshot hostId).mapError mapPersistenceError
  reject (!snapshot.config.routePlan.ingress.isDirect ∨
    !snapshot.config.routePlan.jumpHostIds.isEmpty) .unsupportedConfiguration
  let username ← requiredUsername (snapshotUsername snapshot)
  let credentials ← selectStoredCredentials snapshot.credentials
  let algorithmPolicy ← resolveAlgorithmPolicy hosts snapshot.config.algorithmPolicy
  return {
    hostId := snapshot.host.hostId
    endpoint := ⟨snapshot.host.address, snapshot.host.port, some username⟩
    username, credentials, algorithmPolicy
    revisionToken := jumpRevisionToken snapshot username credentials }

def resolveSavedHostBase (snapshot : HostConnectionSnapshot Exception)
    (credentials : List ConnectionCredential) :
    Except ConnectionProfileError (ResolvedSshConnectionBase Transport) := do
  let username ← requiredUsername (snapshotUsername snapshot)
  let algorithmPolicy ← resolveAlgorithmPolicy hosts snapshot.config.algorithmPolicy
  let ingress ← resolveRouteIngress hosts snapshot.config.routePlan.ingress
  validateJumpHostIds snapshot.host.hostId snapshot.config.routePlan.jumpHostIds
  let jumpHosts ← snapshot.config.routePlan.jumpHostIds.mapM (resolveJumpHost hosts)
  return {
    endpoint := ⟨snapshot.host.address, snapshot.host.port, some username⟩
    username, ingress, jumpHosts, credentials, algorithmPolicy
    revisionToken := baseRevisionToken snapshot username (ingressCredentialToken ingress)
      (jumpHosts.map ResolvedJumpHost.revisionToken) credentials }

end

end NoriShell.Ssh
