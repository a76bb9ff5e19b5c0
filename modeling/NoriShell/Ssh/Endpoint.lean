import NoriShell.Collections.Check
import NoriShell.Collections.Text
import NoriShell.Net.IpAddr

/-! The endpoints of `ssh-domain`. -/

namespace NoriShell.Ssh

open Collections Net

inductive EndpointError where
  | empty
  | invalid
  | invalidPort
  deriving DecidableEq

def labelInvalid (label : List Char) : Bool :=
  label.isEmpty || label.length > 63 ||
    !label.all (fun c => Text.isAsciiAlphanumeric c || c = '-') ||
    !label.head?.any Text.isAsciiAlphanumeric ||
    !label.getLast?.any Text.isAsciiAlphanumeric

def isIpv6 : IpAddr → Bool
  | .v4 _ => false
  | .v6 _ => true

def normalizeHostname (address : List Char) : Except EndpointError (List Char) := do
  let hostname := ((Text.stripSuffix '.' address).getD address).map Char.toLower
  reject (hostname = [] ∨ hostname.length > 253) .invalid
  let labels := hostname.splitOn '.'
  reject (labels.length = 4 ∧ labels.all (·.all Text.isAsciiDigit)) .invalid
  each labels fun label => reject (labelInvalid label) .invalid
  return hostname

def unbracket (input : List Char) : List Char × Bool :=
  match (Text.stripPrefix '[' input).bind (Text.stripSuffix ']') with
  | some address => (address, true)
  | none => (input, false)

def normalizeHostAddress (input : List Char) : Except EndpointError (List Char) := do
  let input := Text.trim input
  reject (input = []) .empty
  let (address, bracketed) := unbracket input
  match IpAddr.parse address with
  | some ip =>
    reject (bracketed ∧ !isIpv6 ip) .invalid
    return ip.print
  | none =>
    reject (bracketed ∨ !address.all Text.isAscii) .invalid
    normalizeHostname address

structure Endpoint where
  normalizedAddress : List Char
  port : UInt16
  deriving DecidableEq

namespace Endpoint

def parse (address : List Char) (port : UInt16) : Except EndpointError Endpoint := do
  reject (port = 0) .invalidPort
  return { normalizedAddress := ← normalizeHostAddress address, port }

def trustKey (endpoint : Endpoint) : List Char :=
  let port := decimal endpoint.port.toNat
  if (Ipv6Addr.parse endpoint.normalizedAddress).isSome then
    '[' :: (endpoint.normalizedAddress ++ ']' :: ':' :: port)
  else endpoint.normalizedAddress ++ ':' :: port

end Endpoint

end NoriShell.Ssh
