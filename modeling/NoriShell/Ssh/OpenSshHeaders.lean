import NoriShell.Ssh.OpenSshLines
import NoriShell.Ssh.OpenSshSafety

/-! `Host` and `Match` lines that cannot be read, and the hosts that they keep from being
imported. -/

namespace NoriShell.Ssh.OpenSsh

open Collections

variable {before after : List (List Char)} {broken : List Char} {document : Document}
  {candidate : HostCandidate}

variable {message : String}

end NoriShell.Ssh.OpenSsh
