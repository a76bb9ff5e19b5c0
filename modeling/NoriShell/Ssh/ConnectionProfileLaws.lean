import NoriShell.Collections.Codes
import NoriShell.Ssh.ConnectionProfile
import NoriShell.Ssh.EndpointLaws

namespace NoriShell.Ssh

open Collections Net

section

theorem UuidId.length (id : UuidId) : id.asStr.length = 36 := by
  have canonical := id.canonical
  simp only [isCanonicalUuid, Bool.and_eq_true, decide_eq_true_eq] at canonical
  exact canonical.1

theorem UuidId.asStr_injective : Function.Injective UuidId.asStr := by
  rintro ⟨a, _⟩ ⟨b, _⟩ same
  cases same
  rfl

theorem UuidId.mem_asStr {id : UuidId} {c : Char} (mem : c ∈ id.asStr) :
    c = '-' ∨ isLowerHex c := by
  have canonical := id.canonical
  simp only [isCanonicalUuid, Bool.and_eq_true, List.all_eq_true] at canonical
  obtain ⟨index, bound, rfl⟩ := List.getElem_of_mem mem
  have here := canonical.2 (id.asStr[index], index) (List.mk_mem_zipIdx_iff_getElem?.2 (by simp))
  split at here
  · exact .inl (by simpa using here)
  · exact .inr here

theorem UuidId.head_ne (id : UuidId) {c : Char} (h : c ≠ '-' ∧ isLowerHex c = false)
    (r s : List Char) : c :: r ≠ id.asStr ++ s := by
  intro same
  obtain ⟨first, rest, shape⟩ := List.exists_cons_of_length_pos (l := id.asStr) (by simp [id.length])
  rw [shape, List.cons_append] at same
  rcases id.mem_asStr (c := first) (by simp [shape]) with minus | hex
  · exact h.1 ((List.cons.inj same).1.trans minus)
  · rw [← (List.cons.inj same).1, h.2] at hex
    cases hex

theorem legible_id (next : List Char → Prop) : Legible UuidId.asStr next :=
  .fixed UuidId.asStr_injective fun a b => a.length.trans b.length.symm

def NoDigit (rest : List Char) : Prop := ∀ c ∈ rest.head?, (Reader.digit 10 c).isSome = false

theorem noDigit_colon (r : List Char) : NoDigit (':' :: r) := by
  simpa [NoDigit] using by decide

theorem legible_decimal : Legible decimal NoDigit :=
  .spanned decimal_injective (fun c => (Reader.digit 10 c).isSome) fun _ _ => mem_decimal

theorem legible_wireText : Legible wireText NoDigit :=
  legible_decimal.comp fun _ _ => UInt64.toNat_inj.1

theorem legible_component (next : List Char → Prop) : Legible revisionTokenComponent next :=
  legible_decimal.sized Char.utf8Size Char.utf8Size_pos ':' noDigit_colon

theorem legible_credential :
    Legible (fun c : CredentialRefId × WireSequence => c.1.asStr ++ ':' :: wireText c.2) NoDigit :=
  (legible_id fun _ => True).separated legible_wireText ':' fun _ => trivial

structure EndsCredentials (next : List Char → Prop) : Prop where
  noDigit : ∀ r, next r → NoDigit r
  noComma : ∀ r, next r → r.head? ≠ some ','
  noId : ∀ (id : UuidId) r, ¬next (id.asStr ++ r)

variable {next : List Char → Prop}

theorem legible_credentials (ends : EndsCredentials next) :
    Legible (fun credentials : List (CredentialRefId × WireSequence) =>
      [','].intercalate (credentials.map fun c => c.1.asStr ++ ':' :: wireText c.2)) next := by
  apply legible_credential.list ','
  · exact fun r => by simpa [NoDigit] using by decide
  · exact fun r h => ⟨ends.noDigit r h, ends.noComma r h⟩
  · intro c r
    rw [List.append_assoc]
    exact ends.noId c.1 _

theorem endsCredentials_head (marks : List Char)
    (head : ∀ r, next r → ∃ c ∈ marks, r.head? = some c)
    (other : ∀ c ∈ marks, (Reader.digit 10 c).isSome = false ∧ c ≠ ',' ∧ c ≠ '-' ∧
      isLowerHex c = false) : EndsCredentials next where
  noDigit r h := by
    obtain ⟨c, mem, first⟩ := head r h
    simpa [NoDigit, first] using (other c mem).1
  noComma r h := by
    obtain ⟨c, mem, first⟩ := head r h
    simpa [first] using (other c mem).2.1
  noId id r h := by
    obtain ⟨c, mem, first⟩ := head _ h
    obtain ⟨rest, shape⟩ := List.head?_eq_some_iff.1 first
    exact id.head_ne (other c mem).2.2 rest r shape.symm

theorem endsCredentials_nil : EndsCredentials (· = []) where
  noDigit r h := by simp [NoDigit, h]
  noComma r h := by simp [h]
  noId id r h := by
    have length := congrArg List.length h
    simp [id.length] at length

abbrev JumpParts := HostId × WireSequence × List Char × WireSequence × WireSequence ×
  WireSequence × List (CredentialRefId × WireSequence)

def credentialsText (credentials : List (CredentialRefId × WireSequence)) : List Char :=
  [','].intercalate (credentials.map fun c => c.1.asStr ++ ':' :: wireText c.2)

def jumpText (x : JumpParts) : List Char :=
  "jump-v2:".toList ++ (x.1.asStr ++ ':' :: (wireText x.2.1 ++ ':' ::
    (revisionTokenComponent x.2.2.1 ++ ':' :: (wireText x.2.2.2.1 ++ ':' ::
      (wireText x.2.2.2.2.1 ++ ':' :: (wireText x.2.2.2.2.2.1 ++ ':' ::
        credentialsText x.2.2.2.2.2.2))))))

theorem legible_jump (ends : EndsCredentials next) : Legible jumpText next := by
  have route := legible_wireText.separated (legible_credentials ends) ':' noDigit_colon
  have algorithm := legible_wireText.separated route ':' noDigit_colon
  have authentication := legible_wireText.separated algorithm ':' noDigit_colon
  have username := (legible_component fun _ => True).separated authentication ':' fun _ => trivial
  have version := legible_wireText.separated username ':' noDigit_colon
  exact ((legible_id fun _ => True).separated version ':' fun _ => trivial).behind _

abbrev ProxyParts := CredentialRefId × WireSequence × List Char

def proxyText (proxy : Option ProxyParts) : List Char :=
  proxy.elim "none".toList fun x =>
    x.1.asStr ++ ':' :: (wireText x.2.1 ++ ':' :: revisionTokenComponent x.2.2)

theorem legible_proxy (next : List Char → Prop) : Legible proxyText next := by
  have version := legible_wireText.separated (legible_component next) ':' noDigit_colon
  apply ((legible_id fun _ => True).separated version ':' fun _ => trivial).option
  intro x r s same
  rw [List.append_assoc] at same
  exact x.1.head_ne (by decide) _ _ same

abbrev BaseParts := HostId × WireSequence × List Char × WireSequence × WireSequence ×
  WireSequence × Option ProxyParts × List JumpParts × List (CredentialRefId × WireSequence)

def baseText (x : BaseParts) : List Char :=
  "base-v2:".toList ++ (x.1.asStr ++ ':' :: (wireText x.2.1 ++ ':' ::
    (revisionTokenComponent x.2.2.1 ++ ':' :: (wireText x.2.2.2.1 ++ ':' ::
      (wireText x.2.2.2.2.1 ++ ':' :: (wireText x.2.2.2.2.2.1 ++ ':' ::
        (proxyText x.2.2.2.2.2.2.1 ++ ':' :: ([';'].intercalate (x.2.2.2.2.2.2.2.1.map jumpText) ++
          ':' :: credentialsText x.2.2.2.2.2.2.2.2))))))))

/-- What may follow a jump host: another one, or the end of their list. -/
def EndsJump (r : List Char) : Prop := r.head? = some ';' ∨ r.head? = some ':'

theorem endsCredentials_jump : EndsCredentials EndsJump := by
  refine endsCredentials_head [';', ':'] (fun r h => ?_) fun c mem => ?_
  · rcases h with h | h
    · exact ⟨';', by simp, h⟩
    · exact ⟨':', by simp, h⟩
  · rcases List.mem_pair.1 mem with rfl | rfl
    · decide
    · decide

theorem legible_jumps :
    Legible (fun jumps : List JumpParts => [';'].intercalate (jumps.map jumpText))
      (fun r => r.head? = some ':') := by
  apply (legible_jump endsCredentials_jump).list ';'
  · exact fun r => .inl rfl
  · exact fun r h => ⟨.inr h, by simp [h]⟩
  · intro x r h
    cases h

theorem legible_base : Legible baseText (· = []) := by
  have jumps := legible_jumps.separated (legible_credentials endsCredentials_nil) ':' fun _ => rfl
  have proxy := (legible_proxy fun _ => True).separated jumps ':' fun _ => trivial
  have algorithm := legible_wireText.separated proxy ':' noDigit_colon
  have authentication := legible_wireText.separated algorithm ':' noDigit_colon
  have route := legible_wireText.separated authentication ':' noDigit_colon
  have username := (legible_component fun _ => True).separated route ':' fun _ => trivial
  have version := legible_wireText.separated username ':' noDigit_colon
  exact ((legible_id fun _ => True).separated version ':' fun _ => trivial).behind _

theorem baseText_injective : Function.Injective baseText := fun x y same =>
  (legible_base x y [] [] rfl rfl (by rw [same])).1

end

def ConnectionCredential.identity : ConnectionCredential → CredentialRefId × Option WireSequence
  | .stored record => (record.credentialRefId, some record.stateVersion)
  | .transient credentialRefId => (credentialRefId, none)

structure JumpFence where
  hostId : HostId
  stateVersion : WireSequence
  username : List Char
  authenticationRevision : WireSequence
  algorithmRevision : WireSequence
  routeRevision : WireSequence
  credentials : List (CredentialRefId × Option WireSequence)

structure Fence where
  hostId : HostId
  stateVersion : WireSequence
  username : List Char
  routeRevision : WireSequence
  authenticationRevision : WireSequence
  algorithmRevision : WireSequence
  proxy : Option (CredentialRefId × WireSequence × List Char)
  jumpHosts : List (Option JumpFence)
  credentials : List (CredentialRefId × Option WireSequence)

section

variable {Exception Transport : Type} (hosts : HostService Exception Transport)

def jumpFence (hostId : HostId) (jump : ResolvedJumpHost Transport) : Option JumpFence :=
  (hosts.getConnectionSnapshot hostId).toOption.map fun snapshot => {
    hostId := jump.hostId
    stateVersion := snapshot.host.stateVersion
    username := jump.username
    authenticationRevision := snapshot.config.authenticationRevision
    algorithmRevision := snapshot.config.algorithmPolicy.revision
    routeRevision := snapshot.config.routePlan.revision
    credentials := jump.credentials.map ConnectionCredential.identity }

def fence (snapshot : HostConnectionSnapshot Exception)
    (connection : ResolvedSshConnectionBase Transport) : Fence where
  hostId := snapshot.host.hostId
  stateVersion := snapshot.host.stateVersion
  username := connection.username
  routeRevision := snapshot.config.routePlan.revision
  authenticationRevision := snapshot.config.authenticationRevision
  algorithmRevision := snapshot.config.algorithmPolicy.revision
  proxy := connection.ingress.authentication.map fun authentication =>
    (authentication.credential.credentialRefId, authentication.credential.stateVersion,
      authentication.username)
  jumpHosts := List.zipWith (jumpFence hosts) snapshot.config.routePlan.jumpHostIds
    connection.jumpHosts
  credentials := connection.credentials.map ConnectionCredential.identity

/-- A version of zero is that of a transient credential. -/
def identityOf (part : CredentialRefId × WireSequence) : CredentialRefId × Option WireSequence :=
  (part.1, if part.2 = 0 then none else some part.2)

def JumpFence.ofParts (x : JumpParts) : JumpFence :=
  ⟨x.1, x.2.1, x.2.2.1, x.2.2.2.1, x.2.2.2.2.1, x.2.2.2.2.2.1, x.2.2.2.2.2.2.map identityOf⟩

def Fence.ofParts (x : BaseParts) : Fence :=
  ⟨x.1, x.2.1, x.2.2.1, x.2.2.2.1, x.2.2.2.2.1, x.2.2.2.2.2.1, x.2.2.2.2.2.2.1,
    x.2.2.2.2.2.2.2.1.map fun jump => some (.ofParts jump), x.2.2.2.2.2.2.2.2.map identityOf⟩

/-- The proxy credential that a token names. -/
def proxyParts (ingress : ResolvedRouteIngress) : Option ProxyParts :=
  ingress.authentication.map fun authentication =>
    (authentication.credential.credentialRefId, authentication.credential.stateVersion,
      authentication.username)

def ConnectionCredential.part (credential : ConnectionCredential) :
    CredentialRefId × WireSequence :=
  (credential.credentialRefId, credentialStateVersion credential)

theorem identityOf_part (credential : ConnectionCredential) :
    identityOf credential.part = credential.identity := by
  cases credential with
  | stored record =>
    have positive : record.stateVersion ≠ 0 := by
      intro zero
      have positive := record.positive
      simp [zero] at positive
    simp [identityOf, ConnectionCredential.part, ConnectionCredential.identity,
      ConnectionCredential.credentialRefId, credentialStateVersion, positive]
  | transient credentialRefId => rfl

theorem identities_of_parts (credentials : List ConnectionCredential) :
    (credentials.map ConnectionCredential.part).map identityOf =
      credentials.map ConnectionCredential.identity := by
  simp [identityOf_part]

theorem connectionCredentialsToken_eq (credentials : List ConnectionCredential) :
    connectionCredentialsToken credentials =
      credentialsText (credentials.map ConnectionCredential.part) := by
  rw [connectionCredentialsToken, credentialsText, List.map_map]
  rfl

theorem ingressCredentialToken_eq (ingress : ResolvedRouteIngress) :
    ingressCredentialToken ingress = proxyText (proxyParts ingress) := by
  unfold ingressCredentialToken proxyParts
  cases ingress.authentication with
  | none => rfl
  | some authentication => rfl

theorem jumpRevisionToken_eq (snapshot : HostConnectionSnapshot Exception) (username : List Char)
    (credentials : List ConnectionCredential) :
    jumpRevisionToken snapshot username credentials =
      jumpText (snapshot.host.hostId, snapshot.host.stateVersion, username,
        snapshot.config.authenticationRevision, snapshot.config.algorithmPolicy.revision,
        snapshot.config.routePlan.revision, credentials.map ConnectionCredential.part) := by
  unfold jumpRevisionToken jumpText
  rw [connectionCredentialsToken_eq]

theorem baseRevisionToken_eq (snapshot : HostConnectionSnapshot Exception) (username : List Char)
    (ingress : ResolvedRouteIngress) (jumps : List JumpParts)
    (credentials : List ConnectionCredential) :
    baseRevisionToken snapshot username (ingressCredentialToken ingress) (jumps.map jumpText)
        credentials =
      baseText (snapshot.host.hostId, snapshot.host.stateVersion, username,
        snapshot.config.routePlan.revision, snapshot.config.authenticationRevision,
        snapshot.config.algorithmPolicy.revision, proxyParts ingress, jumps,
        credentials.map ConnectionCredential.part) := by
  unfold baseRevisionToken baseText
  rw [connectionCredentialsToken_eq, ingressCredentialToken_eq]

variable {hosts}

theorem resolveJumpHost_token {hostId : HostId} {jump : ResolvedJumpHost Transport}
    (resolved : resolveJumpHost hosts hostId = .ok jump) :
    ∃ x : JumpParts, jump.revisionToken = jumpText x ∧
      jumpFence hosts hostId jump = some (.ofParts x) := by
  simp only [resolveJumpHost, Check.bind_eq_ok] at resolved
  obtain ⟨snapshot, found, _, -, username, -, credentials, -, policy, -, made⟩ := resolved
  obtain rfl := Except.ok.inj made
  have here : hosts.getConnectionSnapshot hostId = .ok snapshot := by
    cases answer : hosts.getConnectionSnapshot hostId with
    | error e => simp [answer, Except.mapError] at found
    | ok other => simpa [answer, Except.mapError] using found
  refine ⟨(snapshot.host.hostId, snapshot.host.stateVersion, username,
    snapshot.config.authenticationRevision, snapshot.config.algorithmPolicy.revision,
    snapshot.config.routePlan.revision, credentials.map ConnectionCredential.part), ?_, ?_⟩
  · exact jumpRevisionToken_eq snapshot username credentials
  · rw [jumpFence, here, JumpFence.ofParts, identities_of_parts]
    rfl

theorem resolveJumpHosts_tokens {hostIds : List HostId} {jumps : List (ResolvedJumpHost Transport)}
    (resolved : hostIds.mapM (resolveJumpHost hosts) = .ok jumps) :
    ∃ xs : List JumpParts, jumps.map ResolvedJumpHost.revisionToken = xs.map jumpText ∧
      List.zipWith (jumpFence hosts) hostIds jumps = xs.map fun x => some (.ofParts x) := by
  induction hostIds generalizing jumps with
  | nil =>
    cases resolved
    exact ⟨[], rfl, rfl⟩
  | cons hostId hostIds ih =>
    simp only [List.mapM_cons, Check.bind_eq_ok] at resolved
    obtain ⟨jump, first, others, rest, made⟩ := resolved
    cases made
    obtain ⟨x, token, one⟩ := resolveJumpHost_token first
    obtain ⟨xs, tokens, more⟩ := ih rest
    exact ⟨x :: xs, by simp [token, tokens], by simp [one, more]⟩

theorem resolveSavedHostBase_token {snapshot : HostConnectionSnapshot Exception}
    {credentials : List ConnectionCredential} {connection : ResolvedSshConnectionBase Transport}
    (resolved : resolveSavedHostBase hosts snapshot credentials = .ok connection) :
    ∃ x : BaseParts, connection.revisionToken = baseText x ∧
      fence hosts snapshot connection = .ofParts x := by
  simp only [resolveSavedHostBase, Check.bind_eq_ok] at resolved
  obtain ⟨username, -, policy, -, ingress, -, _, -, jumps, jumped, made⟩ := resolved
  obtain rfl := Except.ok.inj made
  obtain ⟨xs, tokens, fences⟩ := resolveJumpHosts_tokens jumped
  refine ⟨(snapshot.host.hostId, snapshot.host.stateVersion, username,
    snapshot.config.routePlan.revision, snapshot.config.authenticationRevision,
    snapshot.config.algorithmPolicy.revision, proxyParts ingress, xs,
    credentials.map ConnectionCredential.part), ?_, ?_⟩
  · refine Eq.trans ?_ (baseRevisionToken_eq snapshot username ingress xs credentials)
    rw [← tokens]
  · rw [fence, fences, Fence.ofParts, identities_of_parts]
    rfl

/-- Equal tokens are tokens of the same connection. -/
theorem revision_token_determines_fence {hosts' : HostService Exception Transport}
    {snapshot snapshot' : HostConnectionSnapshot Exception}
    {credentials credentials' : List ConnectionCredential}
    {connection connection' : ResolvedSshConnectionBase Transport}
    (resolved : resolveSavedHostBase hosts snapshot credentials = .ok connection)
    (resolved' : resolveSavedHostBase hosts' snapshot' credentials' = .ok connection')
    (same : connection.revisionToken = connection'.revisionToken) :
    fence hosts snapshot connection = fence hosts' snapshot' connection' := by
  obtain ⟨x, token, fenced⟩ := resolveSavedHostBase_token resolved
  obtain ⟨x', token', fenced'⟩ := resolveSavedHostBase_token resolved'
  have parts : x = x' := baseText_injective (token.symm.trans (same.trans token'))
  rw [fenced, fenced', parts]

def movedHost (address : List Char) : HostConnectionSnapshot Unit where
  host := ⟨⟨"00000000-0000-0000-0000-000000000001".toList, by decide⟩, address, 22, some ['a'], 1⟩
  identity := none
  config := ⟨⟨1, .directTcp, []⟩, 1, [], 1, []⟩
  credentials := []

def emptyHosts : HostService Unit Unit where
  getConnectionSnapshot _ := .error .notFound
  getReadyCredential _ := .error .notFound
  getIdentitySummary _ := .error .notFound
  resolveTransport _ _ := some ()

theorem revision_token_determines_fence_of_moved_host :
    ∃ connection connection', resolveSavedHostBase emptyHosts (movedHost ['x']) [] = .ok connection ∧
      resolveSavedHostBase emptyHosts (movedHost ['y']) [] = .ok connection' ∧
      fence emptyHosts (movedHost ['x']) connection =
        fence emptyHosts (movedHost ['y']) connection' :=
  ⟨_, _, rfl, rfl, @revision_token_determines_fence _ _ emptyHosts _ _ _ _ _ _ _ rfl rfl rfl⟩

end

end NoriShell.Ssh
