import NoriShell.Net.IpAddrLaws
import NoriShell.Ssh.Endpoint

namespace NoriShell.Ssh

open Collections Collections.Check Net

/-- A host name that is already in lower case and without a final dot. -/
structure Hostname (name : List Char) : Prop where
  nonempty : name ≠ []
  size : name.length ≤ 253
  lower : name.map Char.toLower = name
  notIpv4 : ¬((name.splitOn '.').length = 4 ∧ (name.splitOn '.').all (·.all Text.isAsciiDigit))
  labels : ∀ label ∈ name.splitOn '.', labelInvalid label = false

def Normal (name : List Char) : Prop := (∃ ip : IpAddr, name = ip.print) ∨ Hostname name

section

variable {name : List Char} {c : Char}

def IsPlain (c : Char) : Prop := Text.isAsciiAlphanumeric c = true ∨ c = '-' ∨ c = '.' ∨ c = ':'

theorem IsPlain.toNat (h : IsPlain c) :
    (48 ≤ c.toNat ∧ c.toNat ≤ 58) ∨ (97 ≤ c.toNat ∧ c.toNat ≤ 122) ∨
      (65 ≤ c.toNat ∧ c.toNat ≤ 90) ∨ c.toNat = 45 ∨ c.toNat = 46 := by
  rcases h with alnum | rfl | rfl | rfl
  · rw [Text.isAsciiAlphanumeric_iff] at alnum
    omega
  all_goals decide

theorem IsPlain.not_whitespace (h : IsPlain c) : Text.isWhitespace c = false := by
  have range := h.toNat
  simp only [Text.isWhitespace, Bool.or_eq_false_iff, Bool.and_eq_false_iff,
    decide_eq_false_iff_not, beq_eq_false_iff_ne]
  omega

theorem IsPlain.isAscii (h : IsPlain c) : Text.isAscii c = true := by
  have range := h.toNat
  simp only [Text.isAscii, decide_eq_true_eq]
  omega

theorem IsAddressChar.isPlain (h : IsAddressChar c) : IsPlain c := by
  rcases h with hexadecimal | rfl | rfl
  · refine .inl ?_
    obtain ⟨d, value⟩ := Option.isSome_iff_exists.mp hexadecimal
    have read := (Option.filter_eq_some_iff.mp value).1
    unfold Reader.digitValue at read
    rw [Text.isAsciiAlphanumeric_iff]
    split at read
    · rename_i digit
      exact .inl digit
    · split at read
      · rename_i lower
        exact .inr (.inl lower)
      · split at read
        · rename_i upper
          exact .inr (.inr upper)
        · cases read
  · exact .inr (.inr (.inr rfl))
  · exact .inr (.inr (.inl rfl))

theorem Hostname.chars (h : Hostname name) (mem : c ∈ name) :
    Text.isAsciiAlphanumeric c = true ∨ c = '-' ∨ c = '.' := by
  rcases Text.mem_splitOn '.' mem with dot | ⟨label, here, mem⟩
  · exact .inr (.inr dot)
  · have valid := h.labels label here
    simp only [labelInvalid, Bool.or_eq_false_iff, Bool.not_eq_false', List.all_eq_true] at valid
    have char := valid.1.1.2 c mem
    simp only [Bool.or_eq_true, decide_eq_true_eq] at char
    exact char.imp_right .inl

theorem Normal.chars (h : Normal name) (mem : c ∈ name) : IsPlain c := by
  rcases h with ⟨ip, rfl⟩ | host
  · exact IsAddressChar.isPlain (IpAddr.mem_print mem)
  · exact (host.chars mem).imp_right (·.imp_right .inl)

theorem Normal.nonempty (h : Normal name) : name ≠ [] := by
  rcases h with ⟨ip, rfl⟩ | host
  · intro empty
    have back := ip.parse_print
    rw [empty] at back
    revert back
    exact nofun
  · exact host.nonempty

theorem normalizeHostAddress_plain (plain : ∀ c ∈ name, IsPlain c) (nonempty : name ≠ []) :
    normalizeHostAddress name =
      match IpAddr.parse name with
      | some ip => .ok ip.print
      | none => normalizeHostname name := by
  have unbracketed : unbracket name = (name, false) := by
    rw [unbracket, Text.stripPrefix_eq_none fun mem => absurd (plain _ mem).toNat (by decide)]
    rfl
  have ascii : ¬((false : Bool) = true ∨ (!name.all Text.isAscii) = true) := by
    simpa using fun c mem => (plain c mem).isAscii
  rw [normalizeHostAddress, Text.trim_eq_self fun c mem => (plain c mem).not_whitespace]
  simp only [unbracketed, reject, if_neg nonempty, if_neg ascii]
  cases IpAddr.parse name with
  | none => rfl
  | some ip => rfl

theorem normalizeHostname_eq_ok {address : List Char} (h : normalizeHostname address = .ok name) :
    name = ((Text.stripSuffix '.' address).getD address).map Char.toLower ∧ Hostname name := by
  simp only [normalizeHostname, bind_eq_ok, reject_eq_ok, each_eq_ok, not_or, not_lt] at h
  obtain ⟨-, ⟨nonempty, size⟩, -, notIpv4, -, labels, same⟩ := h
  cases same
  refine ⟨rfl, nonempty, size, ?_, notIpv4, fun label mem => by simpa using labels label mem⟩
  rw [List.map_map]
  congr 1
  exact funext Char.toLower_toLower_eq_toLower

theorem isAsciiDigit_of_digit (h : (Reader.digit 10 c).isSome) : Text.isAsciiDigit c = true := by
  obtain ⟨d, value⟩ := Option.isSome_iff_exists.mp h
  obtain ⟨read, less⟩ := Option.filter_eq_some_iff.mp value
  rw [decide_eq_true_eq] at less
  unfold Reader.digitValue at read
  rw [Text.isAsciiDigit_iff]
  split at read
  · rename_i digit
    exact digit
  · exfalso
    split at read
    · cases read
      omega
    · split at read
      · cases read
        omega
      · cases read

theorem decimal_all_digits {part : List Char} (h : Decimal part) :
    part.all Text.isAsciiDigit = true :=
  List.all_eq_true.mpr fun c mem => isAsciiDigit_of_digit (h.2 c mem)

theorem decimal_dot_notMem {part : List Char} (h : Decimal part) : '.' ∉ part := fun mem =>
  absurd (h.2 _ mem) (by decide)

theorem Hostname.parse_none (h : Hostname name) : IpAddr.parse name = none := by
  cases read : IpAddr.parse name with
  | none => rfl
  | some ip =>
    cases ip with
    | v4 address =>
      obtain ⟨one, two, three, four, first, second, third, fourth, rfl⟩ := IpAddr.parse_v4 read
      refine absurd ?_ h.notIpv4
      rw [List.splitOn_append_cons_self_of_not_mem (decimal_dot_notMem first),
        List.splitOn_append_cons_self_of_not_mem (decimal_dot_notMem second),
        List.splitOn_append_cons_self_of_not_mem (decimal_dot_notMem third),
        List.splitOn_eq_singleton (decimal_dot_notMem fourth)]
      simp only [List.all_cons, decimal_all_digits first, decimal_all_digits second,
        decimal_all_digits third, decimal_all_digits fourth]
      exact ⟨rfl, rfl⟩
    | v6 address =>
      rcases h.chars (Ipv6Addr.colon_mem (IpAddr.parse_v6 read)) with alnum | minus | dot
      · cases alnum
      · cases minus
      · cases dot

theorem Hostname.normalize (h : Hostname name) : normalizeHostAddress name = .ok name := by
  have undotted : Text.stripSuffix '.' name = none := by
    refine if_neg fun last => ?_
    have invalid := h.labels [] (Text.nil_mem_splitOn last)
    cases invalid
  have short : ¬(name = [] ∨ name.length > 253) := by simp [h.nonempty, h.size]
  have labels : each (name.splitOn '.') (fun label =>
      reject (labelInvalid label) EndpointError.invalid) = .ok () :=
    each_eq_ok.mpr fun label mem => by simp [h.labels label mem]
  rw [normalizeHostAddress_plain (fun c => Normal.chars (.inr h)) h.nonempty, h.parse_none]
  simp only [normalizeHostname, undotted, Option.getD_none, h.lower, labels]
  simp only [reject, if_neg short, if_neg h.notIpv4]
  rfl

theorem Normal.normalize (h : Normal name) : normalizeHostAddress name = .ok name := by
  rcases h with ⟨ip, rfl⟩ | host
  · rw [normalizeHostAddress_plain (fun c => Normal.chars (.inl ⟨ip, rfl⟩))
      (Normal.nonempty (.inl ⟨ip, rfl⟩)), ip.parse_print]
  · exact host.normalize

theorem normalizeHostAddress_normal {input : List Char}
    (h : normalizeHostAddress input = .ok name) : Normal name := by
  simp only [normalizeHostAddress, bind_eq_ok] at h
  obtain ⟨-, -, rest⟩ := h
  split at rest
  · simp only [bind_eq_ok] at rest
    obtain ⟨-, -, same⟩ := rest
    cases same
    exact .inl ⟨_, rfl⟩
  · simp only [bind_eq_ok] at rest
    obtain ⟨-, -, host⟩ := rest
    exact .inr (normalizeHostname_eq_ok host).2

end

section

variable {name : List Char}

theorem Hostname.colon_notMem (h : Hostname name) : ':' ∉ name := fun mem => by
  rcases h.chars mem with alnum | minus | dot
  · cases alnum
  · cases minus
  · cases dot

theorem Normal.ipv6_iff (h : Normal name) : (Ipv6Addr.parse name).isSome ↔ ':' ∈ name := by
  constructor
  · intro some
    obtain ⟨address, read⟩ := Option.isSome_iff_exists.mp some
    exact Ipv6Addr.colon_mem read
  · intro colon
    rcases h with ⟨ip, rfl⟩ | host
    · cases ip with
      | v4 address => exact absurd colon address.colon_notMem
      | v6 address =>
        rw [IpAddr.print, Ipv6Addr.parse_print]
        rfl
    · exact absurd colon host.colon_notMem

theorem decimal_injective : Function.Injective decimal := fun m n same => by
  have back := congrArg (fun cs => Nat.ofDigitChars 10 cs 0) same
  simpa [decimal] using back

theorem notMem_decimal {n : Nat} {c : Char} (h : (Reader.digit 10 c).isSome = false) :
    c ∉ decimal n := fun mem => by
  rw [mem_decimal mem] at h
  cases h

theorem parse_eq_ok {address : List Char} {port : UInt16} {endpoint : Endpoint} :
    Endpoint.parse address port = .ok endpoint ↔
      port ≠ 0 ∧ normalizeHostAddress address = .ok endpoint.normalizedAddress ∧
        endpoint.port = port := by
  simp only [Endpoint.parse, bind_eq_ok, reject_eq_ok]
  constructor
  · rintro ⟨-, positive, name, normalized, same⟩
    cases same
    exact ⟨positive, normalized, rfl⟩
  · rintro ⟨positive, normalized, same⟩
    exact ⟨(), positive, _, normalized, by rw [← same]; rfl⟩

theorem trustKey_inj {a b : Endpoint} (ha : Normal a.normalizedAddress)
    (hb : Normal b.normalizedAddress) :
    a.trustKey = b.trustKey ↔ a.normalizedAddress = b.normalizedAddress ∧ a.port = b.port := by
  refine ⟨fun same => ?_, fun ⟨address, port⟩ => by rw [Endpoint.trustKey, address, port]; rfl⟩
  have port {p q : UInt16} (same : decimal p.toNat = decimal q.toNat) : p = q :=
    UInt16.toNat_inj.mp (decimal_injective same)
  have unbracketed {name rest : List Char} (h : Normal name) (n : Nat) :
      '[' :: rest ≠ name ++ ':' :: decimal n := fun same => by
    obtain ⟨c, name, rfl⟩ := List.exists_cons_of_ne_nil h.nonempty
    have bracket := (List.cons.inj same).1
    exact absurd (h.chars List.mem_cons_self).toNat (by rw [← bracket]; decide)
  simp only [Endpoint.trustKey, ha.ipv6_iff, hb.ipv6_iff] at same
  split at same
  · split at same
    · -- The addresses end at the closing brackets.
      have free : ']' ∉ a.normalizedAddress := fun mem => absurd (ha.chars mem).toNat (by decide)
      have free' : ']' ∉ ':' :: decimal a.port.toNat := by
        rw [List.mem_cons, not_or]
        exact ⟨by decide, notMem_decimal (by decide)⟩
      obtain ⟨address, -, ports⟩ :=
        (List.append_cons_inj_of_notMem free free').mp (List.cons.inj same).2
      exact ⟨address, port (List.cons.inj ports).2⟩
    · exact absurd same (unbracketed hb _)
  · split at same
    · exact absurd same.symm (unbracketed ha _)
    · rename_i free free'
      obtain ⟨address, -, ports⟩ := (List.append_cons_inj_of_notMem free
        (notMem_decimal (by decide))).mp same
      exact ⟨address, port ports⟩

end

/-- Normalised addresses are accepted unchanged, and trust keys of accepted endpoints agree
exactly if the endpoints do. -/
theorem trust_keys_identify : (∀ address port endpoint, Endpoint.parse address port = .ok endpoint →
      Endpoint.parse endpoint.normalizedAddress port = .ok endpoint) ∧
    (∀ address address' port port' a b,
      Endpoint.parse address port = .ok a → Endpoint.parse address' port' = .ok b →
        (a.trustKey = b.trustKey ↔
          a.normalizedAddress = b.normalizedAddress ∧ a.port = b.port)) := by
  constructor
  · intro address port endpoint accepted
    obtain ⟨positive, normalized, same⟩ := parse_eq_ok.mp accepted
    exact parse_eq_ok.mpr ⟨positive, (normalizeHostAddress_normal normalized).normalize, same⟩
  · intro address address' port port' a b first second
    exact trustKey_inj (normalizeHostAddress_normal (parse_eq_ok.mp first).2.1)
      (normalizeHostAddress_normal (parse_eq_ok.mp second).2.1)

theorem trust_keys_identify_example :
    Endpoint.parse "[2001:DB8::1]".toList 22 = .ok ⟨"2001:db8::1".toList, 22⟩ ∧
    Endpoint.parse "2001:db8::1".toList 22 = .ok ⟨"2001:db8::1".toList, 22⟩ ∧
    Endpoint.parse "Example.com.".toList 2201 = .ok ⟨"example.com".toList, 2201⟩ ∧
    (Endpoint.trustKey ⟨"2001:db8::1".toList, 22⟩ ≠
      Endpoint.trustKey ⟨"example.com".toList, 2201⟩) := by
  have address : Endpoint.parse "[2001:DB8::1]".toList 22 = .ok ⟨"2001:db8::1".toList, 22⟩ := by
    decide +kernel
  have host : Endpoint.parse "Example.com.".toList 2201 = .ok ⟨"example.com".toList, 2201⟩ := by
    decide +kernel
  refine ⟨address, trust_keys_identify.1 _ _ _ address, host, fun same => ?_⟩
  have equal := (trust_keys_identify.2 _ _ _ _ _ _ address host).mp same
  exact absurd equal.2 (by decide)

end NoriShell.Ssh
