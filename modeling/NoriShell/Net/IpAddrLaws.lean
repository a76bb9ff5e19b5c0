import Mathlib
import NoriShell.Net.IpAddr

namespace NoriShell.Net

namespace Reader

variable {radix : Nat} {c : Char} {cs rest : List Char}

def Ends (radix : Nat) (rest : List Char) : Prop := ∀ c ∈ rest.head?, digit radix c = none

theorem ends_nil : Ends radix [] := nofun

theorem ends_cons (h : digit radix c = none) : Ends radix (c :: cs) := by
  rintro _ ⟨⟩
  exact h

theorem digitValue_digitChar (d : Fin 16) : digitValue (Nat.digitChar d) = some d.val := by
  revert d
  decide

theorem digit_digitChar {d : Nat} (small : radix ≤ 16) (less : d < radix) :
    digit radix (Nat.digitChar d) = some d := by
  rw [digit, digitValue_digitChar ⟨d, by omega⟩]
  simp [less]

theorem digits_append {ds : List Nat} (small : radix ≤ 16) (bound : ∀ d ∈ ds, d < radix)
    (ends : Ends radix rest) : digits radix (ds.map Nat.digitChar ++ rest) = (ds, rest) := by
  induction ds with
  | nil =>
    cases rest with
    | nil => rfl
    | cons c rest => simp [digits, ends c rfl]
  | cons d ds ih =>
    rw [List.map_cons, List.cons_append, digits, digit_digitChar small (bound d List.mem_cons_self)]
    simp only [ih fun d mem => bound d (List.mem_cons_of_mem _ mem)]

theorem toDigits_spec (radix : Nat) (two : 2 ≤ radix) (n : Nat) :
    ∃ ds : List Nat, Nat.toDigits radix n = ds.map Nat.digitChar ∧ (∀ d ∈ ds, d < radix) ∧
      ds.foldl (fun value d => value * radix + d) 0 = n ∧ ds ≠ [] ∧
      (ds.head? = some 0 → ds.length = 1) := by
  induction n using Nat.strongRecOn with
  | ind n ih =>
    by_cases less : n < radix
    · exact ⟨[n], by rw [Nat.toDigits_of_lt_base less]; rfl, by simp [less], by simp, by simp,
        fun _ => rfl⟩
    · obtain ⟨ds, shape, bound, value, nonempty, zero⟩ :=
        ih (n / radix) (Nat.div_lt_self (by omega) two)
      refine ⟨ds ++ [n % radix], ?_, ?_, ?_, by simp, fun head => ?_⟩
      · rw [Nat.toDigits_of_base_le (by omega) (by omega), shape]
        simp
      · intro d mem
        rcases List.mem_append.mp mem with mem | mem
        · exact bound d mem
        · rw [List.mem_singleton.mp mem]
          exact Nat.mod_lt _ (by omega)
      · rw [List.foldl_append, value]
        exact Nat.div_add_mod' n radix
      · -- A leading zero would be the whole quotient, which is positive.
        rw [List.head?_append_of_ne_nil _ nonempty] at head
        obtain ⟨d, rfl⟩ := List.length_eq_one_iff.mp (zero head)
        have quotient : 0 < n / radix := Nat.div_pos (by omega) (by omega)
        have whole : d = n / radix := by simpa using value
        have zeroed : d = 0 := by simpa using head
        omega

theorem number_toDigits {n maxDigits max : Nat} {allowZeroPrefix : Bool} (two : 2 ≤ radix)
    (small : radix ≤ 16) (positive : 0 < maxDigits) (short : n < radix ^ maxDigits) (le : n ≤ max)
    (ends : Ends radix rest) :
    number radix maxDigits allowZeroPrefix max (Nat.toDigits radix n ++ rest) = some (n, rest) := by
  have length := Nat.toDigits_length radix n maxDigits positive short
  obtain ⟨ds, shape, bound, value, nonempty, zero⟩ := toDigits_spec radix two n
  rw [shape] at length ⊢
  simp only [number, digits_append small bound ends, value]
  rw [List.length_map] at length
  rw [if_neg (by simp [nonempty, length]), if_neg, if_neg (by omega)]
  rintro ⟨-, head, long⟩
  exact absurd (zero head) (by omega)

theorem digits_spec (radix : Nat) (cs : List Char) :
    ∃ taken, cs = taken ++ (digits radix cs).2 ∧ (digits radix cs).1.length = taken.length ∧
      (∀ c ∈ taken, (digit radix c).isSome) ∧ Ends radix (digits radix cs).2 := by
  induction cs with
  | nil => exact ⟨[], rfl, rfl, nofun, ends_nil⟩
  | cons c cs ih =>
    rw [digits]
    cases h : digit radix c with
    | none => exact ⟨[], rfl, rfl, nofun, ends_cons h⟩
    | some d =>
      obtain ⟨taken, shape, length, all, ends⟩ := ih
      refine ⟨c :: taken, congrArg (c :: ·) shape, congrArg (· + 1) length, ?_, ends⟩
      simpa [h] using all

theorem number_eq_some {n maxDigits max : Nat} {allowZeroPrefix : Bool}
    (h : number radix maxDigits allowZeroPrefix max cs = some (n, rest)) :
    ∃ taken, cs = taken ++ rest ∧ taken ≠ [] ∧ (∀ c ∈ taken, (digit radix c).isSome) ∧
      Ends radix rest := by
  obtain ⟨taken, shape, length, all, ends⟩ := digits_spec radix cs
  simp only [number] at h
  split at h
  · cases h
  · rename_i long
    split at h
    · cases h
    · split at h
      · cases h
      · cases h
        refine ⟨taken, shape, ?_, all, ends⟩
        rintro rfl
        exact long (.inl (List.length_eq_zero_iff.mp length))

end Reader

section

open Reader

variable {cs rest : List Char}

theorem digit_colon : digit 16 ':' = none := by decide

theorem digit_dot : digit 10 '.' = none := by decide

theorem isSome_digit_of_le {small large : Nat} (le : small ≤ large) {c : Char}
    (h : (digit small c).isSome) : (digit large c).isSome := by
  obtain ⟨d, value⟩ := Option.isSome_iff_exists.mp h
  obtain ⟨value, less⟩ := Option.filter_eq_some_iff.mp value
  rw [Option.isSome_iff_exists]
  exact ⟨d, Option.filter_eq_some_iff.mpr ⟨value, by simp at less ⊢; omega⟩⟩

theorem octet_zero_decimal (byte : UInt8) (ends : Ends 10 rest) :
    octet 0 (decimal byte.toNat ++ rest) = some (byte, rest) := by
  have bound := byte.toNat_lt
  rw [octet, separated, if_pos rfl, decimal,
    number_toDigits (by omega) (by omega) (by omega) (by omega) (by omega) ends]
  simp

theorem octet_decimal {index : Nat} (later : index ≠ 0) (byte : UInt8) (ends : Ends 10 rest) :
    octet index ('.' :: (decimal byte.toNat ++ rest)) = some (byte, rest) := by
  rw [← octet_zero_decimal byte ends, octet, octet, separated, separated, if_neg later, if_pos rfl]
  simp [givenChar]

theorem ipv4Addr_print (address : Ipv4Addr) (ends : Ends 10 rest) :
    ipv4Addr (address.print ++ rest) = some (address, rest) := by
  simp only [Ipv4Addr.print, List.append_assoc, List.cons_append, ipv4Addr,
    octet_zero_decimal address.one (ends_cons digit_dot),
    octet_decimal one_ne_zero address.two (ends_cons digit_dot),
    octet_decimal two_ne_zero address.three (ends_cons digit_dot),
    octet_decimal three_ne_zero address.four ends, Option.bind_eq_bind, Option.bind_some,
    Option.pure_def]

def Decimal (part : List Char) : Prop := part ≠ [] ∧ ∀ c ∈ part, (digit 10 c).isSome

theorem octet_zero_eq_some {byte : UInt8} (h : octet 0 cs = some (byte, rest)) :
    ∃ part, Decimal part ∧ cs = part ++ rest := by
  simp only [octet, separated, if_pos, Option.map_eq_some_iff] at h
  obtain ⟨⟨n, rest⟩, read, same⟩ := h
  cases same
  obtain ⟨taken, shape, nonempty, all, -⟩ := number_eq_some read
  exact ⟨taken, ⟨nonempty, all⟩, shape⟩

theorem octet_eq_some {index : Nat} (later : index ≠ 0) {byte : UInt8}
    (h : octet index cs = some (byte, rest)) : ∃ part, Decimal part ∧ cs = '.' :: part ++ rest := by
  rw [octet, separated, if_neg later] at h
  cases cs with
  | nil => cases h
  | cons c cs =>
    rw [givenChar] at h
    split at h
    · rename_i dot
      subst dot
      have read : octet 0 cs = some (byte, rest) := by simpa [octet, separated] using h
      obtain ⟨part, decimal, rfl⟩ := octet_zero_eq_some read
      exact ⟨part, decimal, rfl⟩
    · cases h

def Dotted (cs : List Char) : Prop :=
  ∃ one two three four, Decimal one ∧ Decimal two ∧ Decimal three ∧ Decimal four ∧
    cs = one ++ '.' :: (two ++ '.' :: (three ++ '.' :: four))

theorem ipv4Addr_eq_some {address : Ipv4Addr} (h : ipv4Addr cs = some (address, rest)) :
    ∃ taken, Dotted taken ∧ cs = taken ++ rest := by
  simp only [ipv4Addr, Option.bind_eq_bind, Option.bind_eq_some_iff, Option.pure_def] at h
  obtain ⟨⟨_, _⟩, first, ⟨_, _⟩, second, ⟨_, _⟩, third, ⟨_, _⟩, fourth, same⟩ := h
  cases same
  obtain ⟨one, one_decimal, rfl⟩ := octet_zero_eq_some first
  obtain ⟨two, two_decimal, rfl⟩ := octet_eq_some one_ne_zero second
  obtain ⟨three, three_decimal, rfl⟩ := octet_eq_some two_ne_zero third
  obtain ⟨four, four_decimal, rfl⟩ := octet_eq_some three_ne_zero fourth
  refine ⟨_, ⟨one, two, three, four, one_decimal, two_decimal, three_decimal, four_decimal, rfl⟩, ?_⟩
  simp

end

section

open Reader

variable {cs rest : List Char} {index : Nat}

def Breaks (rest : List Char) : Prop := Ends 16 rest ∧ rest.head? ≠ some '.'

theorem breaks_nil : Breaks [] := ⟨ends_nil, nofun⟩

theorem breaks_colon : Breaks (':' :: cs) := ⟨ends_cons digit_colon, by simp⟩

theorem dropWhile_hexadecimal {part : List Char} (all : ∀ c ∈ part, (digit 16 c).isSome)
    (ends : Ends 16 rest) : (part ++ rest).dropWhile (fun c => (digit 16 c).isSome) = rest := by
  rw [List.dropWhile_append_of_pos all]
  cases rest with
  | nil => rfl
  | cons c rest => rw [List.dropWhile_cons_of_neg (by simp [ends c rfl])]

theorem ipv4Addr_eq_none (part : List Char) (all : ∀ c ∈ part, (digit 16 c).isSome)
    (breaks : Breaks rest) : ipv4Addr (part ++ rest) = none := by
  rw [Option.eq_none_iff_forall_not_mem]
  rintro ⟨address, after⟩ read
  obtain ⟨_, ⟨one, two, three, four, decimal, -, -, -, rfl⟩, shape⟩ := ipv4Addr_eq_some read
  have hexadecimal : ∀ c ∈ one, (digit 16 c).isSome := fun c mem =>
    isSome_digit_of_le (by omega) (decimal.2 c mem)
  have same := congrArg (List.dropWhile fun c => (digit 16 c).isSome) shape
  rw [dropWhile_hexadecimal all breaks.1, List.append_assoc, List.cons_append,
    dropWhile_hexadecimal hexadecimal (ends_cons (by decide))] at same
  exact breaks.2 (by rw [same]; rfl)

theorem number_eq_none {radix maxDigits max : Nat} {allowZeroPrefix : Bool}
    (ends : Ends radix rest) : number radix maxDigits allowZeroPrefix max rest = none := by
  rw [Option.eq_none_iff_forall_not_mem]
  rintro ⟨n, after⟩ read
  obtain ⟨taken, shape, nonempty, all, -⟩ := number_eq_some read
  obtain ⟨c, taken, rfl⟩ := List.exists_cons_of_ne_nil nonempty
  have digit := all c List.mem_cons_self
  rw [ends c (by rw [shape]; rfl)] at digit
  cases digit

theorem mem_hexadecimal {segment : UInt16} {c : Char} (mem : c ∈ hexadecimal segment) :
    (digit 16 c).isSome := by
  obtain ⟨ds, shape, bound, -⟩ := toDigits_spec 16 (by omega) segment.toNat
  rw [hexadecimal, shape] at mem
  obtain ⟨d, here, rfl⟩ := List.mem_map.mp mem
  rw [digit_digitChar (by omega) (bound d here)]
  rfl

def groupText (index : Nat) (segment : UInt16) : List Char :=
  if index = 0 then hexadecimal segment else ':' :: hexadecimal segment

def groupsText : Nat → List UInt16 → List Char
  | _, [] => []
  | index, segment :: segments => groupText index segment ++ groupsText (index + 1) segments

theorem separated_groupText {α : Type} (inner : Reader α) (segment : UInt16) :
    separated ':' index inner (groupText index segment ++ rest) =
      inner (hexadecimal segment ++ rest) := by
  by_cases first : index = 0
  · simp [separated, groupText, first]
  · simp [separated, groupText, first, givenChar]

theorem group_groupText (segment : UInt16) (ends : Ends 16 rest) :
    group index (groupText index segment ++ rest) = some (segment, rest) := by
  have bound := segment.toNat_lt
  rw [group, separated_groupText, hexadecimal,
    number_toDigits (by omega) (by omega) (by omega) (by omega) (by omega) ends]
  simp

def Final (rest : List Char) : Prop := rest = [] ∨ ∃ more, rest = ':' :: ':' :: more

theorem separated_final {α : Type} {inner : Reader α} (final : Final rest) (empty : inner [] = none)
    (colon : ∀ more, inner (':' :: more) = none) : separated ':' index inner rest = none := by
  rcases final with rfl | ⟨more, rfl⟩
  · simp [separated, empty, givenChar]
  · simp [separated, colon, givenChar]

theorem breaks_groupsText (segments : List UInt16) (later : index ≠ 0) (final : Final rest) :
    Breaks (groupsText index segments ++ rest) := by
  cases segments with
  | nil =>
    rcases final with rfl | ⟨more, rfl⟩
    · exact breaks_nil
    · exact breaks_colon
  | cons segment segments =>
    rw [groupsText, groupText, if_neg later]
    exact breaks_colon

theorem readGroups_groupsText (limit remaining index : Nat) (segments : List UInt16)
    (fits : segments.length ≤ remaining) (final : Final rest) :
    readGroups limit remaining index (groupsText index segments ++ rest) =
      (segments, false, rest) := by
  induction segments generalizing index remaining with
  | nil =>
    cases remaining with
    | zero => rfl
    | succ remaining =>
      have noAddress : separated ':' index ipv4Addr rest = none :=
        separated_final final (ipv4Addr_eq_none [] nofun breaks_nil)
          fun more => ipv4Addr_eq_none [] nofun breaks_colon
      have noGroup : group index rest = none := by
        rw [group, separated_final final (number_eq_none ends_nil)
          fun more => number_eq_none (ends_cons digit_colon)]
        rfl
      simp [groupsText, readGroups, noAddress, noGroup]
  | cons segment segments ih =>
    cases remaining with
    | zero => exact absurd fits (by simp)
    | succ remaining =>
      have breaks := breaks_groupsText segments (Nat.succ_ne_zero index) final
      have noAddress : separated ':' index ipv4Addr (groupText index segment ++
          (groupsText (index + 1) segments ++ rest)) = none := by
        rw [separated_groupText]
        exact ipv4Addr_eq_none _ (fun c => mem_hexadecimal) breaks
      rw [groupsText, List.append_assoc, readGroups, noAddress, ite_self,
        group_groupText segment breaks.1]
      simp only [ih remaining (index + 1) (by simpa using fits)]

theorem ipv4Addr_groupsText (segments : List UInt16) (final : Final rest) :
    ipv4Addr (groupsText 0 segments ++ rest) = none := by
  cases segments with
  | nil => exact ipv4Addr_eq_none [] nofun (breaks_groupsText [] one_ne_zero final)
  | cons segment segments =>
    rw [groupsText, groupText, if_pos rfl, List.append_assoc]
    exact ipv4Addr_eq_none _ (fun c => mem_hexadecimal)
      (breaks_groupsText segments one_ne_zero final)

theorem fmtSubslice_eq (segments : List UInt16) : fmtSubslice segments = groupsText 0 segments := by
  have later (index : Nat) (segments : List UInt16) : groupsText (index + 1) segments =
      segments.flatMap fun segment => ':' :: hexadecimal segment := by
    induction segments generalizing index with
    | nil => rfl
    | cons segment segments ih => rw [groupsText, ih, groupText, if_neg (Nat.succ_ne_zero _)]; rfl
  cases segments with
  | nil => rfl
  | cons segment segments => rw [fmtSubslice, groupsText, later, groupText, if_pos rfl]

end

section

open Reader

def ZeroRun (segments : List UInt16) (span : Span) : Prop :=
  span.start + span.len ≤ segments.length ∧
    ∀ i, span.start ≤ i → i < span.start + span.len → segments[i]? = some 0

variable {segments : List UInt16}

theorem ZeroRun.append {more : List UInt16} {span : Span} (h : ZeroRun segments span) :
    ZeroRun (segments ++ more) span := by
  refine ⟨by rw [List.length_append]; exact h.1.trans (Nat.le_add_right _ _), fun i le less => ?_⟩
  rw [List.getElem?_append_left (less.trans_le h.1)]
  exact h.2 i le less

structure Scanned (segments : List UInt16) (spans : Span × Span) : Prop where
  longest : ZeroRun segments spans.1
  current : ZeroRun segments spans.2
  reaches : spans.2.len = 0 ∨ spans.2.start + spans.2.len = segments.length

theorem Scanned.extend {spans : Span × Span} (h : Scanned segments spans) (segment : UInt16) :
    Scanned (segments ++ [segment]) (Span.extend spans (segment, segments.length)) := by
  obtain ⟨longest, current⟩ := spans
  by_cases zero : segment = 0
  · let grown : Span :=
      ⟨if current.len = 0 then segments.length else current.start, current.len + 1⟩
    have start : grown.start = if current.len = 0 then segments.length else current.start := rfl
    have len : grown.len = current.len + 1 := rfl
    have before : current.len = 0 ∨ current.start + current.len = segments.length := h.reaches
    have reaches : grown.start + grown.len = segments.length + 1 := by split at start <;> omega
    have run : ZeroRun (segments ++ [segment]) grown := by
      refine ⟨by simp [reaches], fun i le less => ?_⟩
      by_cases last : i = segments.length
      · simp [last, zero]
      · have inside : current.start ≤ i ∧ i < current.start + current.len := by
          split at start <;> omega
        rw [List.getElem?_append_left (by omega)]
        exact h.current.2 i inside.1 inside.2
    rw [Span.extend, if_pos zero]
    refine ⟨?_, run, .inr (by simpa using reaches)⟩
    change ZeroRun _ (if grown.len > longest.len then grown else longest)
    split
    · exact run
    · exact h.longest.append
  · rw [Span.extend, if_neg zero]
    exact ⟨h.longest.append, ⟨Nat.zero_le _, by simp⟩, .inl rfl⟩

theorem longest_zeroRun (segments : List UInt16) : ZeroRun segments (Span.longest segments) := by
  suffices h : Scanned segments (segments.zipIdx.foldl Span.extend ({}, {})) from h.longest
  induction segments using List.reverseRecOn with
  | nil => exact ⟨⟨le_rfl, by simp⟩, ⟨le_rfl, by simp⟩, .inl rfl⟩
  | append_singleton segments segment ih =>
    rw [List.zipIdx_append, List.foldl_append]
    simpa using ih.extend segment

theorem ZeroRun.split {span : Span} (h : ZeroRun segments span) :
    segments = segments.take span.start ++ List.replicate span.len 0 ++
      segments.drop (span.start + span.len) := by
  have length := h.1
  refine List.ext_getElem? fun i => ?_
  rw [List.append_assoc]
  by_cases before : i < span.start
  · rw [List.getElem?_append_left (by simp; omega), List.getElem?_take_of_lt before]
  · rw [List.getElem?_append_right (by simp; omega), List.length_take_of_le (by omega)]
    by_cases inside : i < span.start + span.len
    · rw [h.2 i (by omega) inside, List.getElem?_append_left (by simp; omega),
        List.getElem?_replicate_of_lt (by omega)]
    · rw [List.getElem?_append_right (by simp; omega), List.getElem?_drop, List.length_replicate]
      congr 1
      omega

theorem ofGroups_eq (address : Ipv6Addr) (head : List UInt16) (len : Nat) (tail : List UInt16)
    (shape : address.segments.toList = head ++ List.replicate len 0 ++ tail) :
    Ipv6Addr.ofGroups head tail = address := by
  have length := congrArg List.length shape
  simp only [Vector.length_toList, List.length_append, List.length_replicate] at length
  have segments : (Ipv6Addr.ofGroups head tail).segments = address.segments := by
    refine Vector.ext fun i less => ?_
    have here : address.segments.toList[i]? = some (address.segments[i]) := by simp [less]
    rw [← Option.some_inj, ← here, shape]
    simp only [Ipv6Addr.ofGroups, Vector.getElem_ofFn, List.getD_eq_getElem?_getD]
    split
    · have size : (head ++ List.replicate len 0).length = 8 - tail.length := by simp; omega
      rw [List.getElem?_append_right (by omega), size, List.getElem?_eq_getElem (by omega),
        Option.getD_some]
    · rw [List.getElem?_append_left (by simp; omega)]
      by_cases inHead : i < head.length
      · rw [List.getElem?_append_left inHead, List.getElem?_eq_getElem inHead, Option.getD_some]
      · rw [List.getElem?_append_right (by omega), List.getElem?_replicate_of_lt (by omega),
          List.getElem?_eq_none (by omega), Option.getD_none]
  cases address
  exact congrArg Ipv6Addr.mk segments

theorem fromBeBytes_bytes (segment : UInt16) :
    fromBeBytes (.ofNat (segment.toNat / 256)) (.ofNat segment.toNat) = segment := by
  have bound := segment.toNat_lt
  refine UInt16.toNat_inj.mp ?_
  simp only [fromBeBytes, UInt8.toNat_ofNat', UInt16.toNat_ofNat']
  omega

theorem toIpv4Mapped_eq_some {address : Ipv6Addr} {ipv4 : Ipv4Addr}
    (h : address.toIpv4Mapped = some ipv4) :
    address.segments.toList = List.replicate 5 0 ++ 0xffff :: ipv4.groups := by
  unfold Ipv6Addr.toIpv4Mapped at h
  split at h
  · rename_i ab cd shape
    cases h
    rw [shape, Ipv4Addr.groups, fromBeBytes_bytes, fromBeBytes_bytes]
    rfl
  · cases h

theorem ipv6Addr_compressed {address : Ipv6Addr} {head tail : List UInt16} {len : Nat}
    (shape : address.segments.toList = head ++ List.replicate len 0 ++ tail) (two : 1 < len) :
    ipv6Addr (groupsText 0 head ++ ':' :: ':' :: groupsText 0 tail) = some (address, []) := by
  have length := congrArg List.length shape
  simp only [Vector.length_toList, List.length_append, List.length_replicate] at length
  have first := readGroups_groupsText 8 8 0 head (by omega)
    (.inr ⟨groupsText 0 tail, rfl⟩)
  have second := readGroups_groupsText (8 - (head.length + 1)) (8 - (head.length + 1)) 0
    tail (by omega) (.inl rfl)
  rw [List.append_nil] at second
  simp only [ipv6Addr, first]
  rw [if_neg (by omega), if_neg (by simp)]
  simp only [givenChar, ↓reduceIte, Option.bind_eq_bind, Option.bind_some, second,
    ofGroups_eq address head len tail shape, Option.pure_def]

theorem readGroups_mapped (ipv4 : Ipv4Addr) :
    readGroups 7 7 0 ("ffff:".toList ++ ipv4.print) = (0xffff :: ipv4.groups, true, []) := by
  have shape : "ffff:".toList ++ ipv4.print = groupText 0 0xffff ++ ':' :: ipv4.print := by
    rw [show "ffff:".toList = groupText 0 0xffff ++ [':'] by decide]
    simp
  have noAddress : separated ':' 0 ipv4Addr (groupText 0 0xffff ++ ':' :: ipv4.print) = none := by
    rw [separated_groupText]
    exact ipv4Addr_eq_none _ (fun c => mem_hexadecimal) breaks_colon
  have address : separated ':' 1 ipv4Addr (':' :: ipv4.print) = some (ipv4, []) := by
    simpa [separated, givenChar] using ipv4Addr_print ipv4 ends_nil
  rw [shape, readGroups, noAddress, ite_self, group_groupText _ (ends_cons digit_colon)]
  simp only [readGroups, address]
  simp

theorem ipv6Addr_print (address : Ipv6Addr) : ipv6Addr address.print = some (address, []) := by
  unfold Ipv6Addr.print
  split
  · rename_i ipv4 mapped
    have shape := toIpv4Mapped_eq_some mapped
    have none := readGroups_groupsText 8 8 0 [] (by simp)
      (.inr ⟨"ffff:".toList ++ ipv4.print, rfl⟩)
    have text : "::ffff:".toList ++ ipv4.print =
        groupsText 0 [] ++ ':' :: ':' :: ("ffff:".toList ++ ipv4.print) := rfl
    rw [text]
    simp only [ipv6Addr, none]
    rw [if_neg (by simp), if_neg (by simp)]
    simp only [givenChar, ↓reduceIte, Option.bind_eq_bind, Option.bind_some, List.length_nil,
      Nat.zero_add, Nat.add_one_sub_one, readGroups_mapped, Option.pure_def]
    rw [ofGroups_eq address [] 5 _ (by simpa using shape)]
  · simp only [fmtSubslice_eq]
    split
    · rename_i long
      exact ipv6Addr_compressed (longest_zeroRun _).split long
    · have read := readGroups_groupsText 8 8 0 address.segments.toList (by simp)
        (.inl rfl)
      rw [List.append_nil] at read
      simp only [ipv6Addr, read]
      rw [if_pos (by simp), ofGroups_eq address _ 0 [] (by simp)]

end

section

open Reader

variable {cs : List Char} {c : Char}

theorem parseWith_eq_some {α : Type} {reader : Reader α} {a : α} :
    parseWith reader cs = some a ↔ reader cs = some (a, []) := by
  unfold parseWith
  split
  · rename_i read
    simp [read]
  · rename_i other
    refine iff_of_false nofun fun read => other a read

theorem Ipv6Addr.parse_print (address : Ipv6Addr) : parse address.print = some address :=
  parseWith_eq_some.mpr (ipv6Addr_print address)

theorem givenChar_eq_none {target : Char} (free : target ∉ cs) : givenChar target cs = none := by
  cases cs with
  | nil => rfl
  | cons c cs =>
    refine if_neg ?_
    rintro rfl
    exact free List.mem_cons_self

/-- A text without a colon has at most one group, and no `::` after it. -/
theorem ipv6Addr_eq_none (free : ':' ∉ cs) : ipv6Addr cs = none := by
  have later {α : Type} {inner : Reader α} {rest : List Char} (free : ':' ∉ rest) :
      separated ':' 1 inner rest = none := by
    rw [separated, if_neg one_ne_zero, givenChar_eq_none free, Option.bind_none]
  rw [ipv6Addr, readGroups]
  cases embedded : separated ':' 0 ipv4Addr cs with
  | some read => simp [Ipv4Addr.groups]
  | none =>
    cases first : group 0 cs with
    | none => simp [givenChar_eq_none free]
    | some read =>
      obtain ⟨segment, rest⟩ := read
      rw [group, separated, if_pos rfl, Option.map_eq_some_iff] at first
      obtain ⟨⟨n, rest'⟩, number, same⟩ := first
      cases same
      obtain ⟨taken, rfl, -⟩ := number_eq_some number
      have restFree : ':' ∉ rest := fun mem => free (List.mem_append_right _ mem)
      have noGroup : group 1 rest = none := by rw [group, later restFree, Option.map_none]
      simp [readGroups, later restFree, noGroup, givenChar_eq_none restFree]

variable {address : Ipv6Addr}

theorem Ipv6Addr.colon_mem (h : parse cs = some address) : ':' ∈ cs := by
  by_contra free
  rw [parse, parseWith_eq_some, ipv6Addr_eq_none free] at h
  cases h

theorem IpAddr.parse_v4 {address : Ipv4Addr} (h : parse cs = some (.v4 address)) : Dotted cs := by
  rw [parse, parseWith_eq_some, ipAddr] at h
  split at h
  · rename_i read
    cases h
    obtain ⟨taken, dotted, rfl⟩ := ipv4Addr_eq_some read
    rwa [List.append_nil]
  · obtain ⟨_, -, same⟩ := Option.map_eq_some_iff.mp h
    cases same

theorem IpAddr.parse_v6 (h : parse cs = some (.v6 address)) : Ipv6Addr.parse cs = some address := by
  rw [parse, parseWith_eq_some, ipAddr] at h
  split at h
  · cases h
  · obtain ⟨⟨_, _⟩, read, same⟩ := Option.map_eq_some_iff.mp h
    cases same
    exact parseWith_eq_some.mpr read

def IsAddressChar (c : Char) : Prop := (digit 16 c).isSome ∨ c = ':' ∨ c = '.'

theorem mem_decimal {n : Nat} (mem : c ∈ decimal n) : (digit 10 c).isSome := by
  obtain ⟨ds, shape, bound, -⟩ := toDigits_spec 10 (by omega) n
  rw [decimal, shape] at mem
  obtain ⟨d, here, rfl⟩ := List.mem_map.mp mem
  rw [digit_digitChar (by omega) (bound d here)]
  rfl

theorem Ipv4Addr.mem_print {address : Ipv4Addr} (mem : c ∈ address.print) :
    (digit 10 c).isSome ∨ c = '.' := by
  simp only [print, List.mem_append, List.mem_cons] at mem
  rcases mem with mem | dot | mem | dot | mem | dot | mem
  all_goals first | exact .inr dot | exact .inl (mem_decimal mem)

theorem mem_groupsText {index : Nat} {segments : List UInt16}
    (mem : c ∈ groupsText index segments) : (digit 16 c).isSome ∨ c = ':' := by
  induction segments generalizing index with
  | nil => cases mem
  | cons segment segments ih =>
    rcases List.mem_append.mp mem with mem | mem
    · rw [groupText] at mem
      split at mem
      · exact .inl (mem_hexadecimal mem)
      · rcases List.mem_cons.mp mem with colon | mem
        · exact .inr colon
        · exact .inl (mem_hexadecimal mem)
    · exact ih mem

theorem Ipv6Addr.mem_print (mem : c ∈ address.print) : IsAddressChar c := by
  have groups {segments : List UInt16} (mem : c ∈ groupsText 0 segments) : IsAddressChar c :=
    (mem_groupsText mem).imp_right .inl
  unfold print at mem
  split at mem
  · rcases List.mem_append.mp mem with mem | mem
    · have fixed : c = ':' ∨ c = 'f' ∨ c = ':' := by simpa using mem
      rcases fixed with colon | rfl | colon
      · exact .inr (.inl colon)
      · exact .inl (by decide)
      · exact .inr (.inl colon)
    · exact (Ipv4Addr.mem_print mem).imp (isSome_digit_of_le (by omega)) .inr
  · simp only [fmtSubslice_eq] at mem
    split at mem
    · simp only [List.mem_append, List.mem_cons] at mem
      rcases mem with mem | colon | colon | mem
      · exact groups mem
      · exact .inr (.inl colon)
      · exact .inr (.inl colon)
      · exact groups mem
    · exact groups mem

theorem IpAddr.mem_print {address : IpAddr} (mem : c ∈ address.print) : IsAddressChar c := by
  cases address with
  | v4 address => exact (Ipv4Addr.mem_print mem).imp (isSome_digit_of_le (by omega)) .inr
  | v6 address => exact Ipv6Addr.mem_print mem

theorem Ipv4Addr.colon_notMem (address : Ipv4Addr) : ':' ∉ address.print := fun mem => by
  rcases mem_print mem with digit | dot
  · exact absurd digit (by decide)
  · exact absurd dot (by decide)

theorem ipv4Addr_ipv6_print (address : Ipv6Addr) : ipv4Addr address.print = none := by
  unfold Ipv6Addr.print
  split
  · exact ipv4Addr_groupsText [] (.inr ⟨_, rfl⟩)
  · simp only [fmtSubslice_eq]
    split
    · exact ipv4Addr_groupsText _ (.inr ⟨_, rfl⟩)
    · simpa using ipv4Addr_groupsText address.segments.toList (.inl rfl)

theorem IpAddr.parse_print (address : IpAddr) : parse address.print = some address := by
  rw [parse, parseWith_eq_some]
  cases address with
  | v4 address =>
    have read := ipv4Addr_print address ends_nil
    rw [List.append_nil] at read
    simp [ipAddr, print, read]
  | v6 address => simp [ipAddr, print, ipv4Addr_ipv6_print, ipv6Addr_print]

end

end NoriShell.Net
