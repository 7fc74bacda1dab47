import Moonpool.Rpc.Peer

/-!
Owns the subnets of an address allow list (`security/allow.rs`): an address is compared with a
subnet octet by octet, and that is a comparison of the leading bits of 128-bit addresses.

A computation that can panic returns `none` where it does.
-/

namespace Moonpool.Rpc

/-- Subtraction of bytes, which panics below 0. -/
def subtract (left right : UInt8) : Option UInt8 :=
  if right ≤ left then some (left - right) else none

/-- A shift of a byte, which panics from 8 on. -/
def shiftLeft (octet amount : UInt8) : Option UInt8 :=
  if amount < 8 then some (octet <<< amount) else none

/-- What the octets of an IPv4-mapped IPv6 address start with. -/
def mapping : Vector UInt8 12 := #v[0, 0, 0, 0, 0, 0, 0, 0, 0, 0, 255, 255]

def toIpv6Mapped (octets : Vector UInt8 4) : Vector UInt8 16 := mapping ++ octets

def toIpv4Mapped (octets : Vector UInt8 16) : Option (Vector UInt8 4) :=
  if octets.take 12 = mapping then some (octets.drop 12) else none

def mapped : IpAddr → Vector UInt8 16
  | .v4 octets => toIpv6Mapped octets
  | .v6 octets => octets

def canonical : IpAddr → IpAddr
  | .v4 octets => .v4 octets
  | .v6 octets => ((toIpv4Mapped octets).map .v4).getD (.v6 octets)

def headOctets (octets : List UInt8) (whole : Nat) : Option (List UInt8) :=
  if whole ≤ octets.length then some (octets.take whole) else none

def prefixMatches (net ip : List UInt8) (prefixLen : UInt8) : Option Bool :=
  let whole := (prefixLen / 8).toNat
  let rest := prefixLen % 8
  match headOctets net whole, headOctets ip whole with
  | some netHead, some ipHead =>
    if netHead ≠ ipHead then some false
    else if rest = 0 then some true
    else do
      let mask ← (subtract 8 rest).bind (shiftLeft 255)
      match net[whole]?, ip[whole]? with
      | some net, some ip => some (net &&& mask == ip &&& mask)
      | _, _ => some false
  | _, _ => some false

structure Subnet where
  address : IpAddr
  prefixLen : UInt8
deriving DecidableEq

namespace Subnet

def new (address : IpAddr) (prefixLen : UInt8) : Option (Option Subnet) :=
  match address with
  | .v4 _ => some (if prefixLen ≤ 32 then some ⟨address, prefixLen⟩ else none)
  | .v6 octets =>
    let v4 := toIpv4Mapped octets
    if 128 < prefixLen then some none
    else match v4, decide (96 ≤ prefixLen) with
      | some v4, true => (subtract prefixLen 96).map fun rest => some ⟨.v4 v4, rest⟩
      | _, _ => some (some ⟨address, prefixLen⟩)

def contains (subnet : Subnet) (ip : IpAddr) : Option Bool :=
  match subnet.address with
  | .v4 net => match canonical ip with
    | .v4 ip => prefixMatches net.toList ip.toList subnet.prefixLen
    | .v6 _ => some false
  | .v6 net => prefixMatches net.toList (mapped ip).toList subnet.prefixLen

end Subnet

def bitAt (octets : List UInt8) (index : Nat) : Option Bool :=
  octets[index / 8]?.map fun octet => octet.toBitVec.getMsbD (index % 8)

def Agree (left right : List UInt8) (count : Nat) : Prop :=
  ∀ index < count, bitAt left index = bitAt right index

section

variable {octet other : UInt8} {left right : List UInt8} {whole rest : Nat}

theorem bitAt_first {index : Nat} (inside : index < 8) :
    bitAt (octet :: left) index = some (octet.toBitVec.getMsbD index) := by
  simp [bitAt, Nat.div_eq_of_lt inside, Nat.mod_eq_of_lt inside]

theorem bitAt_later (index : Nat) : bitAt (octet :: left) (8 + index) = bitAt left index := by
  simp [bitAt, Nat.add_div_left]

theorem agree_first (inside : rest ≤ 8) : Agree (octet :: left) (other :: right) rest ↔
    ∀ index < rest, octet.toBitVec.getMsbD index = other.toBitVec.getMsbD index := by
  refine forall₂_congr fun index below => ?_
  rw [bitAt_first (by omega), bitAt_first (by omega), Option.some_inj]

theorem agree_cons {count : Nat} : Agree (octet :: left) (other :: right) (8 + count) ↔
    octet = other ∧ Agree left right count := by
  constructor
  · intro agree
    refine ⟨?_, fun index below => ?_⟩
    · refine UInt8.toBitVec_inj.mp (BitVec.eq_of_getMsbD_eq ?_)
      exact (agree_first le_rfl).mp fun index below => agree index (by omega)
    · simpa only [bitAt_later] using agree (8 + index) (by omega)
  · rintro ⟨rfl, agree⟩ index below
    by_cases inside : index < 8
    · rw [bitAt_first inside, bitAt_first inside]
    · obtain ⟨later, rfl⟩ := Nat.exists_eq_add_of_le (Nat.le_of_not_lt inside)
      rw [bitAt_later, bitAt_later]
      exact agree later (by omega)

theorem agree_iff_take (onLeft : whole ≤ left.length) (onRight : whole ≤ right.length) :
    Agree left right (8 * whole + rest) ↔
      left.take whole = right.take whole ∧ Agree (left.drop whole) (right.drop whole) rest := by
  induction whole generalizing left right with
  | zero => simp
  | succ whole ih =>
    obtain ⟨octet, left, rfl⟩ := List.exists_cons_of_length_pos (Nat.zero_lt_of_lt onLeft)
    obtain ⟨other, right, rfl⟩ := List.exists_cons_of_length_pos (Nat.zero_lt_of_lt onRight)
    rw [show 8 * (whole + 1) + rest = 8 + (8 * whole + rest) by omega, agree_cons,
      ih (by simpa using onLeft) (by simpa using onRight)]
    simp [and_assoc]

theorem masked_eq_iff {mask : UInt8} (inside : rest ≤ 8)
    (ones : ∀ index < 8, mask.toBitVec.getMsbD index = decide (index < rest)) :
    octet &&& mask = other &&& mask ↔
      ∀ index < rest, octet.toBitVec.getMsbD index = other.toBitVec.getMsbD index := by
  constructor
  · intro same index counted
    have bits := congrArg (fun octet : UInt8 => octet.toBitVec.getMsbD index) same
    simpa [ones index (by omega), counted] using bits
  · intro agree
    refine UInt8.toBitVec_inj.mp (BitVec.eq_of_getMsbD_eq fun index below => ?_)
    by_cases counted : index < rest
    · simp [agree index counted]
    · simp [ones index below, counted]

end

def leadingOnes (rest : Nat) : UInt8 := 255 <<< (8 - UInt8.ofNat rest)

theorem leadingOnes_spec : ∀ rest : Fin 8, rest ≠ 0 → UInt8.ofNat rest ≠ 0 ∧
    (subtract 8 (.ofNat rest)).bind (shiftLeft 255) = some (leadingOnes rest) ∧
    ∀ index : Fin 8, (leadingOnes rest).toBitVec.getMsbD index = decide (index < rest) := by
  decide

theorem prefixMatches_spec {net ip : List UInt8} {prefixLen : UInt8}
    (inNet : prefixLen.toNat ≤ 8 * net.length) (inIp : prefixLen.toNat ≤ 8 * ip.length) :
    ∃ answer, prefixMatches net ip prefixLen = some answer ∧
      (answer = true ↔ Agree net ip prefixLen.toNat) := by
  have wholeOctets : (prefixLen / 8).toNat = prefixLen.toNat / 8 := by simp
  have restBits : prefixLen % 8 = UInt8.ofNat (prefixLen.toNat % 8) := by
    simp [← UInt8.toNat_inj]
    omega
  have below := Nat.mod_lt prefixLen.toNat (show 0 < 8 by decide)
  have total := Nat.div_add_mod prefixLen.toNat 8
  generalize prefixLen.toNat / 8 = whole at *
  generalize prefixLen.toNat % 8 = rest at *
  rw [← total] at inNet inIp ⊢
  rw [agree_iff_take (by omega) (by omega)]
  unfold prefixMatches
  simp only [wholeOctets, restBits, headOctets, if_pos (show whole ≤ net.length by omega),
    if_pos (show whole ≤ ip.length by omega)]
  by_cases heads : net.take whole = ip.take whole
  case neg => exact ⟨false, by simp [heads], by simp [heads]⟩
  obtain rfl | left := Nat.eq_zero_or_pos rest
  · exact ⟨true, by simp [heads], by simp [heads, Agree]⟩
  · obtain ⟨some_, mask, ones⟩ := leadingOnes_spec ⟨rest, below⟩ (Fin.ne_of_val_ne left.ne')
    have inside : whole < net.length ∧ whole < ip.length := by omega
    refine ⟨net[whole] &&& leadingOnes rest == ip[whole] &&& leadingOnes rest,
      by simp [heads, some_, mask, inside], ?_⟩
    rw [beq_iff_eq, masked_eq_iff below.le fun index inside => ones ⟨index, inside⟩,
      List.drop_eq_getElem_cons inside.1, List.drop_eq_getElem_cons inside.2,
      agree_first below.le]
    exact (and_iff_right heads).symm

@[simp] theorem toList_mapped_v4 (octets : Vector UInt8 4) :
    (mapped (.v4 octets)).toList = mapping.toList ++ octets.toList :=
  Vector.toList_append

theorem toIpv4Mapped_eq_some {octets : Vector UInt8 16} {v4 : Vector UInt8 4}
    (known : toIpv4Mapped octets = some v4) : toIpv6Mapped v4 = octets := by
  obtain ⟨maps, ⟨⟩⟩ := Option.ite_none_right_eq_some.mp known
  rw [toIpv6Mapped, ← maps, ← Vector.toList_inj, Vector.toList_append, Vector.toList_take,
    Vector.toList_drop, List.take_append_drop]

theorem canonical_spec (ip : IpAddr) :
    (∃ octets, canonical ip = .v4 octets ∧ mapped (.v4 octets) = mapped ip) ∨
      ∃ octets, canonical ip = .v6 octets ∧ mapping.toList ≠ (mapped ip).toList.take 12 := by
  cases ip with
  | v4 octets => exact .inl ⟨octets, rfl, rfl⟩
  | v6 octets =>
    rw [canonical]
    cases known : toIpv4Mapped octets with
    | some v4 => exact .inl ⟨v4, rfl, toIpv4Mapped_eq_some known⟩
    | none =>
      refine .inr ⟨octets, rfl, fun same => ?_⟩
      have maps : octets.take 12 = mapping := by
        rw [← Vector.toList_inj, Vector.toList_take]
        exact same.symm
      simp only [toIpv4Mapped, maps] at known
      cases known

namespace Subnet

/-- How many leading bits of 128-bit addresses a prefix of that address covers. -/
def leading : IpAddr → UInt8 → Nat
  | .v4 _, prefixLen => 96 + prefixLen.toNat
  | .v6 _, prefixLen => prefixLen.toNat

theorem contains_spec {address : IpAddr} {prefixLen : UInt8}
    (fits : leading address prefixLen ≤ 128) (ip : IpAddr) :
    ∃ answer, contains ⟨address, prefixLen⟩ ip = some answer ∧
      (answer = true ↔
        Agree (mapped address).toList (mapped ip).toList (leading address prefixLen)) := by
  cases address with
  | v6 net =>
    exact prefixMatches_spec (by simpa [leading] using fits) (by simpa [leading] using fits)
  | v4 net =>
    replace fits : prefixLen.toNat ≤ 8 * 4 := by
      simp only [leading] at fits
      omega
    rw [leading, show 96 = 8 * 12 from rfl, agree_iff_take (by simp) (by simp)]
    obtain ⟨octets, known, form⟩ | ⟨octets, known, form⟩ := canonical_spec ip
    · obtain ⟨answer, computed, iff⟩ := @prefixMatches_spec net.toList octets.toList _
        (by simpa using fits) (by simpa using fits)
      exact ⟨answer, by rw [contains, known]; exact computed, by simpa [← form] using iff⟩
    · exact ⟨false, by rw [contains, known], by simp [form]⟩

theorem new_spec (address : IpAddr) (prefixLen : UInt8) :
    ∃ accepted, new address prefixLen = some accepted ∧
      (accepted.isSome = true ↔ leading address prefixLen ≤ 128) ∧
      ∀ subnet ∈ accepted, mapped subnet.address = mapped address ∧
        leading subnet.address subnet.prefixLen = leading address prefixLen := by
  cases address with
  | v4 octets =>
    have fits : prefixLen ≤ 32 ↔ leading (.v4 octets) prefixLen ≤ 128 := by
      simp [leading, UInt8.le_iff_toNat_le]
      omega
    exact ⟨_, rfl, by simpa using fits, by simp⟩
  | v6 octets =>
    have fits : 128 < prefixLen ↔ ¬ leading (.v6 octets) prefixLen ≤ 128 := by
      simp [leading, UInt8.lt_iff_toNat_lt]
    by_cases long : 128 < prefixLen
    · exact ⟨none, if_pos long, by simpa using fits.mp long, by simp⟩
    · simp only [new, if_neg long]
      split
      next v4 known covers =>
        have whole : 96 ≤ prefixLen := of_decide_eq_true covers
        refine ⟨some ⟨.v4 v4, prefixLen - 96⟩, by rw [subtract, if_pos whole]; rfl,
          by simpa [fits] using long, ?_⟩
        rintro _ ⟨⟩
        refine ⟨toIpv4Mapped_eq_some known, ?_⟩
        rw [leading, leading, UInt8.toNat_sub_of_le _ _ whole]
        exact Nat.add_sub_cancel' (UInt8.le_iff_toNat_le.mp whole)
      next => exact ⟨_, rfl, by simpa [fits] using long, by simp⟩

/-- No prefix makes it panic; what is accepted contains exactly the addresses whose 128-bit form
starts with the same bits. -/
theorem subnet_matches_leading_bits (address : IpAddr) (prefixLen : UInt8) :
    ∃ accepted, new address prefixLen = some accepted ∧
      (accepted.isSome = true ↔ leading address prefixLen ≤ 128) ∧
      ∀ subnet ∈ accepted, ∀ ip, ∃ answer, subnet.contains ip = some answer ∧
        subnet.contains (.v6 (mapped ip)) = some answer ∧
        (answer = true ↔
          Agree (mapped address).toList (mapped ip).toList (leading address prefixLen)) := by
  obtain ⟨accepted, created, fits, spec⟩ := new_spec address prefixLen
  refine ⟨accepted, created, fits, fun subnet found ip => ?_⟩
  obtain ⟨same, covers⟩ := spec subnet found
  have within : leading subnet.address subnet.prefixLen ≤ 128 :=
    covers ▸ fits.mp (Option.isSome_of_mem found)
  obtain ⟨answer, computed, iff⟩ := contains_spec within ip
  obtain ⟨again, recomputed, iffAgain⟩ := contains_spec within (.v6 (mapped ip))
  rw [same, covers] at iff iffAgain
  exact ⟨answer, computed, by rw [recomputed, Bool.eq_iff_iff.mpr (iffAgain.trans iff.symm)], iff⟩

end Subnet

end Moonpool.Rpc
