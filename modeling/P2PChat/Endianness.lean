import P2PChat.LittleEndian

namespace P2PChat

open LittleEndian

/-- The host keeps the low byte of an integer first, and the library's byte-order functions
reverse the bytes. -/
def ntohs (v : UInt16) : UInt16 := UInt16.ofNat (reversed 2 v.toNat)

def htons (v : UInt16) : UInt16 := UInt16.ofNat (reversed 2 v.toNat)

def ntohl (v : UInt32) : UInt32 := UInt32.ofNat (reversed 4 v.toNat)

def htonl (v : UInt32) : UInt32 := UInt32.ofNat (reversed 4 v.toNat)

def ntohll (x : UInt64) : UInt64 :=
  ((ntohl x.toUInt32).toUInt64 <<< 32) + (ntohl (x >>> 32).toUInt32).toUInt64

def hostToNetwork8 (buf : UInt64) : UInt64 :=
  ((htonl buf.toUInt32).toUInt64 <<< 32) + (htonl (buf >>> 32).toUInt32).toUInt64

def hostToNetwork4 (buf : UInt32) : UInt32 := ntohl buf

def networkToHostLong8 (buf : UInt64) : Int64 := (ntohll buf).toInt64

def networkToHostULong8 (buf : UInt64) : UInt64 := ntohll buf

theorem htons_toNat (v : UInt16) : (htons v).toNat = reversed 2 v.toNat := by
  have h := reversed_lt 2 v.toNat
  rw [htons, UInt16.toNat_ofNat']
  omega

theorem ntohl_toNat (v : UInt32) : (ntohl v).toNat = reversed 4 v.toNat := by
  have h := reversed_lt 4 v.toNat
  rw [ntohl, UInt32.toNat_ofNat']
  omega

/-- The two halves, reversed and exchanged, are the reversed whole. -/
theorem ntohll_toNat (x : UInt64) : (ntohll x).toNat = reversed 8 x.toNat := by
  have hlow := reversed_lt 4 (x.toNat % 256 ^ 4)
  have hhigh := reversed_lt 4 (x.toNat / 256 ^ 4)
  have hx := x.toNat_lt
  have hcut : (x >>> 32).toUInt32.toNat = x.toNat / 256 ^ 4 := by
    rw [UInt64.toNat_toUInt32, UInt64.toNat_shiftRight, show (32 : UInt64).toNat % 64 = 32 from rfl,
      Nat.shiftRight_eq_div_pow]
    omega
  have hkeep : x.toUInt32.toNat = x.toNat % 256 ^ 4 := UInt64.toNat_toUInt32 x
  have hup : ((ntohl x.toUInt32).toUInt64 <<< 32).toNat = 256 ^ 4 * reversed 4 (x.toNat % 256 ^ 4) := by
    rw [UInt64.toNat_shiftLeft, UInt32.toNat_toUInt64, ntohl_toNat, hkeep,
      show (32 : UInt64).toNat % 64 = 32 from rfl, Nat.shiftLeft_eq]
    omega
  rw [ntohll, UInt64.toNat_add, hup, UInt32.toNat_toUInt64, ntohl_toNat, hcut, reversed_add 4 4]
  omega

theorem hostToNetwork8_eq (v : UInt64) : hostToNetwork8 v = ntohll v := rfl

theorem ntohs_htons (v : UInt16) : ntohs (htons v) = v := by
  have h := v.toNat_lt
  apply UInt16.toNat_inj.mp
  rw [show ntohs (htons v) = htons (htons v) from rfl, htons_toNat, htons_toNat, reversed_reversed (by omega)]

theorem ntohl_hostToNetwork4 (v : UInt32) : ntohl (hostToNetwork4 v) = v := by
  have h := v.toNat_lt
  apply UInt32.toNat_inj.mp
  rw [hostToNetwork4, ntohl_toNat, ntohl_toNat, reversed_reversed (by omega)]

theorem ntohll_reversed (v : UInt64) : ntohll (UInt64.ofNat (reversed 8 v.toNat)) = v := by
  have h := v.toNat_lt
  have hlt := reversed_lt 8 v.toNat
  apply UInt64.toNat_inj.mp
  rw [ntohll_toNat, UInt64.toNat_ofNat', Nat.mod_eq_of_lt (by omega), reversed_reversed (by omega)]

end P2PChat
