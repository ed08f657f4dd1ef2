import Mathlib.Tactic.Ring
import WalletKeys.FixedWidth

/-! # Numbers and the octets they are written on

    On a given width, numbers below a power of 256 and strings of octets are the
    same thing: reading undoes writing, and `FixedWidth.write` refuses no number
    that fits. The bit and octet lengths of a number are the least widths on which
    it fits.
-/

namespace WalletKeys

/-! ## Section 1: Bit and octet lengths -/

theorem bitLength_le_iff {x : Int} (hx : 0 ≤ x) (n : Nat) : bitLength x ≤ n ↔ x < 2 ^ n := by
  obtain ⟨m, rfl⟩ := Int.eq_ofNat_of_zero_le hx
  have hcast : (m : Int) < 2 ^ n ↔ m < 2 ^ n := by exact_mod_cast Iff.rfl
  rw [hcast, bitLength, Int.natAbs_natCast]
  by_cases hm : m = 0
  · simp [hm]
  · rw [if_neg (by exact_mod_cast hm), Nat.succ_le_iff, Nat.log2_lt hm]

theorem octetLength_le_iff {x : Int} (hx : 0 ≤ x) (n : Nat) :
    octetLength x ≤ n ↔ x < 256 ^ n := by
  have hpow : (256 : Int) ^ n = 2 ^ (8 * n) := by
    rw [pow_mul]
    norm_num
  rw [hpow, ← bitLength_le_iff hx, octetLength]
  omega

/-! ## Section 2: Reading and writing -/

namespace Octets

theorem toNat_lt (octets : Octets) : octets.toNat < 256 ^ octets.length := by
  rw [← List.reverse_reverse octets]
  generalize octets.reverse = tail
  induction tail with
  | nil => simp
  | cons octet tail ih =>
    have hlt := octet.toNat_lt
    rw [List.reverse_cons, toNat_concat, List.length_append, List.length_singleton, pow_succ]
    omega

/-- Reading undoes writing for numbers that fit. -/
theorem toNat_ofNat {width n : Nat} (h : n < 256 ^ width) : (ofNat width n).toNat = n := by
  induction width generalizing n with
  | zero =>
    rw [pow_zero] at h
    rw [ofNat_zero, toNat_nil]
    omega
  | succ width ih =>
    rw [pow_succ] at h
    rw [ofNat_succ, toNat_concat, ih (by omega), UInt8.toNat_ofNat']
    omega

/-- On one length a number is written in one way. -/
theorem eq_of_toNat {octets octets' : Octets} (hlength : octets.length = octets'.length)
    (h : octets.toNat = octets'.toNat) : octets = octets' := by
  rw [← ofNat_toNat octets, ← ofNat_toNat octets', hlength, h]

@[simp] theorem toNat_zeros (width : Nat) : (zeros width).toNat = 0 := by
  induction width with
  | zero => rfl
  | succ width ih =>
    rw [zeros] at ih
    rw [zeros, List.replicate_succ', toNat_concat, ih]
    rfl

/-- Only zeros denote zero. -/
theorem toNat_pos {octets : Octets} (h : ∃ octet ∈ octets, octet ≠ 0) : 0 < octets.toNat := by
  obtain ⟨octet, hmem, hne⟩ := h
  by_contra hzero
  have hzeros : octets = zeros octets.length := by
    apply eq_of_toNat (length_zeros _).symm
    rw [toNat_zeros]
    omega
  rw [hzeros, zeros] at hmem
  exact hne (List.eq_of_mem_replicate hmem)

@[simp] theorem toNat_singleton (octet : UInt8) : toNat [octet] = octet.toNat := by
  have h := toNat_concat [] octet
  rwa [List.nil_append, toNat_nil, Nat.mul_zero, Nat.zero_add] at h

end Octets

namespace FixedWidth

/-- A number that fits is written. -/
theorem write_of_lt (width : Nat) {x : Int} (hx : 0 ≤ x ∧ x < (256 : Int) ^ width) :
    ∃ octets, write width x = .ok octets ∧ octets.length = width ∧ x = octets.toNat := by
  obtain ⟨n, rfl⟩ := Int.eq_ofNat_of_zero_le hx.1
  have hn : n < 256 ^ width := by exact_mod_cast hx.2
  refine ⟨Octets.ofNat width n, ?_⟩
  rw [write_eq_ok_iff, Octets.length_ofNat, Octets.toNat_ofNat hn]
  simp

/-- A number that does not fit is refused for that. -/
theorem write_of_not_fits (width : Nat) {x : Int} (hx : ¬(0 ≤ x ∧ x < (256 : Int) ^ width)) :
    ∃ fault, write width x = .error fault ∧ fault.category = .overflow := by
  cases hwrite : write width x with
  | ok octets =>
    obtain ⟨rfl, rfl⟩ := write_eq_ok_iff.mp hwrite
    exact absurd ⟨by omega, by exact_mod_cast octets.toNat_lt⟩ hx
  | error fault =>
    refine ⟨fault, rfl, ?_⟩
    unfold write at hwrite
    split at hwrite
    · cases hwrite
      rfl
    · dsimp only at hwrite
      split at hwrite
      · cases hwrite
      · cases hwrite
        rfl

/-- A number is written on as many octets as its binary digits take. -/
theorem writeShortest_of_nonneg {x : Int} (hx : 0 ≤ x) :
    ∃ octets, writeShortest x = .ok octets ∧ octets.length = octetLength x ∧ x = octets.toNat :=
  write_of_lt _ ⟨hx, (octetLength_le_iff hx _).mp le_rfl⟩

/-- A single octet is written for its own value. -/
theorem octet_eq_ok_iff {x : Int} {octet : UInt8} :
    FixedWidth.octet x = .ok octet ↔ x = octet.toNat := by
  have hlt := octet.toNat_lt
  unfold FixedWidth.octet
  constructor
  · intro h
    split at h
    · rename_i hx
      cases h
      rw [UInt8.toNat_ofNat']
      omega
    · cases h
  · rintro rfl
    rw [if_pos (by omega), Int.toNat_natCast, UInt8.ofNat_toNat]

end FixedWidth

end WalletKeys
