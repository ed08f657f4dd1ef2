import Mathlib.Data.Int.ModEq
import WalletKeys.Nonce.Problem
import WalletKeys.Proofs.Octets
import WalletKeys.Proofs.Results

/-! # What the seed of a nonce request says

    The seed is made of three parts: the secret and the hash residue, both on the
    width of the order, and the extra octets. The first two parts have a width of
    their own, so the seed can be taken apart again, and requests to one order
    have equal seeds if and only if they agree in all three parts
    (`Problem.seed_eq_iff`).

    The hash enters as the remainder of its leftmost bits (`hashResidue_eq_emod`):
    these are as many as the order has, so they stay below twice the order.
-/

namespace WalletKeys.Nonce

/-! ## Section 1: Hash residues -/

theorem leftmost_lt (bits : Nat) (octets : Octets) : leftmost bits octets < 2 ^ bits := by
  have hlt : octets.toNat < 2 ^ (8 * octets.length) := by
    have h := octets.toNat_lt
    rwa [show 256 = 2 ^ 8 from rfl, ← pow_mul] at h
  rw [leftmost, Nat.shiftRight_eq_div_pow]
  by_cases hlong : bits ≤ 8 * octets.length
  · have hshift : (8 * (octets.length : Int) - bits).toNat = 8 * octets.length - bits := by omega
    rw [hshift, Nat.div_lt_iff_lt_mul (Nat.two_pow_pos _), ← pow_add, Nat.add_sub_cancel' hlong]
    exact hlt
  · calc octets.toNat / 2 ^ (8 * (octets.length : Int) - bits).toNat
        ≤ octets.toNat := Nat.div_le_self _ _
      _ < 2 ^ (8 * octets.length) := hlt
      _ ≤ 2 ^ bits := Nat.pow_le_pow_right two_pos (by omega)

/-- The leftmost bits of a string that is not longer are all of it. -/
theorem leftmost_of_le {bits : Nat} {octets : Octets} (h : 8 * octets.length ≤ bits) :
    leftmost bits octets = octets.toNat := by
  rw [leftmost, show (8 * (octets.length : Int) - bits).toNat = 0 by omega, Nat.shiftRight_zero]

/-- One subtraction of the order is enough to reduce the leftmost bits. -/
theorem hashResidue_eq_emod {order : Int} (horder : 0 < order) (hash : Octets) :
    hashResidue order hash = leftmost (bitLength order) hash % order := by
  have hlt : leftmost (bitLength order) hash < 2 ^ bitLength order := leftmost_lt _ hash
  -- The order has a binary digit more than half of any number of its length.
  have hhalf : (2 : Int) ^ bitLength order ≤ 2 * order := by
    cases hbits : bitLength order with
    | zero =>
      rw [pow_zero]
      omega
    | succ n =>
      have hdigit := mt (bitLength_le_iff horder.le n).mpr (by omega)
      rw [pow_succ]
      omega
  have hcast : (leftmost (bitLength order) hash : Int) < 2 ^ bitLength order := by
    exact_mod_cast hlt
  unfold hashResidue
  dsimp only
  split
  · rw [Int.emod_eq_of_lt (by omega) (by omega)]
  · rw [← Int.sub_emod_right, Int.emod_eq_of_lt (by omega) (by omega)]

/-! ## Section 2: The parts of a seed -/

namespace Problem

/-- The secret fits the width of a positive order. -/
structure Fits (problem : Problem) : Prop where
  order_pos : 0 < problem.order
  secret : 0 ≤ problem.secret ∧ problem.secret < 256 ^ problem.width

/-- The hash as a residue for the order. -/
def residue (problem : Problem) : Int := hashResidue problem.order problem.hash

/-- The parts of a seed, and what they say. -/
structure SeedParts (problem : Problem) (secret hash : Octets) : Prop where
  seed_eq : problem.seed = .ok (secret ++ hash ++ problem.extra)
  secret_length : secret.length = problem.width
  secret_value : problem.secret = secret.toNat
  hash_length : hash.length = problem.width
  hash_value : problem.residue = hash.toNat

/-- A request with a secret that fits has a seed. -/
theorem Fits.exists_seed {problem : Problem} (h : problem.Fits) :
    ∃ secret hash, problem.SeedParts secret hash := by
  obtain ⟨secret, hsecret, hlength, hvalue⟩ := FixedWidth.write_of_lt problem.width h.secret
  have hresidue : 0 ≤ problem.residue ∧ problem.residue < 256 ^ problem.width := by
    rw [residue, hashResidue_eq_emod h.order_pos]
    have hfit := (octetLength_le_iff h.order_pos.le problem.width).mp le_rfl
    have hlt := Int.emod_lt_of_pos
      (leftmost (bitLength problem.order) problem.hash : Int) h.order_pos
    exact ⟨Int.emod_nonneg _ h.order_pos.ne', hlt.trans hfit⟩
  obtain ⟨hash, hhash, hlength', hvalue'⟩ := FixedWidth.write_of_lt problem.width hresidue
  refine ⟨secret, hash, ?_, hlength, hvalue, hlength', hvalue'⟩
  rw [residue] at hhash
  rw [seed, hsecret, ok_bind, hashOctets, hhash, ok_bind, pure_eq_ok]

/-- Requests to one order have equal seeds exactly if they agree in secret, hash
    residue and extra octets. -/
theorem seed_eq_iff {problem problem' : Problem} (horder : problem.order = problem'.order)
    (h : problem.Fits) (h' : problem'.Fits) :
    problem.seed = problem'.seed ↔ problem.secret = problem'.secret ∧
      problem.residue = problem'.residue ∧ problem.extra = problem'.extra := by
  have hwidth : problem.width = problem'.width := by rw [width, width, horder]
  obtain ⟨secret, hash, parts⟩ := h.exists_seed
  obtain ⟨secret', hash', parts'⟩ := h'.exists_seed
  have hsecret := parts.secret_length.trans (hwidth.trans parts'.secret_length.symm)
  have hhash := parts.hash_length.trans (hwidth.trans parts'.hash_length.symm)
  rw [parts.seed_eq, parts'.seed_eq, Except.ok.injEq]
  constructor
  · intro heq
    obtain ⟨hfixed, hextra⟩ := List.append_inj heq (by simp [hsecret, hhash])
    obtain ⟨hfirst, hsecond⟩ := List.append_inj hfixed hsecret
    rw [parts.secret_value, parts'.secret_value, parts.hash_value, parts'.hash_value, hfirst,
      hsecond]
    exact ⟨rfl, rfl, hextra⟩
  · intro hall
    obtain ⟨hfirst, hsecond, hextra⟩ := hall
    rw [parts.secret_value, parts'.secret_value, Int.natCast_inj] at hfirst
    rw [parts.hash_value, parts'.hash_value, Int.natCast_inj] at hsecond
    rw [Octets.eq_of_toNat hsecret hfirst, Octets.eq_of_toNat hhash hsecond, hextra]

end Problem

end WalletKeys.Nonce
