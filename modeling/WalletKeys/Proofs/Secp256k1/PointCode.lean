import WalletKeys.Proofs.Octets
import WalletKeys.Proofs.Results
import WalletKeys.Proofs.Secp256k1.Group
import WalletKeys.Secp256k1.PointCode

/-! # Point codes name points

    Reading accepts exactly the codes that writing produces for points of the
    curve (`decode_eq_ok_iff`), so a point has one code of each form and a code
    names one point. The part with content is `lift`: the power with exponent
    `(p + 1) / 4` is a root of every square, and of the two points above an
    abscissa exactly one has an ordinate of the wanted parity, as the curve does
    not meet the axis.
-/

namespace WalletKeys.Secp256k1

open WalletKeys.Geometry WalletKeys.Modular

/-! ## Section 1: The point above an abscissa -/

/-- The only candidate for a root of a square is one. -/
theorem root_sq {a y : ZMod fieldPrime} (h : y ^ 2 = a) :
    (a ^ ((fieldPrime + 1) / 4)) ^ 2 = a := by
  have hexp : 2 * ((fieldPrime + 1) / 4 * 2) = fieldPrime + 1 := by decide
  rw [← h, ← pow_mul, ← pow_mul, hexp, pow_succ, ZMod.pow_card, pow_two]

/-- Points with one abscissa and ordinates of one parity are equal. -/
theorem eq_of_onCurve {u v : Affine} (hu : OnCurve u) (hv : OnCurve v) (hx : u.x = v.x)
    (hy : u.y % 2 = v.y % 2) : u = v := by
  obtain ⟨P, hP⟩ := onCurve_iff.mp hu
  obtain ⟨Q, hQ⟩ := onCurve_iff.mp hv
  obtain rfl := eq_of_abscissa_of_parity (by decide) hP hQ hx hy
  exact Option.some.inj (hP.symm.trans hQ)

/-- The number whose root is sought stands for the residue of the cubic. -/
theorem square_cast (x : Int) :
    (((x * x * x + 7) % fieldPrime : Int) : ZMod fieldPrime) = (x : ZMod fieldPrime) ^ 3 + 7 := by
  rw [ZMod.intCast_mod]
  push_cast
  ring

/-- What is lifted lies on the curve, above the abscissa and with the parity. -/
theorem onCurve_of_lift {x odd : Int} (hodd : odd = 0 ∨ odd = 1) {q : Affine}
    (h : lift x odd = .ok q) : q.x = x ∧ q.y % 2 = odd ∧ OnCurve q := by
  unfold lift at h
  split at h
  · exact absurd h (by simp)
  rename_i hx
  rw [not_not] at hx
  dsimp only at h
  split at h
  · exact absurd h (by simp)
  rename_i hroot
  rw [not_not] at hroot
  obtain ⟨hnonneg, hlt⟩ := power_range ((x * x * x + 7) % fieldPrime) ((fieldPrime + 1) / 4)
    (m := fieldPrime) (by decide)
  generalize power ((x * x * x + 7) % fieldPrime) ((fieldPrime + 1) / 4) fieldPrime = root at *
  have hsq : (root : ZMod fieldPrime) ^ 2 = (x : ZMod fieldPrime) ^ 3 + 7 := by
    rw [← square_cast, ← hroot, ZMod.intCast_mod, Int.cast_mul, pow_two]
  -- A root of zero would have no counterpart of the other parity.
  have hne : root ≠ 0 := by
    rintro rfl
    apply abscissa_ne_root (x : ZMod fieldPrime)
    push_cast at hsq ⊢
    rw [zero_mul, add_zero, ← hsq, zero_pow two_ne_zero]
  obtain rfl := Except.ok.inj h
  -- The prime is odd, so the opposite root has the other parity.
  have hprime : (fieldPrime : Int) % 2 = 1 := by decide
  refine ⟨rfl, ?_, hx, ?_, (equation_iff _).mpr ?_⟩
  · dsimp only
    split <;> omega
  · dsimp only
    split <;> omega
  · have hpm : ((if root % 2 ≠ odd then fieldPrime - root else root : Int) : ZMod fieldPrime) ^ 2 =
        (root : ZMod fieldPrime) ^ 2 := by
      split
      · rw [Int.cast_sub, Int.cast_natCast, ZMod.natCast_self, zero_sub, neg_sq]
      · rfl
    rw [hpm, hsq]
    push_cast
    ring

/-- Above the abscissa of a point there is something to lift. -/
theorem exists_lift {q : Affine} (hq : OnCurve q) (odd : Int) : ∃ q', lift q.x odd = .ok q' := by
  obtain ⟨hx, _, heq⟩ := hq
  rw [lift, if_neg (not_not.mpr hx)]
  dsimp only
  rw [if_neg]
  · exact ⟨_, rfl⟩
  · have hsq := (equation_iff q).mp heq
    push_cast at hsq
    rw [zero_mul, add_zero, ← square_cast] at hsq
    have hroot := root_sq hsq
    rw [← power_cast, pow_two, ← Int.cast_mul, ZMod.intCast_eq_intCast_iff'] at hroot
    rw [not_not, hroot, Int.emod_emod]

theorem lift_eq_ok_iff {x odd : Int} (hodd : odd = 0 ∨ odd = 1) {q : Affine} :
    lift x odd = .ok q ↔ q.x = x ∧ q.y % 2 = odd ∧ OnCurve q := by
  constructor
  · exact onCurve_of_lift hodd
  · intro h
    obtain ⟨rfl, hy, hq⟩ := h
    -- What is lifted has the abscissa and the parity of `q`, so it is `q`.
    obtain ⟨q', h⟩ := exists_lift hq odd
    obtain ⟨hx', hy', hq'⟩ := onCurve_of_lift hodd h
    rw [h, eq_of_onCurve hq' hq hx' (hy'.trans hy.symm)]

/-- Nothing is lifted from a bad value. -/
theorem category_of_lift {x odd : Int} {fault : CurveFault} (h : lift x odd = .error fault) :
    fault.category = .value := by
  unfold lift at h
  split at h
  · cases h
    rfl
  · dsimp only at h
    split at h
    · cases h
      rfl
    · cases h

/-- From a reduced abscissa nothing is lifted only if no point lies above it. -/
theorem lift_eq_error {x odd : Int} {fault : CurveFault} (hx : 0 ≤ x ∧ x < fieldPrime)
    (h : lift x odd = .error fault) : fault = .abscissaOffCurve := by
  rw [lift, if_neg (not_not_intro hx)] at h
  dsimp only at h
  split at h
  · exact (Except.error.inj h).symm
  · cases h

/-! ## Section 2: Codes -/

/-- The leading octet of a compressed code. -/
def parityOctet (p : Affine) : UInt8 := if p.y % 2 = 1 then 3 else 2

theorem parityOctet_toNat (p : Affine) : ((parityOctet p).toNat % 2 : Nat) = p.y % 2 := by
  unfold parityOctet
  by_cases h : p.y % 2 = 1
  · rw [if_pos h, h]
    rfl
  · rw [if_neg h]
    have hzero : p.y % 2 = 0 := by omega
    rw [hzero]
    rfl

theorem encode_compressed_eq_ok_iff {p : Affine} {code : Octets} :
    encode .compressed p = .ok code ↔
      ∃ x : Octets, (x.length = 32 ∧ p.x = x.toNat) ∧ code = parityOctet p :: x := by
  rw [encode, bind_eq_ok_iff]
  simp only [FixedWidth.write_eq_ok_iff, pure_eq_ok, Except.ok.injEq, eq_comm (a := _ :: _)]
  rfl

theorem encode_uncompressed_eq_ok_iff {p : Affine} {code : Octets} :
    encode .uncompressed p = .ok code ↔
      ∃ x y : Octets, (x.length = 32 ∧ p.x = x.toNat) ∧ (y.length = 32 ∧ p.y = y.toNat) ∧
        code = 4 :: (x ++ y) := by
  rw [encode, bind_eq_ok_iff]
  simp only [bind_eq_ok_iff, FixedWidth.write_eq_ok_iff, pure_eq_ok, Except.ok.injEq,
    eq_comm (a := _ :: _), ← exists_and_left]

/-- A code has the length of its form. -/
theorem length_of_encode {form : Form} {p : Affine} {code : Octets}
    (h : encode form p = .ok code) : code.length = form.length := by
  cases form with
  | compressed =>
    obtain ⟨x, ⟨hx, _⟩, rfl⟩ := encode_compressed_eq_ok_iff.mp h
    rw [List.length_cons, hx]
    rfl
  | uncompressed =>
    obtain ⟨x, y, ⟨hx, _⟩, ⟨hy, _⟩, rfl⟩ := encode_uncompressed_eq_ok_iff.mp h
    rw [List.length_cons, List.length_append, hx, hy]
    rfl

/-- A point of the curve has a code of each form. -/
theorem exists_encode (form : Form) {p : Affine} (hp : OnCurve p) :
    ∃ code, encode form p = .ok code := by
  obtain ⟨⟨hx, hxp⟩, ⟨hy, hyp⟩, _⟩ := hp
  have hfit : (fieldPrime : Int) < 256 ^ 32 := by decide
  obtain ⟨x, hxw, _⟩ := FixedWidth.write_of_lt 32 ⟨hx, hxp.trans hfit⟩
  obtain ⟨y, hyw, _⟩ := FixedWidth.write_of_lt 32 ⟨hy, hyp.trans hfit⟩
  cases form with
  | compressed => exact ⟨_, by rw [encode, hxw, ok_bind]; rfl⟩
  | uncompressed => exact ⟨_, by rw [encode, hxw, hyw, ok_bind, ok_bind]; rfl⟩

/-- A code of a point of the curve is read as that point. -/
theorem decode_of_encode {form : Form} {p : Affine} (hp : OnCurve p) {code : Octets}
    (h : encode form p = .ok code) : decode code = .ok p := by
  cases form with
  | compressed =>
    obtain ⟨x, ⟨hlength, hx⟩, rfl⟩ := encode_compressed_eq_ok_iff.mp h
    have hlead : parityOctet p = 2 ∨ parityOctet p = 3 := by
      unfold parityOctet
      split
      · exact .inr rfl
      · exact .inl rfl
    rw [decode, if_pos ⟨hlength, hlead⟩, parityOctet_toNat,
      lift_eq_ok_iff (Int.emod_two_eq_zero_or_one p.y)]
    exact ⟨hx, rfl, hp⟩
  | uncompressed =>
    obtain ⟨x, y, ⟨hxlength, hx⟩, ⟨hylength, hy⟩, rfl⟩ := encode_uncompressed_eq_ok_iff.mp h
    have hlength : (x ++ y).length = 64 := by rw [List.length_append, hxlength, hylength]
    rw [decode, if_neg (by omega), if_pos ⟨hlength, rfl⟩]
    dsimp only
    rw [List.take_left' hxlength, List.drop_left' hxlength, ← hx, ← hy, if_pos hp]

/-- What is read is a point of the curve, and the octets are one of its codes. -/
theorem encode_of_decode {p : Affine} {code : Octets} (h : decode code = .ok p) :
    OnCurve p ∧ ∃ form, encode form p = .ok code := by
  cases code with
  | nil => cases h
  | cons lead body =>
    rw [decode] at h
    split at h
    · rename_i hshape
      -- A leading octet 2 or 3 is even or odd as the ordinate is.
      have hodd : ((lead.toNat % 2 : Nat) : Int) = 0 ∨ ((lead.toNat % 2 : Nat) : Int) = 1 := by
        omega
      obtain ⟨hx, hy, hp⟩ := (lift_eq_ok_iff hodd).mp h
      refine ⟨hp, .compressed, encode_compressed_eq_ok_iff.mpr ⟨body, ⟨hshape.1, hx⟩, ?_⟩⟩
      rcases hshape.2 with rfl | rfl
      · rw [parityOctet, if_neg]
        rw [hy]
        decide
      · rw [parityOctet, if_pos]
        rw [hy]
        decide
    · split at h
      · rename_i hshape
        dsimp only at h
        split at h
        · rename_i hp
          obtain rfl := Except.ok.inj h
          refine ⟨hp, .uncompressed, encode_uncompressed_eq_ok_iff.mpr
            ⟨body.take 32, body.drop 32, ⟨?_, rfl⟩, ⟨?_, rfl⟩, ?_⟩⟩
          · rw [List.length_take, hshape.1]
            rfl
          · rw [List.length_drop, hshape.1]
          · rw [List.take_append_drop, hshape.2]
        · cases h
      · cases h

/-- Reading accepts the codes of points of the curve and nothing else. -/
theorem decode_eq_ok_iff {p : Affine} {code : Octets} :
    decode code = .ok p ↔ OnCurve p ∧ ∃ form, encode form p = .ok code := by
  constructor
  · exact encode_of_decode
  · intro hall
    obtain ⟨hp, form, h⟩ := hall
    exact decode_of_encode hp h

/-- Nothing is read from a bad value. -/
theorem category_of_decode {code : Octets} {fault : CurveFault}
    (h : decode code = .error fault) : fault.category = .value := by
  cases code with
  | nil =>
    cases h
    rfl
  | cons lead body =>
    rw [decode] at h
    split at h
    · exact category_of_lift h
    · split at h
      · dsimp only at h
        split at h
        · cases h
        · cases h
          rfl
      · cases h
        rfl

/-! ## Section 3: The rule of the format -/

/-- The octets are the code of a point in a form: a leading octet that tells the form
    and, for an ordinate that is left out, its parity, and then 32 octets for each
    coordinate that is kept. -/
inductive IsCode (p : Affine) : Form → Octets → Prop
  | compressed (x : Octets) (hlength : x.length = 32) (hx : p.x = x.toNat) :
      IsCode p .compressed (parityOctet p :: x)
  | uncompressed (x y : Octets) (hxlength : x.length = 32) (hx : p.x = x.toNat)
      (hylength : y.length = 32) (hy : p.y = y.toNat) : IsCode p .uncompressed (4 :: (x ++ y))

/-- Writing follows the rule, for any pair of coordinates that fit. -/
theorem encode_eq_ok_iff {form : Form} {p : Affine} {code : Octets} :
    encode form p = .ok code ↔ IsCode p form code := by
  constructor
  · intro h
    cases form with
    | compressed =>
      obtain ⟨x, ⟨hlength, hx⟩, rfl⟩ := encode_compressed_eq_ok_iff.mp h
      exact .compressed x hlength hx
    | uncompressed =>
      obtain ⟨x, y, ⟨hxlength, hx⟩, ⟨hylength, hy⟩, rfl⟩ := encode_uncompressed_eq_ok_iff.mp h
      exact .uncompressed x y hxlength hx hylength hy
  · intro h
    cases h with
    | compressed x hlength hx => exact encode_compressed_eq_ok_iff.mpr ⟨x, ⟨hlength, hx⟩, rfl⟩
    | uncompressed x y hxlength hx hylength hy =>
      exact encode_uncompressed_eq_ok_iff.mpr ⟨x, y, ⟨hxlength, hx⟩, ⟨hylength, hy⟩, rfl⟩

/-- The length of a code tells its form. -/
theorem IsCode.length_eq {form : Form} {p : Affine} {code : Octets} (h : IsCode p form code) :
    code.length = form.length :=
  length_of_encode (encode_eq_ok_iff.mpr h)

theorem Form.eq_of_length_eq {form form' : Form} (h : form.length = form'.length) :
    form = form' := by
  cases form with
  | compressed =>
    cases form' with
    | compressed => rfl
    | uncompressed => exact absurd h (by decide)
  | uncompressed =>
    cases form' with
    | compressed => exact absurd h (by decide)
    | uncompressed => rfl

/-- Reading finds the point of a code by the rule of the format. -/
theorem decode_eq_ok_iff_isCode {p : Affine} {code : Octets} :
    decode code = .ok p ↔ OnCurve p ∧ ∃ form, IsCode p form code := by
  simp only [decode_eq_ok_iff, encode_eq_ok_iff]

end WalletKeys.Secp256k1
