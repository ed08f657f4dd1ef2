import WalletKeys.Proofs.Nonce.Search
import WalletKeys.Proofs.Secp256k1.Group
import WalletKeys.Secp256k1.Ecdsa

/-! # Attempts to sign on secp256k1

    What a nonce `k` leads to is fixed by the multiple `k * base`, its abscissa reduced by
    the order, and the quotient of `z + r * d` by `k`. The judgement that the signer runs
    computes just that (`judge_eq`), and it is never refused: a nonce that has no inverse
    is a multiple of the order, and those lead to the abscissa zero, which is turned down
    before an inverse is asked for.

    So a signer passes over all nonces without a signature, whatever they are, and the
    only way to fail is to run out of nonces (`sign_takes_first_usable`).
-/

namespace WalletKeys.Secp256k1

open WalletKeys.Geometry WalletKeys.Modular WalletKeys.Nonce

/-! ## Section 1: The rule -/

/-- The first scalar that a nonce leads to: the reduced abscissa of its point. -/
noncomputable def firstScalar (k : Int) : Int := (coordinates (k • base)).x % order

/-- The second scalar that a nonce leads to, of which the smaller of two is kept. -/
noncomputable def secondScalar (d z k : Int) : Int :=
  scalarQuotient order k (z + firstScalar k * d)

theorem firstScalar_range (k : Int) : 0 ≤ firstScalar k ∧ firstScalar k < order :=
  ⟨Int.emod_nonneg _ (by decide), Int.emod_lt_of_pos _ (by decide)⟩

theorem secondScalar_range (d z k : Int) :
    0 ≤ secondScalar d z k ∧ secondScalar d z k < order :=
  scalarQuotient_range order k _

/-- A nonce from which the scalar `d` makes a signature over the number `z`. -/
structure Usable (d z k : Int) : Prop where
  invertible : ¬(order : Int) ∣ k
  first : firstScalar k ≠ 0
  second : ¬(order : Int) ∣ z + firstScalar k * d

/-- The signature that a usable nonce leads to. -/
structure IsSignature (d z k : Int) (σ : Signature) : Prop where
  r_eq : σ.r = firstScalar k
  s_eq : σ.s = min (secondScalar d z k) (order - secondScalar d z k)
  idRange : 0 ≤ σ.v ∧ σ.v ≤ 3
  /-- Bit 1 of the recovery id says that the abscissa was reduced. -/
  exceeds : 2 ≤ σ.v ↔ (order : Int) ≤ (coordinates (k • base)).x
  /-- Bit 0 is the parity of the ordinate, flipped with the choice of the smaller scalar. -/
  parity : σ.v % 2 = if (order : Int) / 2 < secondScalar d z k
    then 1 - (coordinates (k • base)).y % 2 else (coordinates (k • base)).y % 2

/-- Why a nonce is turned down, if it is. -/
noncomputable def rejection (k : Int) : Rejection := if firstScalar k = 0 then .zeroR else .zeroS

/-! ## Section 2: The judgement -/

variable {d z k : Int}

/-- A multiple of the order leads to the neutral element, whose abscissa is zero. -/
theorem not_dvd_of_firstScalar (h : firstScalar k ≠ 0) : ¬(order : Int) ∣ k := by
  intro hdvd
  rw [firstScalar, (zsmul_eq_zero_iff order_nsmul_base base_ne_zero k).mpr hdvd] at h
  exact h rfl

/-- What is made of a nonce: the two scalars decide, and there are no faults. -/
theorem judge_eq (d z k : Int) :
    judge d z k = .ok (
      if firstScalar k = 0 then .rejected .zeroR
      else if secondScalar d z k = 0 then .rejected .zeroS
      else .accepted (normalized (coordinates (k • base)) (secondScalar d z k))) := by
  have hfirst : (coordinates (k • base)).x % order = firstScalar k := rfl
  rw [judge, ← coordinates_base, multiple_coordinates, ok_bind]
  dsimp only
  rw [hfirst]
  by_cases hr : firstScalar k = 0
  · rw [if_pos hr, if_pos hr, pure_eq_ok]
  · -- With a first scalar other than zero the nonce has an inverse.
    obtain ⟨t, hok, _, hinv⟩ := inverse_of_not_dvd (not_dvd_of_firstScalar hr)
    rw [if_neg hr, if_neg hr, hok, ok_bind, mul_emod_eq_scalarQuotient hinv, ← secondScalar]
    split <;> rfl

/-- No nonce leads to a fault. -/
theorem exists_judge (d z k : Int) : ∃ verdict, judge d z k = .ok verdict :=
  ⟨_, judge_eq d z k⟩

theorem secondScalar_eq_zero_iff (hk : ¬(order : Int) ∣ k) :
    secondScalar d z k = 0 ↔ (order : Int) ∣ z + firstScalar k * d :=
  scalarQuotient_eq_zero_iff hk

/-- A nonce is usable exactly if neither scalar is zero. -/
theorem usable_iff : Usable d z k ↔ firstScalar k ≠ 0 ∧ secondScalar d z k ≠ 0 := by
  constructor
  · intro h
    exact ⟨h.first, mt (secondScalar_eq_zero_iff h.invertible).mp h.second⟩
  · intro h
    have hk := not_dvd_of_firstScalar h.1
    exact ⟨hk, h.1, mt (secondScalar_eq_zero_iff hk).mpr h.2⟩

/-- The bits of a recovery id. -/
theorem recoveryId_bits (exceeds odd : Bool) :
    (0 ≤ recoveryId exceeds odd ∧ recoveryId exceeds odd ≤ 3) ∧
      (2 ≤ recoveryId exceeds odd ↔ exceeds = true) ∧
      recoveryId exceeds odd % 2 = if odd then 1 else 0 := by
  cases exceeds <;> cases odd <;> decide

/-- The smaller scalar and the recovery id are chosen as the rule says. -/
theorem isSignature_normalized (d z k : Int) :
    IsSignature d z k (normalized (coordinates (k • base)) (secondScalar d z k)) := by
  have hodd : (order : Int) % 2 = 1 := by decide
  have hparity := Int.emod_two_eq_zero_or_one (coordinates (k • base)).y
  unfold normalized
  dsimp only
  by_cases hhigh : (order : Int) / 2 < secondScalar d z k
  · have hmin : min (secondScalar d z k) (order - secondScalar d z k) =
        order - secondScalar d z k := min_eq_right (by omega)
    rw [if_pos hhigh]
    obtain ⟨hrange, hexceeds, hbit⟩ := recoveryId_bits
      (decide ((order : Int) ≤ (coordinates (k • base)).x))
      (!decide ((coordinates (k • base)).y % 2 = 1))
    refine ⟨rfl, hmin.symm, hrange, by simpa using hexceeds, ?_⟩
    rw [if_pos hhigh, hbit]
    rcases hparity with hy | hy <;> simp [hy]
  · have hmin : min (secondScalar d z k) (order - secondScalar d z k) = secondScalar d z k :=
      min_eq_left (by omega)
    rw [if_neg hhigh]
    obtain ⟨hrange, hexceeds, hbit⟩ := recoveryId_bits
      (decide ((order : Int) ≤ (coordinates (k • base)).x))
      (decide ((coordinates (k • base)).y % 2 = 1))
    refine ⟨rfl, hmin.symm, hrange, by simpa using hexceeds, ?_⟩
    rw [if_neg hhigh, hbit]
    rcases hparity with hy | hy <;> simp [hy]

/-- A usable nonce is accepted. -/
theorem judge_of_usable (h : Usable d z k) :
    ∃ σ, IsSignature d z k σ ∧ judge d z k = .ok (.accepted σ) := by
  obtain ⟨hr, hs⟩ := usable_iff.mp h
  refine ⟨_, isSignature_normalized d z k, ?_⟩
  rw [judge_eq, if_neg hr, if_neg hs]

/-- Any other nonce is turned down. -/
theorem judge_of_not_usable (h : ¬Usable d z k) :
    judge d z k = .ok (.rejected (rejection k)) := by
  rw [judge_eq, rejection]
  by_cases hr : firstScalar k = 0
  · rw [if_pos hr, if_pos hr]
  · have hs : secondScalar d z k = 0 := by
      by_contra hs
      exact h (usable_iff.mpr ⟨hr, hs⟩)
    rw [if_neg hr, if_pos hs, if_neg hr]

/-! ## Section 3: The first usable nonce -/

variable {hash : Octets}

theorem sign_of_length (hlength : hash.length = 32) (source : Source) (d : Int) :
    sign source d hash = source.search (judge d hash.toNat) := by
  rw [sign, if_neg (not_not_intro hlength)]

/-- Unusable nonces at the front of a list make no difference but for their number. -/
theorem sign_append (hlength : hash.length = 32) {before : List Int}
    (h : ∀ k ∈ before, ¬Usable d hash.toNat k) (rest : List Int) :
    sign (Source.ofList (before ++ rest)) d hash =
      Run.after (before.map rejection) (sign (Source.ofList rest) d hash) := by
  rw [sign_of_length hlength, sign_of_length hlength]
  exact Source.search_ofList_append (fun k hk => judge_of_not_usable (h k hk)) rest

theorem sign_of_usable (hlength : hash.length = 32) (h : Usable d hash.toNat k)
    (after : List Int) :
    ∃ σ, IsSignature d hash.toNat k σ ∧
      sign (Source.ofList (k :: after)) d hash = ⟨[], .ok σ⟩ := by
  obtain ⟨σ, hσ, hjudge⟩ := judge_of_usable h
  refine ⟨σ, hσ, ?_⟩
  rw [sign_of_length hlength, Source.search_ofList_of_accepted hjudge]

theorem sign_of_none_usable (hlength : hash.length = 32) {nonces : List Int}
    (h : ∀ k ∈ nonces, ¬Usable d hash.toNat k) :
    sign (Source.ofList nonces) d hash = ⟨nonces.map rejection, .error .noncesExhausted⟩ := by
  rw [← List.append_nil nonces, sign_append hlength h, sign_of_length hlength,
    Source.search_ofList_nil, Run.after, List.append_nil, List.append_nil]

/-- A list holds a first usable nonce or none. -/
theorem first_usable_cases (d z : Int) (nonces : List Int) :
    (∀ k ∈ nonces, ¬Usable d z k) ∨ ∃ before k after, nonces = before ++ k :: after ∧
      (∀ k' ∈ before, ¬Usable d z k') ∧ Usable d z k := by
  induction nonces with
  | nil => exact .inl (by simp)
  | cons k nonces ih =>
    by_cases hk : Usable d z k
    · exact .inr ⟨[], k, nonces, rfl, by simp, hk⟩
    · rcases ih with hnone | ⟨before, k', after, rfl, hbefore, hk'⟩
      · refine .inl ?_
        simp only [List.mem_cons, forall_eq_or_imp]
        exact ⟨hk, hnone⟩
      · refine .inr ⟨k :: before, k', after, rfl, ?_, hk'⟩
        simp only [List.mem_cons, forall_eq_or_imp]
        exact ⟨hk, hbefore⟩

/-- The first usable nonce of a list is taken. -/
theorem sign_of_first_usable (hlength : hash.length = 32) {before : List Int}
    (hbefore : ∀ k' ∈ before, ¬Usable d hash.toNat k') (hk : Usable d hash.toNat k)
    (after : List Int) :
    ∃ σ, IsSignature d hash.toNat k σ ∧
      sign (Source.ofList (before ++ k :: after)) d hash = ⟨before.map rejection, .ok σ⟩ := by
  obtain ⟨σ, hσ, hsign⟩ := sign_of_usable hlength hk after
  refine ⟨σ, hσ, ?_⟩
  rw [sign_append hlength hbefore, hsign, Run.after, List.append_nil]

/-- A list leads to a signature or is exhausted. -/
theorem sign_ofList_cases (hlength : hash.length = 32) (d : Int) (nonces : List Int) :
    (∃ σ, (sign (Source.ofList nonces) d hash).result = .ok σ) ∨
      (sign (Source.ofList nonces) d hash).result = .error .noncesExhausted := by
  rcases first_usable_cases d hash.toNat nonces with hnone | ⟨before, k, after, rfl, hbefore, hk⟩
  · rw [sign_of_none_usable hlength hnone]
    exact .inr rfl
  · obtain ⟨σ, _, hsign⟩ := sign_of_first_usable hlength hbefore hk after
    rw [hsign]
    exact .inl ⟨σ, rfl⟩

/-- A signer passes over the nonces of a list that are not usable and takes the first one
    that is. The signature is the one that the rule makes of it, and no later nonce is
    looked at. If no nonce is usable the list is exhausted, and nothing else can happen. -/
theorem sign_takes_first_usable (d : Int) {hash : Octets} (hlength : hash.length = 32) :
    (∀ (before : List Int) (k : Int) (after : List Int),
      (∀ k' ∈ before, ¬Usable d hash.toNat k') → Usable d hash.toNat k →
        let run := sign (Source.ofList (before ++ k :: after)) d hash
        (∃ σ, run.result = .ok σ ∧ IsSignature d hash.toNat k σ) ∧
          run.used = before.length + 1 ∧ run.rejections = before.map rejection) ∧
    (∀ nonces : List Int, (∀ k ∈ nonces, ¬Usable d hash.toNat k) →
      let run := sign (Source.ofList nonces) d hash
      run.result = .error .noncesExhausted ∧ run.rejections = nonces.map rejection) ∧
    (∀ nonces : List Int, (∃ σ, (sign (Source.ofList nonces) d hash).result = .ok σ) ∨
      (sign (Source.ofList nonces) d hash).result = .error .noncesExhausted) ∧
    CurveFault.noncesExhausted.category = .assertion ∧
      CurveFault.noncesExhausted.message = "unreachable: iter_k is infinite" := by
  refine ⟨?_, ?_, sign_ofList_cases hlength d, rfl, rfl⟩
  · intro before k after hbefore hk
    obtain ⟨σ, hσ, hsign⟩ := sign_of_first_usable hlength hbefore hk after
    rw [hsign]
    exact ⟨⟨σ, rfl, hσ⟩, by rw [Run.used, List.length_map], rfl⟩
  · intro nonces hnone
    rw [sign_of_none_usable hlength hnone]
    exact ⟨rfl, rfl⟩

/-- With this hash and scalar the nonce 1 leads to a second scalar of zero. It is passed
    over as the multiples of the order before it are, and the nonce 2 is taken. -/
theorem sign_takes_first_usable_fourth :
    let hash := Octets.ofNat 32 0x79be667ef9dcbbac55a06295ce870b07029bfcdb2dce28d959f2815b16f81798;
    hash.length = 32 ∧ (∀ k ∈ [0, -(order : Int), 1], ¬Usable (-1) hash.toNat k) ∧
      Usable (-1) hash.toNat 2 ∧
      let run := sign (Source.ofList ([0, -(order : Int), 1] ++ 2 :: [3])) (-1) hash
      (∃ σ, run.result = .ok σ ∧ IsSignature (-1) hash.toNat 2 σ) ∧ run.used = 4 := by
  intro hash
  have hlength : hash.length = 32 := Octets.length_ofNat 32 _
  have hvalue : (hash.toNat : Int) =
      0x79be667ef9dcbbac55a06295ce870b07029bfcdb2dce28d959f2815b16f81798 := by decide +kernel
  have hone : firstScalar 1 =
      0x79be667ef9dcbbac55a06295ce870b07029bfcdb2dce28d959f2815b16f81798 := by
    rw [firstScalar, one_zsmul, coordinates_base]
    decide
  have htwo : firstScalar 2 =
      0xc6047f9441ed7d6d3045406e95c07cd85c778e4b8cef3ca7abac09b95c709ee5 := by
    have hmultiple : multiple 2 generator = .ok
        ⟨0xc6047f9441ed7d6d3045406e95c07cd85c778e4b8cef3ca7abac09b95c709ee5,
          0x1ae168fea63dc339a3c58419466ceaeef7f632653266d0e1236431a950cfe52a⟩ := by
      decide +kernel
    rw [← coordinates_base, multiple_coordinates] at hmultiple
    rw [firstScalar, Except.ok.inj hmultiple]
    decide
  have hbefore : ∀ k ∈ [0, -(order : Int), 1], ¬Usable (-1) hash.toNat k := by
    simp only [List.mem_cons, List.not_mem_nil, or_false, forall_eq_or_imp, forall_eq]
    refine ⟨fun h => h.invertible (dvd_zero _), fun h => h.invertible (dvd_neg.mpr dvd_rfl), ?_⟩
    intro h
    apply h.second
    rw [hone, hvalue]
    decide
  have husable : Usable (-1) hash.toNat 2 := by
    refine ⟨by decide, ?_, ?_⟩
    · rw [htwo]
      decide
    · rw [htwo, hvalue]
      decide
  obtain ⟨hfound, _⟩ := sign_takes_first_usable (-1) hlength
  obtain ⟨hsigned, hused, _⟩ := hfound [0, -order, 1] 2 [3] hbefore husable
  exact ⟨hlength, hbefore, husable, hsigned, hused⟩

end WalletKeys.Secp256k1
