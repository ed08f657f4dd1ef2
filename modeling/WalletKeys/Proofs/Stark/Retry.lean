import WalletKeys.Key.Outcome
import WalletKeys.Proofs.Stark.Nonce

/-! # The retry loop on the STARK curve

    `Loops` is what a signer does, told without positions and limits: it holds a seed,
    asks for a nonce with it, and goes on with the next seed as long as nonces are turned
    down, with a line in the log for each. A nonce that the order divides is a fault, and
    so is whatever the supply of nonces itself is refused for.

    The search that the signer runs counts positions instead, and gives up at a limit.
    Its seeds by position are the seeds of the loop, so a search that is not given up
    takes the course of the loop (`loops_of_search`), and a loop that ends is followed by
    every search whose limit it stays below (`search_of_loops`).

    The supply may answer in any way. What it answers with derived nonces is never a
    multiple of the order, and the fault cannot come up.
-/

namespace WalletKeys.Stark

open WalletKeys.Nonce

/-! ## Section 1: The loop -/

/-- The seed of a retry, from the seed before. -/
def nextSeed : Option Int → Option Int
  | none => some 1
  | some seed => some (seed + 1)

/-- The line that is logged when a nonce is turned down. -/
noncomputable def rejectionLine (k : Int) : String :=
  if Usable (firstScalar k) then
    "DEBUG curvekeys.curves.stark: stark_sign: nonce gives unusable s, reseeding"
  else "DEBUG curvekeys.curves.stark: stark_sign: nonce gives unusable r, reseeding"

/-- What is seen of a signer. -/
structure Course where
  /-- The seeds that nonces were asked for with. -/
  asked : List (Option Int)
  /-- The lines in the log. -/
  lines : List String
  result : Except CurveFault Signature

/-- The course of a signer with the scalar `d` over `hash`, from its call number `call` on,
    for which it holds `seed`. The answer to a call may depend on both. -/
inductive Loops (generate : Nat → Option Int → Except CurveFault Int) (d hash : Int) :
    Nat → Option Int → Course → Prop where
  /-- There is no nonce. -/
  | refused {call : Nat} {seed : Option Int} {fault : CurveFault}
      (answer : generate call seed = .error fault) :
      Loops generate d hash call seed ⟨[seed], [], .error fault⟩
  /-- The nonce is a multiple of the order. -/
  | multiple {call : Nat} {seed : Option Int} {k : Int} (answer : generate call seed = .ok k)
      (hk : (order : Int) ∣ k) :
      Loops generate d hash call seed ⟨[seed], [], .error .nonceMultiple⟩
  /-- The nonce makes a signature. -/
  | signed {call : Nat} {seed : Option Int} {k : Int} (answer : generate call seed = .ok k)
      (hk : Accepted d hash k) :
      Loops generate d hash call seed ⟨[seed], [], .ok (signature d hash k)⟩
  /-- The nonce is turned down, and the next seed is tried. -/
  | reseeded {call : Nat} {seed : Option Int} {k : Int} {rest : Course}
      (answer : generate call seed = .ok k) (hk : Rejected d hash k)
      (next : Loops generate d hash (call + 1) (nextSeed seed) rest) :
      Loops generate d hash call seed
        ⟨seed :: rest.asked, rejectionLine k :: rest.lines, rest.result⟩

/-! ## Section 2: The search takes the course of the loop -/

/-- The nonces that are answered to the successive seeds. -/
def supply (generate : Nat → Option Int → Except CurveFault Int) (limit : Nat) : Source where
  nonce i := generate i (seedAt i)
  limit := limit

/-- What is seen of a search from position `i` on. -/
def courseFrom (i : Nat) (run : Run Rejection Signature) : Course where
  asked := (List.range' i run.used).map seedAt
  lines := run.rejections.map fun reason => (LogEvent.reseeded reason).line
  result := run.result

variable {generate : Nat → Option Int → Except CurveFault Int} {d hash k : Int}

theorem nextSeed_seedAt (i : Nat) : nextSeed (seedAt i) = seedAt (i + 1) := by
  cases i with
  | zero => rfl
  | succ i =>
    show some ((i + 1 : Nat) + 1 : Int) = some ((i + 1 + 1 : Nat) : Int)
    rw [Nat.cast_succ (i + 1)]

theorem line_rejection (k : Int) : (LogEvent.reseeded (rejection k)).line = rejectionLine k := by
  unfold rejection rejectionLine
  split
  · decide
  · decide

/-- The course of a search that turns its first nonce down. -/
theorem courseFrom_after (i : Nat) (k : Int) (rest : Run Rejection Signature) :
    courseFrom i (Run.after [rejection k] rest) =
      ⟨seedAt i :: (courseFrom (i + 1) rest).asked,
        rejectionLine k :: (courseFrom (i + 1) rest).lines, rest.result⟩ := by
  rw [← line_rejection k]
  rfl

/-! ### What is made of an answer -/

section Answers

variable {call : Nat} {seed : Option Int} {fault : CurveFault}

theorem answer_refused (answer : generate call seed = .error fault) :
    generate call seed >>= judge d hash = .error fault := by
  rw [answer, error_bind]

theorem answer_of_dvd (answer : generate call seed = .ok k) (hk : (order : Int) ∣ k) :
    generate call seed >>= judge d hash = .error .nonceMultiple := by
  rw [answer, ok_bind, judge_of_dvd hk]

theorem answer_of_rejected (answer : generate call seed = .ok k) (hk : Rejected d hash k) :
    generate call seed >>= judge d hash = .ok (.rejected (rejection k)) := by
  rw [answer, ok_bind, judge_of_rejected hk]

theorem answer_of_accepted (answer : generate call seed = .ok k) (hk : Accepted d hash k) :
    generate call seed >>= judge d hash = .ok (.accepted (signature d hash k)) := by
  rw [answer, ok_bind, judge_of_accepted hk]

end Answers

/-! ### Both directions -/

/-- A search takes the course of the loop, unless it was given up because all its nonces
    were turned down. -/
theorem loops_of_search (generate : Nat → Option Int → Except CurveFault Int) (d hash : Int)
    (limit i : Nat) :
    let run := searchFrom (fun j => generate j (seedAt j)) (judge d hash) limit i
    Loops generate d hash i (seedAt i) (courseFrom i run) ∨
      run.result = .error .undecided ∧ run.rejections.length = limit ∧
        ∀ j < limit, ∃ k, generate (i + j) (seedAt (i + j)) = .ok k ∧ Rejected d hash k := by
  induction limit generalizing i with
  | zero => exact .inr ⟨rfl, rfl, fun j hj => absurd hj (Nat.not_lt_zero j)⟩
  | succ limit ih =>
    dsimp only
    cases answer : generate i (seedAt i) with
    | error fault =>
      rw [searchFrom_of_error (answer_refused answer)]
      exact .inl (.refused answer)
    | ok k =>
      rcases nonce_trichotomy d hash k with hdvd | hrejected | haccepted
      · rw [searchFrom_of_error (answer_of_dvd answer hdvd)]
        exact .inl (.multiple answer hdvd)
      · rw [searchFrom_of_rejected (answer_of_rejected answer hrejected), courseFrom_after]
        rcases ih (i + 1) with hloops | ⟨hresult, hlength, hall⟩
        · rw [← nextSeed_seedAt] at hloops
          exact .inl (.reseeded answer hrejected hloops)
        · -- All later nonces were turned down, and with this one all from `i` on.
          refine .inr ⟨hresult, congrArg (· + 1) hlength, ?_⟩
          intro j hj
          cases j with
          | zero => exact ⟨k, answer, hrejected⟩
          | succ j =>
            rw [show i + (j + 1) = i + 1 + j by omega]
            exact hall j (by omega)
      · rw [searchFrom_of_accepted (answer_of_accepted answer haccepted)]
        exact .inl (.signed answer haccepted)

/-- A search that stops at its first nonce has asked for that one only. -/
theorem courseFrom_of_stop {i limit : Nat} {result : Except CurveFault Signature}
    (hstop : ∀ rest, searchFrom (fun j => generate j (seedAt j)) (judge d hash) (rest + 1) i =
      ⟨[], result⟩) (hlimit : 1 ≤ limit) :
    courseFrom i (searchFrom (fun j => generate j (seedAt j)) (judge d hash) limit i) =
      ⟨[seedAt i], [], result⟩ := by
  obtain ⟨rest, rfl⟩ := Nat.exists_eq_add_of_le' hlimit
  rw [hstop]
  rfl

/-- A loop that ends is followed by each search that looks far enough. -/
theorem search_of_loops {i : Nat} {seed : Option Int} {course : Course}
    (h : Loops generate d hash i seed course) (hseed : seed = seedAt i) {limit : Nat}
    (hlimit : course.asked.length ≤ limit) :
    courseFrom i (searchFrom (fun j => generate j (seedAt j)) (judge d hash) limit i) = course := by
  induction h generalizing limit with
  | refused answer =>
    subst hseed
    exact courseFrom_of_stop (fun _ => searchFrom_of_error (answer_refused answer)) hlimit
  | multiple answer hk =>
    subst hseed
    exact courseFrom_of_stop (fun _ => searchFrom_of_error (answer_of_dvd answer hk)) hlimit
  | signed answer hk =>
    subst hseed
    exact courseFrom_of_stop (fun _ => searchFrom_of_accepted (answer_of_accepted answer hk)) hlimit
  | reseeded answer hk _ ih =>
    -- The rest of the loop goes on with the seed of the next position.
    subst hseed
    rw [List.length_cons] at hlimit
    obtain ⟨limit, rfl⟩ := Nat.exists_eq_add_of_le' (Nat.le_of_add_left_le hlimit)
    have hrest := ih (nextSeed_seedAt _) (Nat.le_of_succ_le_succ hlimit)
    rw [searchFrom_of_rejected (answer_of_rejected answer hk), courseFrom_after, ← hrest]
    rfl

/-! ## Section 3: Sequences of nonces -/

variable {nonces : Nat → Int} {limit i : Nat}

/-- Within a limit all nonces are turned down, or there is a first one that is not. -/
theorem settled_cases (d hash : Int) (nonces : Nat → Int) (limit : Nat) :
    (∀ i < limit, Rejected d hash (nonces i)) ∨
      ∃ i < limit, (∀ j < i, Rejected d hash (nonces j)) ∧
        ((order : Int) ∣ nonces i ∨ Accepted d hash (nonces i)) := by
  induction limit with
  | zero => exact .inl fun i hi => absurd hi (Nat.not_lt_zero i)
  | succ limit ih =>
    rcases ih with hall | ⟨i, hi, hbefore, hsettled⟩
    · -- Nothing is settled before the last position, so the nonce there decides.
      rcases nonce_trichotomy d hash (nonces limit) with hdvd | hrejected | haccepted
      · exact .inr ⟨limit, limit.lt_succ_self, hall, .inl hdvd⟩
      · refine .inl fun i hi => ?_
        rcases Nat.lt_succ_iff_lt_or_eq.mp hi with hi | rfl
        · exact hall i hi
        · exact hrejected
      · exact .inr ⟨limit, limit.lt_succ_self, hall, .inr haccepted⟩
    · exact .inr ⟨i, hi.trans limit.lt_succ_self, hbefore, hsettled⟩

/-- Nonces at the front that are turned down are passed over. -/
theorem search_pass {count : Nat} (h : ∀ j < count, Rejected d hash (nonces j)) (limit : Nat) :
    (supply (fun i _ => .ok (nonces i)) (count + limit)).search (judge d hash) =
      Run.after ((List.range count).map fun j => rejection (nonces j))
        (searchFrom (fun j => .ok (nonces j)) (judge d hash) limit count) := by
  calc (supply (fun i _ => .ok (nonces i)) (count + limit)).search (judge d hash)
      = Run.after ((List.range' 0 count).map fun j => rejection (nonces j))
          (searchFrom (fun j => .ok (nonces j)) (judge d hash) limit (0 + count)) := by
        apply searchFrom_pass
        intro j hj
        rw [Nat.zero_add]
        exact judge_of_rejected (h j hj)
    _ = Run.after ((List.range count).map fun j => rejection (nonces j))
          (searchFrom (fun j => .ok (nonces j)) (judge d hash) limit count) := by
        rw [Nat.zero_add, ← List.range_eq_range']

/-- A search that turns down all nonces within its limit is given up. -/
theorem search_of_all_rejected (h : ∀ j < limit, Rejected d hash (nonces j)) :
    ((supply (fun i _ => .ok (nonces i)) limit).search (judge d hash)).result =
      .error .undecided := by
  have hpass := search_pass h 0
  rw [Nat.add_zero] at hpass
  rw [hpass]
  rfl

/-- The first nonce that is not turned down settles the search. -/
theorem search_of_first {result : Except CurveFault Signature} (hi : i < limit)
    (hbefore : ∀ j < i, Rejected d hash (nonces j))
    (hjudge : ∀ rest, searchFrom (fun j => .ok (nonces j)) (judge d hash) (rest + 1) i =
      ⟨[], result⟩) :
    ((supply (fun i _ => .ok (nonces i)) limit).search (judge d hash)).result = result := by
  obtain ⟨rest, rfl⟩ := Nat.exists_eq_add_of_lt hi
  rw [Nat.add_assoc, search_pass hbefore, hjudge]
  rfl

theorem search_of_first_multiple (hi : i < limit) (hbefore : ∀ j < i, Rejected d hash (nonces j))
    (hk : (order : Int) ∣ nonces i) :
    ((supply (fun i _ => .ok (nonces i)) limit).search (judge d hash)).result =
      .error .nonceMultiple :=
  search_of_first hi hbefore fun _ => searchFrom_of_error (judge_of_dvd hk)

theorem search_of_first_accepted (hi : i < limit) (hbefore : ∀ j < i, Rejected d hash (nonces j))
    (hk : Accepted d hash (nonces i)) :
    ((supply (fun i _ => .ok (nonces i)) limit).search (judge d hash)).result =
      .ok (signature d hash (nonces i)) :=
  search_of_first hi hbefore fun _ => searchFrom_of_accepted (judge_of_accepted hk)

/-- What a search through a sequence of nonces ends with. -/
theorem search_result_cases (d hash : Int) (nonces : Nat → Int) (limit : Nat) :
    let result := ((supply (fun i _ => .ok (nonces i)) limit).search (judge d hash)).result
    (result = .error .undecided ∧ ∀ i < limit, Rejected d hash (nonces i)) ∨
      ∃ i < limit, (∀ j < i, Rejected d hash (nonces j)) ∧
        (result = .error .nonceMultiple ∧ (order : Int) ∣ nonces i ∨
          result = .ok (signature d hash (nonces i)) ∧ Accepted d hash (nonces i)) := by
  rcases settled_cases d hash nonces limit with hall | ⟨i, hi, hbefore, hdvd | haccepted⟩
  · exact .inl ⟨search_of_all_rejected hall, hall⟩
  · exact .inr ⟨i, hi, hbefore, .inl ⟨search_of_first_multiple hi hbefore hdvd, hdvd⟩⟩
  · exact .inr ⟨i, hi, hbefore, .inr ⟨search_of_first_accepted hi hbefore haccepted, haccepted⟩⟩

/-- A signature comes from the first nonce that is accepted, and there is one if no
    multiple of the order comes up before. -/
theorem search_eq_ok_iff {σ : Signature} :
    ((supply (fun i _ => .ok (nonces i)) limit).search (judge d hash)).result = .ok σ ↔
      ∃ i < limit, Accepted d hash (nonces i) ∧ (∀ j < i, Rejected d hash (nonces j)) ∧
        σ = signature d hash (nonces i) := by
  constructor
  · intro h
    rcases search_result_cases d hash nonces limit with
      ⟨hresult, _⟩ | ⟨i, hi, hbefore, ⟨hresult, _⟩ | ⟨hresult, haccepted⟩⟩
    · cases hresult.symm.trans h
    · cases hresult.symm.trans h
    · cases hresult.symm.trans h
      exact ⟨i, hi, haccepted, hbefore, rfl⟩
  · rintro ⟨i, hi, haccepted, hbefore, rfl⟩
    exact search_of_first_accepted hi hbefore haccepted

/-- The fault comes up exactly if a multiple of the order is met before any nonce is
    accepted. -/
theorem search_eq_multiple_iff :
    ((supply (fun i _ => .ok (nonces i)) limit).search (judge d hash)).result =
        .error .nonceMultiple ↔
      ∃ i < limit, (order : Int) ∣ nonces i ∧ ∀ j < i, ¬Accepted d hash (nonces j) := by
  constructor
  · intro h
    rcases search_result_cases d hash nonces limit with
      ⟨hresult, _⟩ | ⟨i, hi, hbefore, ⟨_, hdvd⟩ | ⟨hresult, _⟩⟩
    · cases hresult.symm.trans h
    · exact ⟨i, hi, hdvd, fun j hj => (hbefore j hj).not_accepted⟩
    · cases hresult.symm.trans h
  · rintro ⟨i, hi, hdvd, hnone⟩
    -- The first nonce that is not turned down may be an earlier one than this multiple.
    rcases settled_cases d hash nonces i with hall | ⟨j, hj, hbefore, hdvd' | haccepted⟩
    · exact search_of_first_multiple hi hall hdvd
    · exact search_of_first_multiple (hj.trans hi) hbefore hdvd'
    · exact absurd haccepted (hnone j hj)

/-! ## Section 4: The signer -/

/-- A signer asks for nonces with the seeds none, 1, 2, … and logs one line for each that
    it turns down. It returns the signature of the first one that is accepted, and ends
    with a fault exactly if a multiple of the order comes up before. Derived nonces,
    under any code, never lead to that fault. -/
theorem sign_takes_loop {secret : Int} (hsecret : ¬(order : Int) ∣ secret)
    (hhash : 0 ≤ hash ∧ hash < bound) :
    (∀ generate course, Loops generate (secret % order) hash 0 none course →
      ∀ limit, course.asked.length ≤ limit →
        courseFrom 0 (sign (supply generate limit) secret hash) = course) ∧
    (∀ generate limit, let run := sign (supply generate limit) secret hash
      Loops generate (secret % order) hash 0 none (courseFrom 0 run) ∨
        run.result = .error .undecided ∧ run.rejections.length = limit ∧
          ∀ i < limit, ∃ k, generate i (seedAt i) = .ok k ∧ Rejected (secret % order) hash k) ∧
    (∀ (nonces : Nat → Int) (limit : Nat),
      let result := (sign (supply (fun i _ => .ok (nonces i)) limit) secret hash).result
      (∀ σ, result = .ok σ ↔ ∃ i < limit, Accepted (secret % order) hash (nonces i) ∧
        (∀ j < i, Rejected (secret % order) hash (nonces j)) ∧
          σ = signature (secret % order) hash (nonces i)) ∧
      (result = .error .nonceMultiple ↔ ∃ i < limit, (order : Int) ∣ nonces i ∧
        ∀ j < i, ¬Accepted (secret % order) hash (nonces j)) ∧
      (∀ fault, result = .error fault → fault = .nonceMultiple ∨
        fault = .undecided ∧ ∀ i < limit, Rejected (secret % order) hash (nonces i))) ∧
    (0 ≤ secret ∧ secret < 2 ^ 256 → ∀ derivation,
      let generate : Nat → Option Int → Except CurveFault Int :=
        fun _ seed => (nonce derivation secret hash seed).map Int.ofNat
      signDerived derivation secret hash = sign (supply generate derivation.limit) secret hash ∧
        ((∃ σ, (signDerived derivation secret hash).result = .ok σ) ∨
          (signDerived derivation secret hash).result = .error .undecided)) ∧
    CurveFault.nonceMultiple.category = .assertion := by
  have hne := mt Int.dvd_of_emod_eq_zero hsecret
  have hsign := sign_eq_search hne hhash
  refine ⟨?_, ?_, ?_, ?_, rfl⟩
  · intro generate course hloops limit hlimit
    rw [hsign]
    exact search_of_loops hloops rfl hlimit
  · intro generate limit
    have hsearch := loops_of_search generate (secret % order) hash limit 0
    simp only [Nat.zero_add] at hsearch
    rw [hsign]
    exact hsearch
  · intro nonces limit
    rw [hsign]
    refine ⟨fun σ => search_eq_ok_iff, search_eq_multiple_iff, ?_⟩
    intro fault hfault
    rcases search_result_cases (secret % order) hash nonces limit with
      ⟨hresult, hall⟩ | ⟨i, _, _, ⟨hresult, _⟩ | ⟨hresult, _⟩⟩
    · cases hresult.symm.trans hfault
      exact .inr ⟨rfl, hall⟩
    · cases hresult.symm.trans hfault
      exact .inl rfl
    · cases hresult.symm.trans hfault
  · intro hrange derivation
    exact ⟨rfl, signDerived_cases hrange hne hhash derivation⟩

/-- The first nonce leads to a second scalar of zero here, and the second one is taken. The
    secret is beyond the order, and may be signed with by derived nonces as well. -/
theorem sign_takes_loop_second_nonce :
    let secret : Int := order + 5
    let hash : Int := 0x654933864000c98945f5db93cbb4c1815a130d45456e303099210c86d398b6c
    let σ : Signature :=
      ⟨0x759ca09377679ecd535a81e83039658bf40959283187c654c5416f439403cf5,
        0x18ac2b33ca836f1df35d328e5e69dea9e2f6045f6a56b01779aac22934d9d25⟩;
    ¬(order : Int) ∣ secret ∧ (0 ≤ hash ∧ hash < bound) ∧
      Loops (fun i _ => .ok (i + 1)) (secret % order) hash 0 none
        ⟨[none, some 1],
          ["DEBUG curvekeys.curves.stark: stark_sign: nonce gives unusable s, reseeding"],
          .ok σ⟩ ∧
      ∀ derivation, (∃ σ, (signDerived derivation secret hash).result = .ok σ) ∨
        (signDerived derivation secret hash).result = .error .undecided := by
  intro secret hash σ
  have hsecret : ¬(order : Int) ∣ secret := by decide
  have hhash : 0 ≤ hash ∧ hash < bound := by decide
  have hresult : (sign (supply (fun i _ => .ok (i + 1)) 2) secret hash).result = .ok σ := by
    decide +kernel
  have hrejections :
      (sign (supply (fun i _ => .ok (i + 1)) 2) secret hash).rejections = [.unusableS] := by
    decide +kernel
  obtain ⟨_, hcourse, _, hderived, _⟩ := sign_takes_loop hsecret hhash
  rcases hcourse (fun i _ => .ok (i + 1)) 2 with hloops | ⟨hundecided, _⟩
  · rw [courseFrom, Run.used, hrejections, hresult] at hloops
    exact ⟨hsecret, hhash, hloops, fun derivation => (hderived (by decide) derivation).2⟩
  · cases hundecided.symm.trans hresult

end WalletKeys.Stark
