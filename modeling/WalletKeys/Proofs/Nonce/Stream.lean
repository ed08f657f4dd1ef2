import WalletKeys.Proofs.Nonce.Problem
import WalletKeys.Proofs.Nonce.Search

/-! # The stream of nonces

    A bit generator never ends by itself. Round after round it chains tags until there
    are enough octets, cuts a candidate from them and renews its state, and the nonces
    are the candidates in `[1, order)`. `Collects`, `Round` and `Rounds` say this as it
    is prescribed: the inner loop tests a length, and the outer one goes on forever.

    The generator that runs counts its tags beforehand and is stopped at a limit. It
    takes the same rounds (`round_iff`), it returns the first nonces of the stream, and
    it is stopped only after as many candidates in a row as the limit says, none of
    which was a nonce. So a limit that is large enough makes no difference
    (`firstNonces_iff_exists_limit`).
-/

namespace WalletKeys.Nonce

open WalletKeys.Hash

variable {mac : Mac} {order : Int}

/-! ## Section 1: Collected octets -/

/-- The inner loop: while there are fewer than `width` octets, the next tag is chained
    and its octets are collected. -/
inductive Collects (mac : Mac) (key : Octets) (width : Nat) :
    (octets chain : Octets) → (collected last : Octets) → Prop
  /-- There are enough octets. -/
  | enough {octets chain : Octets} (h : width ≤ octets.length) :
      Collects mac key width octets chain octets chain
  /-- One more tag is needed. -/
  | more {octets chain collected last : Octets} (h : octets.length < width)
      (rest : Collects mac key width (octets ++ mac.tag key chain) (mac.tag key chain)
        collected last) :
      Collects mac key width octets chain collected last

namespace Collects

variable {key octets chain collected last : Octets} {width : Nat}

theorem width_le (h : Collects mac key width octets chain collected last) :
    width ≤ collected.length := by
  induction h with
  | enough h => exact h
  | more _ _ ih => exact ih

/-- The loop has one course. -/
theorem unique {collected' last' : Octets} (h : Collects mac key width octets chain collected last)
    (h' : Collects mac key width octets chain collected' last') :
    collected' = collected ∧ last' = last := by
  induction h with
  | enough henough =>
    cases h' with
    | enough _ => exact ⟨rfl, rfl⟩
    | more hless _ => exact absurd hless (not_lt.mpr henough)
  | more hless _ ih =>
    cases h' with
    | enough henough => exact absurd hless (not_lt.mpr henough)
    | more _ rest => exact ih rest

end Collects

/-- The loop chains as many tags as are counted beforehand, if the last of these is the
    first one that makes the octets enough. -/
theorem collects_chained (mac : Mac) (key : Octets) {width : Nat} (count : Nat)
    (octets chain : Octets) (hleast : width ≤ octets.length + count * mac.size)
    (hmost : octets.length + count * mac.size < width + mac.size) :
    Collects mac key width octets chain
      (octets ++ (Generator.chained mac key count chain).1)
      (Generator.chained mac key count chain).2 := by
  induction count generalizing octets chain with
  | zero =>
    rw [Nat.zero_mul, Nat.add_zero] at hleast
    rw [Generator.chained, List.append_nil]
    exact .enough hleast
  | succ count ih =>
    -- With a tag to go the octets are not enough yet, since the count is the least one.
    rw [Nat.succ_mul] at hleast hmost
    have hlength : (octets ++ mac.tag key chain).length = octets.length + mac.size := by
      rw [List.length_append, mac.length_tag]
    have hrest := ih (octets ++ mac.tag key chain) (mac.tag key chain) (by omega) (by omega)
    rw [List.append_assoc] at hrest
    exact .more (by omega) hrest

theorem collects_blocks (mac : Mac) (key chain : Octets) (width : Nat) :
    Collects mac key width [] chain
      (Generator.chained mac key (Generator.blocks mac width) chain).1
      (Generator.chained mac key (Generator.blocks mac width) chain).2 := by
  have hpos := mac.size_pos
  have hleast := Nat.lt_div_mul_add hpos (a := width + mac.size - 1)
  have hmost := Nat.div_mul_le_self (width + mac.size - 1) mac.size
  rw [← List.nil_append (Generator.chained _ _ _ _).1]
  apply collects_chained
  · rw [List.length_nil, Generator.blocks]
    omega
  · rw [List.length_nil, Generator.blocks]
    omega

/-! ## Section 2: Leading bits -/

/-- A string has at least `bits` binary digits, and the first `bits` of them are those of
    `value`: what is left of the string's number is a number of the other digits. -/
structure LeadingBits (bits : Nat) (octets : Octets) (value : Nat) : Prop where
  enough : bits ≤ 8 * octets.length
  range : value < 2 ^ bits
  rest : ∃ rest < 2 ^ (8 * octets.length - bits),
    octets.toNat = value * 2 ^ (8 * octets.length - bits) + rest

theorem leadingBits_iff {bits : Nat} {octets : Octets} (h : bits ≤ 8 * octets.length)
    {value : Nat} : LeadingBits bits octets value ↔ leftmost bits octets = value := by
  have hshift : leftmost bits octets = octets.toNat / 2 ^ (8 * octets.length - bits) := by
    rw [leftmost, Nat.shiftRight_eq_div_pow]
    congr 2
    omega
  constructor
  · intro hleading
    obtain ⟨rest, hrest, hsplit⟩ := hleading.rest
    rw [hshift, hsplit, Nat.add_comm, Nat.add_mul_div_right _ _ (Nat.two_pow_pos _),
      Nat.div_eq_of_lt hrest, Nat.zero_add]
  · rintro rfl
    refine ⟨h, leftmost_lt bits octets, _, Nat.mod_lt octets.toNat (Nat.two_pow_pos _), ?_⟩
    rw [hshift, Nat.div_add_mod']

/-! ## Section 3: Rounds -/

/-- One round of the outer loop: octets are collected on the width of the order, `value`
    is cut from them, and key and chaining value are renewed. -/
inductive Round (mac : Mac) (order : Int) (g : Generator) : (value : Nat) → Generator → Prop
  | intro {octets last : Octets} {value : Nat}
      (collects : Collects mac g.key (octetLength order) [] g.chain octets last)
      (leading : LeadingBits (bitLength order) octets value) :
      Round mac order g value
        ⟨mac.tag g.key (last ++ [0]), mac.tag (mac.tag g.key (last ++ [0])) last⟩

/-- The octets of a round have all the bits of the order. -/
theorem bitLength_le_of_width {octets : Octets} (h : octetLength order ≤ octets.length) :
    bitLength order ≤ 8 * octets.length := by
  unfold octetLength at h
  omega

/-- The generator takes the prescribed rounds. -/
theorem round_iff {g g' : Generator} {value : Nat} :
    Round mac order g value g' ↔ g.candidate mac order = (value, g') := by
  have hcollects := collects_blocks mac g.key g.chain (octetLength order)
  have henough := bitLength_le_of_width hcollects.width_le
  constructor
  · intro h
    cases h with
    | intro collects leading =>
      obtain ⟨rfl, rfl⟩ := hcollects.unique collects
      rw [Generator.candidate, ← (leadingBits_iff henough).mp leading]
      rfl
  · intro h
    cases h
    exact .intro hcollects ((leadingBits_iff henough).mpr rfl)

theorem round_candidate (mac : Mac) (order : Int) (g : Generator) :
    Round mac order g (g.candidate mac order).1 (g.candidate mac order).2 :=
  round_iff.mpr rfl

/-- Some rounds of the outer loop, with their candidates. -/
inductive Rounds (mac : Mac) (order : Int) : Generator → List Nat → Generator → Prop
  | done (g : Generator) : Rounds mac order g [] g
  | next {g g' g'' : Generator} {value : Nat} {candidates : List Nat}
      (round : Round mac order g value g') (rest : Rounds mac order g' candidates g'') :
      Rounds mac order g (value :: candidates) g''

theorem Rounds.append {g g' g'' : Generator} {candidates candidates' : List Nat}
    (h : Rounds mac order g candidates g') (h' : Rounds mac order g' candidates' g'') :
    Rounds mac order g (candidates ++ candidates') g'' := by
  induction h with
  | done _ => exact h'
  | next round _ ih => exact .next round (ih h')

/-! ## Section 4: Nonces -/

/-- A candidate that is a nonce. -/
def IsNonce (order : Int) (value : Nat) : Prop := 1 ≤ value ∧ (value : Int) < order

instance (order : Int) (value : Nat) : Decidable (IsNonce order value) := by
  unfold IsNonce
  infer_instance

/-- The first nonces of the stream: of the candidates of some rounds those that are
    nonces, in order. -/
def FirstNonces (mac : Mac) (order : Int) (g : Generator) (values : List Nat) : Prop :=
  ∃ candidates g', Rounds mac order g candidates g' ∧
    candidates.filter (fun value => IsNonce order value) = values

/-- After some rounds there are as many more without a nonce as the limit says. -/
def RunsDry (mac : Mac) (order : Int) (limit : Nat) (g : Generator) : Prop :=
  ∃ candidates dry g', Rounds mac order g (candidates ++ dry) g' ∧ dry.length = limit ∧
    ∀ value ∈ dry, ¬IsNonce order value

variable {limit limit' count : Nat} {g g' : Generator} {value : Nat}

theorem next_of_nonce (h : IsNonce order (g.candidate mac order).1) :
    g.next mac order (limit + 1) = .ok (g.candidate mac order) := by
  rw [Generator.next]
  exact if_pos h

theorem next_of_not_nonce (h : ¬IsNonce order (g.candidate mac order).1) :
    g.next mac order (limit + 1) = (g.candidate mac order).2.next mac order limit := by
  rw [Generator.next]
  exact if_neg h

/-- The next nonce ends some rounds in which there was none. -/
theorem rounds_of_next (h : g.next mac order limit = .ok (value, g')) :
    ∃ skipped, (∀ value ∈ skipped, ¬IsNonce order value) ∧
      Rounds mac order g (skipped ++ [value]) g' := by
  induction limit generalizing g with
  | zero => cases h
  | succ limit ih =>
    by_cases hnonce : IsNonce order (g.candidate mac order).1
    · rw [next_of_nonce hnonce] at h
      exact ⟨[], by simp, .next (round_iff.mpr (Except.ok.inj h)) (.done _)⟩
    · -- The candidate is passed over, in front of those that the rest of the search skips.
      rw [next_of_not_nonce hnonce] at h
      obtain ⟨skipped, hskipped, hrounds⟩ := ih h
      refine ⟨_ :: skipped, ?_, .next (round_candidate mac order g) hrounds⟩
      simp only [List.mem_cons, forall_eq_or_imp]
      exact ⟨hnonce, hskipped⟩

/-- The search for the next nonce is given up after as many rounds without one. -/
theorem rounds_of_next_error {fault : CurveFault} (h : g.next mac order limit = .error fault) :
    ∃ dry g', dry.length = limit ∧ (∀ value ∈ dry, ¬IsNonce order value) ∧
      Rounds mac order g dry g' := by
  induction limit generalizing g with
  | zero => exact ⟨[], g, rfl, by simp, .done g⟩
  | succ limit ih =>
    by_cases hnonce : IsNonce order (g.candidate mac order).1
    · rw [next_of_nonce hnonce] at h
      cases h
    · rw [next_of_not_nonce hnonce] at h
      obtain ⟨dry, g', hlength, hdry, hrounds⟩ := ih h
      refine ⟨_ :: dry, g', ?_, ?_, .next (round_candidate mac order g) hrounds⟩
      · rw [List.length_cons, hlength]
      · simp only [List.mem_cons, forall_eq_or_imp]
        exact ⟨hnonce, hdry⟩

/-- A higher limit makes no difference to what is found. -/
theorem next_mono (hle : limit ≤ limit') (h : g.next mac order limit = .ok (value, g')) :
    g.next mac order limit' = .ok (value, g') := by
  induction limit generalizing g limit' with
  | zero => cases h
  | succ limit ih =>
    obtain ⟨limit', rfl⟩ : ∃ n, limit' = n + 1 := ⟨limit' - 1, by omega⟩
    by_cases hnonce : IsNonce order (g.candidate mac order).1
    · rw [next_of_nonce hnonce] at h ⊢
      exact h
    · rw [next_of_not_nonce hnonce] at h ⊢
      exact ih (by omega) h

theorem take_mono {values : List Nat} (hle : limit ≤ limit')
    (h : g.take ⟨mac, limit⟩ order count = .ok values) :
    g.take ⟨mac, limit'⟩ order count = .ok values := by
  induction count generalizing g values with
  | zero => exact h
  | succ count ih =>
    obtain ⟨⟨value, g'⟩, hnext, hrest⟩ := bind_eq_ok_iff.mp h
    obtain ⟨rest, htake, hvalues⟩ := bind_eq_ok_iff.mp hrest
    rw [Generator.take, next_mono hle hnext, ok_bind]
    dsimp only
    rw [ih htake, ok_bind, hvalues]

/-- What is taken are the first nonces of the stream. -/
theorem firstNonces_of_take {values : List Nat}
    (h : g.take ⟨mac, limit⟩ order count = .ok values) :
    values.length = count ∧ FirstNonces mac order g values := by
  induction count generalizing g values with
  | zero =>
    cases h
    exact ⟨rfl, [], g, .done g, rfl⟩
  | succ count ih =>
    obtain ⟨⟨value, g'⟩, hnext, hrest⟩ := bind_eq_ok_iff.mp h
    obtain ⟨rest, htake, hvalues⟩ := bind_eq_ok_iff.mp hrest
    cases hvalues
    have hvalue : IsNonce order value := Generator.next_range hnext
    obtain ⟨skipped, hskipped, hrounds⟩ := rounds_of_next hnext
    obtain ⟨hlength, candidates, g'', hmore, hfilter⟩ := ih htake
    refine ⟨by rw [List.length_cons, hlength], _, g'', hrounds.append hmore, ?_⟩
    -- Of the candidates up to the next nonce only the last one is kept.
    have hnone : skipped.filter (fun value => IsNonce order value) = [] := by
      simpa using hskipped
    rw [List.filter_append, List.filter_append, hnone, hfilter]
    simp [hvalue]

/-- Taking is given up only where the stream runs dry. -/
theorem runsDry_of_take_error {fault : CurveFault}
    (h : g.take ⟨mac, limit⟩ order count = .error fault) :
    fault = .undecided ∧ RunsDry mac order limit g := by
  induction count generalizing g with
  | zero => cases h
  | succ count ih =>
    rcases bind_eq_error_iff.mp h with hnext | ⟨⟨value, g'⟩, hnext, hrest⟩
    · obtain ⟨dry, g', hlength, hdry, hrounds⟩ := rounds_of_next_error hnext
      exact ⟨Generator.next_eq_error hnext, [], dry, g', hrounds, hlength, hdry⟩
    · rcases bind_eq_error_iff.mp hrest with htake | ⟨_, _, hvalues⟩
      · -- The first nonce was found, and the rounds up to it stand before the dry ones.
        obtain ⟨skipped, _, hrounds⟩ := rounds_of_next hnext
        obtain ⟨hfault, candidates, dry, g'', hmore, hlength, hdry⟩ := ih htake
        refine ⟨hfault, skipped ++ [value] ++ candidates, dry, g'', ?_, hlength, hdry⟩
        rw [List.append_assoc]
        exact hrounds.append hmore
      · cases hvalues

/-- The first nonces of the stream are taken, with any limit that is high enough. -/
theorem exists_limit_of_rounds {candidates : List Nat}
    (h : Rounds mac order g candidates g') :
    let values := candidates.filter (fun value => IsNonce order value);
    ∃ limit, g.take ⟨mac, limit⟩ order values.length = .ok values := by
  induction h with
  | done g => exact ⟨0, rfl⟩
  | @next g g' _ value candidates round _ ih =>
    obtain ⟨limit, htake⟩ := ih
    have hcandidate := round_iff.mp round
    -- One more candidate may have to be passed over, so the limit grows by one.
    refine ⟨limit + 1, ?_⟩
    by_cases hvalue : IsNonce order value
    · rw [List.filter_cons_of_pos (by simpa using hvalue), List.length_cons, Generator.take,
        next_of_nonce (by rwa [hcandidate]), ok_bind, hcandidate]
      dsimp only
      rw [take_mono (Nat.le_succ limit) htake, ok_bind, pure_eq_ok]
    · rw [List.filter_cons_of_neg (by simpa using hvalue)]
      generalize candidates.filter (fun value => IsNonce order value) = values at htake
      cases values with
      | nil => rfl
      | cons first rest =>
        -- The candidate is passed over in the search for the first of these.
        obtain ⟨⟨first', g''⟩, hnext, hrest⟩ := bind_eq_ok_iff.mp htake
        obtain ⟨rest', hmore, hvalues⟩ := bind_eq_ok_iff.mp hrest
        rw [List.length_cons, Generator.take, next_of_not_nonce (by rwa [hcandidate]), hcandidate,
          hnext, ok_bind]
        dsimp only
        rw [take_mono (Nat.le_succ limit) hmore, ok_bind, hvalues]

/-- The first nonces of the stream are what is taken with some limit, and then with any
    higher one. -/
theorem firstNonces_iff_exists_limit {values : List Nat} :
    FirstNonces mac order g values ↔
      ∃ limit, ∀ limit' ≥ limit, g.take ⟨mac, limit'⟩ order values.length = .ok values := by
  constructor
  · intro h
    obtain ⟨candidates, g', hrounds, rfl⟩ := h
    obtain ⟨limit, htake⟩ := exists_limit_of_rounds hrounds
    exact ⟨limit, fun _ hle => take_mono hle htake⟩
  · intro h
    obtain ⟨limit, htake⟩ := h
    exact (firstNonces_of_take (htake limit le_rfl)).2

/-- The nonce at a position is the last of the first ones up to there. -/
theorem map_getLast?_take (d : Derivation) (skipped : Nat) (g : Generator) :
    (g.take d order (skipped + 1)).map List.getLast? = (g.nth d order skipped).map some := by
  induction skipped generalizing g with
  | zero =>
    rw [Generator.take, Generator.nth]
    cases g.next d.mac order d.limit <;> rfl
  | succ skipped ih =>
    rw [Generator.take, Generator.nth]
    cases g.next d.mac order d.limit with
    | error fault => rfl
    | ok found =>
      obtain ⟨value, g'⟩ := found
      rw [ok_bind, ok_bind, ← ih g']
      dsimp only
      cases htake : g'.take d order (skipped + 1) with
      | error fault => rfl
      | ok rest =>
        -- There is at least one more nonce, and the last of all is the last of the rest.
        cases rest with
        | nil => cases (firstNonces_of_take htake).1
        | cons first rest => simp [Except.map, List.getLast?_cons]

/-! ## Section 5: Requests -/

namespace Problem

variable {problem : Problem} {d : Derivation}

theorem nonces_of_seed {seed : Octets} (h : problem.seed = .ok seed) (count : Nat) :
    problem.nonces d count = (Generator.ofSeed d.mac seed).take d problem.order count := by
  cases count with
  | zero => rfl
  | succ count => rw [nonces, h, ok_bind]

/-- Requests that differ in their hashes only have one seed if the hashes are congruent. -/
theorem seed_congr (horder : 0 < order) (secret : Int) (extra : Octets) {hash hash' : Octets}
    (h : (leftmost (bitLength order) hash : Int) ≡ leftmost (bitLength order) hash'
      [ZMOD order]) :
    seed ⟨order, secret, hash, extra⟩ = seed ⟨order, secret, hash', extra⟩ := by
  have hresidue : hashResidue order hash = hashResidue order hash' := by
    rw [hashResidue_eq_emod horder, hashResidue_eq_emod horder, h]
  simp only [seed, hashOctets, width, hresidue]

theorem nonces_congr {problem' : Problem} (horder : problem.order = problem'.order)
    (hseed : problem.seed = problem'.seed) (count : Nat) :
    problem.nonces d count = problem'.nonces d count := by
  cases count with
  | zero => rfl
  | succ count => rw [nonces, nonces, horder, hseed]

/-- A secret that does not fit is refused as soon as a nonce is asked for. -/
theorem refused_of_not_fits (problem : Problem)
    (h : ¬(0 ≤ problem.secret ∧ problem.secret < 256 ^ problem.width)) :
    ∃ fault, fault.category = .overflow ∧ (∀ d count, problem.nonces d (count + 1) = .error fault) ∧
      ∀ d skipped, problem.nonce d skipped = .error fault := by
  obtain ⟨fault, hwrite, hfault⟩ := FixedWidth.write_of_not_fits problem.width h
  have hseed : problem.seed = .error fault := by rw [seed, hwrite, error_bind]
  refine ⟨fault, hfault, ?_, ?_⟩
  · intro d count
    rw [nonces, hseed, error_bind]
  · intro d skipped
    rw [nonce, hseed, error_bind]

end Problem

/-- A request is answered with the stream of the generator `g`, whatever the limit. -/
structure AnsweredFrom (mac : Mac) (problem : Problem) (g : Generator) : Prop where
  /-- Each state of a generator has one round, in which octets are collected on the width
      of the order and the candidate is cut from their leading bits. -/
  round : ∀ state : Generator, ∃ octets last value next,
    Collects mac state.key problem.width [] state.chain octets last ∧
      problem.width ≤ octets.length ∧ LeadingBits (bitLength problem.order) octets value ∧
      ∀ value' next', Round mac problem.order state value' next' ↔ value' = value ∧ next' = next
  /-- The nonces that are returned are the first ones of the stream. -/
  returned : ∀ {limit count : Nat} {values : List Nat},
    problem.nonces ⟨mac, limit⟩ count = .ok values →
      values.length = count ∧ FirstNonces mac problem.order g values ∧
        ∀ value ∈ values, IsNonce problem.order value
  /-- Nothing is refused but a search that found none as often as the limit says. -/
  refused : ∀ {limit count : Nat} {fault : CurveFault},
    problem.nonces ⟨mac, limit⟩ count = .error fault →
      fault = .undecided ∧ RunsDry mac problem.order limit g
  /-- All nonces of the stream are returned, if the limit is high enough. -/
  complete : ∀ {values : List Nat}, FirstNonces mac problem.order g values →
    ∃ limit, ∀ limit' ≥ limit, problem.nonces ⟨mac, limit'⟩ values.length = .ok values
  /-- A single nonce that is asked for by its position is the one of the stream. -/
  position : ∀ (limit skipped : Nat),
    (problem.nonces ⟨mac, limit⟩ (skipped + 1)).map List.getLast? =
      (problem.nonce ⟨mac, limit⟩ skipped).map some

theorem exists_round (mac : Mac) (order : Int) (state : Generator) :
    ∃ octets last value next,
      Collects mac state.key (octetLength order) [] state.chain octets last ∧
      octetLength order ≤ octets.length ∧ LeadingBits (bitLength order) octets value ∧
      ∀ value' next', Round mac order state value' next' ↔ value' = value ∧ next' = next := by
  have hcollects := collects_blocks mac state.key state.chain (octetLength order)
  have hwidth := hcollects.width_le
  refine ⟨_, _, _, (state.candidate mac order).2, hcollects, hwidth,
    (leadingBits_iff (bitLength_le_of_width hwidth)).mpr rfl, ?_⟩
  intro value' next'
  rw [round_iff, Prod.ext_iff, eq_comm, eq_comm (a := (state.candidate mac order).2)]
  rfl

theorem answeredFrom_ofSeed (mac : Mac) {problem : Problem} {seed : Octets}
    (h : problem.seed = .ok seed) : AnsweredFrom mac problem (Generator.ofSeed mac seed) where
  round := exists_round mac problem.order
  returned := by
    intro limit count values hvalues
    rw [Problem.nonces_of_seed h] at hvalues
    obtain ⟨hlength, hfirst⟩ := firstNonces_of_take hvalues
    refine ⟨hlength, hfirst, ?_⟩
    obtain ⟨candidates, _, _, rfl⟩ := hfirst
    intro value hvalue
    simpa using (List.mem_filter.mp hvalue).2
  refused := by
    intro limit count fault hfault
    rw [Problem.nonces_of_seed h] at hfault
    exact runsDry_of_take_error hfault
  complete := by
    intro values hvalues
    simp only [Problem.nonces_of_seed h]
    exact firstNonces_iff_exists_limit.mp hvalues
  position := by
    intro limit skipped
    rw [Problem.nonces_of_seed h, Problem.nonce, h, ok_bind]
    exact map_getLast?_take _ skipped _

/-- Nonces form a stream for any code and any group order. If the secret fits the width
    of the order, the seed is the secret and the reduced hash on that width, followed by
    the extra octets, and requests are answered with the stream of that seed. Any other
    secret is refused when the first nonce is asked for. Of the hash only the remainder of
    its leading bits matters. -/
theorem nonces_form_stream (mac : Mac) {order : Int} (horder : 2 ≤ order) (secret : Int)
    (hash extra : Octets) :
    ((0 ≤ secret ∧ secret < 256 ^ octetLength order) →
      ∃ first middle : Octets,
        Problem.seed ⟨order, secret, hash, extra⟩ = .ok (first ++ middle ++ extra) ∧
        (first.length = octetLength order ∧ (first.toNat : Int) = secret) ∧
        hashOctets order (octetLength order) hash = .ok middle ∧
        (middle.length = octetLength order ∧
          (middle.toNat : Int) = leftmost (bitLength order) hash % order) ∧
        AnsweredFrom mac ⟨order, secret, hash, extra⟩
          (Generator.ofSeed mac (first ++ middle ++ extra))) ∧
    (¬(0 ≤ secret ∧ secret < 256 ^ octetLength order) →
      ∃ fault, fault.category = .overflow ∧
        (∀ d count, Problem.nonces d ⟨order, secret, hash, extra⟩ (count + 1) = .error fault) ∧
        ∀ d skipped, Problem.nonce d ⟨order, secret, hash, extra⟩ skipped = .error fault) ∧
    ∀ hash' : Octets, (leftmost (bitLength order) hash : Int) ≡ leftmost (bitLength order) hash'
        [ZMOD order] →
      ∀ d count, Problem.nonces d ⟨order, secret, hash, extra⟩ count =
        Problem.nonces d ⟨order, secret, hash', extra⟩ count := by
  have hpos : 0 < order := by omega
  refine ⟨?_, Problem.refused_of_not_fits ⟨order, secret, hash, extra⟩, ?_⟩
  · intro hsecret
    have hfits : Problem.Fits ⟨order, secret, hash, extra⟩ := ⟨hpos, hsecret⟩
    obtain ⟨first, middle, parts⟩ := hfits.exists_seed
    refine ⟨first, middle, parts.seed_eq, ⟨parts.secret_length, parts.secret_value.symm⟩, ?_,
      ⟨parts.hash_length, ?_⟩, answeredFrom_ofSeed mac parts.seed_eq⟩
    · exact FixedWidth.write_eq_ok_iff.mpr ⟨parts.hash_length, parts.hash_value⟩
    · rw [← parts.hash_value]
      exact hashResidue_eq_emod hpos hash
  · intro hash' hcongr d count
    have hseed := Problem.seed_congr hpos secret extra hcongr
    exact Problem.nonces_congr (by rfl) hseed count

/-- An order of nine bits and tags of one octet, so that a candidate takes two tags. The
    second candidate is 319 and passed over. A hash of three octets that is cut and reduced
    leads to the nonces of a hash of one octet, and a secret of three octets is refused. -/
theorem nonces_form_stream_two_tags :
    let mac : Mac := ⟨1, by decide,
      fun key message => [UInt8.ofNat (5 * Octets.toNat (key ++ message) % 251)],
      fun _ _ => rfl⟩;
    ((2 : Int) ≤ 300 ∧ (0 : Int) ≤ 65535 ∧ (65535 : Int) < 256 ^ octetLength 300) ∧
      (∃ g, FirstNonces mac 300 g [277, 68, 231, 1] ∧
        AnsweredFrom mac ⟨300, 65535, [255, 255, 255], [7]⟩ g) ∧
      Problem.nonces ⟨mac, 2⟩ ⟨300, 65535, [211], [7]⟩ 4 = .ok [277, 68, 231, 1] ∧
      ∃ fault, fault.category = .overflow ∧
        ∀ d, Problem.nonces d ⟨300, 65536, [211], [7]⟩ 1 = .error fault := by
  intro mac
  have hnonces : Problem.nonces ⟨mac, 2⟩ ⟨300, 65535, [255, 255, 255], [7]⟩ 4 =
      .ok [277, 68, 231, 1] := by
    decide +kernel
  have horder : (2 : Int) ≤ 300 := by decide
  have hfits : (0 : Int) ≤ 65535 ∧ (65535 : Int) < 256 ^ octetLength 300 := by decide +kernel
  obtain ⟨hstream, _, hsame⟩ := nonces_form_stream mac horder 65535 [255, 255, 255] [7]
  obtain ⟨_, _, _, _, _, _, hanswered⟩ := hstream hfits
  obtain ⟨_, hrefused, _⟩ := nonces_form_stream mac horder 65536 [211] [7]
  obtain ⟨fault, hfault, hnone, _⟩ := hrefused (by decide +kernel)
  refine ⟨⟨horder, hfits⟩, ⟨_, (hanswered.returned hnonces).2.1, hanswered⟩, ?_, fault, hfault,
    fun d => hnone d 0⟩
  rw [← hsame [211] (by decide +kernel), hnonces]

end WalletKeys.Nonce
