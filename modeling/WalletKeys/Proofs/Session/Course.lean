import WalletKeys.Proofs.Results
import WalletKeys.Proofs.Session.History
import WalletKeys.Proofs.Session.Vault

/-! # The course of a session

    What an action does is a few changes, and a block changes what is held when it is
    entered and when it is left. The course of a session therefore is connected
    (`course_connected`), and it misses nothing that the reports show
    (`course_shows`).
-/

namespace WalletKeys.Session

open WalletKeys.Nonce (Derivation)

/-! ## Section 1: What actions do -/

/-- What an input offers if it offers octets. -/
theorem Input.octets?_of_read {vault : Vault} {input : Input} {contents : Octets}
    (h : input.read vault = .ok (.octets contents)) : input.octets? vault = some contents := by
  cases input with
  | given offer =>
    cases h
    rfl
  | buffer name | bufferView name =>
    obtain ⟨octets, hnamed, hoffer⟩ := bind_eq_ok_iff.mp h
    cases hoffer
    exact named_eq_ok_iff.mp hnamed
  | view name =>
    obtain ⟨i, hnamed, hoffer⟩ := bind_eq_ok_iff.mp h
    cases hoffer
    rw [octets?, named_eq_ok_iff.mp hnamed]
    rfl

/-- A key is made from octets only. -/
theorem octets_of_ofOffer {offer : Offer} {key : PrivateKey}
    (h : PrivateKey.ofOffer offer = .ok key) :
    ∃ contents, offer = .octets contents ∧ PrivateKey.ofOctets contents = .ok key := by
  obtain ⟨contents, htaken, hmade⟩ := bind_eq_ok_iff.mp h
  cases offer with
  | octets contents' =>
    cases htaken
    exact ⟨contents, rfl, hmade⟩
  | foreign kind items => cases htaken

theorem Input.keys_spend (vault : Vault) (input : Input) :
    (input.spend vault).keys = vault.keys := by
  cases input with
  | buffer name =>
    simp only [spend]
    split
    · rfl
    · rfl
  | given | bufferView | view => rfl

namespace Quiet

theorem refl (vault : Vault) : Quiet vault vault := ⟨rfl, rfl, fun _ _ h => h⟩

theorem buffers (vault : Vault) (buffers : Table Octets) :
    Quiet vault { vault with buffers := buffers } := ⟨rfl, rfl, fun _ _ h => h⟩

theorem publics (vault : Vault) (publics : Table PublicKey) :
    Quiet vault { vault with publics := publics } := ⟨rfl, rfl, fun _ _ h => h⟩

theorem spend (vault : Vault) (input : Input) : Quiet vault (input.spend vault) := by
  cases input with
  | buffer name =>
    simp only [Input.spend]
    split
    · exact buffers vault _
    · exact refl vault
  | given | bufferView | view => exact refl vault

theorem keepPublic {vault after : Vault} {target : String} {key : PublicKey} {value : Value}
    (h : keepPublic vault target key = .ok (after, value)) : Quiet vault after := by
  obtain ⟨octets, _, hkept⟩ := bind_eq_ok_iff.mp h
  cases hkept
  exact publics vault _

/-- A change that may be refused is quiet if it is so when it is not refused. -/
theorem changed {vault : Vault} {outcome : Except Fault (Vault × Value)}
    (h : ∀ after value, outcome = .ok (after, value) → Quiet vault after) :
    Quiet vault (changed vault outcome).after := by
  cases outcome with
  | error fault => exact refl vault
  | ok result => exact h result.1 result.2 rfl

end Quiet

namespace Moment

variable {m : Moment} {action : Action} {transition : Transition}

theorem act_of_error {fault : Fault} (h : transition.answer = .error fault) :
    m.act action transition = ⟨m.held, m.past, transition.after⟩ := by
  rw [act, h]
  rfl

theorem act_of_ok {value : Value} (h : transition.answer = .ok value) :
    m.act action transition =
      ⟨m.held, action.events m.vault ++ m.past, transition.after⟩ := by
  rw [act, h]

/-- An action without events is a quiet change. -/
theorem changes_act_of_quiet (hevents : action.events m.vault = [])
    (still : Quiet m.vault transition.after) : Changes m (m.act action transition) := by
  have hact : m.act action transition = ⟨m.held, m.past, transition.after⟩ := by
    cases hanswer : transition.answer with
    | error fault => exact act_of_error hanswer
    | ok value => rw [act_of_ok hanswer, hevents, List.nil_append]
  rw [hact]
  exact .single (.quiet still)

/-- An action that may be refused has only the case to show in which it is not. -/
theorem changes_act_changed {outcome : Except Fault (Vault × Value)}
    (h : ∀ after value, outcome = .ok (after, value) →
      Changes m ⟨m.held, action.events m.vault ++ m.past, after⟩) :
    Changes m (m.act action (changed m.vault outcome)) := by
  cases outcome with
  | error fault => exact .refl
  | ok result => exact h result.1 result.2 rfl

end Moment

/-- Giving up a name releases its key, if there is one. -/
theorem changes_drop (held : List Nat) (past : List Event) (vault : Vault) (name : String) :
    Changes ⟨held, past, vault⟩
      ⟨held, ((vault.keys.get? name).map Event.released).toList ++ past,
        vault.drop held name⟩ := by
  cases hname : vault.keys.get? name with
  | some i => exact .single (.drop hname)
  | none =>
    have hstill : Quiet vault (vault.drop held name) := by
      unfold Vault.drop Vault.release
      rw [hname]
      refine ⟨rfl, rfl, fun other i hi => ?_⟩
      rw [Table.get?_erase] at hi
      split at hi
      · cases hi
      · exact hi
    exact .single (.quiet hstill)

/-- Making a key uses up the input, gives up the name, and then makes the key. -/
theorem changes_makeKey (m : Moment) (name : String) (input : Input) :
    Changes m (m.act (.newKey name input) (makeKey m.held m.vault name input)) := by
  unfold makeKey
  cases hread : input.read m.vault with
  | error fault => exact .refl
  | ok offer =>
    have hspend : Quiet m.vault (input.spend m.vault) := .spend m.vault input
    simp only
    cases hkey : PrivateKey.ofOffer offer with
    | error cause => exact .single (.quiet hspend)
    | ok key =>
      obtain ⟨contents, rfl, hmade⟩ := octets_of_ofOffer hkey
      have hnames : (input.spend m.vault).keys = m.vault.keys := Input.keys_spend m.vault input
      have hnew : ((input.spend m.vault).drop m.held name).cells.length =
          m.vault.cells.length := by
        rw [length_cells_drop, hspend.cells]
      have hdrop := changes_drop m.held m.past (input.spend m.vault) name
      have hmake := hdrop.tail (.make name hmade)
      rw [hnames, ← store_eq, hnew] at hmake
      rw [Moment.act_of_ok rfl, Action.events, Input.octets?_of_read hread]
      exact (Relation.ReflTransGen.single (.quiet hspend)).trans hmake

/-- Every action is a few changes. -/
theorem changes_perform (derivation : Derivation) (m : Moment) (action : Action) :
    Changes m (m.act action (action.perform derivation m.held m.vault)) := by
  cases action with
  | newKey name input => exact changes_makeKey m name input
  | dropKey name =>
    refine Moment.changes_act_changed fun after value h => ?_
    obtain ⟨i, hnamed, hafter⟩ := bind_eq_ok_iff.mp h
    cases hafter
    exact changes_drop m.held m.past m.vault name
  | view key target =>
    refine Moment.changes_act_changed fun after value h => ?_
    obtain ⟨i, hnamed, h⟩ := bind_eq_ok_iff.mp h
    obtain ⟨octets, _, hafter⟩ := bind_eq_ok_iff.mp h
    cases hafter
    have hkey := named_eq_ok_iff.mp hnamed
    rw [Action.events, hkey]
    exact .single (.view target hkey)
  | close key =>
    refine Moment.changes_act_changed fun after value h => ?_
    obtain ⟨i, hnamed, hafter⟩ := bind_eq_ok_iff.mp h
    cases hafter
    have hkey := named_eq_ok_iff.mp hnamed
    rw [Action.events, hkey]
    exact .single (.close hkey)
  | newBuffer name contents => exact Moment.changes_act_of_quiet rfl (.buffers m.vault _)
  | setOctet name index value =>
    refine Moment.changes_act_of_quiet rfl (.changed fun after answer h => ?_)
    obtain ⟨old, _, h⟩ := bind_eq_ok_iff.mp h
    obtain ⟨new, _, hafter⟩ := bind_eq_ok_iff.mp h
    cases hafter
    exact .buffers m.vault _
  | assign name contents =>
    refine Moment.changes_act_of_quiet rfl (.changed fun after answer h => ?_)
    obtain ⟨old, _, hafter⟩ := bind_eq_ok_iff.mp h
    cases hafter
    exact .buffers m.vault _
  | derive key type target =>
    refine Moment.changes_act_of_quiet rfl ?_
    simp only [Action.perform]
    split
    · exact .refl m.vault
    · refine .changed fun after answer h => ?_
      obtain ⟨inner, _, hkept⟩ := bind_eq_ok_iff.mp h
      exact .keepPublic hkept
  | readPublic target contents type =>
    refine Moment.changes_act_of_quiet rfl (.changed fun after answer h => ?_)
    obtain ⟨inner, _, hkept⟩ := bind_eq_ok_iff.mp h
    exact .keepPublic hkept
  | retag source type target =>
    refine Moment.changes_act_of_quiet rfl (.changed fun after answer h => ?_)
    obtain ⟨old, _, h⟩ := bind_eq_ok_iff.mp h
    obtain ⟨new, _, hkept⟩ := bind_eq_ok_iff.mp h
    exact .keepPublic hkept
  | sign key digest curve =>
    refine Moment.changes_act_of_quiet rfl ?_
    simp only [Action.perform]
    split
    · exact .refl m.vault
    · exact .refl m.vault
  -- The rest only answer.
  | writeView | isClosed | describe | isValidGeneral | isValid | publicOctets | verify |
      publicAs | publicEq =>
    exact Moment.changes_act_of_quiet rfl (.refl m.vault)

/-! ## Section 2: The course of a session is connected -/

/-- A vault that can be seen in a report: the one after the step, or one of the
    steps inside. -/
inductive Report.Shows : Report → Vault → Prop where
  | after (report : Report) : report.Shows report.after
  | inside {body raised after report vault} (mem : report ∈ body) (shows : report.Shows vault) :
      (Report.block body raised after).Shows vault

/-- The course `d` goes on from `c` as some reports say, to a certain vault. -/
structure Course.Extends (c d : Course) (reports : List Report) (after : Vault) : Prop where
  connected : c.Connected → d.Connected
  keeps : ∀ m ∈ c.moments, m ∈ d.moments
  held : d.present.held = c.present.held
  vault : d.present.vault = after
  shows : ∀ report ∈ reports, ∀ vault, report.Shows vault → ∃ m ∈ d.moments, m.vault = vault

namespace Course

namespace Extends

variable {c d e : Course} {reports rest : List Report} {between after : Vault}

theorem refl (c : Course) : c.Extends c [] c.present.vault :=
  ⟨id, fun _ h => h, rfl, rfl, fun _ h => absurd h (List.not_mem_nil)⟩

theorem trans (first : c.Extends d reports between) (second : d.Extends e rest after) :
    c.Extends e (reports ++ rest) after where
  connected := second.connected ∘ first.connected
  keeps m hm := second.keeps m (first.keeps m hm)
  held := second.held.trans first.held
  vault := second.vault
  shows report hreport vault hshows := by
    rcases List.mem_append.mp hreport with hmem | hmem
    · obtain ⟨m, hm, hvault⟩ := first.shows report hmem vault hshows
      exact ⟨m, second.keeps m hm, hvault⟩
    · exact second.shows report hmem vault hshows

end Extends

end Course

/-- An action leads to the next moment. -/
theorem extends_action (derivation : Derivation) (c : Course) (action : Action) :
    let transition := action.perform derivation c.present.held c.present.vault
    c.Extends (c.advance (c.present.act action transition)) [.action transition]
      transition.after where
  connected h := h.advance (changes_perform derivation c.present action)
  keeps m hm := List.mem_cons_of_mem _ hm
  held := rfl
  vault := rfl
  shows report hreport vault hshows := by
    rw [List.mem_singleton.mp hreport] at hshows
    cases hshows
    exact ⟨_, Course.present_mem _, rfl⟩

/-- A block leads from the moment of entering it over those of its body to the moment
    of leaving it. -/
theorem extends_block {c inside : Course} {key : String} {i : Nat} {reports : List Report}
    {between : Vault} (raised : Option Fault) (named : c.present.vault.keys.get? key = some i)
    (body : (c.advance (c.present.enter i)).Extends inside reports between) :
    c.Extends (inside.advance (inside.present.leave i (between.close i)))
      [.block reports raised (between.close i)] (between.close i) where
  connected h := by
    have hinside : inside.Connected := body.connected (h.advance (.single (.enter named)))
    have hheld : inside.present.held = i :: c.present.held := body.held
    have hpresent : inside.present = ⟨i :: c.present.held, inside.present.past, between⟩ := by
      rw [← body.vault, ← hheld]
    refine hinside.advance (.single ?_)
    rw [hpresent]
    exact .leave
  keeps m hm := List.mem_cons_of_mem _ (body.keeps m (List.mem_cons_of_mem _ hm))
  held := by
    show inside.present.held.tail = c.present.held
    rw [body.held]
    rfl
  vault := rfl
  shows report hreport vault hshows := by
    rw [List.mem_singleton.mp hreport] at hshows
    cases hshows with
    | after => exact ⟨_, Course.present_mem _, rfl⟩
    | inside hmem hshows =>
      obtain ⟨m, hm, hvault⟩ := body.shows _ hmem vault hshows
      exact ⟨m, List.mem_cons_of_mem _ hm, hvault⟩

/-- A block that is not entered leads nowhere. -/
theorem extends_barred (c : Course) (fault : Fault) :
    c.Extends c [.barred fault c.present.vault] c.present.vault where
  connected := id
  keeps _ hm := hm
  held := rfl
  vault := rfl
  shows report hreport vault hshows := by
    rw [List.mem_singleton.mp hreport] at hshows
    cases hshows
    exact ⟨_, c.present_mem, rfl⟩

section

variable (derivation : Derivation) (held : List Nat) (vault : Vault)

theorem Step.run_block {key : String} {i : Nat} (named : vault.keys.get? key = some i)
    (body : List Step) :
    (Step.block key body).run derivation held vault =
      .block (runBody derivation (i :: held) vault body).1
        (runBody derivation (i :: held) vault body).2.1
        ((runBody derivation (i :: held) vault body).2.2.close i) := by
  rw [Step.run, named_eq_ok_iff.mpr named]

theorem Step.run_block_barred {key : String} (named : vault.keys.get? key = none)
    (body : List Step) :
    (Step.block key body).run derivation held vault = .barred (.name key) vault := by
  rw [Step.run, Vault.named, named]

/-- A body stops at the first fault. -/
theorem runBody_of_fault {step : Step} {fault : Fault}
    (h : (step.run derivation held vault).fault? = some fault) (rest : List Step) :
    runBody derivation held vault (step :: rest) =
      ([step.run derivation held vault], some fault,
        (step.run derivation held vault).after) := by
  rw [runBody, h]

theorem runBody_of_no_fault {step : Step}
    (h : (step.run derivation held vault).fault? = none) (rest : List Step) :
    runBody derivation held vault (step :: rest) =
      (step.run derivation held vault ::
          (runBody derivation held (step.run derivation held vault).after rest).1,
        (runBody derivation held (step.run derivation held vault).after rest).2) := by
  rw [runBody, h]

end

section

variable (c : Course)

theorem Step.follow_block {key : String} {i : Nat} (named : c.present.vault.keys.get? key = some i)
    (body : List Step) (reports : List Report) (raised : Option Fault) (after : Vault) :
    (Step.block key body).follow c (.block reports raised after) =
      (followAll (c.advance (c.present.enter i)) body reports).advance
        ((followAll (c.advance (c.present.enter i)) body reports).present.leave i after) := by
  rw [Step.follow, named]

theorem Step.follow_barred (step : Step) (fault : Fault) (after : Vault) :
    step.follow c (.barred fault after) = c := by
  rw [Step.follow]

theorem followAll_nil_right (steps : List Step) : followAll c steps [] = c := by
  cases steps with
  | nil => rw [followAll]
  | cons step rest => rw [followAll]

end

mutual

/-- Following the report of a step is following the step. By induction on the step, since
    a block runs a body. -/
theorem Step.extends_follow (derivation : Derivation) (c : Course) : (step : Step) →
    c.Extends (step.follow c (step.run derivation c.present.held c.present.vault))
      [step.run derivation c.present.held c.present.vault]
      (step.run derivation c.present.held c.present.vault).after
  | .action action => by
    rw [Step.run, Step.follow]
    exact extends_action derivation c action
  | .block key body => by
    cases hkey : c.present.vault.keys.get? key with
    | none =>
      rw [Step.run_block_barred derivation c.present.held c.present.vault hkey,
        Step.follow_barred]
      exact extends_barred c _
    | some i =>
      have hinside := extends_followAll derivation (c.advance (c.present.enter i)) body
      rw [Step.run_block derivation c.present.held c.present.vault hkey,
        Step.follow_block c hkey]
      exact extends_block _ hkey hinside

theorem extends_followAll (derivation : Derivation) (c : Course) : (steps : List Step) →
    c.Extends (followAll c steps (runBody derivation c.present.held c.present.vault steps).1)
      (runBody derivation c.present.held c.present.vault steps).1
      (runBody derivation c.present.held c.present.vault steps).2.2
  | [] => by
    rw [runBody, followAll_nil_right]
    exact .refl c
  | step :: rest => by
    have hstep := Step.extends_follow derivation c step
    have hrest := extends_followAll derivation
      (step.follow c (step.run derivation c.present.held c.present.vault)) rest
    rw [hstep.held, hstep.vault] at hrest
    cases hfault : (step.run derivation c.present.held c.present.vault).fault? with
    | some fault =>
      rw [runBody_of_fault _ _ _ hfault, followAll, followAll_nil_right]
      exact hstep
    | none =>
      rw [runBody_of_no_fault _ _ _ hfault, followAll]
      exact hstep.trans hrest

end

/-- A session goes on after faults, so the induction is on the steps alone. -/
theorem extends_runAll (derivation : Derivation) (steps : List Step) (c : Course)
    (hheld : c.present.held = []) :
    ∃ after, c.Extends (followAll c steps (runAll derivation c.present.vault steps))
      (runAll derivation c.present.vault steps) after := by
  induction steps generalizing c with
  | nil =>
    rw [runAll, followAll_nil_right]
    exact ⟨_, .refl c⟩
  | cons step rest ih =>
    have hstep := Step.extends_follow derivation c step
    rw [hheld] at hstep
    obtain ⟨after, hrest⟩ := ih (step.follow c (step.run derivation [] c.present.vault))
      (hstep.held.trans hheld)
    rw [hstep.vault] at hrest
    rw [runAll, followAll]
    exact ⟨after, hstep.trans hrest⟩

theorem course_connected (derivation : Derivation) (steps : List Step) :
    (course derivation steps).Connected := by
  obtain ⟨after, h⟩ := extends_runAll derivation steps ⟨.start, []⟩ rfl
  exact h.connected .start

/-- Every vault that a session shows is that of a moment of its course. -/
theorem course_shows {derivation : Derivation} {steps : List Step} {report : Report}
    {vault : Vault} (hreport : report ∈ runAll derivation .empty steps)
    (hshows : report.Shows vault) :
    ∃ m ∈ (course derivation steps).moments, m.vault = vault := by
  obtain ⟨after, h⟩ := extends_runAll derivation steps ⟨.start, []⟩ rfl
  exact h.shows report hreport vault hshows

end WalletKeys.Session
