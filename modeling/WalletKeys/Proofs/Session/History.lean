import Mathlib.Logic.Relation
import WalletKeys.Session.Step

/-! # The history of a session

    A vault shows what its keys hold now. What became of a key on the way there is
    the history of the session, and it is read off the steps and their reports:
    the `course` of a session is the sequence of its moments, each with the vault
    that the report shows, the blocks that are being run, and the events so far.

    A course is connected if each of its moments comes from the one before by changes
    of seven kinds (`Change`), each of which concerns one key at most. What every
    change preserves then holds at all moments (`forall_moments`), and what every
    change respects holds between any two (`pairwise_moments`).
-/

namespace WalletKeys.Session

open WalletKeys.Nonce (Derivation)

/-! ## Section 1: Events -/

/-- Something that happens to a private key. Keys are meant by their cells. -/
inductive Event where
  /-- A key was made from some octets. -/
  | made (cell : Nat) (contents : Octets)
  /-- A view of a key was returned and is kept under a name. -/
  | viewed (cell : Nat) (name : String)
  /-- A key was closed by its caller. -/
  | closed (cell : Nat)
  /-- A block that held a key was left. -/
  | left (cell : Nat)
  /-- A key was dropped, or its name was given to another key. -/
  | released (cell : Nat)
  deriving DecidableEq, Repr

/-- The cell of a view that was returned under a certain name. -/
def Event.viewUnder? (name : String) : Event → Option Nat
  | .viewed i target => if target = name then some i else none
  | _ => none

/-- The octets that an input has to offer. -/
def Input.octets? (vault : Vault) : Input → Option Octets
  | .given (.octets contents) => some contents
  | .given (.foreign _ _) => none
  | .buffer name | .bufferView name => vault.buffers.get? name
  | .view name => (vault.views.get? name).map vault.shown

/-- What an action does to the keys of a vault if it succeeds, last event first. -/
def Action.events (vault : Vault) : Action → List Event
  | .newKey name input =>
    ((input.octets? vault).map (Event.made vault.cells.length)).toList ++
      ((vault.keys.get? name).map Event.released).toList
  | .dropKey name => ((vault.keys.get? name).map Event.released).toList
  | .view key target => ((vault.keys.get? key).map (Event.viewed · target)).toList
  | .close key => ((vault.keys.get? key).map Event.closed).toList
  | _ => []

/-! ## Section 2: Moments -/

/-- A moment of a session. -/
structure Moment where
  /-- The cells that the enclosing blocks hold, innermost block first. -/
  held : List Nat
  /-- What has happened to the keys, last event first. -/
  past : List Event
  vault : Vault

namespace Moment

/-- The moment before the first step. -/
def start : Moment := ⟨[], [], .empty⟩

/-- The moment after an action that came out in a certain way. -/
def act (m : Moment) (action : Action) (transition : Transition) : Moment :=
  let events := match transition.answer with
    | .ok _ => action.events m.vault
    | .error _ => []
  ⟨m.held, events ++ m.past, transition.after⟩

/-- The moment after entering a block that holds the cell `i`. -/
def enter (m : Moment) (i : Nat) : Moment := { m with held := i :: m.held }

/-- The moment after leaving the innermost block, which held the cell `i`. -/
def leave (m : Moment) (i : Nat) (after : Vault) : Moment :=
  ⟨m.held.tail, .left i :: m.past, after⟩

end Moment

/-- The moments of a session up to a certain one. -/
structure Course where
  present : Moment
  /-- The moments before that, last moment first. -/
  earlier : List Moment

namespace Course

/-- All moments, last moment first. -/
def moments (c : Course) : List Moment := c.present :: c.earlier

/-- The course one moment further on. -/
def advance (c : Course) (m : Moment) : Course := ⟨m, c.moments⟩

theorem present_mem (c : Course) : c.present ∈ c.moments := List.mem_cons_self ..

end Course

mutual

/-- The course after a step of which there is a report. -/
def Step.follow (c : Course) : Step → Report → Course
  | .action action, .action transition => c.advance (c.present.act action transition)
  | .block key body, .block reports _ after =>
    match c.present.vault.keys.get? key with
    | none => c
    | some i =>
      let inside := followAll (c.advance (c.present.enter i)) body reports
      inside.advance (inside.present.leave i after)
  | .action _, .block _ _ _ | .block _ _, .action _ | _, .barred _ _ => c

/-- The course after steps of which there are reports. -/
def followAll (c : Course) : List Step → List Report → Course
  | step :: rest, report :: reports => followAll (step.follow c report) rest reports
  | [], _ | _ :: _, [] => c

end

/-- The course of a session. -/
def course (derivation : Derivation) (steps : List Step) : Course :=
  followAll ⟨.start, []⟩ steps (runAll derivation .empty steps)

/-! ## Section 3: Changes -/

/-- Nothing happens to a private key. Buffers and public keys may change, and names
    of private keys may be lost. -/
structure Quiet (before after : Vault) : Prop where
  cells : after.cells = before.cells
  views : after.views = before.views
  keys : ∀ name i, after.keys.get? name = some i → before.keys.get? name = some i

/-- How a session gets from one moment to the next. -/
inductive Change : Moment → Moment → Prop where
  | quiet {held past before after} (still : Quiet before after) :
      Change ⟨held, past, before⟩ ⟨held, past, after⟩
  /-- A key is made and gets a name. -/
  | make {held past vault contents key} (name : String)
      (made : PrivateKey.ofOctets contents = .ok key) :
      Change ⟨held, past, vault⟩ ⟨held, .made vault.cells.length contents :: past,
        { vault with
          cells := vault.cells ++ [key]
          keys := vault.keys.set name vault.cells.length }⟩
  /-- A view of a key gets a name. -/
  | view {held past vault key i} (target : String) (named : vault.keys.get? key = some i) :
      Change ⟨held, past, vault⟩ ⟨held, .viewed i target :: past,
        { vault with views := vault.views.set target i }⟩
  /-- A key is closed by its name. -/
  | close {held past vault key i} (named : vault.keys.get? key = some i) :
      Change ⟨held, past, vault⟩ ⟨held, .closed i :: past, vault.close i⟩
  /-- A key loses its name, and is closed unless a block holds it. -/
  | drop {held past vault key i} (named : vault.keys.get? key = some i) :
      Change ⟨held, past, vault⟩ ⟨held, .released i :: past, vault.drop held key⟩
  /-- A block comes to hold a key. -/
  | enter {held past vault key i} (named : vault.keys.get? key = some i) :
      Change ⟨held, past, vault⟩ ⟨i :: held, past, vault⟩
  /-- The innermost block is left, and its key is closed. -/
  | leave {held past vault i} :
      Change ⟨i :: held, past, vault⟩ ⟨held, .left i :: past, vault.close i⟩

/-- Any number of changes. -/
abbrev Changes : Moment → Moment → Prop := Relation.ReflTransGen Change

/-! ## Section 4: What changes preserve -/

/-- A course that leads from the first moment to the present by changes. -/
inductive Course.Connected : Course → Prop where
  | start : Connected ⟨.start, []⟩
  | advance {c m} (connected : Connected c) (changes : Changes c.present m) :
      Connected (c.advance m)

theorem preserved_of_changes {P : Moment → Prop} (of_change : ∀ m m', P m → Change m m' → P m')
    {m m' : Moment} (h : Changes m m') (hm : P m) : P m' := by
  induction h with
  | refl => exact hm
  | tail _ change ih => exact of_change _ _ ih change

namespace Course.Connected

variable {c : Course}

/-- A property of the first moment that every change preserves holds at all moments. -/
theorem forall_moments {P : Moment → Prop} (start : P .start)
    (of_change : ∀ m m', P m → Change m m' → P m') (h : c.Connected) :
    ∀ m ∈ c.moments, P m := by
  induction h with
  | start =>
    intro m hm
    rw [List.mem_singleton.mp hm]
    exact start
  | @advance c m' _ changes ih =>
    intro m hm
    rcases List.mem_cons.mp hm with rfl | hm
    · exact preserved_of_changes of_change changes (ih c.present c.present_mem)
    · exact ih m hm

/-- A preorder that every change respects holds between any earlier and any later
    moment. -/
theorem pairwise_moments {R : Moment → Moment → Prop} (refl : ∀ m, R m m)
    (trans : ∀ m₁ m₂ m₃, R m₁ m₂ → R m₂ m₃ → R m₁ m₃)
    (of_change : ∀ m m', Change m m' → R m m') (h : c.Connected) :
    c.moments.Pairwise fun later earlier => R earlier later := by
  induction h with
  | start => exact List.pairwise_singleton ..
  | @advance c m' _ changes ih =>
    have hpresent : R c.present m' := by
      refine preserved_of_changes (fun m₁ m₂ h change => ?_) changes (refl c.present)
      exact trans _ _ _ h (of_change m₁ m₂ change)
    refine List.pairwise_cons.mpr ⟨?_, ih⟩
    intro m hm
    rcases List.mem_cons.mp hm with rfl | hearlier
    · exact hpresent
    · exact trans _ _ _ ((List.pairwise_cons.mp ih).1 m hearlier) hpresent

end Course.Connected

end WalletKeys.Session
