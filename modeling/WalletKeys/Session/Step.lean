import WalletKeys.Session.Action

/-! # Steps of a session

    A step is an action on the vault or a block. A block holds a private key
    while its body runs, stops at the first fault of the body, and closes the key
    when it is left, whichever way that happens. A block whose key has no name is
    barred: nothing runs, and the fault is the block's own.

    `Step.run` is one step and `runAll` a session, which goes on after faults.
-/

namespace WalletKeys.Session

open WalletKeys.Nonce (Derivation)

/-! ## Section 1: Steps and reports -/

/-- A step of a session. -/
inductive Step where
  | action (action : Action)
  /-- Runs a body while holding a private key. -/
  | block (key : String) (body : List Step)
  deriving Repr

/-- What becomes of a step. -/
inductive Report where
  | action (transition : Transition)
  /-- The reports of the body, the fault that ended it, and the vault after
      leaving the block. -/
  | block (body : List Report) (raised : Option Fault) (after : Vault)
  /-- Why a block was not entered, and the vault it left untouched. -/
  | barred (fault : Fault) (after : Vault)

/-- The vault after a step. -/
def Report.after : Report → Vault
  | .action transition => transition.after
  | .block _ _ after => after
  | .barred _ after => after

/-- The fault that a step answers. A block that was entered answers none. -/
def Report.fault? : Report → Option Fault
  | .action ⟨_, .error fault, _⟩ => some fault
  | .barred fault _ => some fault
  | _ => none

/-! ## Section 2: Running -/

mutual

/-- One step, while the blocks around it hold the cells `held`. -/
def Step.run (derivation : Derivation) (held : List Nat) (vault : Vault) : Step → Report
  | .action action => .action (action.perform derivation held vault)
  | .block key body =>
    match Vault.named vault.keys key with
    | .error fault => .barred fault vault
    | .ok i =>
      let (reports, raised, after) := runBody derivation (i :: held) vault body
      .block reports raised (after.close i)

/-- The body of a block, up to its first fault. -/
def runBody (derivation : Derivation) (held : List Nat) (vault : Vault) :
    List Step → List Report × Option Fault × Vault
  | [] => ([], none, vault)
  | step :: rest =>
    let report := step.run derivation held vault
    match report.fault? with
    | some fault => ([report], some fault, report.after)
    | none =>
      let (reports, raised, after) := runBody derivation held report.after rest
      (report :: reports, raised, after)

end

/-- A session: steps one after another, faults included. -/
def runAll (derivation : Derivation) (vault : Vault) : List Step → List Report
  | [] => []
  | step :: rest =>
    let report := step.run derivation [] vault
    report :: runAll derivation report.after rest

end WalletKeys.Session
