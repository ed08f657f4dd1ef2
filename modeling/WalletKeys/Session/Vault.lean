import WalletKeys.Key.Private
import WalletKeys.Session.Table

/-! # The vault

    The state of a session: the caller's buffers, private keys, views into
    private keys, and public keys, all by name. Every private key ever made has
    a cell of its own, and names and views refer to cells by number. A view
    therefore shows what its key holds now, and goes on doing so when the name
    of the key is gone.

    A cell whose name is dropped or given to another key is closed at once,
    unless an enclosing block still holds it. In that case it is closed when the
    block is left.
-/

namespace WalletKeys.Session

/-! ## Section 1: Faults -/

/-- Why a step was refused. -/
inductive Fault where
  /-- A fault of the key layer. -/
  | key (cause : KeyFault)
  /-- An attempt to write through a view. -/
  | readOnly
  /-- A position that is no machine size. -/
  | positionSize
  /-- A position outside of a buffer. -/
  | position
  /-- A number that is no octet. -/
  | octet
  /-- A name that stands for nothing. -/
  | name (missing : String)
  deriving DecidableEq, Repr

namespace Fault

/-- The sentence that reports a fault. -/
def message : Fault → String
  | key cause => cause.message
  | readOnly => "cannot modify read-only memory"
  | positionSize => "cannot fit 'int' into an index-sized integer"
  | position => "bytearray index out of range"
  | octet => "byte must be in range(0, 256)"
  | name missing => Text.quoted missing

/-- The branch of the taxonomy that a fault belongs to. -/
def category : Fault → Category
  | key cause => cause.category
  | readOnly => .kind
  | positionSize | position => .position
  | octet => .value
  | name _ => .name

end Fault

/-! ## Section 2: State -/

/-- The state of a session. -/
structure Vault where
  /-- Every private key ever made, in order. -/
  cells : List PrivateKey
  /-- The cells of the named private keys. -/
  keys : Table Nat
  /-- The cells that the named views show. -/
  views : Table Nat
  /-- The caller's buffers. -/
  buffers : Table Octets
  /-- The named public keys. -/
  publics : Table PublicKey

namespace Vault

/-- The vault before the first step. -/
def empty : Vault := ⟨[], .empty, .empty, .empty, .empty⟩

/-- The private key in a cell. A number not given out yet stands for a closed
    key without octets. -/
def cell (vault : Vault) (i : Nat) : PrivateKey := vault.cells.getD i ⟨[], false⟩

/-- Looks up a name. -/
def named {α : Type} (table : Table α) (name : String) : Except Fault α :=
  match table.get? name with
  | some value => .ok value
  | none => .error (.name name)

/-! ## Section 3: Changes -/

/-- Closes the key in a cell. -/
def close (vault : Vault) (i : Nat) : Vault :=
  { vault with cells := vault.cells.modify i PrivateKey.close }

/-- Gives up the cell of a name. Cells in `held` stay open for now. -/
def release (held : List Nat) (vault : Vault) (name : String) : Vault :=
  match vault.keys.get? name with
  | none => vault
  | some i => if i ∈ held then vault else vault.close i

/-- Puts a new key into a cell of its own and gives it a name, in place of any
    other key of that name. -/
def store (held : List Nat) (vault : Vault) (name : String) (key : PrivateKey) : Vault :=
  let vault := vault.release held name
  { vault with
    cells := vault.cells ++ [key]
    keys := vault.keys.set name vault.cells.length }

/-- Takes a name away from a key. -/
def drop (held : List Nat) (vault : Vault) (name : String) : Vault :=
  let vault := vault.release held name
  { vault with keys := vault.keys.erase name }

/-! ## Section 4: What a caller can see -/

/-- The visible part of a vault. -/
structure Snapshot where
  buffers : Table Octets
  /-- Which keys are open. -/
  keys : Table Bool
  /-- What the views show. -/
  views : Table Octets
  /-- The types of the public keys. -/
  publics : Table KeyType

/-- The octets that a view of a cell shows. -/
def shown (vault : Vault) (i : Nat) : Octets := (vault.cell i).buffer.take PrivateKey.size

/-- The visible part of a vault. -/
def snapshot (vault : Vault) : Snapshot where
  buffers := vault.buffers
  keys := vault.keys.map fun i => (vault.cell i).isOpen
  views := vault.views.map vault.shown
  publics := vault.publics.map PublicKey.type

end Vault

end WalletKeys.Session
