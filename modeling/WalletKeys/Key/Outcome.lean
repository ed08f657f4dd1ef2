import WalletKeys.Key.Fault
import WalletKeys.Stark.Ecdsa

/-! # Outcomes with a log

    Signing and deriving write log events. An `Outcome` is the events of an
    operation together with its value or fault; a fault keeps the events that
    came before it. No event carries a secret: it names a curve, a key type, a
    length, or which of two scalars was unusable.
-/

namespace WalletKeys

/-- What the log records. -/
inductive LogEvent where
  /-- A nonce was turned down on the STARK curve. -/
  | reseeded (reason : Stark.Rejection)
  /-- A signature of `length` octets was made. -/
  | signed (curve : Curve) (length : Nat)
  /-- A public key was derived. -/
  | derived (type : KeyType)
  deriving DecidableEq, Repr

/-- The line that records an event. -/
def LogEvent.line : LogEvent → String
  | reseeded reason =>
    let scalar := match reason with
      | .unusableR => "r"
      | .unusableS => "s"
    "DEBUG curvekeys.curves.stark: stark_sign: nonce gives unusable " ++ scalar ++ ", reseeding"
  | signed curve length =>
    "DEBUG curvekeys.keys.private: signed with " ++ curve.name ++ ": " ++ toString length
      ++ "-byte signature"
  | derived type => "DEBUG curvekeys.keys.private: derived " ++ type.name ++ " public key"

/-- The events of an operation and what it ended with. -/
structure Outcome (α : Type) where
  /-- The events, first event first. -/
  log : List LogEvent
  result : Except KeyFault α

namespace Outcome

/-- An outcome without events. -/
def ofResult {α : Type} (result : Except KeyFault α) : Outcome α := ⟨[], result⟩

/-- A single event. -/
def note (event : LogEvent) : Outcome Unit := ⟨[event], .ok ()⟩

/-- Goes on after an outcome, unless it is a fault. -/
def andThen {α β : Type} (first : Outcome α) (next : α → Outcome β) : Outcome β :=
  match first.result with
  | .ok value => ⟨first.log ++ (next value).log, (next value).result⟩
  | .error fault => ⟨first.log, .error fault⟩

instance : Monad Outcome where
  pure value := ofResult (.ok value)
  bind := andThen

instance : MonadLift (Except KeyFault) Outcome := ⟨ofResult⟩

end Outcome

end WalletKeys
