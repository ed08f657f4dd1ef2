import WalletKeys.Hash.Sha1
import WalletKeys.Session.Step
import WalletKeys.Proofs.Multiples
import WalletKeys.Proofs.Secp256k1.Verification
import WalletKeys.Proofs.Stark.Verification
import WalletKeys.Proofs.Key.Private
import WalletKeys.Proofs.Nonce.Problem
import WalletKeys.Proofs.Secp256k1.Nonce
import WalletKeys.Proofs.Stark.Nonce
import WalletKeys.Proofs.Nonce.Separation
import WalletKeys.Proofs.Session.History
import WalletKeys.Proofs.Session.Lifecycle
import WalletKeys.Proofs.Binding
import WalletKeys.Proofs.Collision
import WalletKeys.Proofs.Key.Verification
import WalletKeys.Proofs.Key.Refusal
import WalletKeys.Proofs.Stark.Ordinate
import WalletKeys.Proofs.Key.Layers
import WalletKeys.Proofs.Key.Disclosure
import WalletKeys.Proofs.Session.Disclosure
import WalletKeys.Proofs.Session.Frame
import WalletKeys.Proofs.Nonce.Stream
import WalletKeys.Proofs.Secp256k1.Attempt
import WalletKeys.Proofs.Stark.Retry
import WalletKeys.Proofs.Opposites
import WalletKeys.Proofs.Modular.Inverses
import WalletKeys.Proofs.Key.Signature
