import CredentialBroker.Util.Assoc
import CredentialBroker.Util.Saturating

/-!
# What every part of the gateway shares

Bytes, the two clocks, and the two enumerations that budgets, usage figures and runs are all kept
by. Monotonic instants and durations are counted in nanoseconds and are unbounded: the longest
lifetime a policy may ask for is thirty days, far from where `Instant` addition would overflow.
Unix times are seconds in a `UInt64`, because what a response header or a state file says may be
any 64-bit value.
-/

namespace CredentialBroker

/-- A byte string: a header value, a token, a body. -/
abbrev Bytes := List UInt8

/-- The bytes of an ASCII literal. -/
def ascii (s : String) : Bytes := s.toList.map (fun c => c.toNat.toUInt8)

/-- A reading of the monotonic clock, in nanoseconds. -/
abbrev Instant := Nat

/-- A length of time, in nanoseconds. -/
abbrev Duration := Nat

/-- `Duration::from_secs`. -/
def Duration.fromSecs (secs : Nat) : Duration := secs * 1000000000

/-- `Duration::as_secs`. -/
def Duration.asSecs (d : Duration) : Nat := d / 1000000000

/-- Whose a request is, as the rule that admitted it says: `Public` or `Private`, whose names Lean
keeps for itself. -/
inductive Consumer where
  | pub
  | priv
  deriving DecidableEq, Repr

/-- `Consumer::parse`. -/
def Consumer.parse (name : String) : Option Consumer :=
  if name = "public" then some .pub
  else if name = "private" then some .priv
  else none

/-- A provider, and its pool in a budget. -/
inductive Provider where
  | anthropic
  | codex
  | mistral
  deriving DecidableEq, Repr

/-- The provider whose credential the broker injects for `cluster`. -/
def Provider.forCluster : Option String → Option Provider
  | none => none
  | some cluster =>
    if cluster = "anthropic" then some .anthropic
    else if cluster = "inference-backend" then some .codex
    else if cluster = "mistral" then some .mistral
    else none

end CredentialBroker
