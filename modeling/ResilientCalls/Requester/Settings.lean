import ResilientCalls.Attachment

/-!
# Settings of a requester

What a requester is set up with. Everything is checked before the storage is touched; then a given
context replaces the stored one, and the strategies are attached to what is stored.
-/

namespace ResilientCalls

open Program

variable {σ : Type}

/-- The settings, each of which may be left out. -/
structure Settings where
  name : Option String
  context : Option Context
  storage : Option StorageId
  timeout : Option Duration
  /-- Number of retries and the pause before each. -/
  retry : Option (Nat × Duration)
  connect : Option ConnectStrategy
  /-- Which policies a failed call goes through. -/
  failover : Option FailoverStrategy

namespace Settings

def none : Settings := ⟨.none, .none, .none, .none, .none, .none, .none⟩

/-- The name of a requester that is given none. -/
def defaultName : String := "<unnamed>"

/-- The strategies that the settings ask for; a bound of zero is refused before a count of zero. -/
def strategies (s : Settings) : Except Failure (List Strategy) := do
  let timeout ← s.timeout.mapM fun d => Strategy.timeout <$> TimeoutStrategy.make d
  let retry ← s.retry.mapM fun r => Strategy.retry <$> RetryStrategy.make r.1 r.2
  return timeout.toList ++ retry.toList ++ (s.connect.map .connect).toList
    ++ (s.failover.map .failover).toList

/-- Brings the settings into a storage, and answers which one it is. -/
def apply (s : Settings) : Program σ (Except Failure StorageId) := do
  match s.strategies with
  | .error e => return .error e
  | .ok strategies => do
      let storage ← match s.storage with
        | some i => pure i
        | .none => perform (.newStorage .empty)
      if let some c := s.context then
        let _ ← Storage.set storage c
      unless strategies.isEmpty do
        Storage.update storage (·.withStrategies strategies)
      return .ok storage

end Settings

end ResilientCalls
