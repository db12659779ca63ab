import Workbench.Risk.AccountSnapshot

/-!
# The broker registry

Model of `BrokerRegistry` (`app/brokers/registry.py`): one adapter an account, looked up by account id.
An adapter is an object, so all the model keeps of it is which one it is; `BrokerReads` says what each
adapter answers at each of the points where the risk code reads the broker.
-/

namespace Workbench.Brokers
open Workbench.Lib Workbench.Risk

/-- A `BrokerAdapter`, by identity. -/
structure Adapter where
  id : Nat
  deriving DecidableEq, Repr

/-- Python `BrokerRegistry._adapters`, keyed by account id. -/
abbrev BrokerRegistry := Dict Nat Adapter

/-- The points of one evaluation at which the broker is read. -/
inductive ReadPoint where
  | shortGate
  | buyingPower
  | decision
  deriving DecidableEq, Repr

/-- What an adapter answers at a point of an evaluation; `none` is a read that raised. -/
abbrev BrokerReads := Adapter → ReadPoint → Option BrokerRead

/-- What the decision service reads through the `adapter` it is given; no adapter is a failed read. -/
def decisionRead (reads : BrokerReads) (adapter : Option Adapter) : Option BrokerRead :=
  adapter.bind (reads · .decision)

end Workbench.Brokers
