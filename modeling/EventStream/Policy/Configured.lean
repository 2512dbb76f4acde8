import EventStream.Config.Store
import EventStream.Policy.Settings

/-
# Policies of the settings

A group of the settings describes a reconnect policy by the names of its entries. A setting that
stands in the place of a group is read as a list of pairs, if it is one.
-/

namespace EventStream.Config

/-- The policy that what was found describes. -/
def Found.policy : Found → Except Fault (ReconnectPolicy Number)
  | .group g => ReconnectPolicy.ofSettings (Details.ofTable g.data)
  | .value v => ReconnectPolicy.ofValue v

/-- The policy of a group of the settings. -/
def Store.policy (s : Store) (group : Text) : Except Fault (ReconnectPolicy Number) := do
  (← s.find [group]).policy

end EventStream.Config
