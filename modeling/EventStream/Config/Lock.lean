import EventStream.Config.Store

/-
# Settings under a lock

Settings are shared, so whoever reloads them holds their lock from before the old ones are looked at
until the new ones are in place and gone through. The lock is given back however that ends. What has
changed is worked out afterwards, from what was seen under the lock.

Reading the settings takes no lock.
-/

namespace EventStream.Config

/-- Settings with their lock. -/
structure Guarded where
  store : Store
  locked : Bool := false

namespace Guarded

variable {α : Type}

/-- Take the lock, work, and give the lock back, also after a fault. If somebody else has the lock
and never gives it back this does not end. -/
def holding (g : Guarded) (work : Guarded → Guarded × Reported α) : Option (Guarded × Reported α) :=
  if g.locked then none
  else
    let (g, r) := work { g with locked := true }
    some ({ g with locked := false }, r)

/-- Exchange the settings; the lock is left as it is. -/
def exchange (g : Guarded) (e : Environment) (now : Text) : Guarded × Reported (Table × Table) :=
  let (s, r) := g.store.exchange e now
  ({ g with store := s }, r)

/-- Load the settings again under the lock, and answer what is different. -/
def reload (g : Guarded) (e : Environment) (now : Text) :
    Option (Guarded × Reported (List Change)) :=
  (g.holding (·.exchange e now)).map fun (g, exchanged) =>
    (g, exchanged.andThen fun (before, after) => compared before after)

end Guarded

end EventStream.Config
