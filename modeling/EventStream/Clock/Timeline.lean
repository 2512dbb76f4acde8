import EventStream.Number.Basic

/-
# Timers on a virtual clock

A virtual clock stands still until it is moved, and moving it runs the timers that fall due on the
way, in the order of their times; timers of one time run in the order in which they were set. Each
timer has a number of its own, under which it can be cancelled. The timeline only says which timer
is next: what running it means is up to its owner, and new timers may be set meanwhile.
-/

namespace EventStream

/-- A timer that has not run yet. -/
structure Timer (α : Type) where
  id : Nat
  due : Float
  action : α

/-- A clock with its timers, in the order in which they were set. -/
structure Timeline (α : Type) where
  now : Float := 0.0
  timers : List (Timer α) := []
  nextId : Nat := 0

namespace Timeline

variable {α : Type}

/-- Set a timer at a time. -/
def scheduleAt (t : Timeline α) (due : Float) (action : α) : Timeline α :=
  { t with timers := t.timers ++ [⟨t.nextId, due, action⟩], nextId := t.nextId + 1 }

/-- Take a timer away. -/
def cancel (t : Timeline α) (id : Nat) : Timeline α :=
  { t with timers := t.timers.filter (·.id ≠ id) }

/-- The earlier of two timers; of two at one time the one that was set first. -/
def earlier (a b : Timer α) : Timer α := if b.due < a.due then b else a

/-- The timer that runs next. -/
def next? (t : Timeline α) : Option (Timer α) :=
  match t.timers with
  | [] => none
  | first :: rest => some (rest.foldl earlier first)

/-- The timers in the order in which they run. -/
def sorted (t : Timeline α) : List (Timer α) :=
  t.timers.mergeSort fun a b => !(b.due < a.due)

/-- Take out the timers that are due up to a time, in the order in which they run, with the time
at which each runs: a timer that was set for the past runs now. -/
def dueUntil (t : Timeline α) (limit : Float) : List (Timer α × Float) :=
  (t.sorted.filter (·.due ≤ limit)).map fun timer =>
    (timer, if timer.due < t.now then t.now else timer.due)

end Timeline

/-- The fault of setting a timer where no clock runs. -/
def Clock.noLoop : Fault := .raised .runtime "no running event loop"

end EventStream
