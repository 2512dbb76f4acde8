import EventStream.Event.Reading

/-
# Skill synchronisation events

While a skill is pushed into an agent's pod the platform reports the step at hand and, for steps
that count files, how many are done.
-/

namespace EventStream

/-- Progress of one skill on its way to one agent. -/
structure SkillSyncEvent where
  /-- Always `skill_sync` on the platform. -/
  type : Text
  /-- Progress, complete or error. -/
  action : Text
  skillId : Int
  skillName : Text
  commandName : Text
  agentId : Int
  /-- The step at hand. -/
  step : Text
  /-- The status line for people. -/
  message : Text
  /-- Files done so far, if the step counts files. -/
  current : Option Int
  /-- Files of the step, if the step counts files. -/
  total : Option Int
  deriving DecidableEq

namespace SkillSyncEvent

/-- Whether the synchronisation has finished, well or not. -/
def isTerminal (e : SkillSyncEvent) : Bool :=
  e.action = Text.ofString "complete" || e.action = Text.ofString "error"

/-- Read an event from a table. The fields are read in order, and the first flaw decides. -/
def ofTable (t : Table) : Except EventError SkillSyncEvent := do
  let type ← t.requireText "type"
  let action ← t.requireText "action"
  let skillId ← t.requireInt "skill_id"
  let skillName ← t.textOrEmpty "skill_name"
  let commandName ← t.textOrEmpty "command_name"
  let agentId ← t.requireInt "agent_id"
  let step ← t.textOrEmpty "step"
  let message ← t.textOrEmpty "message"
  let current ← t.optionalInt "current"
  let total ← t.optionalInt "total"
  return { type, action, skillId, skillName, commandName, agentId, step, message, current, total }

/-- The entry of a count that is known. -/
def countEntry (key : Text) : Option Int → Table
  | none => []
  | some n => [(key, .int n)]

/-- Write an event as a table; absent counts are left out. -/
def toTable (e : SkillSyncEvent) : Table :=
  let fixed : Table := [("type", .text e.type), ("action", .text e.action), ("skill_id", .int e.skillId),
    ("skill_name", .text e.skillName), ("command_name", .text e.commandName),
    ("agent_id", .int e.agentId), ("step", .text e.step), ("message", .text e.message)]
  fixed ++ countEntry "current" e.current ++ countEntry "total" e.total

end SkillSyncEvent

end EventStream
