import EventStream.Event.Basic
import EventStream.Proofs.Config.Places
import EventStream.Proofs.Results

/-
# Records that are written and read again

An event is read from a table and can be written as one. Reading is generous, because texts and
integers are made of whatever stands in a field, while writing is plain, so a written record need
not be the table that it was read from. It is read as the same event, though. For the two records
with fixed fields that holds of every event, however it came about.

A record of a streamed feed carries the other fields of its table along. Those come back unchanged,
behind the type and the action, because none of them can be called like these two
(`StreamEvent.toTable_of_ofTable`).
-/

namespace EventStream

/-! ## Tables -/

namespace Table

variable {t fields : Table} {key : Text}

/-- Entries with new keys are put behind the others. -/
theorem foldl_set_of_fresh (distinct : fields.keys.Nodup)
    (fresh : ∀ key ∈ fields.keys, key ∉ t.keys) :
    fields.foldl (fun t f => t.set f.1 f.2) t = t ++ fields := by
  induction fields generalizing t with
  | nil => simp
  | cons f fields ih =>
      obtain ⟨single, distinct⟩ := List.nodup_cons.mp distinct
      have absent : f.1 ∉ t.keys := fresh f.1 List.mem_cons_self
      rw [List.foldl_cons, set_of_not_mem absent, ih distinct, List.append_assoc]
      · rfl
      · intro key among known
        rw [keys, List.map_append, List.mem_append] at known
        rcases known with known | known
        · exact fresh key (List.mem_cons_of_mem _ among) known
        · obtain rfl : key = f.1 := by simpa using known
          exact single among

variable {keeps : Text → Bool}

theorem get?_filter (kept : keeps key = true) :
    Table.get? (t.filter fun e => keeps e.1) key = t.get? key := by
  induction t with
  | nil => rfl
  | cons e t ih =>
      obtain ⟨k, v⟩ := e
      by_cases same : k = key
      · subst same
        rw [List.filter_cons_of_pos (by exact kept), get?_cons_self, get?_cons_self]
      · rw [get?_cons_of_ne same]
        by_cases other : keeps k = true
        · rw [List.filter_cons_of_pos (by exact other), get?_cons_of_ne same, ih]
        · rw [List.filter_cons_of_neg (by exact other), ih]

theorem mem_keys_filter : key ∈ Table.keys (t.filter fun e => keeps e.1) ↔
    key ∈ t.keys ∧ keeps key = true := by
  simp only [keys, List.mem_map, List.mem_filter, Prod.exists]
  grind

theorem nodup_keys_filter (distinct : t.keys.Nodup) :
    (Table.keys (t.filter fun e => keeps e.1)).Nodup :=
  ((List.filter_sublist (l := t)).map Prod.fst).nodup distinct

end Table

/-- A field that must be there is the text of its value. -/
theorem Table.requireText_eq_ok_iff {t : Table} {field s : Text} : t.requireText field = .ok s ↔
    ∃ v, t.get? field = some v ∧ v.asText = .ok s := by
  unfold Table.requireText Table.require Table.readText
  cases t.get? field with
  | none => simp [Except.bind]
  | some v => simp [Except.bind, mapError_eq_ok_iff]

/-- A field that may be absent is the text of its value, or empty. -/
theorem Table.textOrEmpty_eq_ok_iff {t : Table} {field s : Text} : t.textOrEmpty field = .ok s ↔
    (∃ v, t.get? field = some v ∧ v.asText = .ok s) ∨ t.get? field = none ∧ s = [] := by
  unfold Table.textOrEmpty Table.readText
  cases t.get? field with
  | none => simp [eq_comm]
  | some v => simp [mapError_eq_ok_iff]

/-! ## Records with fixed fields -/

/-- Every event of a skill is read again from the table that it is written as. -/
theorem SkillSyncEvent.ofTable_toTable (e : SkillSyncEvent) : ofTable e.toTable = .ok e := by
  obtain ⟨type, action, skill, skillName, commandName, agent, step, message, current, total⟩ := e
  cases current <;> cases total <;> rfl

/-- Every event of a file is read again from the table that it is written as. -/
theorem OutputEvent.ofTable_toTable (e : OutputEvent) : ofTable e.toTable = .ok e := by
  obtain ⟨action, path, name, size⟩ := e
  cases action <;> rfl

/-! ## Records of a streamed feed -/

namespace StreamEvent

variable {t : Table} {e : StreamEvent}

/-- Whether a field is neither the type nor the action. -/
def isOther (key : Text) : Bool := key ≠ Text.ofString "type" && key ≠ Text.ofString "action"

/-- The fields of a table besides the type and the action. -/
def others (t : Table) : Table := t.filter fun f => isOther f.1

/-- A record with a type and an action, as a table. -/
def framed (type action : Text) (fields : Table) : Table :=
  ("type", .text type) :: ("action", .text action) :: fields

theorem isOther_iff {key : Text} : isOther key = true ↔
    key ≠ Text.ofString "type" ∧ key ≠ Text.ofString "action" := by
  simp [isOther]

/-- What a record is made of. -/
theorem ofTable_eq_ok_iff : ofTable t = .ok e ↔ ∃ type action, t.requireText "type" = .ok type ∧
    t.textOrEmpty "action" = .ok action ∧ e = ⟨.text type, .text action, others t⟩ := by
  constructor
  · intro read
    obtain ⟨type, required, next⟩ := ok_of_bind read
    obtain ⟨action, optional, same⟩ := ok_of_bind next
    exact ⟨type, action, required, optional, (Except.ok.inj same).symm⟩
  · rintro ⟨type, action, required, optional, rfl⟩
    rw [ofTable, required]
    show (t.textOrEmpty "action" >>= _) = _
    rw [optional]
    rfl

/-- The other fields come back behind the type and the action. -/
theorem toTable_others (distinct : t.keys.Nodup) (type action : Text) :
    toTable ⟨.text type, .text action, others t⟩ = framed type action (others t) := by
  apply Table.foldl_set_of_fresh (Table.nodup_keys_filter distinct)
  intro key among known
  obtain ⟨noType, noAction⟩ := isOther_iff.mp (Table.mem_keys_filter.mp among).2
  simp [Table.keys, noType, noAction] at known

theorem ofTable_framed (type action : Text) (t : Table) :
    ofTable (framed type action (others t)) = .ok ⟨.text type, .text action, others t⟩ := by
  apply ofTable_eq_ok_iff.mpr
  refine ⟨type, action, rfl, rfl, ?_⟩
  have again : others (framed type action (others t)) = others t := by
    show others (others t) = others t
    simp [others]
  rw [again]

/-- A table against the one that it is written as after it was read: the type and the action as
texts, all other fields unchanged, and nothing else. -/
structure Rewrites (before after : Table) : Prop where
  type : ∃ v s, before.get? "type" = some v ∧ v.asText = .ok s ∧ after.get? "type" = some (.text s)
  action : (∃ v s, before.get? "action" = some v ∧ v.asText = .ok s ∧
      after.get? "action" = some (.text s)) ∨
    before.get? "action" = none ∧ after.get? "action" = some (.text [])
  others (key : Text) : key ≠ Text.ofString "type" → key ≠ Text.ofString "action" →
    after.get? key = before.get? key
  distinct : after.keys.Nodup

theorem rewrites_framed {type action : Text} (dict : t.keys.Nodup)
    (required : t.requireText "type" = .ok type) (optional : t.textOrEmpty "action" = .ok action) :
    Rewrites t (framed type action (others t)) where
  type := by
    obtain ⟨v, found, text⟩ := Table.requireText_eq_ok_iff.mp required
    exact ⟨v, type, found, text, rfl⟩
  action := by
    rcases Table.textOrEmpty_eq_ok_iff.mp optional with ⟨v, found, text⟩ | ⟨absent, rfl⟩
    · exact .inl ⟨v, action, found, text, rfl⟩
    · exact .inr ⟨absent, rfl⟩
  others := by
    intro key noType noAction
    rw [framed, Table.get?_cons_of_ne noType.symm, Table.get?_cons_of_ne noAction.symm]
    exact Table.get?_filter (isOther_iff.mpr ⟨noType, noAction⟩)
  distinct := by
    have fresh (key : Text) (among : key ∈ Table.keys (others t)) :
        key ≠ Text.ofString "type" ∧ key ≠ Text.ofString "action" :=
      isOther_iff.mp (Table.mem_keys_filter.mp among).2
    have others : (Table.keys (others t)).Nodup := Table.nodup_keys_filter dict
    show (_ :: _ :: Table.keys (StreamEvent.others t)).Nodup
    apply List.nodup_cons.mpr
    constructor
    · rintro (_ | ⟨_, among⟩)
      exact (fresh _ among).1 rfl
    · exact List.nodup_cons.mpr ⟨fun among => (fresh _ among).2 rfl, others⟩

/-- A record that was read is read again from the table that it is written as, and that table says
what the first one said. -/
theorem toTable_of_ofTable (dict : t.keys.Nodup) (read : ofTable t = .ok e) :
    ofTable e.toTable = .ok e ∧ Rewrites t e.toTable := by
  obtain ⟨type, action, required, optional, rfl⟩ := ofTable_eq_ok_iff.mp read
  rw [toTable_others dict]
  exact ⟨ofTable_framed type action t, rewrites_framed dict required optional⟩

end StreamEvent

/-- Records survive being written. Whatever table one of the three models accepts, it accepts the
table that the record is written as, and reads the same record from it. For a record of a streamed
feed that table holds the type and the action as texts and every other field unchanged. -/
theorem records_survive_writing {t : Table} (dict : t.keys.Nodup) :
    (∀ e, SkillSyncEvent.ofTable t = .ok e → SkillSyncEvent.ofTable e.toTable = .ok e) ∧
    (∀ e, OutputEvent.ofTable t = .ok e → OutputEvent.ofTable e.toTable = .ok e) ∧
    ∀ e, StreamEvent.ofTable t = .ok e →
      StreamEvent.ofTable e.toTable = .ok e ∧ StreamEvent.Rewrites t e.toTable := by
  refine ⟨?_, ?_, ?_⟩
  · exact fun e _ => e.ofTable_toTable
  · exact fun e _ => e.ofTable_toTable
  · exact fun e read => StreamEvent.toTable_of_ofTable dict read

/-- A table that all three models accept, with numbers, a truth value and null where texts and
integers are wanted, and with a field that only the streamed record keeps. -/
def mixedTable : Table :=
  [("seen", .list [.null]), ("action", .text "upload"), ("type", .bool true), ("path", .null),
    ("skill_id", .text " 7 "), ("agent_id", .bool true)]

theorem records_survive_writing_mixed :
    (∃ e, SkillSyncEvent.ofTable mixedTable = .ok e ∧ SkillSyncEvent.ofTable e.toTable = .ok e) ∧
    (∃ e, OutputEvent.ofTable mixedTable = .ok e ∧ OutputEvent.ofTable e.toTable = .ok e) ∧
    ∃ e, StreamEvent.ofTable mixedTable = .ok e ∧ StreamEvent.ofTable e.toTable = .ok e ∧
      StreamEvent.Rewrites mixedTable e.toTable := by
  have dict : mixedTable.keys.Nodup := by decide
  obtain ⟨skill, output, stream⟩ := records_survive_writing dict
  refine ⟨⟨_, rfl, ?_⟩, ⟨_, rfl, ?_⟩, _, rfl, ?_⟩
  · exact skill _ rfl
  · exact output _ rfl
  · exact stream _ rfl

end EventStream
