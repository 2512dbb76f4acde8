import EventStream.Proofs.Config.Exchange
import EventStream.Proofs.Config.Reading
import Mathlib.Order.MinMax

/-
# Reloading as a whole

A reload that fails should leave no trace, and it leaves none if the new settings did not come
about: then the old ones stay, with the time at which they were loaded, and the lock is free, so
that later reloads go as if this one had never been tried.

Between putting the new settings in place and answering, a reload goes through them and compares
them, and if they lie too deep for that it fails after it has changed everything. The next reload
begins by going through those settings, so from then on none succeeds.
-/

namespace EventStream.Config

/-! ## How deep settings lie -/

section

open Value (depth entriesDepth)

theorem entriesDepth_set_le (t : Table) (key : Text) (v : Value) :
    entriesDepth (t.set key v) ≤ max (entriesDepth t) v.depth := by
  induction t with
  | nil => simp [Table.set, entriesDepth]
  | cons entry rest ih =>
      obtain ⟨k, w⟩ := entry
      by_cases same : k = key <;> simp only [Table.set, same, if_true, if_false, entriesDepth] <;>
        omega

theorem depth_le_of_get? {t : Table} {key : Text} {v : Value} (found : t.get? key = some v) :
    v.depth ≤ entriesDepth t := by
  induction t with
  | nil => contradiction
  | cons entry rest ih =>
      obtain ⟨k, w⟩ := entry
      rw [entriesDepth]
      by_cases same : k = key
      · subst same
        rw [Table.get?_cons_self] at found
        obtain rfl := Option.some.inj found
        exact Nat.le_max_left ..
      · rw [Table.get?_cons_of_ne same] at found
        exact le_max_of_le_right (ih found)

mutual

theorem depth_mergeValue_le (current : Option Value) :
    (v : Value) → (mergeValue current v).depth ≤ max ((current.map depth).getD 0) v.depth
  | .table file => by
      rcases tables_or_leaf current (.table file) with ⟨base, _, rfl, ⟨⟩⟩ | leaf
      · have below := entriesDepth_mergeTable_le base file
        simp only [mergeValue, depth, Option.map_some, Option.getD_some]
        omega
      · rw [mergeValue_of_leaf leaf]
        exact Nat.le_max_right ..
  | .null | .bool _ | .int _ | .float _ | .text _ | .bytes _ | .list _ | .moment _ => by
      simp [mergeValue, depth]

theorem entriesDepth_mergeTable_le (base : Table) : (file : List (Text × Value)) →
    entriesDepth (mergeTable base file) ≤ max (entriesDepth base) (entriesDepth file)
  | [] => by simp [mergeTable, entriesDepth]
  | (key, v) :: rest => by
      have first := depth_mergeValue_le (base.get? key) v
      have set := entriesDepth_set_le base key (mergeValue (base.get? key) v)
      have others := entriesDepth_mergeTable_le (base.set key (mergeValue (base.get? key) v)) rest
      have standing : ((base.get? key).map depth).getD 0 ≤ entriesDepth base := by
        cases found : base.get? key with
        | none => exact Nat.zero_le _
        | some w => exact depth_le_of_get? found
      rw [mergeTable, entriesDepth]
      omega

end

variable {vars : Variables} {data file : Table} {os : List Override}

theorem entriesDepth_apply_le {o : Override} {next : Table}
    (applies : (o.apply vars data).result = .ok next) :
    entriesDepth next ≤ max (entriesDepth data) 1 := by
  rcases o.cases_of_apply applies with ⟨-, rfl⟩ | ⟨v, t, reads, group, rfl⟩
  · exact Nat.le_max_left ..
  · have leaf : v.depth = 0 := by
      have plain := o.plain_of_value reads
      cases v <;> first | rfl | contradiction
    have standing : entriesDepth t + 1 ≤ max (entriesDepth data) 1 := by
      cases found : data.get? o.group with
      | none =>
          rw [found] at group
          obtain rfl := Value.table.inj group
          exact Nat.le_max_right ..
      | some w =>
          rw [found] at group
          obtain rfl : w = .table t := group
          exact le_max_of_le_left (depth_le_of_get? found)
    have inner := entriesDepth_set_le t o.key v
    have outer := entriesDepth_set_le data o.group (.table (Table.set t o.key v))
    rw [depth] at outer
    omega

theorem entriesDepth_applyOverrides_le {after : Table}
    (applies : (applyOverrides vars data os).result = .ok after) :
    entriesDepth after ≤ max (entriesDepth data) 1 := by
  induction os generalizing data with
  | nil =>
      obtain rfl := Except.ok.inj applies
      exact Nat.le_max_left ..
  | cons o os ih =>
      obtain ⟨next, first, rest⟩ := exists_of_applyOverrides_cons applies
      have := entriesDepth_apply_le first
      have := ih rest
      omega

/-- Settings lie as deep as their file at most, unless that has no tables in tables. -/
theorem depth_build_le {files : Files} {path : Text}
    (reads : (readFile files path).result = .ok file)
    (built : (build files vars path).result = .ok data) :
    depth (.table data) ≤ max 2 (depth (.table file)) := by
  rw [build_of_readFile reads] at built
  have overridden := entriesDepth_applyOverrides_le built
  have merged := entriesDepth_mergeTable_le defaults file
  have start : entriesDepth defaults = 1 := by decide
  rw [depth, depth]
  omega

theorem shallow_of_build {files : Files} {path : Text}
    (reads : (readFile files path).result = .ok file) (shallow : Shallow file)
    (built : (build files vars path).result = .ok data) : Shallow data :=
  (depth_build_le reads built).trans (max_le (by decide) shallow)

end

/-! ## Reloading again and again -/

/-- An attempt to reload: where, and when. -/
abbrev Attempt := Environment × Text

/-- Whether the settings of an attempt come about. -/
def Attempt.comesAbout (path : Text) (a : Attempt) : Bool :=
  (build a.1.files a.1.vars path).result.isOk

namespace Store

variable {s s' : Store} {e : Environment} {now : Text} {answer : Except Fault (List Change)}

/-- Settings that do not come about leave the old ones in place. -/
theorem kept_of_unbuilt (ends : Ends s e now s' answer) {f : Fault}
    (unbuilt : (build e.files e.vars s.path).result = .error f) :
    s' = s ∧ answer = .error (if Shallow s.data then f else cannotGoThrough) := by
  cases ends with
  | untried deep => exact ⟨rfl, by rw [if_neg deep]⟩
  | unbuilt shallow unbuilt' =>
      rw [unbuilt] at unbuilt'
      exact ⟨rfl, by rw [if_pos shallow, Except.error.inj unbuilt']⟩
  | unseen _ built | uncompared _ built | done _ built =>
      rw [unbuilt] at built
      contradiction

/-- Settings that come about are put in place if the old ones can be gone through, whatever the
answer is then. -/
theorem exchanged_of_built (ends : Ends s e now s' answer) {data : Table}
    (built : (build e.files e.vars s.path).result = .ok data) (shallow : Shallow s.data) :
    s' = ⟨s.path, data, now⟩ ∧ answer =
      if Shallow data then
        if comparable (flatten s.data) (flatten data) then
          .ok (changes (flatten s.data) (flatten data))
        else .error cannotCompare
      else .error cannotGoThrough := by
  cases ends with
  | untried deep => contradiction
  | unbuilt _ unbuilt =>
      rw [built] at unbuilt
      contradiction
  | unseen _ built' deep =>
      obtain rfl := Except.ok.inj (built.symm.trans built')
      exact ⟨rfl, by rw [if_neg deep]⟩
  | uncompared _ built' shallow' unlike =>
      obtain rfl := Except.ok.inj (built.symm.trans built')
      exact ⟨rfl, by rw [if_pos shallow', if_neg unlike]⟩
  | done _ built' shallow' alike =>
      obtain rfl := Except.ok.inj (built.symm.trans built')
      exact ⟨rfl, by rw [if_pos shallow', if_pos alike]⟩

/-- Settings that cannot be gone through stay for good. -/
theorem kept_of_deep (ends : Ends s e now s' answer) (deep : ¬ Shallow s.data) :
    s' = s ∧ answer = .error cannotGoThrough := by
  cases ends with
  | untried => exact ⟨rfl, rfl⟩
  | unbuilt shallow | unseen shallow | uncompared shallow | done shallow => contradiction

end Store

namespace Guarded

/-- Reload once for each attempt, and collect the answers. -/
def reloads (g : Guarded) :
    List Attempt → Option (Guarded × List (Except Fault (List Change)))
  | [] => some (g, [])
  | (e, now) :: rest =>
    (g.reload e now).bind fun (g, answer) =>
      (g.reloads rest).map fun (g, answers) => (g, answer.result :: answers)

theorem reloads_cons (s : Store) (e : Environment) (now : Text) (rest : List Attempt) :
    (⟨s, false⟩ : Guarded).reloads ((e, now) :: rest) =
      ((⟨(s.reload e now).2.1, false⟩ : Guarded).reloads rest).map fun (g, answers) =>
        (g, (s.reload e now).2.2 :: answers) := by
  rw [reloads, reload_of_free]
  rfl

/-- Attempts whose settings do not come about can be left out: the others answer the same, and the
same settings are in place at the end, with the lock free. -/
theorem reloads_without_failures (s : Store) (attempts : List Attempt) : ∃ after answers,
    (⟨s, false⟩ : Guarded).reloads attempts = some (⟨after, false⟩, answers) ∧
      answers.length = attempts.length ∧
      (⟨s, false⟩ : Guarded).reloads (attempts.filter (·.comesAbout s.path)) =
        some (⟨after, false⟩,
          ((attempts.zip answers).filter (·.1.comesAbout s.path)).map (·.2)) := by
  induction attempts generalizing s with
  | nil => exact ⟨s, [], rfl, rfl, rfl⟩
  | cons a rest ih =>
      obtain ⟨e, now⟩ := a
      have ends := Store.ends_reload s e now
      obtain ⟨after, answers, run, length, without⟩ := ih (s.reload e now).2.1
      rw [Store.path_of_ends ends] at without
      refine ⟨after, (s.reload e now).2.2 :: answers, ?_, congrArg (· + 1) length, ?_⟩
      · rw [reloads_cons, run]
        rfl
      · cases built : (build e.files e.vars s.path).result with
        | error f =>
            have left : Attempt.comesAbout s.path (e, now) = false := by
              rw [Attempt.comesAbout, built]
              rfl
            rw [(Store.kept_of_unbuilt ends built).1] at without
            simpa [left] using without
        | ok data =>
            have kept : Attempt.comesAbout s.path (e, now) = true := by
              rw [Attempt.comesAbout, built]
              rfl
            simp [kept, reloads_cons, without]

/-- Once settings are in place that cannot be gone through, no reload ever succeeds. -/
theorem reloads_of_deep {s : Store} (deep : ¬ Shallow s.data) (attempts : List Attempt) :
    (⟨s, false⟩ : Guarded).reloads attempts =
      some (⟨s, false⟩, attempts.map fun _ => .error cannotGoThrough) := by
  induction attempts with
  | nil => rfl
  | cons a rest ih =>
      obtain ⟨e, now⟩ := a
      obtain ⟨kept, answer⟩ := Store.kept_of_deep (Store.ends_reload s e now) deep
      rw [reloads_cons, kept, answer, ih]
      rfl

end Guarded

/-- A reload leaves everything as it was, the lock free, if the new settings do not come about, and
that is so if the file cannot be read or clashes with a variable; such reloads may as well not have
been tried. If the settings come about they are in place, and the answer is what has changed, unless
they lie too deep: then the reload fails although everything has changed. Settings lie no deeper
than their file. And nothing can be reloaded over settings that lie too deep. -/
theorem kept_or_exchanged (s : Store) :
    (∀ e now, ∃ after answer, (⟨s, false⟩ : Guarded).reload e now = some (⟨after, false⟩, answer) ∧
      match (build e.files e.vars s.path).result with
      | .error f =>
        after = s ∧ answer.result = .error (if Shallow s.data then f else cannotGoThrough)
      | .ok data =>
        if Shallow s.data then
          after = ⟨s.path, data, now⟩ ∧ answer.result =
            if Shallow data then
              if comparable (flatten s.data) (flatten data) then
                .ok (changes (flatten s.data) (flatten data))
              else .error cannotCompare
            else .error cannotGoThrough
        else after = s ∧ answer.result = .error cannotGoThrough) ∧
    (∀ e : Environment, (∃ f, (build e.files e.vars s.path).result = .error f) ↔
      (∃ bytes, e.files.lookup s.path = some bytes ∧ Unreadable bytes) ∨
        ∃ file, (readFile e.files s.path).result = .ok file ∧
          ∃ o ∈ overrides, o.Clashes e.vars file) ∧
    (∀ (e : Environment) file data, (readFile e.files s.path).result = .ok file →
      (build e.files e.vars s.path).result = .ok data → Shallow file → Shallow data) ∧
    (∀ attempts, ∃ after answers,
      (⟨s, false⟩ : Guarded).reloads attempts = some (⟨after, false⟩, answers) ∧
        answers.length = attempts.length ∧
        (⟨s, false⟩ : Guarded).reloads (attempts.filter (·.comesAbout s.path)) =
          some (⟨after, false⟩,
            ((attempts.zip answers).filter (·.1.comesAbout s.path)).map (·.2))) ∧
    (¬ Shallow s.data → ∀ attempts, (⟨s, false⟩ : Guarded).reloads attempts =
      some (⟨s, false⟩, attempts.map fun _ => .error cannotGoThrough)) := by
  refine ⟨fun e now => ⟨_, _, Guarded.reload_of_free s e now, ?_⟩, fun e => build_fails_iff,
    fun e file data reads built shallow => shallow_of_build reads shallow built,
    Guarded.reloads_without_failures s, Guarded.reloads_of_deep⟩
  have ends := Store.ends_reload s e now
  cases built : (build e.files e.vars s.path).result with
  | error f => exact Store.kept_of_unbuilt ends built
  | ok data =>
      by_cases shallow : Shallow s.data
      · simp only [if_pos shallow]
        exact Store.exchanged_of_built ends built shallow
      · simp only [if_neg shallow]
        exact Store.kept_of_deep ends shallow

/-- A file in which 496 lists begin inside each other. -/
def nestedFile : List UInt8 := Utf8.ofChars ('a' :: '=' :: (List.replicate 495 '[' ++ ['[']))

/-- After files in another encoding and with lists too deep inside each other were tried, and
nothing has changed, a readable one gives its settings. -/
theorem kept_or_exchanged_household :
    let s : Store := ⟨"/etc/sac.toml", defaults, "dawn"⟩
    (∀ bytes ∈ [[0xE9], nestedFile], ∃ f answer,
      (⟨s, false⟩ : Guarded).reload (furnished bytes) "noon" = some (⟨s, false⟩, answer) ∧
        answer.result = .error f) ∧
    ∃ data answer, Shallow householdFile ∧ Shallow data ∧
      (⟨s, false⟩ : Guarded).reload household "dusk" =
        some (⟨⟨s.path, data, "dusk"⟩, false⟩, answer) ∧
      answer.result = .ok (changes (flatten defaults) (flatten data)) := by
  intro s
  obtain ⟨reloads, fails, lies, -⟩ := kept_or_exchanged s
  constructor
  · have unreadable : ∀ bytes ∈ [[0xE9], nestedFile], Unreadable bytes := by
      have notText : ∀ cs, [0xE9] ≠ Utf8.ofChars cs := Utf8.decode_eq_error_iff.mp ⟨_, by cbv⟩
      refine List.forall_mem_cons.mpr ⟨.notText notText, List.forall_mem_singleton.mpr ?_⟩
      exact unreadable_of_nested (by decide) []
    intro bytes among
    obtain ⟨f, unbuilt⟩ := (fails (furnished bytes)).mpr (.inl ⟨bytes, rfl, unreadable bytes among⟩)
    obtain ⟨after, answer, reload, kept⟩ := reloads (furnished bytes) "noon"
    rw [unbuilt] at kept
    obtain ⟨rfl, result⟩ := kept
    exact ⟨_, answer, reload, result⟩
  · obtain ⟨data, built, -⟩ : ∃ data,
        (build household.files household.vars s.path).result = .ok data ∧ _ := build_household
    have shallow : Shallow householdFile := by decide
    have shallow' : Shallow data := lies household _ data readFile_household built shallow
    obtain ⟨after, answer, reload, exchanged⟩ := reloads household "dusk"
    have old : Shallow s.data := by decide
    have alike : comparable (flatten s.data) (flatten data) := comparable_flatten (by decide) _
    simp only [built, if_pos old, if_pos shallow', if_pos alike] at exchanged
    obtain ⟨rfl, result⟩ := exchanged
    exact ⟨data, answer, shallow, shallow', reload, result⟩

end EventStream.Config
