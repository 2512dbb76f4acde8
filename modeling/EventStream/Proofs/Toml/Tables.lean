import EventStream.Proofs.Config.Places
import EventStream.Proofs.Results
import EventStream.Toml.Parser

/-
# The tables of a settings file

A settings file never defines a key twice, so no table that is read from it has a key twice, and
there is no way to write null (`written_of_parse`). The document changes its tables by setting keys
only, which cannot repeat one; the lemmas follow the reader from a value to an entry, a line and the
whole file.

What stands inside a list is left out: the settings are never looked up there.
-/

namespace EventStream.Toml

open Value (Written)

/-! ## Values -/

theorem plain_of_truth {t : Text} {found : Value × Text} (read : truth? t = some found) :
    found.1.plain := by
  unfold truth? at read
  split at read <;> first | contradiction | (obtain rfl := Option.some.inj read; rfl)

theorem plain_of_special {t : Text} {found : Value × Text} (read : special? t = some found) :
    found.1.plain := by
  unfold special? at read
  dsimp only at read
  split at read <;> first | contradiction | (obtain rfl := Option.some.inj read; rfl)

theorem plain_of_decimal {t rest : Text} {v : Value} (read : decimal? t = some (.ok (v, rest))) :
    v.plain := by
  unfold decimal? at read
  dsimp only at read
  split at read
  · contradiction
  · split at read
    · split at read
      · simp at read
      · obtain rfl := (Prod.mk.inj (Except.ok.inj (Option.some.inj read))).1
        rfl
    · obtain rfl := (Prod.mk.inj (Except.ok.inj (Option.some.inj read))).1
      rfl

/-- A value that is neither text, list nor table. -/
theorem plain_of_scalarValue {t rest : Text} {v : Value} (read : scalarValue t = .ok (v, rest)) :
    v.plain := by
  unfold scalarValue at read
  split at read
  case h_1 found truth =>
    obtain rfl := Except.ok.inj read
    exact plain_of_truth truth
  case h_2 =>
    split at read
    case h_1 found moment =>
      obtain ⟨⟨m, more⟩, -, same⟩ := ok_of_map read
      obtain ⟨rfl, -⟩ := Prod.mk.inj same
      rfl
    case h_2 =>
      split at read
      case h_1 n more marked =>
        obtain ⟨rfl, -⟩ := Prod.mk.inj (Except.ok.inj read)
        rfl
      case h_2 =>
        split at read
        case h_1 found decimal => exact plain_of_decimal (read ▸ decimal)
        case h_2 =>
          split at read
          case h_1 found special =>
            obtain rfl := Except.ok.inj read
            exact plain_of_special special
          case h_2 => contradiction

/-- A key that is set below an inline table is set once. -/
theorem written_of_insertInline {v : Value} (written : Written v) (path : Path) {t t' : Table}
    (inserted : insertInline v path t = some t') (before : Written (.table t)) :
    Written (.table t') := by
  fun_induction insertInline v path t generalizing t' with
  | case1 => contradiction
  | case2 => contradiction
  | case3 key t fresh =>
      obtain rfl := Option.some.inj inserted
      exact before.set key written
  | case4 key rest t ne absent ih =>
      obtain ⟨inner, made, rfl⟩ := Option.map_eq_some_iff.mp inserted
      exact before.set key (ih made .empty)
  | case5 key rest t ne inner found ih =>
      obtain ⟨inner', made, rfl⟩ := Option.map_eq_some_iff.mp inserted
      exact before.set key (ih made (before.get? found))
  | case6 => contradiction

/-- A value that is read, and an inline table. -/
theorem written_of_value (bound : Nat) :
    (∀ calls t v rest, value bound calls t = .ok (v, rest) → Written v) ∧
      ∀ calls closed t text t' rest, inlineEntries bound calls closed t text = .ok (t', rest) →
        Written (.table t) → Written (.table t') := by
  induction bound with
  | zero => exact ⟨nofun, nofun⟩
  | succ bound ih =>
      obtain ⟨ofValue, ofEntries⟩ := ih
      refine ⟨fun calls t v rest read => ?_, fun calls closed t text t' rest read before => ?_⟩
      · cases calls with
        | zero => contradiction
        | succ calls =>
            cases t with
            | nil => contradiction
            | cons c more =>
                simp only [value] at read
                split at read
                · obtain ⟨⟨body, after⟩, -, same⟩ := ok_of_map read
                  obtain ⟨rfl, -⟩ := Prod.mk.inj same
                  exact .leaf rfl
                · split at read
                  · obtain ⟨inside, -, read⟩ := ok_of_bind read
                    split at read
                    · obtain ⟨rfl, -⟩ := Prod.mk.inj (Except.ok.inj read)
                      exact .leaf rfl
                    · obtain ⟨⟨vs, after⟩, -, read⟩ := ok_of_bind read
                      obtain ⟨rfl, -⟩ := Prod.mk.inj (Except.ok.inj read)
                      exact .leaf rfl
                  · split at read
                    · split at read
                      · obtain ⟨rfl, -⟩ := Prod.mk.inj (Except.ok.inj read)
                        exact .empty
                      · obtain ⟨⟨t, after⟩, entries, same⟩ := ok_of_map read
                        obtain ⟨rfl, -⟩ := Prod.mk.inj same
                        exact ofEntries _ _ _ _ _ _ entries .empty
                    · exact .leaf (plain_of_scalarValue read)
      · simp only [inlineEntries] at read
        obtain ⟨⟨key, afterKey⟩, -, read⟩ := ok_of_bind read
        obtain ⟨afterEquals, -, read⟩ := ok_of_bind read
        obtain ⟨⟨v, afterValue⟩, reads, read⟩ := ok_of_bind read
        have written : Written v := ofValue _ _ _ _ reads
        split at read
        · contradiction
        · split at read
          case h_1 => contradiction
          case h_2 after inserted =>
            have between := written_of_insertInline written key inserted before
            split at read
            · obtain ⟨rfl, -⟩ := Prod.mk.inj (Except.ok.inj read)
              exact between
            · exact ofEntries _ _ _ _ _ _ read between
            · contradiction

/-! ## The document -/

/-- Whether a change of tables repeats no key. -/
def Keeps (f : Table → Option Table) : Prop :=
  ∀ t t', f t = some t' → Written (.table t) → Written (.table t')

/-- A change of the table at a path repeats no key on the way. -/
theorem keeps_tableModifyAt {f : Table → Option Table} (keeps : Keeps f) (bound : Nat) :
    (∀ path, Keeps (tableModifyAt f path bound)) ∧
      ∀ path v v', modifyValueAt f path bound v = some v' → Written v → Written v' := by
  induction bound with
  | zero => exact ⟨fun path t t' changed => by simp [tableModifyAt] at changed,
      fun path v v' changed => by simp [modifyValueAt] at changed⟩
  | succ bound ih =>
      obtain ⟨ofTable, ofValue⟩ := ih
      refine ⟨fun path t t' changed before => ?_, fun path v v' changed before => ?_⟩
      · cases path with
        | nil =>
            simp only [tableModifyAt] at changed
            exact keeps t t' changed before
        | cons key path =>
            simp only [tableModifyAt] at changed
            obtain ⟨inner, made, rfl⟩ := Option.map_eq_some_iff.mp changed
            refine before.set key (ofValue _ _ _ made ?_)
            cases found : Table.get? t key with
            | none => exact .empty
            | some v => exact before.get? found
      · simp only [modifyValueAt] at changed
        split at changed
        · obtain ⟨t, made, rfl⟩ := Option.map_eq_some_iff.mp changed
          exact ofTable _ _ _ made before
        · split at changed
          · contradiction
          · obtain ⟨t, -, rfl⟩ := Option.map_eq_some_iff.mp changed
            exact .leaf rfl
          · contradiction
        · contradiction

namespace Document

variable {d d' : Document} {path : Path}

/-- Whether no table of the document has a key twice. -/
def Written (d : Document) : Prop := Value.Written (.table d.root)

theorem Written.modifyAt (written : d.Written) {f : Table → Option Table} (keeps : Keeps f)
    (changed : d.modifyAt path f = .ok d') : d'.Written := by
  unfold Document.modifyAt at changed
  split at changed
  case h_1 root made =>
    obtain rfl := Except.ok.inj changed
    exact (keeps_tableModifyAt keeps _).1 _ _ _ made written
  case h_2 => contradiction

theorem Written.openTable (written : d.Written) (opened : d.openTable path = .ok d') :
    d'.Written := by
  unfold Document.openTable at opened
  dsimp only at opened
  split at opened
  · contradiction
  · refine Written.modifyAt ?_ ?_ opened
    · exact written
    · exact fun t t' same before => Option.some.inj same ▸ before

theorem Written.openItem (written : d.Written) (opened : d.openItem path = .ok d') :
    d'.Written := by
  unfold Document.openItem at opened
  dsimp only at opened
  split at opened
  · contradiction
  · split at opened
    case h_1 => contradiction
    case h_2 last _ =>
      refine Written.modifyAt ?_ ?_ opened
      · exact written
      · intro t t' same before
        dsimp only at same
        split at same
        · obtain rfl := Option.some.inj same
          exact before.set last (.leaf rfl)
        · obtain rfl := Option.some.inj same
          exact before.set last (.leaf rfl)
        · contradiction

theorem Written.define (written : d.Written) {key : Path} {v : Value} (value : v.Written)
    (defined : d.define path key v = .ok d') : d'.Written := by
  unfold Document.define at defined
  dsimp only at defined
  split at defined
  case h_1 => contradiction
  case h_2 last _ =>
    split at defined
    · contradiction
    · refine Written.modifyAt ?_ ?_ defined
      · exact written
      · intro t t' same before
        dsimp only at same
        split at same
        · contradiction
        · obtain rfl := Option.some.inj same
          exact before.set last value

end Document

/-! ## Lines -/

theorem written_of_header {d d' : Document} {t rest : Text} {path : Path}
    (written : d.Written) (read : header d t = .ok (d', path, rest)) : d'.Written := by
  unfold header at read
  split at read
  · obtain ⟨⟨path, after⟩, -, read⟩ := ok_of_bind read
    obtain ⟨next, opened, read⟩ := ok_of_bind read
    split at read
    · obtain ⟨rfl, -⟩ := Prod.mk.inj (Except.ok.inj read)
      exact written.openItem opened
    · contradiction
  · obtain ⟨⟨path, after⟩, -, read⟩ := ok_of_bind read
    obtain ⟨next, opened, read⟩ := ok_of_bind read
    split at read
    · obtain ⟨rfl, -⟩ := Prod.mk.inj (Except.ok.inj read)
      exact written.openTable opened
    · contradiction
  · contradiction

theorem written_of_definition {d d' : Document} {t rest : Text} {path : Path}
    (written : d.Written) (read : definition d path t = .ok (d', rest)) : d'.Written := by
  obtain ⟨⟨key, afterKey⟩, -, read⟩ := ok_of_bind read
  obtain ⟨afterEquals, -, read⟩ := ok_of_bind read
  obtain ⟨⟨v, afterValue⟩, reads, read⟩ := ok_of_bind read
  obtain ⟨next, defined, read⟩ := ok_of_bind read
  obtain ⟨rfl, -⟩ := Prod.mk.inj (Except.ok.inj read)
  exact written.define ((written_of_value _).1 _ _ _ _ reads) defined

theorem written_of_lines {d d' : Document} (bound : Nat) {path : Path} {t : Text}
    (written : d.Written) (read : lines bound d path t = .ok d') : d'.Written := by
  induction bound generalizing d path t with
  | zero => exact Except.ok.inj read ▸ written
  | succ bound ih =>
      simp only [lines] at read
      split at read
      · exact Except.ok.inj read ▸ written
      · split at read
        · exact ih written read
        · split at read
          · obtain ⟨⟨next, path, after⟩, opened, read⟩ := ok_of_bind read
            obtain ⟨after, -, read⟩ := ok_of_bind read
            exact ih (written_of_header written opened) read
          · split at read
            · obtain ⟨after, -, read⟩ := ok_of_bind read
              exact ih written read
            · split at read
              · obtain ⟨⟨next, after⟩, defined, read⟩ := ok_of_bind read
                obtain ⟨after, -, read⟩ := ok_of_bind read
                exact ih (written_of_definition written defined) read
              · contradiction

/-- No table of a settings file has a key twice. -/
theorem written_of_parse {t : Text} {table : Table} (read : parse t = .ok table) :
    Written (.table table) := by
  obtain ⟨d, reads, rfl⟩ := ok_of_map read
  exact written_of_lines _ (d := {}) .empty reads

end EventStream.Toml
