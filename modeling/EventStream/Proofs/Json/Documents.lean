import EventStream.Proofs.Json.Scalars

/-
# Documents

A text is read as a document exactly where it is one (`parse_eq_ok_iff`).

One half holds reader by reader: what is read is written there (`sound`), by induction on the bound.
The other half follows the grammar: a piece that writes a value is read, whatever follows it, if the
bound is twice its length (`readable_of_writes`). The items of a list and the entries of a table
need a little more than that, which the brackets around them pay for.
-/

namespace EventStream.Json

/-! ## Items and entries one after another -/

theorem Blank.append {s t : Text} (first : Blank s) (second : Blank t) : Blank (s ++ t) := by
  intro c inside
  rcases List.mem_append.mp inside with before | after
  · exact first c before
  · exact second c after

theorem commas_cons {p : Text} {pieces : List Text} (more : pieces ≠ []) :
    commas (p :: pieces) = p ++ .scalar ',' :: commas pieces := by
  cases pieces with
  | nil => contradiction
  | cons q pieces => simp [commas, Text.join]

/-- Parts of one kind with commas between them, and what they are worth. -/
def Series {ι α : Type} (line : ι → Text) (value : ι → α) (Good : ι → Prop) (p : Text)
    (vs : List α) : Prop :=
  ∃ parts : List ι, parts ≠ [] ∧ p = commas (parts.map line) ∧ vs = parts.map value ∧
    ∀ i ∈ parts, Good i

namespace Series

variable {ι α : Type} {line : ι → Text} {value : ι → α} {Good : ι → Prop} {p : Text} {vs : List α}

theorem single {i : ι} (good : Good i) : Series line value Good (line i) [value i] :=
  ⟨[i], List.cons_ne_nil i [], rfl, rfl, by simpa using good⟩

theorem cons {i : ι} (good : Good i) (more : Series line value Good p vs) :
    Series line value Good (line i ++ .scalar ',' :: p) (value i :: vs) := by
  obtain ⟨parts, nonempty, rfl, rfl, areGood⟩ := more
  refine ⟨i :: parts, List.cons_ne_nil i parts, ?_, rfl, List.forall_mem_cons.mpr ⟨good, areGood⟩⟩
  rw [List.map_cons, commas_cons (by simpa using nonempty)]

/-- What stands before the first part may be counted to it. -/
theorem lead {s : Text} (moves : ∀ i, Good i → ∃ j, Good j ∧ line j = s ++ line i ∧
    value j = value i) (series : Series line value Good p vs) :
    Series line value Good (s ++ p) vs := by
  obtain ⟨parts, nonempty, rfl, rfl, areGood⟩ := series
  cases parts with
  | nil => contradiction
  | cons i parts =>
      obtain ⟨good, areGood⟩ := List.forall_mem_cons.mp areGood
      obtain ⟨j, good', moved, same⟩ := moves i good
      refine ⟨j :: parts, List.cons_ne_nil j parts, ?_, by simp [same],
        List.forall_mem_cons.mpr ⟨good', areGood⟩⟩
      cases parts <;> simp [commas, Text.join, moved]

end Series

/-- The pieces that write the items of a list. -/
def Lists (depth : Nat) : Text → List Value → Prop :=
  Series Item.written Item.value fun i => i.IsSpaced ∧ Writes depth i.piece i.value

/-- The pieces that write the entries of a table. -/
def Tabulates (depth : Nat) : Text → List (Text × Value) → Prop :=
  Series Entry.line (fun e => (e.key, e.value)) fun e => e.IsKeyed ∧ Writes depth e.piece e.value

theorem Lists.single {depth : Nat} {i : Item} (spaced : i.IsSpaced)
    (writes : Writes depth i.piece i.value) : Lists depth i.written [i.value] :=
  Series.single ⟨spaced, writes⟩

theorem Lists.cons {depth : Nat} {i : Item} {p : Text} {vs : List Value} (spaced : i.IsSpaced)
    (writes : Writes depth i.piece i.value) (more : Lists depth p vs) :
    Lists depth (i.written ++ .scalar ',' :: p) (i.value :: vs) :=
  Series.cons ⟨spaced, writes⟩ more

theorem Lists.lead {depth : Nat} {s p : Text} {vs : List Value} (blank : Blank s)
    (lists : Lists depth p vs) : Lists depth (s ++ p) vs := by
  apply Series.lead _ lists
  rintro i ⟨⟨before, after⟩, writes⟩
  refine ⟨{ i with before := s ++ i.before }, ⟨⟨blank.append before, after⟩, writes⟩, ?_, rfl⟩
  simp [Item.written]

theorem Tabulates.single {depth : Nat} {e : Entry} (keyed : e.IsKeyed)
    (writes : Writes depth e.piece e.value) : Tabulates depth e.line [(e.key, e.value)] :=
  Series.single ⟨keyed, writes⟩

theorem Tabulates.cons {depth : Nat} {e : Entry} {p : Text} {es : List (Text × Value)}
    (keyed : e.IsKeyed) (writes : Writes depth e.piece e.value) (more : Tabulates depth p es) :
    Tabulates depth (e.line ++ .scalar ',' :: p) ((e.key, e.value) :: es) :=
  Series.cons ⟨keyed, writes⟩ more

theorem Tabulates.lead {depth : Nat} {s p : Text} {es : List (Text × Value)} (blank : Blank s)
    (tabulates : Tabulates depth p es) : Tabulates depth (s ++ p) es := by
  apply Series.lead _ tabulates
  rintro e ⟨⟨spaced, lead, gap, body⟩, writes⟩
  refine ⟨{ e with lead := s ++ e.lead }, ⟨⟨spaced, blank.append lead, gap, body⟩, writes⟩, ?_, rfl⟩
  simp [Entry.line, Item.written]

/-! ## What is read is written -/

/-- What the three readers read with a bound is written there. -/
structure Sound (bound : Nat) : Prop where
  value {depth : Nat} {t rest : Text} {v : Value} : value bound depth t = .ok (v, rest) →
    ∃ p, t = p ++ rest ∧ Writes depth p v
  items {depth : Nat} {t rest : Text} {vs : List Value} : items bound depth t = .ok (vs, rest) →
    ∃ p, t = p ++ .scalar ']' :: rest ∧ Lists depth p vs
  entries {depth : Nat} {t rest : Text} {es : List (Text × Value)} :
    entries bound depth t = .ok (es, rest) →
    ∃ p, t = p ++ .scalar '\x7d' :: rest ∧ Tabulates depth p es

theorem Lists.writes {depth : Nat} {p : Text} {vs : List Value} (lists : Lists depth p vs) :
    Writes (depth + 1) (.scalar '[' :: (p ++ [.scalar ']'])) (.list vs) := by
  obtain ⟨parts, nonempty, rfl, rfl, good⟩ := lists
  exact .list nonempty (fun i inside => (good i inside).1) fun i inside => (good i inside).2

theorem Tabulates.writes {depth : Nat} {p : Text} {es : List (Text × Value)}
    (tabulates : Tabulates depth p es) : Writes (depth + 1)
      (.scalar '\x7b' :: (p ++ [.scalar '\x7d'])) (.table (Table.ofEntries es)) := by
  obtain ⟨parts, nonempty, rfl, rfl, good⟩ := tabulates
  exact .table nonempty (fun e inside => (good e inside).1) fun e inside => (good e inside).2

theorem writes_of_value {bound depth : Nat} {t rest : Text} {v : Value} (sound : Sound bound)
    (read : value (bound + 1) depth t = .ok (v, rest)) : ∃ p, t = p ++ rest ∧ Writes depth p v := by
  cases t with
  | nil => contradiction
  | cons c t =>
      unfold Json.value at read
      dsimp only at read
      split at read
      case isTrue quote =>
        obtain ⟨⟨body, more⟩, text, same⟩ := ok_of_map read
        obtain ⟨rfl, rfl⟩ := Prod.mk.inj same
        obtain ⟨b, rfl, writes⟩ := textValue_eq_ok_iff.mp text
        refine ⟨between b, ?_, .text writes⟩
        simp [between, quote]
      split at read
      case isTrue bracket =>
        split at read
        · contradiction
        · obtain ⟨s, parts, blank⟩ := exists_blank t
          split at read
          case h_1 more closed =>
            obtain ⟨rfl, rfl⟩ := Prod.mk.inj (Except.ok.inj read)
            refine ⟨.scalar '[' :: (s ++ [.scalar ']']), ?_, .emptyList blank⟩
            rw [bracket, parts, closed]
            simp
          case h_2 =>
            obtain ⟨⟨vs, more⟩, reads, same⟩ := ok_of_map read
            obtain ⟨rfl, rfl⟩ := Prod.mk.inj same
            obtain ⟨p, follows, lists⟩ := sound.items reads
            -- the spaces behind the bracket are counted to the first item
            refine ⟨.scalar '[' :: (s ++ p ++ [.scalar ']']), ?_, (lists.lead blank).writes⟩
            rw [bracket, parts, follows]
            simp
      split at read
      case isTrue brace =>
        split at read
        · contradiction
        · obtain ⟨s, parts, blank⟩ := exists_blank t
          split at read
          case h_1 more closed =>
            obtain ⟨rfl, rfl⟩ := Prod.mk.inj (Except.ok.inj read)
            refine ⟨.scalar '\x7b' :: (s ++ [.scalar '\x7d']), ?_, .emptyTable blank⟩
            rw [brace, parts, closed]
            simp
          case h_2 =>
            obtain ⟨⟨es, more⟩, reads, same⟩ := ok_of_map read
            obtain ⟨rfl, rfl⟩ := Prod.mk.inj same
            obtain ⟨p, follows, tabulates⟩ := sound.entries reads
            refine ⟨.scalar '\x7b' :: (s ++ p ++ [.scalar '\x7d']), ?_,
              (tabulates.lead blank).writes⟩
            rw [brace, parts, follows]
            simp
      case isFalse =>
        obtain ⟨p, same, writes⟩ := scalar_of_scalarValue read
        exact ⟨p, same, .scalar writes⟩

theorem lists_of_items {bound depth : Nat} {t rest : Text} {vs : List Value} (sound : Sound bound)
    (read : items (bound + 1) depth t = .ok (vs, rest)) :
    ∃ p, t = p ++ .scalar ']' :: rest ∧ Lists depth p vs := by
  rw [items] at read
  obtain ⟨⟨v, behind⟩, first, next⟩ := ok_of_bind read
  obtain ⟨p, rfl, writes⟩ := sound.value first
  obtain ⟨s, parts, blank⟩ := exists_blank behind
  have spaced : (Item.mk [] p s v).IsSpaced := ⟨by simp [Blank], blank⟩
  dsimp only at next
  split at next
  case h_1 more closed =>
    obtain ⟨rfl, rfl⟩ := Prod.mk.inj (Except.ok.inj next)
    refine ⟨_, ?_, .single spaced writes⟩
    rw [parts, closed]
    simp [Item.written]
  case h_2 more comma =>
    obtain ⟨⟨vs', rest'⟩, reads, same⟩ := ok_of_bind next
    obtain ⟨rfl, rfl⟩ := Prod.mk.inj (Except.ok.inj same)
    obtain ⟨s', parts', blank'⟩ := exists_blank more
    obtain ⟨q, follows, lists⟩ := sound.items reads
    refine ⟨_, ?_, .cons spaced writes (lists.lead blank')⟩
    rw [parts, comma, parts', follows]
    simp [Item.written]
  case h_3 => contradiction

theorem tabulates_of_entries {bound depth : Nat} {t rest : Text} {es : List (Text × Value)}
    (sound : Sound bound) (read : entries (bound + 1) depth t = .ok (es, rest)) :
    ∃ p, t = p ++ .scalar '\x7d' :: rest ∧ Tabulates depth p es := by
  unfold entries at read
  dsimp only at read
  split at read
  case h_2 => contradiction
  case h_1 t =>
    obtain ⟨⟨key, afterKey⟩, quoted, next⟩ := ok_of_bind read
    obtain ⟨b, rfl, body⟩ := textValue_eq_ok_iff.mp quoted
    obtain ⟨gap, toColon, blankGap⟩ := exists_blank afterKey
    dsimp only at next
    split at next
    case h_2 => contradiction
    case h_1 afterColon colon =>
      obtain ⟨⟨v, behind⟩, first, last⟩ := ok_of_bind next
      obtain ⟨before, toValue, blankBefore⟩ := exists_blank afterColon
      obtain ⟨p, follows, writes⟩ := sound.value first
      obtain ⟨after, parts, blankAfter⟩ := exists_blank behind
      have keyed : (Entry.mk ⟨before, p, after, v⟩ [] b key gap).IsKeyed :=
        ⟨⟨blankBefore, blankAfter⟩, by simp [Blank], blankGap, body⟩
      dsimp only at last
      split at last
      case h_1 more closed =>
        obtain ⟨rfl, rfl⟩ := Prod.mk.inj (Except.ok.inj last)
        refine ⟨_, ?_, .single keyed writes⟩
        rw [toColon, colon, toValue, follows, parts, closed]
        simp [Entry.line, Item.written, between]
      case h_2 more comma =>
        obtain ⟨⟨es', rest'⟩, reads, same⟩ := ok_of_bind last
        obtain ⟨rfl, rfl⟩ := Prod.mk.inj (Except.ok.inj same)
        obtain ⟨s', parts', blank'⟩ := exists_blank more
        obtain ⟨q, follows', tabulates⟩ := sound.entries reads
        refine ⟨_, ?_, .cons keyed writes (tabulates.lead blank')⟩
        rw [toColon, colon, toValue, follows, parts, comma, parts', follows']
        simp [Entry.line, Item.written, between]
      case h_3 => contradiction

theorem sound (bound : Nat) : Sound bound := by
  induction bound with
  | zero =>
      refine ⟨fun read => ?_, fun read => ?_, fun read => ?_⟩
      · contradiction
      · contradiction
      · contradiction
  | succ bound ih => exact ⟨writes_of_value ih, lists_of_items ih, tabulates_of_entries ih⟩

/-! ## What is written is read -/

theorem skipSpaces_mark {s : Text} (blank : Blank s) {c : CodePoint} (mark : isSpace c = false)
    (t : Text) : skipSpaces (s ++ c :: t) = c :: t := by
  rw [skipSpaces_append blank]
  exact List.dropWhile_cons_of_neg (by simp [mark])

theorem EndsNumber.blank {s rest : Text} (ends : EndsNumber rest) (blank : Blank s) :
    EndsNumber (s ++ rest) := by
  cases s with
  | nil => exact ends
  | cons c s =>
      rintro c' ⟨⟩
      have space := blank c List.mem_cons_self
      simp only [isSpace, Bool.or_eq_true, decide_eq_true_eq] at space
      rcases space with ((rfl | rfl) | rfl) | rfl <;>
        exact ⟨rfl, by decide, by simp [IsExponentMark]⟩

theorem endsNumber_mark {c : CodePoint}
    (mark : c = .scalar ',' ∨ c = .scalar ']' ∨ c = .scalar '\x7d') (rest : Text) :
    EndsNumber (c :: rest) := by
  rintro c' ⟨⟩
  rcases mark with rfl | rfl | rfl <;> exact ⟨rfl, by decide, by simp [IsExponentMark]⟩

/-- A piece that is read as a value, whatever follows it. -/
structure Readable (depth : Nat) (p : Text) (v : Value) : Prop where
  starts : ∃ c q, p = c :: q ∧ isSpace c = false ∧ c ≠ .scalar ']'
  reads : ∀ bound rest, 2 * p.length ≤ bound + 1 → EndsNumber rest →
    value (bound + 1) depth (p ++ rest) = .ok (v, rest)

theorem skipSpaces_written {depth : Nat} {i : Item} (spaced : i.IsSpaced)
    (readable : Readable depth i.piece i.value) (rest : Text) :
    skipSpaces (i.written ++ rest) = i.piece ++ (i.after ++ rest) := by
  obtain ⟨c, q, start, mark, -⟩ := readable.starts
  rw [Item.written, List.append_assoc, List.append_assoc, start]
  exact skipSpaces_mark spaced.1 mark _

theorem value_written {bound depth : Nat} {i : Item} (spaced : i.IsSpaced)
    (readable : Readable depth i.piece i.value) (enough : 2 * i.written.length ≤ bound)
    {rest : Text} (ends : EndsNumber rest) :
    value bound depth (skipSpaces (i.written ++ rest)) = .ok (i.value, i.after ++ rest) := by
  obtain ⟨c, q, start, -⟩ := readable.starts
  have shorter : i.piece.length ≤ i.written.length ∧ 0 < i.piece.length := by
    simp [Item.written, start]
    omega
  rw [skipSpaces_written spaced readable]
  cases bound with
  | zero => omega
  | succ bound => exact readable.reads bound _ (by omega) (ends.blank spaced.2)

theorem items_last {bound depth : Nat} {i : Item} (spaced : i.IsSpaced)
    (readable : Readable depth i.piece i.value) (enough : 2 * i.written.length ≤ bound)
    (rest : Text) :
    items (bound + 1) depth (skipSpaces (i.written ++ .scalar ']' :: rest)) =
      .ok ([i.value], rest) := by
  have ends := endsNumber_mark (.inr (.inl rfl)) rest
  have follows := skipSpaces_mark spaced.2 (c := .scalar ']') rfl rest
  simp [items, value_written spaced readable enough ends, follows, ok_bind]

theorem items_next {bound depth : Nat} {i : Item} (spaced : i.IsSpaced)
    (readable : Readable depth i.piece i.value) (enough : 2 * i.written.length ≤ bound)
    {more rest : Text} {vs : List Value}
    (others : items bound depth (skipSpaces more) = .ok (vs, rest)) :
    items (bound + 1) depth (skipSpaces (i.written ++ .scalar ',' :: more)) =
      .ok (i.value :: vs, rest) := by
  have ends := endsNumber_mark (.inl rfl) more
  have follows := skipSpaces_mark spaced.2 (c := .scalar ',') rfl more
  simp [items, value_written spaced readable enough ends, follows, others, ok_bind]

theorem skipSpaces_line {e : Entry} (keyed : e.IsKeyed) (rest : Text) :
    skipSpaces (e.line ++ rest) = .scalar '"' ::
      (e.quoted ++ .scalar '"' :: (e.gap ++ .scalar ':' :: (e.written ++ rest))) := by
  obtain ⟨-, lead, -, -⟩ := keyed
  simpa [Entry.line, between] using skipSpaces_mark lead (c := .scalar '"') rfl _

/-- The key of an entry is read, and its value. -/
theorem entry_line {e : Entry} (keyed : e.IsKeyed) (rest : Text) :
    textValue (e.quoted ++ .scalar '"' :: (e.gap ++ .scalar ':' :: (e.written ++ rest))) =
      .ok (e.key, e.gap ++ .scalar ':' :: (e.written ++ rest)) ∧
    skipSpaces (e.gap ++ .scalar ':' :: (e.written ++ rest)) =
      .scalar ':' :: (e.written ++ rest) := by
  obtain ⟨-, -, gap, body⟩ := keyed
  exact ⟨textValue_eq_ok_iff.mpr ⟨e.quoted, rfl, body⟩, skipSpaces_mark gap rfl _⟩

theorem entries_last {bound depth : Nat} {e : Entry} (keyed : e.IsKeyed)
    (readable : Readable depth e.piece e.value) (enough : 2 * e.written.length ≤ bound)
    (rest : Text) :
    entries (bound + 1) depth (skipSpaces (e.line ++ .scalar '\x7d' :: rest)) =
      .ok ([(e.key, e.value)], rest) := by
  have ends := endsNumber_mark (.inr (.inr rfl)) rest
  have follows := skipSpaces_mark keyed.1.2 (c := .scalar '\x7d') rfl rest
  obtain ⟨key, colon⟩ := entry_line keyed (.scalar '\x7d' :: rest)
  rw [skipSpaces_line keyed]
  simp [entries, key, colon, value_written keyed.1 readable enough ends, follows, ok_bind]

theorem entries_next {bound depth : Nat} {e : Entry} (keyed : e.IsKeyed)
    (readable : Readable depth e.piece e.value) (enough : 2 * e.written.length ≤ bound)
    {more rest : Text} {es : List (Text × Value)}
    (others : entries bound depth (skipSpaces more) = .ok (es, rest)) :
    entries (bound + 1) depth (skipSpaces (e.line ++ .scalar ',' :: more)) =
      .ok ((e.key, e.value) :: es, rest) := by
  have ends := endsNumber_mark (.inl rfl) more
  have follows := skipSpaces_mark keyed.1.2 (c := .scalar ',') rfl more
  obtain ⟨key, colon⟩ := entry_line keyed (.scalar ',' :: more)
  rw [skipSpaces_line keyed]
  simp [entries, key, colon, value_written keyed.1 readable enough ends, follows, others, ok_bind]

theorem commas_single (p : Text) : commas [p] = p := by simp [commas, Text.join]

/-- The items of a list are read up to its closing bracket. -/
theorem items_commas {depth : Nat} {parts : List Item} (nonempty : parts ≠ [])
    (spaced : ∀ i ∈ parts, i.IsSpaced) (readable : ∀ i ∈ parts, Readable depth i.piece i.value)
    {bound : Nat} (enough : 2 * (commas (parts.map Item.written)).length < bound) (rest : Text) :
    items bound depth (skipSpaces (commas (parts.map Item.written) ++ .scalar ']' :: rest)) =
      .ok (parts.map Item.value, rest) := by
  induction parts generalizing bound with
  | nil => contradiction
  | cons i parts ih =>
      obtain ⟨first, spaced⟩ := List.forall_mem_cons.mp spaced
      obtain ⟨reads, readable⟩ := List.forall_mem_cons.mp readable
      cases bound with
      | zero => contradiction
      | succ bound =>
          cases parts with
          | nil =>
              rw [List.map_singleton, commas_single] at enough ⊢
              exact items_last first reads (by omega) rest
          | cons j parts =>
              rw [List.map_cons, commas_cons (by simp)] at enough ⊢
              rw [List.length_append, List.length_cons] at enough
              rw [List.append_assoc, List.cons_append]
              apply items_next first reads (by omega)
              exact ih (List.cons_ne_nil j parts) spaced readable (by omega)

/-- The entries of a table are read up to its closing brace. -/
theorem entries_commas {depth : Nat} {parts : List Entry} (nonempty : parts ≠ [])
    (keyed : ∀ e ∈ parts, e.IsKeyed) (readable : ∀ e ∈ parts, Readable depth e.piece e.value)
    {bound : Nat} (enough : 2 * (commas (parts.map Entry.line)).length < bound) (rest : Text) :
    entries bound depth (skipSpaces (commas (parts.map Entry.line) ++ .scalar '\x7d' :: rest)) =
      .ok (parts.map fun e => (e.key, e.value), rest) := by
  induction parts generalizing bound with
  | nil => contradiction
  | cons e parts ih =>
      obtain ⟨first, keyed⟩ := List.forall_mem_cons.mp keyed
      obtain ⟨reads, readable⟩ := List.forall_mem_cons.mp readable
      have shorter : e.written.length ≤ e.line.length := by
        simp [Entry.line]
        omega
      cases bound with
      | zero => contradiction
      | succ bound =>
          cases parts with
          | nil =>
              rw [List.map_singleton, commas_single] at enough ⊢
              exact entries_last first reads (by omega) rest
          | cons e' parts =>
              rw [List.map_cons, commas_cons (by simp)] at enough ⊢
              rw [List.length_append, List.length_cons] at enough
              rw [List.append_assoc, List.cons_append]
              apply entries_next first reads (by omega)
              exact ih (List.cons_ne_nil e' parts) keyed readable (by omega)

theorem commas_prefix (p : Text) (pieces : List Text) : ∃ t, commas (p :: pieces) = p ++ t := by
  cases pieces with
  | nil => exact ⟨[], by simp [commas_single]⟩
  | cons q pieces => exact ⟨_, commas_cons (List.cons_ne_nil q pieces)⟩

theorem value_list {bound depth : Nat} {t q : Text} {c : CodePoint} (start : skipSpaces t = c :: q)
    (goesOn : c ≠ .scalar ']') : value (bound + 1) (depth + 1) (.scalar '[' :: t) =
      (items bound depth (skipSpaces t)).map fun read => (.list read.1, read.2) := by
  simp [value, start, goesOn]

theorem value_table {bound depth : Nat} {t q : Text} {c : CodePoint} (start : skipSpaces t = c :: q)
    (goesOn : c ≠ .scalar '\x7d') : value (bound + 1) (depth + 1) (.scalar '\x7b' :: t) =
      (entries bound depth (skipSpaces t)).map fun read =>
        (.table (Table.ofEntries read.1), read.2) := by
  simp [value, start, goesOn]

/-- No closing bracket comes first in a list that has items. -/
theorem exists_first_item {depth : Nat} {parts : List Item} (nonempty : parts ≠ [])
    (spaced : ∀ i ∈ parts, i.IsSpaced) (readable : ∀ i ∈ parts, Readable depth i.piece i.value)
    (rest : Text) : ∃ c q, skipSpaces (commas (parts.map Item.written) ++ rest) = c :: q ∧
      c ≠ .scalar ']' := by
  obtain ⟨i, parts, rfl⟩ := List.exists_cons_of_ne_nil nonempty
  obtain ⟨t, begins⟩ := commas_prefix i.written (parts.map Item.written)
  have reads := readable i List.mem_cons_self
  obtain ⟨c, q, start, -, goesOn⟩ := reads.starts
  refine ⟨c, q ++ (i.after ++ (t ++ rest)), ?_, goesOn⟩
  rw [List.map_cons, begins, List.append_assoc,
    skipSpaces_written (spaced i List.mem_cons_self) reads, start]
  rfl

/-- A quote comes first in a table that has entries. -/
theorem exists_first_entry {parts : List Entry} (nonempty : parts ≠ [])
    (keyed : ∀ e ∈ parts, e.IsKeyed) (rest : Text) :
    ∃ q, skipSpaces (commas (parts.map Entry.line) ++ rest) = .scalar '"' :: q := by
  obtain ⟨e, parts, rfl⟩ := List.exists_cons_of_ne_nil nonempty
  obtain ⟨t, begins⟩ := commas_prefix e.line (parts.map Entry.line)
  rw [List.map_cons, begins, List.append_assoc, skipSpaces_line (keyed e List.mem_cons_self)]
  exact ⟨_, rfl⟩

theorem readable_list {depth : Nat} {parts : List Item} (nonempty : parts ≠ [])
    (spaced : ∀ i ∈ parts, i.IsSpaced) (readable : ∀ i ∈ parts, Readable depth i.piece i.value) :
    Readable (depth + 1) (.scalar '[' :: (commas (parts.map Item.written) ++ [.scalar ']']))
      (.list (parts.map Item.value)) := by
  refine ⟨⟨_, _, rfl, rfl, by decide⟩, ?_⟩
  intro bound rest enough ends
  obtain ⟨c, q, start, goesOn⟩ := exists_first_item nonempty spaced readable (.scalar ']' :: rest)
  have less : 2 * (commas (parts.map Item.written)).length < bound := by
    simp at enough
    omega
  rw [List.cons_append, List.append_assoc]
  show value (bound + 1) (depth + 1) (.scalar '[' :: (_ ++ .scalar ']' :: rest)) = _
  rw [value_list start goesOn, items_commas nonempty spaced readable less rest]
  rfl

theorem readable_table {depth : Nat} {parts : List Entry} (nonempty : parts ≠ [])
    (keyed : ∀ e ∈ parts, e.IsKeyed) (readable : ∀ e ∈ parts, Readable depth e.piece e.value) :
    Readable (depth + 1) (.scalar '\x7b' :: (commas (parts.map Entry.line) ++ [.scalar '\x7d']))
      (.table (Table.ofEntries (parts.map fun e => (e.key, e.value)))) := by
  refine ⟨⟨_, _, rfl, rfl, by decide⟩, ?_⟩
  intro bound rest enough ends
  obtain ⟨q, start⟩ := exists_first_entry nonempty keyed (.scalar '\x7d' :: rest)
  have less : 2 * (commas (parts.map Entry.line)).length < bound := by
    simp at enough
    omega
  rw [List.cons_append, List.append_assoc]
  show value (bound + 1) (depth + 1) (.scalar '\x7b' :: (_ ++ .scalar '\x7d' :: rest)) = _
  rw [value_table start (by decide), entries_commas nonempty keyed readable less rest]
  rfl

theorem readable_text {depth : Nat} {b t : Text} (body : Body b t) :
    Readable depth (between b) (.text t) := by
  refine ⟨⟨_, _, rfl, rfl, by decide⟩, ?_⟩
  intro bound rest enough ends
  have reads : textValue (b ++ .scalar '"' :: rest) = .ok (t, rest) :=
    textValue_eq_ok_iff.mpr ⟨b, rfl, body⟩
  simp [between, value, reads, Except.map]

theorem isDigit_begins {d : CodePoint} (digit : isDigit d = true) :
    isSpace d = false ∧ d ≠ .scalar '"' ∧ d ≠ .scalar '[' ∧ d ≠ .scalar ']' ∧
      d ≠ .scalar '\x7b' := by
  simp only [isSpace, Bool.or_eq_false_iff, decide_eq_false_iff_not]
  refine ⟨⟨⟨⟨?_, ?_⟩, ?_⟩, ?_⟩, ?_, ?_, ?_, ?_⟩ <;> rintro rfl <;> contradiction

/-- A scalar does not begin as anything else does. -/
theorem scalar_begins {p : Text} {v : Value} (writes : Scalar p v) : ∃ c q, p = c :: q ∧
    isSpace c = false ∧ c ≠ .scalar '"' ∧ c ≠ .scalar '[' ∧ c ≠ .scalar ']' ∧
      c ≠ .scalar '\x7b' := by
  cases writes with
  | word word =>
      cases word <;>
        exact ⟨_, _, rfl, rfl, by decide, by decide, by decide, by decide⟩
  | number number =>
      obtain ⟨d, q, rfl, digit⟩ := exists_digit_of_unsigned number
      exact ⟨d, q, rfl, isDigit_begins digit⟩
  | negative => exact ⟨_, _, rfl, rfl, by decide, by decide, by decide, by decide⟩

theorem readable_scalar {depth : Nat} {p : Text} {v : Value} (writes : Scalar p v) :
    Readable depth p v := by
  obtain ⟨c, q, start, mark, quote, bracket, closing, brace⟩ := scalar_begins writes
  refine ⟨⟨c, q, start, mark, closing⟩, ?_⟩
  intro bound rest enough ends
  have reads := scalarValue_of_scalar writes ends
  rw [start] at reads ⊢
  simpa [value, quote, bracket, brace] using reads

theorem readable_emptyList {depth : Nat} {s : Text} (blank : Blank s) :
    Readable (depth + 1) (.scalar '[' :: (s ++ [.scalar ']'])) (.list []) := by
  refine ⟨⟨_, _, rfl, rfl, by decide⟩, ?_⟩
  intro bound rest enough ends
  have closed := skipSpaces_mark blank (c := .scalar ']') rfl rest
  simp [value, closed]

theorem readable_emptyTable {depth : Nat} {s : Text} (blank : Blank s) :
    Readable (depth + 1) (.scalar '\x7b' :: (s ++ [.scalar '\x7d'])) (.table []) := by
  refine ⟨⟨_, _, rfl, rfl, by decide⟩, ?_⟩
  intro bound rest enough ends
  have closed := skipSpaces_mark blank (c := .scalar '\x7d') rfl rest
  simp [value, closed]

/-- A piece that writes a value is read as that value. -/
theorem readable_of_writes {depth : Nat} {p : Text} {v : Value} (writes : Writes depth p v) :
    Readable depth p v := by
  induction writes with
  | scalar writes => exact readable_scalar writes
  | text body => exact readable_text body
  | emptyList blank => exact readable_emptyList blank
  | list nonempty spaced _ ih => exact readable_list nonempty spaced ih
  | emptyTable blank => exact readable_emptyTable blank
  | table nonempty keyed _ ih => exact readable_table nonempty keyed ih

/-! ## Documents -/

theorem skipSpaces_blank {s : Text} (blank : Blank s) : skipSpaces s = [] := by
  have none := skipSpaces_append blank []
  rw [List.append_nil] at none
  exact none

/-- A text is read as a document exactly where it is one. -/
theorem parse_eq_ok_iff {t : Text} {v : Value} : parse t = .ok v ↔ Document t v := by
  constructor
  · intro read
    obtain ⟨before, start, blank⟩ := exists_blank t
    obtain ⟨⟨w, rest⟩, first, next⟩ := ok_of_bind read
    obtain ⟨p, follows, writes⟩ := (sound _).value first
    obtain ⟨after, ending, blank'⟩ := exists_blank rest
    dsimp only at next
    split at next
    case h_1 done =>
      obtain rfl := Except.ok.inj next
      rw [done, List.append_nil] at ending
      exact ⟨before, p, after, by rw [start, follows, ending], blank, blank', writes⟩
    case h_2 => contradiction
  · rintro ⟨before, p, after, rfl, blank, blank', writes⟩
    have readable := readable_of_writes writes
    obtain ⟨c, q, start, mark, -⟩ := readable.starts
    have first : skipSpaces (before ++ (p ++ after)) = p ++ after := by
      rw [start]
      exact skipSpaces_mark blank mark _
    have none : EndsNumber [] := nofun
    have ends : EndsNumber (after ++ []) := none.blank blank'
    rw [List.append_nil] at ends
    have enough : 2 * p.length ≤ 2 * (p ++ after).length + 2 := by
      rw [List.length_append]
      omega
    have reads := readable.reads (2 * (p ++ after).length + 1) after enough ends
    unfold parse
    dsimp only
    rw [first, reads]
    simp [skipSpaces_blank blank', ok_bind]

end EventStream.Json
