import EventStream.Sse.Buffer
import Mathlib.Data.List.Infix

/-
# Where the network cuts a body

A buffer holds the unfinished record with its line ends already written as line feeds, and writes
them anew with every chunk. That is harmless as long as nothing in it reads as a CRLF. A carriage
return before a CRLF breaks this: the first pass makes a CRLF of the three characters, and the next
chunk, even an empty one, makes a line feed of that.

So what a body gives, its payloads and the unfinished record, does not depend on where it is cut,
exactly if no carriage return stands before a CRLF. `feedAll_eq_feed_iff` says so for a body
together with all its beginnings, for a body is fed before it is known how it goes on.
-/

namespace EventStream.Sse

/-- A carriage return and a line feed. -/
abbrev crlf : Text := [carriageReturn, lineFeed]

/-- No carriage return stands before a CRLF. -/
def Regular (t : Text) : Prop := ¬ carriageReturn :: crlf <:+: t

theorem Regular.of_infix {s t : Text} (regular : Regular t) (part : s <:+: t) : Regular s :=
  fun found => regular (found.trans part)

/-! ## Writing line ends -/

theorem normalize_crlf (t : Text) :
    normalize (carriageReturn :: lineFeed :: t) = lineFeed :: normalize t := by
  simp [normalize]

theorem normalize_cons {c : CodePoint} {t : Text} (other : ¬ crlf <+: c :: t) :
    normalize (c :: t) = c :: normalize t := by
  rw [normalize]
  rintro u rfl rfl
  exact other ⟨u, rfl⟩

theorem normalize_cons_of_ne {c : CodePoint} (other : c ≠ carriageReturn) (t : Text) :
    normalize (c :: t) = c :: normalize t :=
  normalize_cons fun found => other (List.cons_prefix_cons.mp found).1.symm

/-- A text begins with a CRLF, or its first code point is kept. -/
theorem normalize_cases (c : CodePoint) (t : Text) :
    (∃ u, c = carriageReturn ∧ t = lineFeed :: u ∧ normalize (c :: t) = lineFeed :: normalize u) ∨
      ¬ crlf <+: c :: t ∧ normalize (c :: t) = c :: normalize t := by
  by_cases found : crlf <+: c :: t
  · obtain ⟨u, rest⟩ := found
    obtain ⟨rfl, rfl⟩ := List.cons.inj rest
    exact .inl ⟨u, rfl, rfl, normalize_crlf u⟩
  · exact .inr ⟨found, normalize_cons found⟩

theorem length_normalize_le (t : Text) : (normalize t).length ≤ t.length := by
  fun_induction normalize t <;> simp <;> omega

/-- A CRLF becomes shorter. -/
theorem length_normalize_lt {t : Text} (found : crlf <:+: t) :
    (normalize t).length < t.length := by
  induction t using normalize.induct with
  | case1 t ih =>
      have shorter := length_normalize_le t
      simp only [normalize_crlf, List.length_cons]
      omega
  | case2 c t other ih =>
      rw [normalize.eq_2 c t other, List.length_cons, List.length_cons]
      rcases List.infix_cons_iff.mp found with ⟨u, begins⟩ | later
      · obtain ⟨rfl, rest⟩ := List.cons.inj begins
        exact (other u rfl rest.symm).elim
      · exact Nat.succ_lt_succ (ih later)
  | case3 => simp at found

/-- A carriage return before a CRLF leaves a CRLF. -/
theorem normalize_append_carriageReturn (t : Text) :
    normalize (t ++ carriageReturn :: crlf) = normalize t ++ crlf := by
  induction t using normalize.induct with
  | case1 t ih => simp [normalize_crlf, ih]
  | case2 c t other ih =>
      have before : ∀ u, c = carriageReturn → t ++ carriageReturn :: crlf = lineFeed :: u →
          False := by
        intro u starts next
        cases t with
        | nil => simp at next
        | cons d t =>
            obtain ⟨rfl, -⟩ := List.cons.inj next
            exact other t starts rfl
      rw [List.cons_append, normalize.eq_2 c _ before, normalize.eq_2 c t other, ih,
        List.cons_append]
  | case3 => simp [normalize]

/-- A text that begins with a line feed once its line ends are written did so before, or it begins
with a CRLF. -/
theorem lineFeed_of_normalize {t u : Text} (begins : normalize t = lineFeed :: u) :
    (∃ v, t = lineFeed :: v) ∨ crlf <+: t := by
  cases t with
  | nil => simp [normalize] at begins
  | cons c t =>
      rcases normalize_cases c t with ⟨v, rfl, rfl, -⟩ | ⟨-, kept⟩
      · exact .inr ⟨v, rfl⟩
      · obtain ⟨rfl, -⟩ := List.cons.inj (kept.symm.trans begins)
        exact .inl ⟨t, rfl⟩

/-- In a regular text no CRLF is left once the line ends are written. -/
theorem Regular.not_crlf_infix_normalize {t : Text} (regular : Regular t) :
    ¬ crlf <:+: normalize t := by
  induction t using normalize.induct with
  | case1 t ih =>
      rw [normalize_crlf, List.infix_cons_iff]
      rintro (⟨u, begins⟩ | found)
      · simp at begins
      · exact ih (regular.of_infix ⟨[carriageReturn, lineFeed], [], by simp⟩) found
  | case2 c t other ih =>
      rw [normalize.eq_2 c t other, List.infix_cons_iff]
      rintro (⟨u, begins⟩ | found)
      · obtain ⟨rfl, rest⟩ := List.cons.inj begins
        rcases lineFeed_of_normalize rest.symm with ⟨v, rfl⟩ | ⟨v, rfl⟩
        · exact other v rfl rfl
        · exact regular ⟨[], v, rfl⟩
      · exact ih (regular.of_infix ⟨[c], [], by simp⟩) found
  | case3 => simp [normalize]

/-- Where no CRLF was left, line ends may be written early. -/
theorem normalize_normalize_append {a : Text} (clean : ¬ crlf <:+: normalize a) (b : Text) :
    normalize (normalize a ++ b) = normalize (a ++ b) := by
  induction a using normalize.induct with
  | case1 a ih =>
      rw [normalize_crlf] at clean ⊢
      have later : ¬ crlf <:+: normalize a := fun found =>
        clean (found.trans ⟨[lineFeed], [], by simp⟩)
      rw [List.cons_append, normalize_cons_of_ne (by decide), ih later]
      exact (normalize_crlf (a ++ b)).symm
  | case2 c a other ih =>
      rw [normalize.eq_2 c a other] at clean ⊢
      have later : ¬ crlf <:+: normalize a := fun found => clean (found.trans ⟨[c], [], by simp⟩)
      cases a with
      | nil => rfl
      | cons d a =>
          -- The two texts agree up to the point where the first CRLF could begin.
          have after : ¬ crlf <+: c :: (d :: a ++ b) := by
            rintro ⟨u, begins⟩
            obtain ⟨rfl, rest⟩ := List.cons.inj begins
            obtain ⟨rfl, -⟩ := List.cons.inj rest
            exact other a rfl rfl
          have before : ¬ crlf <+: c :: (normalize (d :: a) ++ b) := by
            rintro ⟨u, begins⟩
            obtain ⟨rfl, rest⟩ := List.cons.inj begins
            rcases normalize_cases d a with ⟨v, rfl, rfl, same⟩ | ⟨-, same⟩
            · exact clean ⟨[], normalize v, by rw [same]; rfl⟩
            · rw [same] at rest
              obtain ⟨rfl, -⟩ := List.cons.inj rest
              exact other a rfl rfl
          rw [List.cons_append, List.cons_append, normalize_cons before, normalize_cons after,
            ih later]
  | case3 => rfl

/-- A text without CRLF that is not left in the middle of one stays as it is, whatever follows. -/
theorem normalize_append {a : Text} (clean : ¬ crlf <:+: a)
    (ends : a.getLast? ≠ some carriageReturn) (b : Text) :
    normalize (a ++ b) = a ++ normalize b := by
  induction a with
  | nil => rfl
  | cons c a ih =>
      have other : ¬ crlf <+: c :: (a ++ b) := by
        rintro ⟨u, begins⟩
        obtain ⟨rfl, rest⟩ := List.cons.inj begins
        cases a with
        | nil => exact ends rfl
        | cons d a =>
            obtain ⟨rfl, -⟩ := List.cons.inj rest
            exact clean ⟨[], a, rfl⟩
      have later : ¬ crlf <:+: a := fun found => clean (found.trans ⟨[c], [], by simp⟩)
      rw [List.cons_append, normalize_cons other, ih later ?_, List.cons_append]
      cases a with
      | nil => simp
      | cons d a => simpa using ends

/-! ## Cutting records -/

/-- A blank line after the last line of a record. -/
abbrev blankLine : Text := [lineFeed, lineFeed]

theorem cutRecords_blankLine (t : Text) :
    cutRecords (lineFeed :: lineFeed :: t) = ([] :: (cutRecords t).1, (cutRecords t).2) := by
  simp [cutRecords]

/-- A code point that begins no blank line belongs to the first record, or to the unfinished one. -/
theorem cutRecords_cons {c : CodePoint} {t : Text}
    (other : ∀ u, c = lineFeed → t = lineFeed :: u → False) :
    cutRecords (c :: t) = match cutRecords t with
      | ([], pending) => ([], c :: pending)
      | (record :: records, pending) => ((c :: record) :: records, pending) :=
  cutRecords.eq_2 c t other

/-- Finished records, written with their blank lines. -/
def finished (records : List Text) : Text := records.flatMap (· ++ blankLine)

@[simp] theorem finished_nil : finished [] = [] := rfl

@[simp] theorem finished_cons (record : Text) (records : List Text) :
    finished (record :: records) = record ++ lineFeed :: lineFeed :: finished records := by
  simp [finished]

/-- Finished records end with a blank line. -/
theorem getLast?_finished (records : List Text) :
    (finished records).getLast? ≠ some carriageReturn := by
  rcases List.eq_nil_or_concat records with rfl | ⟨records, last, rfl⟩ <;> simp [finished]

/-- What is cut is the whole text. -/
theorem finished_append_pending (t : Text) :
    finished (cutRecords t).1 ++ (cutRecords t).2 = t := by
  induction t using cutRecords.induct with
  | case1 t records pending cut ih => simpa [cutRecords_blankLine] using ih
  | case2 c t other pending cut ih => simpa [cutRecords_cons other, cut] using ih
  | case3 c t other record records pending cut ih => simpa [cutRecords_cons other, cut] using ih
  | case4 => rfl

/-- Finished records are cut off whatever follows them. -/
theorem cutRecords_finished_append (t later : Text) :
    cutRecords (finished (cutRecords t).1 ++ later) =
      ((cutRecords t).1 ++ (cutRecords later).1, (cutRecords later).2) := by
  induction t using cutRecords.induct with
  | case1 t records pending cut ih => simp [cutRecords_blankLine, ih]
  | case2 c t other pending cut ih => simp [cutRecords_cons other, cut]
  | case3 c t other record records pending cut ih =>
      have whole := finished_append_pending t
      rw [cut] at ih whole
      -- The first record begins as the text does, so no blank line comes up before it.
      have before : ∀ u, c = lineFeed → finished (record :: records) ++ later = lineFeed :: u →
          False := by
        intro u starts next
        cases record with
        | nil => exact other _ starts (by rw [← whole]; rfl)
        | cons d record =>
            obtain ⟨rfl, -⟩ := List.cons.inj next
            exact other _ starts (by rw [← whole]; rfl)
      rw [cutRecords_cons other, cut]
      change cutRecords (c :: (finished (record :: records) ++ later)) = _
      rw [cutRecords_cons before, ih]
      rfl
  | case4 => simp [cutRecords]

/-- A text that breaks off after a CRLF finishes no further record. -/
theorem cutRecords_append_crlf (t : Text) :
    cutRecords (t ++ crlf) = ((cutRecords t).1, (cutRecords t).2 ++ crlf) := by
  have before {c : CodePoint} {t : Text} (other : ∀ u, c = lineFeed → t = lineFeed :: u → False) :
      ∀ u, c = lineFeed → t ++ crlf = lineFeed :: u → False := by
    intro u starts next
    cases t with
    | nil => simp at next
    | cons d t =>
        obtain ⟨rfl, -⟩ := List.cons.inj next
        exact other t starts rfl
  induction t using cutRecords.induct with
  | case1 t records pending cut ih => simp [cutRecords_blankLine, ih]
  | case2 c t other pending cut ih =>
      rw [List.cons_append, cutRecords_cons (before other), cutRecords_cons other, ih, cut]
      rfl
  | case3 c t other record records pending cut ih =>
      rw [List.cons_append, cutRecords_cons (before other), cutRecords_cons other, ih, cut]
  | case4 => rfl

/-- The unfinished record is the end of a text. -/
theorem length_cutRecords_le (t : Text) : (cutRecords t).2.length ≤ t.length := by
  have whole := congrArg List.length (finished_append_pending t)
  rw [List.length_append] at whole
  omega

/-! ## Feeding -/

/-- What one feed gives, in terms of the records that it finishes. -/
theorem feed_eq (b : Buffer) (chunk : Text) :
    b.feed chunk = ((cutRecords (normalize (b.pending ++ chunk))).1.filterMap payload?,
      ⟨(cutRecords (normalize (b.pending ++ chunk))).2⟩) := rfl

/-- A body is fed in two pieces as it is fed in one, if the first piece leaves no CRLF. -/
theorem feed_append {body : Text} (clean : ¬ crlf <:+: normalize body) (chunk : Text) :
    Buffer.feed {} (body ++ chunk) =
      ((Buffer.feed {} body).1 ++ ((Buffer.feed {} body).2.feed chunk).1,
        ((Buffer.feed {} body).2.feed chunk).2) := by
  have whole := finished_append_pending (normalize body)
  generalize first : (cutRecords (normalize body)).1 = records at whole
  generalize left : (cutRecords (normalize body)).2 = held at whole
  have settled : ¬ crlf <:+: finished records :=
    fun found => clean (found.trans ⟨[], held, by simpa using whole⟩)
  have text : normalize (body ++ chunk) = finished records ++ normalize (held ++ chunk) := by
    calc normalize (body ++ chunk)
        = normalize (normalize body ++ chunk) := (normalize_normalize_append clean chunk).symm
      _ = normalize (finished records ++ (held ++ chunk)) := by rw [← whole, List.append_assoc]
      _ = finished records ++ normalize (held ++ chunk) :=
          normalize_append settled (getLast?_finished records) _
  have cut : cutRecords (normalize (body ++ chunk)) =
      (records ++ (cutRecords (normalize (held ++ chunk))).1,
        (cutRecords (normalize (held ++ chunk))).2) := by
    rw [text, ← first]
    exact cutRecords_finished_append _ _
  simp [feed_eq, cut, first, left]

/-- Chunk after chunk, a regular body gives what is left of it. -/
theorem feedAll_of_regular {body : Text} (chunks : List Text)
    (regular : Regular (body ++ chunks.flatten)) :
    Buffer.feed {} (body ++ chunks.flatten) =
      ((Buffer.feed {} body).1 ++ ((Buffer.feed {} body).2.feedAll chunks).1,
        ((Buffer.feed {} body).2.feedAll chunks).2) := by
  induction chunks generalizing body with
  | nil => simp [Buffer.feedAll]
  | cons chunk chunks ih =>
      have clean : ¬ crlf <:+: normalize body :=
        (regular.of_infix ⟨[], _, rfl⟩).not_crlf_infix_normalize
      rw [List.flatten_cons, ← List.append_assoc] at regular ⊢
      rw [ih regular, feed_append clean]
      simp [Buffer.feedAll]

/-- A fresh buffer has fed nothing. -/
theorem feed_nil : Buffer.feed {} [] = ([], {}) := by
  simp [feed_eq, normalize, cutRecords]

/-- Where no carriage return stands before a CRLF, chunks give what their whole text gives. -/
theorem feedAll_eq_feed {chunks : List Text} (regular : Regular chunks.flatten) :
    Buffer.feedAll {} chunks = Buffer.feed {} chunks.flatten := by
  have fed := @feedAll_of_regular [] chunks regular
  rw [List.nil_append, feed_nil] at fed
  rw [fed]
  simp

/-- However a body and its beginnings are cut, the payloads and the unfinished record are those of
one feed, exactly if no carriage return stands before a CRLF. -/
theorem feedAll_eq_feed_iff (body : Text) :
    (∀ chunks : List Text, chunks.flatten <+: body →
      Buffer.feedAll {} chunks = Buffer.feed {} chunks.flatten) ↔ Regular body := by
  constructor
  · rintro same ⟨head, tail, whole⟩
    -- Break off after the CRLF, and feed an empty chunk.
    have fed := same [head ++ carriageReturn :: crlf, []] ⟨tail, by simpa using whole⟩
    have held : (cutRecords (normalize (head ++ carriageReturn :: crlf))).2 =
        (cutRecords (normalize head)).2 ++ crlf := by
      rw [normalize_append_carriageReturn, cutRecords_append_crlf]
    have again : (cutRecords (normalize ((cutRecords (normalize head)).2 ++ crlf))).2 =
        (cutRecords (normalize head)).2 ++ crlf := by
      simpa [Buffer.feedAll, feed_eq, held] using congrArg (fun fed => fed.2.pending) fed
    have shorter := length_normalize_lt (t := (cutRecords (normalize head)).2 ++ crlf)
      ⟨_, [], List.append_nil _⟩
    have cut := length_cutRecords_le (normalize ((cutRecords (normalize head)).2 ++ crlf))
    rw [again] at cut
    omega
  · exact fun regular chunks beginning => feedAll_eq_feed (regular.of_infix beginning.isInfix)

/-- A body that is one record when it is fed at once, and two when it is cut after the CRLF. -/
example : (Buffer.feed {} (Text.ofString "data: a\n\r\r\ndata: b\n\n")).1 =
      [Text.ofString "a\nb"] ∧
    (Buffer.feedAll {} [Text.ofString "data: a\n\r\r\n", Text.ofString "data: b\n\n"]).1 =
      [Text.ofString "a", Text.ofString "b"] := by decide

end EventStream.Sse
