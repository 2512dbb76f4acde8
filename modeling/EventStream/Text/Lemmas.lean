import EventStream.Text.Basic

/-
# Cutting and joining texts

Splitting a text at a separator and joining pieces with it undo each other: joining the pieces of a
text gives the text back, and splitting what was joined gives the pieces back if none of them holds
the separator. Cutting a text at the first separator is described the same way: the head never
holds the separator, and what was cut can be put together again.

Texts in order are in the order of their code points, the first difference counting.
-/

namespace EventStream.Text

variable {sep c : CodePoint} {t : Text}

/-! ## Cutting at the first separator -/

theorem cut_cons_self : cut sep (sep :: t) = ([], some t) := by simp [cut]

theorem cut_cons_of_ne (h : c ≠ sep) :
    cut sep (c :: t) = (c :: (cut sep t).1, (cut sep t).2) := by
  simp [cut, h]

/-- What stands before the first separator does not hold it. -/
theorem not_mem_cut_fst (sep : CodePoint) (t : Text) : sep ∉ (cut sep t).1 := by
  induction t with
  | nil => simp [cut]
  | cons c t ih =>
    by_cases h : c = sep
    · subst h
      simp [cut]
    · rw [cut_cons_of_ne h]
      simpa [Ne.symm h] using ih

/-- A text without the separator is not cut. -/
theorem cut_of_not_mem (h : sep ∉ t) : cut sep t = (t, none) := by
  induction t with
  | nil => rfl
  | cons c t ih =>
    have hc : c ≠ sep := fun e => h (by simp [e])
    rw [cut_cons_of_ne hc, ih fun hm => h (List.mem_cons_of_mem c hm)]

/-- A text is cut where its first separator stands. -/
theorem cut_append {head : Text} (h : sep ∉ head) (rest : Text) :
    cut sep (head ++ sep :: rest) = (head, some rest) := by
  induction head with
  | nil => exact cut_cons_self
  | cons c head ih =>
    have hc : c ≠ sep := fun e => h (by simp [e])
    rw [List.cons_append, cut_cons_of_ne hc, ih fun hm => h (List.mem_cons_of_mem c hm)]

/-- The two sides of a cut, put together again, are the text. -/
theorem eq_of_cut {head rest : Text} (h : cut sep t = (head, some rest)) :
    t = head ++ sep :: rest := by
  induction t generalizing head with
  | nil => simp [cut] at h
  | cons c t ih =>
    by_cases hc : c = sep
    · subst hc
      rw [cut_cons_self] at h
      cases h
      rfl
    · rw [cut_cons_of_ne hc] at h
      cases hcut : cut sep t with
      | mk first second =>
        rw [hcut] at h
        cases h
        rw [ih hcut]
        rfl

/-- A text that is not cut is its own head, and does not hold the separator. -/
theorem cut_snd_eq_none_iff : (cut sep t).2 = none ↔ sep ∉ t := by
  constructor
  · intro h
    induction t with
    | nil => simp
    | cons c t ih =>
      by_cases hc : c = sep
      · subst hc
        simp [cut_cons_self] at h
      · rw [cut_cons_of_ne hc] at h
        simpa [Ne.symm hc] using ih h
  · intro h
    rw [cut_of_not_mem h]

/-! ## Splitting at every separator -/

theorem split_ne_nil (sep : CodePoint) (t : Text) : split sep t ≠ [] := by
  cases t with
  | nil => simp [split]
  | cons c t =>
    simp only [split]
    split
    · simp
    · split <;> simp

theorem split_cons_self : split sep (sep :: t) = [] :: split sep t := by simp [split]

/-- A code point that is no separator belongs to the first piece. -/
theorem split_cons_of_ne (h : c ≠ sep) {piece : Text} {pieces : List Text}
    (ht : split sep t = piece :: pieces) : split sep (c :: t) = (c :: piece) :: pieces := by
  simp [split, h, ht]

/-- Every text has a first piece. -/
theorem exists_split_eq_cons (sep : CodePoint) (t : Text) :
    ∃ piece pieces, split sep t = piece :: pieces :=
  List.exists_cons_of_ne_nil (split_ne_nil sep t)

theorem join_cons_cons (sep piece next : Text) (pieces : List Text) :
    join sep (piece :: next :: pieces) = piece ++ sep ++ join sep (next :: pieces) := rfl

/-- The pieces of a text, joined again, are the text. -/
theorem join_split (sep : CodePoint) (t : Text) : join [sep] (split sep t) = t := by
  induction t with
  | nil => rfl
  | cons c t ih =>
    obtain ⟨piece, pieces, ht⟩ := exists_split_eq_cons sep t
    by_cases hc : c = sep
    · subst hc
      rw [split_cons_self, ht, join_cons_cons, ← ht, ih]
      rfl
    · rw [split_cons_of_ne hc ht]
      rw [ht] at ih
      rw [← ih]
      cases pieces with
      | nil => rfl
      | cons next pieces => rfl

/-- No piece holds the separator. -/
theorem not_mem_of_mem_split {piece : Text} (h : piece ∈ split sep t) : sep ∉ piece := by
  induction t generalizing piece with
  | nil => simp_all [split]
  | cons c t ih =>
    obtain ⟨first, pieces, ht⟩ := exists_split_eq_cons sep t
    by_cases hc : c = sep
    · subst hc
      rw [split_cons_self] at h
      cases List.mem_cons.1 h with
      | inl h => simp [h]
      | inr h => exact ih h
    · rw [split_cons_of_ne hc ht] at h
      cases List.mem_cons.1 h with
      | inl h =>
        subst h
        have hfirst : first ∈ split sep t := by simp [ht]
        simpa [Ne.symm hc] using ih hfirst
      | inr h => exact ih (by simp [ht, h])

/-- What stands in a piece stands in the text. -/
theorem mem_of_mem_split {piece : Text} (h : piece ∈ split sep t) (hc : c ∈ piece) : c ∈ t := by
  induction t generalizing piece with
  | nil => simp_all [split]
  | cons d t ih =>
    obtain ⟨first, pieces, ht⟩ := exists_split_eq_cons sep t
    by_cases hd : d = sep
    · subst hd
      rw [split_cons_self] at h
      cases List.mem_cons.1 h with
      | inl h => simp [h] at hc
      | inr h => exact List.mem_cons_of_mem d (ih h hc)
    · rw [split_cons_of_ne hd ht] at h
      cases List.mem_cons.1 h with
      | inl h =>
        subst h
        have hfirst : first ∈ split sep t := by simp [ht]
        exact (List.mem_cons.1 hc).elim (fun e => by simp [e]) fun hm =>
          List.mem_cons_of_mem d (ih hfirst hm)
      | inr h => exact List.mem_cons_of_mem d (ih (by simp [ht, h]) hc)

/-- A text without the separator is its only piece. -/
theorem split_of_not_mem (h : sep ∉ t) : split sep t = [t] := by
  induction t with
  | nil => rfl
  | cons c t ih =>
    have hc : c ≠ sep := fun e => h (by simp [e])
    exact split_cons_of_ne hc (ih fun hm => h (List.mem_cons_of_mem c hm))

/-- The first separator ends the first piece. -/
theorem split_append {piece : Text} (h : sep ∉ piece) (rest : Text) :
    split sep (piece ++ sep :: rest) = piece :: split sep rest := by
  induction piece with
  | nil => exact split_cons_self
  | cons c piece ih =>
    have hc : c ≠ sep := fun e => h (by simp [e])
    exact split_cons_of_ne hc (ih fun hm => h (List.mem_cons_of_mem c hm))

/-- Pieces without the separator are found again after they were joined. -/
theorem split_join {pieces : List Text} (hne : pieces ≠ []) (h : ∀ piece ∈ pieces, sep ∉ piece) :
    split sep (join [sep] pieces) = pieces := by
  induction pieces with
  | nil => exact absurd rfl hne
  | cons piece pieces ih =>
    have hpiece : sep ∉ piece := h piece (by simp)
    cases pieces with
    | nil => exact split_of_not_mem hpiece
    | cons next pieces =>
      rw [join_cons_cons, List.append_assoc, List.singleton_append, split_append hpiece,
        ih (by simp) fun other hother => h other (List.mem_cons_of_mem piece hother)]

/-! ## Order -/

theorem ble_trans {s t u : Text} (st : ble s t) (tu : ble t u) : ble s u := by
  induction s generalizing t u with
  | nil => rfl
  | cons a s ih =>
    cases t with
    | nil => contradiction
    | cons b t =>
      cases u with
      | nil => contradiction
      | cons c u =>
        simp only [ble, Bool.or_eq_true, decide_eq_true_eq, Bool.and_eq_true, beq_iff_eq] at st tu ⊢
        rcases st with st | ⟨ab, st⟩
        · left
          omega
        · rcases tu with tu | ⟨bc, tu⟩
          · left
            omega
          · exact .inr ⟨ab.trans bc, ih st tu⟩

theorem ble_total (s t : Text) : ble s t ∨ ble t s := by
  induction s generalizing t with
  | nil => exact .inl rfl
  | cons a s ih =>
    cases t with
    | nil => exact .inr rfl
    | cons b t =>
      simp only [ble, Bool.or_eq_true, decide_eq_true_eq, Bool.and_eq_true, beq_iff_eq]
      rcases Nat.lt_trichotomy a.toNat b.toNat with lt | same | gt
      · exact .inl (.inl lt)
      · exact (ih t).imp (fun st => .inr ⟨same, st⟩) fun ts => .inr ⟨same.symm, ts⟩
      · exact .inr (.inl gt)

theorem pairwise_sort (ts : List Text) : (sort ts).Pairwise (ble · ·) := by
  apply List.pairwise_mergeSort
  · exact fun s t u => ble_trans
  · exact fun s t => Bool.or_eq_true .. ▸ ble_total s t

theorem sort_perm (ts : List Text) : (sort ts).Perm ts := List.mergeSort_perm ts ble

end EventStream.Text
