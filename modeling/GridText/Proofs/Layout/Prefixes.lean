import GridText.Proofs.Layout.Clashes

/-! # Reading a layout: the lines in front

A layout is read line by line, and the first fault ends the reading. What follows some lines is read
below the last of their rows (`readBody_append`), so it changes neither the rows that they gave nor
the fault that they ended with. How many values a row must have is told by the first two lines.

* `read_of_read_append`: where all lines are read, the lines in front are read as the rows in front.
* `read_append_of_fault`: a fault of the lines in front is the fault of all lines.
* `acceptedRows_of_read`, `acceptedRows_of_fault`: the rows in front of the first fault are what is
  read of the lines in front of it. -/

namespace GridText.Layout

variable {rules : Rules} {front after : List Text}

/-- **Reading goes on behind the lines in front**, below the last row that they gave. -/
theorem readBody_append (width n : ℕ) (previous : ItemMap Span) (front after : List Text) :
    readBody rules width n previous (front ++ after) =
      readBody rules width n previous front >>= fun rows =>
        readBody rules width (n + front.length) (lastSpans previous rows) after >>= fun others =>
          pure (rows ++ others) := by
  induction front generalizing n previous with
  | nil =>
    have hnil : readBody rules width n previous [] = pure [] := rfl
    simp only [hnil, pure_bind, List.nil_append, bind_pure]
    rfl
  | cons line front ih =>
    have hnumber : n + 1 + front.length = n + (line :: front).length := by
      rw [List.length_cons]
      omega
    simp only [List.cons_append, readBody, bind_assoc, pure_bind, ih, lastSpans_cons, hnumber]

theorem read_cons_of_readBody {first : Text} {body : List Text} {l : Layout} {width : ℕ}
    (hheader : readHeader first = .ok l.header)
    (hwidth : body ≠ [] → bodyWidth rules l.header.length body = .ok width)
    (hrows : readBody rules width 1 [] body = .ok l.body) : read rules (first :: body) = .ok l := by
  cases body with
  | nil =>
    -- a header alone asks for no width
    exact read_cons_eq_ok_iff.mpr ⟨_, hheader, rfl, hrows⟩
  | cons line body =>
    exact read_cons_eq_ok_iff.mpr ⟨width, hheader, hwidth (List.cons_ne_nil line body), hrows⟩

theorem read_of_read_append (hne : front ≠ []) {l : Layout}
    (h : read rules (front ++ after) = .ok l) :
    ∃ l', read rules front = .ok l' ∧ l'.rows = l.rows.take front.length := by
  obtain ⟨first, body, rfl⟩ := List.exists_cons_of_ne_nil hne
  rw [List.cons_append] at h
  obtain ⟨width, hheader, hwidth, hrows⟩ := read_cons_eq_ok_iff.mp h
  rw [readBody_append] at hrows
  obtain ⟨front, hfront, hrows⟩ := Except.bind_eq_ok_iff.mp hrows
  obtain ⟨others, -, hrows⟩ := Except.bind_eq_ok_iff.mp hrows
  have hbody : l.body = front ++ others := Except.pure_eq_ok_iff.mp hrows
  have hlength := length_of_readBody hfront
  refine ⟨⟨l.header, front⟩, read_cons_of_readBody hheader (fun hne => ?_) hfront, ?_⟩
  · rwa [bodyWidth_append hne] at hwidth
  · rw [rows, rows, List.length_cons, List.take_succ_cons, hbody, ← hlength, List.take_left]

theorem read_append_of_fault (hne : front ≠ []) {f : Fault} (h : read rules front = .error f)
    (after : List Text) : read rules (front ++ after) = .error f := by
  obtain ⟨first, body, rfl⟩ := List.exists_cons_of_ne_nil hne
  rw [List.cons_append]
  refine read_cons_eq_error_iff.mpr ?_
  rcases read_cons_eq_error_iff.mp h with hheader | ⟨header, hheader, h⟩
  · exact Or.inl hheader
  refine Or.inr ⟨header, hheader, ?_⟩
  cases body with
  | nil =>
    -- a header that was read has no fault
    rcases h with h | ⟨_, -, h⟩ <;> cases h
  | cons line body =>
    rw [bodyWidth_append (List.cons_ne_nil line body)]
    rcases h with h | ⟨width, hwidth, h⟩
    · exact Or.inl h
    · refine Or.inr ⟨width, hwidth, ?_⟩
      rw [readBody_append]
      exact Except.bind_eq_error_iff.mpr (Or.inl h)

/-- **The lines in front decide.** If all lines are read, then the first `k` of them are read as the
first `k` rows; and if the first `k` lines are refused, then all lines are refused for the same
fault. -/
theorem lines_in_front_decide (rules : Rules) (lines : List Text) {k : ℕ} (hk : 1 ≤ k) :
    (∀ l, read rules lines = .ok l →
      ∃ l', read rules (lines.take k) = .ok l' ∧ l'.rows = l.rows.take k) ∧
    ∀ f, read rules (lines.take k) = .error f → read rules lines = .error f := by
  cases lines with
  | nil =>
    rw [List.take_nil]
    exact ⟨fun l h => absurd h (by rintro ⟨⟩), fun f h => h⟩
  | cons first body =>
    have hne : (first :: body).take k ≠ [] := by
      obtain ⟨k, rfl⟩ := Nat.exists_eq_add_of_le' hk
      exact List.cons_ne_nil first _
    have hsplit := List.take_append_drop k (first :: body)
    refine ⟨fun l h => ?_, fun f h => ?_⟩
    · rw [← hsplit] at h
      obtain ⟨l', hread, hrows⟩ := read_of_read_append hne h
      rw [hsplit] at h
      refine ⟨l', hread, ?_⟩
      rw [hrows, List.length_take, ← length_rows_of_read h, List.take_eq_take_iff]
      omega
    · rw [← hsplit]
      exact read_append_of_fault hne h _

/-- The third row has no cell where the second has one, and the last line is no row at all. -/
theorem short_row_in_front : 1 ≤ 3 ∧
    read {} (["1fr".toList, "1fr A".toList, "2fr".toList, "A A".toList].take 3) =
      .error (.defect (.rowSizeMismatch 2 1 2)) ∧
    read {} ["1fr".toList, "1fr A".toList, "2fr".toList, "A A".toList] =
      .error (.defect (.rowSizeMismatch 2 1 2)) := by
  have hfront : read {} (["1fr".toList, "1fr A".toList, "2fr".toList, "A A".toList].take 3) =
      .error (.defect (.rowSizeMismatch 2 1 2)) := by decide +kernel
  exact ⟨by decide, hfront, (lines_in_front_decide {} _ (by decide)).2 _ hfront⟩

/-! ### The rows in front of a fault -/

theorem acceptedBody_append {width n : ℕ} {previous : ItemMap Span} {rows : List Row}
    (h : readBody rules width n previous front = .ok rows) (after : List Text) :
    acceptedBody rules width n previous (front ++ after) = rows ++
      acceptedBody rules width (n + front.length) (lastSpans previous rows) after := by
  induction front generalizing n previous rows with
  | nil =>
    obtain rfl := Except.ok.inj h
    rfl
  | cons line front ih =>
    obtain ⟨row, hrow, h⟩ := Except.bind_eq_ok_iff.mp h
    obtain ⟨others, hothers, h⟩ := Except.bind_eq_ok_iff.mp h
    obtain rfl := Except.pure_eq_ok_iff.mp h
    have hnumber : n + 1 + front.length = n + (line :: front).length := by
      rw [List.length_cons]
      omega
    rw [List.cons_append, acceptedBody, hrow, lastSpans_cons, List.cons_append, ← hnumber]
    exact congrArg (row :: ·) (ih hothers)

theorem acceptedBody_of_read {width n : ℕ} {previous : ItemMap Span} {lines : List Text}
    {rows : List Row} (h : readBody rules width n previous lines = .ok rows) :
    acceptedBody rules width n previous lines = rows := by
  have happend := acceptedBody_append h []
  rwa [List.append_nil, acceptedBody, List.append_nil] at happend

theorem acceptedBody_of_fault {width n : ℕ} {previous : ItemMap Span} {line : Text}
    {rows : List Row} {f : Fault} (h : readBody rules width n previous front = .ok rows)
    (hline : readRow rules width (n + front.length) (lastSpans previous rows) line = .error f)
    (after : List Text) : acceptedBody rules width n previous (front ++ line :: after) = rows := by
  rw [acceptedBody_append h, acceptedBody, hline, List.append_nil]

theorem acceptedBody_prefix (width n : ℕ) (previous : ItemMap Span) (front after : List Text) :
    acceptedBody rules width n previous front <+:
      acceptedBody rules width n previous (front ++ after) := by
  cases h : readBody rules width n previous front with
  | ok rows =>
    rw [acceptedBody_of_read h, acceptedBody_append h]
    exact List.prefix_append _ _
  | error f =>
    obtain ⟨front, line, between, rows, rfl, hrows, hline⟩ := readBody_eq_error_iff.mp h
    rw [List.append_assoc, List.cons_append, acceptedBody_of_fault hrows hline]
    exact ⟨[], by rw [List.append_nil, acceptedBody_of_fault hrows hline]⟩

theorem acceptedRows_cons {first : Text} {body : List Text} {header : Row} {width : ℕ}
    (hheader : readHeader first = .ok header)
    (hwidth : bodyWidth rules header.length body = .ok width) :
    acceptedRows rules (first :: body) = some ⟨header, acceptedBody rules width 1 [] body⟩ := by
  simp only [acceptedRows, hheader, hwidth]

theorem acceptedRows_of_read {lines : List Text} {l : Layout} (h : read rules lines = .ok l) :
    acceptedRows rules lines = some l := by
  cases lines with
  | nil => cases h
  | cons first body =>
    obtain ⟨width, hheader, hwidth, hrows⟩ := read_cons_eq_ok_iff.mp h
    rw [acceptedRows_cons hheader hwidth, acceptedBody_of_read hrows]

/-- **In front of a fault** the rows are accepted that are read of the lines in front, and with the
next line these have the fault. If not even a header is accepted, the first two lines have it. -/
theorem acceptedRows_of_fault {lines : List Text} {f : Fault} (h : read rules lines = .error f) :
    (acceptedRows rules lines = none ∧ read rules (lines.take 2) = .error f) ∨
      ∃ l front line after, lines = front ++ line :: after ∧ acceptedRows rules lines = some l ∧
        read rules front = .ok l ∧ read rules (front ++ [line]) = .error f := by
  cases lines with
  | nil => exact Or.inl ⟨rfl, h⟩
  | cons first body =>
    rcases read_cons_eq_error_iff.mp h with
      ⟨d, hd, he⟩ | ⟨header, hheader, h | ⟨width, hwidth, h⟩⟩
    · refine Or.inl ⟨by rw [acceptedRows, hd], ?_⟩
      exact read_cons_eq_error_iff.mpr (Or.inl ⟨d, hd, he⟩)
    · refine Or.inl ⟨by simp only [acceptedRows, hheader, h], ?_⟩
      refine read_cons_eq_error_iff.mpr (Or.inr ⟨header, hheader, Or.inl ?_⟩)
      cases body with
      | nil => cases h
      | cons line body => exact h
    · obtain ⟨front, line, after, rows, rfl, hrows, hline⟩ := readBody_eq_error_iff.mp h
      have hlast : bodyWidth rules header.length (front ++ [line]) = .ok width := by
        rwa [List.append_cons, bodyWidth_append (by simp)] at hwidth
      refine Or.inr ⟨⟨header, rows⟩, first :: front, line, after, rfl, ?_, ?_, ?_⟩
      · rw [acceptedRows_cons hheader hwidth, acceptedBody_of_fault hrows hline]
      · refine read_cons_of_readBody hheader (fun hne => ?_) hrows
        rwa [bodyWidth_append hne] at hwidth
      · refine read_cons_eq_error_iff.mpr (Or.inr ⟨header, hheader, Or.inr ⟨width, hlast, ?_⟩⟩)
        exact readBody_eq_error_iff.mpr ⟨front, line, [], rows, rfl, hrows, hline⟩

/-- **What follows two lines or more** takes back none of the rows that are accepted of them. -/
theorem acceptedRows_append {l : Layout} (hlong : 2 ≤ front.length)
    (h : acceptedRows rules front = some l) (after : List Text) :
    ∃ l', acceptedRows rules (front ++ after) = some l' ∧ l'.header = l.header ∧
      l.body <+: l'.body := by
  obtain ⟨first, body, rfl⟩ := List.exists_cons_of_length_pos (by omega : 0 < front.length)
  have hbody : body ≠ [] := by
    rintro rfl
    exact absurd hlong (by simp)
  unfold acceptedRows at h
  cases hheader : readHeader first with
  | error d => simp [hheader] at h
  | ok header =>
    cases hwidth : bodyWidth rules header.length body with
    | error f => simp [hheader, hwidth] at h
    | ok width =>
      simp only [hheader, hwidth, Option.some.injEq] at h
      obtain rfl := h
      have hwidth' : bodyWidth rules header.length (body ++ after) = .ok width := by
        rwa [bodyWidth_append hbody]
      exact ⟨_, acceptedRows_cons hheader hwidth', rfl, acceptedBody_prefix width 1 [] body after⟩

end GridText.Layout
