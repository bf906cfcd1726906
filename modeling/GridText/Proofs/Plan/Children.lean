import GridText.Plan.Slots
import GridText.Proofs.Plan.Geometry

/-! # Plans: which children fit

Children by position are counted, and children by name are looked up in the order of the items. What
the two checks say is told here by the lines that a plan was read from: how many tokens or lines
there are, and what is written in the entries.

* `Layout.Spelt`: an item in an entry of the lines; `Layout.exists_cell_iff_spelt`: these are the
  items of the interior. `Layout.isPositional_iff`: when there are no entries.
* `Plan.FirstMissing`: the item that a check of names reports; `Plan.checkSlots_eq_ok_iff`,
  `Plan.checkSlots_eq_error_iff`: when there is one, and when there is none.
* `Plan.checkSlots_congr`, `Plan.checkSlots_eq_ok_of_subset`, `Plan.checkSlots_eq_error_of_subset`:
  names in another order, and more names.
* `Plan.children_match_the_lines`: all of it for a plan. -/

namespace GridText

open Token (tokens)

variable {rules : Rules} {lines : List Text} {item : Text}

/-! ### Items in the lines -/

namespace Layout

variable {l : Layout}

/-- **An item that is written in the lines**: in an entry, behind the size of a line below the first
one. -/
def Spelt (rules : Rules) (lines : List Text) (item : Text) : Prop :=
  ∃ line ∈ lines.tail, ∃ entry ∈ (tokens line).tail, item ∈ Cell.ofEntry rules entry

theorem cells_ofTokens (rules : Rules) (found : List Text) :
    (Row.ofTokens rules found).cells = found.tail.map (Cell.ofEntry rules) := by
  cases found <;> rfl

theorem Valid.cells_of_positional (h : l.Valid rules) (hs : l.shape.isPositional = true) {row : Row}
    (hrow : row ∈ l.body) : row.cells = [] := by
  have hdescribes := h.describes
  cases hshape : l.shape with
  | columnOnly =>
    rw [hshape] at hdescribes
    rw [length_rows_eq_one_iff.mp hdescribes] at hrow
    cases hrow
  | rowOnly =>
    rw [hshape] at hdescribes
    have hlength := hdescribes.2 row (List.mem_cons_of_mem _ hrow)
    rw [Row.cells, List.drop_eq_nil_iff, hlength]
  | singleCell | grid =>
    rw [hshape] at hs
    cases hs

theorem Valid.exists_cell_iff (h : l.Valid rules) :
    (∃ cells ∈ l.interior, ∃ cell ∈ cells, item ∈ cell) ↔
      ∃ row ∈ l.body, ∃ cell ∈ row.cells, item ∈ cell := by
  cases hs : l.shape.isPositional with
  | true =>
    rw [interior_of_positional hs]
    refine iff_of_false (by simp) ?_
    rintro ⟨row, hrow, cell, hcell, -⟩
    rw [h.cells_of_positional hs hrow] at hcell
    cases hcell
  | false =>
    rw [interior_of_named hs]
    simp only [List.mem_map, exists_exists_and_eq_and]

theorem body_of_read (h : read rules lines = .ok l) :
    l.body = lines.tail.map fun line => Row.ofTokens rules (tokens line) := by
  obtain ⟨-, rfl⟩ := read_eq_ok_iff_inLanguage.mp h
  rw [ofTokens, ← List.map_tail, List.map_map]
  rfl

/-- **The items of the interior are those that are written in the lines.** -/
theorem exists_cell_iff_spelt (h : read rules lines = .ok l) :
    (∃ cells ∈ l.interior, ∃ cell ∈ cells, item ∈ cell) ↔ Spelt rules lines item := by
  rw [(read_eq_ok_iff_valid.mp h).1.exists_cell_iff, body_of_read h]
  simp only [Spelt, List.mem_map, exists_exists_and_eq_and, cells_ofTokens]

/-- **A layout is filled by position** exactly when its lines have no entries. -/
theorem isPositional_iff (h : read rules lines = .ok l) :
    l.shape.isPositional = true ↔ ∀ line ∈ lines.tail, (tokens line).tail = [] := by
  have hvalid := (read_eq_ok_iff_valid.mp h).1
  have hrows : (∀ row ∈ l.body, row.cells = []) ↔ ∀ line ∈ lines.tail, (tokens line).tail = [] := by
    rw [body_of_read h, List.forall_mem_map]
    simp only [cells_ofTokens, List.map_eq_nil_iff]
  rw [← hrows]
  refine ⟨fun hs row hrow => hvalid.cells_of_positional hs hrow, fun hcells => ?_⟩
  by_contra hs
  have hnamed : l.shape.isPositional = false := Bool.eq_false_iff.mpr hs
  cases hbody : l.body with
  | nil =>
    have hcolumns := shape_of_describes (s := .columnOnly) (length_rows_eq_one_iff.mpr hbody)
    rw [hcolumns] at hnamed
    cases hnamed
  | cons row body =>
    have hrow : row ∈ l.body := hbody ▸ List.mem_cons_self
    have hlength := hvalid.length_cells hnamed hrow
    rw [hcells row hrow] at hlength
    exact hvalid.nonempty (List.eq_nil_of_length_eq_zero hlength.symm)

end Layout

/-! ### Children by name -/

/-- **Looking through a sorted list finds the first one**: all others that meet the condition come
behind it. -/
theorem find?_eq_some_iff_of_sorted {α : Type} {R : α → α → Prop} (hR : ∀ a b, R a b → ¬ R b a)
    {l : List α} (hl : l.Pairwise R) {q : α → Bool} {a : α} :
    l.find? q = some a ↔ (a ∈ l ∧ q a = true) ∧ ∀ b ∈ l, q b = true → b ≠ a → R a b := by
  induction l with
  | nil => simp
  | cons c l ih =>
    obtain ⟨hc, hl⟩ := List.pairwise_cons.mp hl
    cases hq : q c with
    | true =>
      rw [List.find?_cons_of_pos hq, Option.some.injEq]
      constructor
      · rintro rfl
        refine ⟨⟨List.mem_cons_self, hq⟩, fun b hb _ hne => ?_⟩
        exact hc b ((List.mem_cons.mp hb).resolve_left hne)
      · rintro ⟨⟨ha, -⟩, hleast⟩
        by_contra hne
        have hbehind := hc a ((List.mem_cons.mp ha).resolve_left (Ne.symm hne))
        exact hR _ _ hbehind (hleast c List.mem_cons_self hq hne)
    | false =>
      rw [List.find?_cons_of_neg (by simp [hq]), ih hl]
      have hnot : ∀ b, q b = true → b ≠ c := by
        rintro b hb rfl
        rw [hq] at hb
        cases hb
      constructor
      · rintro ⟨⟨ha, hqa⟩, hleast⟩
        refine ⟨⟨List.mem_cons_of_mem c ha, hqa⟩, fun b hb hqb => ?_⟩
        exact hleast b ((List.mem_cons.mp hb).resolve_left (hnot b hqb)) hqb
      · rintro ⟨⟨ha, hqa⟩, hleast⟩
        exact ⟨⟨(List.mem_cons.mp ha).resolve_left (hnot a hqa), hqa⟩, fun b hb =>
          hleast b (List.mem_cons_of_mem c hb)⟩

namespace Plan

variable {p : Plan} {names names' : List Text}

/-- **An item of a plan**: it stands in a cell of the interior. -/
def HasItem (p : Plan) (item : Text) : Prop :=
  ∃ cells ∈ p.layout.interior, ∃ cell ∈ cells, item ∈ cell

/-- **The first item without a child**: no name is that item, and all other items without a child
come behind it in the order of code points. -/
structure FirstMissing (p : Plan) (names : List Text) (item : Text) : Prop where
  hasItem : p.HasItem item
  not_mem : item ∉ names
  first : ∀ other, p.HasItem other → other ∉ names → other ≠ item →
    List.Lex (· < ·) (item.map Char.toNat) (other.map Char.toNat)

theorem firstMissing_iff : p.FirstMissing names item ↔
    p.orderedItems.find? (!names.contains ·) = some item := by
  have hasymm : ∀ s t : Text, List.Lex (· < ·) (s.map Char.toNat) (t.map Char.toNat) →
      ¬ List.Lex (· < ·) (t.map Char.toNat) (s.map Char.toNat) := fun _ _ =>
    List.lex_asymm Nat.lt_asymm
  rw [find?_eq_some_iff_of_sorted hasymm p.sorted_orderedItems]
  simp only [mem_orderedItems_iff, Bool.not_eq_true', List.contains_eq_mem, decide_eq_false_iff_not]
  exact ⟨fun h => ⟨⟨h.hasItem, h.not_mem⟩, h.first⟩, fun ⟨⟨hitem, hnot⟩, hfirst⟩ =>
    ⟨hitem, hnot, hfirst⟩⟩

theorem checkSlots_of_positional (h : p.isPositional = true) (names : List Text) :
    p.checkSlots names = .error (.namedChildren p.shape) := if_pos h

theorem checkSlots_of_named (h : p.isPositional = false) (names : List Text) :
    p.checkSlots names = match p.orderedItems.find? (!names.contains ·) with
      | some item => .error (.missingSlot item)
      | none => .ok () := if_neg (by simp [h])

theorem checkSlots_eq_ok_iff (h : p.isPositional = false) :
    p.checkSlots names = .ok () ↔ ∀ item, p.HasItem item → item ∈ names := by
  have hnone : p.orderedItems.find? (!names.contains ·) = none ↔
      ∀ item, p.HasItem item → item ∈ names := by
    simp only [List.find?_eq_none, mem_orderedItems_iff, Bool.not_eq_true, Bool.not_eq_false',
      List.contains_eq_mem, decide_eq_true_eq]
    exact Iff.rfl
  rw [checkSlots_of_named h, ← hnone]
  cases p.orderedItems.find? (!names.contains ·) <;> simp

/-- **Names that do not fit** leave out an item, of which the first one is reported. -/
theorem checkSlots_eq_error_iff (h : p.isPositional = false) {f : SlotFault} :
    p.checkSlots names = .error f ↔ ∃ item, f = .missingSlot item ∧ p.FirstMissing names item := by
  simp only [firstMissing_iff]
  rw [checkSlots_of_named h]
  cases p.orderedItems.find? (!names.contains ·) <;> simp [eq_comm]

/-- **Only which names there are counts**, not in what order or how often. -/
theorem checkSlots_congr (h : ∀ name, name ∈ names ↔ name ∈ names') :
    p.checkSlots names = p.checkSlots names' := by
  have hcontains : names.contains = names'.contains :=
    funext fun name => by simp only [List.contains_eq_mem, h name]
  rw [checkSlots, checkSlots, hcontains]

theorem checkSlots_eq_ok_of_subset (hsub : names ⊆ names') (h : p.checkSlots names = .ok ()) :
    p.checkSlots names' = .ok () := by
  cases hs : p.isPositional with
  | true =>
    rw [checkSlots_of_positional hs] at h
    cases h
  | false =>
    rw [checkSlots_eq_ok_iff hs] at h ⊢
    exact fun item hitem => hsub (h item hitem)

/-- An item that is reported for more names is reported for fewer, or else an item in front of
it is. -/
theorem checkSlots_eq_error_of_subset (hsub : names ⊆ names') {item' : Text}
    (h : p.checkSlots names' = .error (.missingSlot item')) :
    ∃ item, p.checkSlots names = .error (.missingSlot item) ∧ (item = item' ∨
      List.Lex (· < ·) (item.map Char.toNat) (item'.map Char.toNat)) := by
  cases hs : p.isPositional with
  | true =>
    rw [checkSlots_of_positional hs] at h
    cases h
  | false =>
    obtain ⟨_, he, hfirst'⟩ := (checkSlots_eq_error_iff hs).mp h
    obtain rfl := SlotFault.missingSlot.inj he
    have hnot : item' ∉ names := fun hmem => hfirst'.not_mem (hsub hmem)
    cases hcheck : p.checkSlots names with
    | ok =>
      exact absurd ((checkSlots_eq_ok_iff hs).mp hcheck item' hfirst'.hasItem) hnot
    | error f =>
      obtain ⟨item, rfl, hfirst⟩ := (checkSlots_eq_error_iff hs).mp hcheck
      refine ⟨item, rfl, ?_⟩
      by_cases he : item = item'
      · exact Or.inl he
      · exact Or.inr (hfirst.first item' hfirst'.hasItem hnot (Ne.symm he))

/-! ### Children by position -/

theorem checkChildren_of_named (h : p.isPositional = false) (count : Int) :
    p.checkChildren count = .error .positionalChildren := by
  rw [checkChildren, trackCount_eq_none_iff.mpr h]

theorem checkChildren_of_trackCount {n : ℕ} (h : p.trackCount = some n) (count : Int) :
    p.checkChildren count =
      if count = n then .ok () else .error (.childCount p.shape n count) := by
  rw [checkChildren, h]

theorem trackCount_of_columnOnly (h : Layout.read rules lines = .ok p.layout)
    (hs : p.shape = .columnOnly) :
    ∃ line, lines = [line] ∧ p.trackCount = some (tokens line).length := by
  have hvalid := (Layout.read_eq_ok_iff_valid.mp h).1
  have hone : p.layout.rows.length = 1 := hvalid.shape_eq_iff.mp hs
  rw [Layout.length_rows_of_read h] at hone
  obtain ⟨line, rfl⟩ := List.length_eq_one_iff.mp hone
  obtain ⟨-, hl⟩ := Layout.read_eq_ok_iff_inLanguage.mp h
  have hheader : p.layout.header = (tokens line).map ([·]) := by
    rw [hl]
    rfl
  refine ⟨line, rfl, ?_⟩
  rw [trackCount, hs, length_columnSizes (by simp [hs]), hheader, List.length_map]

theorem trackCount_of_rowOnly (h : Layout.read rules lines = .ok p.layout)
    (hs : p.shape = .rowOnly) : p.trackCount = some lines.length := by
  rw [trackCount, hs, length_rowSizes_of_rowOnly hs, Layout.length_rows_of_read h]

/-! ### Children of a plan -/

/-- **A plan that takes the children which its lines ask for.** -/
structure TakesChildren (p : Plan) (lines : List Text) : Prop where
  /-- It is filled by position exactly when no line below the first one has an entry. -/
  positional : p.isPositional = true ↔ ∀ line ∈ lines.tail, (tokens line).tail = []
  /-- A strip of columns takes a child for each token of its line. -/
  columns : p.shape = .columnOnly → ∃ line, lines = [line] ∧ ∀ count, p.checkChildren count =
    if count = (tokens line).length then .ok ()
    else .error (.childCount .columnOnly (tokens line).length count)
  /-- A strip of rows takes a child for each line, the first one included. -/
  rows : p.shape = .rowOnly → ∀ count, p.checkChildren count =
    if count = lines.length then .ok () else .error (.childCount .rowOnly lines.length count)
  /-- No strip takes children by name. -/
  strip : p.isPositional = true → ∀ names, p.checkSlots names = .error (.namedChildren p.shape)
  /-- Any other plan takes none by position. -/
  named : p.isPositional = false → ∀ count, p.checkChildren count = .error .positionalChildren
  /-- The items of a plan are those that are written in the lines. -/
  items : ∀ item, p.HasItem item ↔ Layout.Spelt p.rules lines item
  /-- Names fit when every item is among them. -/
  fit : p.isPositional = false → ∀ names,
    p.checkSlots names = .ok () ↔ ∀ item, p.HasItem item → item ∈ names
  /-- Otherwise the first item without a child is reported. -/
  missing : p.isPositional = false → ∀ names f,
    p.checkSlots names = .error f ↔ ∃ item, f = .missingSlot item ∧ p.FirstMissing names item
  /-- It does not matter in what order the names come, or how often. -/
  same : ∀ names names', (∀ name, name ∈ names ↔ name ∈ names') →
    p.checkSlots names = p.checkSlots names'
  /-- Names that fit do so with others among them. -/
  more : ∀ names names', names ⊆ names' → p.checkSlots names = .ok () →
    p.checkSlots names' = .ok ()
  /-- With others among them, no item is reported in front of the one that was. -/
  later : ∀ names names', names ⊆ names' → ∀ item',
    p.checkSlots names' = .error (.missingSlot item') →
    ∃ item, p.checkSlots names = .error (.missingSlot item) ∧ (item = item' ∨
      List.Lex (· < ·) (item.map Char.toNat) (item'.map Char.toNat))

/-- **Children match the lines.** A strip takes as many children by position as it has sizes, which
are the tokens of its only line or, in a strip of rows, one for each line. Any other plan takes
children by name, one for each item that is written in its lines. -/
theorem children_match_the_lines (h : ofRows rules lines = .ok p) : p.TakesChildren lines := by
  obtain ⟨l, hread, hp⟩ := Except.bind_eq_ok_iff.mp h
  obtain rfl := Except.pure_eq_ok_iff.mp hp
  refine ⟨Layout.isPositional_iff hread, fun hs => ?_, fun hs count => ?_,
    fun hs => checkSlots_of_positional hs, fun hs => checkChildren_of_named hs,
    fun item => Layout.exists_cell_iff_spelt hread, fun hs names => checkSlots_eq_ok_iff hs,
    fun hs names f => checkSlots_eq_error_iff hs, fun names names' => checkSlots_congr,
    fun names names' => checkSlots_eq_ok_of_subset,
    fun names names' hsub item' => checkSlots_eq_error_of_subset hsub⟩
  · obtain ⟨line, hline, hcount⟩ := trackCount_of_columnOnly hread hs
    refine ⟨line, hline, fun count => ?_⟩
    rw [checkChildren_of_trackCount hcount, hs]
  · rw [checkChildren_of_trackCount (trackCount_of_rowOnly hread hs), hs]

/-- The two wide letters of the first layout below have no child. The one that comes first in the
order of code points is reported, which is the last one in the layout. The second layout is a strip
of three rows, of which the first line is one. -/
theorem letters_without_a_child :
    (∃ p, ofRows {} ["1fr 1fr".toList, "1fr 𝐀,Z Ａ".toList] = .ok p ∧
      p.TakesChildren ["1fr 1fr".toList, "1fr 𝐀,Z Ａ".toList] ∧
      p.checkSlots [['Z'], ['Z']] = .error (.missingSlot ['Ａ'])) ∧
    ∃ p, ofRows {} ["1fr".toList, "2em".toList, "auto".toList] = .ok p ∧
      p.checkChildren 3 = .ok () ∧ p.checkChildren 2 = .error (.childCount .rowOnly 3 2) := by
  constructor
  · have hread : ofRows {} ["1fr 1fr".toList, "1fr 𝐀,Z Ａ".toList] = .ok ⟨⟨[["1fr".toList],
        ["1fr".toList]], [[["1fr".toList], [['𝐀'], ['Z']], [['Ａ']]]]⟩, {}⟩ := by decide +kernel
    have htakes := children_match_the_lines hread
    have hfirst : ∀ other ∈ [['𝐀'], ['Z'], ['Ａ']], other ∉ [['Z'], ['Z']] → other ≠ ['Ａ'] →
        List.Lex (· < ·) (['Ａ'].map Char.toNat) (other.map Char.toNat) := by decide
    refine ⟨_, hread, htakes, (htakes.missing rfl _ _).mpr ⟨['Ａ'], rfl, ?_, by decide, ?_⟩⟩
    · exact ⟨_, List.mem_cons_self, [['Ａ']], by decide, by decide⟩
    · rintro other ⟨cells, hcells, cell, hcell, hother⟩
      exact hfirst other (List.mem_flatten_of_mem (List.mem_flatten_of_mem hcells hcell) hother)
  · have hread : ofRows {} ["1fr".toList, "2em".toList, "auto".toList] = .ok ⟨⟨[["1fr".toList]],
        [[["2em".toList]], [["auto".toList]]]⟩, {}⟩ := by decide +kernel
    have htakes := children_match_the_lines hread
    exact ⟨_, hread, htakes.rows (by decide) 3, htakes.rows (by decide) 2⟩

end Plan

end GridText
