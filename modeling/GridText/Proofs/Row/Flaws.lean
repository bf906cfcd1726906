import GridText.Proofs.Row.Reading

/-! # Reading a row: the first flaw

A cell is flawed if it repeats an item, or if an item returns in it that an earlier cell has and the
cell in front has not. Reading goes through the cells from left to right, with no more of the row in
sight than the cells in front. The flaw that it stops at is the first one of the whole row.

* `Cell.firstRepeat?_eq_some_iff`: the first item that equals one before it.
* `returns_iff_resumes`: what is seen of the cells in front tells whether an item returns.
* `readCells_cons_eq_error_iff`, `readCells_eq_error_iff`: one cell behind others, and all of them.
* `rows_stop_at_the_first_flaw`: the rows that are read, and what all others are refused for. -/

namespace GridText

variable {rules : Rules}

namespace Cell

theorem firstRepeat?_eq_some_iff {before items : List Text} {item : Text} (h : before.Nodup) :
    firstRepeat? before items = some item ↔ ∃ front back, items = front ++ item :: back ∧
      (before ++ front).Nodup ∧ item ∈ before ++ front := by
  induction items generalizing before with
  | nil => simp [firstRepeat?]
  | cons first rest ih =>
    rw [firstRepeat?]
    split_ifs with hmem
    · rw [Option.some.injEq]
      constructor
      · rintro rfl
        exact ⟨[], rest, rfl, by simpa using h, by simpa using hmem⟩
      · rintro ⟨front, back, he, hnodup, -⟩
        -- a longer front would begin with `first`, which is there already
        cases front with
        | nil => exact (List.cons.inj he).1
        | cons other front =>
          obtain ⟨rfl, -⟩ := List.cons.inj he
          exact absurd rfl ((List.nodup_append.mp hnodup).2.2 first hmem first List.mem_cons_self)
    · have hnodup : (before ++ [first]).Nodup :=
        List.nodup_append.mpr ⟨h, by simp, by simpa using fun a ha => ne_of_mem_of_not_mem ha hmem⟩
      rw [ih hnodup]
      constructor
      · rintro ⟨front, back, rfl, hnodup, hitem⟩
        rw [List.append_assoc] at hnodup hitem
        exact ⟨first :: front, back, rfl, hnodup, hitem⟩
      · rintro ⟨front, back, he, hnodup, hitem⟩
        cases front with
        | nil =>
          obtain ⟨rfl, rfl⟩ := List.cons.inj he
          exact absurd (by simpa using hitem) hmem
        | cons other front =>
          obtain ⟨rfl, rfl⟩ := List.cons.inj he
          rw [List.append_cons] at hnodup hitem
          exact ⟨front, back, rfl, hnodup, hitem⟩

theorem read_eq_error_iff (hsep : rules.separator ≠ []) {row column : Int} {entry : Text}
    {f : Fault} : read rules row column entry = .error f ↔
      ∃ front item back, ofEntry rules entry = front ++ item :: back ∧ front.Nodup ∧ item ∈ front ∧
        f = .defect (.duplicateItem item row column) := by
  have hrepeat (item : Text) : firstRepeat? [] (ofEntry rules entry) = some item ↔
      ∃ front back, ofEntry rules entry = front ++ item :: back ∧ front.Nodup ∧ item ∈ front :=
    firstRepeat?_eq_some_iff List.nodup_nil
  unfold read
  rw [if_neg hsep]
  cases h : firstRepeat? [] (ofParts rules (parts rules entry)) with
  | none =>
    simp only [h, reduceCtorEq, false_iff]
    rintro ⟨front, item, back, he, hnodup, hitem, -⟩
    cases h.symm.trans ((hrepeat item).mpr ⟨front, back, he, hnodup, hitem⟩)
  | some item =>
    simp only [h, Except.error.injEq]
    constructor
    · rintro rfl
      obtain ⟨front, back, he, hnodup, hitem⟩ := (hrepeat item).mp h
      exact ⟨front, item, back, he, hnodup, hitem, rfl⟩
    · rintro ⟨front, item', back, he, hnodup, hitem, rfl⟩
      have hfirst := (hrepeat item').mpr ⟨front, back, he, hnodup, hitem⟩
      obtain rfl := Option.some.inj (h.symm.trans hfirst)
      rfl

end Cell

namespace Row

/-! ### Flaws -/

/-- An earlier cell has the item, but the cell in front of this position has not. -/
def Returns (cells : List Cell) (p : ℕ) (item : Text) : Prop :=
  (∃ i < p, At cells item i) ∧ ¬ At cells item (p - 1)

/-- **The cell at this position has a flaw**: it repeats an item, or an item returns in it. -/
def Flawed (cells : List Cell) (p : ℕ) : Prop :=
  ∃ cell, cells[p]? = some cell ∧ (¬ cell.Nodup ∨ ∃ item ∈ cell, Returns cells p item)

/-- **What is reported of a flawed cell** of the row with this number: the first item that equals
one before it, or if there is none the first item that returns. -/
inductive Reported (n : Int) (cells : List Cell) (p : ℕ) : Defect → Prop
  | duplicate {front back : List Text} {item : Text} : cells[p]? = some (front ++ item :: back) →
      front.Nodup → item ∈ front → Reported n cells p (.duplicateItem item n (p + 1 : ℕ))
  | returns {front back : List Text} {item : Text} : cells[p]? = some (front ++ item :: back) →
      (front ++ item :: back).Nodup → Returns cells p item →
      (∀ other ∈ front, ¬ Returns cells p other) →
      Reported n cells p (.nonContiguousItem item n (p + 1 : ℕ))

theorem Reported.flawed {n : Int} {cells : List Cell} {p : ℕ} {d : Defect}
    (h : Reported n cells p d) : Flawed cells p := by
  cases h with
  | duplicate hcell _ hitem =>
    refine ⟨_, hcell, Or.inl fun hnodup => ?_⟩
    exact absurd rfl ((List.nodup_append.mp hnodup).2.2 _ hitem _ List.mem_cons_self)
  | returns hcell _ hreturns => exact ⟨_, hcell, Or.inr ⟨_, by simp, hreturns⟩⟩

/-- **What is seen of the cells in front tells whether an item returns.** -/
theorem returns_iff_resumes {before : List Cell} (cells : List Cell) {item : Text} :
    Returns (before ++ cells) before.length item ↔ resumes before item = true := by
  have hat {i : ℕ} (hi : i < before.length) : At (before ++ cells) item i ↔ At before item i :=
    at_append_left cells hi
  simp only [resumes, Bool.and_eq_true, decide_eq_true_eq, ← exists_at_iff, mem_getLast?_iff]
  constructor
  · rintro ⟨⟨i, hi, hitem⟩, hlast⟩
    refine ⟨⟨i, (hat hi).mp hitem⟩, fun h => hlast ?_⟩
    exact (hat (by omega)).mpr h.1
  · rintro ⟨⟨i, hitem⟩, hlast⟩
    have hi := hitem.lt_length
    refine ⟨⟨i, hi, (hat hi).mpr hitem⟩, fun h => hlast ⟨(hat (by omega)).mp h, ?_⟩⟩
    exact List.ne_nil_of_length_pos (by omega)

/-! ### The cells from left to right -/

section Step

variable {n : Int} {before : List Cell} {cell : Cell}

theorem reported_iff (behind : List Cell) {d : Defect} :
    Reported n (before ++ cell :: behind) before.length d ↔
      (∃ front item back, cell = front ++ item :: back ∧ front.Nodup ∧ item ∈ front ∧
        d = .duplicateItem item n (before.length + 1 : ℕ)) ∨
      (cell.Nodup ∧ ∃ item, cell.find? (resumes before) = some item ∧
        d = .nonContiguousItem item n (before.length + 1 : ℕ)) := by
  have hget : (before ++ cell :: behind)[before.length]? = some cell := by simp
  simp only [List.find?_eq_some_iff_append, ← returns_iff_resumes (cell :: behind),
    Bool.not_eq_true', ← Bool.not_eq_true]
  constructor
  · intro h
    cases h with
    | duplicate hcell hnodup hitem =>
      obtain rfl := Option.some.inj (hget.symm.trans hcell)
      exact Or.inl ⟨_, _, _, rfl, hnodup, hitem, rfl⟩
    | returns hcell hnodup hreturns hfirst =>
      obtain rfl := Option.some.inj (hget.symm.trans hcell)
      exact Or.inr ⟨hnodup, _, ⟨hreturns, _, _, rfl, hfirst⟩, rfl⟩
  · rintro (⟨front, item, back, rfl, hnodup, hitem, rfl⟩ |
      ⟨hnodup, item, ⟨hreturns, front, back, rfl, hfirst⟩, rfl⟩)
    · exact .duplicate hget hnodup hitem
    · exact .returns hget hnodup hreturns hfirst

theorem not_flawed_iff (behind : List Cell) :
    ¬ Flawed (before ++ cell :: behind) before.length ↔
      cell.Nodup ∧ cell.find? (resumes before) = none := by
  have hget : (before ++ cell :: behind)[before.length]? = some cell := by simp
  simp only [Flawed, hget, Option.some.injEq, exists_eq_left', not_or, not_not, not_exists, not_and,
    returns_iff_resumes, List.find?_eq_none]

theorem readCells_cons_eq_error_iff (hsep : rules.separator ≠ []) {entry : Text}
    {entries : List Text} (behind : List Cell) {f : Fault} :
    readCells rules n before (entry :: entries) = .error f ↔
      (∃ d, Reported n (before ++ Cell.ofEntry rules entry :: behind) before.length d ∧
        f = .defect d) ∨
      (¬ Flawed (before ++ Cell.ofEntry rules entry :: behind) before.length ∧
        readCells rules n (before ++ [Cell.ofEntry rules entry]) entries = .error f) := by
  have hread : (Cell.parts rules entry).Nodup ↔ (Cell.ofEntry rules entry).Nodup :=
    Cell.nodup_ofParts_iff.symm
  simp only [readCells, Except.bind_eq_error_iff, Cell.read_eq_error_iff hsep, Cell.read_eq_ok_iff,
    reported_iff, not_flawed_iff, hread]
  constructor
  · rintro (⟨front, item, back, he, hnodup, hitem, rfl⟩ | ⟨_, ⟨-, hnodup, rfl⟩, h⟩)
    · exact Or.inl ⟨_, Or.inl ⟨front, item, back, he, hnodup, hitem, rfl⟩, rfl⟩
    · cases hfind : (Cell.ofEntry rules entry).find? (resumes before) with
      | none =>
        rw [hfind] at h
        exact Or.inr ⟨⟨hnodup, rfl⟩, h⟩
      | some item =>
        rw [hfind] at h
        exact Or.inl ⟨_, Or.inr ⟨hnodup, item, rfl, rfl⟩, (Except.error.inj h).symm⟩
  · rintro (⟨d, ⟨front, item, back, he, hnodup, hitem, rfl⟩ | ⟨hnodup, item, hfind, rfl⟩, rfl⟩ |
      ⟨⟨hnodup, hfind⟩, h⟩)
    · exact Or.inl ⟨front, item, back, he, hnodup, hitem, rfl⟩
    · exact Or.inr ⟨_, ⟨hsep, hnodup, rfl⟩, by rw [hfind]⟩
    · exact Or.inr ⟨_, ⟨hsep, hnodup, rfl⟩, by rw [hfind]; exact h⟩

end Step

/-- **The cells from left to right**: the first flaw is reported. -/
theorem readCells_eq_error_iff (hsep : rules.separator ≠ []) {n : Int} {before : List Cell}
    {entries : List Text} {f : Fault} :
    readCells rules n before entries = .error f ↔ ∃ p d, before.length ≤ p ∧
      (∀ q, before.length ≤ q → q < p →
        ¬ Flawed (before ++ entries.map (Cell.ofEntry rules)) q) ∧
      Reported n (before ++ entries.map (Cell.ofEntry rules)) p d ∧ f = .defect d := by
  induction entries generalizing before with
  | nil =>
    simp only [readCells, reduceCtorEq, false_iff, List.map_nil, List.append_nil]
    rintro ⟨p, d, hp, -, hd, -⟩
    obtain ⟨cell, hcell, -⟩ := hd.flawed
    rw [List.getElem?_eq_none hp] at hcell
    cases hcell
  | cons entry entries ih =>
    rw [readCells_cons_eq_error_iff hsep (entries.map (Cell.ofEntry rules)), ih, List.map_cons,
      List.append_assoc, List.singleton_append, List.length_append, List.length_singleton]
    constructor
    · rintro (⟨d, hd, rfl⟩ | ⟨hclean, p, d, hp, hfirst, hd, rfl⟩)
      · exact ⟨before.length, d, le_rfl, fun q hle hlt => absurd hlt (by omega), hd, rfl⟩
      · refine ⟨p, d, by omega, fun q hle hlt => ?_, hd, rfl⟩
        rcases Nat.eq_or_lt_of_le hle with rfl | hle
        · exact hclean
        · exact hfirst q hle hlt
    · rintro ⟨p, d, hp, hfirst, hd, rfl⟩
      rcases Nat.eq_or_lt_of_le hp with rfl | hlt
      · exact Or.inl ⟨d, hd, rfl⟩
      · exact Or.inr ⟨hfirst _ le_rfl hlt, p, d, hlt, fun q hle => hfirst q (by omega), hd, rfl⟩

/-- **Rows stop at the first flaw.** A size and entries are read as the cells that they spell if the
size is one, no cell repeats an item and every item stands in one unbroken run of cells. Otherwise
the size is refused, or what is reported is the flaw of the first cell that has one. -/
theorem rows_stop_at_the_first_flaw (hsep : rules.separator ≠ []) (n : Int) (size : Text)
    (entries : List Text) :
    (∀ row, read rules n (size :: entries) = .ok row ↔
      Track.Size size ∧ (∀ cell ∈ entries.map (Cell.ofEntry rules), cell.Nodup) ∧
        Unbroken (entries.map (Cell.ofEntry rules)) ∧
        row = [size] :: entries.map (Cell.ofEntry rules)) ∧
    ∀ f, read rules n (size :: entries) = .error f ↔
      (∃ d, Track.classify size = .error d ∧ f = .defect d) ∨
      (Track.Size size ∧ ∃ p d, (∀ q < p, ¬ Flawed (entries.map (Cell.ofEntry rules)) q) ∧
        Reported n (entries.map (Cell.ofEntry rules)) p d ∧ f = .defect d) := by
  constructor
  · intro row
    have hnodup (entry : Text) : (Cell.ofEntry rules entry).Nodup ↔ (Cell.parts rules entry).Nodup :=
      Cell.nodup_ofParts_iff
    simp only [read_eq_ok_iff, List.forall_mem_map, hnodup]
    constructor
    · rintro ⟨⟨⟨_, ⟨⟩, hsize⟩, -, hdistinct, hunbroken⟩, rfl⟩
      exact ⟨hsize, hdistinct, hunbroken, rfl⟩
    · rintro ⟨hsize, hdistinct, hunbroken, rfl⟩
      exact ⟨⟨⟨size, rfl, hsize⟩, fun _ => hsep, hdistinct, hunbroken⟩, rfl⟩
  · intro f
    have hcells (f : Fault) : readCells rules n [] entries = .error f ↔
        ∃ p d, (∀ q < p, ¬ Flawed (entries.map (Cell.ofEntry rules)) q) ∧
          Reported n (entries.map (Cell.ofEntry rules)) p d ∧ f = .defect d := by
      rw [readCells_eq_error_iff hsep]
      simp only [List.nil_append, List.length_nil, Nat.zero_le, true_and, forall_const]
    simp only [read, Except.bind_eq_error_iff, Except.mapError_eq_error_iff,
      Except.mapError_eq_ok_iff, hcells, ← Track.exists_classify_iff]
    constructor
    · rintro (⟨d, hd, rfl⟩ | ⟨kind, hkind, hflaw | ⟨_, -, h⟩⟩)
      · exact Or.inl ⟨d, hd, rfl⟩
      · exact Or.inr ⟨⟨kind, hkind⟩, hflaw⟩
      · cases h
    · rintro (⟨d, hd, rfl⟩ | ⟨⟨kind, hkind⟩, hflaw⟩)
      · exact Or.inl ⟨d, hd, rfl⟩
      · exact Or.inr ⟨kind, hkind, Or.inl hflaw⟩

/-- In the third cell below, `B` returns in front of `A`, which returns as well; the next cell repeats
`D`, but that is no longer seen. -/
theorem item_that_returns_is_reported : ({} : Rules).separator ≠ [] ∧
    read {} 1 ["1fr".toList, "A,B".toList, "..".toList, "C,B,A".toList, "D,D".toList] =
      .error (.defect (.nonContiguousItem ['B'] 1 3)) ∧
    ∃ p, (∀ q < p, ¬ Flawed [[['A'], ['B']], [], [['C'], ['B'], ['A']], [['D'], ['D']]] q) ∧
      Reported 1 [[['A'], ['B']], [], [['C'], ['B'], ['A']], [['D'], ['D']]] p
        (.nonContiguousItem ['B'] 1 3) := by
  have hsep : ({} : Rules).separator ≠ [] := by decide
  have hread : read {} 1 ["1fr".toList, "A,B".toList, "..".toList, "C,B,A".toList, "D,D".toList] =
      .error (.defect (.nonContiguousItem ['B'] 1 3)) := by decide +kernel
  have hcells : ["A,B".toList, "..".toList, "C,B,A".toList, "D,D".toList].map (Cell.ofEntry {}) =
      [[['A'], ['B']], [], [['C'], ['B'], ['A']], [['D'], ['D']]] := by decide +kernel
  refine ⟨hsep, hread, ?_⟩
  rcases ((rows_stop_at_the_first_flaw hsep 1 _ _).2 _).mp hread with
    ⟨d, hd, he⟩ | ⟨-, p, d, hfirst, hd, he⟩
  · obtain rfl := Fault.defect.inj he
    rcases Track.classify_eq_error hd with h | h | h <;> cases h
  · obtain rfl := Fault.defect.inj he
    rw [hcells] at hfirst hd
    exact ⟨p, hfirst, hd⟩

end Row

end GridText
