import GridText.Row.Reading
import GridText.Proofs.Except
import GridText.Proofs.Row.Spans
import GridText.Proofs.Track.Grammar

/-! # Reading a row: which rows are accepted

Reading goes through the entries from left to right and remembers the cells in front. What it
accepts is said here of the whole row at once: no entry repeats an item, and every item stands in
one unbroken run of cells.

* `Cell.read_eq_ok_iff`: an entry is read as the list of its parts, if these are distinct.
* `Row.unbroken_concat`: one more cell keeps the runs unbroken exactly when none of its items comes
  back in it.
* `Row.read_eq_ok_iff`, `Row.readText_eq_ok_iff`: a list of tokens, a line, is read as the row that
  it spells, if it is well formed. -/

namespace GridText

/-- The cell that an entry spells. -/
def Cell.ofEntry (rules : Rules) (entry : Text) : Cell := ofParts rules (parts rules entry)

namespace Cell

variable {rules : Rules}

theorem firstRepeat?_eq_none_iff {before items : List Text} :
    firstRepeat? before items = none ↔ items.Nodup ∧ ∀ item ∈ items, item ∉ before := by
  induction items generalizing before with
  | nil => simp [firstRepeat?]
  | cons item rest ih =>
    rw [firstRepeat?, List.nodup_cons]
    split_ifs with h
    · simp [h]
    · rw [ih]
      constructor
      · rintro ⟨hnodup, hfresh⟩
        refine ⟨⟨fun hmem => hfresh item hmem (by simp), hnodup⟩, fun other hother => ?_⟩
        rcases List.mem_cons.mp hother with rfl | hother
        · exact h
        · exact fun hbefore => hfresh other hother (by simp [hbefore])
      · rintro ⟨⟨hnew, hnodup⟩, hfresh⟩
        refine ⟨hnodup, fun other hother hmem => ?_⟩
        rcases List.mem_append.mp hmem with hmem | hmem
        · exact hfresh other (List.mem_cons_of_mem _ hother) hmem
        · exact hnew (List.mem_singleton.mp hmem ▸ hother)

/-- The marker alone has no repetition, so that it does not matter when it is replaced. -/
theorem nodup_ofParts_iff {parts : List Text} : (ofParts rules parts).Nodup ↔ parts.Nodup := by
  unfold ofParts
  split_ifs with h
  · simp [h]
  · exact Iff.rfl

/-- **An entry is read as its parts**, if these are distinct. -/
theorem read_eq_ok_iff {row column : Int} {entry : Text} {cell : Cell} :
    read rules row column entry = .ok cell ↔
      rules.separator ≠ [] ∧ (parts rules entry).Nodup ∧ cell = ofEntry rules entry := by
  unfold read
  split_ifs with hsep
  · simp [hsep]
  · have hnodup : firstRepeat? [] (ofParts rules (parts rules entry)) = none ↔
        (parts rules entry).Nodup := by simp [firstRepeat?_eq_none_iff, nodup_ofParts_iff]
    cases h : firstRepeat? [] (ofParts rules (parts rules entry)) with
    | none => simp [hsep, ← hnodup, h, ofEntry, eq_comm]
    | some item => simp [← hnodup, h]

end Cell

namespace Row

variable {rules : Rules}

/-- Every item stands in one unbroken run of cells. -/
def Unbroken (cells : List Cell) : Prop :=
  ∀ item i j k, i ≤ j → j ≤ k → At cells item i → At cells item k → At cells item j

theorem at_append_left {before : List Cell} (cells : List Cell) {item : Text} {p : ℕ}
    (hp : p < before.length) :
    At (before ++ cells) item p ↔ At before item p := by
  simp only [At, List.getElem?_append_left hp]

theorem at_concat {before : List Cell} {cell : Cell} {item : Text} {p : ℕ} :
    At (before ++ [cell]) item p ↔ At before item p ∨ (p = before.length ∧ item ∈ cell) := by
  rcases Nat.lt_trichotomy p before.length with hp | rfl | hp
  · rw [at_append_left _ hp]
    have : p ≠ before.length := by omega
    simp [this]
  · simp [At]
  · have hout : ∀ cells : List Cell, cells.length ≤ p → ¬ At cells item p :=
      fun cells hle h => absurd h.lt_length (by omega)
    have : p ≠ before.length := by omega
    simp [hout before (by omega), hout (before ++ [cell]) (by simp; omega), this]

theorem unbroken_nil : Unbroken [] := fun _ _ _ _ _ _ h => absurd h.lt_length (by simp)

theorem Unbroken.of_append {before cells : List Cell} (h : Unbroken (before ++ cells)) :
    Unbroken before := by
  intro item i j k hij hjk hi hk
  have hlt := hk.lt_length
  rw [← at_append_left cells (by omega)] at hi hk ⊢
  exact h item i j k hij hjk hi hk

theorem resumes_eq_false_iff {before : List Cell} {item : Text} :
    resumes before item = false ↔ ((∃ p, At before item p) → item ∈ before.getLast?.getD []) := by
  unfold resumes
  rw [exists_at_iff, Bool.and_eq_false_iff, decide_eq_false_iff_not, decide_eq_false_iff_not]
  tauto

theorem mem_getLast?_iff {before : List Cell} {item : Text} :
    item ∈ before.getLast?.getD [] ↔ At before item (before.length - 1) ∧ before ≠ [] := by
  rcases List.eq_nil_or_concat before with rfl | ⟨front, cell, rfl⟩
  · simp
  · simp [At]

/-- **One more cell keeps the runs unbroken** exactly when none of its items comes back in it. -/
theorem unbroken_concat {before : List Cell} {cell : Cell} :
    Unbroken (before ++ [cell]) ↔ Unbroken before ∧ ∀ item ∈ cell, resumes before item = false := by
  constructor
  · refine fun h => ⟨h.of_append, fun item hitem => resumes_eq_false_iff.mpr ?_⟩
    rintro ⟨p, hp⟩
    have hlt := hp.lt_length
    have hne : before ≠ [] := List.ne_nil_of_length_pos (by omega)
    rw [mem_getLast?_iff, ← at_append_left [cell] (by omega)]
    exact ⟨h item p (before.length - 1) before.length (by omega) (by omega)
      (at_concat.mpr (Or.inl hp)) (at_concat.mpr (Or.inr ⟨rfl, hitem⟩)), hne⟩
  · rintro ⟨hbefore, hlast⟩ item i j k hij hjk hi hk
    rcases at_concat.mp hk with hk | ⟨rfl, hitem⟩
    · have hlt := hk.lt_length
      rw [at_append_left _ (by omega)] at hi ⊢
      exact hbefore item i j k hij hjk hi hk
    · rcases Nat.lt_or_eq_of_le hjk with hj | rfl
      · rw [at_append_left _ (by omega)] at hi ⊢
        -- the item came earlier, so it is in the last of the cells before
        obtain ⟨hend, -⟩ := mem_getLast?_iff.mp (resumes_eq_false_iff.mp (hlast item hitem) ⟨i, hi⟩)
        exact hbefore item i j _ hij (by omega) hi hend
      · exact hk

theorem find?_resumes_eq_none_iff {before : List Cell} {cell : Cell} (h : Unbroken before) :
    cell.find? (resumes before) = none ↔ Unbroken (before ++ [cell]) := by
  rw [unbroken_concat, and_iff_right h, List.find?_eq_none]
  simp only [Bool.not_eq_true]

/-! ### Entries and rows -/

theorem readCells_eq_ok_iff {n : Int} {before cells : List Cell} {entries : List Text}
    (hbefore : Unbroken before) :
    readCells rules n before entries = .ok cells ↔
      (entries ≠ [] → rules.separator ≠ []) ∧ (∀ entry ∈ entries, (Cell.parts rules entry).Nodup) ∧
        Unbroken cells ∧ cells = before ++ entries.map (Cell.ofEntry rules) := by
  induction entries generalizing before with
  | nil =>
    simp only [readCells, Except.ok.injEq, List.map_nil, List.append_nil]
    constructor
    · rintro rfl
      exact ⟨by simp, by simp, hbefore, rfl⟩
    · rintro ⟨-, -, -, rfl⟩
      rfl
  | cons entry entries ih =>
    simp only [readCells, Except.bind_eq_ok_iff, Cell.read_eq_ok_iff, List.forall_mem_cons,
      List.map_cons]
    have happend := List.append_cons before (Cell.ofEntry rules entry)
      (entries.map (Cell.ofEntry rules))
    constructor
    · rintro ⟨cell, ⟨hsep, hnodup, rfl⟩, h⟩
      cases hfind : (Cell.ofEntry rules entry).find? (resumes before) with
      | some item => rw [hfind] at h; cases h
      | none =>
        rw [hfind] at h
        have hnext := (find?_resumes_eq_none_iff hbefore).mp hfind
        obtain ⟨-, hrest, hcells, rfl⟩ := (ih hnext).mp h
        exact ⟨fun _ => hsep, ⟨hnodup, hrest⟩, hcells, happend.symm⟩
    · rintro ⟨hsep, ⟨hnodup, hrest⟩, hcells, rfl⟩
      have hnext := (happend ▸ hcells).of_append
      have hfind := (find?_resumes_eq_none_iff hbefore).mpr hnext
      refine ⟨_, ⟨hsep (by simp), hnodup, rfl⟩, ?_⟩
      rw [hfind]
      exact (ih hnext).mpr ⟨fun _ => hsep (by simp), hrest, hcells, happend⟩

/-- The row that a list of tokens spells: a size, then the cells of the entries. -/
def ofTokens (rules : Rules) : List Text → Row
  | [] => []
  | size :: entries => [size] :: entries.map (Cell.ofEntry rules)

/-- The values of a row are as many as its tokens. -/
theorem length_ofTokens (rules : Rules) (found : List Text) :
    (ofTokens rules found).length = found.length := by cases found <;> simp [ofTokens]

/-- **The tokens that make a row**: a track size, then entries without repetition, each item in one
unbroken run of cells. Entries can be told apart into items only by a separator. -/
structure WellFormed (rules : Rules) (found : List Text) : Prop where
  size : ∃ size ∈ found.head?, Track.Size size
  separator : found.tail ≠ [] → rules.separator ≠ []
  distinct : ∀ entry ∈ found.tail, (Cell.parts rules entry).Nodup
  unbroken : Unbroken (found.tail.map (Cell.ofEntry rules))

theorem read_eq_ok_iff {n : Int} {found : List Text} {row : Row} :
    read rules n found = .ok row ↔ WellFormed rules found ∧ row = ofTokens rules found := by
  cases found with
  | nil =>
    simp only [read, reduceCtorEq, false_iff, not_and]
    exact fun h => absurd h.size (by simp)
  | cons size entries =>
    simp only [read, Except.bind_eq_ok_iff, Except.mapError_eq_ok_iff, Except.pure_eq_ok_iff,
      readCells_eq_ok_iff unbroken_nil, List.nil_append, ofTokens]
    constructor
    · rintro ⟨kind, hkind, cells, ⟨hsep, hdistinct, hcells, rfl⟩, rfl⟩
      have hsize := Track.size_of_classify hkind
      exact ⟨⟨⟨size, rfl, hsize⟩, hsep, hdistinct, hcells⟩, rfl⟩
    · rintro ⟨⟨⟨_, he, hsize⟩, hsep, hdistinct, hcells⟩, rfl⟩
      obtain rfl := Option.some.inj he
      obtain ⟨kind, hkind⟩ := Track.exists_classify_iff.mpr hsize
      exact ⟨kind, hkind, _, ⟨hsep, hdistinct, hcells, rfl⟩, rfl⟩

theorem scan_eq_ok_iff {line : Text} {found : List Text} :
    Token.scan line = .ok found ↔ found ≠ [] ∧ Token.tokens line = found := by
  unfold Token.scan
  split
  · next h => simp [h, eq_comm]
  · next h => rw [Except.ok.injEq]; exact ⟨fun e => ⟨e ▸ h, e⟩, fun e => e.2⟩

/-- **A line is read as the row that its tokens spell**, if they are well formed. -/
theorem readText_eq_ok_iff {n : Int} {line : Text} {row : Row} :
    readText rules n line = .ok row ↔
      WellFormed rules (Token.tokens line) ∧ row = ofTokens rules (Token.tokens line) := by
  unfold readText
  simp only [Except.bind_eq_ok_iff, Except.mapError_eq_ok_iff, scan_eq_ok_iff, read_eq_ok_iff]
  constructor
  · rintro ⟨_, ⟨-, rfl⟩, h⟩
    exact h
  · rintro ⟨h, rfl⟩
    obtain ⟨size, hsize, -⟩ := h.size
    exact ⟨_, ⟨fun e => by simp [e] at hsize, rfl⟩, h, rfl⟩

end Row

end GridText
