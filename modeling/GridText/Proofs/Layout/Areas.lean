import GridText.Layout.Area
import GridText.Proofs.Row.Spans
import Mathlib.Data.List.Induction

/-! # Areas: the least box around an item

The area of an item is widened from one mention to the next. `find?_areas_eq_some_iff` says where
this ends: at the least box around the cells that hold the item, each of its four sides at one of
these cells. -/

namespace GridText

namespace Area

/-- The cell in this row and column lies in the box. -/
def Contains (a : Area) (r c : ℕ) : Prop := a.top ≤ r ∧ r ≤ a.bottom ∧ a.left ≤ c ∧ c ≤ a.right

/-- **The least box around a set of cells**: all lie in it, and each side touches one of them. -/
structure IsHull (cells : ℕ → ℕ → Prop) (a : Area) : Prop where
  contains : ∀ r c, cells r c → a.Contains r c
  top : ∃ c, cells a.top c
  left : ∃ r, cells r a.left
  bottom : ∃ c, cells a.bottom c
  right : ∃ r, cells r a.right

variable {cells : ℕ → ℕ → Prop} {a b : Area}

theorem IsHull.unique (ha : IsHull cells a) (hb : IsHull cells b) : a = b := by
  have key : ∀ {a b : Area}, IsHull cells a → IsHull cells b →
      b.top ≤ a.top ∧ b.left ≤ a.left ∧ a.bottom ≤ b.bottom ∧ a.right ≤ b.right := by
    intro a b ha hb
    obtain ⟨c₁, h₁⟩ := ha.top
    obtain ⟨r₂, h₂⟩ := ha.left
    obtain ⟨c₃, h₃⟩ := ha.bottom
    obtain ⟨r₄, h₄⟩ := ha.right
    exact ⟨(hb.contains _ _ h₁).1, (hb.contains _ _ h₂).2.2.1, (hb.contains _ _ h₃).2.1,
      (hb.contains _ _ h₄).2.2.2⟩
  obtain ⟨h₁, h₂, h₃, h₄⟩ := key ha hb
  obtain ⟨h₁', h₂', h₃', h₄'⟩ := key hb ha
  cases a
  cases b
  simp only [mk.injEq] at *
  omega

theorem isHull_congr {cells' : ℕ → ℕ → Prop} (h : ∀ r c, cells r c ↔ cells' r c) :
    IsHull cells a ↔ IsHull cells' a := by
  obtain rfl : cells = cells' := funext fun r => funext fun c => propext (h r c)
  exact Iff.rfl

theorem isHull_widen_none (p : Position) :
    IsHull (fun r c => r = p.row ∧ c = p.column) (widen none p) := by
  refine ⟨?_, ⟨p.column, rfl, rfl⟩, ⟨p.row, rfl, rfl⟩, ⟨p.column, rfl, rfl⟩, ⟨p.row, rfl, rfl⟩⟩
  rintro r c ⟨rfl, rfl⟩
  simp [Contains, widen]

theorem isHull_widen_some (h : IsHull cells a) (p : Position) :
    IsHull (fun r c => cells r c ∨ (r = p.row ∧ c = p.column)) (widen (some a) p) := by
  obtain ⟨hin, ⟨c₁, h₁⟩, ⟨r₂, h₂⟩, ⟨c₃, h₃⟩, ⟨r₄, h₄⟩⟩ := h
  refine ⟨?_, ?_, ?_, ?_, ?_⟩
  · rintro r c (h | ⟨rfl, rfl⟩)
    · have := hin r c h
      simp only [Contains, widen] at this ⊢
      omega
    · simp only [Contains, widen]
      omega
  · rcases Nat.le_total a.top p.row with h | h
    · exact ⟨c₁, Or.inl (by simpa [widen, Nat.min_eq_left h] using h₁)⟩
    · exact ⟨p.column, Or.inr ⟨by simp [widen, Nat.min_eq_right h], rfl⟩⟩
  · rcases Nat.le_total a.left p.column with h | h
    · exact ⟨r₂, Or.inl (by simpa [widen, Nat.min_eq_left h] using h₂)⟩
    · exact ⟨p.row, Or.inr ⟨rfl, by simp [widen, Nat.min_eq_right h]⟩⟩
  · rcases Nat.le_total p.row a.bottom with h | h
    · exact ⟨c₃, Or.inl (by simpa [widen, Nat.max_eq_left h] using h₃)⟩
    · exact ⟨p.column, Or.inr ⟨by simp [widen, Nat.max_eq_right h], rfl⟩⟩
  · rcases Nat.le_total p.column a.right with h | h
    · exact ⟨r₄, Or.inl (by simpa [widen, Nat.max_eq_left h] using h₄)⟩
    · exact ⟨p.row, Or.inr ⟨rfl, by simp [widen, Nat.max_eq_right h]⟩⟩

/-- Widening from nothing by a list of positions ends at the least box around them. -/
theorem isHull_foldl_widen (ps : List Position) (hps : ps ≠ []) :
    ∃ a, ps.foldl (fun known p => some (widen known p)) none = some a ∧
      IsHull (fun r c => ⟨r, c⟩ ∈ ps) a := by
  induction ps using List.reverseRecOn with
  | nil => exact absurd rfl hps
  | append_singleton ps p ih =>
    rw [List.foldl_append]
    have hsplit : ∀ r c, (⟨r, c⟩ : Position) ∈ ps ++ [p] ↔
        (⟨r, c⟩ : Position) ∈ ps ∨ (r = p.row ∧ c = p.column) := by
      intro r c
      cases p
      simp
    refine ⟨_, rfl, (isHull_congr hsplit).mpr ?_⟩
    by_cases hne : ps = []
    · subst hne
      exact (isHull_congr (by simp)).mp (isHull_widen_none p)
    · obtain ⟨a, ha, hhull⟩ := ih hne
      rw [ha]
      exact isHull_widen_some hhull p

end Area

namespace Layout

variable {l : Layout} {item : Text}

/-- The interior cell in this row and column holds the item. -/
def Holds (l : Layout) (item : Text) (r c : ℕ) : Prop :=
  ∃ cells, l.interior[r]? = some cells ∧ Row.At cells item c

theorem mem_places {cell : Cell} {r c : ℕ} :
    (cell, (⟨r, c⟩ : Position)) ∈ l.places ↔
      ∃ cells, l.interior[r]? = some cells ∧ cells[c]? = some cell := by
  simp only [places, List.mem_flatMap, List.mem_map, Prod.exists, List.mem_zipIdx_iff_getElem?,
    Prod.mk.injEq, Position.mk.injEq]
  constructor
  · rintro ⟨cells, r', hcells, cell', c', hcell, rfl, rfl, rfl⟩
    exact ⟨cells, hcells, hcell⟩
  · rintro ⟨cells, hcells, hcell⟩
    exact ⟨cells, r, hcells, cell, c, hcell, rfl, rfl, rfl⟩

theorem mem_mentions {r c : ℕ} : (item, (⟨r, c⟩ : Position)) ∈ l.mentions ↔ l.Holds item r c := by
  simp only [mentions, List.mem_flatMap, List.mem_map, Prod.exists, Prod.mk.injEq, Holds, Row.At]
  constructor
  · rintro ⟨cell, p, hplace, _, hitem, rfl, rfl⟩
    obtain ⟨cells, hcells, hcell⟩ := mem_places.mp hplace
    exact ⟨cells, hcells, cell, hcell, hitem⟩
  · rintro ⟨cells, hcells, cell, hcell, hitem⟩
    exact ⟨cell, ⟨r, c⟩, mem_places.mpr ⟨cells, hcells, hcell⟩, item, hitem, rfl, rfl⟩

/-- The positions at which an item is mentioned, row by row. -/
def positions (l : Layout) (item : Text) : List Position :=
  (l.mentions.filter (·.1 = item)).map (·.2)

theorem mem_positions {r c : ℕ} : (⟨r, c⟩ : Position) ∈ l.positions item ↔ l.Holds item r c := by
  simp [positions, ← mem_mentions]

theorem find?_areas : l.areas.find? item =
    (l.positions item).foldl (fun known p => some (Area.widen known p)) none :=
  ItemMap.find?_collect _ _ _

/-- **The area of an item** is the least box around the cells that hold it. -/
theorem find?_areas_eq_some_iff {a : Area} :
    l.areas.find? item = some a ↔ Area.IsHull (l.Holds item) a := by
  rw [find?_areas]
  by_cases hne : l.positions item = []
  · rw [hne, List.foldl_nil]
    simp only [reduceCtorEq, false_iff]
    intro h
    obtain ⟨c, hc⟩ := h.top
    have := mem_positions.mpr hc
    rw [hne] at this
    exact absurd this List.not_mem_nil
  · obtain ⟨a', ha', hhull⟩ := Area.isHull_foldl_widen _ hne
    rw [Area.isHull_congr fun r c => mem_positions] at hhull
    rw [ha', Option.some.injEq]
    exact ⟨fun e => e ▸ hhull, fun h => hhull.unique h⟩

/-- An item has an area exactly when some cell holds it. -/
theorem mem_items_areas_iff : item ∈ l.areas.items ↔ ∃ r c, l.Holds item r c := by
  rw [areas, ItemMap.mem_items_collect, List.mem_map]
  constructor
  · rintro ⟨⟨_, r, c⟩, hmention, rfl⟩
    exact ⟨r, c, mem_mentions.mp hmention⟩
  · rintro ⟨r, c, h⟩
    exact ⟨(item, ⟨r, c⟩), mem_mentions.mpr h, rfl⟩

end Layout

end GridText
