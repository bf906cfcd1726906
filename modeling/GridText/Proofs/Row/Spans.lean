import GridText.Row.Basic
import GridText.Proofs.ItemMap
import Mathlib.Data.List.Pairwise
import Mathlib.Tactic.Common

/-! # Rows: where an item stands

`Row.At cells item p` says that the cell at position `p` holds the item. The spans of a row are
collected by one pass over its cells; `find?_spans_eq_some_iff` says what the pass finds: the
left-most and the right-most position of the item, if it stands anywhere. -/

namespace GridText.Row

/-- The cell at this position holds the item. -/
def At (cells : List Cell) (item : Text) (p : ℕ) : Prop :=
  ∃ cell, cells[p]? = some cell ∧ item ∈ cell

/-- The item stands at `left` and at `right`, and nowhere outside. -/
structure Spans (cells : List Cell) (item : Text) (left right : ℕ) : Prop where
  at_left : At cells item left
  at_right : At cells item right
  within : ∀ p, At cells item p → left ≤ p ∧ p ≤ right

theorem Spans.le {cells : List Cell} {item : Text} {left right : ℕ}
    (h : Spans cells item left right) : left ≤ right := (h.within _ h.at_left).2

theorem Spans.unique {cells : List Cell} {item : Text} {left right left' right' : ℕ}
    (h : Spans cells item left right) (h' : Spans cells item left' right') :
    left = left' ∧ right = right' := by
  have hl := (h.within _ h'.at_left).1
  have hl' := (h'.within _ h.at_left).1
  have hr := (h.within _ h'.at_right).2
  have hr' := (h'.within _ h.at_right).2
  omega

theorem at_cons_zero {cell : Cell} {cells : List Cell} {item : Text} :
    At (cell :: cells) item 0 ↔ item ∈ cell := by simp [At]

theorem at_cons_succ {cell : Cell} {cells : List Cell} {item : Text} {p : ℕ} :
    At (cell :: cells) item (p + 1) ↔ At cells item p := by simp [At]

theorem At.lt_length {cells : List Cell} {item : Text} {p : ℕ} (h : At cells item p) :
    p < cells.length := by
  obtain ⟨cell, hcell, -⟩ := h
  exact (List.getElem?_eq_some_iff.mp hcell).1

theorem exists_at_iff {cells : List Cell} {item : Text} :
    (∃ p, At cells item p) ↔ item ∈ cells.flatten := by
  constructor
  · rintro ⟨p, cell, hcell, hitem⟩
    exact List.mem_flatten.mpr ⟨cell, List.mem_of_getElem? hcell, hitem⟩
  · intro h
    obtain ⟨cell, hcell, hitem⟩ := List.mem_flatten.mp h
    obtain ⟨p, hp⟩ := List.mem_iff_getElem?.mp hcell
    exact ⟨p, cell, hp, hitem⟩

/-! ### The pass over the cells -/

theorem mem_mentions {row : Row} {item : Text} {p : ℕ} :
    (item, p) ∈ row.mentions ↔ At row item p := by
  simp only [mentions, List.mem_flatMap, List.mem_map, Prod.mk.injEq, At, Prod.exists,
    List.mem_zipIdx_iff_getElem?]
  constructor
  · rintro ⟨cell, q, hcell, a, ha, rfl, rfl⟩
    exact ⟨cell, hcell, ha⟩
  · rintro ⟨cell, hcell, hitem⟩
    exact ⟨cell, p, hcell, item, hitem, rfl, rfl⟩

/-- The positions at which an item is mentioned, from left to right. -/
def positions (row : Row) (item : Text) : List ℕ :=
  (row.mentions.filter (·.1 = item)).map (·.2)

theorem mem_positions {row : Row} {item : Text} {p : ℕ} :
    p ∈ positions row item ↔ At row item p := by
  simp [positions, ← mem_mentions]

/-- What is numbered stands in the order of the numbers. -/
theorem sorted_zipIdx {α : Type} (xs : List α) : xs.zipIdx.Pairwise fun a b => a.2 < b.2 := by
  rw [← List.pairwise_map (f := Prod.snd), List.zipIdx_map_snd]
  exact List.pairwise_lt_range' 1

theorem sorted_mentions (row : Row) : row.mentions.Pairwise fun a b => a.2 ≤ b.2 := by
  refine List.pairwise_flatMap.mpr
    ⟨fun a _ => ?_, (sorted_zipIdx row).imp fun {a b} hab x hx y hy => ?_⟩
  · rw [List.pairwise_map]
    exact List.pairwise_of_forall fun _ _ => Nat.le_refl a.2
  · obtain ⟨_, -, rfl⟩ := List.mem_map.mp hx
    obtain ⟨_, -, rfl⟩ := List.mem_map.mp hy
    exact Nat.le_of_lt hab

theorem sorted_positions (row : Row) (item : Text) :
    (positions row item).Pairwise (· ≤ ·) := by
  unfold positions
  rw [List.pairwise_map]
  exact (sorted_mentions row).filter _

/-- Widening a span by further positions moves its right end to the last of them. -/
theorem foldl_widen (ps : List ℕ) (left : Int) (p : ℕ) :
    ps.foldl (fun known q => some (Span.widen known q)) (some ⟨left, p⟩) =
      some ⟨left, (ps.getLast?.getD p : ℕ)⟩ := by
  induction ps generalizing p with
  | nil => rfl
  | cons q ps ih =>
    rw [List.foldl_cons, Span.widen, ih q, List.getLast?_cons]
    rfl

theorem nodup_items_spans (row : Row) : row.spans.items.Nodup := ItemMap.nodup_items_collect _ _

theorem find?_spans (row : Row) (item : Text) :
    row.spans.find? item =
      (positions row item).head?.map fun left =>
        ⟨left, ((positions row item).getLast?.getD left : ℕ)⟩ := by
  unfold spans
  rw [ItemMap.find?_collect, ← positions]
  cases h : positions row item with
  | nil => rfl
  | cons p ps =>
    rw [List.foldl_cons, Span.widen, foldl_widen, List.head?_cons, Option.map_some,
      List.getLast?_cons]
    rfl

theorem spans_of_positions {row : Row} {item : Text} {p : ℕ} {ps : List ℕ}
    (h : positions row item = p :: ps) : Spans row item p (ps.getLast?.getD p) := by
  have hsorted := sorted_positions row item
  have hmem : ∀ q, q ∈ p :: ps ↔ At row item q := fun q => by rw [← h, mem_positions]
  rw [h] at hsorted
  rw [← List.getLastD_eq_getLast?, ← List.getLast_eq_getLastD (List.cons_ne_nil p ps)]
  refine ⟨(hmem p).mp (by simp), (hmem _).mp (List.getLast_mem _), fun q hq => ?_⟩
  exact ⟨hsorted.rel_head ((hmem q).mpr hq), hsorted.rel_getLast ((hmem q).mpr hq)⟩

/-- **What the pass finds**: the left-most and the right-most position of an item. -/
theorem find?_spans_eq_some_iff {row : Row} {item : Text} {span : Span} :
    row.spans.find? item = some span ↔
      ∃ left right : ℕ, span = ⟨left, right⟩ ∧ Spans row item left right := by
  rw [find?_spans]
  cases h : positions row item with
  | nil =>
    have hno : ∀ p, ¬ At row item p := fun p hp => by
      have := mem_positions.mpr hp
      rw [h] at this
      simp at this
    simp only [List.head?_nil, Option.map_none, reduceCtorEq, false_iff, not_exists, not_and]
    exact fun left _ _ hs => hno left hs.at_left
  | cons p ps =>
    have hs := spans_of_positions h
    rw [List.head?_cons, Option.map_some, Option.some.injEq, List.getLast?_cons]
    constructor
    · rintro rfl
      exact ⟨_, _, rfl, hs⟩
    · rintro ⟨left, right, rfl, hs'⟩
      obtain ⟨rfl, rfl⟩ := hs.unique hs'
      rfl

theorem exists_spans {row : Row} {item : Text} {p : ℕ} (h : At row item p) :
    ∃ left right, Spans row item left right := by
  cases hps : positions row item with
  | nil =>
    have := mem_positions.mpr h
    rw [hps] at this
    simp at this
  | cons q qs => exact ⟨_, _, spans_of_positions hps⟩

end GridText.Row
