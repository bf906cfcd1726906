import GridText.ItemMap
import Mathlib.Data.List.Basic
import Mathlib.Data.List.Induction
import Mathlib.Tactic.Common

/-! # Values by item: entries and values

A map that names no item twice holds an entry exactly when looking its item up finds its value. A
first entry that is not mentioned again stays in front as it is. What is collected from a list of
mentions names the items that are mentioned, in the order of their first mention. -/

namespace GridText.ItemMap

variable {α β : Type}

/-- **An entry that is not mentioned stays** in front of what is collected. -/
theorem foldl_alter_cons (widen : Option α → β → α) {entry : Text × α} {mentions : List (Text × β)}
    (h : ∀ mention ∈ mentions, entry.1 ≠ mention.1) (m : ItemMap α) :
    mentions.foldl (fun m mention => alter mention.1 (widen · mention.2) m) (entry :: m) =
      entry :: mentions.foldl (fun m mention => alter mention.1 (widen · mention.2) m) m := by
  induction mentions generalizing m with
  | nil => rfl
  | cons mention mentions ih =>
    obtain ⟨hfirst, hrest⟩ := List.forall_mem_cons.mp h
    rw [List.foldl_cons, List.foldl_cons, alter, if_neg hfirst, ih hrest]

theorem mem_items_of_mem {m : ItemMap α} {item : Text} {a : α} (h : (item, a) ∈ m) :
    item ∈ m.items := List.mem_map.mpr ⟨(item, a), h, rfl⟩

theorem mem_iff_find? {m : ItemMap α} (h : m.items.Nodup) {item : Text} {a : α} :
    (item, a) ∈ m ↔ m.find? item = some a := by
  induction m with
  | nil => simp [find?]
  | cons entry m ih =>
    obtain ⟨hnew, hm⟩ := List.nodup_cons.mp h
    rw [List.mem_cons, find?_cons]
    by_cases he : entry.1 = item
    · subst he
      have hout : (entry.1, a) ∉ m := fun hmem => hnew (mem_items_of_mem hmem)
      simp [hout, Prod.ext_iff, eq_comm]
    · rw [if_neg he, ih hm]
      exact ⟨fun h => h.resolve_left fun e => he (congrArg Prod.fst e).symm, Or.inr⟩

theorem mem_items_iff {m : ItemMap α} {item : Text} :
    item ∈ m.items ↔ ∃ a, m.find? item = some a := by
  induction m with
  | nil => simp [find?, items]
  | cons entry m ih =>
    rw [find?_cons]
    by_cases he : entry.1 = item
    · simp [items, he]
    · rw [if_neg he, ← ih]
      simp [items, Ne.symm he]

/-! ### The items of a list of mentions -/

theorem collect_concat (widen : Option α → β → α) (mentions : List (Text × β))
    (mention : Text × β) : collect widen (mentions ++ [mention]) =
      alter mention.1 (widen · mention.2) (collect widen mentions) := by
  rw [collect, List.foldl_append]
  rfl

/-- **The items that are collected** are those that are mentioned. -/
theorem mem_items_collect {widen : Option α → β → α} {mentions : List (Text × β)} {item : Text} :
    item ∈ (collect widen mentions).items ↔ item ∈ mentions.map (·.1) := by
  induction mentions using List.reverseRecOn with
  | nil => exact Iff.rfl
  | append_singleton mentions mention ih =>
    rw [collect_concat, items_alter, List.map_append, List.mem_append, ← ih]
    split_ifs with hmem
    · refine ⟨Or.inl, fun h => h.elim id fun h => ?_⟩
      rwa [List.mem_singleton.mp h]
    · exact List.mem_append

/-- **Items stand in the order of their first mention.** -/
theorem sorted_items_collect (widen : Option α → β → α) (mentions : List (Text × β)) :
    (collect widen mentions).items.Pairwise fun x y =>
      (mentions.map (·.1)).idxOf x < (mentions.map (·.1)).idxOf y := by
  induction mentions using List.reverseRecOn with
  | nil => exact .nil
  | append_singleton mentions mention ih =>
    -- a further mention does not move the first mention of an item that is there
    have hkeep : ∀ x ∈ (collect widen mentions).items,
        ((mentions ++ [mention]).map (·.1)).idxOf x = (mentions.map (·.1)).idxOf x := fun x hx => by
      rw [List.map_append, List.idxOf_append_of_mem (mem_items_collect.mp hx)]
    have hold := ih.imp_of_mem fun {x y} hx hy h => by rwa [← hkeep x hx, ← hkeep y hy] at h
    rw [collect_concat, items_alter]
    split_ifs with hmem
    · exact hold
    · refine List.pairwise_append.mpr ⟨hold, List.pairwise_singleton _ _, fun x hx y hy => ?_⟩
      obtain rfl := List.mem_singleton.mp hy
      have hnew : mention.1 ∉ mentions.map (·.1) := fun h => hmem (mem_items_collect.mpr h)
      rw [hkeep x hx, List.map_append, List.idxOf_append_of_notMem hnew]
      exact Nat.lt_of_lt_of_le (List.idxOf_lt_length_of_mem (mem_items_collect.mp hx))
        (Nat.le_add_right _ _)

end GridText.ItemMap
