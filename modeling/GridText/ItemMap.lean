import GridText.Text.Blank

/-!
# Values by item

What is known of the items of a row or a layout is kept in the order in which the items are first
mentioned.

* `ItemMap.alter`: the value of one item is replaced in its place; a new item goes to the end.
* `ItemMap.collect`: the map built from a list of mentions, each widening what is known of its item.
* `ItemMap.find?_alter`, `ItemMap.find?_collect`: looking an item up, what counts are its own
  mentions in their order.
* `ItemMap.items_alter`, `ItemMap.nodup_items_collect`: a new item comes last, and no item twice.
-/

namespace GridText

/-- One value for each of some items, in the order of their first mention. -/
abbrev ItemMap (α : Type) := List (Text × α)

namespace ItemMap

variable {α β : Type}

/-- The value of an item. -/
def find? (m : ItemMap α) (item : Text) : Option α := List.lookup item m

/-- The items, in the order of their first mention. -/
def items (m : ItemMap α) : List Text := m.map (·.1)

/-- Replaces the value of an item, or adds the item at the end. -/
def alter (item : Text) (f : Option α → α) : ItemMap α → ItemMap α
  | [] => [(item, f none)]
  | entry :: m => if entry.1 = item then (item, f (some entry.2)) :: m else entry :: alter item f m

/-- The **map of a list of mentions**, read from the left. -/
def collect (widen : Option α → β → α) (mentions : List (Text × β)) : ItemMap α :=
  mentions.foldl (fun m mention => alter mention.1 (widen · mention.2) m) []

theorem find?_cons (entry : Text × α) (m : ItemMap α) (item : Text) :
    find? (entry :: m) item = if entry.1 = item then some entry.2 else find? m item := by
  rw [find?, List.lookup_cons]
  by_cases h : entry.1 = item
  · simp [h]
  · have h' : (item == entry.1) = false := by simpa using Ne.symm h
    simp [h, h', find?]

theorem find?_alter (key item : Text) (f : Option α → α) (m : ItemMap α) :
    find? (alter key f m) item = if key = item then some (f (find? m key)) else find? m item := by
  induction m with
  | nil => rw [alter, find?_cons]; rfl
  | cons entry m ih =>
    by_cases h : entry.1 = key <;> by_cases h' : key = item <;>
      simp_all [alter, find?_cons]

/-- What is known of an item comes from its own mentions, in their order. -/
theorem find?_foldl_alter (widen : Option α → β → α) (mentions : List (Text × β)) (m : ItemMap α)
    (item : Text) :
    find? (mentions.foldl (fun m mention => alter mention.1 (widen · mention.2) m) m) item =
      ((mentions.filter (·.1 = item)).map (·.2)).foldl (fun v b => some (widen v b))
        (find? m item) := by
  induction mentions generalizing m with
  | nil => rfl
  | cons mention mentions ih =>
    rw [List.foldl_cons, ih, find?_alter]
    by_cases h : mention.1 = item <;> simp [h]

theorem find?_collect (widen : Option α → β → α) (mentions : List (Text × β)) (item : Text) :
    find? (collect widen mentions) item =
      ((mentions.filter (·.1 = item)).map (·.2)).foldl (fun v b => some (widen v b)) none :=
  find?_foldl_alter widen mentions [] item

theorem items_alter (item : Text) (f : Option α → α) (m : ItemMap α) :
    items (alter item f m) = if item ∈ items m then items m else items m ++ [item] := by
  induction m with
  | nil => rfl
  | cons entry m ih =>
    by_cases h : entry.1 = item
    · simp [alter, items, h]
    · have h' : item ≠ entry.1 := fun e => h e.symm
      simp only [alter, h, if_false]
      show entry.1 :: items (alter item f m) = _
      rw [ih]
      by_cases hm : item ∈ items m <;> simp_all [items]

theorem nodup_items_alter {m : ItemMap α} (h : (items m).Nodup) (item : Text) (f : Option α → α) :
    (items (alter item f m)).Nodup := by
  rw [items_alter]
  split
  · exact h
  · next hm =>
    refine List.nodup_append.2 ⟨h, by simp, ?_⟩
    intro a ha b hb e
    rw [List.mem_singleton.1 hb] at e
    exact hm (e ▸ ha)

theorem nodup_items_foldl (widen : Option α → β → α) (mentions : List (Text × β)) {m : ItemMap α}
    (h : (items m).Nodup) :
    (items (mentions.foldl (fun m mention => alter mention.1 (widen · mention.2) m) m)).Nodup := by
  induction mentions generalizing m with
  | nil => exact h
  | cons mention mentions ih => exact ih (nodup_items_alter h _ _)

/-- Every item has one value. -/
theorem nodup_items_collect (widen : Option α → β → α) (mentions : List (Text × β)) :
    (items (collect widen mentions)).Nodup := nodup_items_foldl widen mentions (by simp [items])

end ItemMap

end GridText
