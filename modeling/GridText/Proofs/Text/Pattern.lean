import GridText.Proofs.Text.Blank
import GridText.Text.Pattern

/-! # Text: what a pattern finds

Which fronts of a text a pattern spells is told without any order (`Spells`). A search goes through
these and through no others.

* `mem_splits_iff`: a search goes through the fronts of a text that the pattern spells.
* `head?_splits_of_unique`: a front that is the only one is found, whatever the order.
* `head?_splits_run`: where a run begins, the longest one is found.
* `findAll_of_head?`, `erase_of_head?`: what is found first, and the search behind it. -/

namespace GridText

namespace Pattern

variable {pattern piece first second : Pattern} {p : Char → Bool} {s t r : Text}

/-! ### Which fronts fit -/

/-- **The texts that fit a pattern**, without any order. -/
def Spells : Pattern → Text → Prop
  | one p, t => ∃ c, t = [c] ∧ p c = true
  | seq first second, t => ∃ u v, t = u ++ v ∧ first.Spells u ∧ second.Spells v
  | either first second, t => first.Spells t ∨ second.Spells t
  | many piece, t => ∃ ts : List Text, t = ts.flatten ∧ ∀ u ∈ ts, u ≠ [] ∧ piece.Spells u

theorem mem_splitsMany_iff
    (hpiece : ∀ s t r, (t, r) ∈ piece.splits s ↔ s = t ++ r ∧ piece.Spells t) :
    (t, r) ∈ splitsMany piece.splits s ↔ s = t ++ r ∧ (many piece).Spells t := by
  -- by induction on what is left of the text behind the first piece
  induction hn : s.length using Nat.strong_induction_on generalizing s t with
  | _ n ih =>
    subst hn
    rw [splitsMany, List.mem_append, List.mem_flatMap, List.mem_singleton]
    constructor
    · rintro (⟨⟨u, rest⟩, hu, hmem⟩ | he)
      · obtain ⟨rfl, hspells⟩ := (hpiece s u rest).mp hu
        dsimp only at hmem
        split_ifs at hmem with hlt
        · obtain ⟨⟨v, r'⟩, hv, he⟩ := List.mem_map.mp hmem
          obtain ⟨rfl, rfl⟩ := Prod.mk.inj he
          obtain ⟨rfl, ts, rfl, hts⟩ := (ih _ hlt rfl).mp hv
          have hne : u ≠ [] := by
            rintro rfl
            exact absurd hlt (by simp)
          exact ⟨(List.append_assoc _ _ _).symm, u :: ts, rfl,
            List.forall_mem_cons.mpr ⟨⟨hne, hspells⟩, hts⟩⟩
        · cases hmem
      · obtain ⟨rfl, rfl⟩ := Prod.mk.inj he
        exact ⟨rfl, [], rfl, fun _ h => absurd h List.not_mem_nil⟩
    · rintro ⟨rfl, ts, rfl, hts⟩
      cases ts with
      | nil => exact Or.inr rfl
      | cons u ts =>
        obtain ⟨⟨hne, hspells⟩, hts⟩ := List.forall_mem_cons.mp hts
        have hsplit : (u :: ts).flatten ++ r = u ++ (ts.flatten ++ r) := by simp
        have hlt : (ts.flatten ++ r).length < ((u :: ts).flatten ++ r).length := by
          have := List.length_pos_iff.mpr hne
          simp only [hsplit, List.length_append]
          omega
        refine Or.inl ⟨(u, ts.flatten ++ r), (hpiece _ _ _).mpr ⟨hsplit, hspells⟩, ?_⟩
        dsimp only
        rw [dif_pos hlt]
        exact List.mem_map.mpr ⟨(ts.flatten, r), (ih _ hlt rfl).mpr ⟨rfl, ts, rfl, hts⟩, rfl⟩

/-- **A search goes through the fronts that the pattern spells.** -/
theorem mem_splits_iff : (t, r) ∈ pattern.splits s ↔ s = t ++ r ∧ pattern.Spells t := by
  induction pattern generalizing s t r with
  | one p =>
    cases s with
    | nil =>
      simp only [splits, List.not_mem_nil, false_iff]
      rintro ⟨he, c, rfl, -⟩
      cases he
    | cons c s =>
      rw [splits]
      constructor
      · intro h
        split_ifs at h with hc
        · obtain ⟨rfl, rfl⟩ := Prod.mk.inj (List.mem_singleton.mp h)
          exact ⟨rfl, c, rfl, hc⟩
        · cases h
      · rintro ⟨he, d, rfl, hd⟩
        obtain ⟨rfl, rfl⟩ := List.cons.inj he
        rw [if_pos hd]
        exact List.mem_singleton_self _
  | seq first second ihfirst ihsecond =>
    rw [splits, List.mem_flatMap]
    constructor
    · rintro ⟨⟨u, rest⟩, hu, hmem⟩
      obtain ⟨⟨v, r'⟩, hv, he⟩ := List.mem_map.mp hmem
      obtain ⟨rfl, rfl⟩ := Prod.mk.inj he
      obtain ⟨rfl, hfirst⟩ := ihfirst.mp hu
      obtain ⟨rfl, hsecond⟩ := ihsecond.mp hv
      exact ⟨(List.append_assoc _ _ _).symm, u, v, rfl, hfirst, hsecond⟩
    · rintro ⟨rfl, u, v, rfl, hfirst, hsecond⟩
      exact ⟨(u, v ++ r), ihfirst.mpr ⟨List.append_assoc _ _ _, hfirst⟩,
        List.mem_map.mpr ⟨(v, r), ihsecond.mpr ⟨rfl, hsecond⟩, rfl⟩⟩
  | either first second ihfirst ihsecond =>
    rw [splits, List.mem_append, ihfirst, ihsecond, ← and_or_left]
    exact Iff.rfl
  | many piece ih => exact mem_splitsMany_iff fun _ _ _ => ih

theorem splits_eq_nil_iff : pattern.splits s = [] ↔ ∀ t r, s = t ++ r → ¬ pattern.Spells t := by
  rw [List.eq_nil_iff_forall_not_mem]
  constructor
  · exact fun h t r he hspells => h (t, r) (mem_splits_iff.mpr ⟨he, hspells⟩)
  · exact fun h (t, r) hmem => h t r (mem_splits_iff.mp hmem).1 (mem_splits_iff.mp hmem).2

/-- **A front that is the only one** is found. -/
theorem head?_splits_of_unique (h : pattern.Spells t)
    (hunique : ∀ t' r', pattern.Spells t' → t ++ r = t' ++ r' → t' = t) :
    (pattern.splits (t ++ r)).head? = some (t, r) := by
  have hmem : (t, r) ∈ pattern.splits (t ++ r) := mem_splits_iff.mpr ⟨rfl, h⟩
  obtain ⟨⟨t', r'⟩, others, he⟩ := List.exists_cons_of_ne_nil (List.ne_nil_of_mem hmem)
  have hfirst : (t', r') ∈ pattern.splits (t ++ r) := by
    rw [he]
    exact List.mem_cons_self
  obtain ⟨hsplit, hspells⟩ := mem_splits_iff.mp hfirst
  obtain rfl := hunique t' r' hspells hsplit
  rw [he, List.head?_cons, List.append_cancel_left hsplit]

/-! ### Words and runs -/

theorem spells_one_iff {c : Char} : (one (· = c)).Spells s ↔ s = [c] := by
  constructor
  · rintro ⟨d, rfl, hd⟩
    rw [of_decide_eq_true hd]
  · rintro rfl
    exact ⟨c, rfl, decide_eq_true rfl⟩

theorem spells_many_one_iff : (many (one p)).Spells t ↔ ∀ c ∈ t, p c = true := by
  constructor
  · rintro ⟨ts, rfl, hts⟩ c hc
    obtain ⟨u, hu, hc⟩ := List.mem_flatten.mp hc
    obtain ⟨-, d, rfl, hd⟩ := hts u hu
    exact List.mem_singleton.mp hc ▸ hd
  · intro h
    refine ⟨t.map fun c => [c], ?_, fun u hu => ?_⟩
    · rw [← List.flatMap_def, List.flatMap_singleton']
    · obtain ⟨c, hc, rfl⟩ := List.mem_map.mp hu
      exact ⟨List.cons_ne_nil c [], c, rfl, h c hc⟩

theorem spells_word_iff {w : Text} : (word w).Spells s ↔ s = w := by
  induction w generalizing s with
  | nil =>
    rw [word, spells_many_one_iff]
    simp [List.eq_nil_iff_forall_not_mem]
  | cons c w ih =>
    constructor
    · rintro ⟨u, v, rfl, hu, hv⟩
      rw [spells_one_iff.mp hu, ih.mp hv]
      rfl
    · rintro rfl
      exact ⟨[c], w, rfl, spells_one_iff.mpr rfl, ih.mpr rfl⟩

theorem spells_run_iff : (run p).Spells t ↔ t ≠ [] ∧ ∀ c ∈ t, p c = true := by
  constructor
  · rintro ⟨u, v, rfl, ⟨c, rfl, hc⟩, hv⟩
    exact ⟨List.cons_ne_nil c v, List.forall_mem_cons.mpr ⟨hc, spells_many_one_iff.mp hv⟩⟩
  · rintro ⟨hne, h⟩
    obtain ⟨c, t, rfl⟩ := List.exists_cons_of_ne_nil hne
    obtain ⟨hc, ht⟩ := List.forall_mem_cons.mp h
    exact ⟨[c], t, rfl, ⟨c, rfl, hc⟩, spells_many_one_iff.mpr ht⟩

theorem head?_splits_many_one (p : Char → Bool) (s : Text) :
    ((many (one p)).splits s).head? = some (s.takeWhile p, s.dropWhile p) := by
  rw [splits]
  induction s with
  | nil =>
    rw [splitsMany, splits]
    rfl
  | cons c s ih =>
    rw [splitsMany, splits]
    by_cases hc : p c = true
    · have hlt : s.length < (c :: s).length := Nat.lt_succ_self _
      rw [if_pos hc, List.flatMap_singleton]
      dsimp only
      rw [dif_pos hlt, List.head?_append, List.head?_map, ih, List.takeWhile_cons_of_pos hc,
        List.dropWhile_cons_of_pos hc]
      rfl
    · rw [if_neg hc, List.takeWhile_cons_of_neg hc, List.dropWhile_cons_of_neg hc]
      rfl

/-- **Where a run begins, the longest one is found.** -/
theorem head?_splits_run {c : Char} (hc : p c = true) (s : Text) :
    ((run p).splits (c :: s)).head? = some ((c :: s).takeWhile p, (c :: s).dropWhile p) := by
  rw [run, splits, splits, if_pos hc, List.flatMap_singleton, List.head?_map,
    head?_splits_many_one, List.takeWhile_cons_of_pos hc, List.dropWhile_cons_of_pos hc]
  rfl

/-! ### Searching from left to right -/

theorem findAll_nil : pattern.findAll [] = [] := by rw [findAll]

theorem findAll_cons_of_nil {c : Char} (h : pattern.splits (c :: s) = []) :
    pattern.findAll (c :: s) = pattern.findAll s := by
  rw [findAll, h]
  rfl

theorem findAll_of_head? (h : (pattern.splits s).head? = some (t, r)) (hne : t ≠ []) :
    pattern.findAll s = t :: pattern.findAll r := by
  obtain ⟨rfl, -⟩ := mem_splits_iff.mp (List.mem_of_mem_head? h)
  obtain ⟨c, t, rfl⟩ := List.exists_cons_of_ne_nil hne
  have hlt : r.length < (c :: (t ++ r)).length := by
    rw [List.length_cons, List.length_append]
    omega
  rw [List.cons_append] at h ⊢
  rw [findAll, h]
  exact dif_pos hlt

theorem erase_nil : pattern.erase [] = [] := by rw [erase]

theorem erase_cons_of_nil {c : Char} (h : pattern.splits (c :: s) = []) :
    pattern.erase (c :: s) = c :: pattern.erase s := by
  rw [erase, h]
  rfl

theorem erase_of_head? (h : (pattern.splits s).head? = some (t, r)) (hne : t ≠ []) :
    pattern.erase s = pattern.erase r := by
  obtain ⟨rfl, -⟩ := mem_splits_iff.mp (List.mem_of_mem_head? h)
  obtain ⟨c, t, rfl⟩ := List.exists_cons_of_ne_nil hne
  have hlt : r.length < (c :: (t ++ r)).length := by
    rw [List.length_cons, List.length_append]
    omega
  rw [List.cons_append] at h ⊢
  rw [erase, h]
  exact dif_pos hlt

end Pattern

end GridText
