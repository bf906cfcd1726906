import GridText.Text.Blank

/-!
# Text: the order of code points

* `Text.le`: texts are ordered by the code points of their characters from the front on; a text
  comes after every beginning of it.
* `Text.le_trans`, `Text.le_total`: any two texts are in this order, and it is transitive.
* `Text.lex_of_le`: it is the order of the lists of code points.
-/

namespace GridText.Text

/-- The **order of code points.** -/
def le : Text → Text → Bool
  | [], _ => true
  | _ :: _, [] => false
  | c :: s, d :: t => if c = d then le s t else c.toNat < d.toNat

theorem le_cons_self (c : Char) (s t : Text) : le (c :: s) (c :: t) = le s t := by simp [le]

theorem le_cons_of_ne {c d : Char} (h : c ≠ d) (s t : Text) :
    le (c :: s) (d :: t) = decide (c.toNat < d.toNat) := by simp [le, h]

theorem toNat_ne {c d : Char} (h : c ≠ d) : c.toNat ≠ d.toNat :=
  fun h' => h (Char.toNat_inj.1 h')

theorem le_total (s t : Text) : (le s t || le t s) = true := by
  induction s generalizing t with
  | nil => simp [le]
  | cons c s ih =>
    cases t with
    | nil => simp [le]
    | cons d t =>
      by_cases h : c = d
      · rw [h, le_cons_self, le_cons_self]; exact ih t
      · have := toNat_ne h
        rw [le_cons_of_ne h, le_cons_of_ne (Ne.symm h)]
        simp only [Bool.or_eq_true, decide_eq_true_eq]; omega

theorem le_trans {s t u : Text} (h₁ : le s t = true) (h₂ : le t u = true) : le s u = true := by
  induction s generalizing t u with
  | nil => rfl
  | cons c s ih =>
    cases t with
    | nil => simp [le] at h₁
    | cons d t =>
      cases u with
      | nil => simp [le] at h₂
      | cons e u =>
        by_cases hcd : c = d
        · subst hcd
          by_cases hce : c = e
          · subst hce
            rw [le_cons_self] at h₁ h₂ ⊢
            exact ih h₁ h₂
          · rw [le_cons_of_ne hce] at h₂ ⊢
            exact h₂
        · rw [le_cons_of_ne hcd, decide_eq_true_eq] at h₁
          by_cases hde : d = e
          · subst hde
            rw [le_cons_of_ne hcd, decide_eq_true_eq]
            exact h₁
          · rw [le_cons_of_ne hde, decide_eq_true_eq] at h₂
            have hce : c ≠ e := fun h => by subst h; omega
            rw [le_cons_of_ne hce, decide_eq_true_eq]
            omega

/-- Of two texts that differ the one in front has the lesser list of code points. -/
theorem lex_of_le {s t : Text} (h : le s t = true) (hne : s ≠ t) :
    List.Lex (· < ·) (s.map Char.toNat) (t.map Char.toNat) := by
  induction s generalizing t with
  | nil =>
    cases t with
    | nil => exact absurd rfl hne
    | cons d t => exact .nil
  | cons c s ih =>
    cases t with
    | nil => simp [le] at h
    | cons d t =>
      by_cases hcd : c = d
      · subst hcd
        rw [le_cons_self] at h
        exact .cons (ih h fun he => hne (by rw [he]))
      · rw [le_cons_of_ne hcd, decide_eq_true_eq] at h
        exact .rel h

end GridText.Text
