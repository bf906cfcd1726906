import GridText.Proofs.Text.Pattern
import GridText.Proofs.Text.Split
import GridText.Text.Codes

/-! # Text: terminal codes

A code begins with the escape character and an opening bracket and ends with the letter `m`; numbers
and semicolons stand between them. Codes are taken out of a text from left to right. A text may hold
parts of a code, or characters that are a code only together with what stands next to them; but
where a character follows that no code goes on with, both sides can be looked at apart.

* `plain_append`: no code goes over a character that no code goes on with.
* `plain_code_append`, `plain_coded`, `plain_of_not_mem`: what happens to a code, to a text between
  two codes, and to a text without the escape character. -/

namespace GridText.Text

variable {s t r code : Text} {c d : Char}

/-- A terminal code. -/
def IsCode (code : Text) : Prop :=
  ∃ parameters, code = escape :: '[' :: (parameters ++ ['m']) ∧
    ∀ c ∈ parameters, isParameter c = true

/-- A character that a code may go on with. -/
def isCodeChar (c : Char) : Bool := c = '[' || isParameter c || c = 'm'

/-- No code in front of this text goes on in it. -/
def Apart (s : Text) : Prop := ∀ c ∈ s.head?, isCodeChar c = false

/-! ### Which texts are codes -/

theorem spells_codePattern_iff : codePattern.Spells code ↔ IsCode code := by
  constructor
  · rintro ⟨u, v, rfl, hu, parameters, w, rfl, hparameters, hw⟩
    obtain rfl := Pattern.spells_word_iff.mp hu
    obtain rfl := Pattern.spells_one_iff.mp hw
    exact ⟨parameters, rfl, Pattern.spells_many_one_iff.mp hparameters⟩
  · rintro ⟨parameters, rfl, h⟩
    exact ⟨[escape, '['], parameters ++ ['m'], rfl, Pattern.spells_word_iff.mpr rfl, parameters,
      ['m'], rfl, Pattern.spells_many_one_iff.mpr h, Pattern.spells_one_iff.mpr rfl⟩

/-- At most one code stands at the front of a text, for no `m` is inside of a code. -/
theorem IsCode.unique {code' r' : Text} (h : IsCode code) (h' : IsCode code')
    (he : code ++ r = code' ++ r') : code' = code := by
  obtain ⟨parameters, rfl, hp⟩ := h
  obtain ⟨parameters', rfl, hp'⟩ := h'
  have hrest : parameters ++ 'm' :: r = parameters' ++ 'm' :: r' := by simpa using he
  obtain ⟨rfl, -⟩ := append_cons_inj_of_stop hp hp' (by decide) hrest
  rfl

theorem plain_nil : plain [] = [] := Pattern.erase_nil

theorem plain_code_append (h : IsCode code) (r : Text) : plain (code ++ r) = plain r := by
  have hne : code ≠ [] := by
    obtain ⟨parameters, rfl, -⟩ := h
    exact List.cons_ne_nil _ _
  refine Pattern.erase_of_head? (Pattern.head?_splits_of_unique (spells_codePattern_iff.mpr h) ?_)
    hne
  exact fun code' r' h' he => h.unique (spells_codePattern_iff.mp h') he

theorem plain_cons (h : ∀ code r, IsCode code → c :: s ≠ code ++ r) :
    plain (c :: s) = c :: plain s := by
  refine Pattern.erase_cons_of_nil (Pattern.splits_eq_nil_iff.mpr fun t r he ht => ?_)
  exact h t r (spells_codePattern_iff.mp ht) he

theorem plain_cons_of_ne (hc : c ≠ escape) (s : Text) : plain (c :: s) = c :: plain s := by
  refine plain_cons ?_
  rintro _ r ⟨parameters, rfl, -⟩ he
  exact hc (List.cons.inj he).1

/-- **Induction on a text**, which is empty, or begins with a code, or with a character where no
code begins. -/
@[elab_as_elim]
theorem codes_induction {motive : Text → Prop} (nil : motive [])
    (code : ∀ code r, IsCode code → motive r → motive (code ++ r))
    (char : ∀ c s, (∀ code r, IsCode code → c :: s ≠ code ++ r) → motive s → motive (c :: s))
    (s : Text) : motive s := by
  induction hn : s.length using Nat.strong_induction_on generalizing s with
  | _ n ih =>
    subst hn
    cases s with
    | nil => exact nil
    | cons c s =>
      by_cases h : ∃ code r, IsCode code ∧ c :: s = code ++ r
      · obtain ⟨front, r, hfront, he⟩ := h
        have hpos : 0 < front.length := by
          obtain ⟨parameters, rfl, -⟩ := hfront
          exact Nat.succ_pos _
        have hlt : r.length < (c :: s).length := by
          rw [he, List.length_append]
          omega
        rw [he]
        exact code front r hfront (ih _ hlt r rfl)
      · refine char c s (fun code r hcode he => h ⟨code, r, hcode, he⟩) ?_
        exact ih _ (Nat.lt_succ_self _) s rfl

/-! ### Texts side by side -/

theorem IsCode.exists_append_of_apart (h : IsCode code) (ht : Apart t)
    (he : c :: s ++ t = code ++ r) : ∃ r', c :: s = code ++ r' := by
  rcases List.append_eq_append_iff.mp he with ⟨more, hcode, hmore⟩ | ⟨r', hs, -⟩
  · cases more with
    | nil => exact ⟨[], by rw [hcode, List.append_nil, List.append_nil]⟩
    | cons d more =>
      obtain ⟨parameters, rfl, hparameters⟩ := h
      have hd : isCodeChar d = false := ht d (by rw [hmore]; rfl)
      -- behind its first character a code has nothing else
      have hmem : d ∈ '[' :: (parameters ++ ['m']) := by
        rw [(List.cons.inj hcode).2]
        simp
      have hcode : isCodeChar d = true := by
        simp only [List.mem_cons, List.mem_append, List.not_mem_nil, or_false] at hmem
        unfold isCodeChar
        rcases hmem with rfl | hmem | rfl
        · rfl
        · rw [hparameters d hmem]
          simp
        · simp
      rw [hd] at hcode
      cases hcode
  · exact ⟨r', hs⟩

/-- **Texts side by side**, the second of which begins with a character that no code goes on with,
lose their codes each for itself. -/
theorem plain_append (ht : Apart t) (s : Text) : plain (s ++ t) = plain s ++ plain t := by
  induction s using codes_induction with
  | nil => rw [plain_nil, List.nil_append, List.nil_append]
  | code code r hcode ih =>
    rw [List.append_assoc, plain_code_append hcode, plain_code_append hcode, ih]
  | char c s hc ih =>
    have hboth : ∀ code r, IsCode code → c :: (s ++ t) ≠ code ++ r := by
      intro code r hcode he
      obtain ⟨r', hs⟩ := hcode.exists_append_of_apart ht he
      exact hc code r' hcode hs
    rw [List.cons_append, plain_cons hboth, plain_cons hc, ih, List.cons_append]

theorem plain_append_cons (hd : isCodeChar d = false) (hne : d ≠ escape) (s t : Text) :
    plain (s ++ d :: t) = plain s ++ d :: plain t := by
  have ht : Apart (d :: t) := by
    rintro c ⟨⟩
    exact hd
  rw [plain_append ht, plain_cons_of_ne hne]

theorem IsCode.apart_append (h : IsCode code) (r : Text) : Apart (code ++ r) := by
  obtain ⟨parameters, rfl, -⟩ := h
  rintro c ⟨⟩
  decide

/-- **A text between two codes** loses these and its own. -/
theorem plain_between {code' : Text} (h : IsCode code) (h' : IsCode code') (s : Text) :
    plain (code ++ s ++ code') = plain s := by
  have hnil := h'.apart_append []
  have hcode := plain_code_append h' []
  rw [List.append_nil] at hnil hcode
  rw [List.append_assoc, plain_code_append h, plain_append hnil, hcode, plain_nil, List.append_nil]

theorem plain_coded {parameters : Text} (h : ∀ c ∈ parameters, isParameter c = true) (s : Text) :
    plain (coded parameters s) = plain s := by
  have hset : IsCode (escape :: '[' :: (parameters ++ ['m'])) := ⟨parameters, rfl, h⟩
  have hreset : IsCode [escape, '[', '0', 'm'] := ⟨['0'], rfl, List.forall_mem_singleton.mpr rfl⟩
  rw [← plain_between hset hreset s]
  simp [coded]

theorem plain_joinWith (hd : isCodeChar d = false) (hne : d ≠ escape) (parts : List Text) :
    plain (joinWith [d] parts) = joinWith [d] (parts.map plain) := by
  induction parts with
  | nil => exact plain_nil
  | cons part parts ih =>
    cases parts with
    | nil => rw [joinWith_singleton, List.map_singleton, joinWith_singleton]
    | cons second parts =>
      rw [joinWith_cons_cons, List.append_assoc, List.singleton_append, plain_append_cons hd hne,
        ih]
      simp only [List.map_cons, joinWith_cons_cons, List.append_assoc, List.singleton_append]

theorem plain_of_not_mem (h : escape ∉ s) : plain s = s := by
  induction s with
  | nil => exact plain_nil
  | cons c s ih =>
    have hc : c ≠ escape := Ne.symm (List.ne_of_not_mem_cons h)
    rw [plain_cons_of_ne hc, ih (List.not_mem_of_not_mem_cons h)]

end GridText.Text
