import GridText.Proofs.Layout.Writing
import GridText.Proofs.Plan.Geometry
import GridText.Session

/-! # Sessions: the plan that is held

A step finds no plan, attempts to read one, or asks about the plan that is held (`stepped`). An
attempt that succeeds brings a plan, which is held from then on; nothing else changes what is held
(`step_fst`). So the answers of a session tell what it holds: the last plan among them
(`held_eq_getLast?`). Every plan that is held was read of some lines, and so is `Consistent`
(`held_of_run`).

* `answers_append`, `getElem?_answers`: an answer depends on the steps in front of it alone.
* `answer_of_run`: what is answered in a session.
* `noPlan_of_run_iff`: when there is nothing to speak of.
* `step_reread`: under a comma a plan that was read is held again. -/

namespace GridText

/-! ### Plans that were read -/

namespace Plan

variable {rules : Rules} {lines : List Text} {source : Source} {p : Plan}

/-- **A plan that was read**: its rules read its layout of some lines. -/
def WasRead (p : Plan) : Prop := ∃ lines, Layout.read p.rules lines = .ok p.layout

theorem wasRead_of_ofRows (h : ofRows rules lines = .ok p) : p.WasRead :=
  ⟨lines, (read_of_ofRows h).2⟩

theorem wasRead_of_ofSource (h : ofSource rules source = .ok p) : p.WasRead := by
  cases source with
  | rows lines => exact wasRead_of_ofRows (Except.mapError_eq_ok_iff.mp h)
  | template fragments values =>
    obtain ⟨text, -, h⟩ := Except.bind_eq_ok_iff.mp h
    exact wasRead_of_ofRows (Except.mapError_eq_ok_iff.mp h)

theorem WasRead.consistent (h : p.WasRead) : p.Consistent := by
  obtain ⟨lines, hread⟩ := h
  exact consistent_of_read hread

end Plan

namespace Session

variable {chalk : Chalk} {current : Option Plan} {s : Step} {steps : List Step} {a : Answer}
  {p : Plan} {i : ℕ}

/-! ### One step -/

/-- A step that needs no plan. -/
def Step.IsCompile (s : Step) : Prop := ∃ rules source, s = .compile rules source

/-- The plan that an answer brings. -/
def Answer.plan? : Answer → Option Plan
  | .plan p => some p
  | _ => none

/-- **An answer to a question about a plan.** -/
inductive Answer.SpeaksOf (chalk : Chalk) (p : Plan) : Answer → Prop
  | children (count : ℤ) : SpeaksOf chalk p (fitting (p.checkChildren count))
  | slots (names : List Text) : SpeaksOf chalk p (fitting (p.checkSlots names))
  | drawing (o : Preview.Options) : SpeaksOf chalk p (.drawing (p.preview o chalk))
  | summary : SpeaksOf chalk p (.summary p.summary)
  | lines : SpeaksOf chalk p (.lines (p.layout.write p.rules))

/-- **What a step can do**: the plan that is held afterwards, and the answer. -/
inductive Stepped (chalk : Chalk) (current : Option Plan) (s : Step) : Option Plan × Answer → Prop
  /-- There is no plan to speak of. -/
  | nothing : current = none → ¬ s.IsCompile → Stepped chalk current s (none, .noPlan)
  /-- A plan is read, or else the old one stays. -/
  | attempt (rules : Rules) (source : Source) : s.IsCompile ∨ current ≠ none →
      Stepped chalk current s (install current (Plan.ofSource rules source))
  /-- A question changes nothing. -/
  | question {p : Plan} {a : Answer} : current = some p → a.SpeaksOf chalk p →
      Stepped chalk current s (some p, a)

theorem stepped (chalk : Chalk) (current : Option Plan) (s : Step) :
    Stepped chalk current s (step chalk current s) := by
  cases s with
  | compile rules source => exact .attempt rules source (Or.inl ⟨rules, source, rfl⟩)
  | reread =>
    cases current with
    | none => exact .nothing rfl nofun
    | some p => exact .attempt _ _ (Or.inr (Option.some_ne_none p))
  | _ =>
    cases current with
    | none => exact .nothing rfl nofun
    | some p => exact .question rfl (by constructor)

theorem Answer.SpeaksOf.plan?_eq_none (h : a.SpeaksOf chalk p) : a.plan? = none := by
  cases h with
  | children count => cases h : p.checkChildren count <;> rfl
  | slots names => cases h : p.checkSlots names <;> rfl
  | drawing | summary | lines => rfl

theorem Answer.SpeaksOf.ne_noPlan (h : a.SpeaksOf chalk p) : a ≠ .noPlan := by
  cases h with
  | children count => cases h : p.checkChildren count <;> nofun
  | slots names => cases h : p.checkSlots names <;> nofun
  | drawing | summary | lines => nofun

/-- **The plan that an answer brings is held from then on**; if it brings none, the plan stays that
was held. So a source that is refused changes nothing, and neither does a question. -/
theorem step_fst (chalk : Chalk) (current : Option Plan) (s : Step) :
    (step chalk current s).1 = (step chalk current s).2.plan?.or current := by
  have h := stepped chalk current s
  generalize step chalk current s = r at h ⊢
  cases h with
  | nothing hnone => exact hnone.symm
  | attempt rules source => cases Plan.ofSource rules source <;> rfl
  | question hsome hspeaks =>
    rw [hspeaks.plan?_eq_none]
    exact hsome.symm

theorem wasRead_of_step (h : (step chalk current s).2.plan? = some p) : p.WasRead := by
  have hstep := stepped chalk current s
  generalize step chalk current s = r at h hstep
  cases hstep with
  | nothing => cases h
  | attempt rules source =>
    cases hread : Plan.ofSource rules source with
    | error e =>
      rw [hread] at h
      cases h
    | ok q =>
      rw [hread] at h
      obtain rfl := Option.some.inj h
      exact Plan.wasRead_of_ofSource hread
  | question hsome hspeaks =>
    rw [hspeaks.plan?_eq_none] at h
    cases h

theorem step_eq_noPlan_iff :
    (step chalk current s).2 = .noPlan ↔ current = none ∧ ¬ s.IsCompile := by
  have h := stepped chalk current s
  generalize step chalk current s = r at h ⊢
  cases h with
  | nothing hnone hs => exact iff_of_true rfl ⟨hnone, hs⟩
  | attempt rules source hs =>
    refine iff_of_false ?_ fun h => hs.elim h.2 (absurd h.1)
    cases Plan.ofSource rules source <;> nofun
  | question hsome hspeaks =>
    refine iff_of_false hspeaks.ne_noPlan ?_
    rintro ⟨rfl, -⟩
    cases hsome

/-- **Under a comma a plan that was read is held again** when its lines are read. -/
theorem step_reread (hp : p.WasRead) (hsep : p.rules.separator = [',']) (chalk : Chalk) :
    step chalk (some p) .reread = (some p, .plan p) := by
  obtain ⟨lines, hread⟩ := hp
  have hagain : Plan.ofRows p.rules (p.layout.write p.rules) = .ok p := by
    refine Except.bind_eq_ok_iff.mpr ⟨p.layout, ?_, rfl⟩
    exact Layout.read_write_of_restored hread fun _ _ htoken => Cell.restored_ofEntry hsep htoken
  have hsource : Plan.ofSource p.rules (.rows (p.layout.write p.rules)) = .ok p :=
    Except.mapError_eq_ok_iff.mpr hagain
  rw [step, hsource]
  rfl

/-! ### Many steps -/

/-- The plan that is held after some steps. -/
def held (chalk : Chalk) : Option Plan → List Step → Option Plan
  | current, [] => current
  | current, s :: steps => held chalk (step chalk current s).1 steps

theorem answers_append (chalk : Chalk) (current : Option Plan) (steps others : List Step) :
    answers chalk current (steps ++ others) =
      answers chalk current steps ++ answers chalk (held chalk current steps) others := by
  induction steps generalizing current with
  | nil => rfl
  | cons s steps ih => exact congrArg (_ :: ·) (ih _)

theorem getElem?_answers (chalk : Chalk) (current : Option Plan) (steps : List Step) (i : ℕ) :
    (answers chalk current steps)[i]? =
      steps[i]?.map fun s => (step chalk (held chalk current (steps.take i)) s).2 := by
  induction steps generalizing current i with
  | nil => rfl
  | cons s steps ih =>
    cases i with
    | zero => rfl
    | succ i => exact ih _ i

theorem take_answers (chalk : Chalk) (current : Option Plan) (steps : List Step) (i : ℕ) :
    (answers chalk current steps).take i = answers chalk current (steps.take i) := by
  induction steps generalizing current i with
  | nil => rw [List.take_nil, answers, List.take_nil]
  | cons s steps ih =>
    cases i with
    | zero => rfl
    | succ i => exact congrArg (_ :: ·) (ih _ i)

/-- **The last plan that was answered is held**, or else the one from the beginning. -/
theorem held_eq_getLast? (chalk : Chalk) (current : Option Plan) (steps : List Step) :
    held chalk current steps =
      ((answers chalk current steps).filterMap Answer.plan?).getLast?.or current := by
  induction steps generalizing current with
  | nil => rfl
  | cons s steps ih =>
    rw [held, answers, ih, step_fst, List.filterMap_cons]
    cases (step chalk current s).2.plan? with
    | none => rfl
    | some p =>
      simp only [List.getLast?_cons, Option.some_or]
      cases (answers chalk _ steps).filterMap Answer.plan? |>.getLast? <;> rfl

theorem wasRead_of_held (hcurrent : ∀ q ∈ current, q.WasRead)
    (h : held chalk current steps = some p) : p.WasRead := by
  induction steps generalizing current with
  | nil => exact hcurrent p h
  | cons s steps ih =>
    refine ih (fun q hq => ?_) h
    rw [step_fst] at hq
    cases hplan : (step chalk current s).2.plan? with
    | none =>
      rw [hplan] at hq
      exact hcurrent q hq
    | some p' =>
      rw [hplan] at hq
      obtain rfl := Option.some.inj hq
      exact wasRead_of_step hplan

/-- A source that is refused does not take the place of the plan that is held. -/
example : held .terminal none [.compile {} (.rows ["1fr".toList, "1em A".toList]),
    .compile {} (.rows ["1xr".toList]), .summary] =
      some ⟨⟨[["1fr".toList]], [[["1em".toList], [['A']]]]⟩, {}⟩ := by decide +kernel

/-! ### Sessions -/

/-- **A session holds a plan that was read**, all views of which say the same. -/
theorem held_of_run (h : held chalk none steps = some p) : p.WasRead ∧ p.Consistent := by
  have hread : p.WasRead := wasRead_of_held (by rintro _ ⟨⟩) h
  exact ⟨hread, hread.consistent⟩

/-- **What is answered in a session.** The answer to a step brings a plan that was read, says why
there is none, or speaks of the plan that is held, which was read and is consistent; or no plan is
held. -/
theorem answer_of_run (chalk : Chalk) (hs : steps[i]? = some s) :
    ∃ a, (run steps chalk)[i]? = some a ∧
      ((held chalk none (steps.take i) = none ∧ a = .noPlan) ∨ (∃ e, a = .refused e) ∨
        (∃ p, a = .plan p ∧ p.WasRead) ∨
          ∃ p, held chalk none (steps.take i) = some p ∧ p.WasRead ∧ p.Consistent ∧
            a.SpeaksOf chalk p) := by
  have ha : (run steps chalk)[i]? = some (step chalk (held chalk none (steps.take i)) s).2 := by
    rw [run, getElem?_answers, hs, Option.map_some]
  refine ⟨_, ha, ?_⟩
  have h := stepped chalk (held chalk none (steps.take i)) s
  generalize step chalk (held chalk none (steps.take i)) s = r at h ⊢
  cases h with
  | nothing hnone => exact Or.inl ⟨hnone, rfl⟩
  | attempt rules source =>
    cases hread : Plan.ofSource rules source with
    | error e => exact Or.inr (Or.inl ⟨e, rfl⟩)
    | ok p => exact Or.inr (Or.inr (Or.inl ⟨p, rfl, Plan.wasRead_of_ofSource hread⟩))
  | @question p a hsome hspeaks =>
    obtain ⟨hread, hconsistent⟩ := held_of_run hsome
    exact Or.inr (Or.inr (Or.inr ⟨p, hsome, hread, hconsistent, hspeaks⟩))

/-- **There is nothing to speak of** as long as no plan was answered. -/
theorem noPlan_of_run_iff : (run steps chalk)[i]? = some .noPlan ↔
    ∃ s, steps[i]? = some s ∧ ¬ s.IsCompile ∧ ∀ p, .plan p ∉ (run steps chalk).take i := by
  have hheld : held chalk none (steps.take i) = none ↔
      ∀ p, .plan p ∉ (run steps chalk).take i := by
    rw [held_eq_getLast?, Option.or_none, List.getLast?_eq_none_iff, List.filterMap_eq_nil_iff, run,
      take_answers]
    constructor
    · intro h p hp
      exact absurd (h _ hp) (Option.some_ne_none p)
    · intro h a ha
      cases a with
      | plan p => exact absurd ha (h p)
      | _ => rfl
  rw [run, getElem?_answers, Option.map_eq_some_iff]
  refine exists_congr fun s => and_congr_right fun _ => ?_
  rw [step_eq_noPlan_iff, hheld, and_comm]
  rfl

end Session

end GridText
