import GridText.Proofs.Layout.Prefixes
import GridText.Proofs.Plan.Colours
import GridText.Viewer.Basic

/-! # The viewer: what is shown and noted

A text that can be read is shown with status 0, as its drawing and the way in which it is filled;
any other one with status 1, as a message. The drawing is in colours; without its codes it is the
drawing in black. The journal notes one row after the other, up to the first fault.

* `Journal.length_reading_of_read`, `Journal.reading_of_fault`: what is noted of lines.
* `Journal.reading_prefix`: further lines add notes and take none back.
* `Viewer.outcome_of_read`, `Viewer.outcome_of_fault`: what comes of showing a text.
* `Viewer.ofArguments_option`: the option may stand anywhere among the arguments.
* `Viewer.fileName_fileName`: a name without idle steps stays as it is. -/

namespace GridText

/-! ### The journal -/

namespace Journal

variable {rules : Rules} {lines front : List Text} {l : Layout}

theorem reading_of_accepted (h : Layout.acceptedRows rules lines = some l)
    (hlong : lines.length ≠ 1) : reading rules lines = l.body.mapIdx fun i row =>
      let number := i + 1
      let shown := String.ofList (quotedRow row)
      detail s!"validate_rows: row {number} -> {shown}" := by
  simp only [reading, h, if_neg hlong]

theorem length_reading_of_read (h : Layout.read rules lines = .ok l) (hlong : 2 ≤ lines.length) :
    (reading rules lines).length + 1 = lines.length := by
  rw [reading_of_accepted (Layout.acceptedRows_of_read h) (by omega), List.length_mapIdx]
  exact Layout.length_rows_of_read h

/-- **The notes on refused lines** are those on the lines in front of the fault, if any. -/
theorem reading_of_fault {f : Fault} (h : Layout.read rules lines = .error f) :
    reading rules lines = [] ∨ ∃ l front line after, lines = front ++ line :: after ∧
      Layout.read rules front = .ok l ∧ Layout.read rules (front ++ [line]) = .error f ∧
        reading rules lines = reading rules front := by
  rcases Layout.acceptedRows_of_fault h with
    ⟨hnone, -⟩ | ⟨l, front, line, after, rfl, hsome, hl, hf⟩
  · exact Or.inl (by simp only [reading, hnone])
  have hlength : l.body.length + 1 = front.length := Layout.length_rows_of_read hl
  have hlong : (front ++ line :: after).length ≠ 1 := by
    rw [List.length_append, List.length_cons]
    omega
  by_cases hbody : l.body = []
  · refine Or.inl ?_
    rw [reading_of_accepted hsome hlong, hbody]
    rfl
  · have hpos := List.length_pos_iff.mpr hbody
    refine Or.inr ⟨l, front, line, after, rfl, hl, hf, ?_⟩
    rw [reading_of_accepted hsome hlong,
      reading_of_accepted (Layout.acceptedRows_of_read hl) (by omega)]

theorem reading_prefix (rules : Rules) (hlong : 2 ≤ front.length) (after : List Text) :
    reading rules front <+: reading rules (front ++ after) := by
  cases h : Layout.acceptedRows rules front with
  | none =>
    have hnil : reading rules front = [] := by simp only [reading, h]
    rw [hnil]
    exact List.nil_prefix
  | some l =>
    obtain ⟨l', hsome, -, more, hmore⟩ := Layout.acceptedRows_append hlong h after
    have hlong' : (front ++ after).length ≠ 1 := by
      rw [List.length_append]
      omega
    rw [reading_of_accepted h (by omega), reading_of_accepted hsome hlong', ← hmore,
      List.mapIdx_append]
    exact List.prefix_append _ _

end Journal

namespace Viewer

open Preview (Options)

variable {request : Request} {text : Text} {chalk : Chalk} {p : Plan} {f : Fault}

/-! ### What is shown -/

theorem outcome_eq_of_ok (h : Plan.ofText {} text = .ok p) (request : Request) (chalk : Chalk) :
    outcome request text chalk = ⟨0, planBlocks request.name p chalk, if request.journal then
      Journal.reading {} (Source.rowsOfText text) ++ Journal.plan p ++ Journal.drawing p {}
      else []⟩ := by
  have hrows : Plan.ofRows {} (Source.rowsOfText text) = .ok p := h
  simp only [outcome, hrows]

theorem outcome_eq_of_error (h : Plan.ofText {} text = .error f) (request : Request)
    (chalk : Chalk) : outcome request text chalk = ⟨1, [.panel (title request.name) (faultText f)],
      if request.journal then Journal.reading {} (Source.rowsOfText text) else []⟩ := by
  have hrows : Plan.ofRows {} (Source.rowsOfText text) = .error f := h
  simp only [outcome, hrows]

/-- **A text that can be read is shown** in two blocks: its drawing, and how many children it takes
by position or else its summary. Without its codes the drawing is the one in black; that one has
codes as well if there are some in the items. -/
theorem outcome_of_read (hchalk : chalk.Lawful) (h : Plan.ofText {} text = .ok p)
    (request : Request) : (outcome request text chalk).status = 0 ∧ ∃ drawing filling,
      (outcome request text chalk).blocks = [.drawing (title request.name) drawing, filling] ∧
      Text.plain drawing = Text.plain (p.preview (Options.inBlack {}) chalk) ∧
      ((∀ cells ∈ p.layout.interior, ∀ cell ∈ cells, ∀ item ∈ cell, Text.escape ∉ item) →
        Text.plain drawing = p.preview (Options.inBlack {}) chalk) ∧
      (p.isPositional = true → ∃ count, p.trackCount = some count ∧
        filling = .line s!"Requires {count} positional children".toList) ∧
      (p.isPositional = false → filling = .table p.summary) := by
  obtain ⟨hrules, hread⟩ := Plan.read_of_ofRows h
  have hplain := Plan.plain_preview_congr hchalk p {}
  rw [outcome_eq_of_ok h]
  refine ⟨rfl, p.preview {} chalk, _, rfl, hplain, fun hitems => ?_, fun hpositional => ?_,
    fun hnamed => ?_⟩
  · have hmarker : Text.escape ∉ p.markerShown (Options.inBlack {}) := by
      rw [Plan.markerShown, hrules]
      decide
    have hblack : Text.escape ∉ p.preview (Options.inBlack {}) chalk :=
      Plan.escape_not_mem_preview hread hitems hmarker rfl
    rw [← Text.plain_of_not_mem hblack]
    exact hplain
  · have hne : p.trackCount ≠ none := fun hnone => by
      rw [Plan.trackCount_eq_none_iff.mp hnone] at hpositional
      cases hpositional
    obtain ⟨count, hcount⟩ := Option.ne_none_iff_exists'.mp hne
    exact ⟨count, hcount, by rw [hcount]⟩
  · rw [Plan.trackCount_eq_none_iff.mpr hnamed]

theorem outcome_of_fault (h : Plan.ofText {} text = .error f) (request : Request)
    (chalk : Chalk) : (outcome request text chalk).status = 1 ∧
      (outcome request text chalk).blocks = [.panel (title request.name) (faultText f)] := by
  rw [outcome_eq_of_error h]
  exact ⟨rfl, rfl⟩

/-- The journal is kept on request alone, and then begins with the notes on the lines. -/
theorem journal_outcome (request : Request) (text : Text) (chalk : Chalk) :
    if request.journal then
      Journal.reading {} (Source.rowsOfText text) <+: (outcome request text chalk).journal
    else (outcome request text chalk).journal = [] := by
  cases h : Plan.ofText {} text with
  | ok p =>
    rw [outcome_eq_of_ok h]
    split_ifs
    · rw [List.append_assoc]
      exact List.prefix_append _ _
    · rfl
  | error f =>
    rw [outcome_eq_of_error h]
    split_ifs
    · exact List.prefix_refl _
    · rfl

/-! ### Arguments and names -/

/-- **The option may stand anywhere** among the arguments. -/
theorem ofArguments_option (front after : List Text) :
    Request.ofArguments (front ++ "--verbose".toList :: after) =
      { Request.ofArguments (front ++ after) with journal := true } := by
  unfold Request.ofArguments
  generalize "--verbose".toList = option
  simp

theorem sample?_of_mem : ∀ sample ∈ samples,
    sample? sample.1.toList = some (Text.joinWith ['\n'] (sample.2.map String.toList)) := by
  decide +kernel

/-- A step that is not idle. -/
def IsStep (step : Text) : Prop := '/' ∉ step ∧ step ≠ [] ∧ step ≠ ['.']

theorem isStep_of_mem_steps {name step : Text} (h : step ∈ steps name) : IsStep step := by
  obtain ⟨hmem, hidle⟩ := List.mem_filter.mp h
  exact ⟨Text.not_mem_of_mem_splitOn hmem, of_decide_eq_true hidle⟩

theorem slashes_path (n : ℕ) {found : List Text} (h : ∀ step ∈ found, IsStep step) :
    slashes (path n found) = n := by
  have hslash : ∀ c ∈ List.replicate n '/', decide (c = '/') = true := fun c hc =>
    decide_eq_true (List.eq_of_mem_replicate hc)
  have hstop : ∀ c ∈ (Text.joinWith ['/'] found).head?, decide (c = '/') = false := by
    intro c hc
    cases found with
    | nil => cases hc
    | cons step others =>
      obtain ⟨hno, hne, -⟩ := h step List.mem_cons_self
      obtain ⟨d, step, rfl⟩ := List.exists_cons_of_ne_nil hne
      have hd : c = d := by
        cases others <;> simpa [Text.joinWith_singleton, Text.joinWith_cons_cons, eq_comm] using hc
      rw [hd]
      exact decide_eq_false fun he => hno (he ▸ List.mem_cons_self)
  rw [slashes, path, takeWhile_of_stop hslash hstop, List.length_replicate]

theorem steps_path (n : ℕ) {found : List Text} (h : ∀ step ∈ found, IsStep step) :
    steps (path n found) = found := by
  induction n with
  | zero =>
    cases found with
    | nil => decide +kernel
    | cons step others =>
      have hsplit : Text.splitOn ['/'] (path 0 (step :: others)) = step :: others :=
        Text.splitOn_joinWith (List.cons_ne_nil step others) fun step hstep => (h step hstep).1
      rw [steps, hsplit]
      exact List.filter_eq_self.mpr fun step hstep => decide_eq_true (h step hstep).2
  | succ n ih =>
    have hsplit : Text.splitOn ['/'] (path (n + 1) found) =
        [] :: Text.splitOn ['/'] (path n found) := by
      rw [path, path, List.replicate_succ, List.cons_append, Text.splitOn_singleton_cons,
        if_pos rfl]
    rw [steps, hsplit, List.filter_cons_of_neg (by simp)]
    exact ih

/-- **A name without idle steps stays as it is.** -/
theorem fileName_fileName (name : Text) : fileName (fileName name) = fileName name := by
  have hsteps : ∀ step ∈ steps name, IsStep step := fun step => isStep_of_mem_steps
  obtain ⟨n, hn⟩ : ∃ n, n = if slashes name = 2 then 2 else min (slashes name) 1 := ⟨_, rfl⟩
  have hkept : (if n = 2 then 2 else min n 1) = n := by
    rw [hn]
    split_ifs <;> omega
  have hname : fileName name = if path n (steps name) = [] then ['.'] else path n (steps name) := by
    rw [fileName, hn]
  rw [hname]
  split_ifs with hnil
  · decide +kernel
  · rw [fileName, slashes_path n hsteps, steps_path n hsteps, hkept, if_neg hnil]

end Viewer

end GridText
