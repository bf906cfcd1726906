import GridText.Template
import GridText.Proofs.Except
import GridText.Proofs.Numeral.Range
import GridText.Proofs.Text.Split

/-! # Templates: leaves and flaws

A value is a tree of which the inner nodes are sequences. Its text is made of the texts of its
leaves, and it has none when one of the leaves has none; the first of them is the one that is told.

* `Value.leaves`, `Value.flaw?`: the leaves from left to right, and why a leaf has no text.
* `Value.Dense`: a value without an empty sequence in it.
* `Value.write_eq_error_iff`, `Value.Dense.exists_written`: errors and texts by the leaves.
* `interpolation_flattens`: the text of any template. -/

namespace GridText

open Text (joinWith)

/-! ### Values as trees -/

namespace Value

/-- The value is no sequence. -/
def isLeaf : Value → Bool
  | sequence _ => false
  | _ => true

mutual

/-- The **leaves of a value**, from left to right. -/
def leaves : Value → List Value
  | sequence elements => leavesAll elements
  | leaf => [leaf]

/-- The leaves of all values of a list. -/
def leavesAll : List Value → List Value
  | [] => []
  | value :: values => leaves value ++ leavesAll values

end

/-- **Why a leaf has no text**: its type has no place in a template, or it is a fraction, but no
integer, beyond the floating point numbers. -/
def flaw? : Value → Option Template.Error
  | unsupported typeName shown => some (.unsupported typeName shown)
  | fraction r =>
    if r.den ≠ 1 ∧ Binary64.overflowThreshold ≤ |r| then some .fractionTooLarge else none
  | _ => none

/-- **A value without empty sequences**, at any depth. -/
inductive Dense : Value → Prop
  | leaf {v : Value} : v.isLeaf = true → Dense v
  | sequence {elements : List Value} : elements ≠ [] → (∀ v ∈ elements, Dense v) →
      Dense (sequence elements)

/-- Induction over a value: leaves, and sequences of elements of which it is known. -/
@[elab_as_elim]
theorem tree_induction {motive : Value → Prop} (leaf : ∀ v, v.isLeaf = true → motive v)
    (sequence : ∀ elements, (∀ v ∈ elements, motive v) → motive (.sequence elements)) :
    ∀ v, motive v
  | .sequence elements => sequence elements fun v _ => tree_induction leaf sequence v
  | .nothing => leaf _ rfl
  | .text _ => leaf _ rfl
  | .truth _ => leaf _ rfl
  | .integer _ => leaf _ rfl
  | .float _ => leaf _ rfl
  | .decimal _ => leaf _ rfl
  | .fraction _ => leaf _ rfl
  | .unsupported _ _ => leaf _ rfl

theorem leavesAll_eq (values : List Value) : leavesAll values = values.flatMap leaves := by
  induction values with
  | nil => rfl
  | cons value values ih => rw [leavesAll, ih, List.flatMap_cons]

theorem leaves_sequence (elements : List Value) :
    (sequence elements).leaves = elements.flatMap leaves := by
  rw [leaves, leavesAll_eq]

theorem leaves_of_isLeaf {v : Value} (h : v.isLeaf = true) : v.leaves = [v] := by
  cases v with
  | sequence elements => cases h
  | _ => rfl

theorem Dense.leaves_ne_nil {v : Value} (h : v.Dense) : v.leaves ≠ [] := by
  induction h with
  | leaf h =>
    rw [leaves_of_isLeaf h]
    exact List.cons_ne_nil _ _
  | @sequence elements hne _ ih =>
    obtain ⟨v, values, rfl⟩ := List.exists_cons_of_ne_nil hne
    rw [leaves_sequence, List.flatMap_cons]
    exact List.append_ne_nil_of_left_ne_nil (ih v List.mem_cons_self) _

/-! ### Errors -/

theorem writeFraction_eq_error_iff {r : ℚ} {e : Template.Error} :
    writeFraction r = .error e ↔ (fraction r).flaw? = some e := by
  unfold writeFraction flaw?
  by_cases hden : r.den = 1
  · simp [hden]
  · rw [if_neg hden]
    cases hnear : Binary64.nearest? r with
    | none =>
      have hfar := Binary64.nearest?_eq_none_iff.mp hnear
      simp [hden, hfar]
    | some x =>
      have hnot : ¬ Binary64.overflowThreshold ≤ |r| := by
        rw [← Binary64.nearest?_eq_none_iff, hnear]
        exact Option.some_ne_none x
      simp [hnot]

theorem write_eq_error_iff_of_isLeaf {v : Value} (h : v.isLeaf = true) {e : Template.Error} :
    v.write = .error e ↔ v.flaw? = some e := by
  cases v with
  | sequence elements => cases h
  | fraction r => exact writeFraction_eq_error_iff
  | unsupported typeName shown => simp [write, flaw?]
  | _ => simp [write, flaw?]

theorem writeAll_cons_eq_error_iff {value : Value} {values : List Value} {e : Template.Error} :
    writeAll (value :: values) = .error e ↔
      value.write = .error e ∨ (∃ t, value.write = .ok t) ∧ writeAll values = .error e := by
  rw [writeAll]
  cases value.write with
  | error e' => simp [bind, Except.bind]
  | ok t => cases writeAll values <;> simp [bind, Except.bind, pure, Except.pure]

/-- The error of a list of values is that of the first leaf with a flaw, if the error of each value
is. -/
theorem writeAll_eq_error_iff_of {values : List Value} (h : ∀ v ∈ values, ∀ e : Template.Error,
      v.write = .error e ↔ v.leaves.findSome? flaw? = some e) {e : Template.Error} :
    writeAll values = .error e ↔ (values.flatMap leaves).findSome? flaw? = some e := by
  induction values with
  | nil => simp [writeAll]
  | cons value values ih =>
    obtain ⟨hfirst, hrest⟩ := List.forall_mem_cons.mp h
    have hok : (∃ t, value.write = .ok t) ↔ value.leaves.findSome? flaw? = none := by
      rw [Option.eq_none_iff_forall_ne_some]
      refine Iff.trans ?_ (forall_congr' fun e => not_congr (hfirst e))
      cases value.write <;> simp
    rw [writeAll_cons_eq_error_iff, List.flatMap_cons, List.findSome?_append,
      Option.or_eq_some_iff, hfirst, hok, ih hrest]

/-- **The error of a value is that of its first leaf with a flaw.** -/
theorem write_eq_error_iff (v : Value) (e : Template.Error) :
    v.write = .error e ↔ v.leaves.findSome? flaw? = some e := by
  induction v using tree_induction generalizing e with
  | leaf v h =>
    rw [leaves_of_isLeaf h, List.findSome?_singleton]
    exact write_eq_error_iff_of_isLeaf h
  | sequence elements ih =>
    rw [leaves_sequence, ← writeAll_eq_error_iff_of ih, write]
    cases writeAll elements <;> simp [Except.map]

theorem writeAll_eq_error_iff {values : List Value} {e : Template.Error} :
    writeAll values = .error e ↔ (values.flatMap leaves).findSome? flaw? = some e :=
  writeAll_eq_error_iff_of fun v _ => write_eq_error_iff v

/-! ### Texts -/

/-- The texts of some values. -/
def Written (values : List Value) (texts : List Text) : Prop :=
  List.Forall₂ (fun v text => v.write = .ok text) values texts

theorem writeAll_eq_ok_iff {values : List Value} {texts : List Text} :
    writeAll values = .ok texts ↔ Written values texts := by
  induction values generalizing texts with
  | nil =>
    rw [writeAll, Written, List.forall₂_nil_left_iff]
    exact ⟨fun h => (Except.ok.inj h).symm, fun h => by rw [h]⟩
  | cons value values ih =>
    rw [writeAll, Except.bind_eq_ok_iff]
    constructor
    · rintro ⟨first, hfirst, h⟩
      obtain ⟨others, hothers, h⟩ := Except.bind_eq_ok_iff.mp h
      obtain rfl := Except.pure_eq_ok_iff.mp h
      exact .cons hfirst (ih.mp hothers)
    · rintro (_ | ⟨hfirst, hothers⟩)
      exact ⟨_, hfirst, Except.bind_eq_ok_iff.mpr ⟨_, ih.mpr hothers, rfl⟩⟩

theorem Written.unique {values : List Value} {texts texts' : List Text} (h : Written values texts)
    (h' : Written values texts') : texts = texts' :=
  Except.ok.inj ((writeAll_eq_ok_iff.mpr h).symm.trans (writeAll_eq_ok_iff.mpr h'))

theorem exists_written {values : List Value}
    (h : (values.flatMap leaves).findSome? flaw? = none) : ∃ texts, Written values texts := by
  cases hall : writeAll values with
  | ok texts => exact ⟨texts, writeAll_eq_ok_iff.mp hall⟩
  | error e =>
    rw [writeAll_eq_error_iff.mp hall] at h
    cases h

theorem exists_parts_of {values : List Value} {texts : List Text} (h : Written values texts)
    (hparts : ∀ v ∈ values, ∀ text, v.write = .ok text →
      ∃ part, Written v.leaves part ∧ part ≠ [] ∧ text = joinWith [','] part) :
    ∃ parts : List (List Text), Written (values.flatMap leaves) parts.flatten ∧
      (∀ part ∈ parts, part ≠ []) ∧ texts = parts.map (joinWith [',']) := by
  induction h with
  | nil => exact ⟨[], .nil, by simp, rfl⟩
  | @cons v text values texts hv _ ih =>
    obtain ⟨hfirst, hrest⟩ := List.forall_mem_cons.mp hparts
    obtain ⟨part, hpart, hne, rfl⟩ := hfirst text hv
    obtain ⟨parts, hparts, hall, rfl⟩ := ih hrest
    refine ⟨part :: parts, ?_, List.forall_mem_cons.mpr ⟨hne, hall⟩, rfl⟩
    rw [List.flatMap_cons, List.flatten_cons]
    exact List.rel_append hpart hparts

/-- **The text of a value without empty sequences** is that of its leaves with commas between
them. -/
theorem Dense.exists_written {v : Value} (hdense : v.Dense) {text : Text}
    (h : v.write = .ok text) :
    ∃ texts, Written v.leaves texts ∧ texts ≠ [] ∧ text = joinWith [','] texts := by
  induction hdense generalizing text with
  | leaf hleaf =>
    rw [leaves_of_isLeaf hleaf]
    exact ⟨[text], .cons h .nil, List.cons_ne_nil _ _, (Text.joinWith_singleton _ _).symm⟩
  | @sequence elements hne hdense ih =>
    rw [write] at h
    cases hall : writeAll elements with
    | error e => simp [hall, Except.map] at h
    | ok texts =>
      rw [hall] at h
      obtain rfl := Except.ok.inj h
      obtain ⟨parts, hparts, hfull, rfl⟩ := exists_parts_of (writeAll_eq_ok_iff.mp hall) ih
      rw [leaves_sequence]
      refine ⟨parts.flatten, hparts, fun hnil => ?_, Text.joinWith_flatten _ hfull⟩
      -- a sequence without leaves would be empty
      rw [hnil] at hparts
      have hleaves : elements.flatMap leaves = [] := List.forall₂_nil_right_iff.mp hparts
      exact (Dense.sequence hne hdense).leaves_ne_nil ((leaves_sequence elements).trans hleaves)

/-- **One value in place of another**: the same one, or one with the same leaves in other sequences,
none of which is empty in either. -/
def Renested (v v' : Value) : Prop := v = v' ∨ (v.Dense ∧ v'.Dense ∧ v.leaves = v'.leaves)

theorem Renested.write_eq {v v' : Value} (h : Renested v v') : v.write = v'.write := by
  rcases h with rfl | ⟨hdense, hdense', hleaves⟩
  · rfl
  cases hwrite : v.write with
  | error e =>
    rw [write_eq_error_iff, hleaves, ← write_eq_error_iff] at hwrite
    exact hwrite.symm
  | ok text =>
    obtain ⟨texts, htexts, -, rfl⟩ := hdense.exists_written hwrite
    cases hwrite' : v'.write with
    | error e =>
      rw [write_eq_error_iff, ← hleaves, ← write_eq_error_iff, hwrite] at hwrite'
      cases hwrite'
    | ok text' =>
      obtain ⟨texts', htexts', -, rfl⟩ := hdense'.exists_written hwrite'
      rw [← hleaves] at htexts'
      rw [htexts.unique htexts']

theorem writeAll_congr {values values' : List Value} (h : List.Forall₂ Renested values values') :
    writeAll values = writeAll values' := by
  induction h with
  | nil => rfl
  | cons hv _ ih => rw [writeAll, writeAll, hv.write_eq, ih]

end Value

/-! ### Templates -/

namespace Template

open Value (leaves flaw? Dense Renested Written)

variable {fragments : List Text} {values : List Value}

theorem weave_cons (first : Text) {rest texts : List Text} (h : texts.length = rest.length) :
    weave (first :: rest) texts = first ++ (List.zipWith (· ++ ·) texts rest).flatten := by
  induction rest generalizing first texts with
  | nil =>
    obtain rfl := List.eq_nil_of_length_eq_zero h
    simp [weave]
  | cons second rest ih =>
    obtain ⟨text, texts, rfl⟩ := List.exists_cons_of_length_eq_add_one h
    rw [weave, ih second (Nat.succ.inj h), List.zipWith_cons_cons, List.flatten_cons]
    simp only [List.append_assoc]

/-- **The text of a template, or why there is none.** -/
structure Woven (fragments : List Text) (values : List Value) : Prop where
  /-- The number of values is looked at before any value is. -/
  count : values.length + 1 ≠ fragments.length →
    interpolate fragments values = .error (.valueCount fragments.length values.length)
  /-- Where the number is right, the error is that of the first leaf with a flaw. -/
  flaw : values.length + 1 = fragments.length → ∀ e,
    interpolate fragments values = .error e ↔ (values.flatMap leaves).findSome? flaw? = some e
  /-- Where no leaf has a flaw, all values have texts, and these stand between the fragments. -/
  text : values.length + 1 = fragments.length → (values.flatMap leaves).findSome? flaw? = none →
    ∃ first rest texts, fragments = first :: rest ∧ texts.length = rest.length ∧
      Written values texts ∧ interpolate fragments values =
        .ok (first ++ (List.zipWith (· ++ ·) texts rest).flatten)

theorem woven (fragments : List Text) (values : List Value) : Woven fragments values := by
  refine ⟨fun hcount => if_neg hcount, fun hcount e => ?_, fun hcount hflaw => ?_⟩
  · rw [interpolate, if_pos hcount, ← Value.writeAll_eq_error_iff]
    cases Value.writeAll values <;> simp [Except.map]
  · obtain ⟨texts, htexts⟩ := Value.exists_written hflaw
    obtain ⟨first, rest, rfl⟩ := List.exists_cons_of_length_eq_add_one hcount.symm
    have hlength : texts.length = rest.length := by
      rw [← htexts.length_eq]
      exact Nat.succ.inj hcount
    refine ⟨first, rest, texts, rfl, hlength, htexts, ?_⟩
    rw [interpolate, if_pos hcount, Value.writeAll_eq_ok_iff.mpr htexts, ← weave_cons first hlength]
    rfl

/-- Only a wrong number of values is told as one, for no leaf has such a flaw. -/
theorem interpolate_eq_valueCount_iff :
    (∃ m n, interpolate fragments values = .error (.valueCount m n)) ↔
      values.length + 1 ≠ fragments.length := by
  constructor
  · rintro ⟨m, n, h⟩ hcount
    have hflaw := ((woven fragments values).flaw hcount _).mp h
    obtain ⟨leaf, -, hleaf⟩ := List.exists_of_findSome?_eq_some hflaw
    cases leaf with
    | fraction r =>
      have hlarge := (Option.ite_none_right_eq_some.mp hleaf).2
      cases hlarge
    | _ => cases hleaf
  · exact fun hcount => ⟨_, _, (woven fragments values).count hcount⟩

/-- **Interpolation flattens.** A template has no text if the number of its values is wrong, which
is told before anything else, or if one of their leaves has a flaw, of which the first one is told.
Otherwise fragments and texts stand in turns. The text of a value without empty sequences is that of
its leaves with commas between them, so that it does not matter how they are nested. -/
theorem interpolation_flattens (fragments : List Text) (values : List Value) :
    ((∃ m n, interpolate fragments values = .error (.valueCount m n)) ↔
      values.length + 1 ≠ fragments.length) ∧
    Woven fragments values ∧
    (∀ v : Value, v.Dense → v.leaves.findSome? flaw? = none → ∃ texts, Written v.leaves texts ∧
      v.write = .ok (joinWith [','] texts)) ∧
    ∀ values', List.Forall₂ Renested values values' →
      interpolate fragments values' = interpolate fragments values := by
  refine ⟨interpolate_eq_valueCount_iff, woven fragments values, fun v hdense hflaw => ?_,
    fun values' h => ?_⟩
  · cases hwrite : v.write with
    | error e =>
      rw [(v.write_eq_error_iff e).mp hwrite] at hflaw
      cases hflaw
    | ok text =>
      obtain ⟨texts, htexts, -, rfl⟩ := hdense.exists_written hwrite
      exact ⟨texts, htexts, rfl⟩
  · unfold interpolate
    rw [h.length_eq, Value.writeAll_congr h]

/-- Of the two values below the first one has a fraction that is too large, in front of which stands
a sequence without leaves; the type of the second one is not told. The two ways to nest three values
give the same text. -/
theorem large_fraction_in_a_sequence :
    ([.sequence [.sequence [], .fraction (10 ^ 400 / 3)],
        .unsupported "set".toList "set()".toList].flatMap leaves).findSome? flaw? =
      some .fractionTooLarge ∧
    interpolate ["-".toList, "-".toList]
        [.sequence [.sequence [.text ['a'], .integer (-2)], .sequence [.fraction 7]]] =
      .ok "-a,-2,7-".toList := by
  obtain ⟨-, hlarge, -, -⟩ := interpolation_flattens [[], [], []]
    [.sequence [.sequence [], .fraction (10 ^ 400 / 3)],
      .unsupported "set".toList "set()".toList]
  obtain ⟨-, -, -, hrenested⟩ := interpolation_flattens ["-".toList, "-".toList]
    [.sequence [.text ['a'], .sequence [.integer (-2), .fraction 7]]]
  have hpair {v v' : Value} (h : v.Dense) (h' : v'.Dense) : (Value.sequence [v, v']).Dense :=
    .sequence (List.cons_ne_nil v [v']) (by simp [h, h'])
  have hsingle {v : Value} (h : v.Dense) : (Value.sequence [v]).Dense :=
    .sequence (List.cons_ne_nil v []) (by simp [h])
  have hdense : (Value.sequence [.text ['a'], .sequence [.integer (-2), .fraction 7]]).Dense :=
    hpair (.leaf rfl) (hpair (.leaf rfl) (.leaf rfl))
  have hdense' : (Value.sequence [.sequence [.text ['a'], .integer (-2)],
      .sequence [.fraction 7]]).Dense :=
    hpair (hpair (.leaf rfl) (.leaf rfl)) (hsingle (.leaf rfl))
  have hrenest := hrenested _ (.cons (Or.inr ⟨hdense, hdense', rfl⟩) .nil)
  refine ⟨(hlarge.flaw rfl _).mp ?_, hrenest.trans ?_⟩
  · decide +kernel
  · decide +kernel

end Template

end GridText
