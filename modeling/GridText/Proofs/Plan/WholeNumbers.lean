import GridText.Proofs.Numeral.Digits
import GridText.Proofs.Numeral.Words
import GridText.Proofs.Plan.Source
import GridText.Proofs.Row.Respacing
import GridText.Proofs.Track.Kinds

/-! # Plans: whole numbers as sizes

A template may hold a whole number as an integer, as a quotient or as a floating point number. All
of them are written with the same digits, which are a track size with a unit behind them.

* `Value.IsWhole`: the values that are a whole number; `Value.IsWhole.write_eq`: their text.
* `Track.classify_of_isSigned`: an integer with a unit is a size unless it is negative.
* `Layout.read_of_solid`, `Plan.ofSource_of_plain`: a text of a single token is read as a strip of
  one column.
* `Plan.whole_numbers_are_sizes`: all of it for a whole number. -/

namespace GridText

open Numeral (IsDecimal IsSigned ofInt)
open Token (Solid isNameChar tokens)

variable {n : ℤ} {v : Value} {s : Text} {unit : Track.Kind} {rules : Rules}

/-! ### Values -/

namespace Value

/-- **A value that is a whole number**: the integer itself, a quotient that is equal to it, or a
floating point number that is. -/
inductive IsWhole (n : ℤ) : Value → Prop
  | integer : IsWhole n (.integer n)
  | fraction {k : ℤ} : k ≠ 0 → IsWhole n (.fraction ((n * k : ℤ) / k))
  | float {word : ℕ} : Binary64.IsValue word n → IsWhole n (.float (.ofBits word))

/-- **A whole number is written as an integer**, whatever value it is. -/
theorem IsWhole.write_eq (h : v.IsWhole n) : v.write = .ok (ofInt n) := by
  cases h with
  | integer => rfl
  | @fraction k hk =>
    have hk' : (k : ℚ) ≠ 0 := by exact_mod_cast hk
    have hvalue : ((n * k : ℤ) / k : ℚ) = n := by
      rw [Int.cast_mul, mul_div_cancel_right₀ _ hk']
    rw [write, writeFraction, hvalue, if_pos (Rat.den_intCast n), Rat.num_intCast]
  | float hword => rw [write, Binary64.write_of_toRat? (Binary64.toRat?_ofBits hword)]

end Value

theorem Template.interpolate_pair (front back : Text) (h : v.write = .ok s) :
    interpolate [front, back] [v] = .ok (front ++ s ++ back) := by
  simp [interpolate, Value.writeAll, weave, h, bind, Except.bind, pure, Except.pure, Except.map]

/-! ### Integers with a unit -/

theorem isDecimalDigit_of_isDigit {c : Char} (h : c.isDigit = true) : isDecimalDigit c = true := by
  have hzero : '0'.toNat = 0x30 := rfl
  have hnine : '9'.toNat = 0x39 := rfl
  rw [Char.isDigit_iff_toNat, hzero, hnine] at h
  simp only [isDecimalDigit, decimalValue?, Option.isSome_map, List.find?_isSome,
    Bool.and_eq_true, decide_eq_true_eq]
  exact ⟨0x30, List.mem_cons_self, h.1, by omega⟩

namespace Track

theorem Measure.isNameChar (hu : unit ∈ measures) (h : Measure unit s) :
    ∀ c ∈ s, isNameChar c = true := by
  intro c hc
  obtain ⟨hblank, hmarks⟩ := (h.plain hu).2 c hc
  have hopen : c ≠ '(' := by
    rintro rfl
    exact hmarks (by decide)
  simp [Token.isNameChar, isInk, hblank, hopen]

theorem measure_of_isDecimal {n : ℕ} (h : IsDecimal n s) (unit : Kind) :
    Measure unit (s ++ unit.name.toList) :=
  ⟨s, h.ne_nil, fun c hc => isDecimalDigit_of_isDigit (h.digits c hc), rfl⟩

theorem classify_minus (h : '(' ∉ s) :
    classify ('-' :: s) = .error (.invalidTrackSize ('-' :: s)) := by
  have hopen : '(' ∉ '-' :: s := fun hc => h ((List.mem_cons.mp hc).resolve_left (by decide))
  have hkeywords : ∀ word ∈ keywords, word.name.toList.head? ≠ some '-' := by decide
  refine classify_of_not_shaped fun kind hshaped => ?_
  rcases hshaped.of_not_open hopen with ⟨-, digits, hne, hdigits, he⟩ | ⟨hw, he⟩
  · obtain ⟨d, digits, rfl⟩ := List.exists_cons_of_ne_nil hne
    obtain ⟨rfl, -⟩ := List.cons.inj he
    exact absurd (hdigits '-' List.mem_cons_self) (by decide)
  · exact hkeywords kind hw (by rw [← he]; rfl)

/-- **An integer with a unit is a size** unless it is negative. -/
theorem classify_of_isSigned (h : IsSigned n s) (hu : unit ∈ measures) :
    classify (s ++ unit.name.toList) =
      if 0 ≤ n then .ok unit else .error (.invalidTrackSize (s ++ unit.name.toList)) := by
  cases h with
  | nonneg h =>
    rw [if_pos (by omega)]
    exact (HasKind.measure hu (measure_of_isDecimal h unit)).classify_eq
  | neg hne h =>
    rw [if_neg (by omega)]
    exact classify_minus (Simple.measure hu (measure_of_isDecimal h unit)).not_open

theorem plain_of_isSigned (h : IsSigned n s) (hu : unit ∈ measures) :
    s ++ unit.name.toList ≠ [] ∧ ∀ c ∈ s ++ unit.name.toList, isNameChar c = true := by
  cases h with
  | nonneg h =>
    have hmeasure := measure_of_isDecimal h unit
    exact ⟨(hmeasure.plain hu).1, hmeasure.isNameChar hu⟩
  | neg _ h =>
    have hmeasure := measure_of_isDecimal h unit
    exact ⟨List.cons_ne_nil _ _, List.forall_mem_cons.mpr ⟨rfl, hmeasure.isNameChar hu⟩⟩

end Track

/-! ### Texts of a single token -/

/-- **A line of a single token** is read as a strip of one column, if the token is a size. -/
theorem Layout.read_of_solid (h : Solid s) : read rules [s] =
    ((Track.classify s).mapError Fault.defect).map fun _ => ⟨[[s]], []⟩ := by
  have htokens : tokens s = [s] := (h.front Text.blank_nil.stops).tokens_eq
  have hheader : readHeader s = (Track.classify s).map fun _ => [[s]] := by
    rw [readHeader, Row.scan_eq_ok_iff.mpr ⟨List.cons_ne_nil s [], htokens⟩]
    show headerOfTokens [s] = _
    rw [headerOfTokens]
    cases Track.classify s <;> rfl
  rw [read, hheader]
  cases Track.classify s <;> rfl

theorem Source.rowsOfText_of_plain (hne : s ≠ []) (h : ∀ c ∈ s, isNameChar c = true) :
    rowsOfText s = [s] := by
  have hink : Text.Ink s := fun c hc => Token.isInk_of_isNameChar (h c hc)
  rw [rowsOfText_line hink.unbroken (hink.begins hne).not_blank, Text.trim_of_ink hink]

namespace Plan

theorem ofSource_of_plain {fragments : List Text} {values : List Value}
    (htext : Template.interpolate fragments values = .ok s) (hne : s ≠ [])
    (h : ∀ c ∈ s, isNameChar c = true) : ofSource rules (.template fragments values) =
      ((Track.classify s).mapError (.fault ∘ .defect)).map fun _ => ⟨⟨[[s]], []⟩, rules⟩ := by
  have hread : ofText rules s =
      ((Track.classify s).mapError Fault.defect).map fun _ => ⟨⟨[[s]], []⟩, rules⟩ := by
    rw [ofText, ofRows, Source.rowsOfText_of_plain hne h, Layout.read_of_solid (.plain hne h)]
    cases Track.classify s <;> rfl
  rw [ofSource, htext]
  show (ofText rules s).mapError Source.Error.fault = _
  rw [hread]
  cases Track.classify s <;> rfl

/-- **Whole numbers are sizes.** A whole number has one text, its canonical digits, whatever value
of a template it is. With a unit behind it, this is read as a strip of one column of that size, or
refused as no track size if the number is negative. -/
theorem whole_numbers_are_sizes (n : ℤ) : ∃ text, IsSigned n text ∧ ∀ v : Value, v.IsWhole n →
    (∀ front back, Template.interpolate [front, back] [v] = .ok (front ++ text ++ back)) ∧
    ∀ rules, ∀ unit ∈ Track.measures,
      (0 ≤ n → ∃ p, ofSource rules (.template [[], unit.name.toList] [v]) = .ok p ∧
        p.layout = ⟨[[text ++ unit.name.toList]], []⟩ ∧ p.rules = rules ∧
        p.shape = .columnOnly ∧ p.columnSizes = [text ++ unit.name.toList]) ∧
      (n < 0 → ofSource rules (.template [[], unit.name.toList] [v]) =
        .error (.fault (.defect (.invalidTrackSize (text ++ unit.name.toList))))) := by
  obtain ⟨text, htext⟩ : ∃ text, text = ofInt n := ⟨_, rfl⟩
  have hsigned : IsSigned n text := Numeral.isSigned_iff.mpr htext
  refine ⟨text, hsigned, fun v hv => ?_⟩
  have hwrite : v.write = .ok text := htext ▸ hv.write_eq
  refine ⟨fun front back => Template.interpolate_pair front back hwrite, fun rules unit hu => ?_⟩
  obtain ⟨hne, hplain⟩ := Track.plain_of_isSigned hsigned hu
  have hread : ofSource rules (.template [[], unit.name.toList] [v]) = _ :=
    ofSource_of_plain (Template.interpolate_pair [] unit.name.toList hwrite) hne hplain
  rw [hread, List.nil_append, Track.classify_of_isSigned hsigned hu]
  constructor
  · intro hn
    rw [if_pos hn]
    exact ⟨_, rfl, rfl, rfl, rfl, rfl⟩
  · intro hn
    rw [if_neg (not_le.mpr hn)]
    rfl

/-- Negative zero is written without its sign, and a great power of ten without an exponent. The
quotient of 12 and -4 is no size. -/
theorem zero_and_great_and_negative :
    (∃ p, ofSource {} (.template [[], "fr".toList] [.float (.ofBits (2 ^ 63))]) = .ok p ∧
      p.shape = .columnOnly ∧ p.columnSizes = ["0fr".toList]) ∧
    Template.interpolate ["-".toList, "-".toList] [.float (.ofBits 0x4480F0CF064DD592)] =
      .ok "-10000000000000000000000-".toList ∧
    ofSource {} (.template [[], "%".toList] [.fraction ((-3 * -4 : ℤ) / (-4 : ℤ))]) =
      .error (.fault (.defect (.invalidTrackSize "-3%".toList))) := by
  have hzero : Binary64.IsValue (2 ^ 63) (0 : ℤ) := by
    have h := @Binary64.IsValue.subnormal 1 0 (by decide) (by decide)
    norm_num at h
    exact_mod_cast h
  have hgreat : Binary64.IsValue 0x4480F0CF064DD592 (10 ^ 22 : ℤ) := by
    have h := @Binary64.IsValue.normal 0 0x448 0x0F0CF064DD592 (by decide) (by decide) (by decide)
      (by decide)
    norm_num at h
    exact_mod_cast h
  obtain ⟨text, htext, hvalues⟩ := whole_numbers_are_sizes 0
  obtain ⟨text', htext', hvalues'⟩ := whole_numbers_are_sizes (10 ^ 22)
  obtain ⟨text'', htext'', hvalues''⟩ := whole_numbers_are_sizes (-3)
  obtain rfl := Numeral.isSigned_iff.mp htext
  obtain rfl := Numeral.isSigned_iff.mp htext'
  obtain rfl := Numeral.isSigned_iff.mp htext''
  refine ⟨?_, (hvalues' _ (.float hgreat)).1 _ _, ?_⟩
  · obtain ⟨p, hp, -, -, hshape, hsizes⟩ :=
      ((hvalues _ (.float hzero)).2 {} .fraction (by decide)).1 le_rfl
    exact ⟨p, hp, hshape, hsizes⟩
  · exact ((hvalues'' _ (.fraction (by decide))).2 {} .percent (by decide)).2 (by decide)

end Plan

end GridText
