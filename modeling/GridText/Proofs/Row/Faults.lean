import GridText.Layout.Reading
import GridText.Proofs.Row.Reading

/-! # Reading a row: the kinds of its faults

A line is refused because it has no token, or its tokens are refused. The tokens of one line are
refused for a size, for an item that is repeated in its cell, or for one that comes back; what is
wrong with the other lines, or with the number of tokens, is not seen here.

* `Row.fault_of_readText`, `Layout.fault_of_readHeader`: the faults of a line of the body, of the
  header. -/

namespace GridText

variable {rules : Rules} {f : Fault}

/-- The kinds of defects that the tokens of one line may have. -/
def tokenKinds : List Defect.Kind :=
  [.invalidTrackSize, .invalidMinmax, .invalidFitContent, .duplicateItem, .nonContiguousItem]

/-- **The tokens of one line are refused**: a defect is of one of the kinds that these have. -/
def Fault.OfTokens (f : Fault) : Prop := ∀ d, f = .defect d → d.kind ∈ tokenKinds

theorem Fault.ofTokens_defect {d : Defect} (h : d.kind ∈ tokenKinds) :
    Fault.OfTokens (.defect d) := by
  intro d' he
  rw [← Fault.defect.inj he]
  exact h

theorem Track.ofTokens_of_classify {s : Text} {d : Defect} (h : classify s = .error d) :
    Fault.OfTokens (.defect d) := by
  rcases classify_eq_error h with rfl | rfl | rfl
  · exact Fault.ofTokens_defect (by simp [tokenKinds, Defect.kind])
  · exact Fault.ofTokens_defect (by simp [tokenKinds, Defect.kind])
  · exact Fault.ofTokens_defect (by simp [tokenKinds, Defect.kind])

theorem Cell.ofTokens_of_read {n column : Int} {entry : Text}
    (h : read rules n column entry = .error f) : f.OfTokens := by
  unfold read at h
  split_ifs at h
  · obtain rfl := Except.error.inj h
    rintro d ⟨⟩
  · simp only at h
    split at h
    · obtain rfl := Except.error.inj h
      exact Fault.ofTokens_defect (by simp [tokenKinds, Defect.kind])
    · cases h

namespace Row

theorem ofTokens_of_readCells {n : Int} {before : List Cell} {entries : List Text}
    (h : readCells rules n before entries = .error f) : f.OfTokens := by
  induction entries generalizing before with
  | nil => cases h
  | cons entry entries ih =>
    rw [readCells] at h
    rcases Except.bind_eq_error_iff.mp h with h | ⟨cell, -, h⟩
    · exact Cell.ofTokens_of_read h
    · split at h
      · obtain rfl := Except.error.inj h
        exact Fault.ofTokens_defect (by simp [tokenKinds, Defect.kind])
      · exact ih h

theorem ofTokens_of_read {n : Int} {found : List Text} (hne : found ≠ [])
    (h : read rules n found = .error f) : f.OfTokens := by
  obtain ⟨size, entries, rfl⟩ := List.exists_cons_of_ne_nil hne
  rcases Except.bind_eq_error_iff.mp h with h | ⟨_, -, h⟩
  · obtain ⟨d, hd, rfl⟩ := Except.mapError_eq_error_iff.mp h
    exact Track.ofTokens_of_classify hd
  · rcases Except.bind_eq_error_iff.mp h with h | ⟨_, -, h⟩
    · exact ofTokens_of_readCells h
    · cases h

theorem scan_eq_error {line : Text} {d : Defect} (h : Token.scan line = .error d) :
    d = .malformedRow line ∧ Text.Blank line := by
  unfold Token.scan at h
  split at h
  · next hnil => exact ⟨(Except.error.inj h).symm, Token.tokens_eq_nil_iff.mp hnil⟩
  · cases h

/-- **A line of the body is refused** as blank, or for its tokens. -/
theorem fault_of_readText {n : Int} {line : Text} (h : readText rules n line = .error f) :
    (f = .defect (.malformedRow line) ∧ Text.Blank line) ∨ f.OfTokens := by
  rcases Except.bind_eq_error_iff.mp h with h | ⟨found, hfound, h⟩
  · obtain ⟨d, hd, rfl⟩ := Except.mapError_eq_error_iff.mp h
    obtain ⟨rfl, hblank⟩ := scan_eq_error hd
    exact Or.inl ⟨rfl, hblank⟩
  · obtain ⟨hne, -⟩ := scan_eq_ok_iff.mp (Except.mapError_eq_ok_iff.mp hfound)
    exact Or.inr (ofTokens_of_read hne h)

end Row

namespace Layout

theorem headerOfTokens_eq_error {found : List Text} {d : Defect}
    (h : headerOfTokens found = .error d) : ∃ text ∈ found, Track.classify text = .error d := by
  induction found with
  | nil => cases h
  | cons size sizes ih =>
    rcases Except.bind_eq_error_iff.mp h with h | ⟨_, -, h⟩
    · exact ⟨size, List.mem_cons_self, h⟩
    rcases Except.bind_eq_error_iff.mp h with h | ⟨_, -, h⟩
    · obtain ⟨text, htext, hd⟩ := ih h
      exact ⟨text, List.mem_cons_of_mem size htext, hd⟩
    · cases h

/-- **A header is refused** as blank, or for its tokens. -/
theorem fault_of_readHeader {line : Text} {d : Defect} (h : readHeader line = .error d) :
    (d = .malformedRow line ∧ Text.Blank line) ∨ Fault.OfTokens (.defect d) := by
  rcases Except.bind_eq_error_iff.mp h with h | ⟨found, -, h⟩
  · exact Or.inl (Row.scan_eq_error h)
  · obtain ⟨text, -, hd⟩ := headerOfTokens_eq_error h
    exact Or.inr (Track.ofTokens_of_classify hd)

end Layout

end GridText
