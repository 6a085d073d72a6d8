import RsDriver.Decoder32.Basic

/-!
`Decoder32::loadCalibrationFile`: the angle tables from a text file of `vertical,horizontal`
lines in degrees.

The file and its lines are split by `std::getline`, which extracts the text up to the next
delimiter and fails only at the end of its input; repeated, it yields every piece between
delimiters except a last empty one (`getlines`). Each line's fields are indexed as
`vect_str[0]` and `vect_str[1]` without a look at how many there are, so a line with fewer than
two fields reads past the end of the vector, which C++ leaves undefined; the model ends the run
there with `LoadEnd.fieldMissing`. `std::stof` is a parameter: it converts a field or throws,
and a throw ends the run with `LoadEnd.stofThrew`, the tables keeping what was written so far.

The converted value is a rational here. The real `std::stof` also returns an infinity or a NaN
on text such as `inf`, `nan` or `1e39`, and `stof(..) * 100` overflows to an infinity above
`FLT_MAX / 100`; a run on such a file is outside the model.
-/

namespace RsDriver

namespace Decoder32

/-- What repeated `std::getline(in, str, delim)` extracts from the rest of a stream. -/
def getlines (delim : Char) : List Char → List (List Char)
  | [] => []
  | ch :: s =>
      if ch = delim then [] :: getlines delim s
      else
        match getlines delim s with
        | [] => [[ch]]
        | p :: ps => (ch :: p) :: ps

/-- How a run of `loadCalibrationFile` ends. -/
inductive LoadEnd
  | returned
  | stofThrew (row : ℕ)
  | fieldMissing (row field : ℕ)
  deriving DecidableEq, Repr

section

variable (stof : List Char → Option ℚ) (F : FloatRounding)

/-- The body of the read loop for the line at `row_index = rowIndex`: the decoder with entry
`rowIndex` of both tables written, or how the line ends the run and the decoder it leaves.
Each value stored is `stof(..) * 100` rounded, a finite `float`: the model has no infinity. -/
def readLine (rowIndex : ℕ) (line : List Char) (d : Decoder32) :
    Except (Decoder32 × LoadEnd) Decoder32 :=
  let vectStr := getlines ',' line
  match vectStr[0]? with
  | none => .error (d, .fieldMissing rowIndex 0)
  | some s₀ =>
    match stof s₀ with
    | none => .error (d, .stofThrew rowIndex)
    | some v₀ =>
      let vert := Function.update d.vertAngleList rowIndex (F.mul v₀ (F.ofInt 100))
      let d := { d with vertAngleList := vert }
      match vectStr[1]? with
      | none => .error (d, .fieldMissing rowIndex 1)
      | some s₁ =>
        match stof s₁ with
        | none => .error (d, .stofThrew rowIndex)
        | some v₁ =>
          let hori := Function.update d.horiAngleList rowIndex (F.mul v₁ (F.ofInt 100))
          .ok { d with horiAngleList := hori }

/-- The read loop at `row_index = rowIndex` over the lines left; it breaks once
`laser_num = 32` rows are read. -/
def readRows (rowIndex : ℕ) : List (List Char) → Decoder32 → Decoder32 × LoadEnd
  | [], d => (d, .returned)
  | line :: lines, d =>
      match readLine stof F rowIndex line d with
      | .error e => e
      | .ok d => if rowIndex + 1 ≥ 32 then (d, .returned) else readRows (rowIndex + 1) lines d

/-- `Decoder32::loadCalibrationFile` on the content of the file at `angle_path`, `none` when it
cannot be opened: then nothing happens. -/
def loadCalibrationFile (file : Option (List Char)) (d : Decoder32) : Decoder32 × LoadEnd :=
  match file with
  | none => (d, .returned)
  | some content => readRows stof F 0 (getlines '\n' content) d

end

/-- A file whose only line is empty: `std::getline` yields one empty line, and its field vector is
empty. -/
def blankLineFile : List Char := ['\n']

/-- On it the first read, `vect_str[0]`, is past the end of an empty vector, whatever the
decoder and the conversion. -/
theorem loadCalibrationFile_blankLine (stof : List Char → Option ℚ) (F : FloatRounding)
    (d : Decoder32) :
    getlines '\n' blankLineFile = [[]] ∧ getlines ',' [] = [] ∧
      loadCalibrationFile stof F (some blankLineFile) d = (d, .fieldMissing 0 0) :=
  ⟨rfl, rfl, rfl⟩

/-! ### One line -/

/-- The angles a line holds: its first two fields, converted. -/
def lineAngles (stof : List Char → Option ℚ) (line : List Char) : Option (ℚ × ℚ) := do
  let v₀ ← (getlines ',' line)[0]? >>= stof
  let v₁ ← (getlines ',' line)[1]? >>= stof
  pure (v₀, v₁)

/-- Row `r` of both tables written. -/
def writeRow (d : Decoder32) (r : ℕ) (v₀ v₁ : ℚ) : Decoder32 :=
  { d with vertAngleList := Function.update d.vertAngleList r v₀
           horiAngleList := Function.update d.horiAngleList r v₁ }

/-- `d'` has the tables of `d` except perhaps at row `r`. -/
def OffRow (r : ℕ) (d' d : Decoder32) : Prop :=
  ∀ k ≠ r, d'.vertAngleList k = d.vertAngleList k ∧ d'.horiAngleList k = d.horiAngleList k

section

variable {stof : List Char → Option ℚ} {F : FloatRounding} {r : ℕ} {line : List Char}
  {d : Decoder32}

theorem offRow_writeRow (v₀ v₁ : ℚ) : OffRow r (d.writeRow r v₀ v₁) d :=
  fun _ hk => ⟨Function.update_noteq hk _ _, Function.update_noteq hk _ _⟩

/-- What one line does: it ends the run, having written at most row `r`, or it holds two angles
and writes them to row `r`. -/
theorem readLine_spec :
    match readLine stof F r line d with
    | .error e => e.2 ≠ .returned ∧ OffRow r e.1 d
    | .ok d' => ∃ v₀ v₁, lineAngles stof line = some (v₀, v₁) ∧
        d' = d.writeRow r (F.mul v₀ (F.ofInt 100)) (F.mul v₁ (F.ofInt 100)) := by
  unfold readLine
  dsimp only
  rcases h₀ : (getlines ',' line)[0]? with _ | s₀ <;> dsimp only
  · exact ⟨by simp, fun _ _ => ⟨rfl, rfl⟩⟩
  rcases hv₀ : stof s₀ with _ | v₀ <;> dsimp only
  · exact ⟨by simp, fun _ _ => ⟨rfl, rfl⟩⟩
  rcases h₁ : (getlines ',' line)[1]? with _ | s₁ <;> dsimp only
  · exact ⟨by simp, fun _ hk => ⟨Function.update_noteq hk _ _, rfl⟩⟩
  rcases hv₁ : stof s₁ with _ | v₁ <;> dsimp only
  · exact ⟨by simp, fun _ hk => ⟨Function.update_noteq hk _ _, rfl⟩⟩
  · exact ⟨v₀, v₁, by simp [lineAngles, h₀, hv₀, h₁, hv₁], rfl⟩

/-! ### The loop -/

/-- One turn of the loop: the line ends the run, having changed at most row `r`; or it holds two
angles, row `r` gets them, and the loop stops after row 31 or goes on from row `r + 1`. -/
theorem readRows_cons (lines : List (List Char)) :
    ((readRows stof F r (line :: lines) d).2 ≠ .returned ∧
        OffRow r (readRows stof F r (line :: lines) d).1 d) ∨
      ∃ v₀ v₁, lineAngles stof line = some (v₀, v₁) ∧
        let d' := d.writeRow r (F.mul v₀ (F.ofInt 100)) (F.mul v₁ (F.ofInt 100))
        readRows stof F r (line :: lines) d =
          if r + 1 ≥ 32 then (d', .returned) else readRows stof F (r + 1) lines d' := by
  have hs := @readLine_spec stof F r line d
  simp only [readRows]
  split <;> rename_i hl <;> rw [hl] at hs
  · exact .inl hs
  · obtain ⟨v₀, v₁, hv, rfl⟩ := hs
    exact .inr ⟨v₀, v₁, hv, rfl⟩

/-- However a run from row `r < 32` ends, it writes no row before `r` and none at or past
32. -/
theorem readRows_frame (lines : List (List Char)) (hr : r < 32) {k : ℕ} (hk : k < r ∨ 32 ≤ k) :
    (readRows stof F r lines d).1.vertAngleList k = d.vertAngleList k ∧
      (readRows stof F r lines d).1.horiAngleList k = d.horiAngleList k := by
  induction lines generalizing r d with
  | nil => exact ⟨rfl, rfl⟩
  | cons line lines ih =>
      have hne : k ≠ r := by omega
      rcases @readRows_cons stof F r line d lines with ⟨-, hoff⟩ | ⟨v₀, v₁, -, he⟩
      · exact hoff k hne
      rw [he]
      split
      · exact offRow_writeRow _ _ k hne
      · obtain ⟨h₁, h₂⟩ := ih (r := r + 1) (d := d.writeRow r _ _) (by omega) (by omega)
        exact ⟨h₁.trans (offRow_writeRow _ _ k hne).1, h₂.trans (offRow_writeRow _ _ k hne).2⟩

/-- On a normal return from row `r < 32`, every row read holds a hundred times the two values of
its line, and the rows read are the next `min(#lines, 32 - r)`. -/
theorem readRows_returned (lines : List (List Char)) (hr : r < 32)
    (h : (readRows stof F r lines d).2 = .returned) {k : ℕ}
    (hk : k < min lines.length (32 - r)) :
    ∃ v₀ v₁, lineAngles stof lines[k] = some (v₀, v₁) ∧
      (readRows stof F r lines d).1.vertAngleList (r + k) = F.mul v₀ (F.ofInt 100) ∧
      (readRows stof F r lines d).1.horiAngleList (r + k) = F.mul v₁ (F.ofInt 100) := by
  induction lines generalizing r d k with
  | nil => simp at hk
  | cons line lines ih =>
      rcases @readRows_cons stof F r line d lines with ⟨hne, -⟩ | ⟨v₀, v₁, hl, he⟩
      · exact absurd h hne
      rw [he] at h ⊢
      cases k with
      | zero =>
          refine ⟨v₀, v₁, hl, ?_⟩
          split
          · simp [writeRow]
          · simp only [Nat.add_zero]
            rw [(readRows_frame lines (by omega) (.inl (Nat.lt_add_one r))).1,
              (readRows_frame lines (by omega) (.inl (Nat.lt_add_one r))).2]
            simp [writeRow]
      | succ k =>
          have hlt : ¬r + 1 ≥ 32 := by simp at hk; omega
          rw [if_neg hlt] at h ⊢
          obtain ⟨w₀, w₁, hw, h₁, h₂⟩ := ih (r := r + 1) (k := k) (by omega) h
            (by simp at hk ⊢; omega)
          refine ⟨w₀, w₁, by simpa using hw, ?_⟩
          rw [show r + (k + 1) = r + 1 + k by omega]
          exact ⟨h₁, h₂⟩

/-- A line that ends the run holds no two convertible fields. It names its row, and of the
decoder it may have written the vertical entry of its row only. -/
theorem readLine_error {e : Decoder32 × LoadEnd} (h : readLine stof F r line d = .error e) :
    lineAngles stof line = none ∧ (e.2 = .stofThrew r ∨ ∃ f, e.2 = .fieldMissing r f) ∧
      ∃ vert, e.1 = { d with vertAngleList := vert } ∧
        ∀ k ≠ r, vert k = d.vertAngleList k := by
  unfold readLine at h
  dsimp only at h
  rcases h₀ : (getlines ',' line)[0]? with _ | s₀ <;> rw [h₀] at h <;> dsimp only at h
  · cases h
    exact ⟨by simp [lineAngles, h₀], .inr ⟨0, rfl⟩, _, rfl, fun _ _ => rfl⟩
  rcases hv₀ : stof s₀ with _ | v₀ <;> rw [hv₀] at h <;> dsimp only at h
  · cases h
    exact ⟨by simp [lineAngles, h₀, hv₀], .inl rfl, _, rfl, fun _ _ => rfl⟩
  rcases h₁ : (getlines ',' line)[1]? with _ | s₁ <;> rw [h₁] at h <;> dsimp only at h
  · cases h
    exact ⟨by simp [lineAngles, h₀, hv₀, h₁], .inr ⟨1, rfl⟩, _, rfl,
      fun _ hk => Function.update_noteq hk _ _⟩
  rcases hv₁ : stof s₁ with _ | v₁ <;> rw [hv₁] at h <;> dsimp only at h
  · cases h
    exact ⟨by simp [lineAngles, h₀, hv₀, h₁, hv₁], .inl rfl, _, rfl,
      fun _ hk => Function.update_noteq hk _ _⟩
  · cases h

/-- A run from row `r < 32` that does not return normally ends at the `j`-th line left, on row
`r + j < 32`: that line holds no two convertible fields, every line before it has been written
to its row, the row's horizontal entry and every row after it are untouched. -/
theorem readRows_error (lines : List (List Char)) (hr : r < 32)
    (h : (readRows stof F r lines d).2 ≠ .returned) :
    ∃ j, ∃ hj : j < lines.length, r + j < 32 ∧ lineAngles stof lines[j] = none ∧
      ((readRows stof F r lines d).2 = .stofThrew (r + j) ∨
        ∃ f, (readRows stof F r lines d).2 = .fieldMissing (r + j) f) ∧
      (∀ k (hk : k < j), ∃ v₀ v₁, lineAngles stof lines[k] = some (v₀, v₁) ∧
        (readRows stof F r lines d).1.vertAngleList (r + k) = F.mul v₀ (F.ofInt 100) ∧
        (readRows stof F r lines d).1.horiAngleList (r + k) = F.mul v₁ (F.ofInt 100)) ∧
      (readRows stof F r lines d).1.horiAngleList (r + j) = d.horiAngleList (r + j) ∧
      ∀ k, r + j < k → (readRows stof F r lines d).1.vertAngleList k = d.vertAngleList k ∧
        (readRows stof F r lines d).1.horiAngleList k = d.horiAngleList k := by
  induction lines generalizing r d with
  | nil => exact absurd rfl h
  | cons line lines ih =>
      have hs := @readLine_spec stof F r line d
      unfold readRows at h ⊢
      split at hs <;> rename_i hl <;> simp only [hl] at h ⊢
      · obtain ⟨hn, hend, vert, he, hvert⟩ := readLine_error hl
        rw [he]
        exact ⟨0, Nat.zero_lt_succ _, by omega, hn, hend,
          fun k hk => absurd hk (Nat.not_lt_zero k), rfl,
          fun k hk => ⟨hvert k (by omega), rfl⟩⟩
      · obtain ⟨v₀, v₁, hv, rfl⟩ := hs
        have hlt : ¬r + 1 ≥ 32 := fun hge => h (if_pos hge ▸ rfl)
        rw [if_neg hlt] at h ⊢
        obtain ⟨j, hj, hrj, hn, hend, hbefore, hhori, hafter⟩ := ih (by omega) h
        have hoff := offRow_writeRow (d := d) (r := r) (F.mul v₀ (F.ofInt 100))
          (F.mul v₁ (F.ofInt 100))
        have hfr := @readRows_frame stof F (r + 1) (d.writeRow r (F.mul v₀ (F.ofInt 100))
          (F.mul v₁ (F.ofInt 100))) lines (by omega) r (.inl (Nat.lt_add_one r))
        refine ⟨j + 1, Nat.succ_lt_succ hj, by omega, hn, ?_, fun k hk => ?_,
          ?_, fun k hk => ?_⟩
        · rwa [show r + (j + 1) = r + 1 + j by omega]
        · cases k with
          | zero =>
              simp only [Nat.add_zero]
              exact ⟨v₀, v₁, hv, hfr.1.trans (Function.update_same _ _ _),
                hfr.2.trans (Function.update_same _ _ _)⟩
          | succ k =>
              obtain ⟨w₀, w₁, hw, h₁, h₂⟩ := hbefore k (by omega)
              refine ⟨w₀, w₁, hw, ?_⟩
              rw [show r + (k + 1) = r + 1 + k by omega]
              exact ⟨h₁, h₂⟩
        · rw [show r + (j + 1) = r + 1 + j by omega, hhori]
          exact (hoff _ (by omega)).2
        · obtain ⟨h₁, h₂⟩ := hafter k (by omega)
          exact ⟨h₁.trans (hoff k (by omega)).1, h₂.trans (hoff k (by omega)).2⟩

/-- Whatever the file holds, a run writes no entry at or past 32; and when it returns normally,
each of the first `min(#lines, 32)` lines holds two values, and entry `r` of the tables holds a
hundred times those of line `r`. -/
theorem loadCalibrationFile_rows (file : List Char) (d : Decoder32) :
    let r := loadCalibrationFile stof F (some file) d
    let lines := getlines '\n' file
    (∀ k, 32 ≤ k →
        r.1.vertAngleList k = d.vertAngleList k ∧ r.1.horiAngleList k = d.horiAngleList k) ∧
      (r.2 = .returned → ∀ k (hk : k < min lines.length 32), ∃ v₀ v₁,
        lineAngles stof lines[k] = some (v₀, v₁) ∧
          r.1.vertAngleList k = F.mul v₀ (F.ofInt 100) ∧
          r.1.horiAngleList k = F.mul v₁ (F.ofInt 100)) :=
  ⟨fun _ hk => readRows_frame _ (by norm_num) (.inr hk),
    fun h k hk => by simpa using readRows_returned _ (by norm_num) h (k := k) (by simpa using hk)⟩

variable (stof F) in
/-- A load that does not return normally stops at a line `row < 32` with no two convertible
fields, and names that row. The load is not undone: every line before it has been written to
its row, the row's horizontal entry and every row after it are as before, and only the row's
vertical entry may have changed besides. -/
theorem loadCalibrationFile_error (file : List Char) (d : Decoder32)
    (h : (loadCalibrationFile stof F (some file) d).2 ≠ .returned) :
    let r := loadCalibrationFile stof F (some file) d
    let lines := getlines '\n' file
    ∃ row, ∃ hrow : row < lines.length, row < 32 ∧ lineAngles stof lines[row] = none ∧
      (r.2 = .stofThrew row ∨ ∃ f, r.2 = .fieldMissing row f) ∧
      (∀ k (hk : k < row), ∃ v₀ v₁, lineAngles stof lines[k] = some (v₀, v₁) ∧
        r.1.vertAngleList k = F.mul v₀ (F.ofInt 100) ∧
        r.1.horiAngleList k = F.mul v₁ (F.ofInt 100)) ∧
      r.1.horiAngleList row = d.horiAngleList row ∧
      ∀ k, row < k → r.1.vertAngleList k = d.vertAngleList k ∧
        r.1.horiAngleList k = d.horiAngleList k := by
  have h' := readRows_error (r := 0) (getlines '\n' file) (by norm_num) h
  simp only [Nat.zero_add] at h'
  exact h'

end

theorem blankLine_loadCalibrationFile_error :
    (loadCalibrationFile (fun _ => none) .exact (some blankLineFile) (fresh 1)).2 ≠ .returned ∧
      let r := loadCalibrationFile (fun _ => none) .exact (some blankLineFile) (fresh 1)
      let lines := getlines '\n' blankLineFile
      ∃ row, ∃ hrow : row < lines.length, row < 32 ∧
        lineAngles (fun _ => none) lines[row] = none ∧
        (r.2 = .stofThrew row ∨ ∃ f, r.2 = .fieldMissing row f) ∧
        (∀ k (hk : k < row), ∃ v₀ v₁,
          lineAngles (fun _ => none) lines[k] = some (v₀, v₁) ∧
          r.1.vertAngleList k = FloatRounding.exact.mul v₀ (FloatRounding.exact.ofInt 100) ∧
          r.1.horiAngleList k = FloatRounding.exact.mul v₁ (FloatRounding.exact.ofInt 100)) ∧
        r.1.horiAngleList row = (fresh 1).horiAngleList row ∧
        ∀ k, row < k → r.1.vertAngleList k = (fresh 1).vertAngleList k ∧
          r.1.horiAngleList k = (fresh 1).horiAngleList k :=
  have h : (loadCalibrationFile (fun _ => none) .exact (some blankLineFile) (fresh 1)).2 ≠
      .returned := by decide
  ⟨h, loadCalibrationFile_error _ _ _ _ h⟩

end Decoder32

end RsDriver
