import RsDriver.Decoder32.CalibrationFile

/-!
The text format of a calibration file, written and read back.

A table is written one row per line, `vertical,horizontal`, each line ended by `'\n'`
(`renderCalibration`), every value by a printer `text` that `std::stof` inverts. Reading goes
through three layers, and each has its lemma: `std::getline` cuts the text at a delimiter that
no piece holds, the trailing `'\n'` yielding no empty last line (`getlines_flatMap`); the comma
split of a rendered line gives back its two values (`lineAngles_renderLine`); and a read loop
whose lines all hold two values returns normally (`readRows_returned_of_lines`). Together:
`loadCalibrationFile` of a rendered table returns normally and holds a hundred times each value
of the first 32 rows (`loadCalibrationFile_render`).
-/

namespace RsDriver

namespace Decoder32

/-- The line of one row: its two values as `text` writes them, joined by a comma. -/
def renderLine (text : ℚ → List Char) (row : ℚ × ℚ) : List Char :=
  text row.1 ++ ',' :: text row.2

/-- The calibration file of `rows`: one line per row, each ended by `'\n'`. -/
def renderCalibration (text : ℚ → List Char) (rows : List (ℚ × ℚ)) : List Char :=
  (rows.map (renderLine text)).flatMap (· ++ ['\n'])

/-! ### `std::getline` -/

/-- `getline` stops at the first delimiter and extracts what stands before it. -/
theorem getlines_append_cons {c : Char} {s : List Char} (hs : c ∉ s) (t : List Char) :
    getlines c (s ++ c :: t) = s :: getlines c t := by
  induction s with
  | nil => simp [getlines]
  | cons x s ih =>
      have hx : x ≠ c := fun h => hs (h ▸ List.mem_cons_self x s)
      rw [List.cons_append, getlines, if_neg hx, ih (fun h => hs (List.mem_cons_of_mem x h))]

/-- A non-empty piece without the delimiter is one piece. -/
theorem getlines_of_not_mem {c : Char} {s : List Char} (hne : s ≠ []) (hs : c ∉ s) :
    getlines c s = [s] := by
  induction s with
  | nil => exact absurd rfl hne
  | cons x s ih =>
      have hx : x ≠ c := fun h => hs (h ▸ List.mem_cons_self x s)
      rw [getlines, if_neg hx]
      rcases s with _ | ⟨y, s⟩
      · rfl
      · rw [ih (List.cons_ne_nil y s) (fun h => hs (List.mem_cons_of_mem x h))]

/-- Pieces without the delimiter, each ended by it, are cut back into the same pieces: a final
delimiter yields no empty last piece. -/
theorem getlines_flatMap {c : Char} (ls : List (List Char)) (h : ∀ l ∈ ls, c ∉ l) :
    getlines c (ls.flatMap (· ++ [c])) = ls := by
  induction ls with
  | nil => rfl
  | cons l ls ih =>
      rw [List.flatMap_cons, List.append_assoc, List.singleton_append,
        getlines_append_cons (h l (List.mem_cons_self l ls)),
        ih (fun l' hl' => h l' (List.mem_cons_of_mem l hl'))]

/-! ### One line -/

variable {stof : List Char → Option ℚ} {text : ℚ → List Char}

/-- What the statements ask of the printer on a value: some text, without a comma or a line
break, that `std::stof` reads back as the value. -/
def Printable (stof : List Char → Option ℚ) (text : ℚ → List Char) (v : ℚ) : Prop :=
  text v ≠ [] ∧ ',' ∉ text v ∧ '\n' ∉ text v ∧ stof (text v) = some v

theorem lineAngles_renderLine {row : ℚ × ℚ} (h₁ : Printable stof text row.1)
    (h₂ : Printable stof text row.2) : lineAngles stof (renderLine text row) = some row := by
  have hsplit : getlines ',' (renderLine text row) = [text row.1, text row.2] := by
    rw [renderLine, getlines_append_cons h₁.2.1, getlines_of_not_mem h₂.1 h₂.2.1]
  simp [lineAngles, hsplit, h₁.2.2.2, h₂.2.2.2]

theorem newline_not_mem_renderLine {row : ℚ × ℚ} (h₁ : Printable stof text row.1)
    (h₂ : Printable stof text row.2) : '\n' ∉ renderLine text row := by
  simp only [renderLine, List.mem_append, List.mem_cons, not_or]
  exact ⟨h₁.2.2.1, by decide, h₂.2.2.1⟩

/-! ### The loop -/

variable {F : FloatRounding}

/-- A read loop whose lines all hold two values returns normally. -/
theorem readRows_returned_of_lines {r : ℕ} (lines : List (List Char)) {d : Decoder32}
    (h : ∀ l ∈ lines, lineAngles stof l ≠ none) :
    (readRows stof F r lines d).2 = .returned := by
  induction lines generalizing r d with
  | nil => rfl
  | cons line lines ih =>
      have hs := @readLine_spec stof F r line d
      simp only [readRows]
      split <;> rename_i hl <;> rw [hl] at hs
      · exact absurd (readLine_error hl).1 (h line (List.mem_cons_self line lines))
      · obtain ⟨v₀, v₁, -, rfl⟩ := hs
        split
        · rfl
        · exact ih fun l hl' => h l (List.mem_cons_of_mem line hl')

variable (stof F) in
/-- A table written in the file format, by a printer that `std::stof` inverts on its values,
loads back: `loadCalibrationFile` returns normally, and entry `k` of both tables holds a hundred
times the values of row `k`, for each of the first 32 rows. -/
theorem loadCalibrationFile_render (text : ℚ → List Char) (rows : List (ℚ × ℚ))
    (htext : ∀ row ∈ rows, Printable stof text row.1 ∧ Printable stof text row.2)
    (d : Decoder32) :
    let r := loadCalibrationFile stof F (some (renderCalibration text rows)) d
    r.2 = .returned ∧ ∀ k (hk : k < min rows.length 32),
      r.1.vertAngleList k = F.mul rows[k].1 (F.ofInt 100) ∧
        r.1.horiAngleList k = F.mul rows[k].2 (F.ofInt 100) := by
  have hlines : getlines '\n' (renderCalibration text rows) = rows.map (renderLine text) := by
    refine getlines_flatMap _ fun l hl => ?_
    obtain ⟨row, hrow, rfl⟩ := List.mem_map.mp hl
    exact newline_not_mem_renderLine (htext row hrow).1 (htext row hrow).2
  have hret : (readRows stof F 0 (rows.map (renderLine text)) d).2 = .returned := by
    refine readRows_returned_of_lines _ fun l hl => ?_
    obtain ⟨row, hrow, rfl⟩ := List.mem_map.mp hl
    rw [lineAngles_renderLine (htext row hrow).1 (htext row hrow).2]
    exact Option.some_ne_none _
  simp only [loadCalibrationFile, hlines]
  refine ⟨hret, fun k hk => ?_⟩
  obtain ⟨v₀, v₁, hv, h₁, h₂⟩ := readRows_returned (rows.map (renderLine text)) (by norm_num)
    hret (k := k) (by rw [List.length_map]; exact hk)
  have hrow := htext rows[k] (List.getElem_mem _)
  rw [List.getElem_map, lineAngles_renderLine hrow.1 hrow.2, Option.some.injEq] at hv
  rw [Nat.zero_add] at h₁ h₂
  rw [h₁, h₂, hv]
  exact ⟨rfl, rfl⟩

/-- Values `1` and `2`, written as one digit and read back. -/
def digitText (v : ℚ) : List Char := if v = 1 then ['1'] else ['2']

/-- `std::stof` on the two one-digit texts. -/
def digitStof (s : List Char) : Option ℚ :=
  if s = ['1'] then some 1 else if s = ['2'] then some 2 else none

theorem digitText_loadCalibrationFile_render :
    (∀ row ∈ [((1 : ℚ), (2 : ℚ))],
        Printable digitStof digitText row.1 ∧ Printable digitStof digitText row.2) ∧
      let r := loadCalibrationFile digitStof .exact
        (some (renderCalibration digitText [((1 : ℚ), (2 : ℚ))])) (fresh 1)
      r.2 = .returned ∧ ∀ k (hk : k < min [((1 : ℚ), (2 : ℚ))].length 32),
        r.1.vertAngleList k = FloatRounding.exact.mul [((1 : ℚ), (2 : ℚ))][k].1
            (FloatRounding.exact.ofInt 100) ∧
          r.1.horiAngleList k = FloatRounding.exact.mul [((1 : ℚ), (2 : ℚ))][k].2
            (FloatRounding.exact.ofInt 100) :=
  have htext : ∀ row ∈ [((1 : ℚ), (2 : ℚ))],
      Printable digitStof digitText row.1 ∧ Printable digitStof digitText row.2 := by
    simp [Printable, digitText, digitStof]
  ⟨htext, loadCalibrationFile_render _ _ _ _ htext _⟩

end Decoder32

end RsDriver
