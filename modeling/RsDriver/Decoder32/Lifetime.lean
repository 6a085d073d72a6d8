import RsDriver.Decoder32.Session
import RsDriver.Decoder32.CalibrationFile

/-!
A decoder's lifetime with both sources of calibration: `loadCalibrationFile` at start-up, then
any sequence of `decodeDifopPkt` and `decodeMsopPkt` calls.

`loadCalibrationFile` writes the two tables and no other member (`readRows_withTables`). In
particular it leaves `cali_data_flag_`, and that flag alone decides whether a DIFOP packet
loads. So the file's tables outlive the run only when bit `0x2` is set by the time the run
starts; `loadCalibrationFile` does not set it, and whether its caller does is decided outside
`src/`.

When the bit is clear and `rpm_` is not zero, the file is undone. Two decoders that differ only
in table entries below 32, as a decoder before and after a file load do (`AgreeBelowLoad`), stay
so through every call (`agreeBelowLoad_run`): no call reads a table entry to decide what to write.
The first loading DIFOP packet erases the difference, since it writes all 32 entries from the
packet's bytes alone (`run_eq_of_load`). From then on the two runs are one run. With `rpm_ = 0`
that packet traps instead, and the program ends with the file's tables.
-/

namespace RsDriver

namespace Decoder32

/-- `d` with both angle tables replaced. -/
def withTables (d : Decoder32) (vert hori : ℕ → ℚ) : Decoder32 :=
  { d with vertAngleList := vert, horiAngleList := hori }

@[simp] theorem caliReady_withTables (d : Decoder32) (vert hori : ℕ → ℚ) :
    (d.withTables vert hori).caliReady = d.caliReady := rfl

@[simp] theorem vertAngleList_withTables (d : Decoder32) (vert hori : ℕ → ℚ) :
    (d.withTables vert hori).vertAngleList = vert := rfl

@[simp] theorem horiAngleList_withTables (d : Decoder32) (vert hori : ℕ → ℚ) :
    (d.withTables vert hori).horiAngleList = hori := rfl

@[simp] theorem rpm_withTables (d : Decoder32) (vert hori : ℕ → ℚ) :
    (d.withTables vert hori).rpm = d.rpm := rfl

@[simp] theorem setEchoMode_withTables (d : Decoder32) (vert hori : ℕ → ℚ) (m : ℕ) :
    (d.withTables vert hori).setEchoMode m = (d.setEchoMode m).withTables vert hori := rfl

/-- `a` is `b` with other tables, which agree with `b`'s from entry 32 on: the decoders differ
at most in the 32 entries a load writes. -/
def AgreeBelowLoad (a b : Decoder32) : Prop :=
  ∃ vert hori, a = b.withTables vert hori ∧
    ∀ k, 32 ≤ k → vert k = b.vertAngleList k ∧ hori k = b.horiAngleList k

/-! ### The file writes the tables only -/

section

variable {stof : List Char → Option ℚ} {F : FloatRounding} {r : ℕ} {d : Decoder32}

/-- However the read loop ends, it has written the two tables and nothing else. -/
theorem readRows_withTables (lines : List (List Char)) :
    ∃ vert hori, (readRows stof F r lines d).1 = d.withTables vert hori := by
  induction lines generalizing r d with
  | nil => exact ⟨_, _, rfl⟩
  | cons line lines ih =>
      have hs := @readLine_spec stof F r line d
      simp only [readRows]
      split <;> rename_i hl <;> rw [hl] at hs
      · obtain ⟨-, -, vert, he, -⟩ := readLine_error hl
        exact ⟨vert, d.horiAngleList, he⟩
      · obtain ⟨v₀, v₁, -, rfl⟩ := hs
        split
        · exact ⟨_, _, rfl⟩
        · exact ih

variable (stof F) in
/-- A file load leaves a decoder that differs from the one before only below entry 32. -/
theorem loadCalibrationFile_agreeBelowLoad (file : Option (List Char)) (d : Decoder32) :
    AgreeBelowLoad (loadCalibrationFile stof F file d).1 d := by
  cases file with
  | none => exact ⟨_, _, rfl, fun _ _ => ⟨rfl, rfl⟩⟩
  | some content =>
      obtain ⟨vert, hori, he⟩ := @readRows_withTables stof F 0 d (getlines '\n' content)
      refine ⟨vert, hori, he, fun k hk => ?_⟩
      have hf := @readRows_frame stof F 0 d (getlines '\n' content) (by norm_num) k (.inr hk)
      rw [he] at hf
      exact hf

end

/-! ### Two runs that differ below entry 32 -/

section

variable {F : FloatRounding} {a b : Decoder32}

theorem agreeBelowLoad_refl (d : Decoder32) : AgreeBelowLoad d d :=
  ⟨_, _, rfl, fun _ _ => ⟨rfl, rfl⟩⟩

theorem AgreeBelowLoad.caliReady_eq (h : AgreeBelowLoad a b) : a.caliReady = b.caliReady := by
  obtain ⟨_, _, rfl, -⟩ := h
  rfl

/-- A load writes entries `[0, 32)` from the packet alone and keeps the rest, so it makes two
decoders that differ only below 32 equal. -/
theorem loadDifopCali_eq (pkt : RS32DifopPkt) (h : AgreeBelowLoad a b) :
    loadDifopCali F pkt a = loadDifopCali F pkt b := by
  obtain ⟨vert, hori, rfl, hv⟩ := h
  have hvert : (caliLoop F pkt 32 0 ⟨1, vert, hori⟩).vert =
      (caliLoop F pkt 32 0 ⟨1, b.vertAngleList, b.horiAngleList⟩).vert := by
    funext k
    rw [caliLoop_vert pkt 1 32 0 _ rfl, caliLoop_vert pkt 1 32 0 _ rfl]
    split_ifs with hk
    · rfl
    · exact (hv k (by omega)).1
  have hhori : (caliLoop F pkt 32 0 ⟨1, vert, hori⟩).hori =
      (caliLoop F pkt 32 0 ⟨1, b.vertAngleList, b.horiAngleList⟩).hori := by
    funext k
    rw [caliLoop_hori pkt 1 32 0 _ rfl, caliLoop_hori pkt 1 32 0 _ rfl]
    split_ifs with hk
    · rfl
    · exact (hv k (by omega)).2
  simp only [loadDifopCali, vertAngleList_withTables, horiAngleList_withTables, hvert, hhori]
  rfl

/-- One call keeps the two decoders apart by at most the entries below 32. -/
theorem agreeBelowLoad_run (c : Call) (h : AgreeBelowLoad a b) :
    AgreeBelowLoad (c.run F a) (c.run F b) := by
  cases c with
  | msop _ _ => exact h
  | difop pkt =>
      obtain ⟨vert, hori, rfl, hv⟩ := h
      rw [run_difop, run_difop, rpm_withTables]
      split_ifs
      · simp only [setEchoMode_withTables, caliStage, caliReady_withTables]
        split_ifs
        · exact ⟨vert, hori, rfl, hv⟩
        · exact ⟨vert, hori, rfl, hv⟩
        · rw [loadDifopCali_eq (b := b.setEchoMode _) pkt ⟨vert, hori, rfl, hv⟩]
          exact agreeBelowLoad_refl _
      · exact ⟨vert, hori, rfl, hv⟩

/-- A loading call with bit `0x2` clear and `rpm_` not zero makes the two decoders equal. -/
theorem run_eq_of_load (c : Call) (h : AgreeBelowLoad a b) (hl : c.loads = true)
    (hr : b.caliReady = false) (hrpm : b.rpm ≠ 0) : c.run F a = c.run F b := by
  cases c with
  | msop _ _ => simp [Call.loads] at hl
  | difop pkt =>
      obtain ⟨vert, hori, rfl, hv⟩ := h
      rw [run_difop_load hl (by rwa [caliReady_withTables]) (by rwa [rpm_withTables]),
        run_difop_load hl hr hrpm, setEchoMode_withTables]
      exact loadDifopCali_eq pkt ⟨vert, hori, rfl, hv⟩

/-- Two decoders that differ only below entry 32, with bit `0x2` clear and `rpm_` not zero, end
a run that holds a loading DIFOP packet as one decoder. -/
theorem runCalls_eq_of_load (cs : List Call) (h : AgreeBelowLoad a b)
    (hr : b.caliReady = false) (hrpm : b.rpm ≠ 0) (hl : cs.any Call.loads = true) :
    runCalls F cs a = runCalls F cs b := by
  induction cs generalizing a b with
  | nil => simp at hl
  | cons c cs ih =>
      rw [runCalls_cons, runCalls_cons]
      by_cases hc : c.loads = true
      · rw [run_eq_of_load c h hc hr hrpm]
      · have hcs : cs.any Call.loads = true := by simpa [hc] using hl
        refine ih (agreeBelowLoad_run c h) ?_ (by rwa [rpm_run]) hcs
        rw [caliReady_run, hr, Bool.false_or]
        simp [hc]

end

variable (stof : List Char → Option ℚ) (F : FloatRounding) in
/-- `loadCalibrationFile` at start-up, then any run. The file writes the two tables below entry 32
and no other member, so it leaves `cali_data_flag_` as it was. If bit `0x2` was set, the file's
tables are the tables at the end of every run. If it was clear and `rpm_` is not zero, a run that
holds a loading DIFOP packet ends in the very decoder it ends in without the file, whatever the
file held: the packet's tables replace the file's. -/
theorem loadCalibrationFile_then_run (file : Option (List Char)) (d : Decoder32)
    (cs : List Call) :
    let d₀ := (loadCalibrationFile stof F file d).1
    AgreeBelowLoad d₀ d ∧ d₀.caliDataFlag = d.caliDataFlag ∧
      (d.caliReady = true → (runCalls F cs d₀).tables = d₀.tables) ∧
      (d.caliReady = false → d.rpm ≠ 0 → cs.any Call.loads = true →
        runCalls F cs d₀ = runCalls F cs d) := by
  have h := loadCalibrationFile_agreeBelowLoad stof F file d
  refine ⟨h, ?_, fun hr => tables_runCalls_of_caliReady cs (h.caliReady_eq.trans hr),
    fun hr hrpm hl => runCalls_eq_of_load cs h hr hrpm hl⟩
  obtain ⟨_, _, he, -⟩ := h
  rw [he]
  rfl

end Decoder32

end RsDriver
