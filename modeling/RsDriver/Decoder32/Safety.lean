import RsDriver.Decoder32.Session

/-!
Defined behaviour along whole runs. For every channel of every block it decodes,
`decodeMsopPkt` converts `vert_angle_list_[channel_idx]` to `int` to index the trigonometric
tables, and C++ defines that conversion only when the truncated value is an `int`. The model's
`truncToInt` answers every value, so the obligation is stated apart: the 32 entries of both
tables stay below `2^31` in magnitude.

That is an inductive invariant of the decoder. An MSOP decode writes no member, a DIFOP packet
writes the tables only when it loads, and a load writes entries of at most `6554` in magnitude
(`loadDifopCali_abs_le`), whatever the packet's bytes. So from a decoder whose tables are in
range, every sequence of calls keeps them in range, and every conversion of every MSOP decode of
the run is defined.

Every DIFOP packet with the right id also divides by `rpm_` to compute `pkts_per_frame_`, and the
model traps on a zero divisor. No call writes `rpm_`, and the packet's own `rpm` field is never
read, so the divisions of a run are defined exactly when `rpm_` is not zero at its start
(`runCalls_rpm_divisions`): then `pkts_per_frame_` follows the echo mode of the last DIFOP packet
with the right id, and otherwise the run ends at the first such packet, having changed nothing.
-/

namespace RsDriver

namespace Decoder32

/-- `(int)v` is defined: `v` is below `2^31` in magnitude, so its truncation is an `int`. -/
def InIntRange (v : ℚ) : Prop := |v| < 2 ^ 31

/-- The 32 entries of both tables that the decoder reads are within `int` range. -/
def TablesInIntRange (d : Decoder32) : Prop :=
  ∀ c < 32, InIntRange (d.vertAngleList c) ∧ InIntRange (d.horiAngleList c)

section

variable {F : FloatRounding}

theorem tablesInIntRange_congr {d d' : Decoder32} (h : d'.tables = d.tables)
    (hd : TablesInIntRange d) : TablesInIntRange d' := by
  simp only [tables, Prod.mk.injEq] at h
  intro c hc
  rw [h.1, h.2]
  exact hd c hc

/-- One call keeps the tables in range: it leaves them, or it loads entries of at most `6554`. -/
theorem tablesInIntRange_run (c : Call) {d : Decoder32} (hd : TablesInIntRange d) :
    TablesInIntRange (c.run F d) := by
  by_cases hl : c.loads = true ∧ d.caliReady = false ∧ d.rpm ≠ 0
  · cases c with
    | msop _ _ => simp [Call.loads] at hl
    | difop pkt =>
        intro i hi
        rw [run_difop_load hl.1 hl.2.1 hl.2.2]
        have hb := @loadDifopCali_abs_le F pkt (d.setEchoMode (echoModeOf pkt.returnMode)) i hi
        exact ⟨hb.1.trans_lt (by norm_num), hb.2.trans_lt (by norm_num)⟩
  · exact tablesInIntRange_congr (tables_run c d hl) hd

variable (F) in
/-- From a decoder whose tables are within `int` range, every sequence of DIFOP and MSOP calls
leaves them within range: in every state of the run, and so at every MSOP decode of it, the
conversion `(int)vert_angle_list_[channel_idx]` is defined for every channel. -/
theorem runCalls_tablesInIntRange (d : Decoder32) (hd : TablesInIntRange d) (cs : List Call) :
    TablesInIntRange (runCalls F cs d) := by
  induction cs generalizing d with
  | nil => exact hd
  | cons c cs ih =>
      rw [runCalls_cons]
      exact ih _ (tablesInIntRange_run c hd)

end

theorem fresh_runCalls_tablesInIntRange :
    TablesInIntRange (fresh 1) ∧
      TablesInIntRange (runCalls .exact [.difop (signPkt 0), .difop (signPkt 1)] (fresh 1)) :=
  have h : TablesInIntRange (fresh 1) := fun _ _ => by norm_num [InIntRange, fresh]
  ⟨h, runCalls_tablesInIntRange .exact (fresh 1) h _⟩

/-! ### `rpm_` and the divisions by it -/

/-- `pkts_per_frame_` is `pkt_rate * 60 / rpm_` for the current echo mode: `1500 * 60 / rpm_` in
single-return mode, `3000 * 60 / rpm_` in dual-return mode, truncated. -/
def FrameRate (d : Decoder32) : Prop :=
  d.pktsPerFrame = ((if d.echoMode = rsEchoDual then 3000 else 1500) * 60 : ℤ).tdiv d.rpm

section

variable {F : FloatRounding}

/-- A dividing call makes the packet rate that of the echo mode it writes, and every other call
keeps it, since a call that does not divide leaves the decoder's cadence members. -/
theorem frameRate_run (c : Call) {d : Decoder32} (hr : d.rpm ≠ 0)
    (h : FrameRate d ∨ c.divides = true) : FrameRate (c.run F d) := by
  cases c with
  | msop _ _ => exact h.resolve_right (by simp [Call.divides])
  | difop pkt =>
      rw [run_difop]
      split_ifs with hc
      · obtain ⟨_, _, _, he⟩ := @caliStage_frame F pkt (d.setEchoMode (echoModeOf pkt.returnMode))
        rw [he, FrameRate]
        simp only [setEchoMode, pktRate_eq]
      · exact h.resolve_right (by simpa [Call.divides] using fun hid => hc ⟨hid, hr⟩)

theorem frameRate_runCalls (cs : List Call) {d : Decoder32} (hr : d.rpm ≠ 0)
    (h : FrameRate d ∨ cs.any Call.divides = true) : FrameRate (runCalls F cs d) := by
  induction cs generalizing d with
  | nil => exact h.resolve_right (by simp)
  | cons c cs ih =>
      rw [runCalls_cons]
      refine ih (by rwa [rpm_run]) ?_
      by_cases hc : c.divides = true
      · exact .inl (frameRate_run c hr (.inr hc))
      · simp only [List.any_cons, hc, Bool.false_or] at h
        exact h.imp (fun h' => frameRate_run c hr (.inl h')) id

variable (F) in
/-- Over any sequence of calls `rpm_` never changes, so the divisions by it are defined exactly
when it is not zero at the start: a call traps exactly when it is a DIFOP packet with the right id
and `rpm_` is zero. With `rpm_ = 0` the decoder never changes. Otherwise, after a run that holds a
DIFOP packet with the right id, `pkts_per_frame_` is `1500 * 60 / rpm_` in single-return mode and
`3000 * 60 / rpm_` in dual-return mode, for the echo mode the run ends in. -/
theorem runCalls_rpm_divisions (cs : List Call) (d : Decoder32) :
    (runCalls F cs d).rpm = d.rpm ∧
      (∀ i (h : i < cs.length), cs[i].step F (runCalls F (cs.take i) d) = .error .divByZero ↔
        cs[i].divides = true ∧ d.rpm = 0) ∧
      (d.rpm = 0 → runCalls F cs d = d) ∧
      (d.rpm ≠ 0 → cs.any Call.divides = true →
        (runCalls F cs d).pktsPerFrame =
          ((if (runCalls F cs d).echoMode = rsEchoDual then 3000 else 1500) * 60 : ℤ).tdiv
            d.rpm) := by
  refine ⟨rpm_runCalls cs d, fun i h => ?_, fun hr => runCalls_of_rpm_eq_zero cs hr,
    fun hr hdiv => ?_⟩
  · rw [step_eq, rpm_runCalls]
    split_ifs with hc
    · exact iff_of_true rfl hc
    · exact iff_of_false (by simp) hc
  · have := frameRate_runCalls (F := F) cs hr (.inr hdiv)
    rwa [FrameRate, rpm_runCalls] at this

end

end Decoder32

end RsDriver
