import RsDriver.Decoder32.Difop
import RsDriver.Decoder32.Msop

/-!
A decoder's lifetime: any sequence of `decodeDifopPkt` and `decodeMsopPkt` calls on any packets.

A call either leaves a decoder or traps, and a trap ends the program (`runCalls`). Only a DIFOP
packet with the right id can trap, and it does exactly when `rpm_` is zero; no call writes
`rpm_`, and with `rpm_ = 0` no call changes the decoder before the trap either
(`runCalls_of_rpm_eq_zero`). So stopping at the trap and going on with the same decoder give the
same states (`runCalls_cons`), and the run lemmas below are inductions over the calls.

The angle tables are the only state a DIFOP call may rewrite in bulk, and the only write is the
load. One step is summed up by two facts: bit `0x2` after a call is the bit before it or the
call's `loadsCali` when `rpm_` is not zero, and a call that does not load leaves both tables. By
induction over the sequence the bit is a disjunction over the calls made so far, so it is never
cleared, and the tables change at one call at most: the first loading DIFOP packet, and only when
the decoder started with the bit clear and a non-zero `rpm_`.
-/

namespace RsDriver

namespace Decoder32

/-- A call into the decoder. -/
inductive Call
  | difop (pkt : RS32DifopPkt)
  | msop (pkt : RS32MsopPkt) (vec : List VPoint)

/-- Whether the call loads the tables when bit `0x2` is clear and `rpm_` is not zero. -/
def Call.loads : Call → Bool
  | .difop pkt => pkt.loadsCali
  | .msop _ _ => false

/-- Whether the call divides by `rpm_`: a DIFOP packet with the right id. -/
def Call.divides : Call → Bool
  | .difop pkt => pkt.id = rs32DifopId
  | .msop _ _ => false

/-- The call: the decoder it leaves, or the trap that ends the program. `decodeMsopPkt` writes no
member of the decoder: what it computes goes to the caller's vector and return value. -/
def Call.step (F : FloatRounding) : Call → Decoder32 → Except Trap Decoder32
  | .difop pkt, d => Prod.snd <$> decodeDifopPkt F pkt d
  | .msop _ _, d => .ok d

/-- The decoder after the call, or the one it was given if it traps. -/
def Call.run (F : FloatRounding) (c : Call) (d : Decoder32) : Decoder32 :=
  match c.step F d with
  | .ok d' => d'
  | .error _ => d

/-- The decoder after a sequence of calls. The program ends at the first call that traps, and the
decoder is then the one that call was given. -/
def runCalls (F : FloatRounding) : List Call → Decoder32 → Decoder32
  | [], d => d
  | c :: cs, d =>
      match c.step F d with
      | .ok d' => runCalls F cs d'
      | .error _ => d

/-- The position of the call that loads the tables in a run from `d`: the first loading DIFOP
packet, provided bit `0x2` is clear at the start and `rpm_` is not zero. With `rpm_ = 0` that
packet traps before it loads. -/
def firstLoad (d : Decoder32) (cs : List Call) : Option ℕ :=
  if d.caliReady = true ∨ d.rpm = 0 then none else cs.findIdx? Call.loads

section

variable {F : FloatRounding}

/-! ### One call -/

/-- A DIFOP packet returns `-2` on a wrong id, traps on `rpm_ = 0`, and otherwise writes the echo
mode, the packet rate and the calibration stage. -/
theorem step_difop (pkt : RS32DifopPkt) (d : Decoder32) :
    (Call.difop pkt).step F d =
      if pkt.id = rs32DifopId then
        if d.rpm = 0 then .error .divByZero
        else .ok (caliStage F pkt (d.setEchoMode (echoModeOf pkt.returnMode)))
      else .ok d := by
  by_cases hid : pkt.id = rs32DifopId
  · by_cases hr : d.rpm = 0
    · rw [if_pos hid, if_pos hr, Call.step, decodeDifopPkt_of_rpm_eq_zero hid hr]
      rfl
    · rw [if_pos hid, if_neg hr, Call.step, decodeDifopPkt_of_eq hid hr]
      rfl
  · rw [if_neg hid, Call.step, decodeDifopPkt_of_ne hid]
    rfl

/-- What a DIFOP packet leaves: the decoder it was given unless it has the right id and `rpm_` is
not zero. -/
theorem run_difop (pkt : RS32DifopPkt) (d : Decoder32) :
    (Call.difop pkt).run F d =
      if pkt.id = rs32DifopId ∧ d.rpm ≠ 0 then
        caliStage F pkt (d.setEchoMode (echoModeOf pkt.returnMode))
      else d := by
  rw [Call.run, step_difop]
  split_ifs <;> simp_all

/-- A call traps exactly when it divides by a zero `rpm_`; otherwise it leaves `c.run F d`. -/
theorem step_eq (c : Call) (d : Decoder32) :
    c.step F d = if c.divides = true ∧ d.rpm = 0 then .error .divByZero else .ok (c.run F d) := by
  cases c with
  | msop _ _ => rfl
  | difop pkt =>
      rw [run_difop, step_difop]
      split_ifs <;> simp_all [Call.divides]

theorem rpm_run (c : Call) (d : Decoder32) : (c.run F d).rpm = d.rpm := by
  cases c with
  | msop _ _ => rfl
  | difop pkt =>
      rw [run_difop]
      split_ifs
      · obtain ⟨_, _, _, h⟩ := @caliStage_frame F pkt (d.setEchoMode (echoModeOf pkt.returnMode))
        rw [h]
        rfl
      · rfl

/-- With `rpm_ = 0` a call changes nothing: it returns `-2`, decodes into the caller's vector, or
traps. -/
theorem run_of_rpm_eq_zero (c : Call) {d : Decoder32} (hr : d.rpm = 0) : c.run F d = d := by
  cases c with
  | msop _ _ => rfl
  | difop pkt => rw [run_difop, if_neg (fun h => h.2 hr)]

/-- A loading DIFOP packet, with bit `0x2` clear and `rpm_` not zero, loads. -/
theorem run_difop_load {pkt : RS32DifopPkt} {d : Decoder32} (h : pkt.loadsCali = true)
    (hr : d.caliReady = false) (hrpm : d.rpm ≠ 0) :
    (Call.difop pkt).run F d = loadDifopCali F pkt (d.setEchoMode (echoModeOf pkt.returnMode)) := by
  rw [Call.run, Call.step, decodeDifopPkt_load h hr hrpm]
  rfl

theorem caliReady_run (c : Call) (d : Decoder32) :
    (c.run F d).caliReady = (d.caliReady || (c.loads && decide (d.rpm ≠ 0))) := by
  cases c with
  | msop _ _ => simp [Call.run, Call.step, Call.loads]
  | difop pkt =>
      rw [run_difop]
      split_ifs with h
      · simp [caliReady_caliStage, Call.loads, RS32DifopPkt.loadsCali, h.1, h.2]
      · by_cases hid : pkt.id = rs32DifopId
        · have hr : d.rpm = 0 := not_not.mp fun h' => h ⟨hid, h'⟩
          simp [Call.loads, hr]
        · simp [Call.loads, RS32DifopPkt.loadsCali, hid]

theorem tables_run (c : Call) (d : Decoder32)
    (h : ¬(c.loads = true ∧ d.caliReady = false ∧ d.rpm ≠ 0)) :
    (c.run F d).tables = d.tables := by
  cases c with
  | msop _ _ => rfl
  | difop pkt =>
      rw [run_difop]
      split_ifs with hc
      · rw [tables_caliStage fun ⟨hb, hr⟩ => h ⟨by simp [Call.loads, RS32DifopPkt.loadsCali,
          hc.1, hb], by simpa using hr, hc.2⟩, tables_setEchoMode]
      · rfl

/-! ### Runs -/

/-- With `rpm_ = 0` a run changes nothing, up to the trap and after it. -/
theorem runCalls_of_rpm_eq_zero (cs : List Call) {d : Decoder32} (hr : d.rpm = 0) :
    runCalls F cs d = d := by
  induction cs with
  | nil => rfl
  | cons c cs ih =>
      rw [runCalls, step_eq]
      split_ifs
      · rfl
      · rw [run_of_rpm_eq_zero c hr]
        exact ih

/-- Stopping at a trap and going on with the same decoder agree: a run is the calls one after
the other. -/
theorem runCalls_cons (c : Call) (cs : List Call) (d : Decoder32) :
    runCalls F (c :: cs) d = runCalls F cs (c.run F d) := by
  rw [runCalls, step_eq]
  split_ifs with h
  · rw [run_of_rpm_eq_zero c h.2, runCalls_of_rpm_eq_zero cs h.2]
  · rfl

theorem runCalls_append (cs cs' : List Call) (d : Decoder32) :
    runCalls F (cs ++ cs') d = runCalls F cs' (runCalls F cs d) := by
  induction cs generalizing d with
  | nil => rfl
  | cons c cs ih => rw [List.cons_append, runCalls_cons, runCalls_cons, ih]

theorem runCalls_take_succ (cs : List Call) (d : Decoder32) {i : ℕ} (h : i < cs.length) :
    runCalls F (cs.take (i + 1)) d = cs[i].run F (runCalls F (cs.take i) d) := by
  rw [List.take_succ, List.getElem?_eq_getElem h, runCalls_append, Option.toList_some,
    runCalls_cons]
  rfl

theorem rpm_runCalls (cs : List Call) (d : Decoder32) : (runCalls F cs d).rpm = d.rpm := by
  induction cs generalizing d with
  | nil => rfl
  | cons c cs ih => rw [runCalls_cons, ih, rpm_run]

/-- The bit after a run is the bit before it, or a loading call in the run when `rpm_` is not
zero. -/
theorem caliReady_runCalls (cs : List Call) (d : Decoder32) :
    (runCalls F cs d).caliReady = (d.caliReady || (decide (d.rpm ≠ 0) && cs.any Call.loads)) := by
  induction cs generalizing d with
  | nil => simp [runCalls]
  | cons c cs ih =>
      rw [runCalls_cons, ih, caliReady_run, rpm_run, List.any_cons]
      by_cases hr : d.rpm = 0 <;> simp [hr, Bool.or_assoc]

/-- With bit `0x2` set, a run leaves both tables as they are. -/
theorem tables_runCalls_of_caliReady (cs : List Call) {d : Decoder32}
    (hr : d.caliReady = true) : (runCalls F cs d).tables = d.tables := by
  induction cs generalizing d with
  | nil => rfl
  | cons c cs ih =>
      rw [runCalls_cons, ih (by rw [caliReady_run, hr, Bool.true_or]),
        tables_run c d (fun h => by simp [hr] at h)]

/-- A run without a loading call leaves both tables as they are. -/
theorem tables_runCalls_of_any_loads (cs : List Call) {d : Decoder32}
    (h : cs.any Call.loads = false) : (runCalls F cs d).tables = d.tables := by
  induction cs generalizing d with
  | nil => rfl
  | cons c cs ih =>
      rw [List.any_cons, Bool.or_eq_false_iff] at h
      rw [runCalls_cons, ih h.2, tables_run c d fun h' => by simp [h.1] at h']

/-- No call writes a table entry from 32 on. -/
theorem run_of_ge (c : Call) (d : Decoder32) {k : ℕ} (hk : 32 ≤ k) :
    (c.run F d).vertAngleList k = d.vertAngleList k ∧
      (c.run F d).horiAngleList k = d.horiAngleList k := by
  cases c with
  | msop _ _ => exact ⟨rfl, rfl⟩
  | difop pkt =>
      rw [run_difop]
      split_ifs
      · exact caliStage_of_ge hk
      · exact ⟨rfl, rfl⟩

theorem runCalls_of_ge (cs : List Call) (d : Decoder32) {k : ℕ} (hk : 32 ≤ k) :
    (runCalls F cs d).vertAngleList k = d.vertAngleList k ∧
      (runCalls F cs d).horiAngleList k = d.horiAngleList k := by
  induction cs generalizing d with
  | nil => exact ⟨rfl, rfl⟩
  | cons c cs ih =>
      rw [runCalls_cons, (ih _).1, (ih _).2]
      exact run_of_ge c d hk

/-- `firstLoad` names a call exactly when bit `0x2` is clear and `rpm_` is not zero at the start,
the call loads, and no call before it does. -/
theorem firstLoad_eq_some_iff {d : Decoder32} {cs : List Call} {i : ℕ} :
    firstLoad d cs = some i ↔ d.caliReady = false ∧ d.rpm ≠ 0 ∧
      ∃ h : i < cs.length, cs[i].loads = true ∧ (cs.take i).any Call.loads = false := by
  unfold firstLoad
  split_ifs with hc
  · refine iff_of_false (by simp) fun ⟨hr, hrpm, _⟩ => ?_
    rcases hc with hc | hc
    · simp [hr] at hc
    · exact hrpm hc
  · rw [not_or, Bool.not_eq_true] at hc
    rw [List.findIdx?_eq_some_iff_getElem, List.any_eq_false]
    simp only [hc.1, hc.2, ne_eq, not_false_eq_true, true_and]
    refine exists_congr fun h => and_congr_right fun _ => ⟨fun hj c hc => ?_, fun hall j hj => ?_⟩
    · obtain ⟨j, hj', rfl⟩ := List.getElem_of_mem hc
      simp only [List.length_take] at hj'
      rw [List.getElem_take]
      exact hj j (by omega)
    · have := hall _ (List.getElem_mem (l := cs.take i) (n := j) (by simp; omega))
      rwa [List.getElem_take] at this

/-- Over any sequence of DIFOP and MSOP calls from any decoder, bit `0x2` of
`cali_data_flag_` is never cleared once set, and every call leaves both angle tables as they
were except the one at `firstLoad`: the first DIFOP packet with the right id and a non-blank
first entry, taken only when the bit was clear at the start and `rpm_` is not zero (with
`rpm_ = 0` the first DIFOP packet with the right id traps and nothing is loaded). That call comes
with the bit still clear and sets it. -/
theorem calibration_loaded_once (d : Decoder32) (cs : List Call) :
    (∀ i j, i ≤ j → (runCalls F (cs.take i) d).caliReady = true →
        (runCalls F (cs.take j) d).caliReady = true) ∧
      (∀ i < cs.length, firstLoad d cs ≠ some i →
        (runCalls F (cs.take (i + 1)) d).tables = (runCalls F (cs.take i) d).tables) ∧
      (∀ i, firstLoad d cs = some i →
        (runCalls F (cs.take i) d).caliReady = false ∧
          (runCalls F (cs.take (i + 1)) d).caliReady = true) := by
  refine ⟨fun i j hij hi => ?_, fun i h hne => ?_, fun i hi => ?_⟩
  · rw [caliReady_runCalls] at hi ⊢
    rcases Bool.or_eq_true_iff.mp hi with hd | ha
    · simp [hd]
    · obtain ⟨hr, ha⟩ := Bool.and_eq_true_iff.mp ha
      obtain ⟨c, hc, hl⟩ := List.any_eq_true.mp ha
      simp only [Bool.or_eq_true, Bool.and_eq_true, List.any_eq_true]
      exact .inr ⟨hr, c, (List.take_prefix_take_left cs hij).subset hc, hl⟩
  · rw [runCalls_take_succ cs d h]
    refine tables_run _ _ fun ⟨hl, hr, hrpm⟩ => hne ?_
    rw [rpm_runCalls] at hrpm
    rw [caliReady_runCalls, Bool.or_eq_false_iff, decide_eq_true hrpm, Bool.true_and] at hr
    exact firstLoad_eq_some_iff.mpr ⟨hr.1, hrpm, h, hl, hr.2⟩
  · obtain ⟨hr, hrpm, h, hl, hpre⟩ := firstLoad_eq_some_iff.mp hi
    rw [runCalls_take_succ cs d h, caliReady_run, caliReady_runCalls, rpm_runCalls, hr, hpre]
    simp [hl, hrpm]

variable (F) in
/-- The tables at the end of any run from a decoder with bit `0x2` clear and `rpm_` not zero. No
entry from 32 on is ever written. If the run holds a loading DIFOP packet, entry `k < 32` of each
table is decoded from the bytes of the first such packet alone, whatever the decoder held before
and whatever the other calls were; if it holds none, both tables are as they were. -/
theorem runCalls_tables (cs : List Call) (d : Decoder32) (hr : d.caliReady = false)
    (hrpm : d.rpm ≠ 0) :
    (∀ k, 32 ≤ k → (runCalls F cs d).vertAngleList k = d.vertAngleList k ∧
        (runCalls F cs d).horiAngleList k = d.horiAngleList k) ∧
      (∀ i pkt, firstLoad d cs = some i → cs[i]? = some (.difop pkt) → ∀ k < 32,
        (runCalls F cs d).vertAngleList k =
            caliValue F (pkt.pitch (k * 3 + 1)) (pkt.pitch (k * 3 + 2))
              (nextNeg (pkt.pitch (k * 3)) (negIn pkt 1 k)) ∧
          (runCalls F cs d).horiAngleList k =
            caliValue F (pkt.yaw (k * 3 + 1)) (pkt.yaw (k * 3 + 2)) (negIn pkt 1 (k + 1))) ∧
      (firstLoad d cs = none → (runCalls F cs d).tables = d.tables) := by
  refine ⟨fun k hk => runCalls_of_ge cs d hk, fun i pkt hi hpkt k hk => ?_, fun hn => ?_⟩
  · obtain ⟨-, -, h, hl, hpre⟩ := firstLoad_eq_some_iff.mp hi
    have hci : cs[i] = .difop pkt := by
      rwa [List.getElem?_eq_getElem h, Option.some.injEq] at hpkt
    have hready : (runCalls F (cs.take i) d).caliReady = false := by
      rw [caliReady_runCalls, hr, hpre]
      simp
    rw [hci] at hl
    rw [← List.take_append_drop (i + 1) cs, runCalls_append, runCalls_take_succ cs d h, hci,
      run_difop_load hl hready (by rwa [rpm_runCalls])]
    have hkeep := @tables_runCalls_of_caliReady F (cs.drop (i + 1)) _
      (@caliReady_loadDifopCali F pkt ((runCalls F (cs.take i) d).setEchoMode
        (echoModeOf pkt.returnMode)))
    simp only [tables, Prod.mk.injEq] at hkeep
    rw [hkeep.1, hkeep.2]
    exact ⟨vertAngleList_loadDifopCali hk, horiAngleList_loadDifopCali hk⟩
  · rw [firstLoad, if_neg (by simp [hr, hrpm]), List.findIdx?_eq_none_iff] at hn
    exact tables_runCalls_of_any_loads cs (List.any_eq_false.mpr fun c hc => by simp [hn c hc])

theorem signPkt_runCalls_tables :
    (fresh 1).caliReady = false ∧ (fresh 1).rpm ≠ 0 ∧
      (∀ k, 32 ≤ k →
        (runCalls .exact [.difop (signPkt 0), .difop (signPkt 1)] (fresh 1)).vertAngleList k =
            (fresh 1).vertAngleList k ∧
          (runCalls .exact [.difop (signPkt 0), .difop (signPkt 1)] (fresh 1)).horiAngleList k =
            (fresh 1).horiAngleList k) ∧
      (∀ i pkt, firstLoad (fresh 1) [.difop (signPkt 0), .difop (signPkt 1)] = some i →
        [Call.difop (signPkt 0), .difop (signPkt 1)][i]? = some (.difop pkt) → ∀ k < 32,
        (runCalls .exact [.difop (signPkt 0), .difop (signPkt 1)] (fresh 1)).vertAngleList k =
            caliValue .exact (pkt.pitch (k * 3 + 1)) (pkt.pitch (k * 3 + 2))
              (nextNeg (pkt.pitch (k * 3)) (negIn pkt 1 k)) ∧
          (runCalls .exact [.difop (signPkt 0), .difop (signPkt 1)] (fresh 1)).horiAngleList k =
            caliValue .exact (pkt.yaw (k * 3 + 1)) (pkt.yaw (k * 3 + 2)) (negIn pkt 1 (k + 1))) ∧
      (firstLoad (fresh 1) [.difop (signPkt 0), .difop (signPkt 1)] = none →
        (runCalls .exact [.difop (signPkt 0), .difop (signPkt 1)] (fresh 1)).tables =
          (fresh 1).tables) :=
  ⟨by decide, by decide, runCalls_tables .exact _ _ (by decide) (by decide)⟩

end

end Decoder32

end RsDriver
