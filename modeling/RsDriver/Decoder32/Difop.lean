import RsDriver.Decoder32.Basic

/-!
`Decoder32::decodeDifopPkt`: the echo mode, the packet rate, and the one-time load of the angle
tables from the packet's `pitch_cali` and `yaw_cali` entries.

The packet rate is `pkt_rate * 60 / rpm_`, an `int` division: with `rpm_ = 0` the call traps and
the program ends, after the id check and before the tables are looked at
(`decodeDifopPkt_of_rpm_eq_zero`). Otherwise one of two things happens: a wrong id returns `-2`
and changes nothing, and a right one returns 0 with the echo mode, the packet rate and the
calibration stage written.

Each entry is three bytes: a sign byte, then the magnitude big-endian in thousandths of a
degree. The loop that decodes them keeps the sign in a local `neg` declared once before it and
never reset: a sign byte of 0 sets it positive, 1 negative, and any other byte leaves the sign of
the entry decoded before, which may be the previous channel's yaw entry. `caliLoop_vert` states
the value of every entry with this carried sign (`negIn`), and `vert_sign_carried` shows two
packets that agree on an entry's three bytes and still decode it to opposite angles.
-/

namespace RsDriver

namespace Decoder32

/-- Whether the first entry of `pitch_cali` is blank: each of its three bytes `0x00` or
`0xFF`. -/
def RS32DifopPkt.blankCali (pkt : RS32DifopPkt) : Bool :=
  (pkt.pitch 0 = 0x00 || pkt.pitch 0 = 0xFF) && (pkt.pitch 1 = 0x00 || pkt.pitch 1 = 0xFF) &&
    (pkt.pitch 2 = 0x00 || pkt.pitch 2 = 0xFF)

/-- Whether `decodeDifopPkt` loads the tables from `pkt` when bit `0x2` is clear: the id
matches and the first entry is not blank. -/
def RS32DifopPkt.loadsCali (pkt : RS32DifopPkt) : Bool := pkt.id = rs32DifopId && !pkt.blankCali

/-! ### The calibration loop -/

/-- The locals the calibration loop carries from one entry to the next: the sign `neg` and the
two tables it writes. -/
structure CaliLoop where
  neg : ℤ
  vert : ℕ → ℚ
  hori : ℕ → ℚ

/-- `neg` after the sign byte `lsb`: 0 makes it positive, 1 negative, any other byte leaves
it. -/
def nextNeg (lsb : ℕ) (neg : ℤ) : ℤ := if lsb = 0 then 1 else if lsb = 1 then -1 else neg

section

variable (F : FloatRounding)

/-- `(mid * 256 + msb) * neg * 0.1f`: the product of `int`s, converted to `float` and
scaled. -/
def caliValue (mid msb : ℕ) (neg : ℤ) : ℚ :=
  F.mul (F.ofInt ((mid * 256 + msb : ℕ) * neg)) floatTenth

/-- One turn of the loop: entry `i` of `pitch_cali`, then entry `i` of `yaw_cali`. -/
def caliStep (pkt : RS32DifopPkt) (i : ℕ) (l : CaliLoop) : CaliLoop :=
  let negVert := nextNeg (pkt.pitch (i * 3)) l.neg
  let negHori := nextNeg (pkt.yaw (i * 3)) negVert
  { neg := negHori
    vert := Function.update l.vert i
      (caliValue F (pkt.pitch (i * 3 + 1)) (pkt.pitch (i * 3 + 2)) negVert)
    hori := Function.update l.hori i
      (caliValue F (pkt.yaw (i * 3 + 1)) (pkt.yaw (i * 3 + 2)) negHori) }

/-- The loop from entry `i` with `n` entries to go. -/
def caliLoop (pkt : RS32DifopPkt) : ℕ → ℕ → CaliLoop → CaliLoop
  | 0, _, l => l
  | n + 1, i, l => caliLoop pkt n (i + 1) (caliStep F pkt i l)

/-- The branch of `decodeDifopPkt` that loads the tables: the loop over the 32 entries, from
`neg = 1`, then bit `0x2` set. -/
def loadDifopCali (pkt : RS32DifopPkt) (d : Decoder32) : Decoder32 :=
  let l := caliLoop F pkt 32 0 ⟨1, d.vertAngleList, d.horiAngleList⟩
  { d with vertAngleList := l.vert, horiAngleList := l.hori
           caliDataFlag := d.caliDataFlag ||| 2#32 }

/-- The calibration part of `decodeDifopPkt`: nothing once bit `0x2` is set or when the first
entry is blank, the load otherwise. -/
def caliStage (pkt : RS32DifopPkt) (d : Decoder32) : Decoder32 :=
  if d.caliReady then d else if pkt.blankCali then d else loadDifopCali F pkt d

end

/-- The echo mode of a return-mode byte: `0x01` and `0x02` are kept, any other byte is dual
return. -/
def echoModeOf (returnMode : UInt8) : ℕ :=
  if returnMode = 0x01 ∨ returnMode = 0x02 then returnMode.toNat else rsEchoDual

/-- `pkt_rate`: `ceil(RS32_POINTS_CHANNEL_PER_SECOND / RS32_BLOCKS_CHANNEL_PER_PKT)`, the `ceil`
of an `int` quotient, doubled in dual-return mode. -/
def pktRate (echoMode : ℕ) : ℤ :=
  let pktRate : ℤ := (rs32PointsChannelPerSecond / rs32BlocksChannelPerPkt : ℕ)
  if echoMode = rsEchoDual then pktRate * 2 else pktRate

theorem pktRate_eq (echoMode : ℕ) :
    pktRate echoMode = if echoMode = rsEchoDual then 3000 else 1500 := by
  unfold pktRate
  split_ifs <;> rfl

/-- The members `decodeDifopPkt` writes before the calibration when its division is defined:
`echo_mode_`, and `pkts_per_frame_ = ceil(pkt_rate * 60 / rpm_)`, the `ceil` of an `int`
quotient. -/
def setEchoMode (d : Decoder32) (echoMode : ℕ) : Decoder32 :=
  { d with echoMode, pktsPerFrame := (pktRate echoMode * 60).tdiv d.rpm }

@[simp] theorem caliReady_setEchoMode (d : Decoder32) (m : ℕ) :
    (d.setEchoMode m).caliReady = d.caliReady := rfl

@[simp] theorem tables_setEchoMode (d : Decoder32) (m : ℕ) :
    (d.setEchoMode m).tables = d.tables := rfl

@[simp] theorem vertAngleList_setEchoMode (d : Decoder32) (m : ℕ) :
    (d.setEchoMode m).vertAngleList = d.vertAngleList := rfl

@[simp] theorem horiAngleList_setEchoMode (d : Decoder32) (m : ℕ) :
    (d.setEchoMode m).horiAngleList = d.horiAngleList := rfl

/-- `Decoder32::decodeDifopPkt`: the value it returns and the decoder it leaves, or the trap of
`pkt_rate * 60 / this->rpm_` when `rpm_` is zero. The source writes `echo_mode_` just before
that division; a trap ends the program, so nothing can tell the two orders apart. -/
def decodeDifopPkt (F : FloatRounding) (pkt : RS32DifopPkt) (d : Decoder32) :
    Except Trap (ℤ × Decoder32) :=
  if pkt.id ≠ rs32DifopId then .ok (-2, d)
  else do
    let pktsPerFrame ← cDiv (pktRate (echoModeOf pkt.returnMode) * 60) d.rpm
    pure (0, caliStage F pkt { d with echoMode := echoModeOf pkt.returnMode, pktsPerFrame })

/-! ### What one call changes -/

section

variable {F : FloatRounding} {pkt : RS32DifopPkt} {d : Decoder32}

theorem decodeDifopPkt_of_ne (h : pkt.id ≠ rs32DifopId) : decodeDifopPkt F pkt d = .ok (-2, d) :=
  if_pos h

theorem decodeDifopPkt_of_eq (h : pkt.id = rs32DifopId) (hr : d.rpm ≠ 0) :
    decodeDifopPkt F pkt d =
      .ok (0, caliStage F pkt (d.setEchoMode (echoModeOf pkt.returnMode))) := by
  rw [decodeDifopPkt, if_neg (not_not.mpr h), cDiv_of_ne_zero _ hr]
  rfl

/-- With `rpm_ = 0` a packet with the right id traps. -/
theorem decodeDifopPkt_of_rpm_eq_zero (h : pkt.id = rs32DifopId) (hr : d.rpm = 0) :
    decodeDifopPkt F pkt d = .error .divByZero := by
  rw [decodeDifopPkt, if_neg (not_not.mpr h), hr, cDiv_zero]
  rfl

theorem caliReady_loadDifopCali : (loadDifopCali F pkt d).caliReady = true := by
  simp [loadDifopCali, caliReady, caliReady_or_two]

/-- The calibration stage writes the two tables and the flag, and no other member. -/
theorem caliStage_frame :
    ∃ vert hori flag, caliStage F pkt d =
      { d with vertAngleList := vert, horiAngleList := hori, caliDataFlag := flag } := by
  unfold caliStage loadDifopCali
  split_ifs <;> exact ⟨_, _, _, rfl⟩

theorem caliReady_caliStage : (caliStage F pkt d).caliReady = (d.caliReady || !pkt.blankCali) := by
  unfold caliStage
  split_ifs with hr hb <;> simp_all [caliReady_loadDifopCali]

theorem tables_caliStage (h : ¬(pkt.blankCali = false ∧ d.caliReady = false)) :
    (caliStage F pkt d).tables = d.tables := by
  unfold caliStage
  split_ifs with hr hb <;> simp_all

theorem caliStage_of_load (hb : pkt.blankCali = false) (hr : d.caliReady = false) :
    caliStage F pkt d = loadDifopCali F pkt d := by
  rw [caliStage, if_neg (by simp [hr]), if_neg (by simp [hb])]

/-- A loading packet with bit `0x2` clear and `rpm_` not zero returns 0 and loads. -/
theorem decodeDifopPkt_load (h : pkt.loadsCali = true) (hr : d.caliReady = false)
    (hrpm : d.rpm ≠ 0) :
    decodeDifopPkt F pkt d =
      .ok (0, loadDifopCali F pkt (d.setEchoMode (echoModeOf pkt.returnMode))) := by
  simp only [RS32DifopPkt.loadsCali, Bool.and_eq_true, decide_eq_true_eq,
    Bool.not_eq_true'] at h
  rw [decodeDifopPkt_of_eq h.1 hrpm, caliStage_of_load h.2 (by rwa [caliReady_setEchoMode])]

end

/-! ### The value of each entry -/

/-- The sign the loop carries into entry `k`, starting from `neg` at entry 0. -/
def negIn (pkt : RS32DifopPkt) (neg : ℤ) : ℕ → ℤ
  | 0 => neg
  | k + 1 => nextNeg (pkt.yaw (k * 3)) (nextNeg (pkt.pitch (k * 3)) (negIn pkt neg k))

theorem nextNeg_one_or (lsb : ℕ) {neg : ℤ} (h : neg = 1 ∨ neg = -1) :
    nextNeg lsb neg = 1 ∨ nextNeg lsb neg = -1 := by
  unfold nextNeg
  split_ifs <;> simp [h]

/-- A sign byte of 0 or 1 sets the sign whatever it was. -/
theorem nextNeg_of_le_one {lsb : ℕ} (h : lsb ≤ 1) (neg : ℤ) :
    nextNeg lsb neg = if lsb = 0 then 1 else -1 := by
  unfold nextNeg
  split_ifs <;> first | rfl | omega

/-- Started at `1`, the carried sign is `1` or `-1` at every entry. -/
theorem negIn_one_or (pkt : RS32DifopPkt) (k : ℕ) : negIn pkt 1 k = 1 ∨ negIn pkt 1 k = -1 := by
  induction k with
  | zero => exact .inl rfl
  | succ k ih => exact nextNeg_one_or _ (nextNeg_one_or _ ih)

/-- An entry decoded with a sign of `±1` is at most `6554` in magnitude: `65535 * 0.1f`, rounded
to `float`. -/
theorem caliValue_abs_le (F : FloatRounding) {mid msb : ℕ} (hmid : mid < 256) (hmsb : msb < 256)
    {neg : ℤ} (hneg : neg = 1 ∨ neg = -1) : |caliValue F mid msb neg| ≤ 6554 := by
  have hn : -65535 ≤ ((mid * 256 + msb : ℕ) : ℤ) * neg ∧
      ((mid * 256 + msb : ℕ) : ℤ) * neg ≤ 65535 := by
    rcases hneg with rfl | rfl <;> omega
  have hq : (-65535 : ℚ) ≤ (((mid * 256 + msb : ℕ) : ℤ) * neg : ℤ) ∧
      ((((mid * 256 + msb : ℕ) : ℤ) * neg : ℤ) : ℚ) ≤ 65535 := by exact_mod_cast hn
  have hft : (0 : ℚ) ≤ floatTenth := by norm_num [floatTenth]
  unfold caliValue FloatRounding.mul
  rw [F.ofInt_eq (by omega) (by omega), abs_le]
  constructor
  · refine le_trans (by norm_num) (F.le_rnd (n := -6554) (by norm_num) (by norm_num) ?_)
    calc ((-6554 : ℤ) : ℚ) ≤ -65535 * floatTenth := by norm_num [floatTenth]
      _ ≤ _ := mul_le_mul_of_nonneg_right hq.1 hft
  · refine le_trans (F.rnd_le (n := 6554) (by norm_num) (by norm_num) ?_) (by norm_num)
    calc _ ≤ 65535 * floatTenth := mul_le_mul_of_nonneg_right hq.2 hft
      _ ≤ ((6554 : ℤ) : ℚ) := by norm_num [floatTenth]

section

variable {F : FloatRounding} (pkt : RS32DifopPkt)

/-- After the loop over entries `[i, i + n)`, entry `k` of the vertical table is the one
decoded at turn `k` with the carried sign, or untouched outside the range. -/
theorem caliLoop_vert (neg₀ : ℤ) (n i : ℕ) (l : CaliLoop) (hl : l.neg = negIn pkt neg₀ i)
    (k : ℕ) :
    (caliLoop F pkt n i l).vert k =
      if i ≤ k ∧ k < i + n then
        caliValue F (pkt.pitch (k * 3 + 1)) (pkt.pitch (k * 3 + 2))
          (nextNeg (pkt.pitch (k * 3)) (negIn pkt neg₀ k))
      else l.vert k := by
  induction n generalizing i l with
  | zero => rw [if_neg (by omega)]; rfl
  | succ n ih =>
      rw [caliLoop, ih (i + 1) _ (by simp [caliStep, negIn, hl])]
      by_cases hk : k = i
      · subst hk; simp [caliStep, hl]
      · have : (i ≤ k ∧ k < i + (n + 1)) ↔ (i + 1 ≤ k ∧ k < i + 1 + n) := by omega
        simp [caliStep, hk, this]

theorem caliLoop_hori (neg₀ : ℤ) (n i : ℕ) (l : CaliLoop) (hl : l.neg = negIn pkt neg₀ i)
    (k : ℕ) :
    (caliLoop F pkt n i l).hori k =
      if i ≤ k ∧ k < i + n then
        caliValue F (pkt.yaw (k * 3 + 1)) (pkt.yaw (k * 3 + 2)) (negIn pkt neg₀ (k + 1))
      else l.hori k := by
  induction n generalizing i l with
  | zero => rw [if_neg (by omega)]; rfl
  | succ n ih =>
      rw [caliLoop, ih (i + 1) _ (by simp [caliStep, negIn, hl])]
      by_cases hk : k = i
      · subst hk; simp [caliStep, hl, negIn]
      · have : (i ≤ k ∧ k < i + (n + 1)) ↔ (i + 1 ≤ k ∧ k < i + 1 + n) := by omega
        simp [caliStep, hk, this]

end

/-! ### After a load -/

section

variable {F : FloatRounding} {pkt : RS32DifopPkt} {d : Decoder32}

/-- After a load, the vertical angle of channel `i` is its own magnitude bytes with the sign the
loop carries into its entry. -/
theorem vertAngleList_loadDifopCali {i : ℕ} (hi : i < 32) :
    (loadDifopCali F pkt d).vertAngleList i =
      caliValue F (pkt.pitch (i * 3 + 1)) (pkt.pitch (i * 3 + 2))
        (nextNeg (pkt.pitch (i * 3)) (negIn pkt 1 i)) := by
  show (caliLoop F pkt 32 0 ⟨1, d.vertAngleList, d.horiAngleList⟩).vert i = _
  rw [caliLoop_vert pkt 1 32 0 _ rfl, if_pos ⟨Nat.zero_le _, by omega⟩]

/-- After a load, the horizontal angle of channel `i` is its own magnitude bytes with the sign
carried out of its entry: the one its own sign byte leaves. -/
theorem horiAngleList_loadDifopCali {i : ℕ} (hi : i < 32) :
    (loadDifopCali F pkt d).horiAngleList i =
      caliValue F (pkt.yaw (i * 3 + 1)) (pkt.yaw (i * 3 + 2)) (negIn pkt 1 (i + 1)) := by
  show (caliLoop F pkt 32 0 ⟨1, d.vertAngleList, d.horiAngleList⟩).hori i = _
  rw [caliLoop_hori pkt 1 32 0 _ rfl, if_pos ⟨Nat.zero_le _, by omega⟩]

/-- The calibration stage writes no table entry from 32 on. -/
theorem caliStage_of_ge {k : ℕ} (hk : 32 ≤ k) :
    (caliStage F pkt d).vertAngleList k = d.vertAngleList k ∧
      (caliStage F pkt d).horiAngleList k = d.horiAngleList k := by
  unfold caliStage
  split_ifs
  · exact ⟨rfl, rfl⟩
  · exact ⟨rfl, rfl⟩
  · exact ⟨(caliLoop_vert pkt 1 32 0 _ rfl k).trans (if_neg (by omega)),
      (caliLoop_hori pkt 1 32 0 _ rfl k).trans (if_neg (by omega))⟩

/-- When a packet loads, with bit `0x2` clear and `rpm_` not zero, the call returns 0, and an
entry whose own sign byte is 0 or 1 gets the sign that byte gives, in either table, whatever the
bytes before it. -/
theorem tables_load_of_sign (h : pkt.loadsCali = true) (hr : d.caliReady = false)
    (hrpm : d.rpm ≠ 0) {i : ℕ} (hi : i < 32) :
    ∃ d', decodeDifopPkt F pkt d = .ok (0, d') ∧
      (pkt.pitch (i * 3) ≤ 1 → d'.vertAngleList i =
        caliValue F (pkt.pitch (i * 3 + 1)) (pkt.pitch (i * 3 + 2))
          (if pkt.pitch (i * 3) = 0 then 1 else -1)) ∧
      (pkt.yaw (i * 3) ≤ 1 → d'.horiAngleList i =
        caliValue F (pkt.yaw (i * 3 + 1)) (pkt.yaw (i * 3 + 2))
          (if pkt.yaw (i * 3) = 0 then 1 else -1)) := by
  refine ⟨_, decodeDifopPkt_load h hr hrpm, fun hp => ?_, fun hy => ?_⟩
  · rw [vertAngleList_loadDifopCali hi, nextNeg_of_le_one hp]
  · rw [horiAngleList_loadDifopCali hi, negIn, nextNeg_of_le_one hy]

/-- Every entry a load writes is at most `6554` in magnitude, in both tables. -/
theorem loadDifopCali_abs_le {i : ℕ} (hi : i < 32) :
    |(loadDifopCali F pkt d).vertAngleList i| ≤ 6554 ∧
      |(loadDifopCali F pkt d).horiAngleList i| ≤ 6554 := by
  rw [vertAngleList_loadDifopCali hi, horiAngleList_loadDifopCali hi]
  exact ⟨caliValue_abs_le F (pkt.pitch_lt _) (pkt.pitch_lt _)
      (nextNeg_one_or _ (negIn_one_or ..)),
    caliValue_abs_le F (pkt.yaw_lt _) (pkt.yaw_lt _) (negIn_one_or ..)⟩

end

/-- Two DIFOP packets that differ only in the sign byte of channel 0's yaw entry. Their pitch
entries for channels 0 and 1 are `(0, 0, 1)` and `(2, 0, 10)`: channel 1's sign byte is neither
0 nor 1. -/
def signPkt (yawSign : UInt8) : RS32DifopPkt where
  id := rs32DifopId
  returnMode := 1
  pitchCali k := if k.val = 2 then 1 else if k.val = 3 then 2 else if k.val = 5 then 10 else 0
  yawCali k := if k.val = 0 then yawSign else 0

/-- The two packets agree on all three bytes of channel 1's pitch entry, yet a fresh decoder
returns 0 on each and loads opposite vertical angles for channel 1 from them: the sign of the
yaw entry decoded just before is carried into it. -/
theorem vert_sign_carried (F : FloatRounding) :
    (∀ k < 3, (signPkt 0).pitch (3 + k) = (signPkt 1).pitch (3 + k)) ∧
      ∃ d₀ d₁, decodeDifopPkt F (signPkt 0) (fresh 1) = .ok (0, d₀) ∧
        decodeDifopPkt F (signPkt 1) (fresh 1) = .ok (0, d₁) ∧
        d₀.vertAngleList 1 = caliValue F 0 10 1 ∧ d₁.vertAngleList 1 = caliValue F 0 10 (-1) ∧
        d₀.vertAngleList 1 ≠ d₁.vertAngleList 1 := by
  have h₀ : (loadDifopCali F (signPkt 0)
      ((fresh 1).setEchoMode (echoModeOf (signPkt 0).returnMode))).vertAngleList 1 =
      caliValue F 0 10 1 := by
    rw [vertAngleList_loadDifopCali (by norm_num)]
    congr 1
  have h₁ : (loadDifopCali F (signPkt 1)
      ((fresh 1).setEchoMode (echoModeOf (signPkt 1).returnMode))).vertAngleList 1 =
      caliValue F 0 10 (-1) := by
    rw [vertAngleList_loadDifopCali (by norm_num)]
    congr 1
  have hpos : (1 : ℤ) ≤ caliValue F 0 10 1 := by
    simp only [caliValue, FloatRounding.mul]
    rw [F.ofInt_eq (by norm_num) (by norm_num)]
    exact F.le_rnd (by norm_num) (by norm_num) (by norm_num [floatTenth])
  have hneg : caliValue F 0 10 (-1) ≤ (-1 : ℤ) := by
    simp only [caliValue, FloatRounding.mul]
    rw [F.ofInt_eq (by norm_num) (by norm_num)]
    exact F.rnd_le (by norm_num) (by norm_num) (by norm_num [floatTenth])
  refine ⟨by decide, _, _, decodeDifopPkt_load (by decide) (by decide) (by decide),
    decodeDifopPkt_load (by decide) (by decide) (by decide), h₀, h₁, ?_⟩
  rw [h₀, h₁]
  push_cast at hpos hneg
  exact ne_of_gt (by linarith)

theorem signPkt_tables_load_of_sign :
    (signPkt 0).loadsCali = true ∧ (fresh 1).caliReady = false ∧ (fresh 1).rpm ≠ 0 ∧ 0 < 32 ∧
      ∃ d', decodeDifopPkt .exact (signPkt 0) (fresh 1) = .ok (0, d') ∧
        ((signPkt 0).pitch (0 * 3) ≤ 1 → d'.vertAngleList 0 =
          caliValue .exact ((signPkt 0).pitch (0 * 3 + 1)) ((signPkt 0).pitch (0 * 3 + 2))
            (if (signPkt 0).pitch (0 * 3) = 0 then 1 else -1)) ∧
        ((signPkt 0).yaw (0 * 3) ≤ 1 → d'.horiAngleList 0 =
          caliValue .exact ((signPkt 0).yaw (0 * 3 + 1)) ((signPkt 0).yaw (0 * 3 + 2))
            (if (signPkt 0).yaw (0 * 3) = 0 then 1 else -1)) :=
  ⟨by decide, by decide, by decide, by norm_num,
    @tables_load_of_sign .exact (signPkt 0) (fresh 1) (by decide) (by decide) (by decide) 0
      (by norm_num)⟩

end Decoder32

end RsDriver
