import RsDriver.Decoder32.Msop

/-!
The azimuth arithmetic of `decodeMsopPkt` over every value the packet's 16-bit azimuth fields
can hold, not only the sensor's `[0, 36000)`.

The delta `(36000 + azi_prev - azi_cur) % 36000` is a C++ remainder, so it takes the sign of the
dividend: it is negative exactly when `azi_cur > azi_prev + 36000`, which a malformed packet can
produce and a well-formed one cannot. The interpolated azimuth of a channel still stays above
`-26582`, and that is what keeps every index into the 36000-entry lookup tables in range.
-/

namespace RsDriver

namespace Decoder32

/-! ### The pairing -/

/-- The paired block is a block of the packet: `blocks[blk_idx ± 1]` and `blocks[blk_idx ± 2]`
are never read past either end. -/
theorem pairedBlock_lt (dual : Bool) {b : ℕ} (hb : b < 12) : pairedBlock dual b < 12 := by
  unfold pairedBlock rs32BlocksPerPkt; split_ifs <;> omega

theorem aziPrevCur_bounds (dual : Bool) (pkt : RS32MsopPkt) (b : ℕ) :
    0 ≤ (aziPrevCur dual pkt b).1 ∧ (aziPrevCur dual pkt b).1 ≤ 65535 ∧
      0 ≤ (aziPrevCur dual pkt b).2 ∧ (aziPrevCur dual pkt b).2 ≤ 65535 := by
  obtain ⟨i, j, h⟩ : ∃ i j, aziPrevCur dual pkt b = (pkt.azimuth i, pkt.azimuth j) := by
    unfold aziPrevCur; split_ifs <;> exact ⟨_, _, rfl⟩
  rw [h]
  exact ⟨pkt.azimuth_nonneg i, pkt.azimuth_le i, pkt.azimuth_nonneg j, pkt.azimuth_le j⟩

/-! ### The delta -/

theorem azimuthDiff_lt (p : ℤ × ℤ) : azimuthDiff p < 36000 := tmod_lt_self _ (by norm_num)

theorem neg_lt_azimuthDiff (p : ℤ × ℤ) : -36000 < azimuthDiff p := neg_lt_tmod _ (by norm_num)

/-- On 16-bit azimuths the delta is at least `36000 - 65535`. -/
theorem azimuthDiff_ge {p : ℤ × ℤ} (h₁ : 0 ≤ p.1) (h₂ : p.2 ≤ 65535) :
    -29535 ≤ azimuthDiff p :=
  le_tmod (by norm_num) (by norm_num) (by omega)

/-- On 16-bit azimuths the delta is non-negative exactly when `azi_cur ≤ azi_prev + 36000`. -/
theorem azimuthDiff_nonneg_iff {p : ℤ × ℤ} (h₁ : 0 ≤ p.1) (h₂ : p.2 ≤ 65535) :
    0 ≤ azimuthDiff p ↔ p.2 ≤ p.1 + 36000 := by
  constructor
  · intro h
    by_contra hlt
    have := tmod_eq_self_of_neg (a := 36000 + p.1 - p.2) (b := 36000) (by omega) (by omega)
    unfold azimuthDiff at h; omega
  · intro h
    exact Int.tmod_nonneg _ (by omega)

/-! ### The interpolated azimuth -/

section

variable {F : FloatRounding}

/-- The `float` operations of the interpolation are exact up to the division, so that
`azimuth_channel` is `azimuth_blk + q` rounded, with `q` the rounded quotient of
`azimuth_diff * 3 * (channel_idx % 16)` by 50. -/
theorem azimuthChannel_eq {blk diff : ℤ} (hblk : 0 ≤ blk ∧ blk ≤ 65535)
    (hdiff : -36000 ≤ diff ∧ diff ≤ 36000) (c : ℕ) :
    azimuthChannel F blk diff c =
      F.rnd (blk + F.rnd (((diff * 3 * (c % 16 : ℕ) : ℤ) : ℚ) / 50)) := by
  have hm : (c % 16 : ℕ) < 16 := Nat.mod_lt _ (by norm_num)
  have hm' : 0 ≤ ((c % 16 : ℕ) : ℤ) ∧ ((c % 16 : ℕ) : ℤ) < 16 := ⟨by omega, by omega⟩
  have h₁ : -2 ^ 24 ≤ diff * 3 * (c % 16 : ℕ) ∧ diff * 3 * (c % 16 : ℕ) ≤ 2 ^ 24 := by
    constructor <;> nlinarith
  simp only [azimuthChannel, rs32ChannelToffset, rs32FiringTduration, Nat.cast_ofNat]
  rw [F.ofInt_eq (n := diff) (by omega) (by omega), F.ofInt_eq (n := 3) (by norm_num) (by norm_num),
    F.mul_intCast (by omega) (by omega), F.ofInt_eq (n := ((c % 16 : ℕ) : ℤ)) (by omega) (by omega),
    F.mul_intCast h₁.1 h₁.2, F.ofInt_eq (n := 50) (by norm_num) (by norm_num),
    F.ofInt_eq (n := blk) (by omega) (by omega)]
  simp only [FloatRounding.add, FloatRounding.div, Int.cast_ofNat]

/-- However malformed the packet, a channel's azimuth stays above `-26582`: the delta is at least
`-29535` and the interpolation takes at most `45/50` of it. -/
theorem azimuthChannel_ge {blk diff : ℤ} (hblk : 0 ≤ blk ∧ blk ≤ 65535)
    (hdiff : -29535 ≤ diff ∧ diff ≤ 36000) (c : ℕ) :
    (-26582 : ℤ) ≤ azimuthChannel F blk diff c := by
  rw [azimuthChannel_eq hblk ⟨by omega, hdiff.2⟩]
  have hm : (c % 16 : ℕ) < 16 := Nat.mod_lt _ (by norm_num)
  have hm' : 0 ≤ ((c % 16 : ℕ) : ℤ) ∧ ((c % 16 : ℕ) : ℤ) ≤ 15 := ⟨by omega, by omega⟩
  have hq : ((-26582 : ℤ) : ℚ) ≤ (((diff * 3 * (c % 16 : ℕ) : ℤ) : ℚ) / 50) := by
    rw [le_div_iff₀ (by norm_num)]
    have : (-26582 * 50 : ℤ) ≤ diff * 3 * (c % 16 : ℕ) := by
      nlinarith [mul_nonneg (show 0 ≤ diff + 29535 by omega) hm'.1]
    exact_mod_cast this
  refine F.le_rnd (by norm_num) (by norm_num) ?_
  have := F.le_rnd (by norm_num) (by norm_num) hq
  have hb : (0 : ℚ) ≤ blk := by exact_mod_cast hblk.1
  push_cast at this ⊢; linarith

/-- With a non-negative delta a channel's azimuth never precedes its block's. -/
theorem le_azimuthChannel {blk diff : ℤ} (hblk : 0 ≤ blk ∧ blk ≤ 65535)
    (hdiff : 0 ≤ diff ∧ diff ≤ 36000) (c : ℕ) :
    (blk : ℚ) ≤ azimuthChannel F blk diff c := by
  rw [azimuthChannel_eq hblk ⟨by omega, hdiff.2⟩]
  have hq : (0 : ℚ) ≤ F.rnd (((diff * 3 * (c % 16 : ℕ) : ℤ) : ℚ) / 50) :=
    F.rnd_nonneg (div_nonneg (by exact_mod_cast Int.mul_nonneg (by omega) (by omega))
      (by norm_num))
  exact F.le_rnd (by omega) (by omega) (by linarith)

/-- With a non-negative delta the interpolation runs forwards: no channel's azimuth passes
channel 15's, the `float` value of `azimuth_blk + 0.9 * azimuth_diff`. -/
theorem azimuthChannel_le_fifteen {blk diff : ℤ} (hblk : 0 ≤ blk ∧ blk ≤ 65535)
    (hdiff : 0 ≤ diff ∧ diff ≤ 36000) (c : ℕ) :
    azimuthChannel F blk diff c ≤ azimuthChannel F blk diff 15 := by
  rw [azimuthChannel_eq hblk ⟨by omega, hdiff.2⟩, azimuthChannel_eq hblk ⟨by omega, hdiff.2⟩]
  have hc : c % 16 ≤ 15 := Nat.le_of_lt_succ (Nat.mod_lt _ (by norm_num))
  have hm : diff * 3 * (c % 16 : ℕ) ≤ diff * 3 * ((15 % 16 : ℕ) : ℤ) :=
    Int.mul_le_mul_of_nonneg_left (by norm_num; omega) (by omega)
  have hq : (((diff * 3 * (c % 16 : ℕ) : ℤ) : ℚ) / 50) ≤
      (((diff * 3 * ((15 % 16 : ℕ) : ℤ) : ℤ) : ℚ) / 50) :=
    div_le_div_of_nonneg_right (by exact_mod_cast hm) (by norm_num)
  exact F.rnd_mono (add_le_add_left (F.rnd_mono hq) _)

end

/-! ### Every index of the channel loop is in range -/

/-- A point the gate admits has a non-negative `angle_horiz` when the window starts at or
after 0: either branch of the gate bounds it from below by `start_angle_` or by 0. -/
theorem admits_angleHoriz_nonneg {d : Decoder32} {t : ChannelTrace} (h : admits d t = true)
    (hs : 0 ≤ d.startAngle) : 0 ≤ t.angleHoriz := by
  simp only [admits, Bool.and_eq_true, Bool.or_eq_true, decide_eq_true_eq] at h
  rcases h.2 with ⟨⟨-, h⟩, -⟩ | ⟨-, ⟨h, -⟩ | ⟨h, -⟩⟩ <;> omega

section

variable (azimuthCalibration : Decoder32 → ℚ → ℕ → ℤ) (F D : FloatRounding)

theorem channelTrace_azimuthDiff_bounds (d : Decoder32) (pkt : RS32MsopPkt) (b c : ℕ) :
    -29535 ≤ (channelTrace azimuthCalibration F D d pkt b c).azimuthDiff ∧
      (channelTrace azimuthCalibration F D d pkt b c).azimuthDiff < 36000 := by
  have := aziPrevCur_bounds d.isDual pkt b
  exact ⟨azimuthDiff_ge this.1 this.2.2.2, azimuthDiff_lt _⟩

theorem channelTrace_azimuthChannel_ge (d : Decoder32) (pkt : RS32MsopPkt) (b c : ℕ) :
    (-26582 : ℤ) ≤ (channelTrace azimuthCalibration F D d pkt b c).azimuthChannel := by
  have := channelTrace_azimuthDiff_bounds azimuthCalibration F D d pkt b c
  exact azimuthChannel_ge ⟨pkt.azimuth_nonneg b, pkt.azimuth_le b⟩ ⟨this.1, this.2.le⟩ c

/-- Every index the channel loop of `decodeMsopPkt` uses is in range, for every value of the
azimuth fields and in either echo mode: the paired block is a block of the packet, the
indices into the trigonometric tables taken from the uncalibrated azimuth and from the vertical
angle are in `[0, 36000)`, and so is the calibrated one whenever the gate lets the point through
and the azimuth window starts at or after 0. -/
theorem decodeMsopPkt_indices_in_range (d : Decoder32) (pkt : RS32MsopPkt) (b : Fin 12) (c : ℕ) :
    let t := channelTrace azimuthCalibration F D d pkt b c
    pairedBlock d.isDual b < 12 ∧
      (0 ≤ t.angleHorizOri ∧ t.angleHorizOri < 36000) ∧
      (0 ≤ t.angleVert ∧ t.angleVert < 36000) ∧
      (admits d t = true → 0 ≤ d.startAngle → 0 ≤ t.angleHoriz ∧ t.angleHoriz < 36000) := by
  intro t
  have hac := channelTrace_azimuthChannel_ge azimuthCalibration F D d pkt b c
  have hsum : 0 ≤ F.add t.azimuthChannel (F.ofInt 36000) := by
    rw [FloatRounding.add, F.ofInt_eq (by norm_num) (by norm_num)]
    exact F.rnd_nonneg (by push_cast at hac ⊢; linarith)
  have hvert := neg_lt_tmod (truncToInt (d.vertAngleList c)) (b := 36000) (by norm_num)
  refine ⟨pairedBlock_lt _ b.2, ⟨Int.tmod_nonneg _ (truncToInt_nonneg hsum), tmod_lt_self _
    (by norm_num)⟩, ⟨Int.tmod_nonneg _ (by omega), tmod_lt_self _ (by norm_num)⟩,
    fun h hs => ⟨admits_angleHoriz_nonneg h hs, tmod_lt_self _ (by norm_num)⟩⟩

/-! ### The sign of the delta -/

/-- The delta of every block of every packet, in either echo mode. It lies in
`(-36000, 36000)`; it is non-negative exactly when `azi_cur ≤ azi_prev + 36000`, so whenever
every block's azimuth is below 36000 as the sensor sends them; and then each channel's azimuth
lies between its block's azimuth and `azimuth_blk + 0.9 * azimuth_diff`, as `float`
arithmetic computes it (the rounded `azimuth_diff * 45 / 50` added and rounded), which is
channel 15's azimuth. -/
theorem azimuthDiff_sign (d : Decoder32) (pkt : RS32MsopPkt) (b : Fin 12) (c : ℕ) :
    let t := channelTrace azimuthCalibration F D d pkt b c
    (-36000 < t.azimuthDiff ∧ t.azimuthDiff < 36000) ∧
      (0 ≤ t.azimuthDiff ↔
        (aziPrevCur d.isDual pkt b).2 ≤ (aziPrevCur d.isDual pkt b).1 + 36000) ∧
      ((∀ i < 12, pkt.azimuth i < 36000) → 0 ≤ t.azimuthDiff) ∧
      (0 ≤ t.azimuthDiff → (pkt.azimuth b : ℚ) ≤ t.azimuthChannel ∧
        t.azimuthChannel ≤ F.rnd (pkt.azimuth b + F.rnd (t.azimuthDiff * 45 / 50))) ∧
      (channelTrace azimuthCalibration F D d pkt b 15).azimuthChannel =
        F.rnd (pkt.azimuth b + F.rnd (t.azimuthDiff * 45 / 50)) := by
  intro t
  have hp := aziPrevCur_bounds d.isDual pkt b
  have hiff := azimuthDiff_nonneg_iff hp.1 hp.2.2.2
  have hblk := And.intro (pkt.azimuth_nonneg b) (pkt.azimuth_le b)
  have hdiff : -36000 ≤ t.azimuthDiff ∧ t.azimuthDiff ≤ 36000 :=
    ⟨(neg_lt_azimuthDiff _).le, (azimuthDiff_lt _).le⟩
  have h15 : (channelTrace azimuthCalibration F D d pkt b 15).azimuthChannel =
      F.rnd (pkt.azimuth b + F.rnd (t.azimuthDiff * 45 / 50)) := by
    rw [show (channelTrace azimuthCalibration F D d pkt b 15).azimuthChannel =
        azimuthChannel F (pkt.azimuth b) t.azimuthDiff 15 from rfl, azimuthChannel_eq hblk hdiff]
    push_cast
    ring_nf
  refine ⟨⟨neg_lt_azimuthDiff _, azimuthDiff_lt _⟩, hiff, fun h => hiff.2 ?_, fun h => ?_, h15⟩
  · have hcur : (aziPrevCur d.isDual pkt b).2 = pkt.azimuth b ∨
        (aziPrevCur d.isDual pkt b).2 = pkt.azimuth (pairedBlock d.isDual b) := by
      unfold aziPrevCur; split_ifs <;> simp
    have := h _ b.2
    have := h _ (pairedBlock_lt d.isDual b.2)
    omega
  · have hd : 0 ≤ t.azimuthDiff ∧ t.azimuthDiff ≤ 36000 := ⟨h, (azimuthDiff_lt _).le⟩
    exact ⟨le_azimuthChannel hblk hd c, h15 ▸ azimuthChannel_le_fifteen hblk hd c⟩

/-- A packet whose first block reports the azimuth `0xFFFF`, past a full turn, and whose other
blocks report 0. -/
def wrapPkt : RS32MsopPkt where
  headerId := rs32MsopId
  blocks i := ⟨rs32BlockId, if i.val = 0 then 0xFFFF else 0, fun _ => ⟨0, 0⟩⟩

/-- On it, in single-return mode, the first block is decoded with a negative delta. -/
theorem wrapPkt_azimuthDiff_neg :
    wrapPkt.headerId = rs32MsopId ∧ (wrapPkt.block 0).id = rs32BlockId ∧
      (channelTrace (fun _ _ _ => 0) .exact .exact (fresh 1) wrapPkt 0 0).azimuthDiff =
        -29535 := by
  decide

/-! ### The two returns of one firing -/

/-- In dual-return mode the two blocks of a firing read the same pair of azimuths when the
packet repeats each azimuth across its pair of blocks; the last pair too, which looks back. -/
theorem aziPrevCur_dual_pair (pkt : RS32MsopPkt)
    (hpair : ∀ j < 6, pkt.azimuth (2 * j) = pkt.azimuth (2 * j + 1)) {j : ℕ} (hj : j < 6) :
    aziPrevCur true pkt (2 * j) = aziPrevCur true pkt (2 * j + 1) := by
  simp only [aziPrevCur_eq, if_true, rs32BlocksPerPkt]
  by_cases h5 : j < 5
  · rw [if_pos (by omega), if_pos (by omega), show 2 * j + 1 + 2 = 2 * (j + 1) + 1 by ring,
      show 2 * j + 2 = 2 * (j + 1) by ring, hpair j hj, hpair (j + 1) (by omega)]
  · obtain rfl : j = 5 := by omega
    rw [if_neg (by omega), if_neg (by omega)]
    exact Prod.ext (hpair 5 hj) (hpair 4 (by omega))

end

section

variable {azimuthCalibration : Decoder32 → ℚ → ℕ → ℤ} {F D : FloatRounding}

/-- In dual-return mode, when each pair of blocks repeats its azimuth, whatever 16-bit values
these are, the two returns of a firing get the same delta, the same interpolated and
calibrated azimuths, and the same table indices from them, channel by channel. -/
theorem dual_returns_share_azimuth (d : Decoder32) (pkt : RS32MsopPkt) (hd : d.isDual = true)
    (hpair : ∀ j < 6, (pkt.block (2 * j)).azimuth = (pkt.block (2 * j + 1)).azimuth)
    (j : Fin 6) (c : ℕ) :
    let t₀ := channelTrace azimuthCalibration F D d pkt (2 * j) c
    let t₁ := channelTrace azimuthCalibration F D d pkt (2 * j + 1) c
    t₀.azimuthDiff = t₁.azimuthDiff ∧ t₀.azimuthChannel = t₁.azimuthChannel ∧
      t₀.azimuthFinal = t₁.azimuthFinal ∧ t₀.angleHoriz = t₁.angleHoriz ∧
      t₀.angleHorizOri = t₁.angleHorizOri := by
  have hpair' : ∀ j < 6, pkt.azimuth (2 * j) = pkt.azimuth (2 * j + 1) := fun j hj => by
    simp only [RS32MsopPkt.azimuth, hpair j hj]
  have hp := aziPrevCur_dual_pair pkt hpair' j.2
  rw [← hd] at hp
  simp only [channelTrace, hp, hpair' j j.2, and_self]

/-- The stored form of an azimuth `v`: the bytes that `RS_SWAP_SHORT` reads back as `v`. -/
def storedAzimuth (v : ℕ) : UInt16 := UInt16.ofNat (v % 256 * 256 + v / 256)

theorem rsSwapShort_storedAzimuth {v : ℕ} (hv : v < 65536) :
    rsSwapShort (storedAzimuth v) = v := by
  have h : (storedAzimuth v).toNat = v % 256 * 256 + v / 256 :=
    Nat.mod_eq_of_lt (show v % 256 * 256 + v / 256 < 65536 by omega)
  rw [rsSwapShort, h]
  omega

/-- A packet whose pairs of blocks report the azimuths `1000, 2000, ..., 6000`: each firing at
its own azimuth, repeated across its two returns. -/
def pairPkt : RS32MsopPkt where
  headerId := rs32MsopId
  blocks i := ⟨rs32BlockId, storedAzimuth (1000 * (i.val / 2 + 1)), fun _ => ⟨0, 0⟩⟩

/-- The last pair, which looks back two blocks. -/
theorem pairPkt_returns_share_azimuth :
    let t₀ := channelTrace (fun _ _ _ => 0) .exact .exact (fresh rsEchoDual) pairPkt (2 * 5) 0
    let t₁ := channelTrace (fun _ _ _ => 0) .exact .exact (fresh rsEchoDual) pairPkt
      (2 * 5 + 1) 0
    t₀.azimuthDiff = t₁.azimuthDiff ∧ t₀.azimuthChannel = t₁.azimuthChannel ∧
      t₀.azimuthFinal = t₁.azimuthFinal ∧ t₀.angleHoriz = t₁.angleHoriz ∧
      t₀.angleHorizOri = t₁.angleHorizOri :=
  dual_returns_share_azimuth (fresh rsEchoDual) pairPkt rfl (by decide) 5 0

/-! ### A steady spin -/

/-- The delta of a block paired with an azimuth `s` past its own, modulo 36000. -/
theorem azimuthDiff_step {p q s : ℤ} (hp : 0 ≤ p ∧ p < 36000) (hs : 0 ≤ s ∧ s < 36000)
    (hq : q = (p + s) % 36000) : azimuthDiff (q, p) = s := by
  unfold azimuthDiff
  rw [Int.tmod_eq_emod (by omega) (by norm_num)]
  omega

/-- On a packet whose azimuths, all below 36000, advance by one step `s` modulo 36000 from each
block to the block it is paired with (the next one in single-return mode, the one two on in
dual-return mode), every block gets the delta `s`: the last blocks, paired backwards, get the
delta of the others, in either echo mode. -/
theorem azimuthDiff_of_steady_spin (d : Decoder32) (pkt : RS32MsopPkt) {s : ℤ}
    (hs : 0 ≤ s ∧ s < 36000) (haz : ∀ b < 12, pkt.azimuth b < 36000)
    (hstep : ∀ b, b + (if d.isDual then 2 else 1) < 12 →
      pkt.azimuth (b + (if d.isDual then 2 else 1)) = (pkt.azimuth b + s) % 36000)
    (b : Fin 12) (c : ℕ) :
    (channelTrace azimuthCalibration F D d pkt b c).azimuthDiff = s := by
  have hp : ∀ i < 12, 0 ≤ pkt.azimuth i ∧ pkt.azimuth i < 36000 :=
    fun i hi => ⟨pkt.azimuth_nonneg i, haz i hi⟩
  have hback : ∀ k ≤ b.val, b.val - k + k = b.val := fun k hk => Nat.sub_add_cancel hk
  show azimuthDiff (aziPrevCur d.isDual pkt b) = s
  cases hd : d.isDual <;>
    simp only [hd, Bool.false_eq_true, ↓reduceIte] at hstep <;>
    simp only [aziPrevCur_eq, rs32BlocksPerPkt, Bool.false_eq_true, ↓reduceIte] <;> split_ifs
  · exact azimuthDiff_step (hp b b.2) hs (hstep b (by omega))
  · exact azimuthDiff_step (hp _ (by omega)) hs (hback 1 (by omega) ▸ hstep (b - 1) (by omega))
  · exact azimuthDiff_step (hp b b.2) hs (hstep b (by omega))
  · exact azimuthDiff_step (hp _ (by omega)) hs (hback 2 (by omega) ▸ hstep (b - 2) (by omega))

/-- A packet of a steady spin through the end of a turn: block `b` reports
`(35500 + 100 * b) % 36000`, so the azimuth passes `35900` to `0` between blocks 4 and 5. -/
def spinPkt : RS32MsopPkt where
  headerId := rs32MsopId
  blocks i := ⟨rs32BlockId, storedAzimuth ((35500 + 100 * i.val) % 36000), fun _ => ⟨0, 0⟩⟩

theorem spinPkt_azimuth {b : ℕ} (hb : b < 12) :
    spinPkt.azimuth b = ((35500 + 100 * b) % 36000 : ℕ) := by
  rw [RS32MsopPkt.azimuth, RS32MsopPkt.block, dif_pos hb]
  exact rsSwapShort_storedAzimuth (by omega)

/-- In single-return mode, the last block, paired backwards. -/
theorem spinPkt_azimuthDiff :
    (0 ≤ (100 : ℤ) ∧ (100 : ℤ) < 36000) ∧ (∀ b < 12, spinPkt.azimuth b < 36000) ∧
      (∀ b, b + (if (fresh 1).isDual then 2 else 1) < 12 →
        spinPkt.azimuth (b + (if (fresh 1).isDual then 2 else 1)) =
          (spinPkt.azimuth b + 100) % 36000) ∧
      (channelTrace (fun _ _ _ => 0) .exact .exact (fresh 1) spinPkt 11 0).azimuthDiff = 100 :=
  have haz : ∀ b < 12, spinPkt.azimuth b < 36000 := fun b hb => by
    rw [spinPkt_azimuth hb]; omega
  have hstep : ∀ b, b + (if (fresh 1).isDual then 2 else 1) < 12 →
      spinPkt.azimuth (b + (if (fresh 1).isDual then 2 else 1)) =
        (spinPkt.azimuth b + 100) % 36000 := fun b hb => by
    have hb' : b + 1 < 12 := hb
    rw [show (if (fresh 1).isDual then 2 else 1) = 1 from rfl, spinPkt_azimuth hb',
      spinPkt_azimuth (by omega)]
    omega
  ⟨by norm_num, haz, hstep, azimuthDiff_of_steady_spin (fresh 1) spinPkt (by norm_num)
    haz hstep 11 0⟩

end

end Decoder32

end RsDriver
