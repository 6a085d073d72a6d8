import RsDriver.Decoder32.Basic

/-!
`Decoder32::decodeMsopPkt`: from an MSOP packet to the points it pushes onto `vec`.

The two loops of the source are kept as loops with the vector as accumulator (`blockLoop`,
`channelLoop`); the body of the channel loop is split in two, the values it computes
(`channelTrace`: the azimuth delta, the interpolated and calibrated azimuths, the table
indices) and the point it builds from them (`msopPoint`). The statements about indices and
azimuths are about `channelTrace`; the statements about the vector are about the loops, and
`blockLoop_eq` turns those into a closed form once, block after block, 32 points each.

`azimuthCalibration` belongs to `DecoderBase` and is not under `src/`: it is a parameter, any
function of the decoder, the channel's azimuth and the channel index to an `int`. `F` rounds
`float` operations and `D` rounds `double` ones.
-/

namespace RsDriver

namespace Decoder32

/-! ### The azimuth pair of a block -/

/-- The index of the block whose azimuth `decodeMsopPkt` reads with block `blkIdx`'s: two blocks
on in dual-return mode, one block on otherwise, and as many back for the last blocks. -/
def pairedBlock (dual : Bool) (blkIdx : ℕ) : ℕ :=
  if dual then
    if blkIdx < rs32BlocksPerPkt - 2 then blkIdx + 2 else blkIdx - 2
  else
    if blkIdx < rs32BlocksPerPkt - 1 then blkIdx + 1 else blkIdx - 1

/-- `(azi_prev, azi_cur)` of block `blkIdx`: the paired block's azimuth first while the pairing
looks forwards, the block's own first for the last blocks, which look back. -/
def aziPrevCur (dual : Bool) (pkt : RS32MsopPkt) (blkIdx : ℕ) : ℤ × ℤ :=
  if blkIdx < rs32BlocksPerPkt - (if dual then 2 else 1) then
    (pkt.azimuth (pairedBlock dual blkIdx), pkt.azimuth blkIdx)
  else (pkt.azimuth blkIdx, pkt.azimuth (pairedBlock dual blkIdx))

/-- `(36000 + azi_prev - azi_cur) % 36000`, the `int` that `azimuth_diff` converts. -/
def azimuthDiff (prevCur : ℤ × ℤ) : ℤ := (36000 + prevCur.1 - prevCur.2).tmod 36000

/-- The four branches of the source, one per echo mode and direction. -/
theorem aziPrevCur_eq (dual : Bool) (pkt : RS32MsopPkt) (blkIdx : ℕ) :
    aziPrevCur dual pkt blkIdx =
      if dual then
        if blkIdx < rs32BlocksPerPkt - 2 then (pkt.azimuth (blkIdx + 2), pkt.azimuth blkIdx)
        else (pkt.azimuth blkIdx, pkt.azimuth (blkIdx - 2))
      else
        if blkIdx < rs32BlocksPerPkt - 1 then (pkt.azimuth (blkIdx + 1), pkt.azimuth blkIdx)
        else (pkt.azimuth blkIdx, pkt.azimuth (blkIdx - 1)) := by
  cases dual <;> simp only [aziPrevCur, pairedBlock] <;> split_ifs <;> rfl

/-! ### One channel -/

/-- The values the body of the channel loop computes for channel `channelIdx` of block
`blkIdx`, before it builds the point. -/
structure ChannelTrace where
  azimuthDiff : ℤ
  azimuthChannel : ℚ
  azimuthFinal : ℤ
  distanceCali : ℚ
  angleHoriz : ℤ
  angleHorizOri : ℤ
  angleVert : ℤ
  intensity : ℚ

section

variable (azimuthCalibration : Decoder32 → ℚ → ℕ → ℤ) (F D : FloatRounding)

/-- `azimuth_blk + (azimuth_diff * RS32_CHANNEL_TOFFSET * (channel_idx % 16) /
RS32_FIRING_TDURATION)`, every operation in `float`. -/
def azimuthChannel (azimuthBlk diff : ℤ) (channelIdx : ℕ) : ℚ :=
  F.add (F.ofInt azimuthBlk)
    (F.div (F.mul (F.mul (F.ofInt diff) (F.ofInt rs32ChannelToffset))
      (F.ofInt (channelIdx % 16 : ℕ))) (F.ofInt rs32FiringTduration))

/-- The body of the channel loop up to the range gate. -/
def channelTrace (d : Decoder32) (pkt : RS32MsopPkt) (blkIdx channelIdx : ℕ) : ChannelTrace :=
  let azimuthBlk := pkt.azimuth blkIdx
  let diff := azimuthDiff (aziPrevCur d.isDual pkt blkIdx)
  let azimuthChannel := azimuthChannel F azimuthBlk diff channelIdx
  let azimuthFinal := azimuthCalibration d azimuthChannel channelIdx
  let channel := (pkt.block blkIdx).channel channelIdx
  { azimuthDiff := diff
    azimuthChannel
    azimuthFinal
    distanceCali :=
      F.rnd (D.mul (D.ofInt (rsSwapShort channel.distance)) rsResolution5mmDistanceCoef)
    angleHoriz := (azimuthFinal + 36000).tmod 36000
    angleHorizOri := (truncToInt (F.add azimuthChannel (F.ofInt 36000))).tmod 36000
    angleVert := ((truncToInt (d.vertAngleList channelIdx)).tmod 36000 + 36000).tmod 36000
    intensity := channel.intensity.toNat }

/-- The range gate: the distance within `[min_distance_, max_distance_]`, and the azimuth in
the window, which wraps through zero when `angle_flag_` is false. -/
def admits (d : Decoder32) (t : ChannelTrace) : Bool :=
  (decide (t.distanceCali ≤ d.maxDistance) && decide (t.distanceCali ≥ d.minDistance)) &&
    ((d.angleFlag && decide (t.angleHoriz ≥ d.startAngle) &&
        decide (t.angleHoriz ≤ d.endAngle)) ||
      (!d.angleFlag &&
        ((decide (t.angleHoriz ≥ d.startAngle) && decide (t.angleHoriz ≤ 36000)) ||
          (decide (t.angleHoriz ≥ 0) && decide (t.angleHoriz ≤ d.endAngle)))))

/-- The point the channel loop pushes for channel `channelIdx` of block `blkIdx`: the projected
point when the gate admits it, a NaN placeholder otherwise. The intensity comes from a byte, so
the source's `isnan` test on it never fires. -/
def msopPoint (d : Decoder32) (pkt : RS32MsopPkt) (blkIdx channelIdx : ℕ) : VPoint :=
  let t := channelTrace azimuthCalibration F D d pkt blkIdx channelIdx
  let echoId := if d.isDual then blkIdx % 2 else 0
  if admits d t then
    let vertCos := d.cosLookupTable t.angleVert
    let horizCos := d.cosLookupTable t.angleHoriz
    let horizOriCos := d.cosLookupTable t.angleHorizOri
    let horizSin := d.sinLookupTable t.angleHoriz
    let horizOriSin := d.sinLookupTable t.angleHorizOri
    let vertSin := d.sinLookupTable t.angleVert
    { x := .val (F.rnd (D.add (D.mul (D.mul t.distanceCali vertCos) horizCos)
        (D.mul d.rx horizOriCos)))
      y := .val (F.rnd (D.sub (D.mul (D.mul (-t.distanceCali) vertCos) horizSin)
        (D.mul d.rx horizOriSin)))
      z := .val (F.rnd (D.add (D.mul t.distanceCali vertSin) d.rz))
      intensity := .val t.intensity
      distance := t.distanceCali
      ringId := channelIdx
      echoId }
  else
    { x := .nan, y := .nan, z := .nan, intensity := .nan
      distance := t.distanceCali
      ringId := channelIdx
      echoId }

theorem msopPoint_ringId (d : Decoder32) (pkt : RS32MsopPkt) (b c : ℕ) :
    (msopPoint azimuthCalibration F D d pkt b c).ringId = c := by
  unfold msopPoint; dsimp only; split_ifs <;> rfl

/-- The channel loop of block `blkIdx`, at `channel_idx = channelIdx` with `n` channels to go. -/
def channelLoop (d : Decoder32) (pkt : RS32MsopPkt) (blkIdx : ℕ) :
    ℕ → ℕ → List VPoint → List VPoint
  | 0, _, vec => vec
  | n + 1, channelIdx, vec =>
      channelLoop d pkt blkIdx n (channelIdx + 1)
        (vec ++ [msopPoint azimuthCalibration F D d pkt blkIdx channelIdx])

/-- The block loop, at `blk_idx = blkIdx` with `n` blocks to go: it stops at the first block
whose id is not `RS32_BLOCK_ID`. -/
def blockLoop (d : Decoder32) (pkt : RS32MsopPkt) : ℕ → ℕ → List VPoint → List VPoint
  | 0, _, vec => vec
  | n + 1, blkIdx, vec =>
      if (pkt.block blkIdx).id ≠ rs32BlockId then vec
      else
        blockLoop d pkt n (blkIdx + 1)
          (channelLoop azimuthCalibration F D d pkt blkIdx rs32ChannelsPerBlock 0 vec)

/-- What `decodeMsopPkt` returns, and the vector and the height it leaves. -/
structure MsopResult where
  ret : ℤ
  vec : List VPoint
  height : ℕ

/-- `Decoder32::decodeMsopPkt`. It writes no member of the decoder. -/
def decodeMsopPkt (d : Decoder32) (pkt : RS32MsopPkt) (vec : List VPoint) : MsopResult :=
  if pkt.headerId ≠ rs32MsopId then ⟨-2, vec, 32⟩
  else ⟨pkt.azimuth 0, blockLoop azimuthCalibration F D d pkt rs32BlocksPerPkt 0 vec, 32⟩

end

/-- How many blocks the block loop decodes from `blkIdx` with `n` to go: the valid ones up to
the first invalid one. -/
def leadingBlocks (pkt : RS32MsopPkt) : ℕ → ℕ → ℕ
  | 0, _ => 0
  | n + 1, blkIdx =>
      if (pkt.block blkIdx).id = rs32BlockId then leadingBlocks pkt n (blkIdx + 1) + 1 else 0

theorem leadingBlocks_le (pkt : RS32MsopPkt) (n b : ℕ) : leadingBlocks pkt n b ≤ n := by
  induction n generalizing b with
  | zero => rfl
  | succ n ih =>
      unfold leadingBlocks; split
      · exact Nat.succ_le_succ (ih _)
      · omega

/-- Every block the loop decodes is valid. -/
theorem valid_of_lt_leadingBlocks (pkt : RS32MsopPkt) {n b j : ℕ}
    (h : j < leadingBlocks pkt n b) : (pkt.block (b + j)).id = rs32BlockId := by
  induction n generalizing b j with
  | zero => simp [leadingBlocks] at h
  | succ n ih =>
      unfold leadingBlocks at h; split at h
      · cases j with
        | zero => assumption
        | succ j => simpa [Nat.add_assoc, Nat.add_comm 1] using ih (b := b + 1) (by omega)
      · omega

/-- The loop stops early only at an invalid block. -/
theorem invalid_at_leadingBlocks (pkt : RS32MsopPkt) {n b : ℕ} (h : leadingBlocks pkt n b < n) :
    (pkt.block (b + leadingBlocks pkt n b)).id ≠ rs32BlockId := by
  induction n generalizing b with
  | zero => omega
  | succ n ih =>
      unfold leadingBlocks at h ⊢; split
      · rename_i hv
        rw [if_pos hv] at h
        simpa [Nat.add_assoc, Nat.add_comm 1] using ih (b := b + 1) (by omega)
      · simpa using ‹_›

section

variable {azimuthCalibration : Decoder32 → ℚ → ℕ → ℤ} {F D : FloatRounding}
  {d : Decoder32} {pkt : RS32MsopPkt}

/-- The points of block `b`, channel after channel. -/
def blockPoints (azimuthCalibration : Decoder32 → ℚ → ℕ → ℤ) (F D : FloatRounding)
    (d : Decoder32) (pkt : RS32MsopPkt) (b : ℕ) : List VPoint :=
  (List.range 32).map (msopPoint azimuthCalibration F D d pkt b)

theorem channelLoop_eq (b n c : ℕ) (vec : List VPoint) :
    channelLoop azimuthCalibration F D d pkt b n c vec =
      vec ++ (List.range' c n).map (msopPoint azimuthCalibration F D d pkt b) := by
  induction n generalizing c vec with
  | zero => simp [channelLoop]
  | succ n ih => simp [channelLoop, ih, List.range'_succ]

theorem blockLoop_eq (n b : ℕ) (vec : List VPoint) :
    blockLoop azimuthCalibration F D d pkt n b vec =
      vec ++ (List.range' b (leadingBlocks pkt n b)).flatMap
        (blockPoints azimuthCalibration F D d pkt) := by
  induction n generalizing b vec with
  | zero => simp [blockLoop, leadingBlocks]
  | succ n ih =>
      by_cases hv : (pkt.block b).id = rs32BlockId
      · simp [blockLoop, leadingBlocks, hv, ih, channelLoop_eq, blockPoints, List.range'_succ,
          List.range_eq_range', rs32ChannelsPerBlock]
      · simp [blockLoop, leadingBlocks, hv]

theorem length_flatMap_blockPoints (b k : ℕ) :
    ((List.range' b k).flatMap (blockPoints azimuthCalibration F D d pkt)).length = 32 * k := by
  induction k generalizing b with
  | zero => rfl
  | succ k ih => simp [List.range'_succ, blockPoints, ih]; omega

/-- Point `32 * i + c` of the blocks from `b` on is channel `c` of block `b + i`. -/
theorem getElem?_flatMap_blockPoints {b k i c : ℕ} (hi : i < k) (hc : c < 32) :
    ((List.range' b k).flatMap (blockPoints azimuthCalibration F D d pkt))[32 * i + c]? =
      some (msopPoint azimuthCalibration F D d pkt (b + i) c) := by
  induction k generalizing b i with
  | zero => omega
  | succ k ih =>
      rw [List.range'_succ, List.flatMap_cons]
      cases i with
      | zero => simp [blockPoints, List.getElem?_append_left, hc]
      | succ i =>
          rw [List.getElem?_append_right (by simp [blockPoints]; omega)]
          have := ih (b := b + 1) (i := i) (by omega)
          simp only [blockPoints, List.length_map, List.length_range] at this ⊢
          rw [show 32 * (i + 1) + c - 32 = 32 * i + c by omega, this, Nat.add_right_comm,
            Nat.add_assoc]

/-! ### Columns of height 32 -/

theorem decodeMsopPkt_of_ne (vec : List VPoint) (h : pkt.headerId ≠ rs32MsopId) :
    decodeMsopPkt azimuthCalibration F D d pkt vec = ⟨-2, vec, 32⟩ := if_pos h

theorem decodeMsopPkt_of_eq (vec : List VPoint) (h : pkt.headerId = rs32MsopId) :
    decodeMsopPkt azimuthCalibration F D d pkt vec =
      ⟨pkt.azimuth 0, vec ++ (List.range' 0 (leadingBlocks pkt 12 0)).flatMap
        (blockPoints azimuthCalibration F D d pkt), 32⟩ := by
  rw [decodeMsopPkt, if_neg (not_not.mpr h), blockLoop_eq]; rfl

end

end Decoder32

end RsDriver
