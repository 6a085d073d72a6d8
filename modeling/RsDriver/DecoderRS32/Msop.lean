import RsDriver.DecoderRS32.Basic

/-!
`DecoderRS32::decodeMsopPkt`: one pass of the packet traverser, a point or nothing at each
position.

The traverser, `SingleReturnPacketTraverser<RS32MsopPkt>`, is declared outside `src/`. It is built
from the constant parameters, the packet and the packet time `pkt_ts`, and the loop
`for (; !traverser.isLast(); traverser.toNext())` reads at each position what `get` reports; the
model takes the list of those reports as a parameter `traverse pkt pkt_ts`, so every statement
holds for every traverser that stops. `pkt_ts` is the header's time with `use_lidar_clock`,
otherwise `calcTimeHost()`, the host's clock at the call: the model passes that reading as an
argument of each call, as it passes the packet.

The body at one position is summed up by `decodePosition_eq`: it reports a block-id mismatch and
appends `emitted`, the one point of the position, or nothing when the cloud is dense and the gate
turns the position away. By induction the loop appends the `flatMap` of `emitted` over the
positions (`positionLoop_eq`). The two values of `dense_points` then differ only in `emitted`:
the sparse cloud gets the point of every position, the dense one the points of the admitted
positions, and both the same points, as long as both runs see the same traversal.
-/

namespace RsDriver

namespace DecoderRS32

/-- What `traverser.get(blk, chan, angle_horiz, chan_ts)` reports at one position. -/
structure TravPos where
  blk : ℕ
  chan : ℕ
  angleHoriz : ℤ
  chanTs : ℚ

/-! ### One position -/

section

variable (F : FloatRounding) (COS SIN : ℤ → ℚ)

/-- `float distance = ntohs(channel.distance) * this->const_param_.DIS_RESOLUTION`. -/
def distanceAt (pkt : RS32MsopPkt) (pos : TravPos) : ℚ :=
  F.mul (ntohs ((pkt.block pos.blk).channel pos.chan).distance) getConstParam.disResolution

/-- `int16_t angle_horiz_final = this->chan_angles_.horizAdjust(chan, angle_horiz)`. -/
def angleHorizFinal (d : DecoderRS32) (pos : TravPos) : ℤ :=
  toInt16 (d.chanAngles.horizAdjust pos.chan pos.angleHoriz)

/-- The gate: `distance_block_.in(distance) && scan_block_.in(angle_horiz_final)`. -/
def admits (d : DecoderRS32) (pkt : RS32MsopPkt) (pos : TravPos) : Bool :=
  d.distanceBlock (distanceAt F pkt pos) && d.scanBlock (angleHorizFinal d pos)

/-- The point of an admitted position: the projection through the tables `COS` and `SIN`, with
`angle_vert = chan_angles_.vertAdjust(chan)` and the lens offsets `RX` and `RZ`. -/
def gatedPoint (d : DecoderRS32) (pkt : RS32MsopPkt) (pos : TravPos) : RSPoint :=
  let distance := distanceAt F pkt pos
  let angleVert := toInt16 (d.chanAngles.vertAdjust pos.chan)
  let angleHorizFinal := angleHorizFinal d pos
  let x := F.add (F.mul (F.mul distance (COS angleVert)) (COS angleHorizFinal))
    (F.mul getConstParam.rx (COS pos.angleHoriz))
  let y := F.sub (F.mul (F.mul (-distance) (COS angleVert)) (SIN angleHorizFinal))
    (F.mul getConstParam.rx (SIN pos.angleHoriz))
  let z := F.add (F.mul distance (SIN angleVert)) getConstParam.rz
  { x := .val x, y := .val y, z := .val z
    intensity := ((pkt.block pos.blk).channel pos.chan).intensity.toNat
    ring := d.chanAngles.toUserChan pos.chan, timestamp := pos.chanTs }

/-- The placeholder a sparse cloud gets for a position the gate turns away. -/
def nanPoint (d : DecoderRS32) (pos : TravPos) : RSPoint :=
  { x := .nan, y := .nan, z := .nan, intensity := 0
    ring := d.chanAngles.toUserChan pos.chan, timestamp := pos.chanTs }

/-- The body of the loop of `decodeMsopPkt` at one position. A block-id mismatch is reported
through `excb_` and the body goes on: the `return` after it is commented out. -/
def decodePosition (pkt : RS32MsopPkt) (d : DecoderRS32) (pos : TravPos) : DecoderRS32 :=
  let d := if (pkt.block pos.blk).idMismatch then d.reportError .wrongPktHeader else d
  if admits F d pkt pos then d.emplaceBack (gatedPoint F COS SIN d pkt pos)
  else if !d.densePoints then d.emplaceBack (nanPoint d pos)
  else d

/-- The loop over the positions the traverser visits. -/
def positionLoop (pkt : RS32MsopPkt) : List TravPos → DecoderRS32 → DecoderRS32
  | [], d => d
  | pos :: ps, d => positionLoop pkt ps (decodePosition F COS SIN pkt d pos)

variable (calcTemp calcTimeYMD : List UInt8 → ℚ) (traverse : RS32MsopPkt → ℚ → List TravPos)

/-- `pkt_ts`: `calcTimeYMD(&pkt.header.timestamp)` with `use_lidar_clock`, otherwise
`calcTimeHost()`, whose value at the call is `hostTime`. -/
def pktTs (d : DecoderRS32) (pkt : RS32MsopPkt) (hostTime : ℚ) : ℚ :=
  if d.useLidarClock then calcTimeYMD pkt.header.timestamp else hostTime

/-- `DecoderRS32::decodeMsopPkt`, called when the host clock reads `hostTime`. The `size`
argument is read by nothing. -/
def decodeMsopPkt (pkt : RS32MsopPkt) (hostTime : ℚ) (d : DecoderRS32) : DecoderRS32 :=
  let d := { d with temperature := calcTemp pkt.header.temp }
  positionLoop F COS SIN pkt (traverse pkt (pktTs calcTimeYMD d pkt hostTime)) d

end

/-! ### What a position contributes -/

section

variable {F : FloatRounding} {COS SIN : ℤ → ℚ} {d : DecoderRS32} {pkt : RS32MsopPkt}
  {pos : TravPos}

variable (F COS SIN) in
/-- The point a sparse cloud gets at a position: the projected point if the gate admits it, the
placeholder otherwise. -/
def sparsePoint (d : DecoderRS32) (pkt : RS32MsopPkt) (pos : TravPos) : RSPoint :=
  if admits F d pkt pos then gatedPoint F COS SIN d pkt pos else nanPoint d pos

variable (F COS SIN) in
/-- What the body appends at a position: its point, unless the cloud is dense and the gate turns
the position away. -/
def emitted (d : DecoderRS32) (pkt : RS32MsopPkt) (pos : TravPos) : List RSPoint :=
  if admits F d pkt pos || !d.densePoints then [sparsePoint F COS SIN d pkt pos] else []

/-- What the body reports at a position. -/
def blockErrors (pkt : RS32MsopPkt) (pos : TravPos) : List ErrCode :=
  if (pkt.block pos.blk).idMismatch then [.wrongPktHeader] else []

/-- Every point of a position carries the user channel of its channel and its time. -/
theorem sparsePoint_ring_timestamp :
    ((sparsePoint F COS SIN d pkt pos).ring, (sparsePoint F COS SIN d pkt pos).timestamp) =
      (d.chanAngles.toUserChan pos.chan, pos.chanTs) := by
  unfold sparsePoint
  split <;> rfl

/-- The gate and the emission, on whatever decoder the report left: `emitted` is appended. -/
theorem emit_eq (d : DecoderRS32) :
    (if admits F d pkt pos then d.emplaceBack (gatedPoint F COS SIN d pkt pos)
      else if !d.densePoints then d.emplaceBack (nanPoint d pos) else d) =
      { d with pointCloud := d.pointCloud ++ emitted F COS SIN d pkt pos } := by
  rcases d with ⟨_ | _⟩ <;> unfold emitted sparsePoint <;> cases admits F _ pkt pos <;>
    simp [emplaceBack]

/-- One position: a mismatched block id is reported, `emitted` is appended, and nothing else
changes. -/
theorem decodePosition_eq :
    decodePosition F COS SIN pkt d pos =
      { d with pointCloud := d.pointCloud ++ emitted F COS SIN d pkt pos
               errors := d.errors ++ blockErrors pkt pos } := by
  unfold decodePosition blockErrors
  split <;> rw [emit_eq]
  · rfl
  · simp

/-! ### The loop -/

/-- A run of the loop appends what each position emits and reports, in the traverser's order,
and changes nothing else. -/
theorem positionLoop_eq (ps : List TravPos) (d : DecoderRS32) :
    positionLoop F COS SIN pkt ps d =
      { d with pointCloud := d.pointCloud ++ ps.flatMap (emitted F COS SIN d pkt)
               errors := d.errors ++ ps.flatMap (blockErrors pkt) } := by
  induction ps generalizing d with
  | nil => simp [positionLoop]
  | cons pos ps ih =>
      rw [positionLoop, decodePosition_eq, ih]
      simp only [List.flatMap_cons, List.append_assoc]
      rfl

/-- In a sparse cloud every position emits its point. -/
theorem flatMap_emitted_sparse (ps : List TravPos) (h : d.densePoints = false) :
    ps.flatMap (emitted F COS SIN d pkt) = ps.map (sparsePoint F COS SIN d pkt) := by
  induction ps with
  | nil => rfl
  | cons pos ps ih => simp [emitted, h, ih]

/-- In a dense cloud the admitted positions emit their points, the others nothing. -/
theorem flatMap_emitted_dense (ps : List TravPos) (h : d.densePoints = true) :
    ps.flatMap (emitted F COS SIN d pkt) =
      (ps.filter (admits F d pkt)).map (sparsePoint F COS SIN d pkt) := by
  induction ps with
  | nil => rfl
  | cons pos ps ih =>
      rw [List.flatMap_cons, ih, List.filter_cons]
      cases ha : admits F d pkt pos <;> simp [emitted, ha, h]

theorem flatMap_blockErrors (ps : List TravPos) :
    ps.flatMap (blockErrors pkt) =
      (ps.filter fun pos => (pkt.block pos.blk).idMismatch).map fun _ => .wrongPktHeader := by
  induction ps with
  | nil => rfl
  | cons pos ps ih =>
      rw [List.flatMap_cons, ih, List.filter_cons]
      unfold blockErrors
      split <;> simp

end

/-! ### Sparse and dense runs -/

section

variable {F : FloatRounding} {COS SIN : ℤ → ℚ} {calcTemp calcTimeYMD : List UInt8 → ℚ}
  {traverse : RS32MsopPkt → ℚ → List TravPos}

theorem decodeMsopPkt_eq (pkt : RS32MsopPkt) (t : ℚ) (d : DecoderRS32) :
    decodeMsopPkt F COS SIN calcTemp calcTimeYMD traverse pkt t d =
      { d with temperature := calcTemp pkt.header.temp
               pointCloud := d.pointCloud ++
                 (traverse pkt (pktTs calcTimeYMD d pkt t)).flatMap (emitted F COS SIN d pkt)
               errors := d.errors ++ (traverse pkt (pktTs calcTimeYMD d pkt t)).flatMap
                 (blockErrors pkt) } := by
  rw [decodeMsopPkt, positionLoop_eq]
  rfl

variable (F COS SIN calcTemp calcTimeYMD traverse) in
/-- Run `decodeMsopPkt` on one packet and one decoder, sparse at host time `t₁` and dense at
host time `t₂`, the two runs taking the same packet time: always with the device clock, and with
the host clock when the two readings agree. Let `ps` be the traversal. The sparse run appends
one point per position of `ps`, in order, each with the ring `toUserChan(chan)` and the time
`chan_ts` of its position; the dense run appends the points of the sparse run at the positions
the gate admits, and only those. Both keep the cloud they started with as a prefix, and both
report one `ERRCODE_WRONGPKTHEADER` per position whose block id mismatches, without leaving out
any position. -/
theorem dense_run_filters_sparse_run (d : DecoderRS32) (pkt : RS32MsopPkt) (t₁ t₂ : ℚ)
    (hclock : d.useLidarClock = true ∨ t₁ = t₂) :
    let ps := traverse pkt (pktTs calcTimeYMD d pkt t₁)
    let sparse := decodeMsopPkt F COS SIN calcTemp calcTimeYMD traverse pkt t₁
      { d with densePoints := false }
    let dense := decodeMsopPkt F COS SIN calcTemp calcTimeYMD traverse pkt t₂
      { d with densePoints := true }
    sparse.pointCloud = d.pointCloud ++ ps.map (sparsePoint F COS SIN d pkt) ∧
      (ps.map (sparsePoint F COS SIN d pkt)).map (fun p => (p.ring, p.timestamp)) =
        ps.map (fun pos => (d.chanAngles.toUserChan pos.chan, pos.chanTs)) ∧
      dense.pointCloud =
        d.pointCloud ++ (ps.filter (admits F d pkt)).map (sparsePoint F COS SIN d pkt) ∧
      sparse.errors = d.errors ++
        (ps.filter fun pos => (pkt.block pos.blk).idMismatch).map (fun _ => .wrongPktHeader) ∧
      dense.errors = sparse.errors := by
  have hts : pktTs calcTimeYMD { d with densePoints := true } pkt t₂ =
      pktTs calcTimeYMD d pkt t₁ := by
    rcases hclock with h | rfl
    · simp [pktTs, h]
    · rfl
  refine ⟨?_, ?_, ?_, ?_, ?_⟩
  · rw [decodeMsopPkt_eq, flatMap_emitted_sparse _ rfl]
    rfl
  · simp only [List.map_map]
    exact List.map_congr_left fun _ _ => sparsePoint_ring_timestamp
  · rw [decodeMsopPkt_eq, flatMap_emitted_dense _ rfl, hts]
    rfl
  · rw [decodeMsopPkt_eq, flatMap_blockErrors]
    rfl
  · rw [decodeMsopPkt_eq, decodeMsopPkt_eq, hts]
    rfl

/-- A decoder whose gate admits every position, on the host clock, with an empty cloud. -/
def openDecoder : DecoderRS32 where
  densePoints := false
  useLidarClock := false
  echoMode := .echoSingle
  difopReady := false
  temperature := 0
  chanAngles := ⟨fun _ => 0, fun _ _ => 0, id⟩
  distanceBlock _ := true
  scanBlock _ := true
  pointCloud := []
  errors := []

/-- A packet of zeros whose blocks carry the right id. -/
def zeroPkt : RS32MsopPkt :=
  ⟨⟨[], []⟩, fun _ => ⟨fun i => if i.val = 0 then 0xFF else 0xEE, 0, fun _ => ⟨0, 0⟩⟩⟩

/-- A traverser visiting one position, stamped with the packet time: the spec's per-channel time
`pkt_ts` plus the channel's offset, here 0. -/
def stampTraverser (_ : RS32MsopPkt) (t : ℚ) : List TravPos := [⟨0, 0, 0, t⟩]

theorem dense_run_filters_sparse_run_openDecoder :
    (openDecoder.useLidarClock = true ∨ (0 : ℚ) = 0) ∧
    let ps := stampTraverser zeroPkt (pktTs (fun _ => 0) openDecoder zeroPkt 0)
    let sparse := decodeMsopPkt .exact (fun _ => 0) (fun _ => 0) (fun _ => 0) (fun _ => 0)
      stampTraverser zeroPkt 0 { openDecoder with densePoints := false }
    let dense := decodeMsopPkt .exact (fun _ => 0) (fun _ => 0) (fun _ => 0) (fun _ => 0)
      stampTraverser zeroPkt 0 { openDecoder with densePoints := true }
    sparse.pointCloud = openDecoder.pointCloud ++
        ps.map (sparsePoint .exact (fun _ => 0) (fun _ => 0) openDecoder zeroPkt) ∧
      (ps.map (sparsePoint .exact (fun _ => 0) (fun _ => 0) openDecoder zeroPkt)).map
          (fun p => (p.ring, p.timestamp)) =
        ps.map (fun pos => (openDecoder.chanAngles.toUserChan pos.chan, pos.chanTs)) ∧
      dense.pointCloud = openDecoder.pointCloud ++
        (ps.filter (admits .exact openDecoder zeroPkt)).map
          (sparsePoint .exact (fun _ => 0) (fun _ => 0) openDecoder zeroPkt) ∧
      sparse.errors = openDecoder.errors ++
        (ps.filter fun pos => (zeroPkt.block pos.blk).idMismatch).map
          (fun _ => .wrongPktHeader) ∧
      dense.errors = sparse.errors :=
  ⟨.inr rfl, dense_run_filters_sparse_run .exact (fun _ => 0) (fun _ => 0) (fun _ => 0)
    (fun _ => 0) stampTraverser openDecoder zeroPkt 0 0 (.inr rfl)⟩

/-- On the host clock, a sparse run at time 0 and a dense run at time 1 of the same packet and
decoder: the gate admits the one position, yet the dense run's point is not the sparse run's,
since each run stamps it with its own reading of the clock. -/
theorem hostClock_dense_point_differs :
    admits .exact openDecoder zeroPkt ⟨0, 0, 0, 0⟩ = true ∧
      (decodeMsopPkt .exact (fun _ => 0) (fun _ => 0) (fun _ => 0) (fun _ => 0) stampTraverser
        zeroPkt 0 openDecoder).pointCloud.map RSPoint.timestamp = [0] ∧
      (decodeMsopPkt .exact (fun _ => 0) (fun _ => 0) (fun _ => 0) (fun _ => 0) stampTraverser
        zeroPkt 1 { openDecoder with densePoints := true }).pointCloud.map RSPoint.timestamp =
        [1] :=
  ⟨rfl, rfl, rfl⟩

end

end DecoderRS32

end RsDriver
