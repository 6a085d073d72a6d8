import RsDriver.Arith

/-!
The data of `decoder_RS32.hpp`, the decoder built on the shared base class `Decoder<T_PointCloud>`
and its packet traverser: the constants of `getConstParam`, the packed packet layouts, the members
of the base decoder that `DecoderRS32` reads or writes, and the point it emits.

Most of what this decoder calls is declared outside `src/`: the base class with its members
`chan_angles_`, `distance_block_`, `scan_block_`, the callback `excb_` and the point cloud, the
traverser, the trigonometric tables behind `COS`/`SIN`, and the header and channel layouts.
Their members keep the source's names. The functions among them are fields of the decoder or
parameters of the functions that call them, so every statement holds for all of them. `excb_`
is a log: the decoder state records every error it was called with, in order.
-/

namespace RsDriver

namespace DecoderRS32

/-! ### `getConstParam` -/

/-- The members of `RSDecoderConstParam` the modelled functions read. The structure is declared
outside `src/`; the values are the literals of `getConstParam`, taken exactly. -/
structure RSDecoderConstParam where
  difopLen : ℕ
  difopId : List UInt8
  blockId : List UInt8
  disResolution : ℚ
  rx : ℚ
  rz : ℚ

/-- `DecoderRS32::getConstParam()`; the constructor stores it in `const_param_`. -/
def getConstParam : RSDecoderConstParam where
  difopLen := 1248
  difopId := [0xA5, 0xFF, 0x00, 0x5A, 0x11, 0x11, 0x55, 0x55]
  blockId := [0xFF, 0xEE]
  disResolution := 5 / 1000
  rx := 3997 / 100000
  rz := 0

/-- `ntohs` on the little-endian host: the two bytes of the stored value swapped. -/
def ntohs (x : UInt16) : ℕ := x.toNat % 256 * 256 + x.toNat / 256

/-- The conversion of an `int` to `int16_t`: the value modulo `2^16`, in `[-32768, 32768)`. -/
def toInt16 (x : ℤ) : ℤ := x.bmod 65536

/-! ### Packets -/

/-- `RSChannel`, declared outside `src/`: the distance and the intensity of one return. -/
structure RSChannel where
  distance : UInt16
  intensity : UInt8

/-- `RS32MsopBlock`. -/
structure RS32MsopBlock where
  id : Fin 2 → UInt8
  azimuth : UInt16
  channels : Fin 32 → RSChannel

/-- `RSMsopHeaderV1`, declared outside `src/`: the two members the decoder reads, as their
bytes. -/
structure RSMsopHeaderV1 where
  temp : List UInt8
  timestamp : List UInt8

/-- `RS32MsopPkt`; the `index` and `tail` members are read by nothing modelled here. -/
structure RS32MsopPkt where
  header : RSMsopHeaderV1
  blocks : Fin 12 → RS32MsopBlock

/-- `RSCalibrationAngle`, declared outside `src/`: the three bytes of one table entry. -/
def RSCalibrationAngle : Type := Fin 3 → UInt8

/-- `RS32DifopPkt`: the members `processDifopPkt` reads, either itself or through the base
class's `decodeDifopCommon`, which is handed the whole packet. -/
structure RS32DifopPkt where
  id : Fin 8 → UInt8
  rpm : UInt16
  returnMode : UInt8
  verAngleCali : Fin 32 → RSCalibrationAngle
  horiAngleCali : Fin 32 → RSCalibrationAngle

/-- `blocks[i]`. A read past the end is undefined in C++; the model answers a block of zeros. -/
def RS32MsopPkt.block (pkt : RS32MsopPkt) (i : ℕ) : RS32MsopBlock :=
  if h : i < 12 then pkt.blocks ⟨i, h⟩ else ⟨fun _ => 0, 0, fun _ => ⟨0, 0⟩⟩

/-- `channels[i]`, a channel of zeros past the end. -/
def RS32MsopBlock.channel (blk : RS32MsopBlock) (i : ℕ) : RSChannel :=
  if h : i < 32 then blk.channels ⟨i, h⟩ else ⟨0, 0⟩

/-- `memcmp(this->const_param_.BLOCK_ID, block.id, 2) != 0`. -/
def RS32MsopBlock.idMismatch (blk : RS32MsopBlock) : Bool :=
  List.ofFn blk.id != getConstParam.blockId

/-! ### The decoder -/

/-- `RSEchoMode`, declared outside `src/`. -/
inductive RSEchoMode
  | echoSingle
  | echoDual
  deriving DecidableEq, Repr

/-- `DecoderRS32::getEchoMode`: `0x00` is dual return, every other byte single return. -/
def getEchoMode (mode : UInt8) : RSEchoMode :=
  if mode = 0x00 then .echoDual else .echoSingle

/-- The error codes `excb_` is called with. -/
inductive ErrCode
  | wrongPktLength
  | wrongPktHeader
  deriving DecidableEq, Repr

/-- `chan_angles_`, declared outside `src/`, through the three methods the decoder calls. -/
structure ChanAngles where
  vertAdjust : ℕ → ℤ
  horizAdjust : ℕ → ℤ → ℤ
  toUserChan : ℕ → ℕ

/-- The point `decodeMsopPkt` emplaces: the six fields its setters write. -/
structure RSPoint where
  x : PointField
  y : PointField
  z : PointField
  intensity : ℕ
  ring : ℕ
  timestamp : ℚ
  deriving DecidableEq

end DecoderRS32

open DecoderRS32 in
/-- The members of `Decoder<T_PointCloud>` that `DecoderRS32` reads or writes.
`distanceBlock` and `scanBlock` are `distance_block_` and `scan_block_` through the one method
called on them, `in`; `errors` is every error passed to `excb_`, oldest first. -/
structure DecoderRS32 where
  densePoints : Bool
  useLidarClock : Bool
  echoMode : RSEchoMode
  difopReady : Bool
  temperature : ℚ
  chanAngles : ChanAngles
  distanceBlock : ℚ → Bool
  scanBlock : ℤ → Bool
  pointCloud : List RSPoint
  errors : List ErrCode

namespace DecoderRS32

/-- `this->excb_(Error(code))`. -/
def reportError (d : DecoderRS32) (code : ErrCode) : DecoderRS32 :=
  { d with errors := d.errors ++ [code] }

/-- `this->point_cloud_->points.emplace_back(point)`. -/
def emplaceBack (d : DecoderRS32) (p : RSPoint) : DecoderRS32 :=
  { d with pointCloud := d.pointCloud ++ [p] }

end DecoderRS32

end RsDriver
