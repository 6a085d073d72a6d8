import RsDriver.Arith

/-!
The data of `decoder_32.hpp`: its constants, the packed packet layouts, the members of the base
decoder that `Decoder32` reads or writes, and the point it emits.

A packet is the record the C++ cast `(RS32_MsopPkt *)pkt` makes of the raw bytes: one field per
struct member that the decoder reads, each with the member's C++ type, and an array as a function
on `Fin`. Every 1248-byte buffer is such a record and every record comes from a buffer, so a
statement about all records is a statement about all buffers. Members no function reads (the
MSOP timestamp and tail, the DIFOP network and version blocks, ...) are left out.

`DecoderBase` is not under `src/`. The members `Decoder32` uses keep their names; the tables the
calibration writes are functions on `ℕ`, so a write at any index is expressible and the
statements about where the decoder writes have content. `rpm_` and `pkts_per_frame_` are
`int`s. The `float` members are the rationals they hold, so none of them is a NaN: a NaN
`max_distance_` or `min_distance_` fails every comparison and passes both clamps of the
constructor, which the model cannot show.
-/

namespace RsDriver

namespace Decoder32

/-! ### The constants of `decoder_32.hpp` -/

def rs32ChannelsPerBlock : ℕ := 32

def rs32BlocksPerPkt : ℕ := 12

def rs32PointsChannelPerSecond : ℕ := 18000

def rs32BlocksChannelPerPkt : ℕ := 12

def rs32MsopId : UInt64 := 0xA050A55A0A05AA55

def rs32BlockId : UInt16 := 0xEEFF

def rs32DifopId : UInt64 := 0x555511115A00FFA5

def rs32ChannelToffset : ℕ := 3

def rs32FiringTduration : ℕ := 50

/-- Modelled from the spec: `RS_ECHO_DUAL` is defined outside `src/`. The spec reads the return
modes `0x01` and `0x02` as single return and every other byte as dual, so the constant is
neither `1` nor `2`; it is `0` here. -/
def rsEchoDual : ℕ := 0

/-- Modelled from the spec: `RS_SWAP_SHORT` is defined outside `src/`. The spec reads the 16-bit
fields of a packet big-endian, which on the little-endian host is the swap of the two bytes of
the value as stored. -/
def rsSwapShort (x : UInt16) : ℤ := ((x.toNat % 256 * 256 + x.toNat / 256 : ℕ) : ℤ)

/-- Modelled from the spec: `RS_RESOLUTION_5mm_DISTANCE_COEF` is defined outside `src/`; the
spec gives 0.005 m per unit, here the `double` nearest to it. -/
def rsResolution5mmDistanceCoef : ℚ := 5764607523034235 / 1152921504606846976

/-- The `float` literal `0.1f`, the binary32 number nearest to `1/10`. -/
def floatTenth : ℚ := 13421773 / 134217728

/-- The `float` literal `0.4f`. -/
def floatPointFour : ℚ := 13421773 / 33554432

theorem rsSwapShort_nonneg (x : UInt16) : 0 ≤ rsSwapShort x := Int.ofNat_nonneg _

theorem rsSwapShort_le (x : UInt16) : rsSwapShort x ≤ 65535 := by
  have : x.toNat < 65536 := x.toNat_lt_size
  unfold rsSwapShort
  omega

/-! ### Packets -/

/-- `RS_Channel`: the distance and the intensity of one laser's return. -/
structure RSChannel where
  distance : UInt16
  intensity : UInt8

/-- `RS32_MsopBlock`. -/
structure RS32MsopBlock where
  id : UInt16
  azimuth : UInt16
  channels : Fin 32 → RSChannel

/-- `RS32_MsopPkt`; of the header the decoder reads only `header.id`. -/
structure RS32MsopPkt where
  headerId : UInt64
  blocks : Fin 12 → RS32MsopBlock

/-- `RS32_DifopPkt`: the members `decodeDifopPkt` reads. -/
structure RS32DifopPkt where
  id : UInt64
  returnMode : UInt8
  pitchCali : Fin 96 → UInt8
  yawCali : Fin 96 → UInt8

/-- `channels[i]`. A read past the end is undefined in C++; the model answers a zero channel
there, and the decoder never asks (`channel_idx < 32`). -/
def RS32MsopBlock.channel (blk : RS32MsopBlock) (i : ℕ) : RSChannel :=
  if h : i < 32 then blk.channels ⟨i, h⟩ else ⟨0, 0⟩

/-- `blocks[i]`, a zero block past the end; `pairedBlock_lt` shows the decoder never reads
there. -/
def RS32MsopPkt.block (pkt : RS32MsopPkt) (i : ℕ) : RS32MsopBlock :=
  if h : i < 12 then pkt.blocks ⟨i, h⟩ else ⟨0, 0, fun _ => ⟨0, 0⟩⟩

/-- `RS_SWAP_SHORT(blocks[i].azimuth)`. -/
def RS32MsopPkt.azimuth (pkt : RS32MsopPkt) (i : ℕ) : ℤ := rsSwapShort (pkt.block i).azimuth

/-- `pitch_cali[k]` as an `int`. -/
def RS32DifopPkt.pitch (pkt : RS32DifopPkt) (k : ℕ) : ℕ :=
  if h : k < 96 then (pkt.pitchCali ⟨k, h⟩).toNat else 0

/-- `yaw_cali[k]` as an `int`. -/
def RS32DifopPkt.yaw (pkt : RS32DifopPkt) (k : ℕ) : ℕ :=
  if h : k < 96 then (pkt.yawCali ⟨k, h⟩).toNat else 0

theorem RS32MsopPkt.block_of_lt (pkt : RS32MsopPkt) {i : ℕ} (h : i < 12) :
    pkt.block i = pkt.blocks ⟨i, h⟩ := dif_pos h

theorem RS32MsopPkt.azimuth_nonneg (pkt : RS32MsopPkt) (i : ℕ) : 0 ≤ pkt.azimuth i :=
  rsSwapShort_nonneg _

theorem RS32MsopPkt.azimuth_le (pkt : RS32MsopPkt) (i : ℕ) : pkt.azimuth i ≤ 65535 :=
  rsSwapShort_le _

theorem RS32DifopPkt.pitch_lt (pkt : RS32DifopPkt) (k : ℕ) : pkt.pitch k < 256 := by
  unfold RS32DifopPkt.pitch; split
  · exact UInt8.toNat_lt_size _
  · omega

theorem RS32DifopPkt.yaw_lt (pkt : RS32DifopPkt) (k : ℕ) : pkt.yaw k < 256 := by
  unfold RS32DifopPkt.yaw; split
  · exact UInt8.toNat_lt_size _
  · omega

/-- The point `decodeMsopPkt` pushes: `vpoint` with the `RS_POINT_COMPLEX` fields. -/
structure VPoint where
  x : PointField
  y : PointField
  z : PointField
  intensity : PointField
  distance : ℚ
  ringId : ℕ
  echoId : ℕ
  deriving DecidableEq

end Decoder32

/-- The members of `DecoderBase` that `Decoder32` reads or writes. `caliDataFlag` is the bit
pattern of the `int` `cali_data_flag_`; the lookup tables answer every index, and only
`[0, 36000)` is filled by the base constructor. -/
structure Decoder32 where
  echoMode : ℕ
  rpm : ℤ
  pktsPerFrame : ℤ
  caliDataFlag : BitVec 32
  vertAngleList : ℕ → ℚ
  horiAngleList : ℕ → ℚ
  maxDistance : ℚ
  minDistance : ℚ
  angleFlag : Bool
  startAngle : ℤ
  endAngle : ℤ
  rx : ℚ
  rz : ℚ
  cosLookupTable : ℤ → ℚ
  sinLookupTable : ℤ → ℚ

namespace Decoder32

/-- `echo_mode_ == RS_ECHO_DUAL`. -/
def isDual (d : Decoder32) : Bool := d.echoMode = rsEchoDual

/-- Bit `0x2` of `cali_data_flag_`: the angle tables have been loaded. -/
def caliReady (d : Decoder32) : Bool := d.caliDataFlag &&& 2#32 != 0#32

/-- The two calibration tables. -/
def tables (d : Decoder32) : (ℕ → ℚ) × (ℕ → ℚ) := (d.vertAngleList, d.horiAngleList)

/-- Setting bit `0x2` marks the tables loaded, whatever the other bits are. -/
theorem caliReady_or_two (f : BitVec 32) :
    (f ||| 2#32) &&& 2#32 = 2#32 := by
  ext i
  simp only [BitVec.getLsbD_and, BitVec.getLsbD_or]
  cases (2#32).getLsbD i <;> simp

/-- A decoder with nothing loaded, in echo mode `echoMode`: zero tables, no flag, the full
window; the decoder of the statements on fixed inputs. -/
def fresh (echoMode : ℕ) : Decoder32 where
  echoMode := echoMode
  rpm := 600
  pktsPerFrame := 0
  caliDataFlag := 0#32
  vertAngleList _ := 0
  horiAngleList _ := 0
  maxDistance := 200
  minDistance := floatPointFour
  angleFlag := true
  startAngle := 0
  endAngle := 36000
  rx := 0
  rz := 0
  cosLookupTable _ := 0
  sinLookupTable _ := 0

/-- The body of the constructor `Decoder32(param)`, run on the decoder the base constructor
built: the lens offsets, and the clamp of the distance window. The clamp compares `float`s; a
NaN distance, which the rationals here cannot hold, would pass it unchanged. -/
def init (d : Decoder32) : Decoder32 :=
  let maxDistance :=
    if d.maxDistance > 200 ∨ d.maxDistance < floatPointFour then 200 else d.maxDistance
  let minDistance :=
    if d.minDistance > 200 ∨ d.minDistance > maxDistance then floatPointFour else d.minDistance
  { d with rx := 10729365 / 268435456, rz := 0, maxDistance, minDistance }

end Decoder32

end RsDriver
