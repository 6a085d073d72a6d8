import RsDriver.DecoderRS32.Basic

/-!
`DecoderRS32::processDifopPkt`.

The length and id checks only report: a packet of the wrong size or with the wrong id is decoded
all the same (`processDifopPkt_eq`), where the legacy `Decoder32::decodeDifopPkt` returns `-2` on
a wrong id and changes nothing. What the base class does next, `decodeDifopCommon` and
`chan_angles_.loadFromDifop`, is declared outside `src/`; both are parameters.
-/

namespace RsDriver

namespace DecoderRS32

section

variable (decodeDifopCommon : RS32DifopPkt → DecoderRS32 → DecoderRS32)
  (loadFromDifop :
    ChanAngles → (Fin 32 → RSCalibrationAngle) → (Fin 32 → RSCalibrationAngle) → ℕ → ChanAngles)

/-- The end of `processDifopPkt`: the angle tables are loaded from the packet unless
`difop_ready_`. -/
def loadChanAngles (pkt : RS32DifopPkt) (d : DecoderRS32) : DecoderRS32 :=
  if !d.difopReady then
    { d with chanAngles := loadFromDifop d.chanAngles pkt.verAngleCali pkt.horiAngleCali 32 }
  else d

/-- `DecoderRS32::processDifopPkt` on a buffer of `size` bytes. The `hexdump` of the buffer is
output only. -/
def processDifopPkt (pkt : RS32DifopPkt) (size : ℕ) (d : DecoderRS32) : DecoderRS32 :=
  let d := if size ≠ getConstParam.difopLen then d.reportError .wrongPktLength else d
  let d := if List.ofFn pkt.id ≠ getConstParam.difopId then d.reportError .wrongPktHeader else d
  let d := { d with echoMode := getEchoMode pkt.returnMode }
  let d := decodeDifopCommon pkt d
  loadChanAngles loadFromDifop pkt d

/-- The errors `processDifopPkt` reports before it decodes, in order. -/
def difopErrors (pkt : RS32DifopPkt) (size : ℕ) : List ErrCode :=
  (if size ≠ getConstParam.difopLen then [.wrongPktLength] else []) ++
    (if List.ofFn pkt.id ≠ getConstParam.difopId then [.wrongPktHeader] else [])

/-- Whatever its size and id, a packet is decoded: the base class gets the decoder with the
errors reported and the echo mode of the packet's return-mode byte. -/
theorem processDifopPkt_eq (pkt : RS32DifopPkt) (size : ℕ) (d : DecoderRS32) :
    processDifopPkt decodeDifopCommon loadFromDifop pkt size d =
      loadChanAngles loadFromDifop pkt (decodeDifopCommon pkt
        { d with echoMode := getEchoMode pkt.returnMode
                 errors := d.errors ++ difopErrors pkt size }) := by
  unfold processDifopPkt difopErrors
  split_ifs <;> simp [reportError]

end

end DecoderRS32

end RsDriver
