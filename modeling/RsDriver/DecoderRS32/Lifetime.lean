import RsDriver.DecoderRS32.Difop
import RsDriver.DecoderRS32.Msop

/-!
A `DecoderRS32`'s lifetime: any interleaving of `processDifopPkt` and `decodeMsopPkt` calls.

What each call may write is the frame of this module. `decodeMsopPkt` writes `temperature_`, the
point cloud and the error log, and nothing else; `processDifopPkt` writes the error log,
`echo_mode_`, whatever `decodeDifopCommon` writes, and `chan_angles_` when `difop_ready_` is
clear after it.

`processDifopPkt` never sets `difop_ready_` itself; that is left to the base class. When
`decodeDifopCommon` leaves `chan_angles_` alone and never clears `difop_ready_` (`Keeps`), the
angles are fixed from the first state where `difop_ready_` holds, through every later call of
either kind (`chanAngles_fixed_once_ready`).
-/

namespace RsDriver

namespace DecoderRS32

/-! ### Runs of both kinds of call -/

/-- The functions of the base class and its helpers that `DecoderRS32` calls, all declared
outside `src/`. -/
structure BaseOps where
  decodeDifopCommon : RS32DifopPkt → DecoderRS32 → DecoderRS32
  loadFromDifop :
    ChanAngles → (Fin 32 → RSCalibrationAngle) → (Fin 32 → RSCalibrationAngle) → ℕ →
      ChanAngles
  COS : ℤ → ℚ
  SIN : ℤ → ℚ
  calcTemp : List UInt8 → ℚ
  calcTimeYMD : List UInt8 → ℚ
  traverse : RS32MsopPkt → ℚ → List TravPos

/-- What the statements about readiness ask of the base class: `decodeDifopCommon` leaves
`chan_angles_` and never clears `difop_ready_`. -/
def BaseOps.Keeps (B : BaseOps) : Prop :=
  ∀ pkt d, (B.decodeDifopCommon pkt d).chanAngles = d.chanAngles ∧
    (d.difopReady = true → (B.decodeDifopCommon pkt d).difopReady = true)

/-- A call into the decoder: a DIFOP packet with its buffer size, or an MSOP packet with the
host clock's reading at the call. -/
inductive Call
  | difop (pkt : RS32DifopPkt) (size : ℕ)
  | msop (pkt : RS32MsopPkt) (hostTime : ℚ)

/-- The decoder after the call. -/
def Call.run (F : FloatRounding) (B : BaseOps) : Call → DecoderRS32 → DecoderRS32
  | .difop pkt size, d => processDifopPkt B.decodeDifopCommon B.loadFromDifop pkt size d
  | .msop pkt t, d =>
      decodeMsopPkt F B.COS B.SIN B.calcTemp B.calcTimeYMD B.traverse pkt t d

/-- The decoder after a sequence of calls. -/
def runCalls (F : FloatRounding) (B : BaseOps) : List Call → DecoderRS32 → DecoderRS32
  | [], d => d
  | c :: cs, d => runCalls F B cs (c.run F B d)

section

variable {F : FloatRounding} {B : BaseOps}

theorem runCalls_append (cs cs' : List Call) (d : DecoderRS32) :
    runCalls F B (cs ++ cs') d = runCalls F B cs' (runCalls F B cs d) := by
  induction cs generalizing d with
  | nil => rfl
  | cons c cs ih => exact ih _

/-- One call from a ready decoder keeps it ready and keeps its angles. -/
theorem run_keeps_ready (hB : B.Keeps) (c : Call) {d : DecoderRS32} (hd : d.difopReady = true) :
    (c.run F B d).difopReady = true ∧ (c.run F B d).chanAngles = d.chanAngles := by
  cases c with
  | msop pkt t =>
      rw [Call.run, decodeMsopPkt_eq]
      exact ⟨hd, rfl⟩
  | difop pkt size =>
      rw [Call.run, processDifopPkt_eq]
      obtain ⟨hangles, hready⟩ := hB pkt { d with echoMode := getEchoMode pkt.returnMode
                                                  errors := d.errors ++ difopErrors pkt size }
      have hr := hready hd
      rw [loadChanAngles, if_neg (by simp [hr])]
      exact ⟨hr, hangles⟩

/-- From a ready decoder, a whole run keeps it ready and keeps its angles. -/
theorem runCalls_keeps_ready (hB : B.Keeps) (cs : List Call) {d : DecoderRS32}
    (hd : d.difopReady = true) :
    (runCalls F B cs d).difopReady = true ∧ (runCalls F B cs d).chanAngles = d.chanAngles := by
  induction cs generalizing d with
  | nil => exact ⟨hd, rfl⟩
  | cons c cs ih =>
      obtain ⟨hr, ha⟩ := run_keeps_ready hB c hd
      obtain ⟨hr', ha'⟩ := ih hr
      exact ⟨hr', ha'.trans ha⟩

variable (F B) in
/-- Over any interleaving of DIFOP and MSOP calls, with a base class that leaves `chan_angles_`
and never clears `difop_ready_`: from the first state of the run where `difop_ready_` holds,
every later state has it and has the same `chan_angles_`, so every later MSOP call projects with
the same angles. -/
theorem chanAngles_fixed_once_ready (hB : B.Keeps) (cs : List Call) (d : DecoderRS32) :
    ∀ i j, i ≤ j → (runCalls F B (cs.take i) d).difopReady = true →
      (runCalls F B (cs.take j) d).difopReady = true ∧
        (runCalls F B (cs.take j) d).chanAngles = (runCalls F B (cs.take i) d).chanAngles := by
  intro i j hij hi
  obtain ⟨k, rfl⟩ := Nat.exists_eq_add_of_le hij
  rw [List.take_add, runCalls_append]
  exact runCalls_keeps_ready hB _ hi

end

/-- Base functions that change nothing and a traverser with one position. -/
def idleBase : BaseOps where
  decodeDifopCommon _ d := d
  loadFromDifop a _ _ _ := a
  COS _ := 0
  SIN _ := 0
  calcTemp _ := 0
  calcTimeYMD _ := 0
  traverse := stampTraverser

theorem idleBase_chanAngles_fixed_once_ready :
    idleBase.Keeps ∧
      ∀ i j, i ≤ j →
        (runCalls .exact idleBase (List.take i [Call.msop zeroPkt 0])
            { openDecoder with difopReady := true }).difopReady = true →
        (runCalls .exact idleBase (List.take j [Call.msop zeroPkt 0])
            { openDecoder with difopReady := true }).difopReady = true ∧
          (runCalls .exact idleBase (List.take j [Call.msop zeroPkt 0])
              { openDecoder with difopReady := true }).chanAngles =
            (runCalls .exact idleBase (List.take i [Call.msop zeroPkt 0])
              { openDecoder with difopReady := true }).chanAngles :=
  have hB : idleBase.Keeps := fun _ _ => ⟨rfl, id⟩
  ⟨hB, chanAngles_fixed_once_ready .exact idleBase hB _ _⟩

end DecoderRS32

end RsDriver
