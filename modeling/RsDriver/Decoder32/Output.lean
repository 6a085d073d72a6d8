import RsDriver.Decoder32.Difop
import RsDriver.Decoder32.Azimuth

/-!
The caller's vector over a decoder's lifetime.

`decodeMsopPkt` reports `height = 32` and appends to the vector it is given; a caller that keeps
one vector and reads it as an organized cloud of 32 rows relies on two facts: its length is a
whole number of columns, and the point at index `i` is on ring `i % 32` (`Organized`). One call
keeps both, whatever the packet and the decoder: it appends nothing or whole blocks of 32 points,
channel after channel (`organized_decodeMsopPkt`). A DIFOP packet changes the decoder and not the
vector, or traps and ends the program. So however the host interleaves the two kinds of packet,
the vector stays organized (`feed_organized`).
-/

namespace RsDriver

namespace Decoder32

/-- The vector is whole columns of height 32, each point on the row of its ring. -/
def Organized (vec : List VPoint) : Prop :=
  vec.length % 32 = 0 ∧ ∀ i p, vec[i]? = some p → p.ringId = i % 32

theorem organized_nil : Organized [] :=
  ⟨rfl, fun _ _ h => by simp at h⟩

/-- A packet the host hands to the decoder. -/
inductive Packet
  | difop (pkt : RS32DifopPkt)
  | msop (pkt : RS32MsopPkt)

section

variable (azimuthCalibration : Decoder32 → ℚ → ℕ → ℤ) (F D : FloatRounding)

/-- The decoder and the caller's one vector after the host feeds the packets in order: each
DIFOP packet to `decodeDifopPkt`, each MSOP packet to `decodeMsopPkt` with the vector. A DIFOP
packet that traps ends the program, with the decoder and the vector as they were. -/
def feed : List Packet → Decoder32 × List VPoint → Decoder32 × List VPoint
  | [], s => s
  | .difop pkt :: ps, (d, vec) =>
      match decodeDifopPkt F pkt d with
      | .ok r => feed ps (r.2, vec)
      | .error _ => (d, vec)
  | .msop pkt :: ps, (d, vec) =>
      feed ps (d, (decodeMsopPkt azimuthCalibration F D d pkt vec).vec)

end

section

variable {azimuthCalibration : Decoder32 → ℚ → ℕ → ℤ} {F D : FloatRounding}
  {d : Decoder32} {pkt : RS32MsopPkt} {vec : List VPoint}

/-- Whole blocks appended to an organized vector keep it organized. -/
theorem organized_append_blocks (hv : Organized vec) (k : ℕ) :
    Organized (vec ++ (List.range' 0 k).flatMap (blockPoints azimuthCalibration F D d pkt)) := by
  obtain ⟨hlen, hring⟩ := hv
  refine ⟨by rw [List.length_append, length_flatMap_blockPoints]; omega, fun i p hp => ?_⟩
  by_cases hi : i < vec.length
  · rw [List.getElem?_append_left hi] at hp
    exact hring i p hp
  · rw [List.getElem?_append_right (by omega)] at hp
    obtain ⟨hj, -⟩ := List.getElem?_eq_some_iff.mp hp
    rw [length_flatMap_blockPoints] at hj
    have hb := @getElem?_flatMap_blockPoints azimuthCalibration F D d pkt 0 k
      ((i - vec.length) / 32) ((i - vec.length) % 32) (by omega) (by omega)
    rw [Nat.div_add_mod, hp, Option.some.injEq] at hb
    rw [hb, msopPoint_ringId]
    omega

/-- One MSOP call keeps the vector organized. -/
theorem organized_decodeMsopPkt (hv : Organized vec) :
    Organized (decodeMsopPkt azimuthCalibration F D d pkt vec).vec := by
  by_cases h : pkt.headerId = rs32MsopId
  · rw [decodeMsopPkt_of_eq vec h]
    exact organized_append_blocks hv _
  · rw [decodeMsopPkt_of_ne vec h]
    exact hv

end

variable (azimuthCalibration : Decoder32 → ℚ → ℕ → ℤ) (F D : FloatRounding) in
/-- However the host interleaves DIFOP and MSOP packets, from any decoder, a vector that starts
organized stays organized: a whole number of columns of height 32, the point at index `i` on
ring `i % 32`. -/
theorem feed_organized (ps : List Packet) (d : Decoder32) {vec : List VPoint}
    (hv : Organized vec) : Organized (feed azimuthCalibration F D ps (d, vec)).2 := by
  induction ps generalizing d vec with
  | nil => exact hv
  | cons p ps ih =>
      cases p with
      | difop pkt =>
          simp only [feed]
          split
          · exact ih _ hv
          · exact hv
      | msop pkt => exact ih _ (organized_decodeMsopPkt hv)

theorem spinPkt_feed_organized :
    Organized [] ∧
      Organized (feed (fun _ _ _ => 0) .exact .exact [.difop (signPkt 0), .msop spinPkt]
        (fresh 1, [])).2 :=
  ⟨organized_nil, feed_organized _ _ _ _ _ organized_nil⟩

end Decoder32

end RsDriver
