import RsDriver.DecoderRS32.Msop

/-!
A `DecoderRS32` fed a sequence of MSOP packets, each with the host clock's reading at its call.

`decodeMsopPkt` writes `temperature_`, the point cloud and the error log, and reads the decoder
only through its configuration: `param_`, `chan_angles_` and the two windows. Along a session the
configuration therefore stays put, and the cloud grows by what each call's positions emit
(`msopSession_eq`). The placeholder of a sparse cloud is its only point with a NaN `x`, so a
dense decoder's cloud is a sparse decoder's with the placeholders taken out, after every
sequence of packets.
-/

namespace RsDriver

namespace DecoderRS32

section

variable (F : FloatRounding) (COS SIN : ℤ → ℚ) (calcTemp calcTimeYMD : List UInt8 → ℚ)
  (traverse : RS32MsopPkt → ℚ → List TravPos)

/-- The decoder after `decodeMsopPkt` on each packet in turn, each packet paired with the host
clock's reading at its call. -/
def msopSession : List (RS32MsopPkt × ℚ) → DecoderRS32 → DecoderRS32
  | [], d => d
  | c :: cs, d =>
      msopSession cs (decodeMsopPkt F COS SIN calcTemp calcTimeYMD traverse c.1 c.2 d)

/-- The points one call appends. -/
def callPoints (d : DecoderRS32) (c : RS32MsopPkt × ℚ) : List RSPoint :=
  (traverse c.1 (pktTs calcTimeYMD d c.1 c.2)).flatMap (emitted F COS SIN d c.1)

/-- The errors one call reports. -/
def callErrors (d : DecoderRS32) (c : RS32MsopPkt × ℚ) : List ErrCode :=
  (traverse c.1 (pktTs calcTimeYMD d c.1 c.2)).flatMap (blockErrors c.1)

end

section

variable {F : FloatRounding} {COS SIN : ℤ → ℚ} {calcTemp calcTimeYMD : List UInt8 → ℚ}
  {traverse : RS32MsopPkt → ℚ → List TravPos} {d : DecoderRS32} {pkt : RS32MsopPkt}

/-- Along a session the cloud and the error log only grow, each call adding what the decoder it
started from emits and reports. -/
theorem msopSession_eq (cs : List (RS32MsopPkt × ℚ)) (d : DecoderRS32) :
    (msopSession F COS SIN calcTemp calcTimeYMD traverse cs d).pointCloud =
        d.pointCloud ++ cs.flatMap (callPoints F COS SIN calcTimeYMD traverse d) ∧
      (msopSession F COS SIN calcTemp calcTimeYMD traverse cs d).errors =
        d.errors ++ cs.flatMap (callErrors calcTimeYMD traverse d) := by
  induction cs generalizing d with
  | nil => simp [msopSession]
  | cons c cs ih =>
      rw [msopSession, (ih _).1, (ih _).2, decodeMsopPkt_eq]
      simp only [List.flatMap_cons, List.append_assoc]
      exact ⟨rfl, rfl⟩

/-- A point of a sparse cloud has a NaN `x` exactly when the gate turned its position away. -/
theorem sparsePoint_x_eq_nan {pos : TravPos} :
    (sparsePoint F COS SIN d pkt pos).x = .nan ↔ admits F d pkt pos = false := by
  unfold sparsePoint
  cases admits F d pkt pos <;> simp [gatedPoint, nanPoint]

theorem filter_sparsePoint (ps : List TravPos) :
    (ps.map (sparsePoint F COS SIN d pkt)).filter (fun p => p.x != .nan) =
      (ps.filter (admits F d pkt)).map (sparsePoint F COS SIN d pkt) := by
  rw [List.filter_map]
  congr 1
  refine List.filter_congr fun pos _ => ?_
  cases h : admits F d pkt pos <;> simp [sparsePoint_x_eq_nan, h]

/-- One call of a dense decoder appends the points of the same call of a sparse decoder, the
placeholders left out. -/
theorem callPoints_dense (c : RS32MsopPkt × ℚ) :
    callPoints F COS SIN calcTimeYMD traverse { d with densePoints := true } c =
      (callPoints F COS SIN calcTimeYMD traverse { d with densePoints := false } c).filter
        (fun p => p.x != .nan) := by
  unfold callPoints
  rw [flatMap_emitted_dense _ rfl, flatMap_emitted_sparse _ rfl, filter_sparsePoint]
  rfl

variable (F COS SIN calcTemp calcTimeYMD traverse) in
/-- Run a sparse and a dense decoder, otherwise the same, through the same MSOP packets at the
same clock readings. After any number of packets both clouds still begin with the cloud they
started from; the dense one continues with the points the sparse one added, less its NaN
placeholders; and both have reported the same errors. -/
theorem dense_session_drops_placeholders (cs : List (RS32MsopPkt × ℚ)) (d : DecoderRS32) :
    let sparse := msopSession F COS SIN calcTemp calcTimeYMD traverse cs
      { d with densePoints := false }
    let dense := msopSession F COS SIN calcTemp calcTimeYMD traverse cs
      { d with densePoints := true }
    ∃ new, sparse.pointCloud = d.pointCloud ++ new ∧
      dense.pointCloud = d.pointCloud ++ new.filter (fun p => p.x != .nan) ∧
      dense.errors = sparse.errors := by
  refine ⟨_, (msopSession_eq cs _).1, ?_, ?_⟩
  · rw [(msopSession_eq cs _).1, List.filter_flatMap]
    exact congrArg _ (congrArg cs.flatMap (funext fun c => callPoints_dense c))
  · rw [(msopSession_eq cs _).2, (msopSession_eq cs _).2]
    rfl

end

end DecoderRS32

end RsDriver
