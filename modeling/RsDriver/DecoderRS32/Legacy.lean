import Mathlib.Data.List.OfFn
import RsDriver.Decoder32.Difop
import RsDriver.DecoderRS32.Difop
import RsDriver.DecoderRS32.Msop
import RsDriver.Decoder32.Azimuth

/-!
`DecoderRS32` against the legacy `Decoder32` on the same bytes: the packet and block ids.

The legacy layouts read an id as one word, `uint64_t id` of a DIFOP packet and `uint16_t id` of
a block, and compare it with `RS32_DIFOP_ID` and `RS32_BLOCK_ID`. The new layouts keep the
bytes, `uint8_t id[8]` and `uint8_t id[2]`, and `memcmp` them with `DIFOP_ID` and `BLOCK_ID` of
`getConstParam`. In both layouts the id is the first member, so both decoders read the same
bytes, and on the little-endian host the word is the value of the bytes least significant
first (`leValue`). The constant words are the values of the constant byte arrays, so the two
decoders accept exactly the same ids (`leWord64_eq_rs32DifopId_iff`,
`leWord16_eq_rs32BlockId_iff`).

They do different things with an id they reject. The legacy DIFOP decoder returns `-2` and
changes nothing, where `processDifopPkt` reports `ERRCODE_WRONGPKTHEADER` and decodes the
packet all the same; on the right id the legacy decoder returns 0 or traps on `rpm_ = 0`. The
legacy MSOP decoder stops at the first block with a wrong id and drops it with every block after
it. `decodeMsopPkt` visits the positions its traverser gives, a parameter here: at each one in a
flagged block it reports the error and decodes the position like any other.
-/

namespace RsDriver

namespace DecoderRS32

/-! ### Little-endian words -/

/-- The number whose bytes, least significant first, are `bs`. -/
def leValue : List UInt8 → ℕ
  | [] => 0
  | b :: bs => b.toNat + 256 * leValue bs

theorem leValue_lt (bs : List UInt8) : leValue bs < 256 ^ bs.length := by
  induction bs with
  | nil => simp [leValue]
  | cons b bs ih =>
      have hb : b.toNat < 256 := UInt8.toNat_lt_size b
      rw [leValue, List.length_cons, pow_succ]
      omega

/-- Byte strings of one length with one value are equal. -/
theorem leValue_inj : ∀ {bs cs : List UInt8}, bs.length = cs.length →
    leValue bs = leValue cs → bs = cs
  | [], [], _, _ => rfl
  | b :: bs, c :: cs, hl, he => by
      have hb : b.toNat < 256 := UInt8.toNat_lt_size b
      have hc : c.toNat < 256 := UInt8.toNat_lt_size c
      simp only [leValue] at he
      rw [UInt8.toNat.inj (by omega : b.toNat = c.toNat),
        leValue_inj (by simpa using hl) (by omega : leValue bs = leValue cs)]

theorem leValue_eq_iff {bs cs : List UInt8} (h : bs.length = cs.length) :
    leValue bs = leValue cs ↔ bs = cs :=
  ⟨leValue_inj h, congrArg leValue⟩

/-- The `uint16_t` the legacy block layout reads from the two id bytes. -/
def leWord16 (b : Fin 2 → UInt8) : UInt16 := UInt16.ofNat (leValue (List.ofFn b))

/-- The `uint64_t` the legacy DIFOP layout reads from the eight id bytes. -/
def leWord64 (b : Fin 8 → UInt8) : UInt64 := UInt64.ofNat (leValue (List.ofFn b))

theorem toNat_leWord16 (b : Fin 2 → UInt8) : (leWord16 b).toNat = leValue (List.ofFn b) := by
  have h := leValue_lt (List.ofFn b)
  rw [List.length_ofFn] at h
  exact Nat.mod_eq_of_lt h

theorem toNat_leWord64 (b : Fin 8 → UInt8) : (leWord64 b).toNat = leValue (List.ofFn b) := by
  have h := leValue_lt (List.ofFn b)
  rw [List.length_ofFn] at h
  exact Nat.mod_eq_of_lt h

/-- Two id bytes read as `RS32_BLOCK_ID` exactly when they are `BLOCK_ID`. -/
theorem leWord16_eq_rs32BlockId_iff (b : Fin 2 → UInt8) :
    leWord16 b = Decoder32.rs32BlockId ↔ List.ofFn b = getConstParam.blockId := by
  rw [← @leValue_eq_iff (List.ofFn b) getConstParam.blockId rfl, ← toNat_leWord16]
  exact ⟨congrArg UInt16.toNat, UInt16.toNat.inj (b := Decoder32.rs32BlockId)⟩

/-- Eight id bytes read as `RS32_DIFOP_ID` exactly when they are `DIFOP_ID`. -/
theorem leWord64_eq_rs32DifopId_iff (b : Fin 8 → UInt8) :
    leWord64 b = Decoder32.rs32DifopId ↔ List.ofFn b = getConstParam.difopId := by
  rw [← @leValue_eq_iff (List.ofFn b) getConstParam.difopId rfl, ← toNat_leWord64]
  exact ⟨congrArg UInt64.toNat, UInt64.toNat.inj (b := Decoder32.rs32DifopId)⟩

/-! ### DIFOP packets -/

/-- A DIFOP packet of zeros with the right id bytes. -/
def idDifopPkt : RS32DifopPkt :=
  ⟨fun i => getConstParam.difopId.getD i.val 0, 0, 0, fun _ _ => 0, fun _ _ => 0⟩

variable (F : FloatRounding) in
/-- On the eight id bytes of one packet, read by the legacy layout as the word `p.id` and by
the new one as `q.id`: the legacy decoder returns `-2` and leaves the decoder as it was exactly
when `processDifopPkt` reports `ERRCODE_WRONGPKTHEADER`, whatever the buffer's size; otherwise it
returns 0 whenever it returns. -/
theorem legacy_rejects_reported_difop (p : Decoder32.RS32DifopPkt) (q : RS32DifopPkt)
    (hid : p.id = leWord64 q.id) (d : Decoder32) (size : ℕ) :
    (ErrCode.wrongPktHeader ∈ difopErrors q size ↔
        Decoder32.decodeDifopPkt F p d = .ok (-2, d)) ∧
      (ErrCode.wrongPktHeader ∉ difopErrors q size →
        ∀ r, Decoder32.decodeDifopPkt F p d = .ok r → r.1 = 0) := by
  have hmem : ErrCode.wrongPktHeader ∈ difopErrors q size ↔ p.id ≠ Decoder32.rs32DifopId := by
    rw [hid, ne_eq, leWord64_eq_rs32DifopId_iff]
    unfold difopErrors
    split_ifs <;> simp_all
  rw [hmem, not_not]
  by_cases h : p.id = Decoder32.rs32DifopId
  · have hret : ∀ r, Decoder32.decodeDifopPkt F p d = .ok r → r.1 = 0 := fun r hr => by
      by_cases h0 : d.rpm = 0
      · rw [Decoder32.decodeDifopPkt_of_rpm_eq_zero h h0] at hr
        cases hr
      · rw [Decoder32.decodeDifopPkt_of_eq h h0] at hr
        cases hr
        rfl
    exact ⟨iff_of_false (not_not.mpr h) fun h' => absurd (hret _ h') (by norm_num),
      fun _ => hret⟩
  · exact ⟨iff_of_true h (Decoder32.decodeDifopPkt_of_ne h), fun h' => absurd h' h⟩

theorem signPkt_legacy_rejects_reported_difop :
    (Decoder32.signPkt 0).id = leWord64 idDifopPkt.id ∧
      (ErrCode.wrongPktHeader ∈ difopErrors idDifopPkt 100 ↔
          Decoder32.decodeDifopPkt .exact (Decoder32.signPkt 0) (Decoder32.fresh 1) =
            .ok (-2, Decoder32.fresh 1)) ∧
        (ErrCode.wrongPktHeader ∉ difopErrors idDifopPkt 100 →
          ∀ r, Decoder32.decodeDifopPkt .exact (Decoder32.signPkt 0) (Decoder32.fresh 1) =
            .ok r → r.1 = 0) :=
  have hid : (Decoder32.signPkt 0).id = leWord64 idDifopPkt.id := rfl
  ⟨hid, legacy_rejects_reported_difop .exact _ _ hid _ _⟩

/-! ### MSOP blocks -/

/-- The legacy and the new view of one MSOP packet agree on the block ids: each block's id word
is the little-endian value of its two id bytes. -/
def SameBlockIds (p : Decoder32.RS32MsopPkt) (q : RS32MsopPkt) : Prop :=
  ∀ i : Fin 12, (p.blocks i).id = leWord16 (q.blocks i).id

/-- The two decoders reject the same blocks, past the end of the packet too, where both read a
block of zeros. -/
theorem idMismatch_iff {p : Decoder32.RS32MsopPkt} {q : RS32MsopPkt} (h : SameBlockIds p q)
    (i : ℕ) : (q.block i).idMismatch = true ↔ (p.block i).id ≠ Decoder32.rs32BlockId := by
  by_cases hi : i < 12
  · rw [Decoder32.RS32MsopPkt.block_of_lt p hi, RS32MsopPkt.block, dif_pos hi, h ⟨i, hi⟩, ne_eq,
      leWord16_eq_rs32BlockId_iff]
    simp [RS32MsopBlock.idMismatch]
  · rw [Decoder32.RS32MsopPkt.block, dif_neg hi, RS32MsopPkt.block, dif_neg hi]
    decide

section

variable (azimuthCalibration : Decoder32 → ℚ → ℕ → ℤ) (F D : FloatRounding) (d : Decoder32)
  (COS SIN : ℤ → ℚ) (calcTemp calcTimeYMD : List UInt8 → ℚ)
  (traverse : RS32MsopPkt → ℚ → List TravPos)

/-- On one MSOP packet with the legacy header id, read by both layouts. The legacy comparison of
a block's id with `RS32_BLOCK_ID` fails exactly where `DecoderRS32`'s `memcmp` flags the block.
The legacy decoder appends the columns of the blocks before the first flagged one, `k`, and
nothing else: every block from `k` on is lost. `DecoderRS32` reports one
`ERRCODE_WRONGPKTHEADER` for each position its traverser visits in a flagged block, and what it
appends at a position does not depend on the flag: a sparse decoder appends one point for every
visited position, in the blocks the legacy decoder drops too. -/
theorem legacy_drops_flagged_blocks (p : Decoder32.RS32MsopPkt) (q : RS32MsopPkt)
    (hid : SameBlockIds p q) (hhdr : p.headerId = Decoder32.rs32MsopId)
    (vec : List Decoder32.VPoint) (e : DecoderRS32) (t : ℚ) :
    let ps := traverse q (pktTs calcTimeYMD e q t)
    let e' := decodeMsopPkt F COS SIN calcTemp calcTimeYMD traverse q t e
    (∀ i, (q.block i).idMismatch = true ↔ (p.block i).id ≠ Decoder32.rs32BlockId) ∧
      ∃ k ≤ 12, (∀ i < k, (q.block i).idMismatch = false) ∧
        (k < 12 → (q.block k).idMismatch = true) ∧
        (Decoder32.decodeMsopPkt azimuthCalibration F D d p vec).vec =
          vec ++ (List.range k).flatMap (Decoder32.blockPoints azimuthCalibration F D d p) ∧
        e'.errors = e.errors ++
          (ps.filter fun pos => (q.block pos.blk).idMismatch).map (fun _ => .wrongPktHeader) ∧
        e'.pointCloud = e.pointCloud ++ ps.flatMap (emitted F COS SIN e q) ∧
        (e.densePoints = false →
          e'.pointCloud = e.pointCloud ++ ps.map (sparsePoint F COS SIN e q)) := by
  dsimp only
  have hk := Decoder32.leadingBlocks_le p 12 0
  have he' := @decodeMsopPkt_eq F COS SIN calcTemp calcTimeYMD traverse q t e
  refine ⟨idMismatch_iff hid, Decoder32.leadingBlocks p 12 0, hk, fun i hi => ?_, fun hlt => ?_,
    ?_, ?_, ?_, fun hs => ?_⟩
  · have hv := Decoder32.valid_of_lt_leadingBlocks p hi
    rw [Nat.zero_add] at hv
    simpa [hv] using idMismatch_iff hid i
  · have hv := Decoder32.invalid_at_leadingBlocks p hlt
    rw [Nat.zero_add] at hv
    exact (idMismatch_iff hid _).mpr hv
  · rw [Decoder32.decodeMsopPkt_of_eq vec hhdr, List.range_eq_range']
  · rw [he', flatMap_blockErrors]
  · rw [he']
  · rw [he', flatMap_emitted_sparse _ hs]

end

/-- A packet of zeros whose block 5 has the id bytes `00 00` and every other block the right
ones. -/
def flaggedPkt : RS32MsopPkt :=
  ⟨⟨[], []⟩, fun i => ⟨fun j => if i.val = 5 then 0 else if j.val = 0 then 0xFF else 0xEE, 0,
    fun _ => ⟨0, 0⟩⟩⟩

/-- The same bytes as the legacy layout reads them. -/
def legacyFlaggedPkt : Decoder32.RS32MsopPkt where
  headerId := Decoder32.rs32MsopId
  blocks i := ⟨if i.val = 5 then 0 else Decoder32.rs32BlockId, 0, fun _ => ⟨0, 0⟩⟩

/-- A traverser visiting channel 0 of blocks 0 and 5. -/
def flaggedTraverser (_ : RS32MsopPkt) (t : ℚ) : List TravPos := [⟨0, 0, 0, t⟩, ⟨5, 0, 0, t⟩]

theorem flaggedPkt_legacy_drops_flagged_blocks :
    SameBlockIds legacyFlaggedPkt flaggedPkt ∧
      legacyFlaggedPkt.headerId = Decoder32.rs32MsopId ∧
      let ps := flaggedTraverser flaggedPkt (pktTs (fun _ => 0) openDecoder flaggedPkt 0)
      let e' := decodeMsopPkt .exact (fun _ => 0) (fun _ => 0) (fun _ => 0) (fun _ => 0)
        flaggedTraverser flaggedPkt 0 openDecoder
      (∀ i, (flaggedPkt.block i).idMismatch = true ↔
          (legacyFlaggedPkt.block i).id ≠ Decoder32.rs32BlockId) ∧
        ∃ k ≤ 12, (∀ i < k, (flaggedPkt.block i).idMismatch = false) ∧
          (k < 12 → (flaggedPkt.block k).idMismatch = true) ∧
          (Decoder32.decodeMsopPkt (fun _ _ _ => 0) .exact .exact (Decoder32.fresh 1)
              legacyFlaggedPkt []).vec =
            [] ++ (List.range k).flatMap
              (Decoder32.blockPoints (fun _ _ _ => 0) .exact .exact (Decoder32.fresh 1)
                legacyFlaggedPkt) ∧
          e'.errors = openDecoder.errors ++
            (ps.filter fun pos => (flaggedPkt.block pos.blk).idMismatch).map
              (fun _ => .wrongPktHeader) ∧
          e'.pointCloud = openDecoder.pointCloud ++
            ps.flatMap (emitted .exact (fun _ => 0) (fun _ => 0) openDecoder flaggedPkt) ∧
          (openDecoder.densePoints = false →
            e'.pointCloud = openDecoder.pointCloud ++
              ps.map (sparsePoint .exact (fun _ => 0) (fun _ => 0) openDecoder flaggedPkt)) :=
  have hid : SameBlockIds legacyFlaggedPkt flaggedPkt := fun i => by
    by_cases h : i.val = 5
    · simp only [legacyFlaggedPkt, flaggedPkt, h, ↓reduceIte]
      rfl
    · simp only [legacyFlaggedPkt, flaggedPkt, h, ↓reduceIte]
      exact ((leWord16_eq_rs32BlockId_iff fun j => if j.val = 0 then 0xFF else 0xEE).mpr
        rfl).symm
  ⟨hid, rfl, legacy_drops_flagged_blocks (fun _ _ _ => 0) .exact .exact (Decoder32.fresh 1)
    (fun _ => 0) (fun _ => 0) (fun _ => 0) (fun _ => 0) flaggedTraverser _ _ hid rfl [] _ _⟩

end DecoderRS32

end RsDriver
