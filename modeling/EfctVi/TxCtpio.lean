import EfctVi.TxRun

namespace EfctVi

/-- Modelled from the spec: CI_QWORD_FIELD is defined outside src/; it reads the `width` bits
of a 64-bit word from bit `lbn` on. -/
def ciQwordField (word lbn width : Nat) : Nat :=
  (word >>> lbn) % 2 ^ width

/-- Modelled from the spec: CI_SET_QWORD_FIELD is defined outside src/; the field's bits of the
64-bit word are cleared, then `value` is ORed in at its place. -/
def ciSetQwordField (word lbn width value : Nat) : Nat :=
  (word &&& ((2 ^ 64 - 1) ^^^ ((2 ^ width - 1) <<< lbn))) ||| (value <<< lbn)

/-- efct_vi_start_transmit_warm, past its EF_VI_ASSERTs: WARM_FLAG of the fixed header is set. -/
def efctViStartTransmitWarm (d : EfctTxDefs) (vi : TxVi) : TxVi :=
  { vi with efctFixedHeader := ciSetQwordField vi.efctFixedHeader d.warmFlagLbn d.warmFlagWidth 1 }

/-- efct_vi_stop_transmit_warm, past its EF_VI_ASSERTs: WARM_FLAG of the fixed header is
cleared. -/
def efctViStopTransmitWarm (d : EfctTxDefs) (vi : TxVi) : TxVi :=
  { vi with efctFixedHeader := ciSetQwordField vi.efctFixedHeader d.warmFlagLbn d.warmFlagWidth 0 }

/-- The TX part of efct_vi_init: the fixed header carries only TIMESTAMP_FLAG, set when the VI has
EF_VI_TX_TIMESTAMPS. -/
def efctViInitTx (d : EfctTxDefs) (txTimestamps : Bool) (vi : TxVi) : TxVi :=
  { vi with efctFixedHeader := efctTxHeader d 0 0 (if txTimestamps then 1 else 0) 0 0 }

/-- efct_ef_vi_transmitv_ctpio_copy: the CTPIO send, then the fragments copied one after another
into the caller's fallback buffer, whose bytes come last. -/
def efctEfViTransmitvCtpioCopy (d : EfctTxDefs) (space : Int) (vi : TxVi) (frameLen : Nat)
    (iov : List (List UInt8)) (threshold : Nat) : TxVi × Option EfctTxState × List UInt8 :=
  let r := efctEfViTransmitvCtpio d space vi frameLen iov threshold
  (r.1, r.2, iov.foldl (fun fallback bs => fallback ++ bs) [])

theorem txWarmActive_eq (d : EfctTxDefs) (vi : TxVi) :
    txWarmActive d vi = (ciQwordField vi.efctFixedHeader d.warmFlagLbn d.warmFlagWidth != 0) :=
  rfl

section Field

variable {w l k v : Nat}

theorem testBit_ciQwordField (w l k i : Nat) :
    (ciQwordField w l k).testBit i = (decide (i < k) && w.testBit (l + i)) := by
  simp [ciQwordField, Nat.testBit_mod_two_pow, Nat.testBit_shiftRight]

theorem testBit_of_lt {x n i : Nat} (hx : x < 2 ^ n) (hi : n ≤ i) : x.testBit i = false :=
  Nat.testBit_lt_two_pow (lt_of_lt_of_le hx (Nat.pow_le_pow_right (by decide) hi))

/-- Bit by bit, CI_SET_QWORD_FIELD takes the field's bits from `value` and the others from
`word`. -/
theorem testBit_ciSetQwordField (hw : w < 2 ^ 64) (hv : v < 2 ^ k) (hlk : l + k ≤ 64) (i : Nat) :
    (ciSetQwordField w l k v).testBit i =
      if l ≤ i ∧ i < l + k then v.testBit (i - l) else w.testBit i := by
  simp only [ciSetQwordField, Nat.testBit_or, Nat.testBit_and, Nat.testBit_xor,
    Nat.testBit_shiftLeft, Nat.testBit_two_pow_sub_one]
  by_cases h1 : l ≤ i
  · by_cases h2 : i < l + k
    · simp [h1, h2, show i < 64 by omega, show i - l < k by omega]
    · simp [h1, h2, testBit_of_lt hv (show k ≤ i - l by omega), show ¬i - l < k by omega]
      by_cases h3 : i < 64
      · simp [h3]
      · simp [h3, testBit_of_lt hw (show 64 ≤ i by omega)]
  · by_cases h3 : i < 64
    · simp [h1, h3]
    · simp [h1, testBit_of_lt hw (show 64 ≤ i by omega)]

theorem ciSetQwordField_lt (hw : w < 2 ^ 64) (hv : v < 2 ^ k) (hlk : l + k ≤ 64) :
    ciSetQwordField w l k v < 2 ^ 64 :=
  Nat.lt_pow_two_of_testBit _ fun i hi => by
    rw [testBit_ciSetQwordField hw hv hlk, if_neg (by omega), testBit_of_lt hw hi]

/-- CI_QWORD_FIELD reads back what CI_SET_QWORD_FIELD wrote. -/
theorem ciQwordField_set (hw : w < 2 ^ 64) (hv : v < 2 ^ k) (hlk : l + k ≤ 64) :
    ciQwordField (ciSetQwordField w l k v) l k = v := by
  apply Nat.eq_of_testBit_eq
  intro i
  rw [testBit_ciQwordField, testBit_ciSetQwordField hw hv hlk]
  by_cases hi : i < k
  · simp [hi]
  · simp [hi, testBit_of_lt hv (show k ≤ i by omega)]

/-- Writing a field's own value back changes nothing. -/
theorem ciSetQwordField_self (hw : w < 2 ^ 64) (hlk : l + k ≤ 64) :
    ciSetQwordField w l k (ciQwordField w l k) = w := by
  apply Nat.eq_of_testBit_eq
  intro i
  rw [testBit_ciSetQwordField hw
    (show ciQwordField w l k < 2 ^ k from Nat.mod_lt _ (Nat.two_pow_pos k)) hlk, testBit_ciQwordField]
  split_ifs with h
  · simp [show i - l < k by omega, show l + (i - l) = i by omega]
  · rfl

/-- Of two writes to one field, the second wins. -/
theorem ciSetQwordField_set {v' : Nat} (hw : w < 2 ^ 64) (hv : v < 2 ^ k) (hv' : v' < 2 ^ k)
    (hlk : l + k ≤ 64) :
    ciSetQwordField (ciSetQwordField w l k v) l k v' = ciSetQwordField w l k v' := by
  apply Nat.eq_of_testBit_eq
  intro i
  rw [testBit_ciSetQwordField (ciSetQwordField_lt hw hv hlk) hv' hlk,
    testBit_ciSetQwordField hw hv' hlk, testBit_ciSetQwordField hw hv hlk]
  split_ifs <;> rfl

/-- Bits below a field do not reach it. -/
theorem ciQwordField_or_low {x y : Nat} (hy : y < 2 ^ l) :
    ciQwordField (y ||| x) l k = ciQwordField x l k := by
  apply Nat.eq_of_testBit_eq
  intro i
  simp [testBit_ciQwordField, Nat.testBit_or, testBit_of_lt hy (Nat.le_add_right l i)]

end Field

/-- efct_vi_start_transmit_warm and efct_vi_stop_transmit_warm undo each other where their
EF_VI_ASSERTs hold, and change only WARM_FLAG, which tx_warm_active reads. -/
theorem transmit_warm_round_trip {d : EfctTxDefs} {vi : TxVi} (hw : 1 ≤ d.warmFlagWidth)
    (hl : d.warmFlagLbn + d.warmFlagWidth ≤ 64) (hh : vi.efctFixedHeader < 2 ^ 64) :
    (ciQwordField vi.efctFixedHeader d.warmFlagLbn d.warmFlagWidth = 0 →
      txWarmActive d (efctViStartTransmitWarm d vi) = true ∧
        efctViStopTransmitWarm d (efctViStartTransmitWarm d vi) = vi) ∧
    (ciQwordField vi.efctFixedHeader d.warmFlagLbn d.warmFlagWidth = 1 →
      txWarmActive d (efctViStopTransmitWarm d vi) = false ∧
        efctViStartTransmitWarm d (efctViStopTransmitWarm d vi) = vi) ∧
    ∀ i, ¬(d.warmFlagLbn ≤ i ∧ i < d.warmFlagLbn + d.warmFlagWidth) →
      (efctViStartTransmitWarm d vi).efctFixedHeader.testBit i = vi.efctFixedHeader.testBit i ∧
      (efctViStopTransmitWarm d vi).efctFixedHeader.testBit i = vi.efctFixedHeader.testBit i := by
  have h1 : 1 < 2 ^ d.warmFlagWidth := Nat.one_lt_two_pow (by omega)
  have h0 : 0 < 2 ^ d.warmFlagWidth := by omega
  refine ⟨fun hoff => ⟨?_, ?_⟩, fun hon => ⟨?_, ?_⟩, fun i hi => ⟨?_, ?_⟩⟩
  · simp [txWarmActive_eq, efctViStartTransmitWarm, ciQwordField_set hh h1 hl]
  · simp only [efctViStopTransmitWarm, efctViStartTransmitWarm, ciSetQwordField_set hh h1 h0 hl]
    rw [← hoff, ciSetQwordField_self hh hl]
  · simp [txWarmActive_eq, efctViStopTransmitWarm, ciQwordField_set hh h0 hl]
  · simp only [efctViStopTransmitWarm, efctViStartTransmitWarm, ciSetQwordField_set hh h0 h1 hl]
    rw [← hon, ciSetQwordField_self hh hl]
  · simp only [efctViStartTransmitWarm]
    rw [testBit_ciSetQwordField hh h1 hl, if_neg hi]
  · simp only [efctViStopTransmitWarm]
    rw [testBit_ciSetQwordField hh h0 hl, if_neg hi]

/-- The real layout, WARM_FLAG bit 23 of a header with TIMESTAMP_FLAG bit 22 set: start then stop
gives the header back. -/
theorem transmit_warm_round_trip_timestamp_header :
    1 ≤ 1 ∧ 23 + 1 ≤ 64 ∧ 2 ^ 22 < 2 ^ 64 ∧
      (ciQwordField (2 ^ 22) 23 1 = 0 →
        txWarmActive ⟨0, 14, 14, 22, 23, 1, 24, 255, 0xffffffff⟩
            (efctViStartTransmitWarm ⟨0, 14, 14, 22, 23, 1, 24, 255, 0xffffffff⟩
              ⟨0, 0, 2 ^ 22, 0, fun _ => 0, fun _ => 0, 0, 0, 0, 0, 0, false⟩) = true ∧
          efctViStopTransmitWarm ⟨0, 14, 14, 22, 23, 1, 24, 255, 0xffffffff⟩
              (efctViStartTransmitWarm ⟨0, 14, 14, 22, 23, 1, 24, 255, 0xffffffff⟩
                ⟨0, 0, 2 ^ 22, 0, fun _ => 0, fun _ => 0, 0, 0, 0, 0, 0, false⟩) =
            ⟨0, 0, 2 ^ 22, 0, fun _ => 0, fun _ => 0, 0, 0, 0, 0, 0, false⟩) :=
  ⟨le_rfl, by decide, by decide,
    (@transmit_warm_round_trip ⟨0, 14, 14, 22, 23, 1, 24, 255, 0xffffffff⟩
      ⟨0, 0, 2 ^ 22, 0, fun _ => 0, fun _ => 0, 0, 0, 0, 0, 0, false⟩ le_rfl (by decide)
      (by decide)).1⟩

section Stores

/-- The stores of `tx` are `ws`, then stores through the aperture mask `m`, which is its mask. -/
def StoresAfter (ws : List (Nat × Nat)) (m : Nat) (tx : EfctTxState) : Prop :=
  tx.mask = m ∧ ∃ rest, tx.writes = ws ++ rest ∧ ∀ p ∈ rest, p.1 ≤ m

variable {ws : List (Nat × Nat)} {m : Nat} {tx : EfctTxState}

theorem StoresAfter.word (h : StoresAfter ws m tx) (v : Nat) : StoresAfter ws m (efctTxWord tx v) := by
  obtain ⟨hm, rest, hw, hr⟩ := h
  refine ⟨hm, rest ++ [(tx.offset &&& tx.mask, v)], by simp [efctTxWord, hw], fun p hp => ?_⟩
  rcases List.mem_append.mp hp with hp | hp
  · exact hr p hp
  · rw [List.mem_singleton.mp hp, ← hm]
    exact Nat.and_le_right

theorem StoresAfter.fillTail : ∀ (bs : List UInt8) {tx : EfctTxState}, StoresAfter ws m tx →
    StoresAfter ws m (txFillTail tx bs).1
  | [], _, h => h
  | b :: bs, tx, h => by
    simp only [txFillTail]
    split
    exacts [@StoresAfter.fillTail bs (efctTxTailByte tx b) h, h]

theorem StoresAfter.topUp (h : StoresAfter ws m tx) (bs : List UInt8) :
    StoresAfter ws m (txTopUpTail tx bs).1 := by
  unfold txTopUpTail
  split
  · dsimp only
    split
    exacts [(h.fillTail bs).word _, h.fillTail bs]
  · exact h

theorem StoresAfter.blockWords : ∀ (n : Nat) (bs : List UInt8) {tx : EfctTxState},
    StoresAfter ws m tx → StoresAfter ws m (txBlockWords tx n bs).1
  | 0, _, _, h => h
  | n + 1, _, _, h => StoresAfter.blockWords n _ (h.word _)

theorem StoresAfter.tailBytes : ∀ (bs : List UInt8) {tx : EfctTxState}, StoresAfter ws m tx →
    StoresAfter ws m (txTailBytes tx bs)
  | [], _, h => h
  | b :: bs, tx, h => @StoresAfter.tailBytes bs (efctTxTailByte tx b) h

theorem StoresAfter.block (h : StoresAfter ws m tx) (bs : List UInt8) :
    StoresAfter ws m (efctTxBlock tx bs) :=
  StoresAfter.tailBytes _ (StoresAfter.blockWords _ _ (h.topUp bs))

theorem StoresAfter.blocks : ∀ (iov : List (List UInt8)) {tx : EfctTxState},
    StoresAfter ws m tx → StoresAfter ws m (iov.foldl efctTxBlock tx)
  | [], _, h => h
  | bs :: iov, _, h => StoresAfter.blocks iov (h.block bs)

theorem StoresAfter.zeroWords : ∀ (n : Nat) {tx : EfctTxState}, StoresAfter ws m tx →
    StoresAfter ws m (txZeroWords tx n)
  | 0, _, h => h
  | n + 1, _, h => StoresAfter.zeroWords n (h.word 0)

theorem StoresAfter.flush (h : StoresAfter ws m tx) : StoresAfter ws m (txFlush tx) := by
  unfold txFlush
  split
  · exact StoresAfter.zeroWords _ (StoresAfter.word h _)
  · exact StoresAfter.zeroWords _ h

/-- A send from `vi` stores its header word first, then only through vi's aperture mask. -/
theorem txSend_storesAfter (vi : TxVi) (hdr : Nat) (iov : List (List UInt8)) (dmaId len : Nat) :
    StoresAfter [((efctTxInit vi).offset &&& vi.efctApertureMask, hdr)] vi.efctApertureMask
      (efctTxComplete vi (iov.foldl efctTxBlock (efctTxWord (efctTxInit vi) hdr)) dmaId len).2 :=
  (StoresAfter.blocks iov ⟨rfl, [], rfl, fun _ h => absurd h (List.not_mem_nil _)⟩).flush

theorem StoresAfter.le_mask (h : StoresAfter [(a, hdr)] m tx) (ha : a = x &&& m) :
    ∀ p ∈ tx.writes, p.1 ≤ m := by
  obtain ⟨-, rest, hw, hr⟩ := h
  intro p hp
  rw [hw] at hp
  rcases List.mem_cons.mp hp with rfl | hp
  · rw [ha]
    exact Nat.and_le_right
  · exact hr p hp

end Stores

/-- An admitted CTPIO send stores as its first word the header of efct_tx_pkt_header, and records
EF_REQUEST_ID_MASK in the packet's slot when warm mode is on, EFCT_TX_POSTED_ID otherwise. -/
theorem efctEfViTransmitvCtpio_header {d : EfctTxDefs} {space : Int} {vi : TxVi} {len : Nat}
    {iov : List (List UInt8)} {threshold : Nat} {tx : EfctTxState}
    (h : (efctEfViTransmitvCtpio d space vi len iov threshold).2 = some tx) :
    StoresAfter [((efctTxInit vi).offset &&& vi.efctApertureMask,
        efctTxPktHeader d vi (len % 2 ^ 32) (ctpioThreshold d threshold))] vi.efctApertureMask tx ∧
      (efctEfViTransmitvCtpio d space vi len iov threshold).1.ids (vi.added &&& vi.mask) =
        if txWarmActive d vi then d.requestIdMask else efctTxPostedId := by
  unfold efctEfViTransmitvCtpio at h ⊢
  by_cases hc : efctTxCheck space len = true
  · simp only [hc, Bool.not_true, Bool.false_eq_true, ↓reduceIte, Option.some.injEq] at h ⊢
    subst h
    exact ⟨txSend_storesAfter _ _ iov
      (if txWarmActive d vi then d.requestIdMask else efctTxPostedId) len,
      by simp [efctTxComplete, txWarmActive]⟩
  · simp only [Bool.not_eq_true] at hc
    simp [hc] at h

theorem foldl_append_eq_flatten (iov : List (List UInt8)) (acc : List UInt8) :
    iov.foldl (fun fallback bs => fallback ++ bs) acc = acc ++ iov.flatten := by
  induction iov generalizing acc with
  | nil => simp
  | cons bs iov ih => simp [ih]

/-- efct_ef_vi_transmitv_ctpio_copy leaves the frame in the fallback buffer, and an admitted send
from an aligned ct_added stores the header word, those very bytes, then zeros. -/
theorem ctpio_copy_fallback_is_frame {d : EfctTxDefs} {space : Int} {vi : TxVi}
    {iov : List (List UInt8)} {threshold : Nat} (hc : vi.ctAdded < 2 ^ 32)
    (ha : vi.ctAdded % 64 = 0) (hb : (iov.map List.length).sum < 2 ^ 31) :
    let L := (iov.map List.length).sum
    let r := efctEfViTransmitvCtpioCopy d space vi L iov threshold
    r.2.2 = iov.flatten ∧
      (r.2.1 = none ∧ r.1.lastCtpioFailed = true ∨
        ∃ tx hdr, r.2.1 = some tx ∧ r.1.lastCtpioFailed = false ∧
          wordsBytes tx.writes =
            leBytes 8 hdr ++ r.2.2 ++ List.replicate (ciRoundUp (L + 8) 64 - (L + 8)) 0) := by
  intro L r
  have hfb : r.2.2 = iov.flatten := by simpa using foldl_append_eq_flatten iov []
  refine ⟨hfb, ?_⟩
  simp only [r, efctEfViTransmitvCtpioCopy, efctEfViTransmitvCtpio]
  split
  · rename_i hf
    exact .inl ⟨rfl, hf⟩
  · rename_i hf
    let vi' : TxVi := { vi with lastCtpioFailed := !efctTxCheck space L }
    have hs := (@txSend_spec vi' (efctTxPktHeader d vi' (L % 2 ^ 32) (ctpioThreshold d threshold))
      iov (if txWarmActive d vi' then d.requestIdMask else efctTxPostedId) L hc ha
      (List.length_flatten iov).symm hb).2.1
    exact .inr ⟨_, _, rfl, by simpa [efctTxComplete] using hf, by rw [foldl_append_eq_flatten, List.nil_append]; exact hs⟩

/-- The copy of three bytes from ct_added 0 on the real layout: the fallback buffer holds the
frame, and the aperture holds the header word, those bytes and padding. -/
theorem ctpio_copy_fallback_is_frame_three_bytes :
    (0 : Nat) < 2 ^ 32 ∧ 0 % 64 = 0 ∧ ([[1, 2, 3]].map List.length).sum < 2 ^ 31 ∧
      let L := ([[1, 2, 3]].map List.length).sum
      let r := efctEfViTransmitvCtpioCopy ⟨0, 14, 14, 22, 23, 1, 24, 255, 0xffffffff⟩ 64
        ⟨0, 0, 0, 15, fun _ => 0, fun _ => 0, 0, 0, 0, 0, 0, false⟩ L [[1, 2, 3]] 0
      r.2.2 = [[1, 2, 3]].flatten ∧
        (r.2.1 = none ∧ r.1.lastCtpioFailed = true ∨
          ∃ tx hdr, r.2.1 = some tx ∧ r.1.lastCtpioFailed = false ∧
            wordsBytes tx.writes =
              leBytes 8 hdr ++ r.2.2 ++ List.replicate (ciRoundUp (L + 8) 64 - (L + 8)) 0) :=
  ⟨by decide, rfl, by decide,
    @ctpio_copy_fallback_is_frame ⟨0, 14, 14, 22, 23, 1, 24, 255, 0xffffffff⟩ 64
      ⟨0, 0, 0, 15, fun _ => 0, fun _ => 0, 0, 0, 0, 0, 0, false⟩ [[1, 2, 3]] 0 (by decide) rfl
      (by decide)⟩

section Config

/-- The fields of a TX state that only the configuration calls write: the ring mask,
ct_fifo_bytes, the fixed header and the aperture mask. -/
def TxVi.config (vi : TxVi) : Nat × Nat × Nat × Nat :=
  (vi.mask, vi.ctFifoBytes, vi.efctFixedHeader, vi.efctApertureMask)

variable {d : EfctTxDefs} {e : EfctEvDefs} {space : Int} {vi : TxVi} {dmaId : Nat}

theorem txRetire_config {m t : Nat} : ∀ {fuel : Nat} {vi : TxVi},
    (txRetire m t fuel vi).config = vi.config
  | 0, _ => rfl
  | fuel + 1, vi => by
    simp only [txRetire]
    split
    · rfl
    · exact txRetire_config

theorem efctTxHandleEvent_config {s : TxPollState} {event : EfctEvent} :
    (efctTxHandleEvent e s event).1.vi.config = s.vi.config := by
  unfold efctTxHandleEvent
  split <;> exact txRetire_config

/-- Only an ERROR control event touches the TX queue, and then only its `previous`. -/
theorem efctTxHandleControlEvent_config {s : TxPollState} {event : EfctEvent} :
    (efctTxHandleControlEvent e s event).1.vi.config = s.vi.config := by
  simp only [efctTxHandleControlEvent, apply_ite Prod.fst, apply_ite TxPollState.vi, ite_self]
  split_ifs <;> rfl

theorem pollTxLoop_config {evsLen : Int} : ∀ {fuel n : Nat} {s : TxPollState},
    (pollTxLoop e evsLen fuel n s).state.vi.config = s.vi.config
  | 0, _, _ => rfl
  | fuel + 1, n, s => by
    simp only [pollTxLoop]
    split_ifs
    · rfl
    split
    · rfl
    rename_i ev _
    let s1 : TxPollState := { s with evq := { s.evq with evqPtr := (s.evq.evqPtr + 8) % 2 ^ 32 } }
    split_ifs
    · exact @efctTxHandleEvent_config e s1 ev
    · exact pollTxLoop_config.trans (@efctTxHandleControlEvent_config e s1 ev)
    · exact pollTxLoop_config (s := s1)

theorem efctEfViTransmit_config {buf : List UInt8} {r : TxVi × EfctTxState}
    (h : efctEfViTransmit d space vi buf dmaId = some r) : r.1.config = vi.config := by
  unfold efctEfViTransmit at h
  split at h
  · cases h
  · cases h
    rfl

theorem efctEfViTransmitv_config {iov : List (List UInt8)} {r : TxVi × EfctTxState}
    (h : efctEfViTransmitv d space vi iov dmaId = some r) : r.1.config = vi.config := by
  rw [(efctEfViTransmitv_some h).2]
  rfl

theorem efctEfViTransmitvCtpio_config (len : Nat) (iov : List (List UInt8)) (threshold : Nat) :
    (efctEfViTransmitvCtpio d space vi len iov threshold).1.config = vi.config := by
  unfold efctEfViTransmitvCtpio
  by_cases hc : efctTxCheck space len = true <;> simp [hc] <;> rfl

/-- No call of the TX API writes the configuration fields. -/
theorem TxStep.config {s s' : TxPollState} (hs : TxStep d e s s') : s'.vi.config = s.vi.config := by
  cases hs with
  | transmit space buf dmaId =>
    exact option_getD_ringView (P := fun vi => vi.config = s.vi.config) rfl
      fun _ hp => efctEfViTransmit_config hp
  | transmitv space iov dmaId =>
    exact option_getD_ringView (P := fun vi => vi.config = s.vi.config) rfl
      fun _ hp => efctEfViTransmitv_config hp
  | transmitvCtpio space iov threshold => exact efctEfViTransmitvCtpio_config _ iov threshold
  | transmitCtpioFallback space buf dmaId =>
    refine option_getD_ringView (P := fun vi => vi.config = s.vi.config) rfl fun p hp => ?_
    unfold efctEfViTransmitCtpioFallback at hp
    split at hp
    · obtain ⟨r, hr, rfl⟩ := Option.map_eq_some'.mp hp
      exact efctEfViTransmit_config hr
    · cases hp
      rfl
  | transmitvCtpioFallback space iov dmaId =>
    refine option_getD_ringView (P := fun vi => vi.config = s.vi.config) rfl fun p hp => ?_
    unfold efctEfViTransmitvCtpioFallback at hp
    split at hp
    · obtain ⟨r, hr, rfl⟩ := Option.map_eq_some'.mp hp
      exact efctEfViTransmitv_config hr
    · cases hp
      rfl
  | pollTx evsLen => exact pollTxLoop_config

theorem TxReach.config {s0 s : TxPollState} (reach : TxReach d e s0 s) :
    s.vi.config = s0.vi.config := by
  induction reach with
  | start => rfl
  | step _ hs ih => exact (hs.config).trans ih

end Config

end EfctVi
