import EfctVi.TxCtpio

namespace EfctVi

/-- The fields of a CTPIO header word as the NIC reads them with CI_QWORD_FIELD: PACKET_LENGTH,
CT_THRESH (`ctw` bits), TIMESTAMP_FLAG and WARM_FLAG. -/
def txHeaderFields (d : EfctTxDefs) (ctw w : Nat) : Nat × Nat × Nat × Nat :=
  (ciQwordField w d.packetLengthLbn d.packetLengthWidth, ciQwordField w d.ctThreshLbn ctw,
    ciQwordField w d.timestampFlagLbn 1, ciQwordField w d.warmFlagLbn d.warmFlagWidth)

/-- The layout of efct_tx_header's word: PACKET_LENGTH, CT_THRESH of `ctw` bits, the one bit of
TIMESTAMP_FLAG and WARM_FLAG one above the other, ACTION above them, all within 64 bits. -/
structure TxHeaderLayout (d : EfctTxDefs) (ctw : Nat) : Prop where
  packetLength : d.packetLengthLbn + d.packetLengthWidth ≤ d.ctThreshLbn
  ctThresh : d.ctThreshLbn + ctw ≤ d.timestampFlagLbn
  timestampFlag : d.timestampFlagLbn + 1 ≤ d.warmFlagLbn
  warmFlag : d.warmFlagLbn + d.warmFlagWidth ≤ d.actionLbn
  action : d.actionLbn ≤ 64

section Field

variable {x y v l k l' : Nat}

@[simp] theorem ciQwordField_shiftLeft (v l k : Nat) : ciQwordField (v <<< l) l k = v % 2 ^ k := by
  simp [ciQwordField]

/-- A value ORed in from bit `l'` on does not reach a field that ends there. -/
theorem ciQwordField_or_high (h : l + k ≤ l') :
    ciQwordField (x ||| y <<< l') l k = ciQwordField x l k := by
  apply Nat.eq_of_testBit_eq
  intro i
  simp only [testBit_ciQwordField, Nat.testBit_or, Nat.testBit_shiftLeft]
  by_cases hi : i < k
  · simp [hi, show ¬l' ≤ l + i by omega]
  · simp [hi]

/-- The 64-bit cut of efct_tx_header keeps every field below bit 64. -/
theorem ciQwordField_mod_two_pow_64 (h : l + k ≤ 64) :
    ciQwordField (x % 2 ^ 64) l k = ciQwordField x l k := by
  apply Nat.eq_of_testBit_eq
  intro i
  simp only [testBit_ciQwordField, Nat.testBit_mod_two_pow]
  by_cases hi : i < k
  · simp [hi, show l + i < 64 by omega]
  · simp [hi]

theorem shiftLeft_lt_two_pow {n : Nat} (hv : v < 2 ^ k) (h : l + k ≤ n) : v <<< l < 2 ^ n := by
  rw [Nat.shiftLeft_eq]
  calc v * 2 ^ l < 2 ^ k * 2 ^ l := Nat.mul_lt_mul_of_pos_right hv (Nat.two_pow_pos l)
    _ = 2 ^ (l + k) := by rw [← Nat.pow_add, Nat.add_comm]
    _ ≤ 2 ^ n := Nat.pow_le_pow_right (by decide) h

end Field

section Decode

variable {d : EfctTxDefs} {ctw : Nat}

/-- efct_tx_header round trip: each field the NIC reads is the value the header was built
with, whatever ACTION holds. -/
theorem TxHeaderLayout.decode (hL : TxHeaderLayout d ctw) {len thr ts warm : Nat} (act : Nat)
    (hlen : len < 2 ^ d.packetLengthWidth) (hthr : thr < 2 ^ ctw) (hts : ts < 2)
    (hwarm : warm < 2 ^ d.warmFlagWidth) :
    txHeaderFields d ctw (efctTxHeader d len thr ts warm act) = (len, thr, ts, warm) := by
  obtain ⟨h1, h2, h3, h4, h5⟩ := hL
  have hb : len <<< d.packetLengthLbn < 2 ^ d.ctThreshLbn := shiftLeft_lt_two_pow hlen h1
  have hc : len <<< d.packetLengthLbn ||| thr <<< d.ctThreshLbn < 2 ^ d.timestampFlagLbn :=
    Nat.or_lt_two_pow (shiftLeft_lt_two_pow hlen (by omega)) (shiftLeft_lt_two_pow hthr h2)
  have hw : len <<< d.packetLengthLbn ||| thr <<< d.ctThreshLbn ||| ts <<< d.timestampFlagLbn <
      2 ^ d.warmFlagLbn :=
    Nat.or_lt_two_pow (lt_of_lt_of_le hc (Nat.pow_le_pow_right (by decide) (by omega)))
      (shiftLeft_lt_two_pow (k := 1) hts h3)
  simp only [txHeaderFields, efctTxHeader, Prod.mk.injEq]
  simp (disch := omega) only [ciQwordField_mod_two_pow_64, ciQwordField_or_high]
  rw [ciQwordField_or_low hb, ciQwordField_or_low hc, ciQwordField_or_low hw]
  simp only [ciQwordField_shiftLeft]
  exact ⟨Nat.mod_eq_of_lt hlen, Nat.mod_eq_of_lt hthr, Nat.mod_eq_of_lt hts,
    Nat.mod_eq_of_lt hwarm⟩

/-- efct_tx_pkt_header over the fixed header efct_vi_init builds: the one header word with the
length, the threshold and the timestamp request. -/
theorem efctTxPktHeader_init (ts : Bool) (vi : TxVi) (len thr : Nat) :
    efctTxPktHeader d (efctViInitTx d ts vi) len thr =
      efctTxHeader d len thr (if ts then 1 else 0) 0 0 := by
  apply Nat.eq_of_testBit_eq
  intro i
  simp only [efctTxPktHeader, efctViInitTx, efctTxHeader, Nat.zero_shiftLeft, Nat.or_zero,
    Nat.zero_or, Nat.testBit_or, Nat.testBit_mod_two_pow]
  cases decide (i < 64) <;> simp

end Decode

section Run

variable {d : EfctTxDefs} {e : EfctEvDefs} {ctw : Nat} {ts : Bool}

/-- The first word a send stores is its header. -/
theorem StoresAfter.head_eq {a hdr m : Nat} {tx : EfctTxState} (h : StoresAfter [(a, hdr)] m tx) :
    tx.writes.head? = some (a, hdr) := by
  obtain ⟨-, rest, hw, -⟩ := h
  rw [hw]
  rfl

/-- Every send of the TX API from a VI whose fixed header efct_vi_init built stores first a
header word the NIC decodes into the packet's length, the CT_THRESH the send asked for, the
VI's timestamp request and a clear WARM_FLAG. -/
theorem header_decodes {vi : TxVi} (hL : TxHeaderLayout d ctw)
    (hfix : vi.efctFixedHeader = efctTxHeader d 0 0 (if ts then 1 else 0) 0 0)
    {tx : EfctTxState} {a len thr : Nat}
    (hs : StoresAfter [(a, efctTxPktHeader d vi len thr)] vi.efctApertureMask tx)
    (hlen : len < 2 ^ d.packetLengthWidth) (hthr : thr < 2 ^ ctw) :
    ∃ a w, tx.writes.head? = some (a, w) ∧
      txHeaderFields d ctw w = (len, thr, if ts then 1 else 0, 0) := by
  refine ⟨a, _, hs.head_eq, ?_⟩
  have hinit : efctTxPktHeader d vi len thr =
      efctTxPktHeader d (efctViInitTx d ts vi) len thr := by
    simp only [efctTxPktHeader, efctViInitTx, hfix]
  rw [hinit, efctTxPktHeader_init]
  exact hL.decode 0 hlen hthr (by split <;> decide) (Nat.two_pow_pos _)

end Run

/-- On every TX run from a VI that efct_vi_init built, the header word of each admitted send decodes
into its length, its CT_THRESH, the VI's TIMESTAMP_FLAG and a clear WARM_FLAG. -/
theorem tx_header_round_trip {d : EfctTxDefs} {e : EfctEvDefs} {ctw : Nat} {ts : Bool}
    {s0 s : TxPollState} (hL : TxHeaderLayout d ctw) (hlo : 2 ≤ d.ctDisable)
    (hhi : d.ctDisable < 2 ^ 26) (hdis : d.ctDisable < 2 ^ ctw) (hplw : d.packetLengthWidth ≤ 32)
    (reach : TxReach d e { s0 with vi := efctViInitTx d ts s0.vi } s) :
    (∀ space buf dmaId r, buf.length < 2 ^ d.packetLengthWidth →
      efctEfViTransmit d space s.vi buf dmaId = some r →
      ∃ a w, r.2.writes.head? = some (a, w) ∧
        txHeaderFields d ctw w = (buf.length, d.ctDisable, if ts then 1 else 0, 0)) ∧
    (∀ space iov dmaId r, (iov.map List.length).sum < 2 ^ d.packetLengthWidth →
      efctEfViTransmitv d space s.vi iov dmaId = some r →
      ∃ a w, r.2.writes.head? = some (a, w) ∧
        txHeaderFields d ctw w = ((iov.map List.length).sum, d.ctDisable, if ts then 1 else 0, 0)) ∧
    ∀ space len iov threshold tx, len < 2 ^ d.packetLengthWidth → threshold < 2 ^ 32 →
      (efctEfViTransmitvCtpio d space s.vi len iov threshold).2 = some tx →
      ∃ a w, tx.writes.head? = some (a, w) ∧
        txHeaderFields d ctw w = (len, ctpioThreshold d threshold, if ts then 1 else 0, 0) := by
  have hfix : s.vi.efctFixedHeader = efctTxHeader d 0 0 (if ts then 1 else 0) 0 0 :=
    congrArg (fun c => c.2.2.1) reach.config
  refine ⟨fun space buf dmaId r hlen hr => ?_, fun space iov dmaId r hlen hr => ?_,
    fun space len iov threshold tx hlen ht htx => ?_⟩
  · unfold efctEfViTransmit at hr
    split at hr
    · cases hr
    · cases hr
      exact header_decodes hL hfix (txSend_storesAfter s.vi _ [buf] dmaId buf.length) hlen hdis
  · rw [(efctEfViTransmitv_some hr).2]
    exact header_decodes hL hfix (txSend_storesAfter s.vi _ iov dmaId _) hlen hdis
  · have hlen32 : len % 2 ^ 32 = len :=
      Nat.mod_eq_of_lt (lt_of_lt_of_le hlen (Nat.pow_le_pow_right (by decide) hplw))
    have hthr : ctpioThreshold d threshold < 2 ^ ctw := by
      rw [ctpioThreshold_eq_min hlo hhi ht]
      exact lt_of_le_of_lt (min_le_left _ _) hdis
    have hs := (efctEfViTransmitvCtpio_header htx).1
    rw [hlen32] at hs
    exact header_decodes hL hfix hs hlen hthr

/-- The hardware layout, from a zero VI with EF_VI_TX_TIMESTAMPS: every send's header decodes with
TIMESTAMP_FLAG set. -/
theorem tx_header_round_trip_timestamps :
    let d : EfctTxDefs := ⟨0, 14, 14, 22, 23, 1, 24, 255, 0xffffffff⟩
    let s0 : TxPollState := ⟨⟨0, 0, 0, 0, fun _ => 0, fun _ => 0, 0, 0, 0, 0, 0, false⟩,
      ⟨0, fun _ => ⟨0, 0, 0, 0, 0, 0, 0, 0, 0, 0, 0, 0⟩, 0, 0, 0, 0, 0, 0, 0⟩⟩
    let s : TxPollState := { s0 with vi := efctViInitTx d true s0.vi }
    TxHeaderLayout d 8 ∧
    (∀ space buf dmaId r, buf.length < 2 ^ d.packetLengthWidth →
      efctEfViTransmit d space s.vi buf dmaId = some r →
      ∃ a w, r.2.writes.head? = some (a, w) ∧
        txHeaderFields d 8 w = (buf.length, d.ctDisable, if true then 1 else 0, 0)) ∧
    (∀ space iov dmaId r, (iov.map List.length).sum < 2 ^ d.packetLengthWidth →
      efctEfViTransmitv d space s.vi iov dmaId = some r →
      ∃ a w, r.2.writes.head? = some (a, w) ∧
        txHeaderFields d 8 w = ((iov.map List.length).sum, d.ctDisable, if true then 1 else 0, 0)) ∧
    ∀ space len iov threshold tx, len < 2 ^ d.packetLengthWidth → threshold < 2 ^ 32 →
      (efctEfViTransmitvCtpio d space s.vi len iov threshold).2 = some tx →
      ∃ a w, tx.writes.head? = some (a, w) ∧
        txHeaderFields d 8 w = (len, ctpioThreshold d threshold, if true then 1 else 0, 0) :=
  ⟨⟨by decide, by decide, by decide, by decide, by decide⟩,
    @tx_header_round_trip ⟨0, 14, 14, 22, 23, 1, 24, 255, 0xffffffff⟩
      ⟨0, 1, 0, 1, 2, 3, 8, 1, 2, 16, 3, 4⟩ 8 true
      ⟨⟨0, 0, 0, 0, fun _ => 0, fun _ => 0, 0, 0, 0, 0, 0, false⟩,
        ⟨0, fun _ => ⟨0, 0, 0, 0, 0, 0, 0, 0, 0, 0, 0, 0⟩, 0, 0, 0, 0, 0, 0, 0⟩⟩ _
      ⟨by decide, by decide, by decide, by decide, by decide⟩ (by decide) (by decide) (by decide)
      (by decide) .start⟩

end EfctVi
