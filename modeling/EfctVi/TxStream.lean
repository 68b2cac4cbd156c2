import EfctVi.PktId

namespace EfctVi

/-- The `w` bytes of `n` in address order on a little-endian host, least significant first. -/
def leBytes : Nat → Nat → List UInt8
  | 0, _ => []
  | w + 1, n => UInt8.ofNat n :: leBytes w (n / 256)

/-- The word whose bytes in address order are `bs` on a little-endian host: what
`*(uint64_t*)base` loads from eight bytes. -/
def leWord : List UInt8 → Nat
  | [] => 0
  | b :: bs => b.toNat + 256 * leWord bs

/-- The value of a tail filled by `tail = (tail << 8) | byte` from the bytes `bs` in order. -/
def beWord (bs : List UInt8) : Nat :=
  leWord bs.reverse

/-- Modelled from the spec: CI_BSWAP_BE64 is defined outside src/; on a little-endian host it
reverses the bytes of the word, the spec's big-endian swap. -/
def ciBswapBe64 (x : Nat) : Nat :=
  leWord (leBytes 8 x).reverse

/-- The bytes that the words `ws` put in the aperture, in address order. -/
def wordsBytes (ws : List (Nat × Nat)) : List UInt8 :=
  ws.flatMap fun w => leBytes 8 w.2

/-- struct efct_tx_state: the words stored through its `aperture` pointer so far (index and
value, oldest first), the left-over bytes in `tail` and their number, the word offset from the
start of the aperture, and the aperture mask. -/
structure EfctTxState where
  writes : List (Nat × Nat)
  tail : Nat
  tailLen : Nat
  offset : Nat
  mask : Nat

/-- efct_tx_word: store `value` at `offset & mask`, and step the 64-bit `offset`. -/
def efctTxWord (tx : EfctTxState) (value : Nat) : EfctTxState :=
  { tx with
    writes := tx.writes ++ [(tx.offset &&& tx.mask, value)]
    offset := (tx.offset + 1) % 2 ^ 64 }

/-- efct_tx_tail_byte, past its BUG_ON. -/
def efctTxTailByte (tx : EfctTxState) (byte : UInt8) : EfctTxState :=
  { tx with tail := (tx.tail <<< 8 ||| byte.toNat) % 2 ^ 64, tailLen := tx.tailLen + 1 }

/-- The first loop of efct_tx_block: bytes go into the tail while it holds fewer than eight. -/
def txFillTail (tx : EfctTxState) : List UInt8 → EfctTxState × List UInt8
  | [] => (tx, [])
  | b :: bs => if tx.tailLen < 8 then txFillTail (efctTxTailByte tx b) bs else (tx, b :: bs)

/-- The part of efct_tx_block before its word loop: a tail left over by an earlier block takes
bytes until it holds eight, and is then stored byte-swapped as one word. -/
def txTopUpTail (tx : EfctTxState) (bytes : List UInt8) : EfctTxState × List UInt8 :=
  if tx.tailLen ≠ 0 then
    let r := txFillTail tx bytes
    (if r.1.tailLen = 8 then { efctTxWord r.1 (ciBswapBe64 r.1.tail) with tail := 0, tailLen := 0 }
      else r.1, r.2)
  else (tx, bytes)

/-- The word loop of efct_tx_block, `while( len >= 8 )`, which runs `len / 8` times. -/
def txBlockWords (tx : EfctTxState) : Nat → List UInt8 → EfctTxState × List UInt8
  | 0, bytes => (tx, bytes)
  | n + 1, bytes => txBlockWords (efctTxWord tx (leWord (bytes.take 8))) n (bytes.drop 8)

/-- The last loop of efct_tx_block: the bytes left go into the tail. -/
def txTailBytes (tx : EfctTxState) (bytes : List UInt8) : EfctTxState :=
  bytes.foldl efctTxTailByte tx

def efctTxBlock (tx : EfctTxState) (bytes : List UInt8) : EfctTxState :=
  let r := txTopUpTail tx bytes
  let w := txBlockWords r.1 (r.2.length / 8) r.2
  txTailBytes w.1 w.2

/-- Modelled from the spec: CI_ROUND_UP is defined outside src/; the spec's
`roundup(len + 8, 64)`, for a power-of-two `align`. -/
def ciRoundUp (i align : Nat) : Nat :=
  (i + align - 1) / align * align

/-- efct_tx_complete's padding loop, `while( offset % (EFCT_TX_ALIGNMENT >> 3) != 0 )`, which
runs `n` times. -/
def txZeroWords (tx : EfctTxState) : Nat → EfctTxState
  | 0 => tx
  | n + 1 => txZeroWords (efctTxWord tx 0) n

/-- The aperture half of efct_tx_complete: the tail shifted up and byte-swapped, then zero words
to the next 64-byte boundary. -/
def txFlush (tx : EfctTxState) : EfctTxState :=
  let tx := if tx.tailLen ≠ 0 then
      let tx := { tx with tail := tx.tail <<< ((8 - tx.tailLen) * 8) % 2 ^ 64 }
      efctTxWord tx (ciBswapBe64 tx.tail)
    else tx
  txZeroWords tx ((8 - tx.offset % 8) % 8)

section Mask

@[simp] theorem efctTxWord_mask (tx : EfctTxState) (v : Nat) : (efctTxWord tx v).mask = tx.mask :=
  rfl

@[simp] theorem txFillTail_mask (tx : EfctTxState) (bs : List UInt8) :
    (txFillTail tx bs).1.mask = tx.mask := by
  induction bs generalizing tx with
  | nil => rfl
  | cons b bs ih =>
    simp only [txFillTail]
    split
    · exact ih _
    · rfl

@[simp] theorem txBlockWords_mask (tx : EfctTxState) (n : Nat) (bs : List UInt8) :
    (txBlockWords tx n bs).1.mask = tx.mask := by
  induction n generalizing tx bs with
  | zero => rfl
  | succ n ih => exact ih _ _

@[simp] theorem txTailBytes_mask (tx : EfctTxState) (bs : List UInt8) :
    (txTailBytes tx bs).mask = tx.mask := by
  induction bs generalizing tx with
  | nil => rfl
  | cons b bs ih => exact ih _

/-- No store of a block changes the aperture mask. -/
@[simp] theorem efctTxBlock_mask (tx : EfctTxState) (bs : List UInt8) :
    (efctTxBlock tx bs).mask = tx.mask := by
  simp only [efctTxBlock, txTailBytes_mask, txBlockWords_mask, txTopUpTail]
  split <;> simp only [txFillTail_mask]
  split <;> simp

end Mask

section Bytes

theorem uint8_ofNat_eq {n : Nat} {b : UInt8} (h : n % 256 = b.toNat) : UInt8.ofNat n = b :=
  UInt8.eq_of_toBitVec_eq (BitVec.eq_of_toNat_eq h)

@[simp] theorem leBytes_zero (n : Nat) : leBytes 0 n = [] := rfl

@[simp] theorem leBytes_length (w n : Nat) : (leBytes w n).length = w := by
  induction w generalizing n with
  | zero => rfl
  | succ w ih => simp [leBytes, ih]

theorem leBytes_leWord (bs : List UInt8) : leBytes bs.length (leWord bs) = bs := by
  induction bs with
  | nil => rfl
  | cons b bs ih =>
    have hb : b.toNat < 256 := b.toNat_lt_size
    simp only [List.length_cons, leBytes, leWord, List.cons.injEq]
    exact ⟨uint8_ofNat_eq (by omega), by rw [show (b.toNat + 256 * leWord bs) / 256 = leWord bs by omega, ih]⟩

/-- A byte shifted in at the bottom of a word adds it as the first byte in address order. -/
theorem leBytes_mul_add (w n : Nat) (b : UInt8) :
    leBytes (w + 1) (n * 256 + b.toNat) = b :: leBytes w n := by
  have hb : b.toNat < 256 := b.toNat_lt_size
  simp only [leBytes, List.cons.injEq]
  exact ⟨uint8_ofNat_eq (by omega), by rw [show (n * 256 + b.toNat) / 256 = n by omega]⟩

/-- Zero bytes shifted in at the bottom come first in address order. -/
theorem leBytes_mul_pow (k w n : Nat) :
    leBytes (k + w) (n * 256 ^ k) = List.replicate k 0 ++ leBytes w n := by
  induction k with
  | zero => simp
  | succ k ih =>
    have h0 : leBytes (k + w + 1) (n * 256 ^ k * 256) = 0 :: leBytes (k + w) (n * 256 ^ k) := by
      simpa using leBytes_mul_add (k + w) (n * 256 ^ k) 0
    rw [show k + 1 + w = k + w + 1 by omega, Nat.pow_succ, ← Nat.mul_assoc, h0, ih]
    rfl

theorem leBytes_ciBswapBe64 (x : Nat) : leBytes 8 (ciBswapBe64 x) = (leBytes 8 x).reverse := by
  have h := leBytes_leWord (leBytes 8 x).reverse
  rwa [List.length_reverse, leBytes_length] at h

@[simp] theorem wordsBytes_nil : wordsBytes [] = [] := rfl

@[simp] theorem wordsBytes_append (ws ws' : List (Nat × Nat)) :
    wordsBytes (ws ++ ws') = wordsBytes ws ++ wordsBytes ws' :=
  List.flatMap_append _ _ _

@[simp] theorem wordsBytes_singleton (w : Nat × Nat) : wordsBytes [w] = leBytes 8 w.2 := by
  simp [wordsBytes]

theorem wordsBytes_length (ws : List (Nat × Nat)) : (wordsBytes ws).length = 8 * ws.length := by
  induction ws with
  | nil => rfl
  | cons w ws ih =>
    rw [show w :: ws = [w] ++ ws from rfl, wordsBytes_append, List.length_append, ih]
    simp
    omega

end Bytes

/-- The bytes held in the tail, in the order they were fed. -/
def tailBytes (tx : EfctTxState) : List UInt8 :=
  (leBytes tx.tailLen tx.tail).reverse

/-- The words `ws` sit at consecutive word offsets from `start`, taken through `mask`. -/
def AtOffsets (start mask : Nat) (ws : List (Nat × Nat)) : Prop :=
  ws.map Prod.fst = (List.range ws.length).map fun j => (start + j) % 2 ^ 64 &&& mask

/-- A transmit in progress from word offset `start` that has been fed the bytes `fed`: the words
stored so far, at consecutive offsets, and then the tail hold exactly those bytes. -/
structure TxStream (start : Nat) (fed : List UInt8) (tx : EfctTxState) : Prop where
  tail_le : tx.tailLen ≤ 8
  tail_lt : tx.tail < 256 ^ tx.tailLen
  offset_eq : tx.offset = (start + tx.writes.length) % 2 ^ 64
  at_offsets : AtOffsets start tx.mask tx.writes
  bytes_eq : wordsBytes tx.writes ++ tailBytes tx = fed

section Stream

variable {start : Nat} {fed : List UInt8} {tx : EfctTxState}

theorem AtOffsets.word {mask : Nat} {ws : List (Nat × Nat)} (h : AtOffsets start mask ws)
    (v : Nat) : AtOffsets start mask (ws ++ [((start + ws.length) % 2 ^ 64 &&& mask, v)]) := by
  unfold AtOffsets at h ⊢
  rw [List.map_append, h, List.length_append, List.length_singleton, List.range_succ,
    List.map_append]
  rfl

/-- A word stored while the tail is empty extends the stream by its bytes. -/
theorem TxStream.word (h : TxStream start fed tx) (htail : tx.tailLen = 0) (v : Nat) :
    TxStream start (fed ++ leBytes 8 v) (efctTxWord tx v) where
  tail_le := by simp [efctTxWord, htail]
  tail_lt := h.tail_lt
  offset_eq := by
    simp only [efctTxWord, h.offset_eq, List.length_append, List.length_singleton]
    omega
  at_offsets := by
    simp only [efctTxWord]
    rw [h.offset_eq]
    exact h.at_offsets.word v
  bytes_eq := by
    have := h.bytes_eq
    simp only [tailBytes, htail, leBytes, List.reverse_nil, List.append_nil] at this
    simp [efctTxWord, tailBytes, htail, leBytes, this]

/-- A byte into a tail that has room extends the stream by that byte. -/
theorem TxStream.tailByte (h : TxStream start fed tx) (hl : tx.tailLen < 8) (b : UInt8) :
    TxStream start (fed ++ [b]) (efctTxTailByte tx b) := by
  have ht := h.tail_lt
  have hb : b.toNat < 2 ^ 8 := b.toNat_lt_size
  have hpow : 256 ^ tx.tailLen * 256 ≤ 2 ^ 64 := by
    calc 256 ^ tx.tailLen * 256 = 256 ^ (tx.tailLen + 1) := (Nat.pow_succ _ _).symm
      _ ≤ 256 ^ 8 := Nat.pow_le_pow_right (by decide) (by omega)
      _ = 2 ^ 64 := rfl
  have hval : (tx.tail <<< 8 ||| b.toNat) % 2 ^ 64 = tx.tail * 256 + b.toNat := by
    rw [shiftLeft_or_eq_add' hb, Nat.mod_eq_of_lt (by omega)]
    rfl
  refine ⟨by simp [efctTxTailByte]; omega, ?_, h.offset_eq, h.at_offsets, ?_⟩
  · simp only [efctTxTailByte, hval, Nat.pow_succ]
    omega
  · simp only [efctTxTailByte, tailBytes, hval, leBytes_mul_add, List.reverse_cons]
    rw [← List.append_assoc]
    exact congrArg (· ++ [b]) h.bytes_eq

/-- A full tail stored as one byte-swapped word: its eight bytes move from the tail to the
words, in order. -/
theorem TxStream.flushTail (h : TxStream start fed tx) (hl : tx.tailLen = 8) :
    TxStream start fed { efctTxWord tx (ciBswapBe64 tx.tail) with tail := 0, tailLen := 0 } where
  tail_le := Nat.zero_le _
  tail_lt := by simp
  offset_eq := by
    simp only [efctTxWord, h.offset_eq, List.length_append, List.length_singleton]
    omega
  at_offsets := by
    simp only [efctTxWord]
    rw [h.offset_eq]
    exact h.at_offsets.word _
  bytes_eq := by
    rw [← h.bytes_eq]
    simp only [efctTxWord, wordsBytes_append, wordsBytes_singleton, leBytes_ciBswapBe64, tailBytes,
      hl, leBytes_zero, List.reverse_nil, List.append_nil]

theorem txFillTail_spec (h : TxStream start fed tx) (bs : List UInt8) :
    ∃ taken, bs = taken ++ (txFillTail tx bs).2 ∧
      TxStream start (fed ++ taken) (txFillTail tx bs).1 ∧
      ((txFillTail tx bs).1.tailLen = 8 ∨ (txFillTail tx bs).2 = []) := by
  induction bs generalizing fed tx with
  | nil => exact ⟨[], rfl, by simpa using h, .inr rfl⟩
  | cons b bs ih =>
    by_cases hl : tx.tailLen < 8
    · obtain ⟨taken, hbs, hs, hend⟩ := ih (h.tailByte hl b)
      simp only [txFillTail, hl, ↓reduceIte]
      exact ⟨b :: taken, by rw [List.cons_append, ← hbs], by simpa using hs, hend⟩
    · simp only [txFillTail, hl, ↓reduceIte]
      exact ⟨[], rfl, by simpa using h, .inl (by have := h.tail_le; omega)⟩

theorem txTopUpTail_spec (h : TxStream start fed tx) (bs : List UInt8) :
    ∃ taken, bs = taken ++ (txTopUpTail tx bs).2 ∧
      TxStream start (fed ++ taken) (txTopUpTail tx bs).1 ∧
      ((txTopUpTail tx bs).1.tailLen = 0 ∨ (txTopUpTail tx bs).2 = []) ∧
      (txTopUpTail tx bs).1.tailLen < 8 := by
  by_cases h0 : tx.tailLen = 0
  · rw [txTopUpTail, if_neg (not_not.mpr h0)]
    exact ⟨[], rfl, by simpa using h, .inl h0, by simp [h0]⟩
  · obtain ⟨taken, hbs, hs, hend⟩ := txFillTail_spec h bs
    rw [txTopUpTail, if_pos h0]
    dsimp only
    split_ifs with h8
    · exact ⟨taken, hbs, hs.flushTail h8, .inl rfl, Nat.zero_lt_succ _⟩
    · exact ⟨taken, hbs, hs, .inr (hend.resolve_left h8), by have := hs.tail_le; omega⟩

theorem txBlockWords_spec (n : Nat) (h : TxStream start fed tx) (htail : tx.tailLen = 0)
    (bs : List UInt8) (hn : 8 * n ≤ bs.length) :
    TxStream start (fed ++ bs.take (8 * n)) (txBlockWords tx n bs).1 ∧
      (txBlockWords tx n bs).1.tailLen = 0 ∧ (txBlockWords tx n bs).2 = bs.drop (8 * n) := by
  induction n generalizing fed tx bs with
  | zero => simpa [txBlockWords] using ⟨h, htail⟩
  | succ n ih =>
    have h8 : leBytes 8 (leWord (bs.take 8)) = bs.take 8 := by
      have := leBytes_leWord (bs.take 8)
      rwa [List.length_take, Nat.min_eq_left (by omega)] at this
    have hw := h.word htail (leWord (bs.take 8))
    rw [h8] at hw
    obtain ⟨hs, hl, hr⟩ := ih hw (by simpa [efctTxWord] using htail) (bs.drop 8)
      (by simp; omega)
    simp only [txBlockWords]
    refine ⟨?_, hl, by rw [hr, List.drop_drop]; congr 1; omega⟩
    rwa [List.append_assoc, ← List.take_add, show 8 + 8 * n = 8 * (n + 1) by omega] at hs

theorem txTailBytes_spec (h : TxStream start fed tx) (bs : List UInt8)
    (hl : tx.tailLen + bs.length < 8) :
    TxStream start (fed ++ bs) (txTailBytes tx bs) ∧
      (txTailBytes tx bs).tailLen = tx.tailLen + bs.length := by
  induction bs generalizing fed tx with
  | nil => simpa [txTailBytes] using h
  | cons b bs ih =>
    have hb := h.tailByte (by simp at hl; omega) b
    obtain ⟨hs, hlen⟩ := ih hb (by simp [efctTxTailByte] at hl ⊢; omega)
    refine ⟨by simpa using hs, ?_⟩
    simp only [txTailBytes, List.foldl_cons] at hlen ⊢
    rw [hlen]
    simp [efctTxTailByte]
    omega

/-- efct_tx_block feeds its whole buffer into the stream, and leaves fewer than eight bytes in
the tail. -/
theorem efctTxBlock_stream (h : TxStream start fed tx) (bs : List UInt8) :
    TxStream start (fed ++ bs) (efctTxBlock tx bs) ∧ (efctTxBlock tx bs).tailLen < 8 := by
  obtain ⟨taken, hbs, hs, hcase, hlt⟩ := txTopUpTail_spec h bs
  rw [efctTxBlock]
  generalize txTopUpTail tx bs = r at hbs hs hcase hlt
  rcases hcase with h0 | hnil
  · obtain ⟨hw, hw0, hrest⟩ := txBlockWords_spec (r.2.length / 8) hs h0 r.2 (by omega)
    generalize txBlockWords r.1 (r.2.length / 8) r.2 = w at hw hw0 hrest
    have hlen : w.2.length < 8 := by rw [hrest, List.length_drop]; omega
    obtain ⟨ht, hl⟩ := txTailBytes_spec hw w.2 (by omega)
    have hfed : fed ++ taken ++ r.2.take (8 * (r.2.length / 8)) ++ w.2 = fed ++ bs := by
      rw [hrest, List.append_assoc, List.append_assoc, List.take_append_drop, ← hbs]
    rw [hfed] at ht
    exact ⟨ht, by omega⟩
  · rw [hnil] at hbs ⊢
    simpa [txBlockWords, txTailBytes, hbs] using ⟨hs, hlt⟩

/-- The zero words of efct_tx_complete's padding loop extend the stored words at consecutive
offsets. -/
theorem txZeroWords_spec {mask : Nat} (k : Nat) (h : AtOffsets start mask tx.writes)
    (hm : tx.mask = mask) (ho : tx.offset = (start + tx.writes.length) % 2 ^ 64) :
    AtOffsets start mask (txZeroWords tx k).writes ∧
      wordsBytes (txZeroWords tx k).writes = wordsBytes tx.writes ++ List.replicate (8 * k) 0 ∧
      (txZeroWords tx k).writes.length = tx.writes.length + k ∧
      (txZeroWords tx k).offset = (start + tx.writes.length + k) % 2 ^ 64 := by
  induction k generalizing tx with
  | zero => simpa [txZeroWords] using ⟨h, ho⟩
  | succ k ih =>
    have h1 : AtOffsets start mask (efctTxWord tx 0).writes := by
      simp only [efctTxWord]
      rw [ho, hm]
      exact h.word 0
    obtain ⟨ha, hb, hl, hoff⟩ := ih h1 hm (by simp only [efctTxWord, ho]; simp; omega)
    simp only [txZeroWords, efctTxWord, List.length_append, List.length_singleton] at ha hb hl hoff ⊢
    refine ⟨ha, ?_, by omega, by rw [hoff]; congr 1; omega⟩
    rw [hb, wordsBytes_append, wordsBytes_singleton, List.append_assoc,
      show 8 * (k + 1) = 8 + 8 * k by omega, ← List.append_replicate_replicate]
    rw [show leBytes 8 0 = List.replicate 8 0 by decide]

/-- The padding arithmetic of efct_tx_complete: `w` full words and a tail of `t` bytes, padded
with zero words from a word offset that is a multiple of 8, fill the `8 * w + t` bytes rounded up
to 64. -/
theorem flush_pad {start w t c : Nat} (hs : start % 8 = 0) (hl : t < 8)
    (hc : c = w + if t = 0 then 0 else 1) :
    8 * (c + (8 - (start + c) % 8) % 8) = ciRoundUp (8 * w + t) 64 ∧
      (8 - t) % 8 + 8 * ((8 - (start + c) % 8) % 8) = ciRoundUp (8 * w + t) 64 - (8 * w + t) := by
  have hsc : (start + c) % 8 = c % 8 := by omega
  have hround : (8 * w + t + 64 - 1) / 64 * 64 = 8 * (c + (8 - c % 8) % 8) := by
    split_ifs at hc <;> omega
  rw [hsc, ciRoundUp, hround]
  refine ⟨rfl, ?_⟩
  split_ifs at hc <;> omega

/-- The first half of efct_tx_complete: a tail of `t` bytes is shifted up, byte-swapped and
stored as one word holding those bytes and then `8 - t` zeros. -/
theorem txFlush_tail (h : TxStream start fed tx) (hl : tx.tailLen < 8) :
    ∃ tx1, txFlush tx = txZeroWords tx1 ((8 - tx1.offset % 8) % 8) ∧
      AtOffsets start tx.mask tx1.writes ∧
      wordsBytes tx1.writes = fed ++ List.replicate ((8 - tx.tailLen) % 8) 0 ∧
      tx1.writes.length = tx.writes.length + (if tx.tailLen = 0 then 0 else 1) ∧
      tx1.offset = (start + tx1.writes.length) % 2 ^ 64 ∧ tx1.mask = tx.mask := by
  by_cases h0 : tx.tailLen = 0
  · refine ⟨tx, by simp [txFlush, h0], h.at_offsets, ?_, by simp [h0], h.offset_eq, rfl⟩
    have := h.bytes_eq
    simp only [tailBytes, h0, leBytes_zero, List.reverse_nil, List.append_nil] at this
    simp [this, h0]
  · have hpow : tx.tail * 256 ^ (8 - tx.tailLen) < 2 ^ 64 := by
      calc tx.tail * 256 ^ (8 - tx.tailLen) < 256 ^ tx.tailLen * 256 ^ (8 - tx.tailLen) :=
            Nat.mul_lt_mul_of_pos_right h.tail_lt (Nat.pos_pow_of_pos _ (by decide))
        _ = 256 ^ 8 := by rw [← Nat.pow_add]; congr 1; omega
        _ = 2 ^ 64 := rfl
    have hshift : tx.tail <<< ((8 - tx.tailLen) * 8) % 2 ^ 64 =
        tx.tail * 256 ^ (8 - tx.tailLen) := by
      rw [Nat.shiftLeft_eq, Nat.mul_comm (8 - tx.tailLen), Nat.pow_mul]
      exact Nat.mod_eq_of_lt hpow
    refine ⟨efctTxWord { tx with tail := tx.tail * 256 ^ (8 - tx.tailLen) }
        (ciBswapBe64 (tx.tail * 256 ^ (8 - tx.tailLen))),
      by simp only [txFlush, if_pos h0, hshift], ?_, ?_, by simp [efctTxWord, h0], ?_, rfl⟩
    · simp only [efctTxWord]
      rw [h.offset_eq]
      exact h.at_offsets.word _
    · rw [← h.bytes_eq]
      simp only [efctTxWord, wordsBytes_append, wordsBytes_singleton, leBytes_ciBswapBe64,
        tailBytes, List.append_assoc]
      have hsplit := leBytes_mul_pow (8 - tx.tailLen) tx.tailLen tx.tail
      rw [Nat.sub_add_cancel hl.le] at hsplit
      rw [hsplit, List.reverse_append, List.reverse_replicate,
        Nat.mod_eq_of_lt (show 8 - tx.tailLen < 8 by omega)]
    · simp only [efctTxWord, h.offset_eq, List.length_append, List.length_singleton]
      omega

/-- What efct_tx_complete leaves in the aperture for a stream started on a 64-byte boundary:
the bytes fed, then zero bytes up to the next 64-byte boundary, at consecutive offsets. -/
theorem txFlush_spec (h : TxStream start fed tx) (hl : tx.tailLen < 8) (hs : start % 8 = 0)
    (hb : start + fed.length < 2 ^ 63) :
    AtOffsets start tx.mask (txFlush tx).writes ∧
      wordsBytes (txFlush tx).writes =
        fed ++ List.replicate (ciRoundUp fed.length 64 - fed.length) 0 ∧
      8 * (txFlush tx).writes.length = ciRoundUp fed.length 64 ∧
      (txFlush tx).offset = start + (txFlush tx).writes.length := by
  have hlen : fed.length = 8 * tx.writes.length + tx.tailLen := by
    rw [← h.bytes_eq, List.length_append, wordsBytes_length, tailBytes, List.length_reverse,
      leBytes_length]
  obtain ⟨tx1, htx1, ha1, hb1, hl1, ho1, hm1⟩ := txFlush_tail h hl
  obtain ⟨ha, hbz, hlz, hoz⟩ := txZeroWords_spec ((8 - tx1.offset % 8) % 8) ha1 hm1 ho1
  have hle : tx1.writes.length ≤ tx.writes.length + 1 := by split_ifs at hl1 <;> omega
  have hoff : tx1.offset = start + tx1.writes.length := by
    rw [ho1]
    exact Nat.mod_eq_of_lt (by omega)
  obtain ⟨hwords, hzeros⟩ := flush_pad hs hl hl1
  rw [← hoff, ← hlen] at hwords hzeros
  rw [htx1]
  refine ⟨ha, ?_, by rw [hlz, hwords], ?_⟩
  · rw [hbz, hb1, List.append_assoc, List.append_replicate_replicate, hzeros]
  · have hround : ciRoundUp fed.length 64 ≤ fed.length + 63 := by
      simp only [ciRoundUp]; omega
    rw [hoz, hlz, hoff, Nat.add_assoc]
    exact Nat.mod_eq_of_lt (by omega)

end Stream

end EfctVi
