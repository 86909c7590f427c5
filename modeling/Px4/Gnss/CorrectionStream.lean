import Mathlib.Data.List.GetD
import Px4.Common.StreamFraming
import Px4.Gnss.CorrectionFramer

/-!
# Corrections in pieces

The probes of the framer never change a decision when more bytes arrive, and no frame is longer than
what the buffer has room for besides a chunk.
-/

namespace Px4.Gnss

open List Nat StreamFraming

/-! ## The probes -/

variable {b : Bytes} {len : ℕ} {spartn : Bool}

variable {i n : ℕ} {t : Bytes} {protocol : CorrectionProtocol}

theorem byteAt_append (h : i < b.length) (t) : byteAt (b ++ t) i = byteAt b i :=
  getD_append _ _ _ _ h

theorem slice_append (h : i + n ≤ b.length) :
    ((b ++ t).drop i).take n = (b.drop i).take n := by
  rw [drop_append_of_le_length (by omega), take_append_of_le_length (by rw [length_drop]; omega)]

variable (b)

theorem rtcm3PayloadLength_le : rtcm3PayloadLength b ≤ rtcm3MaxPayloadLen := by
  have hlow : (byteAt b 2).toNat < 2 ^ 10 := by
    have := (byteAt b 2).toNat_lt
    omega
  have hhigh : ((byteAt b 1).toNat &&& 0x03) <<< 8 < 2 ^ 10 := by
    have hand : (byteAt b 1).toNat &&& 0x03 ≤ 0x03 := and_le_right
    omega
  exact le_of_lt_succ (or_lt_two_pow hhigh hlow)

theorem spartnPayloadLen_le : spartnPayloadLen b ≤ spartnMaxPayloadLen := by
  have h1 : ((byteAt b 1).toNat &&& 0x01) <<< 9 < 2 ^ 10 := by
    have hand : (byteAt b 1).toNat &&& 0x01 ≤ 0x01 := and_le_right
    omega
  have h2 : (byteAt b 2).toNat <<< 1 < 2 ^ 10 := by
    have := (byteAt b 2).toNat_lt
    omega
  have h3 : (byteAt b 3).toNat >>> 7 < 2 ^ 10 := by
    have := (byteAt b 3).toNat_lt
    omega
  exact le_of_lt_succ (or_lt_two_pow (or_lt_two_pow h1 h2) h3)

theorem spartnDescLen_bounds : 0 < spartnDescLen b ∧ spartnDescLen b ≤ spartnMaxDescLen := by
  unfold spartnDescLen spartnDescLengthBytes spartnMaxDescLen
  split_ifs <;> omega

theorem spartnAuthBytes_le : spartnAuthBytes b ≤ spartnMaxAuthLen := by
  have htable : ∀ n < 5, [8, 12, 16, 32, 64].getD n 0 ≤ 64 := by decide
  unfold spartnAuthBytes spartnAuthLengthBytes spartnMaxAuthLen
  split
  · dsimp only
    split
    · omega
    split
    · rename_i hlt
      exact htable _ (UInt8.lt_iff_toNat_lt.mp hlt)
    · omega
  · omega

theorem spartnCrcBytes_le : spartnCrcBytes b ≤ spartnMaxCrcLen := by
  have hand : (byteAt b 3 >>> 4).toNat &&& 0x03 ≤ 0x03 := and_le_right
  exact succ_le_succ hand

theorem spartnLen_le : spartnLen b ≤ spartnMaxFrameLen := by
  have hdesc := (spartnDescLen_bounds b).2
  have hpayload := spartnPayloadLen_le b
  have hauth := spartnAuthBytes_le b
  have hcrc := spartnCrcBytes_le b
  unfold spartnLen spartnMaxFrameLen
  omega

variable {b}

/-- A frame that is not complete is shorter than the longest one. -/
theorem probeRtcm3_need (h : probeRtcm3 b = .needMoreData) : b.length < rtcm3MaxFrameLen := by
  have hpayload := rtcm3PayloadLength_le b
  unfold probeRtcm3 at h
  unfold rtcm3MaxFrameLen
  dsimp only at h
  split_ifs at h
  · omega
  · omega

theorem probeSpartn_need (h : probeSpartn b = .needMoreData) : b.length < spartnMaxFrameLen := by
  have hlen := spartnLen_le b
  have hdesc := (spartnDescLen_bounds b).2
  have hmax : spartnFrameStartLen + spartnMaxDescLen + 1 ≤ spartnMaxFrameLen := by decide
  unfold probeSpartn at h
  dsimp only at h
  split_ifs at h <;> omega

theorem probeRtcm3_complete (h : probeRtcm3 b = .complete len) : 0 < len ∧ len ≤ b.length := by
  unfold probeRtcm3 rtcm3HeaderLen at h
  dsimp only at h
  split_ifs at h
  cases h
  omega

theorem probeSpartn_complete (h : probeSpartn b = .complete len) : 0 < len ∧ len ≤ b.length := by
  have hpos : 0 < spartnLen b := by
    unfold spartnLen spartnCrcBytes
    omega
  unfold probeSpartn at h
  dsimp only at h
  split_ifs at h
  cases h
  omega

theorem probeRtcm3_append (h : probeRtcm3 b ≠ .needMoreData) :
    probeRtcm3 (b ++ t) = probeRtcm3 b := by
  unfold probeRtcm3 at h ⊢
  have hhead : ¬b.length < rtcm3HeaderLen := fun hlt => h (if_pos hlt)
  rw [if_neg hhead] at h
  have hlen : ¬b.length < rtcm3HeaderLen + rtcm3PayloadLength b + rtcm3CrcLen :=
    fun hlt => h (if_pos hlt)
  have hthree : rtcm3HeaderLen = 3 ∧ rtcm3CrcLen = 3 := ⟨rfl, rfl⟩
  have hpayload : rtcm3PayloadLength (b ++ t) = rtcm3PayloadLength b := by
    unfold rtcm3PayloadLength
    rw [byteAt_append (by omega), byteAt_append (by omega)]
  have hmore : (b ++ t).length = b.length + t.length := length_append
  rw [hpayload, if_neg (by omega), if_neg (by omega), if_neg hhead, if_neg hlen,
    take_append_of_le_length (by omega), byteAt_append (by omega), byteAt_append (by omega),
    byteAt_append (by omega)]

theorem spartn_header_append (h : 4 ≤ b.length) (t) :
    spartnPayloadLen (b ++ t) = spartnPayloadLen b ∧ spartnEaf (b ++ t) = spartnEaf b ∧
      spartnCrcType (b ++ t) = spartnCrcType b := by
  unfold spartnPayloadLen spartnEaf spartnCrcType
  rw [byteAt_append (show 1 < b.length by omega), byteAt_append (show 2 < b.length by omega),
    byteAt_append (show 3 < b.length by omega)]
  exact ⟨rfl, rfl, rfl⟩

theorem spartnDescLen_append (h : 5 ≤ b.length) :
    spartnDescLen (b ++ t) = spartnDescLen b := by
  unfold spartnDescLen
  rw [(spartn_header_append (show 4 ≤ b.length by omega) t).2.1, byteAt_append (by omega)]

theorem spartnLen_append (h : 5 ≤ b.length)
    (hdesc : spartnFrameStartLen + spartnDescLen b ≤ b.length) :
    spartnLen (b ++ t) = spartnLen b := by
  obtain ⟨hpayload, heaf, hcrc⟩ := spartn_header_append (show 4 ≤ b.length by omega) t
  have hauth : spartnAuthBytes (b ++ t) = spartnAuthBytes b := by
    unfold spartnAuthBytes
    rw [heaf, spartnDescLen_append h, byteAt_append (by omega)]
  unfold spartnLen spartnCrcBytes
  rw [spartnDescLen_append h, hpayload, hauth, hcrc]

theorem probeSpartn_append (h : probeSpartn b ≠ .needMoreData) :
    probeSpartn (b ++ t) = probeSpartn b := by
  have hmore : (b ++ t).length = b.length + t.length := length_append
  unfold probeSpartn at h ⊢
  have hstart : ¬b.length < spartnFrameStartLen := fun hlt => h (if_pos hlt)
  have htype : byteAt (b ++ t) 1 = byteAt b 1 :=
    byteAt_append (by unfold spartnFrameStartLen at hstart; omega) t
  rw [if_neg hstart] at h ⊢
  rw [if_neg (by omega), htype]
  by_cases hdefined : (!spartnMessageTypeDefined (byteAt b 1 >>> 1))
  · rw [if_pos hdefined, if_pos hdefined]
  rw [if_neg hdefined] at h ⊢
  rw [if_neg hdefined]
  have htag : ¬b.length < spartnFrameStartLen + 1 := fun hlt => h (if_pos hlt)
  rw [if_neg htag] at h ⊢
  have hdesc : ¬b.length < spartnFrameStartLen + spartnDescLen b := fun hlt => h (if_pos hlt)
  rw [if_neg hdesc] at h ⊢
  have hlen : ¬b.length < spartnLen b := fun hlt => h (if_pos hlt)
  have hfour : spartnFrameStartLen = 4 := rfl
  have hcrc := (spartn_header_append (show 4 ≤ b.length by omega) t).2.2
  have hcrcBytes : spartnCrcBytes (b ++ t) = spartnCrcBytes b := by
    unfold spartnCrcBytes
    rw [hcrc]
  have hcrcLe : spartnCrcBytes b ≤ spartnLen b := le_add_left _ _
  rw [if_neg (by omega), spartnDescLen_append (by omega), if_neg (by omega)]
  rw [spartnLen_append (by omega) (by omega), hcrcBytes, hcrc, if_neg (by omega), if_neg hlen,
    slice_append (by omega), slice_append (by omega)]

/-! ## Framing -/

/-- What the framer decides of the bytes at the beginning of its buffer. -/
def verdict (spartn : Bool) (b : Bytes) : Verdict CorrectionProtocol :=
  if b.length = 0 then .undecided
  else if isPreamble spartn (byteAt b 0) then
    match probe spartn b with
    | (_, .needMoreData) => .undecided
    | (_, .invalidHeader) => .reject
    | (_, .crcError) => .reject
    | (protocol, .complete frameLen) => .frame frameLen protocol
  else .reject

theorem probe_append (hb : 0 < b.length) (h : (probe spartn b).2 ≠ .needMoreData) :
    probe spartn (b ++ t) = probe spartn b := by
  unfold probe at h ⊢
  rw [byteAt_append hb]
  split at h
  · rename_i hpreamble
    rw [if_pos hpreamble, if_pos hpreamble, probeSpartn_append h]
  · rename_i hpreamble
    rw [if_neg hpreamble, if_neg hpreamble, probeRtcm3_append h]

theorem probe_need (h : (probe spartn b).2 = .needMoreData) : b.length < maxFrameLen spartn := by
  unfold probe at h
  unfold maxFrameLen
  split at h
  · rename_i hpreamble
    rw [if_pos hpreamble.1]
    exact probeSpartn_need h
  · have hlt := probeRtcm3_need h
    split_ifs <;> omega

theorem probe_complete (h : (probe spartn b).2 = .complete len) : 0 < len ∧ len ≤ b.length := by
  unfold probe at h
  split at h
  · exact probeSpartn_complete h
  · exact probeRtcm3_complete h

/-- How a verdict on a buffer that is not empty comes about. -/
inductive Decides (spartn : Bool) (b : Bytes) : Verdict CorrectionProtocol → Prop where
  | noPreamble (hpreamble : isPreamble spartn (byteAt b 0) = false) : Decides spartn b .reject
  | needsMore (hpreamble : isPreamble spartn (byteAt b 0) = true)
      (hprobe : (probe spartn b).2 = .needMoreData) : Decides spartn b .undecided
  | rejects (hpreamble : isPreamble spartn (byteAt b 0) = true)
      (hprobe : (probe spartn b).2 = .invalidHeader ∨ (probe spartn b).2 = .crcError) :
      Decides spartn b .reject
  | completes {len : ℕ} (hpreamble : isPreamble spartn (byteAt b 0) = true)
      (hprobe : (probe spartn b).2 = .complete len) :
      Decides spartn b (.frame len (probe spartn b).1)

theorem decides_verdict (spartn) (hb : b.length ≠ 0) : Decides spartn b (verdict spartn b) := by
  unfold verdict
  rw [if_neg hb]
  cases hpreamble : isPreamble spartn (byteAt b 0) with
  | false => exact .noPreamble hpreamble
  | true =>
    cases hresult : (probe spartn b).2 with
    | needMoreData =>
      rw [show probe spartn b = (_, .needMoreData) from Prod.ext rfl hresult]
      exact .needsMore hpreamble hresult
    | invalidHeader =>
      rw [show probe spartn b = (_, .invalidHeader) from Prod.ext rfl hresult]
      exact .rejects hpreamble (.inl hresult)
    | crcError =>
      rw [show probe spartn b = (_, .crcError) from Prod.ext rfl hresult]
      exact .rejects hpreamble (.inr hresult)
    | complete len =>
      rw [show probe spartn b = ((probe spartn b).1, .complete len) from Prod.ext rfl hresult]
      exact .completes hpreamble hresult

/-- What is buffered while more data is needed leaves room for a chunk. -/
theorem verdict_undecided (h : verdict spartn b = .undecided) : b.length < maxFrameLen spartn := by
  by_cases hb : b.length = 0
  · rw [hb]
    cases spartn <;> decide
  have hdecides := decides_verdict spartn hb
  rw [h] at hdecides
  cases hdecides with
  | needsMore _ hprobe => exact probe_need hprobe

theorem verdict_frame (h : verdict spartn b = .frame len protocol) : 0 < len ∧ len ≤ b.length := by
  by_cases hb : b.length = 0
  · rw [verdict, if_pos hb] at h
    cases h
  have hdecides := decides_verdict spartn hb
  rw [h] at hdecides
  cases hdecides with
  | completes _ hprobe => exact probe_complete hprobe

theorem verdict_append (h : verdict spartn b ≠ .undecided) {t} :
    verdict spartn (b ++ t) = verdict spartn b := by
  have hb : b.length ≠ 0 := fun hb => h (if_pos hb)
  have hmore : (b ++ t).length = b.length + t.length := length_append
  have hfirst := byteAt_append (Nat.pos_of_ne_zero hb) t
  unfold verdict at h ⊢
  rw [if_neg (by omega), hfirst]
  rw [if_neg hb] at h
  split
  · rename_i hpreamble
    rw [if_pos hpreamble] at h
    have hprobe : (probe spartn b).2 ≠ .needMoreData := by
      intro hneed
      rw [show probe spartn b = (_, .needMoreData) from Prod.ext rfl hneed] at h
      exact h rfl
    rw [probe_append (Nat.pos_of_ne_zero hb) hprobe]
  · rfl

theorem verdict_stable (spartn) : Stable (verdict spartn) where
  nil := rfl
  frame := verdict_frame
  append := verdict_append

namespace CorrectionFramer

variable (f : CorrectionFramer spartn)

variable {spartn : Bool}

/-- Where the bytes that have been added are, modulo `2 ^ 32`. -/
def balance : UInt32 :=
  .ofNat f.bufferedBytes + f.totalFrameBytes + f.bytesDiscarded + f.crcErrors

theorem buffer_eq_dropWhile {f : CorrectionFramer spartn} :
    f.dropToPreamble.buffer = f.buffer.dropWhile fun byte => !isPreamble spartn byte := by
  rw [buffer_dropToPreamble, toDrop]
  induction f.buffer with
  | nil => rfl
  | cons byte b ih =>
    rw [takeWhile_cons, dropWhile_cons]
    split
    · exact ih
    · rfl

/-- Nothing but bytes that cannot start a frame is dropped. -/
theorem frames_dropToPreamble (f : CorrectionFramer spartn) :
    frames (verdict spartn) f.dropToPreamble.buffer = frames (verdict spartn) f.buffer := by
  rw [buffer_eq_dropWhile]
  induction f.buffer with
  | nil => rfl
  | cons byte b ih =>
    rw [dropWhile_cons]
    split
    · rename_i hpreamble
      have hnot : ¬isPreamble spartn byte := by simpa using hpreamble
      have hreject : verdict spartn (byte :: b) = .reject :=
        (if_neg (succ_ne_zero _)).trans (if_neg hnot)
      rw [(verdict_stable spartn).frames_reject hreject]
      exact ih
    · rfl

theorem preamble_dropToPreamble (f : CorrectionFramer spartn)
    (h : f.dropToPreamble.buffer.length ≠ 0) :
    isPreamble spartn (byteAt f.dropToPreamble.buffer 0) := by
  have hhead := head?_dropWhile_not (fun byte => !isPreamble spartn byte) f.buffer
  rw [← buffer_eq_dropWhile] at hhead
  cases hbuffer : f.dropToPreamble.buffer with
  | nil =>
    rw [hbuffer] at h
    exact absurd rfl h
  | cons byte b =>
    rw [hbuffer] at hhead
    have hbyte : isPreamble spartn byte := by simpa using hhead
    exact hbyte

theorem balance_discardBytes (count) (h : count ≤ f.buffer.length) :
    (f.discardBytes count).balance + .ofNat count = f.balance := by
  have hlength : UInt32.ofNat f.buffer.length =
      .ofNat (f.buffer.length - count) + .ofNat count := by
    rw [← UInt32.ofNat_add, Nat.sub_add_cancel h]
  unfold balance bufferedBytes
  rw [hlength]
  simp only [discardBytes, length_drop]
  ac_rfl

variable {data : Bytes} {r : CorrectionFramer spartn × Option (ℕ × CorrectionProtocol)}

theorem balance_addData : (f.addData data).1.balance = f.balance + .ofNat (f.addData data).2 := by
  have hlength : (f.buffer ++ data.take (f.toCopy data)).length =
      f.buffer.length + f.toCopy data := by
    rw [length_append, length_take, toCopy]
    omega
  simp only [balance, bufferedBytes, addData, hlength, UInt32.ofNat_add]
  ac_rfl

theorem balance_consumeMessage
    (h : len ≤ f.buffer.length) : (f.consumeMessage len).balance = f.balance := by
  rw [← f.balance_discardBytes _ h]
  simp only [balance, bufferedBytes, consumeMessage]
  ac_rfl

theorem balance_dropToPreamble : f.dropToPreamble.balance = f.balance := by
  have hle : f.toDrop ≤ f.buffer.length := (takeWhile_sublist _).length_le
  unfold dropToPreamble
  split
  · rw [← f.balance_discardBytes _ hle]
    unfold balance
    simp only [discardBytes, bufferedBytes]
    ac_rfl
  · rfl

/-- What a call of `getNextMessage` leaves: nothing is lost, and the search is over. -/
structure Searched (f : CorrectionFramer spartn)
    (r : CorrectionFramer spartn × Option (ℕ × CorrectionProtocol)) : Prop where
  frames_eq : frames (verdict spartn) r.1.buffer = frames (verdict spartn) f.buffer
  balance_eq : r.1.balance = f.balance
  length_le : r.1.buffer.length ≤ f.buffer.length
  none : r.2 = none → verdict spartn r.1.buffer = .undecided
  some : ∀ m ∈ r.2, verdict spartn r.1.buffer = .frame m.1 m.2

theorem Searched.discard {f f' : CorrectionFramer spartn} (h : Searched (f'.discardBytes 1) r)
    (hreject : verdict spartn f.dropToPreamble.buffer = .reject)
    (hbuffer : f'.buffer = f.dropToPreamble.buffer)
    (hbalance : f'.balance = f.dropToPreamble.balance + 1) : Searched f r := by
  have hpos : 0 < f.dropToPreamble.buffer.length :=
    (verdict_stable spartn).ne_nil (by rw [hreject]; nofun)
  have hframes : frames (verdict spartn) (f'.discardBytes 1).buffer =
      frames (verdict spartn) f.buffer := by
    rw [buffer_discardBytes, hbuffer, drop_one,
      ← (verdict_stable spartn).frames_reject hreject, frames_dropToPreamble]
  have hcounted : (f'.discardBytes 1).balance = f.balance := by
    have hdiscard := f'.balance_discardBytes 1 (by rw [hbuffer]; exact hpos)
    rw [hbalance, balance_dropToPreamble] at hdiscard
    exact (UInt32.add_left_inj 1).mp hdiscard
  have hlength : (f'.discardBytes 1).buffer.length ≤ f.buffer.length := by
    rw [buffer_discardBytes, hbuffer, buffer_dropToPreamble, length_drop, length_drop]
    omega
  exact ⟨h.frames_eq.trans hframes, h.balance_eq.trans hcounted, Nat.le_trans h.length_le hlength,
    h.none, h.some⟩

theorem length_dropToPreamble_le : f.dropToPreamble.buffer.length ≤ f.buffer.length := by
  rw [buffer_dropToPreamble, length_drop]
  omega

/-- The search comes to an end at the first position that does not reject. -/
theorem searched_getNextMessage : Searched f f.getNextMessage := by
  fun_induction getNextMessage f with
  | case1 f hempty =>
    refine ⟨f.frames_dropToPreamble, f.balance_dropToPreamble, f.length_dropToPreamble_le, ?_,
      nofun⟩
    exact fun _ => if_pos hempty
  | case2 f hne protocol hprobe =>
    refine ⟨f.frames_dropToPreamble, f.balance_dropToPreamble, f.length_dropToPreamble_le, ?_,
      nofun⟩
    intro _
    unfold verdict
    rw [if_neg hne, if_pos (f.preamble_dropToPreamble hne), hprobe]
  | case3 f hne protocol hprobe ih =>
    refine ih.discard ?_ rfl ?_
    · unfold verdict
      rw [if_neg hne, if_pos (f.preamble_dropToPreamble hne), hprobe]
    · simp only [balance, bufferedBytes, countDiscarded]
      ac_rfl
  | case4 f hne protocol hprobe ih =>
    refine ih.discard ?_ rfl ?_
    · unfold verdict
      rw [if_neg hne, if_pos (f.preamble_dropToPreamble hne), hprobe]
    · simp only [balance, bufferedBytes, countCrcError]
      ac_rfl
  | case5 f hne protocol len hprobe =>
    refine ⟨f.frames_dropToPreamble, f.balance_dropToPreamble, f.length_dropToPreamble_le, nofun,
      ?_⟩
    intro m hm
    obtain rfl := Option.mem_some_iff.mp hm
    unfold verdict
    rw [if_neg hne, if_pos (f.preamble_dropToPreamble hne), hprobe]

end CorrectionFramer

end Px4.Gnss
