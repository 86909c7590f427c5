import Mathlib.Data.Nat.Notation
import Mathlib.Logic.Function.Basic

/-!
# S.BUS frames

`src/lib/rc/sbus.cpp`. The sixteen values of 11 bits fill 22 bytes: `sbus1_output` packs them with a
running bit offset, `sbus_decode` takes them out with a table. Bit `p` of the data is in the byte `1
+ p / 8` of a frame. The values are the raw ones, without scaling.
-/

namespace Px4.Rc.Sbus

open BitVec Function

/-! ## Packing -/

/-- `oframe`, `byteindex` and `offset`. -/
structure Output where
  oframe : ℕ → BitVec 8 := fun j => if j = 0 then 0x0f else 0
  byteindex : ℕ := 1
  offset : ℕ := 0

/-- The loop before a value is written. -/
def skip (byteindex offset : ℕ) : ℕ × ℕ :=
  if offset ≥ 8 then skip (byteindex + 1) (offset - 8) else (byteindex, offset)

/-- `frame[j] |= x & 0xff`. -/
def orByte (frame : ℕ → BitVec 8) (j : ℕ) (x : BitVec 32) : ℕ → BitVec 8 :=
  update frame j (frame j ||| x.setWidth 8)

/-- A round of `sbus1_output`. -/
def put (s : Output) (raw : BitVec 16) : Output :=
  let value := (if raw > 0x07ff then 0x07ff else raw).setWidth 32
  let (byteindex, offset) := skip s.byteindex s.offset
  { oframe := orByte (orByte (orByte s.oframe byteindex (value <<< offset))
      (byteindex + 1) (value >>> (8 - offset))) (byteindex + 2) (value >>> (16 - offset))
    byteindex
    offset := offset + 11 }

/-- The rounds for the first values. -/
def pack (values : ℕ → BitVec 16) : ℕ → Output
  | 0 => {}
  | i + 1 => put (pack values i) (values i)

/-- The frame that `sbus1_output` sends. -/
def output (values : ℕ → BitVec 16) (numValues : ℕ) : ℕ → BitVec 8 :=
  (pack values (min numValues 16)).oframe

/-! ## Unpacking -/

structure BitPick where
  byte : ℕ
  rshift : ℕ
  mask : BitVec 32
  lshift : ℕ

def decoder : List (List BitPick) :=
  [[⟨0, 0, 0xff, 0⟩, ⟨1, 0, 0x07, 8⟩, ⟨0, 0, 0x00, 0⟩],
    [⟨1, 3, 0x1f, 0⟩, ⟨2, 0, 0x3f, 5⟩, ⟨0, 0, 0x00, 0⟩],
    [⟨2, 6, 0x03, 0⟩, ⟨3, 0, 0xff, 2⟩, ⟨4, 0, 0x01, 10⟩],
    [⟨4, 1, 0x7f, 0⟩, ⟨5, 0, 0x0f, 7⟩, ⟨0, 0, 0x00, 0⟩],
    [⟨5, 4, 0x0f, 0⟩, ⟨6, 0, 0x7f, 4⟩, ⟨0, 0, 0x00, 0⟩],
    [⟨6, 7, 0x01, 0⟩, ⟨7, 0, 0xff, 1⟩, ⟨8, 0, 0x03, 9⟩],
    [⟨8, 2, 0x3f, 0⟩, ⟨9, 0, 0x1f, 6⟩, ⟨0, 0, 0x00, 0⟩],
    [⟨9, 5, 0x07, 0⟩, ⟨10, 0, 0xff, 3⟩, ⟨0, 0, 0x00, 0⟩],
    [⟨11, 0, 0xff, 0⟩, ⟨12, 0, 0x07, 8⟩, ⟨0, 0, 0x00, 0⟩],
    [⟨12, 3, 0x1f, 0⟩, ⟨13, 0, 0x3f, 5⟩, ⟨0, 0, 0x00, 0⟩],
    [⟨13, 6, 0x03, 0⟩, ⟨14, 0, 0xff, 2⟩, ⟨15, 0, 0x01, 10⟩],
    [⟨15, 1, 0x7f, 0⟩, ⟨16, 0, 0x0f, 7⟩, ⟨0, 0, 0x00, 0⟩],
    [⟨16, 4, 0x0f, 0⟩, ⟨17, 0, 0x7f, 4⟩, ⟨0, 0, 0x00, 0⟩],
    [⟨17, 7, 0x01, 0⟩, ⟨18, 0, 0xff, 1⟩, ⟨19, 0, 0x03, 9⟩],
    [⟨19, 2, 0x3f, 0⟩, ⟨20, 0, 0x1f, 6⟩, ⟨0, 0, 0x00, 0⟩],
    [⟨20, 5, 0x07, 0⟩, ⟨21, 0, 0xff, 3⟩, ⟨0, 0, 0x00, 0⟩]]

def piece (frame : ℕ → BitVec 8) (pick : BitPick) : BitVec 32 :=
  (((frame (1 + pick.byte)).setWidth 32 >>> pick.rshift) &&& pick.mask) <<< pick.lshift

/-- The value of a channel. -/
def extract (frame : ℕ → BitVec 8) (channel : ℕ) : BitVec 32 :=
  (decoder.getD channel []).foldl (fun value pick =>
    if pick.mask ≠ 0 then value ||| piece frame pick else value) 0#32

/-! ## The bits of a frame -/

def frameBit (frame : ℕ → BitVec 8) (p : ℕ) : Bool := (frame (1 + p / 8)).getLsbD (p % 8)

variable {j o p m n k b c : ℕ} {frame : ℕ → BitVec 8} {x : BitVec 32} {raw : BitVec 16}
  {pick : BitPick}

theorem skip_eq : skip j o = (j + o / 8, o % 8) := by
  fun_induction skip j o with
  | case1 j o h ih =>
    rw [ih]
    exact Prod.ext (by dsimp only; omega) (by dsimp only; omega)
  | case2 j o h => exact Prod.ext (by dsimp only; omega) (by dsimp only; omega)

theorem frameBit_orByte : frameBit (orByte frame j x) p =
    (frameBit frame p || (decide (1 + p / 8 = j) && x.getLsbD (p % 8))) := by
  have hlt := Nat.mod_lt p (by decide : 0 < 8)
  unfold frameBit orByte
  by_cases hj : 1 + p / 8 = j
  · subst hj
    simp [hlt]
  · simp [hj]

theorem getLsbD_of_raw {raw : BitVec 16} (hraw : raw < 2048) (hm : 11 ≤ m) :
    raw.getLsbD m = false :=
  Nat.testBit_lt_two_pow (Nat.lt_of_lt_of_le hraw (Nat.pow_le_pow_right Nat.two_pos hm))

/-- A round writes the bits of the value behind those of the values before it. -/
theorem frameBit_put (s) (hraw : raw < 2048) (hs : 8 * s.byteindex + s.offset = 8 + n) :
    frameBit (put s raw).oframe p =
      (frameBit s.oframe p || (decide (n ≤ p) && raw.getLsbD (p - n))) := by
  have hclamp : (if raw > 0x07ff then 0x07ff else raw) = raw := if_neg (by bv_omega)
  simp only [put, skip_eq, hclamp, frameBit_orByte, Bool.or_assoc]
  congr 1
  generalize hJ : s.byteindex + s.offset / 8 = J
  generalize hO : s.offset % 8 = O
  have hb : p % 8 < 32 := by omega
  simp only [getLsbD_shiftLeft, getLsbD_ushiftRight, getLsbD_setWidth, hb]
  -- the byte is before the value, one of the three that it reaches into, or behind it
  obtain hk | hk | hk | hk | hk : 1 + p / 8 < J ∨ 1 + p / 8 = J ∨ 1 + p / 8 = J + 1 ∨
      1 + p / 8 = J + 2 ∨ J + 2 < 1 + p / 8 := by omega
  · simp (disch := omega) [decide_eq_false]
  · by_cases hlow : p % 8 < O
    · simp (disch := omega) [decide_eq_false, hk, hlow]
    · simp (disch := omega) [decide_eq_true, hk, hlow, show p - n = p % 8 - O by omega]
  · simp (disch := omega) [decide_eq_true, hk, show p - n = 8 - O + p % 8 by omega]
  · simp (disch := omega) [decide_eq_true, hk, show p - n = 16 - O + p % 8 by omega]
  · simp (disch := omega) [decide_eq_false]

theorem pack_position (values i) :
    8 * (pack values i).byteindex + (pack values i).offset = 8 + 11 * i ∧
      0 < (pack values i).byteindex := by
  induction i with
  | zero => exact ⟨rfl, Nat.one_pos⟩
  | succ i ih =>
    simp only [pack, put, skip_eq]
    omega

theorem frameBit_pack {values : ℕ → BitVec 16} (hvalues : ∀ i < k, values i < 2048) :
    frameBit (pack values k).oframe p =
      (decide (p < 11 * k) && (values (p / 11)).getLsbD (p % 11)) := by
  induction k with
  | zero => simp [pack, frameBit]
  | succ k ih =>
    rw [pack, frameBit_put _ (hvalues k k.lt_succ_self) (pack_position values k).1,
      ih fun i hi => hvalues i (Nat.lt_succ_of_lt hi)]
    by_cases hlt : p < 11 * k
    · simp (disch := omega) [hlt, decide_eq_false, decide_eq_true]
    by_cases hnext : p < 11 * (k + 1)
    · simp (disch := omega) [hlt, hnext, decide_eq_true, show p / 11 = k by omega,
        show p % 11 = p - 11 * k by omega]
    · simp [hlt, hnext, getLsbD_of_raw (hvalues k k.lt_succ_self) (show 11 ≤ p - 11 * k by omega)]

theorem pack_zero (values i) : (pack values i).oframe 0 = 0x0f := by
  induction i with
  | zero => rfl
  | succ i ih =>
    have hpos := (pack_position values i).2
    simp [pack, put, skip_eq, orByte, update_apply, ih]
    omega

/-! ## The picks -/

/-- The pick has something to do with the bit of the value. -/
def covers (pick : BitPick) (b : ℕ) : Bool :=
  decide (b < 32) && !decide (b < pick.lshift) && pick.mask.getLsbD (b - pick.lshift)

theorem getLsbD_piece : (piece frame pick).getLsbD b = (covers pick b &&
    (frame (1 + pick.byte)).getLsbD (pick.rshift + (b - pick.lshift))) := by
  simp only [piece, covers, getLsbD_shiftLeft, getLsbD_and, getLsbD_ushiftRight, getLsbD_setWidth]
  by_cases hwide : pick.rshift + (b - pick.lshift) < 32
  · simp [hwide, Bool.and_assoc, Bool.and_comm]
  · have hlow : 8 ≤ pick.rshift + (b - pick.lshift) := by omega
    simp [hwide, getLsbD_of_ge _ _ hlow]

theorem getLsbD_foldl (picks : List BitPick) (value) :
    (picks.foldl (fun value pick =>
      if pick.mask ≠ 0 then value ||| piece frame pick else value) value).getLsbD b =
      (value.getLsbD b || picks.any fun pick => (piece frame pick).getLsbD b) := by
  induction picks generalizing value with
  | nil => simp
  | cons pick picks ih =>
    rw [List.foldl_cons, ih, List.any_cons]
    by_cases hmask : pick.mask = 0
    · simp [hmask, piece]
    · rw [if_pos hmask, getLsbD_or, Bool.or_assoc]

/-- Every bit of a value is picked, from where the value is in the data. -/
theorem decoder_covers : ∀ c < 16, ∀ b < 32,
    (∀ pick ∈ decoder.getD c [], covers pick b → b < 11 ∧
      8 * pick.byte + (pick.rshift + (b - pick.lshift)) = 11 * c + b ∧
      pick.rshift + (b - pick.lshift) < 8) ∧
    (b < 11 → ∃ pick ∈ decoder.getD c [], covers pick b) := by
  decide +kernel

theorem getLsbD_extract (frame : ℕ → BitVec 8) (hc : c < 16) (hb : b < 32) :
    (extract frame c).getLsbD b = (decide (b < 11) && frameBit frame (11 * c + b)) := by
  obtain ⟨hplace, hcovered⟩ := decoder_covers c hc b hb
  have hbit : ∀ pick ∈ decoder.getD c [], covers pick b →
      (piece frame pick).getLsbD b = frameBit frame (11 * c + b) := by
    intro pick hpick hcovers
    obtain ⟨-, hsum, hlt⟩ := hplace pick hpick hcovers
    rw [getLsbD_piece, hcovers, Bool.true_and, frameBit, show (11 * c + b) / 8 = pick.byte by omega,
      show (11 * c + b) % 8 = pick.rshift + (b - pick.lshift) by omega]
  rw [extract, getLsbD_foldl, getLsbD_zero, Bool.false_or, Bool.eq_iff_iff, List.any_eq_true,
    Bool.and_eq_true, decide_eq_true_eq]
  constructor
  · rintro ⟨pick, hpick, hset⟩
    have hcovers : covers pick b := by
      rw [getLsbD_piece] at hset
      exact (Bool.and_eq_true_iff.mp hset).1
    exact ⟨(hplace pick hpick hcovers).1, (hbit pick hpick hcovers).symm.trans hset⟩
  · rintro ⟨hlow, hset⟩
    obtain ⟨pick, hpick, hcovers⟩ := hcovered hlow
    exact ⟨pick, hpick, (hbit pick hpick hcovers).trans hset⟩

theorem extract_lt (frame) (hc : c < 16) : (extract frame c).setWidth 16 < 2048 := by
  refine Nat.lt_pow_two_of_testBit (n := 11) _ fun b hb => ?_
  change ((extract frame c).setWidth 16).getLsbD b = false
  rw [getLsbD_setWidth]
  by_cases hlt : b < 16
  · simp [getLsbD_extract frame hc (show b < 32 by omega), Nat.not_lt.mpr hb]
  · simp [hlt]

/-! ## Round trips -/

theorem getLsbD_eq_frameBit (frame) (hj : 1 ≤ j) (hb : b < 8) :
    (frame j).getLsbD b = frameBit frame (8 * (j - 1) + b) := by
  rw [frameBit, show 1 + (8 * (j - 1) + b) / 8 = j by omega,
    show (8 * (j - 1) + b) % 8 = b by omega]

/-- Packing writes the data of the frame only, and the table extracts what has been packed. And any
data is what the packing of the values in it gives. -/
theorem packing_unpacking_inverse {values : ℕ → BitVec 16} (hvalues : ∀ i < 16, values i < 2048)
    (frame : ℕ → BitVec 8) :
    (∀ j, j < 1 ∨ 22 < j → output values 16 j = if j = 0 then 0x0f else 0) ∧
    (∀ channel < 16, extract (output values 16) channel = (values channel).setWidth 32) ∧
    ∀ j, 1 ≤ j → j ≤ 22 → output (fun i => (extract frame i).setWidth 16) 16 j = frame j := by
  refine ⟨fun j hj => ?_, fun c hc => eq_of_getLsbD_eq fun b hb => ?_,
    fun j hj hj' => eq_of_getLsbD_eq fun b hb => ?_⟩
  · rcases Nat.eq_zero_or_pos j with rfl | hpos
    · exact pack_zero values 16
    · refine eq_of_getLsbD_eq fun b hb => ?_
      rw [getLsbD_eq_frameBit _ hpos hb, output, Nat.min_self, frameBit_pack hvalues,
        if_neg (by omega)]
      simp (disch := omega) [decide_eq_false]
  · rw [getLsbD_extract _ hc hb, output, Nat.min_self, frameBit_pack hvalues, getLsbD_setWidth]
    by_cases hlow : b < 11
    · simp (disch := omega) [hlow, hb, decide_eq_true, show (11 * c + b) / 11 = c by omega,
        show (11 * c + b) % 11 = b by omega]
    · simp [hlow, getLsbD_of_raw (hvalues c hc) (Nat.le_of_not_lt hlow)]
  · rw [getLsbD_eq_frameBit _ hj hb, output, Nat.min_self,
      frameBit_pack fun i hi => extract_lt frame hi, getLsbD_setWidth,
      getLsbD_extract frame (by omega) (by omega), getLsbD_eq_frameBit _ hj hb, Nat.div_add_mod]
    simp (disch := omega) [decide_eq_true]

theorem packing_unpacking_inverse_full_scale :
    extract (output (fun _ => 2047) 16) 2 = 2047 := by
  exact (packing_unpacking_inverse (fun _ _ => by decide) fun _ => 0).2.1 2 (by decide)

end Px4.Rc.Sbus
