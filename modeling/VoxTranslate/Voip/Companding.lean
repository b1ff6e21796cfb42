import Mathlib.Data.List.Forall2
import VoxTranslate.Lib.Quantise
import VoxTranslate.Voip.ByteOrder

/-!
# What the telephone hears of a sample

A µ-law byte is a sign, an exponent and four bits after the leading one, so a sample is quantised to
its five leading bits after a bias has been added.  What is put on the wire is read back within a
thirty-second of the sample, with its sign and in its order, and bytes that have been read once are
not worn down by being written again.
-/

namespace VoxTranslate.Voip

open Lib.Quantise

/-- What is read back of a magnitude: its five leading bits, over the bias and up to the clip. -/
def level (n : Nat) : Nat := quantise 4 (min n 32635 + 132) - 132

/-- What is read back of a sample. -/
def heard (x : Int) : Int := if x < 0 then -(level x.natAbs : Int) else level x.natAbs

/-- The byte of a sign, an exponent and the bits after the leading one. -/
def ulawByte (negative : Bool) (exponent mantissa : Nat) : UInt8 :=
  let sign : UInt8 := if negative then 0x80 else 0
  ~~~(sign ||| (UInt8.ofNat exponent <<< 4) ||| UInt8.ofNat mantissa)

/-! ## One byte -/

lemma ulawToPcm16_ulawByte (negative : Bool) (exponent : Fin 8) (mantissa : Fin 16) :
    ulawToPcm16 (ulawByte negative exponent mantissa) =
      let n : Int := ((mantissa : Nat) * 8 + 132) * 2 ^ (exponent : Nat) - 132
      if negative then -n else n := by
  revert negative exponent mantissa
  decide +kernel

section Biased

variable {s : Nat}

lemma log2_biased (hlo : 132 ≤ s) (hhi : s ≤ 32767) : 7 ≤ s.log2 ∧ s.log2 ≤ 14 := by
  constructor
  · rw [Nat.le_log2 (by omega)]
    omega
  · rw [← Nat.lt_succ_iff, Nat.log2_lt (by omega)]
    omega

/-- The exponent that is read off the leading zeros. -/
lemma exponent_biased (hlo : 132 ≤ s) (hhi : s ≤ 32767) :
    (min (max (7 - leadingZeros (s >>> 7) + 24) 0) 7).toNat = s.log2 - 7 := by
  obtain ⟨hseven, hfourteen⟩ := log2_biased hlo hhi
  have hs : s ≠ 0 := by omega
  -- the step of the leading bit alone, seven places up
  have hstep : step (s.log2 - 7) s = 2 ^ 7 := by
    rw [step, Nat.sub_sub_self hseven]
  obtain ⟨hle, hlt⟩ := leading_bits hs (Nat.sub_le s.log2 7)
  rw [hstep] at hle hlt
  have hne : s / 2 ^ 7 ≠ 0 := by omega
  have hlog : (s / 2 ^ 7).log2 = s.log2 - 7 := (Nat.log2_eq_iff hne).2 ⟨hle, hlt⟩
  rw [Nat.shiftRight_eq_div_pow, leadingZeros, if_neg hne, hlog]
  omega

/-- The bits after the leading one. -/
lemma mantissa_biased (hlo : 132 ≤ s) (hhi : s ≤ 32767) :
    (s >>> (s.log2 - 7 + 3)) &&& 0x0F = s / step 4 s - 16 := by
  obtain ⟨hseven, -⟩ := log2_biased hlo hhi
  obtain ⟨hle, hlt⟩ := leading_bits (p := 4) (n := s) (by omega) (by omega)
  have hexp : s.log2 - 7 + 3 = s.log2 - 4 := by omega
  rw [Nat.shiftRight_eq_div_pow, hexp, ← step, Nat.and_two_pow_sub_one_eq_mod _ 4]
  omega

/-- Exponent and mantissa stand for the middle of the step. -/
lemma quantise_biased (hlo : 132 ≤ s) (hhi : s ≤ 32767) :
    ((s / step 4 s - 16) * 8 + 132) * 2 ^ (s.log2 - 7) = quantise 4 s := by
  obtain ⟨hseven, -⟩ := log2_biased hlo hhi
  obtain ⟨hle, -⟩ := leading_bits (p := 4) (n := s) (by omega) (by omega)
  have hstep : step 4 s = 8 * 2 ^ (s.log2 - 7) := by
    rw [step, show s.log2 - 4 = 3 + (s.log2 - 7) by omega, pow_add]
    rfl
  have hhalf : step 4 s / 2 = 4 * 2 ^ (s.log2 - 7) := by omega
  have hbits : (s / step 4 s - 16) * 8 + 132 = s / step 4 s * 8 + 4 := by omega
  rw [quantise, hbits, hhalf, hstep, add_mul, mul_assoc]

end Biased

lemma quantise_ge {s : Nat} (hs : 132 ≤ s) : 132 ≤ quantise 4 s := by
  have hbias : quantise 4 132 = 132 := by decide
  have hlog : Nat.log2 132 = 7 := by decide
  rw [← hbias]
  exact quantise_mono (by omega) (by omega) hs

/-- A sample that is written is read back as the middle of its step. -/
lemma ulawToPcm16_pcm16ToUlaw (x : Int) : ulawToPcm16 (pcm16ToUlaw x) = heard x := by
  set s := min x.natAbs 32635 + 132 with hs
  have hlo : 132 ≤ s := by omega
  have hhi : s ≤ 32767 := by omega
  obtain ⟨hseven, hfourteen⟩ := log2_biased hlo hhi
  obtain ⟨hle, hlt⟩ := leading_bits (p := 4) (n := s) (by omega) (by omega)
  have hbyte : pcm16ToUlaw x = ulawByte (decide (x < 0)) (s.log2 - 7) (s / step 4 s - 16) := by
    rw [ulawByte, ← mantissa_biased hlo hhi, ← exponent_biased hlo hhi]
    simp [pcm16ToUlaw, hs]
  have hread := ulawToPcm16_ulawByte (decide (x < 0)) ⟨s.log2 - 7, by omega⟩
    ⟨s / step 4 s - 16, by omega⟩
  have hbias := quantise_ge hlo
  have hmiddle : (((s / step 4 s - 16 : Nat) : Int) * 8 + 132) * 2 ^ (s.log2 - 7) - 132 =
      level x.natAbs := by
    have hcast : (level x.natAbs : Int) = (quantise 4 s : Nat) - 132 := by
      unfold level
      rw [← hs]
      exact Int.ofNat_sub hbias
    rw [hcast, ← quantise_biased hlo hhi]
    push_cast
    rfl
  rw [hbyte, hread]
  simp only [hmiddle, heard, decide_eq_true_eq]

/-! ## What is heard -/

/-- The samples of sixteen bits. -/
def IsSample (x : Int) : Prop := -32768 ≤ x ∧ x ≤ 32767

/-- Within a thirty-second of the sample and of the bias, and of its sign. -/
def Near (x y : Int) : Prop :=
  32 * (y - x).natAbs ≤ x.natAbs + 132 ∧ (0 ≤ x → 0 ≤ y) ∧ (x ≤ 0 → y ≤ 0)

lemma level_near {n : Nat} (h : n ≤ 32768) :
    32 * (level n - n) ≤ n + 132 ∧ 32 * (n - level n) ≤ n + 132 := by
  rcases Nat.lt_or_ge n 32635 with hn | hn
  · obtain ⟨hseven, -⟩ := log2_biased (s := n + 132) (by omega) (by omega)
    obtain ⟨hle, hge⟩ := quantise_share (p := 4) (n := n + 132) (by omega) (by omega)
    unfold level
    rw [min_eq_left hn.le]
    generalize quantise 4 (n + 132) = q at hle hge ⊢
    omega
  · -- what is clipped is read back as the last step of all
    have hlast : level n = 32124 := by
      unfold level
      rw [min_eq_right hn]
      decide
    omega

lemma level_mono {m n : Nat} (h : m ≤ n) : level m ≤ level n := by
  have hs : min m 32635 + 132 ≤ min n 32635 + 132 := by omega
  obtain ⟨hseven, -⟩ := log2_biased (s := min m 32635 + 132) (by omega) (by omega)
  exact Nat.sub_le_sub_right (quantise_mono (by omega) (by omega) hs) 132

lemma near_heard {x : Int} (h : IsSample x) : Near x (heard x) := by
  obtain ⟨hlo, hhi⟩ := h
  obtain ⟨hle, hge⟩ := level_near (n := x.natAbs) (by omega)
  have hzero : level 0 = 0 := by decide
  refine ⟨?_, fun hx => ?_, fun hx => ?_⟩
  · rw [heard]
    split <;> omega
  · rw [heard, if_neg (by omega)]
    omega
  · rw [heard]
    split
    · omega
    · obtain rfl : x = 0 := by omega
      simp [hzero]

/-- A larger sample is not read back as a smaller one. -/
lemma heard_mono {x y : Int} (h : x ≤ y) : heard x ≤ heard y := by
  unfold heard
  split
  · split
    · have := level_mono (m := y.natAbs) (n := x.natAbs) (by omega)
      omega
    · omega
  · rw [if_neg (by omega)]
    have := level_mono (m := x.natAbs) (n := y.natAbs) (by omega)
    omega

/-- The two bytes of a zero are both silence, of which only one is ever written. -/
def rewritten (byte : UInt8) : UInt8 := if byte = 0x7F then 0xFF else byte

lemma pcm16ToUlaw_ulawToPcm16 (byte : UInt8) : pcm16ToUlaw (ulawToPcm16 byte) = rewritten byte := by
  have hall : ∀ n : Fin 256,
      pcm16ToUlaw (ulawToPcm16 (UInt8.ofNat n)) = rewritten (UInt8.ofNat n) := by
    decide +kernel
  simpa using hall ⟨byte.toNat, byte.toNat_lt⟩

lemma ulawToPcm16_rewritten (byte : UInt8) : ulawToPcm16 (rewritten byte) = ulawToPcm16 byte := by
  unfold rewritten
  split
  · next h =>
    rw [h]
    decide
  · rfl

/-! ## Linear samples -/

lemma i16OfBytes_highByte_lowByte {x : Int} (h : IsSample x) :
    i16OfBytes (highByte x) (lowByte x) = x := by
  obtain ⟨hlo, hhi⟩ := h
  have hhigh : (highByte x).toNat = (x % 65536).toNat / 256 := by
    rw [highByte, UInt8.toNat_ofNat']
    omega
  have hlow : (lowByte x).toNat = (x % 65536).toNat % 256 := by
    rw [lowByte, UInt8.toNat_ofNat']
    omega
  simp only [i16OfBytes, i16Max, hhigh, hlow]
  split <;> omega

lemma fromBeBytes_toBeBytes {samples : List Int} (h : ∀ x ∈ samples, IsSample x) :
    fromBeBytes (toBeBytes samples) = samples := by
  induction samples with
  | nil => rfl
  | cons x rest ih =>
    obtain ⟨hx, hrest⟩ := List.forall_mem_cons.1 h
    have htail : toBeBytes (x :: rest) = highByte x :: lowByte x :: toBeBytes rest := rfl
    rw [htail, fromBeBytes, i16OfBytes_highByte_lowByte hx, ih hrest]

lemma length_toBeBytes (samples : List Int) : (toBeBytes samples).length = 2 * samples.length := by
  induction samples with
  | nil => rfl
  | cons x rest ih =>
    have htail : toBeBytes (x :: rest) = highByte x :: lowByte x :: toBeBytes rest := rfl
    rw [htail, List.length_cons, List.length_cons, ih, List.length_cons]
    omega

/-- A payload of whole samples is written again as it was read. -/
lemma toBeBytes_fromBeBytes {bytes : List UInt8} (h : bytes.length % 2 = 0) :
    toBeBytes (fromBeBytes bytes) = bytes := by
  fun_induction fromBeBytes bytes with
  | case1 hi lo rest ih =>
    have hbytes := i16OfBytes_inj (i16OfBytes_highByte_lowByte (i16OfBytes_bounds hi lo))
    have htail : toBeBytes (i16OfBytes hi lo :: fromBeBytes rest) =
        highByte (i16OfBytes hi lo) :: lowByte (i16OfBytes hi lo) ::
          toBeBytes (fromBeBytes rest) := rfl
    have hrest : rest.length % 2 = 0 := by
      simp only [List.length_cons] at h
      omega
    rw [htail, hbytes.1, hbytes.2, ih hrest]
  | case2 bytes hbytes =>
    match bytes, hbytes, h with
    | [], _, _ => rfl
    | [_], _, h => simp at h
    | a :: b :: rest, hbytes, _ => exact (hbytes a b rest rfl).elim

lemma swapBytePairs_swapBytePairs (bytes : List UInt8) :
    swapBytePairs (swapBytePairs bytes) = bytes := by
  fun_induction swapBytePairs bytes with
  | case1 a b rest ih => rw [swapBytePairs, ih]
  | case2 rest hrest =>
    unfold swapBytePairs
    split
    · next a b rest' => exact (hrest a b rest' rfl).elim
    · rfl

/-- Whatever the byte order of a leg, reading undoes what writing did to it. -/
lemma LegAudio.orient_orient (codec : MediaCodec) (order : ByteOrderDetector)
    (bytes : List UInt8) : orient codec order (orient codec order bytes) = bytes := by
  unfold orient
  split
  · exact swapBytePairs_swapBytePairs bytes
  · rfl

/-! ## The wire -/

/-- What is read back of each sample that was written. -/
def readBack (codec : MediaCodec) (x : Int) : Int := if codec = .pcmu then heard x else x

lemma near_readBack (codec : MediaCodec) {x : Int} (h : IsSample x) :
    Near x (readBack codec x) := by
  unfold readBack
  split
  · exact near_heard h
  · refine ⟨?_, id, id⟩
    omega

lemma readBack_mono (codec : MediaCodec) {x y : Int} (h : x ≤ y) :
    readBack codec x ≤ readBack codec y := by
  unfold readBack
  split
  · exact heard_mono h
  · exact h

/-- The samples that are written are read back one by one. -/
lemma decode_encode {codec : MediaCodec} {samples : List Int} {wire : List UInt8}
    (hsamples : ∀ x ∈ samples, IsSample x) (hwire : encode codec samples = .ok wire) :
    decode codec wire = .ok (samples.map (readBack codec)) := by
  cases codec with
  | l16 =>
    obtain rfl : toBeBytes samples = wire := by simpa [encode] using hwire
    have heven : (toBeBytes samples).length % 2 = 0 := by rw [length_toBeBytes]; omega
    have hsame : samples.map (readBack .l16) = samples := by
      conv_rhs => rw [← List.map_id samples]
      exact List.map_congr_left fun x _ => rfl
    rw [hsame, decode, if_neg (not_not.2 heven), fromBeBytes_toBeBytes hsamples]
  | pcmu =>
    obtain rfl : samples.map pcm16ToUlaw = wire := by simpa [encode] using hwire
    have hback : ulawToPcm16 ∘ pcm16ToUlaw = readBack .pcmu := by
      funext x
      exact ulawToPcm16_pcm16ToUlaw x
    rw [decode, List.map_map, hback]
  | pcma | g722 | opus => cases hwire

/-- What a leg puts on the wire for the samples of an engine is read back, whatever its codec and
byte order, as as many samples: each is near the one that was written, no two have changed their
order, and linear samples are the same. -/
theorem wire_heard {codec : MediaCodec} (order : ByteOrderDetector) {samples : List Int}
    {wire : List UInt8} (hsamples : ∀ x ∈ samples, IsSample x)
    (hwire : encode codec samples = .ok wire) :
    ∃ ys, decode codec (LegAudio.orient codec order (LegAudio.orient codec order wire)) = .ok ys ∧
      samples.Forall₂ Near ys ∧ (codec = .l16 → ys = samples) ∧
      ∀ p ∈ samples.zip ys, ∀ q ∈ samples.zip ys, p.1 ≤ q.1 → p.2 ≤ q.2 := by
  have hread := decode_encode hsamples hwire
  refine ⟨samples.map (readBack codec), ?_, ?_, ?_, ?_⟩
  · rw [LegAudio.orient_orient, hread]
  · rw [List.forall₂_map_right_iff, List.forall₂_same]
    exact fun x hx => near_readBack codec (hsamples x hx)
  · rintro rfl
    conv_rhs => rw [← List.map_id samples]
    exact List.map_congr_left fun x _ => rfl
  · intro p hp q hq hle
    rw [← List.map_prod_left_eq_zip] at hp hq
    obtain ⟨x, -, rfl⟩ := List.mem_map.1 hp
    obtain ⟨y, -, rfl⟩ := List.mem_map.1 hq
    exact readBack_mono codec hle

theorem wire_heard_pair :
    ∃ ys, decode .pcmu (LegAudio.orient .pcmu .new (LegAudio.orient .pcmu .new [0xCE, 0x7E])) =
        .ok ys ∧ [1000, -5].Forall₂ Near ys ∧ (MediaCodec.pcmu = .l16 → ys = [1000, -5]) ∧
      ∀ p ∈ [1000, -5].zip ys, ∀ q ∈ [1000, -5].zip ys, p.1 ≤ q.1 → p.2 ≤ q.2 :=
  wire_heard .new (by simp [IsSample]) (by decide +kernel)

/-- A payload that has been read and is written again in its codec is the same to the byte, but for
the second zero of µ-law, and the same samples are read in it again: nothing is worn down by being
passed on. -/
theorem transcoded {codec : MediaCodec} {payload again : List UInt8} {samples : List Int}
    (hread : decode codec payload = .ok samples) (hwritten : encode codec samples = .ok again) :
    again = (if codec = .pcmu then payload.map rewritten else payload) ∧
      decode codec again = .ok samples := by
  cases codec with
  | l16 =>
    by_cases heven : payload.length % 2 = 0
    · obtain rfl : fromBeBytes payload = samples := by simpa [decode, heven] using hread
      obtain rfl : toBeBytes (fromBeBytes payload) = again := by simpa [encode] using hwritten
      have hsame := toBeBytes_fromBeBytes heven
      exact ⟨by simpa using hsame, by rw [hsame, hread]⟩
    · simp [decode, heven] at hread
  | pcmu =>
    obtain rfl : payload.map ulawToPcm16 = samples := by simpa [decode] using hread
    obtain rfl : (payload.map ulawToPcm16).map pcm16ToUlaw = again := by
      simpa [encode] using hwritten
    have hbytes : (payload.map ulawToPcm16).map pcm16ToUlaw = payload.map rewritten := by
      rw [List.map_map]
      exact List.map_congr_left fun byte _ => pcm16ToUlaw_ulawToPcm16 byte
    have hsamples : (payload.map rewritten).map ulawToPcm16 = payload.map ulawToPcm16 := by
      rw [List.map_map]
      exact List.map_congr_left fun byte _ => ulawToPcm16_rewritten byte
    exact ⟨by simpa using hbytes, by rw [hbytes, decode, hsamples]⟩
  | pcma | g722 | opus => cases hwritten

theorem transcoded_zeros :
    ([0xFF, 0xFF, 0x80] : List UInt8) =
        (if MediaCodec.pcmu = .pcmu then [0x7F, 0xFF, 0x80].map rewritten else [0x7F, 0xFF, 0x80]) ∧
      decode .pcmu [0xFF, 0xFF, 0x80] = .ok [0, 0, 32124] :=
  have hread : decode .pcmu [0x7F, 0xFF, 0x80] = .ok [0, 0, 32124] := by decide +kernel
  transcoded hread (by decide +kernel)

end VoxTranslate.Voip
