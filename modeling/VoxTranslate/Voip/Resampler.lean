import Mathlib.Algebra.Order.Floor.Div
import Mathlib.Data.List.Basic
import Mathlib.Data.Nat.GCD.Basic
import Mathlib.Tactic.Common
import Mathlib.Tactic.Ring

/-!
# The resampler

A rational resampler that is fed a stream chunk by chunk.  It carries the last input samples and
the counters of its input and output from one chunk to the next, so that a chunk boundary leaves
no trace.  What a branch of the filter makes of its window of samples is a parameter; reads of the
chunk buffer may fail.
-/

namespace VoxTranslate.Voip

/-- Taps per polyphase branch. -/
def tapCount : Nat := 32

/-- A stateful rational resampler. -/
structure Resampler (α : Type) where
  fromHz : Nat
  toHz : Nat
  /-- Interpolation and decimation factors, reduced. -/
  l : Nat
  m : Nat
  /-- What each branch makes of its window, newest sample first. -/
  phases : List (List α → α)
  /-- The last `tapCount - 1` input samples. -/
  history : List α
  /-- Absolute index of the next input sample to arrive. -/
  consumed : Nat
  /-- Output counter. -/
  outK : Nat

namespace Resampler

variable {α : Type} [Zero α]

-- the branches of the filter for the factors `l` and `m`
variable (branch : Nat → Nat → Nat → List α → α)

def new (fromHz toHz : Nat) : Resampler α where
  fromHz
  toHz
  l := toHz / max (fromHz.gcd toHz) 1
  m := fromHz / max (fromHz.gcd toHz) 1
  phases := (List.range (toHz / max (fromHz.gcd toHz) 1)).map
    (branch (toHz / max (fromHz.gcd toHz) 1) (fromHz / max (fromHz.gcd toHz) 1))
  history := List.replicate (tapCount - 1) 0
  consumed := 0
  outK := 0

omit [Zero α] in
def isIdentity (s : Resampler α) : Bool := s.fromHz == s.toHz

/-- The branch of the output with counter `k`. -/
def phase (s : Resampler α) (k : Nat) : Nat := k * s.m % s.l

/-- The newest input sample that the output with counter `k` looks at. -/
def baseAbs (s : Resampler α) (k : Nat) : Nat := (k * s.m - s.phase k) / s.l

/-- The sample at an absolute index, from the buffer that begins at `firstAbs`; `none` is a read
past its end. -/
def readSample (x : List α) (firstAbs abs : Int) : Option α :=
  if abs < firstAbs then some 0 else x[(abs - firstAbs).toNat]?

/-- The loop over the outputs that the buffer suffices for, and the counter after it. -/
def loop (s : Resampler α) (x : List α) (firstAbs : Int) (lastAbs : Nat) :
    Nat → Nat → Option (List α × Nat)
  | 0, _ => none
  | fuel + 1, k =>
    if s.baseAbs k > lastAbs then some ([], k)
    else do
      let taps ← s.phases[s.phase k]?
      let window ← (List.range tapCount).mapM fun r =>
        readSample x firstAbs ((s.baseAbs k : Int) - r)
      let (out, k') ← s.loop x firstAbs lastAbs fuel (k + 1)
      return (taps window :: out, k')

/-- Resample one chunk, continuing from the previous call. -/
def process (s : Resampler α) (input : List α) : Option (List α × Resampler α) :=
  if s.isIdentity then some (input, s)
  else if input.isEmpty then some ([], s)
  else
    let x := s.history ++ input
    let firstAbs : Int := (s.consumed : Int) - s.history.length
    let lastAbs := s.consumed + input.length - 1
    (s.loop x firstAbs lastAbs ((lastAbs + 1) * s.l + 1) s.outK).map fun (out, outK) =>
      (out,
        { s with
          history := x.drop (x.length - (tapCount - 1))
          consumed := s.consumed + input.length
          outK })

/-- Successive calls, one for each chunk. -/
def processAll (s : Resampler α) : List (List α) → Option (List (List α) × Resampler α)
  | [] => some ([], s)
  | input :: chunks => do
    let (out, s) ← s.process input
    let (outs, s) ← s.processAll chunks
    return (out :: outs, s)

/-! ## The whole stream -/

/-- The number of outputs that `n` input samples suffice for. -/
def count (s : Resampler α) (n : Nat) : Nat := n * s.l ⌈/⌉ s.m

/-- The stream, with the silence before it that the history begins with. -/
def padded (xs : List α) : List α := List.replicate (tapCount - 1) 0 ++ xs

/-- The samples that an output looks at, from the one with index `newest` back. -/
def windowAt (xs : List α) (newest : Nat) : List α :=
  (List.range tapCount).map fun r => (padded xs).getD (newest + (tapCount - 1) - r) 0

/-- The output with counter `k`: a function of its phase and its window. -/
def outAt (fromHz toHz : Nat) (xs : List α) (k : Nat) : α :=
  let s := new branch fromHz toHz
  branch s.l s.m (s.phase k) (windowAt xs (k * s.m / s.l))

/-- The state after a stream. -/
def after (fromHz toHz : Nat) (xs : List α) : Resampler α :=
  let s := new branch fromHz toHz
  { s with
    history := (padded xs).drop xs.length
    consumed := xs.length
    outK := s.count xs.length }

section Counters

variable {s : Resampler α} {k n : Nat}

omit [Zero α] in
lemma baseAbs_eq (k : Nat) : s.baseAbs k = k * s.m / s.l := (Nat.div_eq_sub_mod_div).symm

omit [Zero α] in
lemma lt_count_iff (hm : 0 < s.m) : k < s.count n ↔ k * s.m < n * s.l := by
  unfold count
  rw [← not_le, ceilDiv_le_iff_le_mul hm, not_le, mul_comm]

omit [Zero α] in
/-- The newest sample of an output is there exactly when the output is counted. -/
lemma baseAbs_lt_iff (hl : 0 < s.l) (hm : 0 < s.m) : s.baseAbs k < n ↔ k < s.count n := by
  rw [baseAbs_eq, Nat.div_lt_iff_lt_mul hl, lt_count_iff hm]

omit [Zero α] in
lemma count_mono (s : Resampler α) {n n' : Nat} (hm : 0 < s.m) (h : n ≤ n') :
    s.count n ≤ s.count n' := by
  by_contra hlt
  rw [not_le, lt_count_iff hm] at hlt
  have hself : ¬ s.count n' < s.count n' := lt_irrefl _
  rw [lt_count_iff hm] at hself
  exact hself (hlt.trans_le (Nat.mul_le_mul_right _ h))

omit [Zero α] in
lemma count_le (hm : 0 < s.m) (n : Nat) : s.count n ≤ n * s.l := by
  unfold count
  rw [ceilDiv_le_iff_le_mul hm]
  exact Nat.le_mul_of_pos_left _ hm

end Counters

/-! ## One chunk -/

lemma length_padded (xs : List α) : (padded xs).length = xs.length + (tapCount - 1) := by
  rw [padded, List.length_append, List.length_replicate, Nat.add_comm]

/-- A read within the window of an output finds its sample. -/
lemma readSample_eq {ys : List α} {n b r : Nat} (hn : n ≤ b) (hb : b < ys.length)
    (hr : r < tapCount) :
    readSample ((padded ys).drop n) ((n : Int) - (tapCount - 1 : Nat)) ((b : Int) - r) =
      some ((padded ys).getD (b + (tapCount - 1) - r) 0) := by
  have hlen := length_padded ys
  have hin : b + (tapCount - 1) - r < (padded ys).length := by omega
  have hindex : ((b : Int) - r - (n - (tapCount - 1 : Nat))).toNat =
      b + (tapCount - 1) - r - n := by omega
  have hle : n ≤ b + (tapCount - 1) - r := by omega
  unfold readSample
  rw [if_neg (by omega), hindex, List.getElem?_drop, Nat.add_sub_cancel' hle,
    List.getD_eq_getElem?_getD, List.getElem?_eq_getElem hin, Option.getD_some]

lemma mapM_eq_map {β γ : Type} {f : β → Option γ} {g : β → γ} {l : List β}
    (h : ∀ b ∈ l, f b = some (g b)) : l.mapM f = some (l.map g) := by
  induction l with
  | nil => rfl
  | cons b l ih =>
    rw [List.mapM_cons, h b (by simp), ih fun c hc => h c (List.mem_cons_of_mem _ hc)]
    rfl

/-- The loop over a buffer that begins with the window of the first output left to produce: every
read succeeds, and the outputs are those of the stream. -/
lemma loop_eq {fromHz toHz : Nat} {s : Resampler α} (hl : 0 < s.l) (hm : 0 < s.m)
    (hfactors : s.l = (new branch fromHz toHz).l ∧ s.m = (new branch fromHz toHz).m)
    (hphases : s.phases = (List.range s.l).map (branch s.l s.m)) {ys : List α} {n lastAbs : Nat}
    (hlast : lastAbs + 1 = ys.length) {fuel k : Nat} (hfirst : s.count n ≤ k)
    (hk : k ≤ s.count ys.length) (hfuel : s.count ys.length < k + fuel) :
    s.loop ((padded ys).drop n) ((n : Int) - (tapCount - 1 : Nat)) lastAbs fuel k =
      some ((List.range' k (s.count ys.length - k)).map (outAt branch fromHz toHz ys),
        s.count ys.length) := by
  induction fuel generalizing k with
  | zero => omega
  | succ fuel ih =>
    have hstop : s.baseAbs k > lastAbs ↔ ¬ k < s.count ys.length := by
      rw [← baseAbs_lt_iff hl hm]
      omega
    rw [loop]
    split_ifs with hbase
    · have hend : k = s.count ys.length := by
        have := hstop.mp hbase
        omega
      rw [hend, Nat.sub_self]
      rfl
    · have hless : k < s.count ys.length := by
        by_contra hnot
        exact hbase (hstop.mpr hnot)
      have hnew : n ≤ s.baseAbs k := by
        by_contra hold
        rw [not_le, baseAbs_lt_iff hl hm] at hold
        omega
      have hbranch : s.phases[s.phase k]? = some (branch s.l s.m (s.phase k)) := by
        have hphase : s.phase k < s.l := Nat.mod_lt _ hl
        rw [hphases, List.getElem?_map, List.getElem?_range hphase]
        rfl
      have hwindow : ((List.range tapCount).mapM fun r =>
          readSample ((padded ys).drop n) ((n : Int) - (tapCount - 1 : Nat))
            ((s.baseAbs k : Int) - r)) = some (windowAt ys (s.baseAbs k)) :=
        mapM_eq_map fun r hr => readSample_eq hnew (by omega) (List.mem_range.mp hr)
      have hout : branch s.l s.m (s.phase k) (windowAt ys (s.baseAbs k)) =
          outAt branch fromHz toHz ys k := by
        rw [baseAbs_eq, outAt, phase, phase, hfactors.1, hfactors.2]
      have hlen : s.count ys.length - k = s.count ys.length - (k + 1) + 1 := by omega
      rw [hbranch, hwindow, ih (by omega) hless (by omega), hlen, List.range'_succ, List.map_cons,
        ← hout]
      rfl

/-! ## Chunk after chunk -/

/-- All outputs of a stream. -/
def outputs (fromHz toHz : Nat) (xs : List α) : List α :=
  (List.range ((new branch fromHz toHz).count xs.length)).map (outAt branch fromHz toHz xs)

section Stream

variable {fromHz toHz : Nat}

omit [Zero α] in
lemma div_gcd_pos {a b : Nat} (ha : 0 < a) (hb : 0 < b) :
    0 < b / max (a.gcd b) 1 ∧ 0 < a / max (a.gcd b) 1 := by
  have hgcd : max (a.gcd b) 1 = a.gcd b := max_eq_left (Nat.gcd_pos_of_pos_left b ha)
  rw [hgcd]
  exact ⟨Nat.div_gcd_pos_of_pos_right a hb, Nat.div_gcd_pos_of_pos_left b ha⟩

/-- The window of an output that was there is not changed by what comes after. -/
lemma windowAt_append (xs c : List α) {b : Nat} (hb : b < xs.length) :
    windowAt (xs ++ c) b = windowAt xs b := by
  unfold windowAt
  refine List.map_congr_left fun r _ => ?_
  have hin : b + (tapCount - 1) - r < (padded xs).length := by
    have := length_padded xs
    omega
  have hpadded : padded (xs ++ c) = padded xs ++ c := (List.append_assoc _ _ _).symm
  rw [hpadded, List.getD_eq_getElem?_getD, List.getD_eq_getElem?_getD,
    List.getElem?_append_left hin]

/-- The outputs of a longer stream begin with those of the stream. -/
lemma outputs_append (hfrom : 0 < fromHz) (hto : 0 < toHz) (xs c : List α) :
    outputs branch fromHz toHz (xs ++ c) = outputs branch fromHz toHz xs ++
      (List.range' ((new branch fromHz toHz).count xs.length)
        ((new branch fromHz toHz).count (xs ++ c).length -
          (new branch fromHz toHz).count xs.length)).map
        (outAt branch fromHz toHz (xs ++ c)) := by
  obtain ⟨hl, hm⟩ := div_gcd_pos hfrom hto
  have hmono := (new branch fromHz toHz).count_mono hm
    (by simp : xs.length ≤ (xs ++ c).length)
  have hkept : outputs branch fromHz toHz xs =
      (List.range' 0 ((new branch fromHz toHz).count xs.length)).map
        (outAt branch fromHz toHz (xs ++ c)) := by
    rw [outputs, List.range_eq_range']
    refine List.map_congr_left fun k hk => ?_
    have hless : k < (new branch fromHz toHz).count xs.length := by
      have := (List.mem_range'_1.mp hk).2
      omega
    rw [← baseAbs_lt_iff hl hm, baseAbs_eq] at hless
    unfold outAt
    dsimp only
    rw [windowAt_append xs c hless]
  have hsplit := @List.range'_append_1 0 ((new branch fromHz toHz).count xs.length)
    ((new branch fromHz toHz).count (xs ++ c).length -
      (new branch fromHz toHz).count xs.length)
  rw [Nat.zero_add, Nat.add_sub_cancel' hmono] at hsplit
  rw [hkept, outputs, List.range_eq_range', ← hsplit, List.map_append]

/-- **One chunk** continues the stream: its outputs are those that the stream gains. -/
lemma process_after (hfrom : 0 < fromHz) (hto : 0 < toHz) (hne : fromHz ≠ toHz) (xs c : List α) :
    ∃ out, (after branch fromHz toHz xs).process c =
        some (out, after branch fromHz toHz (xs ++ c)) ∧
      outputs branch fromHz toHz (xs ++ c) = outputs branch fromHz toHz xs ++ out := by
  obtain ⟨hl, hm⟩ := div_gcd_pos hfrom hto
  refine ⟨_, ?_, outputs_append branch hfrom hto xs c⟩
  have hidentity : (after branch fromHz toHz xs).isIdentity = false := by
    simpa [isIdentity, after, new] using hne
  unfold process
  rw [hidentity]
  by_cases hc : c = []
  · subst hc
    simp
  · have hempty : c.isEmpty = false := by simpa using hc
    have hpos : 0 < c.length := List.length_pos_iff.mpr hc
    have hlen : ((padded xs).drop xs.length).length = tapCount - 1 := by
      have := length_padded xs
      rw [List.length_drop]
      omega
    have hbuffer : (padded xs).drop xs.length ++ c = (padded (xs ++ c)).drop xs.length := by
      have hpadded : padded (xs ++ c) = padded xs ++ c := (List.append_assoc _ _ _).symm
      rw [hpadded, List.drop_append_of_le_length]
      have := length_padded xs
      omega
    have hlast : xs.length + c.length - 1 + 1 = (xs ++ c).length := by
      rw [List.length_append]
      omega
    have hfuel : (new branch fromHz toHz).count (xs ++ c).length <
        (new branch fromHz toHz).count xs.length +
          ((xs.length + c.length - 1 + 1) * (new branch fromHz toHz).l + 1) := by
      have hle := @count_le α (new branch fromHz toHz) hm (xs ++ c).length
      rw [hlast]
      omega
    have hloop := @loop_eq α _ branch fromHz toHz (after branch fromHz toHz xs) hl hm ⟨rfl, rfl⟩
      rfl (xs ++ c) xs.length _ hlast _ ((new branch fromHz toHz).count xs.length) le_rfl
      ((new branch fromHz toHz).count_mono hm (by simp)) hfuel
    simp only [hempty, Bool.false_eq_true, if_false]
    simp only [after, hlen, hbuffer] at hloop ⊢
    have hhistory : ((padded (xs ++ c)).drop xs.length).drop
        (((padded (xs ++ c)).drop xs.length).length - (tapCount - 1)) =
          (padded (xs ++ c)).drop (xs ++ c).length := by
      rw [List.drop_drop, List.length_drop, length_padded, List.length_append]
      congr 1
      omega
    rw [hloop, Option.map_some, hhistory, List.length_append]
    rfl

/-- **All chunks**: whatever the stream before them, their outputs are those it gains. -/
lemma processAll_after (hfrom : 0 < fromHz) (hto : 0 < toHz) (hne : fromHz ≠ toHz)
    (xs : List α) (chunks : List (List α)) :
    ∃ outs, (after branch fromHz toHz xs).processAll chunks =
        some (outs, after branch fromHz toHz (xs ++ chunks.flatten)) ∧
      outputs branch fromHz toHz (xs ++ chunks.flatten) =
        outputs branch fromHz toHz xs ++ outs.flatten := by
  induction chunks generalizing xs with
  | nil => exact ⟨[], by simp [processAll], by simp⟩
  | cons c chunks ih =>
    obtain ⟨out, hprocess, hout⟩ := process_after branch hfrom hto hne xs c
    obtain ⟨outs, hrest, houts⟩ := ih (xs ++ c)
    rw [List.append_assoc, ← List.flatten_cons] at hrest houts
    refine ⟨out :: outs, ?_, ?_⟩
    · simp [processAll, hprocess, hrest]
    · rw [houts, hout, List.append_assoc, List.flatten_cons]

/-- The stream before the first chunk is empty. -/
lemma after_nil : after branch fromHz toHz [] = new branch fromHz toHz := by
  simp [after, new, padded, count]

/-- A resampler between equal rates passes every chunk on. -/
lemma processAll_identity {s : Resampler α} (h : s.isIdentity = true) (chunks : List (List α)) :
    s.processAll chunks = some (chunks, s) := by
  induction chunks with
  | nil => rfl
  | cons c chunks ih => simp [processAll, process, h, ih]

end Stream

/-- **Streaming is resampling the whole signal.**  For positive rates and however a signal is cut
into chunks, no read fails, the outputs of the successive calls are together those of one call on
the whole signal, and `n` samples yield `n * L / M` outputs, rounded up. -/
theorem process_chunks {fromHz toHz : Nat} (hfrom : 0 < fromHz) (hto : 0 < toHz)
    (chunks : List (List α)) :
    ∃ outs s s', (new branch fromHz toHz).processAll chunks = some (outs, s) ∧
      (new branch fromHz toHz).process chunks.flatten = some (outs.flatten, s') ∧
      outs.flatten.length =
        chunks.flatten.length * (new branch fromHz toHz).l ⌈/⌉ (new branch fromHz toHz).m := by
  by_cases hsame : fromHz = toHz
  · have hidentity : (new branch fromHz toHz).isIdentity = true := by
      simpa [isIdentity, new] using hsame
    refine ⟨chunks, _, new branch fromHz toHz, processAll_identity hidentity chunks, ?_, ?_⟩
    · rw [process, if_pos hidentity]
    · have hone : toHz / max (toHz.gcd toHz) 1 = 1 := by
        rw [Nat.gcd_self, max_eq_left (by omega : 1 ≤ toHz), Nat.div_self hto]
      subst hsame
      have hfactors : (new branch fromHz fromHz).l = 1 ∧ (new branch fromHz fromHz).m = 1 :=
        ⟨hone, hone⟩
      rw [hfactors.1, hfactors.2, mul_one, ceilDiv_one]
  · obtain ⟨outs, hall, houts⟩ := processAll_after branch hfrom hto hsame [] chunks
    obtain ⟨out, hwhole, hout⟩ := process_after branch hfrom hto hsame []
      chunks.flatten
    have hnone : outputs branch fromHz toHz [] = [] := by
      simp [outputs, count]
    rw [hnone, List.nil_append, List.nil_append] at houts hout
    rw [after_nil] at hall hwhole
    rw [← hout, houts] at hwhole
    refine ⟨outs, _, _, hall, hwhole, ?_⟩
    rw [← houts]
    simp [outputs, count]

/-- A filter that sums its window, from three samples to two, on chunks of one, none and five
samples. -/
theorem process_chunks_sample :
    ∃ outs s s', (new (fun _ _ _ w => w.sum) 24000 16000).processAll
        [[(1 : Int)], [], [2, 3, 4, 5, 6]] = some (outs, s) ∧
      (new (fun _ _ _ w => w.sum) 24000 16000).process [(1 : Int), 2, 3, 4, 5, 6] =
        some (outs.flatten, s') ∧
      outs.flatten.length = 4 := by
  obtain ⟨outs, s, s', hall, hwhole, hlength⟩ := process_chunks
    (fun _ _ _ w => w.sum) (by decide : 0 < 24000) (by decide : 0 < 16000)
    [[(1 : Int)], [], [2, 3, 4, 5, 6]]
  exact ⟨outs, s, s', hall, hwhole, hlength⟩

end Resampler

end VoxTranslate.Voip
