import Mathlib.Data.List.Induction
import Mathlib.Tactic.IntervalCases
import VoxTranslate.Lib.Blocks

/-!
# The denoiser on the audio thread (`rnnoise-worklet.js`)

The microphone comes in quanta and RNNoise works on frames of another size.  Until the binary is
there, and when it fails, the sound goes through as it came; from then on what was denoised is
played as far as there is enough of it for a quantum, and silence where there is not.
-/

namespace VoxTranslate.Client.Denoiser

open Lib

/-- RNNoise is trained at 48 kHz and processes exactly this many samples per call. -/
def FRAME : Nat := 480

/-- The binary, with the state that it keeps from frame to frame. -/
structure Rnnoise (σ α : Type*) where
  /-- `rnnoise_process_frame`, from one scratch buffer into the other. -/
  processFrame : σ → List α → σ × List α
  length_frame : ∀ st frame, frame.length = FRAME → (processFrame st frame).2.length = FRAME
  /-- Times `SCALE`. -/
  scale : α → α
  /-- By `SCALE`. -/
  unscale : α → α

structure Processor (σ α : Type*) where
  /-- The state of the binary, once instantiated. -/
  w : Option σ
  /-- Samples waiting to fill a frame. -/
  input : List α
  /-- Denoised samples waiting to be emitted. -/
  output : List α

/-- What a call of `process` leaves in the buffer of its output. -/
inductive Output (α : Type*) where
  /-- There is no output. -/
  | absent
  | passed (samples : List α)
  | denoised (samples : List α)
  | silence (n : Nat)
  deriving DecidableEq, Repr

namespace Output

variable {α : Type*}

/-- What is heard of the denoised samples. -/
def audio : Output α → List α
  | .denoised samples => samples
  | _ => []

end Output

/-- What the audio thread hands over: the samples of the microphone, and the length of the
output. -/
structure Call (α : Type*) where
  input : Option (List α)
  output : Option Nat

variable {σ α : Type*} (m : Rnnoise σ α)

/-- One frame, in the scale of the binary and back. -/
def denoise (st : σ) (frame : List α) : σ × List α :=
  let out := m.processFrame st (frame.map m.scale)
  (out.1, out.2.map m.unscale)

def process (p : Processor σ α) (call : Call α) : Processor σ α × Output α :=
  match call.output with
  | none => (p, .absent)
  | some n =>
    match call.input.getD [], p.w with
    | [], _ => (p, .silence n)
    | input, none => (p, .passed (input.take n))
    | input, some st =>
      -- drain every complete frame
      let drained := drain FRAME (denoise m) st (p.input ++ input)
      let output := p.output ++ drained.2.1
      if n ≤ output.length then
        (⟨some drained.1, drained.2.2, output.drop n⟩, .denoised (output.take n))
      else (⟨some drained.1, drained.2.2, output⟩, .silence n)

/-- The calls of a recording, one after the other. -/
def processAll (p : Processor σ α) : List (Call α) → Processor σ α × List (Output α)
  | [] => (p, [])
  | call :: calls =>
    let first := process m p call
    let rest := processAll first.1 calls
    (rest.1, first.2 :: rest.2)

/-- The samples that reach the denoiser. -/
def fed (calls : List (Call α)) : List α :=
  calls.flatMap fun call => if call.output.isSome then call.input.getD [] else []

/-- The denoised samples that are heard. -/
def heard (outs : List (Output α)) : List α := outs.flatMap Output.audio

variable {m} {p p' : Processor σ α} {call : Call α} {calls calls' : List (Call α)}
  {outs : List (Output α)} {st st₀ : σ} {past : List α} {n t : Nat}

lemma frame_pos : 0 < FRAME := by decide

lemma length_denoise (st : σ) (frame : List α) (h : frame.length = FRAME) :
    (denoise m st frame).2.length = FRAME := by
  rw [denoise, List.length_map]
  exact m.length_frame st _ ((List.length_map _).trans h)

/-- A quantum that reaches the denoiser. -/
lemma process_live {st' : σ} {frames rest : List α} (hw : p.w = some st)
    (hinput : call.input.getD [] ≠ []) (houtput : call.output = some n)
    (hdrain : drain FRAME (denoise m) st (p.input ++ call.input.getD []) = (st', frames, rest)) :
    process m p call =
      if n ≤ (p.output ++ frames).length then
        (⟨some st', rest, (p.output ++ frames).drop n⟩, .denoised ((p.output ++ frames).take n))
      else (⟨some st', rest, p.output ++ frames⟩, .silence n) := by
  rw [process, houtput]
  simp only [hw]
  cases hsamples : call.input.getD [] with
  | nil => exact absurd hsamples hinput
  | cons x input =>
    rw [hsamples] at hdrain
    simp only [hdrain]

/-! ## The stream -/

/-- The denoiser has taken up `past` and `played` is what was heard of it. -/
def Denoises (m : Rnnoise σ α) (st₀ : σ) (past played : List α) (p : Processor σ α) : Prop :=
  ∃ st, p.w = some st ∧
    drain FRAME (denoise m) st₀ past = (st, played ++ p.output, p.input)

lemma Denoises.process {played : List α} (h : Denoises m st₀ past played p) (call : Call α) :
    Denoises m st₀ (past ++ fed [call]) (played ++ (process m p call).2.audio)
      (process m p call).1 := by
  obtain ⟨st, hw, hdrain⟩ := h
  rw [fed, List.flatMap_singleton]
  cases houtput : call.output with
  | none =>
    rw [Denoiser.process, houtput]
    exact ⟨st, hw, by simpa [Output.audio] using hdrain⟩
  | some n =>
    rw [Option.isSome_some, if_pos rfl]
    by_cases hinput : call.input.getD [] = []
    · rw [Denoiser.process, houtput, hinput]
      exact ⟨st, hw, by simpa [Output.audio] using hdrain⟩
    · have hnext := Drain.append (f := denoise m) frame_pos st₀ past (call.input.getD [])
      rw [hdrain] at hnext
      rw [process_live hw hinput houtput rfl]
      split_ifs with hn
      · refine ⟨_, rfl, hnext.trans ?_⟩
        simp only [Output.audio, List.append_assoc, List.take_append_drop]
      · refine ⟨_, rfl, hnext.trans ?_⟩
        simp only [Output.audio, List.append_assoc, List.append_nil]

lemma Denoises.processAll {played : List α} (h : Denoises m st₀ past played p)
    (calls : List (Call α)) :
    Denoises m st₀ (past ++ fed calls) (played ++ heard (processAll m p calls).2)
      (processAll m p calls).1 := by
  induction calls generalizing p past played with
  | nil => simpa [fed, heard, Denoiser.processAll] using h
  | cons call calls ih =>
    have hrest := ih (h.process call)
    simpa [fed, heard, Denoiser.processAll] using hrest

/-- **Nothing is lost, repeated or reordered**, however the quanta are cut: what was heard, what
waits to be heard and the frame that is not complete yet are what RNNoise makes of all that the
microphone brought. -/
theorem denoised_stream (m : Rnnoise σ α) (st : σ) (calls : List (Call α)) :
    ∃ st', (processAll m ⟨some st, [], []⟩ calls).1.w = some st' ∧
      drain FRAME (denoise m) st (fed calls) =
        (st', heard (processAll m ⟨some st, [], []⟩ calls).2 ++
          (processAll m ⟨some st, [], []⟩ calls).1.output,
          (processAll m ⟨some st, [], []⟩ calls).1.input) := by
  have hstart : Denoises m st [] [] (⟨some st, [], []⟩ : Processor σ α) :=
    ⟨st, rfl, Drain.of_short frame_pos⟩
  exact hstart.processAll calls

/-! ## Quanta of one size -/

/-- Every call brings a quantum of `n` samples and takes one. -/
def Quanta (n : Nat) (calls : List (Call α)) : Prop :=
  ∀ call ∈ calls, (call.input.getD []).length = n ∧ call.output = some n

/-- How many of the first `t` quanta are silent. -/
def silences (n : Nat) : Nat → Nat
  | 0 => 0
  | t + 1 => silences n t + if n * silences n t < n * (t + 1) % FRAME then 1 else 0

/-- After `t` quanta, of which `s` were silent, the samples of as many quanta wait. -/
structure Lag (n t s : Nat) (p : Processor σ α) : Prop where
  ready : p.w.isSome = true
  input : p.input.length = n * t % FRAME
  total : p.input.length + p.output.length = n * s

lemma Lag.process {s : Nat} (h : Lag n t s p) (hn : 0 < n)
    (hinput : (call.input.getD []).length = n) (houtput : call.output = some n) :
    (n * s < n * (t + 1) % FRAME → (process m p call).2 = .silence n ∧
      Lag n (t + 1) (s + 1) (process m p call).1) ∧
    (¬ n * s < n * (t + 1) % FRAME → (∃ l, l.length = n ∧ (process m p call).2 = .denoised l) ∧
      Lag n (t + 1) s (process m p call).1) := by
  obtain ⟨st, hw⟩ := Option.isSome_iff_exists.mp h.ready
  obtain ⟨⟨st', frames, rest⟩, hdrain⟩ : ∃ drained, drained =
    drain FRAME (denoise m) st (p.input ++ call.input.getD []) := ⟨_, rfl⟩
  have hrest := Drain.length_rest (f := denoise m) frame_pos st (p.input ++ call.input.getD [])
  have hall := Drain.length_drain (f := denoise m) frame_pos length_denoise st
    (p.input ++ call.input.getD [])
  have hmod : (p.input.length + n) % FRAME = n * (t + 1) % FRAME := by
    rw [h.input, Nat.mod_add_mod, Nat.mul_succ]
  rw [← hdrain, List.length_append, hinput] at hrest hall
  rw [hmod] at hrest
  simp only at hrest hall
  have hsome : call.input.getD [] ≠ [] := List.ne_nil_of_length_pos (hinput ▸ hn)
  have htotal := h.total
  have hsucc : n * (s + 1) = n * s + n := Nat.mul_succ n s
  rw [process_live hw hsome houtput hdrain.symm]
  -- the quantum is silent exactly when more waits for its frame than is ready before it
  split_ifs with hfull
  · rw [List.length_append] at hfull
    refine ⟨fun hsilent => ?_, fun _ => ⟨⟨_, List.length_take_of_le ?_, rfl⟩, rfl, hrest, ?_⟩⟩
    · omega
    · rwa [List.length_append]
    · show rest.length + ((p.output ++ frames).drop n).length = n * s
      rw [List.length_drop, List.length_append]
      omega
  · rw [List.length_append] at hfull
    refine ⟨fun _ => ⟨rfl, rfl, hrest, ?_⟩, fun hloud => ?_⟩
    · show rest.length + (p.output ++ frames).length = n * (s + 1)
      rw [List.length_append]
      omega
    · omega

lemma processAll_append (p : Processor σ α) (calls calls' : List (Call α)) :
    processAll m p (calls ++ calls') =
      ((processAll m (processAll m p calls).1 calls').1,
        (processAll m p calls).2 ++ (processAll m (processAll m p calls).1 calls').2) := by
  induction calls generalizing p with
  | nil => rfl
  | cons call calls ih =>
    rw [List.cons_append, Denoiser.processAll, Denoiser.processAll, ih]
    rfl

lemma length_processAll (p : Processor σ α) (calls : List (Call α)) :
    (processAll m p calls).2.length = calls.length := by
  induction calls generalizing p with
  | nil => rfl
  | cons call calls ih => rw [Denoiser.processAll, List.length_cons, ih, List.length_cons]

/-- What waits after any number of quanta, and how much was heard by then. -/
lemma lag_processAll (hn : 0 < n) (h : Quanta n calls) (st : σ) :
    Lag n calls.length (silences n calls.length) (processAll m ⟨some st, [], []⟩ calls).1 ∧
      (heard (processAll m ⟨some st, [], []⟩ calls).2).length + n * silences n calls.length =
        n * calls.length := by
  induction calls using List.reverseRecOn with
  | nil => exact ⟨⟨rfl, rfl, rfl⟩, rfl⟩
  | append_singleton calls call ih =>
    obtain ⟨hlag, hheard⟩ := ih fun c hc => h c (List.mem_append_left _ hc)
    obtain ⟨hinput, houtput⟩ := h call (List.mem_append_right _ List.mem_cons_self)
    obtain ⟨hsilent, hloud⟩ := hlag.process (m := m) hn hinput houtput
    rw [processAll_append, List.length_append, List.length_singleton, silences]
    simp only [Denoiser.processAll, heard, List.flatMap_append, List.flatMap_singleton,
      List.length_append] at hheard ⊢
    split_ifs with hs
    · obtain ⟨hout, hlag'⟩ := hsilent hs
      refine ⟨hlag', ?_⟩
      rw [hout, Nat.mul_succ, Nat.mul_succ]
      simp only [Output.audio, List.length_nil]
      omega
    · obtain ⟨⟨l, hl, hout⟩, hlag'⟩ := hloud hs
      refine ⟨hlag', ?_⟩
      rw [hout, Nat.mul_succ]
      simp only [Output.audio, hl, Nat.add_zero]
      omega

/-- A quantum is silent only while fewer samples wait than fill a frame. -/
lemma mul_silences_lt (n t : Nat) : n * silences n t < FRAME + n := by
  induction t with
  | zero => exact Nat.add_pos_left frame_pos n
  | succ t ih =>
    rw [silences]
    split_ifs with hs
    · have hlt := Nat.mod_lt (n * (t + 1)) frame_pos
      rw [Nat.mul_succ]
      omega
    · exact ih

/-- **What is heard in quantum `t`.**  With quanta of one size it is the denoised sound, later by
the quanta that were silent before it, or silence; and all the silence there ever is is shorter
than a frame and a quantum. -/
theorem quantum_heard (m : Rnnoise σ α) (st : σ) (hn : 0 < n) (h : Quanta n calls)
    (ht : t < calls.length) :
    (processAll m ⟨some st, [], []⟩ calls).2[t]? =
      some (if n * silences n t < n * (t + 1) % FRAME then .silence n
        else .denoised (((drain FRAME (denoise m) st (fed calls)).2.1.drop
          (n * (t - silences n t))).take n)) ∧
      n * silences n calls.length < FRAME + n := by
  refine ⟨?_, mul_silences_lt n _⟩
  obtain ⟨call, before, after, hcalls, hbefore⟩ : ∃ call before after,
      calls = before ++ call :: after ∧ before.length = t := by
    refine ⟨calls[t], calls.take t, calls.drop (t + 1), ?_, List.length_take_of_le ht.le⟩
    rw [← List.drop_eq_getElem_cons ht, List.take_append_drop]
  obtain ⟨st', -, hstream⟩ := denoised_stream m st calls
  subst hcalls hbefore
  obtain ⟨hlag, hheard⟩ := lag_processAll hn (fun c hc => h c (List.mem_append_left _ hc)) (m := m) st
  obtain ⟨hinput, houtput⟩ := h call (List.mem_append_right _ List.mem_cons_self)
  obtain ⟨hsilent, hloud⟩ := hlag.process (m := m) hn hinput houtput
  rw [hstream, processAll_append, Denoiser.processAll]
  rw [List.getElem?_append_right (length_processAll _ _).le, length_processAll, Nat.sub_self,
    List.getElem?_cons_zero, Option.some_inj]
  split_ifs with hs
  · exact (hsilent hs).1
  · obtain ⟨⟨l, hl, hout⟩, -⟩ := hloud hs
    have hlate : (heard (Denoiser.processAll m ⟨some st, [], []⟩ before).2).length =
        n * (before.length - silences n before.length) := by
      rw [Nat.mul_sub]
      omega
    rw [hout]
    simp only [heard, List.flatMap_append, List.flatMap_cons, Output.audio,
      List.append_assoc] at hlate ⊢
    rw [← hlate, List.drop_left, ← hl, List.take_left]

/-- A denoiser that finds no noise. -/
def quiet : Rnnoise Unit Int := ⟨fun st frame => (st, frame), fun _ _ h => h, id, id⟩

/-- Nobody speaks. -/
def mute : List (Call Int) := List.replicate 8 ⟨some (List.replicate 128 0), some 128⟩

lemma quanta_mute : Quanta 128 mute := by
  intro call hcall
  rw [List.eq_of_mem_replicate hcall]
  exact ⟨List.length_replicate, rfl⟩

theorem quantum_heard_mute :
    (processAll quiet ⟨some (), [], []⟩ mute).2[6]? = some (.silence 128) := by
  have h := (quantum_heard quiet () (t := 6) (by decide) quanta_mute (by decide)).1
  rw [if_pos (by decide)] at h
  exact h

lemma silences_browser (t : Nat) : silences 128 (t + 7) = 4 := by
  induction t with
  | zero => decide
  | succ t ih =>
    rw [Nat.add_right_comm, silences, ih, if_neg]
    have hlt := Nat.mod_lt (128 * (t + 7 + 1)) frame_pos
    rw [FRAME] at hlt ⊢
    omega

lemma silent_browser (t : Nat) : 128 * silences 128 t < 128 * (t + 1) % FRAME ↔
    t = 0 ∨ t = 1 ∨ t = 2 ∨ t = 6 := by
  rcases Nat.lt_or_ge t 7 with hlt | hge
  · interval_cases t <;> decide
  · obtain ⟨k, rfl⟩ := Nat.exists_eq_add_of_le' hge
    have hlt := Nat.mod_lt (128 * (k + 7 + 1)) frame_pos
    rw [silences_browser]
    rw [FRAME] at hlt ⊢
    omega

/-- **What the browsers hear.**  A browser takes 128 samples at a time.  The first three quanta are
silent, and so is the seventh, when the sound has begun already; from then on the denoised sound is
heard, four quanta late. -/
theorem browser_heard (m : Rnnoise σ α) (st : σ) (h : Quanta 128 calls) (ht : t < calls.length) :
    ((processAll m ⟨some st, [], []⟩ calls).2[t]? = some (.silence 128) ↔
      t = 0 ∨ t = 1 ∨ t = 2 ∨ t = 6) ∧
    (7 ≤ t → (processAll m ⟨some st, [], []⟩ calls).2[t]? =
      some (.denoised (((drain FRAME (denoise m) st (fed calls)).2.1.drop
        (128 * (t - 4))).take 128))) := by
  have hheard := (quantum_heard m st (by decide) h ht).1
  rw [hheard, ← silent_browser t]
  constructor
  · split_ifs with hs
    · exact iff_of_true rfl hs
    · exact iff_of_false (by simp) hs
  · intro hge
    obtain ⟨k, rfl⟩ := Nat.exists_eq_add_of_le' hge
    have hloud : ¬ 128 * silences 128 (k + 7) < 128 * (k + 7 + 1) % FRAME := by
      rw [silent_browser]
      omega
    rw [if_neg hloud, silences_browser]

theorem browser_heard_mute :
    (processAll quiet ⟨some (), [], []⟩ mute).2[6]? = some (.silence 128) :=
  (browser_heard quiet () quanta_mute (by decide)).1.mpr (.inr (.inr (.inr rfl)))

end VoxTranslate.Client.Denoiser
