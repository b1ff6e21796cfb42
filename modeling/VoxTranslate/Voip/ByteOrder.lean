import Mathlib.Data.List.Induction
import VoxTranslate.Voip.Codec

/-!
# The byte order of a leg

The detector adds up how rough the payloads of a leg are in either byte order and decides for the
reading that is smoother by half.  The two readings are treated alike, although the totals of a
window that decided nothing are halved and one test is made before the other: after five payloads
with evidence the totals are never both zero, so that the tests never both pass.
-/

namespace VoxTranslate.Voip

/-! ## Evidence -/

/-- What the two readings of the swapped payload say. -/
def L16ByteOrderEvidence.swap (ev : L16ByteOrderEvidence) : L16ByteOrderEvidence := ⟨ev.le, ev.be⟩

/-- The samples of a payload never change. -/
def Unchanging (wire : List UInt8) : Prop := (fromBeBytes wire).Pairwise (· = ·)

/-- Fewer than two bytes carry no evidence. -/
lemma evidenceFrom_rest (prev : Option (Int × Int)) {rest : List UInt8}
    (hrest : ∀ a b tail, rest = a :: b :: tail → False) : evidenceFrom prev rest = ⟨0, 0⟩ := by
  match rest, hrest with
  | [], _ => rfl
  | [a], _ => rfl
  | a :: b :: tail, hrest => exact (hrest a b tail rfl).elim

lemma evidenceFrom_swap (prev : Option (Int × Int)) (wire : List UInt8) :
    evidenceFrom (prev.map Prod.swap) (swapBytePairs wire) = (evidenceFrom prev wire).swap := by
  induction wire using swapBytePairs.induct generalizing prev with
  | case1 a b rest ih =>
    have hrest := ih (some (i16OfBytes a b, i16OfBytes b a))
    cases prev with
    | none => exact hrest
    | some readings =>
      simp only [Option.map_some, Prod.swap_prod_mk] at hrest
      simp only [Option.map_some, swapBytePairs, evidenceFrom, hrest, L16ByteOrderEvidence.swap]
      rfl
  | case2 rest hrest =>
    have hswap : swapBytePairs rest = rest := by
      rw [swapBytePairs.eq_def]
      split
      · exact (hrest _ _ _ rfl).elim
      · rfl
    rw [hswap, evidenceFrom_rest _ hrest, evidenceFrom_rest _ hrest]
    rfl

lemma i16OfBytes_bounds (hi lo : UInt8) :
    -32768 ≤ i16OfBytes hi lo ∧ i16OfBytes hi lo ≤ 32767 := by
  have hhi := hi.toNat_lt
  have hlo := lo.toNat_lt
  simp only [i16OfBytes, i16Max]
  split_ifs <;> omega

lemma i16OfBytes_inj {a b c d : UInt8} (h : i16OfBytes a b = i16OfBytes c d) : a = c ∧ b = d := by
  have ha := a.toNat_lt
  have hb := b.toNat_lt
  have hc := c.toNat_lt
  have hd := d.toNat_lt
  simp only [i16OfBytes, i16Max] at h
  constructor
  · refine UInt8.toNat_inj.mp ?_
    split_ifs at h <;> omega
  · refine UInt8.toNat_inj.mp ?_
    split_ifs at h <;> omega

/-- No difference exceeds `65535`, and there are fewer of them than pairs of bytes. -/
lemma evidenceFrom_le (prev : Option (UInt8 × UInt8)) (wire : List UInt8) :
    let ev := evidenceFrom (prev.map fun (a, b) => (i16OfBytes a b, i16OfBytes b a)) wire
    ev.be ≤ 32768 * wire.length ∧ ev.le ≤ 32768 * wire.length := by
  induction wire using swapBytePairs.induct generalizing prev with
  | case1 a b rest ih =>
    obtain ⟨hbe, hle⟩ := ih (some (a, b))
    have hab := i16OfBytes_bounds a b
    have hba := i16OfBytes_bounds b a
    simp only [List.length_cons]
    cases prev with
    | none =>
      refine ⟨hbe.trans ?_, hle.trans ?_⟩ <;> omega
    | some pair =>
      obtain ⟨c, d⟩ := pair
      have hcd := i16OfBytes_bounds c d
      have hdc := i16OfBytes_bounds d c
      simp only [Option.map_some, evidenceFrom] at hbe hle ⊢
      constructor <;> omega
  | case2 rest hrest =>
    rw [evidenceFrom_rest _ hrest]
    exact ⟨Nat.zero_le _, Nat.zero_le _⟩

/-- A payload whose samples never change carries no evidence. -/
lemma evidenceFrom_unchanging (prev : Option (UInt8 × UInt8)) {wire : List UInt8}
    (hwire : Unchanging wire)
    (hprev : ∀ a b, prev = some (a, b) → ∀ x ∈ fromBeBytes wire, x = i16OfBytes a b) :
    evidenceFrom (prev.map fun (a, b) => (i16OfBytes a b, i16OfBytes b a)) wire = ⟨0, 0⟩ := by
  induction wire using swapBytePairs.induct generalizing prev with
  | case1 a b rest ih =>
    rw [Unchanging, fromBeBytes, List.pairwise_cons] at hwire
    obtain ⟨hsame, hrest⟩ := hwire
    have hev := ih (some (a, b)) hrest fun c d hcd x hx => by
      cases hcd
      exact (hsame x hx).symm
    cases prev with
    | none => exact hev
    | some pair =>
      obtain ⟨c, d⟩ := pair
      have hfirst := hprev c d rfl (i16OfBytes a b) List.mem_cons_self
      obtain ⟨rfl, rfl⟩ := i16OfBytes_inj hfirst
      simp only [Option.map_some] at hev
      simp only [Option.map_some, evidenceFrom, hev]
      simp
  | case2 rest hrest => exact evidenceFrom_rest _ hrest

/-! ## Payloads -/

/-- Far more than a message of the media socket holds, which is 64 MiB; up to this size the totals
stay within a `u64`. -/
def maxPayloadBytes : Nat := 2 ^ 41

/-- A payload that the socket can deliver. -/
structure WirePayload where
  bytes : List UInt8
  receivable : bytes.length ≤ maxPayloadBytes

namespace WirePayload

lemma swap_receivable (wire : WirePayload) :
    (swapBytePairs wire.bytes).length ≤ maxPayloadBytes := by
  rw [length_swapBytePairs]
  exact wire.receivable

/-- The payload with the bytes of every sample swapped. -/
def swap (wire : WirePayload) : WirePayload := ⟨swapBytePairs wire.bytes, wire.swap_receivable⟩

lemma twoSamples_receivable (a b c d : UInt8) : [a, b, c, d].length ≤ maxPayloadBytes :=
  (by decide : 4 ≤ maxPayloadBytes)

/-- A payload of four bytes. -/
def twoSamples (a b c d : UInt8) : WirePayload := ⟨[a, b, c, d], twoSamples_receivable a b c d⟩

/-- The most evidence of one payload. -/
def maxEvidence : Nat := 32768 * maxPayloadBytes

lemma evidence_le (wire : WirePayload) :
    (l16ByteOrderEvidence wire.bytes).be ≤ maxEvidence ∧
      (l16ByteOrderEvidence wire.bytes).le ≤ maxEvidence := by
  obtain ⟨hbe, hle⟩ := evidenceFrom_le none wire.bytes
  have hlength := Nat.mul_le_mul_left 32768 wire.receivable
  exact ⟨hbe.trans hlength, hle.trans hlength⟩

end WirePayload

lemma evidence_swap (wire : List UInt8) :
    l16ByteOrderEvidence (swapBytePairs wire) = (l16ByteOrderEvidence wire).swap :=
  evidenceFrom_swap none wire

lemma evidence_unchanging {wire : List UInt8} (hwire : Unchanging wire) :
    l16ByteOrderEvidence wire = ⟨0, 0⟩ :=
  evidenceFrom_unchanging none hwire fun _ _ h => by cases h

/-! ## The detector -/

/-- The opposite decision. -/
def ByteOrder.opposite : ByteOrder → ByteOrder
  | .undetermined => .undetermined
  | .decided littleEndian => .decided !littleEndian

namespace ByteOrderDetector

/-- The detector of a leg after some payloads. -/
def fed (wires : List WirePayload) : ByteOrderDetector :=
  wires.foldl (fun d wire => d.observe wire.bytes) .new

/-- The decision tests run, on the totals as they are. -/
def tests (d : ByteOrderDetector) : Prop := byteOrderMinEvidenceFrames ≤ d.evidenceFrames

/-- The test for little-endian, which is made first, and the test for big-endian. -/
def passes (d : ByteOrderDetector) : Bool → Prop
  | true => min (d.leTotal * byteOrderDecisiveRatio) u64Max ≤ d.beTotal
  | false => min (d.beTotal * byteOrderDecisiveRatio) u64Max ≤ d.leTotal

/-- The detector that was fed the swapped payloads. -/
def swap (d : ByteOrderDetector) : ByteOrderDetector :=
  { d with state := d.state.opposite, beTotal := d.leTotal, leTotal := d.beTotal }

/-- What the tests are made on: the totals of an undecided detector. -/
structure Counted (d : ByteOrderDetector) : Prop where
  undetermined : d.state = .undetermined
  window : d.windowEvidenceFrames ≤ byteOrderInconclusiveWindow
  evidence : d.windowEvidenceFrames ≤ d.beTotal + d.leTotal
  nonzero : 0 < d.evidenceFrames → 0 < d.beTotal + d.leTotal
  be_le : d.beTotal ≤
    WirePayload.maxEvidence * (byteOrderInconclusiveWindow + d.windowEvidenceFrames)
  le_le : d.leTotal ≤
    WirePayload.maxEvidence * (byteOrderInconclusiveWindow + d.windowEvidenceFrames)

/-- An undecided detector between two payloads: the tests failed on its totals, unless these were
halved after the last payload with evidence. -/
structure Measuring (d : ByteOrderDetector) : Prop extends Counted d where
  window_lt : d.windowEvidenceFrames < byteOrderInconclusiveWindow
  failed : d.tests → d.windowEvidenceFrames ≠ 0 → ∀ b, ¬ d.passes b

variable {d : ByteOrderDetector} {wires : List WirePayload}

lemma measuring_new : Measuring new := by
  refine ⟨⟨rfl, ?_, ?_, ?_, ?_, ?_⟩, ?_, ?_⟩
  all_goals simp [new, byteOrderInconclusiveWindow]

/-- **Counting** keeps the bounds. -/
lemma Measuring.count (h : Measuring d) (wire : WirePayload) :
    Counted (d.count (l16ByteOrderEvidence wire.bytes)) := by
  obtain ⟨⟨hstate, -, hevidence, hnonzero, hbe, hle⟩, hwindow, -⟩ := h
  obtain ⟨hevbe, hevle⟩ := wire.evidence_le
  rw [ByteOrderDetector.count]
  split_ifs with hev
  · refine ⟨hstate, hwindow, ?_, ?_, ?_, ?_⟩
    · dsimp only
      omega
    · dsimp only
      omega
    · dsimp only
      rw [← Nat.add_assoc, Nat.mul_succ]
      omega
    · dsimp only
      rw [← Nat.add_assoc, Nat.mul_succ]
      omega
  · exact ⟨hstate, hwindow.le, hevidence, hnonzero, hbe, hle⟩

/-- The tests never both pass: the totals are not both zero, and twice a total fits in a `u64`. -/
lemma Counted.not_both (h : Counted d) (htests : d.tests) :
    ¬ (d.passes true ∧ d.passes false) := by
  obtain ⟨-, hwindow, -, hnonzero, hbe, hle⟩ := h
  have hpos : 0 < d.beTotal + d.leTotal := hnonzero (Nat.lt_of_lt_of_le (by decide) htests)
  have hbound : WirePayload.maxEvidence * (byteOrderInconclusiveWindow + d.windowEvidenceFrames) ≤
      WirePayload.maxEvidence * (byteOrderInconclusiveWindow + byteOrderInconclusiveWindow) :=
    Nat.mul_le_mul_left _ (Nat.add_le_add_left hwindow _)
  have hfits : WirePayload.maxEvidence *
      (byteOrderInconclusiveWindow + byteOrderInconclusiveWindow) * 2 ≤ u64Max := by decide
  rintro ⟨htrue, hfalse⟩
  simp only [passes, byteOrderDecisiveRatio] at htrue hfalse
  omega

/-- What happens to an undecided detector. -/
lemma observe_cases (hstate : d.state = .undetermined) (wire : List UInt8) :
    let c := d.count (l16ByteOrderEvidence wire)
    (c.tests ∧ c.passes true ∧ d.observe wire = { c with state := .decided true }) ∨
      (c.tests ∧ ¬ c.passes true ∧ c.passes false ∧
        d.observe wire = { c with state := .decided false }) ∨
      ((c.tests → ∀ b, ¬ c.passes b) ∧ d.observe wire = c.halve) := by
  rw [observe, if_neg (by simp [hstate])]
  dsimp only
  split_ifs with htrue hfalse
  · exact .inl ⟨htrue.1, htrue.2, rfl⟩
  · exact .inr (.inl ⟨hfalse.1, fun h => htrue ⟨hfalse.1, h⟩, hfalse.2, rfl⟩)
  · refine .inr (.inr ⟨fun htests b => ?_, rfl⟩)
    cases b with
    | true => exact fun h => htrue ⟨htests, h⟩
    | false => exact fun h => hfalse ⟨htests, h⟩

/-- **Halving** a full window leaves totals that are not both zero. -/
lemma Counted.halve (h : Counted d) (hfailed : d.tests → ∀ b, ¬ d.passes b) :
    Measuring d.halve := by
  obtain ⟨hstate, hwindow, hevidence, hnonzero, hbe, hle⟩ := h
  rw [ByteOrderDetector.halve]
  split_ifs with hfull
  · rw [Nat.le_antisymm hwindow hfull] at hbe hle hevidence
    have hfifty : byteOrderInconclusiveWindow = 50 := rfl
    rw [Nat.mul_add] at hbe hle
    refine ⟨⟨hstate, Nat.zero_le _, Nat.zero_le _, ?_, ?_, ?_⟩,
      (by decide : 0 < byteOrderInconclusiveWindow), ?_⟩
    · dsimp only
      omega
    · dsimp only
      rw [Nat.add_zero]
      omega
    · dsimp only
      rw [Nat.add_zero]
      omega
    · exact fun _ hzero => absurd rfl hzero
  · exact ⟨⟨hstate, hwindow, hevidence, hnonzero, hbe, hle⟩, Nat.lt_of_not_le hfull,
      fun htests _ => hfailed htests⟩

lemma observe_decided {b : Bool} (hstate : d.state = .decided b) (wire : List UInt8) :
    d.observe wire = d := by
  rw [observe, if_pos (by simp [hstate])]

/-- A detector that was fed some payloads. -/
inductive Reached (d : ByteOrderDetector) : Prop
  | measuring (h : Measuring d)
  | decided (b : Bool) (h : d.state = .decided b)

/-- **One payload.** -/
lemma Measuring.observe (h : Measuring d) (wire : WirePayload) :
    Measuring (d.observe wire.bytes) ∨ ∃ b, (d.observe wire.bytes).state = .decided b := by
  rcases observe_cases h.undetermined wire.bytes with ⟨-, -, heq⟩ | ⟨-, -, -, heq⟩ | ⟨hfailed, heq⟩
  · exact .inr ⟨true, by rw [heq]⟩
  · exact .inr ⟨false, by rw [heq]⟩
  · rw [heq]
    exact .inl ((h.count wire).halve hfailed)

lemma observe_append (wires : List WirePayload) (wire : WirePayload) :
    fed (wires ++ [wire]) = (fed wires).observe wire.bytes := by
  rw [fed, List.foldl_append]
  rfl

lemma reached_fed (wires : List WirePayload) : Reached (fed wires) := by
  induction wires using List.reverseRecOn with
  | nil => exact .measuring measuring_new
  | append_singleton wires wire ih =>
    rw [observe_append]
    cases ih with
    | measuring h =>
      rcases h.observe wire with h | ⟨b, h⟩
      · exact .measuring h
      · exact .decided b h
    | decided b h => exact .decided b (by rw [observe_decided h, h])

lemma measuring_of_undetermined (h : (fed wires).state = .undetermined) :
    Measuring (fed wires) := by
  cases reached_fed wires with
  | measuring hmeasuring => exact hmeasuring
  | decided b hdecided =>
    rw [h] at hdecided
    cases hdecided

/-! ## The other reading -/

lemma swap_tests : d.swap.tests ↔ d.tests := Iff.rfl

lemma swap_passes (b : Bool) : d.swap.passes b ↔ d.passes !b := by
  cases b <;> exact Iff.rfl

lemma swap_count (ev : L16ByteOrderEvidence) : d.swap.count ev.swap = (d.count ev).swap := by
  simp only [count, L16ByteOrderEvidence.swap, or_comm (a := ev.le ≠ 0)]
  split_ifs <;> rfl

lemma swap_halve : d.swap.halve = d.halve.swap := by
  by_cases hfull : byteOrderInconclusiveWindow ≤ d.windowEvidenceFrames
  · have hfull' : byteOrderInconclusiveWindow ≤ d.swap.windowEvidenceFrames := hfull
    rw [halve, halve, if_pos hfull, if_pos hfull']
    rfl
  · have hfull' : ¬ byteOrderInconclusiveWindow ≤ d.swap.windowEvidenceFrames := hfull
    rw [halve, halve, if_neg hfull, if_neg hfull']

/-- **Symmetry of one payload.** -/
lemma Measuring.observe_swap (h : Measuring d) (wire : WirePayload) :
    d.swap.observe wire.swap.bytes = (d.observe wire.bytes).swap := by
  have hcounted := h.count wire
  have hstate : d.swap.state = .undetermined := by
    simp [swap, h.undetermined, ByteOrder.opposite]
  have hcount : d.swap.count (l16ByteOrderEvidence wire.swap.bytes) =
      (d.count (l16ByteOrderEvidence wire.bytes)).swap := by
    rw [WirePayload.swap, evidence_swap, swap_count]
  have hplain := observe_cases h.undetermined wire.bytes
  have hswapped := observe_cases hstate wire.swap.bytes
  rw [hcount] at hswapped
  generalize d.count (l16ByteOrderEvidence wire.bytes) = c at hcounted hplain hswapped
  simp only [swap_tests, swap_passes, Bool.not_true, Bool.not_false] at hswapped
  rcases hplain with ⟨htests, htrue, heq⟩ | ⟨htests, htrue, hfalse, heq⟩ | ⟨hfailed, heq⟩
  · -- little-endian, so that the first test fails on the swapped totals
    rcases hswapped with ⟨-, hfalse, -⟩ | ⟨-, -, -, heq'⟩ | ⟨hfailed, -⟩
    · exact (hcounted.not_both htests ⟨htrue, hfalse⟩).elim
    · rw [heq, heq']
      rfl
    · exact (hfailed htests false ((swap_passes false).mpr htrue)).elim
  · rcases hswapped with ⟨-, -, heq'⟩ | ⟨-, hnot, -⟩ | ⟨hfailed, -⟩
    · rw [heq, heq']
      rfl
    · exact (hnot hfalse).elim
    · exact (hfailed htests true ((swap_passes true).mpr hfalse)).elim
  · rcases hswapped with ⟨htests, hfalse, -⟩ | ⟨htests, -, htrue, -⟩ | ⟨-, heq'⟩
    · exact (hfailed htests false hfalse).elim
    · exact (hfailed htests true htrue).elim
    · rw [heq, heq', swap_halve]

/-- **Symmetry.** -/
lemma fed_swap (wires : List WirePayload) :
    fed (wires.map WirePayload.swap) = (fed wires).swap := by
  induction wires using List.reverseRecOn with
  | nil => rfl
  | append_singleton wires wire ih =>
    rw [List.map_append, List.map_singleton, observe_append, observe_append, ih]
    cases reached_fed wires with
    | measuring h => exact h.observe_swap wire
    | decided b h =>
      have hswap : (fed wires).swap.state = .decided !b := by
        simp [swap, h, ByteOrder.opposite]
      rw [observe_decided h, observe_decided hswap]

lemma decided_append {b : Bool} (h : (fed wires).state = .decided b) (rest : List WirePayload) :
    fed (wires ++ rest) = fed wires := by
  induction rest using List.reverseRecOn with
  | nil => rw [List.append_nil]
  | append_singleton rest wire ih =>
    rw [← List.append_assoc, observe_append, ih, observe_decided h]

/-! ## Payloads without evidence -/

/-- A payload whose samples never change is only tested, on totals that it does not change. -/
lemma count_unchanging {wire : List UInt8} (hwire : Unchanging wire) :
    d.count (l16ByteOrderEvidence wire) = d := by
  rw [evidence_unchanging hwire, count]
  exact if_neg (by simp)

lemma Measuring.observe_unchanging (h : Measuring d) {wire : List UInt8} (hwire : Unchanging wire)
    (hquiet : d.windowEvidenceFrames ≠ 0 ∨ ¬ d.tests) : d.observe wire = d := by
  have hfailed : d.tests → ∀ b, ¬ d.passes b := by
    intro htests
    rcases hquiet with hwindow | hnot
    · exact h.failed htests hwindow
    · exact absurd htests hnot
  have hcases := observe_cases h.undetermined wire
  rw [count_unchanging hwire] at hcases
  rcases hcases with ⟨htests, htrue, -⟩ | ⟨htests, -, hfalse, -⟩ | ⟨-, heq⟩
  · exact (hfailed htests true htrue).elim
  · exact (hfailed htests false hfalse).elim
  · rw [heq, halve, if_neg (Nat.not_le.mpr h.window_lt)]

lemma fed_unchanging (h : ∀ wire ∈ wires, Unchanging wire.bytes) : fed wires = new := by
  induction wires using List.reverseRecOn with
  | nil => rfl
  | append_singleton wires wire ih =>
    have hbefore := ih fun w hw => h w (List.mem_append_left _ hw)
    rw [observe_append, hbefore]
    exact measuring_new.observe_unchanging (h wire (by simp)) (.inr (by simp [tests, new,
      byteOrderMinEvidenceFrames]))

/-- **Byte order.**  After any payloads, the detector that was fed the swapped ones has made the
opposite decision, or both have made none; a decision stays; payloads of which none ever changes
lead to none, and one that never changes is that on which a decision falls only where the totals
were halved after the last payload with evidence; the tests are never made on two zeros. -/
theorem byte_order_symmetric (wires : List WirePayload) :
    (fed (wires.map WirePayload.swap)).state = (fed wires).state.opposite ∧
      (∀ b rest, (fed wires).state = .decided b → (fed (wires ++ rest)).state = .decided b) ∧
      ((∀ wire ∈ wires, Unchanging wire.bytes) → (fed wires).state = .undetermined) ∧
      (∀ wire : WirePayload, (fed wires).state = .undetermined → Unchanging wire.bytes →
        (fed (wires ++ [wire])).state ≠ .undetermined →
          (fed wires).tests ∧ (fed wires).windowEvidenceFrames = 0) ∧
      ∀ wire : WirePayload, (fed wires).state = .undetermined →
        ((fed wires).count (l16ByteOrderEvidence wire.bytes)).tests →
          ¬ (((fed wires).count (l16ByteOrderEvidence wire.bytes)).beTotal = 0 ∧
            ((fed wires).count (l16ByteOrderEvidence wire.bytes)).leTotal = 0) := by
  refine ⟨by rw [fed_swap]; rfl, ?_, ?_, ?_, ?_⟩
  · intro b rest h
    rw [decided_append h, h]
  · intro h
    rw [fed_unchanging h]
    rfl
  · intro wire hstate hwire hdecided
    by_contra hquiet
    rw [not_and_or] at hquiet
    refine hdecided ?_
    rw [observe_append, (measuring_of_undetermined hstate).observe_unchanging hwire hquiet.symm]
    exact hstate
  · intro wire hstate htests
    have hcounted := (measuring_of_undetermined hstate).count wire
    have hpos := hcounted.nonzero (Nat.lt_of_lt_of_le (by decide) htests)
    omega

/-- Fifty payloads of one step each, whose readings differ by a factor of nearly two. -/
def nearlyDecided : List WirePayload :=
  .replicate 35 (.twoSamples 0 0 4 2) ++ .replicate 14 (.twoSamples 0 0 2 1) ++
    [.twoSamples 0 0 3 1]

/-- The totals `43861` and `21931` decide nothing; their halves do, on a payload of silence. -/
theorem silence_decides :
    (fed nearlyDecided).state = .undetermined ∧
      Unchanging (WirePayload.twoSamples 0 0 0 0).bytes ∧
      (fed (nearlyDecided ++ [.twoSamples 0 0 0 0])).state = .decided true := by
  refine ⟨by decide +kernel, ?_, by decide +kernel⟩
  simp [WirePayload.twoSamples, Unchanging, fromBeBytes]

end ByteOrderDetector

end VoxTranslate.Voip
