import VoxTranslate.Client.Speech
import VoxTranslate.Lib.Fair
import VoxTranslate.Lib.Place

/-!
# Stopping translated speech

`stop` clears the queue and silences what is audible.  It detaches the handler a playing line would
have resolved with, and does not reach a line that is still being loaded or synthesised: it is
clean only while the installed voice is not at work.
-/

namespace VoxTranslate.Client.Speech

open Lib

/-- The line a wait is about. -/
def Wait.line : Wait → Line
  | .load line | .synth line | .play line _ | .browser line _ => line

/-- What is called, what sounds, and nothing at all settle no wait. -/
def SpeechEvent.isAnswer : SpeechEvent → Bool
  | .loadSettled _ | .synthFailed | .synthesised _ _ | .sourceEnded _ | .utteranceSettled => true
  | _ => false

/-- The line of a wait may still start to be audible. -/
def Wait.mayStart : Wait → Bool
  | .load _ | .synth _ | .play _ _ | .browser _ .waiting => true
  | .browser _ _ => false

/-- How many answers a wait is away from the next line, at most. -/
def Wait.stage : Wait → Nat
  | .load _ => 4
  | .synth _ => 3
  | .play _ _ => 2
  | .browser _ _ => 1

namespace TTSManager

/-- The line that an event makes audible. -/
def startsToSound (s : TTSManager) : SpeechEvent → Option Line
  | .sourceSounds i => (s.playback.sources[i]?).map Source.line
  | .utteranceSounds => s.pump.map Wait.line
  | _ => none

/-- The pump waits for something that is answered: a load, a synthesis, the end of a source that
was not stopped, or the end of an utterance, which the browser reports also when it cancels one. -/
def pending (s : TTSManager) : Bool :=
  match s.pump with
  | none => false
  | some (.play _ i) => (s.playback.sources[i]?).any fun src => src.state ≠ .over
  | some _ => true

/-- The event is the answer the pump waits for. -/
def settles (s : TTSManager) (e : SpeechEvent) : Bool :=
  match s.pump, e with
  | some (.load _), .loadSettled _ => true
  | some (.synth _), .synthFailed => true
  | some (.synth _), .synthesised _ _ => true
  | some (.play _ i), .sourceEnded j => i = j
  | some (.browser _ _), .utteranceSettled => true
  | _, _ => false

/-- The line was handed to a provider, dropped by the cap, or cleared by a stop. -/
def Accounted (s : TTSManager) (id : Nat) : Prop := id ∈ s.handed ∨ id ∈ s.dropped ∨ id ∈ s.cleared

instance (s : TTSManager) (id : Nat) : Decidable (s.Accounted id) :=
  inferInstanceAs (Decidable (_ ∨ _ ∨ _))

/-- No stop comes while the installed voice loads, synthesises or plays a line. -/
def stopsClean (s : TTSManager) : SpeechEvent → Bool
  | .stop =>
    match s.pump with
    | none | some (.browser _ _) => true
    | _ => false
  | _ => true

end TTSManager

/-- Events that go on forever, from a manager that was not used. -/
structure Trace (c : Setup) where
  run : Nat → TTSManager
  acts : Nat → SpeechEvent
  start : run 0 = .new
  step : ∀ n, (run n).step c (acts n) = some (run (n + 1))

namespace Trace

variable {c : Setup}

/-- What the pump waits for is answered some day, unless the source it waits for is stopped. -/
def Fair (t : Trace c) : Prop :=
  ∀ n, (t.run n).pending = true →
    ∃ m, n ≤ m ∧ ((t.run m).settles (t.acts m) = true ∨ (t.run m).pending = false)

/-- After a stop no line queued before it starts to be audible, and every line queued after it is
handed to a provider some day, unless the cap drops it or a later stop clears it. -/
def Clean (t : Trace c) : Prop :=
  ∀ n, t.acts n = .stop →
    (∀ m line, n < m → (t.run m).startsToSound (t.acts m) = some line →
      (t.run n).queued ≤ line.id) ∧
    ∀ k id, n < k → (t.run n).queued ≤ id → id < (t.run k).queued → ∃ m, (t.run m).Accounted id

end Trace

/-- No source goes on. -/
def PlaybackService.Over (p : PlaybackService) : Prop :=
  ∀ (i : Nat) (src : Source), p.sources[i]? = some src → src.state = .over

namespace TTSManager

variable {c : Setup} {s t : TTSManager} {queue : List Line} {e : SpeechEvent} {id k : Nat}

/-- The lines that wait are in order, and every other line is accounted for. -/
structure Lines (s : TTSManager) (queue : List Line) : Prop where
  sorted : queue.Pairwise (·.id < ·.id)
  numbered : ∀ line ∈ queue, line.id < s.queued
  ledger : ∀ id < s.queued, s.Accounted id ∨ id ∈ queue.map Line.id

/-- The invariant: lines wait only while the pump runs, and a source goes on only for the line the
pump waits for. -/
structure Serial (s : TTSManager) : Prop where
  lines : s.Lines s.queue
  idle : s.pump = none → s.queue = []
  playing : ∀ line i, s.pump = some (.play line i) →
    ∃ src, s.playback.sources[i]? = some src ∧ src.handled = true ∧ src.state ≠ .over
  only : ∀ i src, s.playback.sources[i]? = some src → src.state ≠ .over →
    s.pump = some (.play src.line i)

/-- What may still start to be audible was queued from the line `k` on. -/
structure Since (k : Nat) (s : TTSManager) : Prop where
  count : k ≤ s.queued
  queue : ∀ line ∈ s.queue, k ≤ line.id
  waits : ∀ w, s.pump = some w → w.mayStart = true → k ≤ w.line.id

/-- The answers a waiting line is away from its turn, at most. -/
def ahead (id : Nat) (s : TTSManager) : Nat :=
  if id ∈ s.queue.map Line.id then
    5 * s.queue.countP (fun line => line.id ≤ id) + (s.pump.map Wait.stage).getD 0
  else 0

lemma ahead_pos (h : id ∈ s.queue.map Line.id) : 0 < ahead id s := by
  obtain ⟨line, hline, hid⟩ := List.mem_map.mp h
  have hpos : 0 < s.queue.countP (fun line => line.id ≤ id) :=
    List.countP_pos_iff.mpr ⟨line, hline, decide_eq_true hid.le⟩
  rw [ahead, if_pos h]
  omega

lemma settles_eq_false (h : e.isAnswer = false) : s.settles e = false := by
  rw [settles.eq_def]
  split
  all_goals first | rfl | cases h

/-! ## The loop of the pump -/

/-- What the loop of the pump does with a queue: it hands lines over until it waits for one. -/
structure Resumed (s : TTSManager) (queue : List Line) (t : TTSManager) : Prop where
  playback : t.playback = s.playback
  queued : t.queued = s.queued
  rest : t.queue <:+ queue
  taken : queue ≠ [] → t.queue.length < queue.length
  idle : t.pump = none → t.queue = []
  waits : ∀ w, t.pump = some w → w.line ∈ queue ∧ w.stage ≤ 4 ∧ ∀ line i, w ≠ .play line i
  accounted : ∀ id, s.Accounted id → t.Accounted id
  handed : ∀ line ∈ queue, t.Accounted line.id ∨ line ∈ t.queue

lemma pumpLoop_resumed (c : Setup) (queue : List Line) (s : TTSManager) :
    Resumed s queue (s.pumpLoop c queue) := by
  induction queue generalizing s with
  | nil =>
    exact ⟨rfl, rfl, List.suffix_refl _, fun h => absurd rfl h, fun _ => rfl, nofun, fun _ => id,
      nofun⟩
  | cons line queue ih =>
    have hhanded : ∀ u : TTSManager, u.handed = line.id :: s.handed → u.dropped = s.dropped →
        u.cleared = s.cleared → ∀ id, s.Accounted id ∨ id = line.id → u.Accounted id := by
      intro u hh hd hc id hid
      rw [Accounted, hh, hd, hc, List.mem_cons]
      rcases hid with (h | h | h) | h
      · exact .inl (.inr h)
      · exact .inr (.inl h)
      · exact .inr (.inr h)
      · exact .inl (.inl h)
    have hwait : ∀ (u : TTSManager) (w : Wait), u.handed = line.id :: s.handed →
        u.dropped = s.dropped → u.cleared = s.cleared → u.playback = s.playback →
        u.queued = s.queued → u.queue = queue → u.pump = some w → w.line = line → w.stage ≤ 4 →
        (∀ line i, w ≠ .play line i) → Resumed s (line :: queue) u := by
      intro u w hh hd hc hp hn hq hw hline hstage hplay
      have hacc := hhanded u hh hd hc
      refine ⟨hp, hn, hq ▸ List.suffix_cons line queue, fun _ => by simp [hq], fun h => ?_,
        fun w' hw' => ?_, fun id hid => hacc id (.inl hid), fun l hl => ?_⟩
      · cases hw.symm.trans h
      · cases hw.symm.trans hw'
        exact ⟨hline ▸ List.mem_cons_self, hstage, hplay⟩
      · rcases List.mem_cons.mp hl with rfl | hl
        · exact .inl (hacc _ (.inr rfl))
        · exact .inr (hq ▸ hl)
    rw [pumpLoop]
    dsimp only
    split
    · refine hwait _ _ rfl rfl rfl rfl rfl rfl rfl ?_ ?_ ?_
      · split_ifs <;> rfl
      · split_ifs <;> simp [Wait.stage]
      · split_ifs <;> nofun
    · split_ifs
      · exact hwait _ _ rfl rfl rfl rfl rfl rfl rfl rfl (by simp [Wait.stage]) nofun
      · -- the browser is done with the line at once
        have h := ih { s with handed := line.id :: s.handed }
        have hacc := hhanded { s with handed := line.id :: s.handed } rfl rfl rfl
        refine ⟨h.playback, h.queued, h.rest.trans (List.suffix_cons line queue), fun _ => ?_,
          h.idle, fun w hw => ?_, fun id hid => h.accounted id (hacc id (.inl hid)), fun l hl => ?_⟩
        · exact Nat.lt_succ_of_le h.rest.length_le
        · obtain ⟨hmem, hrest⟩ := h.waits w hw
          exact ⟨List.mem_cons_of_mem _ hmem, hrest⟩
        · rcases List.mem_cons.mp hl with rfl | hl
          · exact .inl (h.accounted _ (hacc _ (.inr rfl)))
          · exact h.handed l hl

variable {u : TTSManager}

lemma Resumed.lines (h : Resumed s queue t) (hlines : s.Lines queue) : t.Lines t.queue := by
  refine ⟨hlines.sorted.sublist h.rest.sublist, fun line hline => ?_, fun id hid => ?_⟩
  · rw [h.queued]
    exact hlines.numbered line (h.rest.mem hline)
  · rcases hlines.ledger id (h.queued ▸ hid) with hacc | hmem
    · exact .inl (h.accounted id hacc)
    · obtain ⟨line, hline, rfl⟩ := List.mem_map.mp hmem
      exact (h.handed line hline).imp id fun hrest => List.mem_map_of_mem hrest

lemma Resumed.serial (h : Resumed s queue t) (hlines : s.Lines queue)
    (hover : s.playback.Over) : t.Serial := by
  refine ⟨h.lines hlines, h.idle, fun line i hw => ?_, fun i src hsrc hstate => ?_⟩
  · exact absurd rfl ((h.waits _ hw).2.2 line i)
  · rw [h.playback] at hsrc
    exact absurd (hover i src hsrc) hstate

lemma Resumed.since (h : Resumed s queue t) (hcount : k ≤ s.queued)
    (hqueue : ∀ line ∈ queue, k ≤ line.id) : t.Since k := by
  refine ⟨h.queued ▸ hcount, fun line hline => hqueue line (h.rest.mem hline), fun w hw _ => ?_⟩
  exact hqueue w.line (h.waits w hw).1

/-- A line that still waits has come nearer to its turn. -/
lemma Resumed.ahead_le (h : Resumed s queue t) (hsorted : queue.Pairwise (·.id < ·.id)) :
    ahead id t ≤
      if id ∈ queue.map Line.id then 5 * queue.countP (fun line => line.id ≤ id) else 0 := by
  rw [ahead]
  split_ifs with hrest hqueue hqueue
  · obtain ⟨pre, hpre⟩ := h.rest
    obtain ⟨line, hline, hid⟩ := List.mem_map.mp hrest
    have hne : queue ≠ [] := by
      rintro rfl
      cases hqueue
    have hfirst : 0 < pre.countP (fun line => line.id ≤ id) := by
      have htaken := h.taken hne
      rw [← hpre, List.length_append] at htaken
      obtain ⟨first, hfirst⟩ := List.exists_mem_of_length_pos (show 0 < pre.length by omega)
      rw [← hpre] at hsorted
      have hlt := (List.pairwise_append.mp hsorted).2.2 first hfirst line hline
      exact List.countP_pos_iff.mpr ⟨first, hfirst, decide_eq_true (by omega)⟩
    have hstage : (t.pump.map Wait.stage).getD 0 ≤ 4 := by
      cases hw : t.pump with
      | none => exact Nat.zero_le _
      | some w => exact (h.waits w hw).2.1
    rw [← hpre, List.countP_append]
    omega
  · obtain ⟨line, hline, hid⟩ := List.mem_map.mp hrest
    exact absurd (List.mem_map.mpr ⟨line, h.rest.mem hline, hid⟩) hqueue
  · exact Nat.zero_le _
  · exact Nat.zero_le _

/-! ## One event -/

/-- What an event keeps, and how near it brings a line that waits. -/
structure Good (s : TTSManager) (e : SpeechEvent) (t : TTSManager) : Prop where
  serial : t.Serial
  counted : s.queued ≤ t.queued
  since : ∀ k, s.Since k → t.Since k
  le : ∀ id < s.queued, ahead id t ≤ ahead id s
  lt : s.settles e = true → ∀ id, 0 < ahead id s → ahead id t < ahead id s

/-- The queue and the record of its lines. -/
def lists (s : TTSManager) : List Line × Nat × List Nat × List Nat × List Nat :=
  (s.queue, s.queued, s.handed, s.dropped, s.cleared)

lemma lists_eq (h : t.lists = s.lists) : t.queue = s.queue ∧ t.queued = s.queued ∧
    ∀ id, t.Accounted id ↔ s.Accounted id := by
  simp only [lists, Prod.mk.injEq] at h
  obtain ⟨hqueue, hqueued, hhanded, hdropped, hcleared⟩ := h
  refine ⟨hqueue, hqueued, fun id => ?_⟩
  rw [Accounted, hhanded, hdropped, hcleared, Accounted]

lemma lines_of_lists (h : t.lists = s.lists) (hs : s.Lines queue) : t.Lines queue := by
  obtain ⟨-, hqueued, hacc⟩ := lists_eq h
  refine ⟨hs.sorted, fun line hline => hqueued ▸ hs.numbered line hline, fun id hid => ?_⟩
  rw [hacc]
  exact hs.ledger id (hqueued ▸ hid)

lemma ahead_eq (h : t.lists = s.lists) :
    ahead id t = if id ∈ s.queue.map Line.id then
      5 * s.queue.countP (fun line => line.id ≤ id) + (t.pump.map Wait.stage).getD 0 else 0 := by
  rw [ahead, (lists_eq h).1]

/-- The queue stays, and what the pump waits for moves on with its line. -/
lemma good_of_lists (hs : s.Serial) (hlists : t.lists = s.lists)
    (hidle : t.pump = none → s.pump = none)
    (hplaying : ∀ line i, t.pump = some (.play line i) →
      ∃ src, t.playback.sources[i]? = some src ∧ src.handled = true ∧ src.state ≠ .over)
    (honly : ∀ i src, t.playback.sources[i]? = some src → src.state ≠ .over →
      t.pump = some (.play src.line i))
    (hwaits : ∀ w', t.pump = some w' → w'.mayStart = true →
      ∃ w, s.pump = some w ∧ w.mayStart = true ∧ w'.line = w.line)
    (hle : (t.pump.map Wait.stage).getD 0 ≤ (s.pump.map Wait.stage).getD 0)
    (hlt : s.settles e = true →
      (t.pump.map Wait.stage).getD 0 < (s.pump.map Wait.stage).getD 0) : Good s e t := by
  obtain ⟨hqueue, hqueued, -⟩ := lists_eq hlists
  refine ⟨⟨?_, fun h => ?_, hplaying, honly⟩, hqueued.ge,
    fun k hk => ⟨?_, ?_, fun w' hw' hmay => ?_⟩, fun id _ => ?_, fun he id hpos => ?_⟩
  · rw [hqueue]
    exact lines_of_lists hlists hs.lines
  · rw [hqueue]
    exact hs.idle (hidle h)
  · rw [hqueued]
    exact hk.count
  · rw [hqueue]
    exact hk.queue
  · obtain ⟨w, hw, hmay', hline⟩ := hwaits w' hw' hmay
    rw [hline]
    exact hk.waits w hw hmay'
  · rw [ahead_eq hlists, ahead]
    split_ifs <;> omega
  · have hdrop := hlt he
    rw [ahead] at hpos
    rw [ahead_eq hlists, ahead]
    split_ifs at hpos ⊢ <;> omega

/-- The pump goes on to the next line, from a state whose sources are all over. -/
lemma good_of_resumed (hs : s.Serial) {w : Wait} (hw : s.pump = some w) (hlists : u.lists = s.lists)
    (hover : u.playback.Over) (h : Resumed u s.queue t) : Good s e t := by
  have hlines := lines_of_lists hlists hs.lines
  have hle : ∀ id, ahead id t ≤ if id ∈ s.queue.map Line.id then
      5 * s.queue.countP (fun line => line.id ≤ id) else 0 := fun _ => h.ahead_le hlines.sorted
  have hstage : 0 < (s.pump.map Wait.stage).getD 0 := by
    rw [hw]
    cases w <;> exact Nat.succ_pos _
  have hcount : t.queued = s.queued := h.queued.trans (lists_eq hlists).2.1
  refine ⟨h.serial hlines hover, hcount.ge, fun k hk => h.since ?_ hk.queue, fun id _ => ?_,
    fun _ id hpos => ?_⟩
  · rw [(lists_eq hlists).2.1]
    exact hk.count
  · have hafter := hle id
    have hbefore : ahead id s = _ := ahead_eq rfl
    split_ifs at hafter hbefore <;> omega
  · have hafter := hle id
    have hbefore : ahead id s = _ := ahead_eq rfl
    split_ifs at hafter hbefore <;> omega

/-- While the pump waits for no source, all of them are over. -/
lemma Serial.over (hs : s.Serial) (hw : ∀ line i, s.pump ≠ some (.play line i)) :
    s.playback.Over := by
  intro i src hsrc
  by_contra hstate
  exact hw _ _ (hs.only i src hsrc hstate)

lemma good_fallback (hs : s.Serial) {w : Wait} (hw : s.pump = some w) (hstage : 2 < w.stage)
    (hlists : u.lists = s.lists) (hover : u.playback.Over) :
    Good s e (u.fallback c w.line) := by
  rw [fallback]
  split_ifs
  · apply good_of_lists hs
    · exact hlists
    · exact nofun
    · exact nofun
    · exact fun i src hsrc hstate => absurd (hover i src hsrc) hstate
    · rintro w' hw' -
      cases hw'
      refine ⟨w, hw, ?_, rfl⟩
      cases w with
      | browser _ utterance => simp [Wait.stage] at hstage
      | _ => rfl
    · rw [hw]
      exact Nat.le_of_lt (Nat.lt_trans (by simp [Wait.stage]) hstage)
    · intro _
      rw [hw]
      exact Nat.lt_trans (by simp [Wait.stage]) hstage
  · rw [(lists_eq hlists).1]
    exact good_of_resumed hs hw hlists hover (pumpLoop_resumed c _ _)

lemma good_loadSettled (hs : s.Serial) {line : Line} (hw : s.pump = some (.load line)) (ok : Bool) :
    Good s e (s.loadSettled c line ok) := by
  have hover : s.playback.Over := hs.over (by simp [hw])
  rw [loadSettled]
  split_ifs
  · apply good_of_lists hs
    · rfl
    · exact nofun
    · exact nofun
    · exact fun i src hsrc hstate => absurd (hover i src hsrc) hstate
    · rintro w' hw' -
      cases hw'
      exact ⟨_, hw, rfl, rfl⟩
    · simp [hw, Wait.stage]
    · simp [hw, Wait.stage]
  · exact good_fallback hs hw (by simp [Wait.stage]) rfl hover

lemma good_synthesised (hs : s.Serial) {line : Line} (hw : s.pump = some (.synth line)) (ms : Nat)
    (outcome : PlayOutcome) : Good s e (s.synthesised c line ms outcome) := by
  have hover : s.playback.Over := hs.over (by simp [hw])
  cases outcome with
  | noContext => exact good_fallback hs hw (by simp [Wait.stage]) rfl hover
  | startThrows =>
    refine good_fallback hs hw (by simp [Wait.stage]) rfl fun i src hsrc => ?_
    rcases Place.getElem?_concat_cases hsrc with ⟨-, rfl⟩ | hold
    · rfl
    · exact hover i src hold
  | started =>
    apply good_of_lists hs
    · rfl
    · exact nofun
    · rintro line' i hw'
      cases hw'
      exact ⟨_, List.getElem?_concat_length, rfl, nofun⟩
    · intro i src hsrc hstate
      rcases Place.getElem?_concat_cases hsrc with ⟨rfl, rfl⟩ | hold
      · rfl
      · exact absurd (hover i src hold) hstate
    · rintro w' hw' -
      cases hw'
      exact ⟨_, hw, rfl, rfl⟩
    · simp [hw, Wait.stage, synthesised, PlaybackService.play]
    · simp [hw, Wait.stage, synthesised, PlaybackService.play]

lemma good_sourceSounds (hs : s.Serial) {i : Nat} {line : Line} {handled : Bool}
    (hsrc : s.playback.sources[i]? = some ⟨line, handled, .started⟩) (he : s.settles e = false) :
    Good s e
      { s with playback := s.playback.setState i ⟨line, handled, .started⟩ .audible } := by
  have hplay := hs.only i _ hsrc nofun
  apply good_of_lists hs
  · rfl
  · exact id
  · rintro line' j hw
    cases hplay.symm.trans hw
    obtain ⟨src, hsrc', hhandled, -⟩ := hs.playing line i hplay
    cases hsrc.symm.trans hsrc'
    exact ⟨_, Place.getElem?_set_here hsrc, hhandled, nofun⟩
  · intro j src hsrc' hstate
    rcases Place.getElem?_set_cases hsrc' with ⟨rfl, rfl⟩ | ⟨-, hold⟩
    · exact hplay
    · exact hs.only j src hold hstate
  · exact fun w hw hmay => ⟨w, hw, hmay, rfl⟩
  · exact Nat.le_refl _
  · exact fun h => absurd (he.symm.trans h) Bool.false_ne_true

/-- The end of a source is the end of the line the pump waits for. -/
lemma good_sourceEnded (hs : s.Serial) {i : Nat} {src : Source}
    (hsrc : s.playback.sources[i]? = some src) (hstate : src.state ≠ .over)
    (h : Resumed { s with playback := (s.playback.setState i src .over).onended i } s.queue t) :
    Good s e t := by
  refine good_of_resumed hs (hs.only i src hsrc hstate) ?_ ?_ h
  · rfl
  · intro j src' hsrc'
    have hsrc'' : (s.playback.sources.set i { src with state := .over })[j]? = some src' := by
      rw [PlaybackService.onended] at hsrc'
      split_ifs at hsrc' <;> exact hsrc'
    rcases Place.getElem?_set_cases hsrc'' with ⟨rfl, rfl⟩ | ⟨hne, hold⟩
    · rfl
    · by_contra hgoes
      have hsame := (hs.only i src hsrc hstate).symm.trans (hs.only j src' hold hgoes)
      injection hsame with hsame
      injection hsame with _ hij
      exact hne hij.symm

lemma good_utteranceSounds (hs : s.Serial) {line : Line}
    (hw : s.pump = some (.browser line .waiting)) (he : s.settles e = false) :
    Good s e { s with pump := some (.browser line .audible) } := by
  have hover : s.playback.Over := hs.over (by simp [hw])
  apply good_of_lists hs
  · rfl
  · exact nofun
  · exact nofun
  · exact fun i src hsrc hstate => absurd (hover i src hsrc) hstate
  · rintro w' hw' hmay
    cases hw'
    cases hmay
  · simp [hw, Wait.stage]
  · exact fun h => absurd (he.symm.trans h) Bool.false_ne_true

/-- The manager with one more line in its queue, and without the oldest past the cap. -/
def queueLine (s : TTSManager) (text lang : String) (system : Bool) : TTSManager :=
  let queue := s.queue ++ [⟨s.queued, text, lang, system⟩]
  { s with
    queue := queue.drop (queue.length - queueCap)
    queued := s.queued + 1
    dropped := (queue.take (queue.length - queueCap)).map Line.id ++ s.dropped }

lemma enqueue_eq (c : Setup) (s : TTSManager) (text lang : String) (system : Bool) :
    s.enqueue c text lang system =
      if s.pump.isSome then s.queueLine text lang system
      else (s.queueLine text lang system).pumpLoop c (s.queueLine text lang system).queue := rfl

variable {text lang : String} {system : Bool}

lemma mem_queueLine {line : Line} (h : line ∈ (s.queueLine text lang system).queue) :
    line ∈ s.queue ∨ line.id = s.queued := by
  rcases List.mem_append.mp (List.mem_of_mem_drop h) with hold | hnew
  · exact .inl hold
  · rw [List.mem_singleton.mp hnew]
    exact .inr rfl

lemma lines_queueLine (h : s.Lines s.queue) :
    (s.queueLine text lang system).Lines (s.queueLine text lang system).queue := by
  refine ⟨?_, fun line hline => ?_, fun id hid => ?_⟩
  · refine List.Pairwise.sublist (List.drop_sublist _ _) (List.pairwise_append.mpr ?_)
    refine ⟨h.sorted, List.pairwise_singleton _ _, fun line hline new hnew => ?_⟩
    rw [List.mem_singleton.mp hnew]
    exact h.numbered line hline
  · rcases mem_queueLine hline with hold | hnew
    · exact Nat.lt_succ_of_lt (h.numbered line hold)
    · exact hnew ▸ Nat.lt_succ_self _
  · let new : Line := ⟨s.queued, text, lang, system⟩
    have hmem : s.Accounted id ∨ id ∈ (s.queue ++ [new]).map Line.id := by
      rw [List.map_append, List.mem_append]
      rcases Nat.lt_succ_iff_lt_or_eq.mp hid with hlt | rfl
      · rcases h.ledger id hlt with hacc | hmem
        · exact .inl hacc
        · exact .inr (.inl hmem)
      · exact .inr (.inr (List.mem_singleton_self _))
    rcases hmem with (hhanded | hdropped | hcleared) | hmem
    · exact .inl (.inl hhanded)
    · exact .inl (.inr (.inl (List.mem_append_right _ hdropped)))
    · exact .inl (.inr (.inr hcleared))
    · rw [← List.take_append_drop ((s.queue ++ [new]).length - queueCap) (s.queue ++ [new]),
        List.map_append, List.mem_append] at hmem
      rcases hmem with hfirst | hrest
      · exact .inl (.inr (.inl (List.mem_append_left _ hfirst)))
      · exact .inr hrest

lemma Since.queueLine (h : s.Since k) :
    (s.queueLine text lang system).Since k := by
  refine ⟨Nat.le_succ_of_le h.count, fun line hline => ?_, h.waits⟩
  rcases mem_queueLine hline with hold | hnew
  · exact h.queue line hold
  · exact hnew ▸ h.count

/-- A line that waits is not held up by one that comes later. -/
lemma ahead_queueLine (hid : id < s.queued) :
    ahead id (s.queueLine text lang system) ≤ ahead id s := by
  have hcount : (s.queueLine text lang system).queue.countP (fun line => line.id ≤ id) ≤
      s.queue.countP (fun line => line.id ≤ id) := by
    refine (List.drop_sublist _ _).countP_le.trans ?_
    rw [List.countP_append, List.countP_singleton, if_neg (by simpa using hid)]
    exact Nat.le_refl _
  rw [ahead, ahead]
  split_ifs with hafter hbefore
  · have hpump : (s.queueLine text lang system).pump = s.pump := rfl
    rw [hpump]
    omega
  · obtain ⟨line, hline, rfl⟩ := List.mem_map.mp hafter
    rcases mem_queueLine hline with hold | hnew
    · exact absurd (List.mem_map_of_mem hold) hbefore
    · exact absurd hnew (Nat.ne_of_lt hid)
  · exact Nat.zero_le _
  · exact Nat.zero_le _

lemma good_enqueue (hs : s.Serial) (he : s.settles e = false) :
    Good s e (s.enqueue c text lang system) := by
  have hnot : ∀ {p : Prop}, s.settles e = true → p := fun h =>
    absurd (he.symm.trans h) Bool.false_ne_true
  rw [enqueue_eq]
  split_ifs with hpump
  · refine ⟨⟨lines_queueLine hs.lines, fun h => ?_, hs.playing, hs.only⟩, Nat.le_succ _,
      fun k hk => hk.queueLine, fun id hid => ahead_queueLine hid, hnot⟩
    have hnone : s.pump = none := h
    rw [hnone] at hpump
    cases hpump
  · have hnone : s.pump = none := by simpa using hpump
    have hover : s.playback.Over := hs.over (by simp [hnone])
    have hlines : Lines _ (s.queueLine text lang system).queue := lines_queueLine hs.lines
    have h := pumpLoop_resumed c (s.queueLine text lang system).queue
      (s.queueLine text lang system)
    have hcount : s.queued ≤ (s.queueLine text lang system).queued := Nat.le_succ _
    refine ⟨h.serial hlines hover, h.queued ▸ hcount,
      fun k hk => h.since hk.queueLine.count hk.queueLine.queue, fun id hid => ?_, hnot⟩
    have hle : ahead id _ ≤ _ := h.ahead_le hlines.sorted
    split_ifs at hle with hmem
    · -- nothing waits while the pump does not run
      obtain ⟨line, hline, rfl⟩ := List.mem_map.mp hmem
      rcases mem_queueLine hline with hold | hnew
      · rw [hs.idle hnone] at hold
        cases hold
      · exact absurd hnew (Nat.ne_of_lt hid)
    · exact Nat.le_trans hle (Nat.zero_le _)

lemma over_stop {p : PlaybackService} (h : p.Over) : p.stop.Over := by
  intro i src hsrc
  rw [PlaybackService.stop] at hsrc
  dsimp only at hsrc
  split at hsrc
  · exact h i src hsrc
  · rw [List.getElem?_modify] at hsrc
    obtain ⟨old, hold, rfl⟩ := Option.map_eq_some_iff.mp hsrc
    split_ifs
    · rfl
    · exact h i old hold

/-- A stop clears the queue, and leaves nothing that could start to be audible. -/
lemma good_stop (hs : s.Serial) (hclean : s.stopsClean .stop = true) :
    Good s .stop (s.stop c) ∧ (s.stop c).Since s.queued := by
  have hwait : ∀ line i, s.pump ≠ some (.play line i) := by
    intro line i hw
    simp [stopsClean, hw] at hclean
  have hover : (s.stop c).playback.Over := by
    rw [stop]
    dsimp only
    split_ifs
    · exact over_stop (hs.over hwait)
    · exact hs.over hwait
  have hcancelled : ∀ w, (s.stop c).pump = some w → ∃ line, w = .browser line .cancelled := by
    intro w hw
    cases hpump : s.pump with
    | none =>
      rw [stop, hpump] at hw
      cases hw
    | some old =>
      cases old with
      | browser line utterance =>
        rw [stop, hpump] at hw
        cases hw
        exact ⟨line, rfl⟩
      | _ => simp [stopsClean, hpump] at hclean
  have hsilent : ∀ k w, (s.stop c).pump = some w → w.mayStart = true → k ≤ w.line.id := by
    intro k w hw hmay
    obtain ⟨line, rfl⟩ := hcancelled w hw
    cases hmay
  refine ⟨⟨⟨⟨.nil, nofun, fun id hid => ?_⟩, fun _ => rfl, fun line i hw => ?_,
    fun i src hsrc hstate => absurd (hover i src hsrc) hstate⟩, Nat.le_refl _,
    fun k hk => ⟨hk.count, nofun, hsilent k⟩, fun _ _ => Nat.zero_le _, fun h => ?_⟩,
    ⟨Nat.le_refl _, nofun, hsilent s.queued⟩⟩
  · rcases hs.lines.ledger id hid with (hhanded | hdropped | hcleared) | hmem
    · exact .inl (.inl hhanded)
    · exact .inl (.inr (.inl hdropped))
    · exact .inl (.inr (.inr (List.mem_append_right _ hcleared)))
    · exact .inl (.inr (.inr (List.mem_append_left _ hmem)))
  · obtain ⟨line', hline'⟩ := hcancelled _ hw
    cases hline'
  · exact absurd ((settles_eq_false rfl).symm.trans h) Bool.false_ne_true

/-- **One event** that stops cleanly. -/
lemma Serial.step (hs : s.Serial) (hclean : s.stopsClean e = true) (hstep : s.step c e = some t) :
    Good s e t := by
  cases e with
  | speak text lang =>
    cases hstep
    exact good_enqueue hs (settles_eq_false rfl)
  | speakSystem text lang =>
    cases hstep
    exact good_enqueue hs (settles_eq_false rfl)
  | stop =>
    cases hstep
    exact (good_stop hs hclean).1
  | loadSettled ok =>
    rw [TTSManager.step] at hstep
    split at hstep
    next line hw =>
      cases hstep
      exact good_loadSettled hs hw ok
    next => cases hstep
  | synthFailed =>
    rw [TTSManager.step] at hstep
    split at hstep
    next line hw =>
      cases hstep
      exact good_fallback hs hw (by simp [Wait.stage]) rfl (hs.over (by simp [hw]))
    next => cases hstep
  | synthesised ms outcome =>
    rw [TTSManager.step] at hstep
    split at hstep
    next line hw =>
      cases hstep
      exact good_synthesised hs hw ms outcome
    next => cases hstep
  | sourceSounds i =>
    rw [TTSManager.step] at hstep
    split at hstep
    next line handled hsrc =>
      cases hstep
      exact good_sourceSounds hs hsrc (settles_eq_false rfl)
    next => cases hstep
  | sourceEnded i =>
    rw [TTSManager.step] at hstep
    split at hstep
    · cases hstep
    · cases hstep
    next src hover hsrc =>
      have hstate : src.state ≠ .over := by
        intro hstate
        obtain ⟨line, handled, state⟩ := src
        cases hstate
        exact hover line handled rfl
      have hplay := hs.only i src hsrc hstate
      obtain ⟨src', hsrc', hhandled, -⟩ := hs.playing _ _ hplay
      cases hsrc.symm.trans hsrc'
      rw [if_pos hhandled] at hstep
      dsimp only at hstep
      split at hstep
      next line j hw =>
        cases hplay.symm.trans hw
        rw [if_pos rfl] at hstep
        cases hstep
        exact good_sourceEnded hs hsrc hstate (pumpLoop_resumed c _ _)
      next hnot => exact absurd hplay (hnot _ _)
  | utteranceSounds =>
    rw [TTSManager.step] at hstep
    split at hstep
    next line hw =>
      cases hstep
      exact good_utteranceSounds hs hw (settles_eq_false rfl)
    next => cases hstep
  | utteranceSettled =>
    rw [TTSManager.step] at hstep
    split at hstep
    next line utterance hw =>
      cases hstep
      exact good_of_resumed hs hw rfl (hs.over (by simp [hw])) (pumpLoop_resumed c _ _)
    next => cases hstep
  | idle =>
    cases hstep
    refine ⟨hs, Nat.le_refl _, fun _ => id, fun _ _ => Nat.le_refl _, fun h => ?_⟩
    exact absurd ((settles_eq_false rfl).symm.trans h) Bool.false_ne_true

lemma serial_new : new.Serial := by
  refine ⟨⟨.nil, nofun, nofun⟩, fun _ => rfl, nofun, nofun⟩

/-- What waits is answered. -/
lemma Serial.pending (hs : s.Serial) (hqueue : s.queue ≠ []) : s.pending = true := by
  rw [TTSManager.pending]
  split
  next hnone => exact absurd (hs.idle hnone) hqueue
  next line i hw =>
    obtain ⟨src, hsrc, -, hstate⟩ := hs.playing line i hw
    simp [hsrc, hstate]
  next => rfl

/-- What starts to be audible is a line that still may. -/
lemma Serial.startsToSound (hs : s.Serial) (hk : s.Since k) (hstep : s.step c e = some t)
    {line : Line} (hsound : s.startsToSound e = some line) : k ≤ line.id := by
  cases e with
  | sourceSounds i =>
    rw [TTSManager.step] at hstep
    split at hstep
    next line' handled hsrc =>
      have hplay := hs.only i _ hsrc nofun
      simp only [TTSManager.startsToSound, hsrc, Option.map_some, Option.some.injEq] at hsound
      subst hsound
      exact hk.waits _ hplay rfl
    next => cases hstep
  | utteranceSounds =>
    rw [TTSManager.step] at hstep
    split at hstep
    next line' hw =>
      simp only [TTSManager.startsToSound, hw, Option.map_some, Option.some.injEq] at hsound
      subst hsound
      exact hk.waits _ hw rfl
    next => cases hstep
  | _ => cases hsound

end TTSManager

namespace Trace

open TTSManager

variable {c : Setup} {t : Trace c}

lemma serial (hclean : ∀ n, (t.run n).stopsClean (t.acts n) = true) (n : Nat) :
    (t.run n).Serial := by
  induction n with
  | zero =>
    rw [t.start]
    exact serial_new
  | succ n ih => exact (ih.step (hclean n) (t.step n)).serial

lemma since (hclean : ∀ n, (t.run n).stopsClean (t.acts n) = true) {k n m : Nat} (hnm : n ≤ m)
    (h : (t.run n).Since k) : (t.run m).Since k := by
  induction hnm with
  | refl => exact h
  | step _ ih => exact ((serial hclean _).step (hclean _) (t.step _)).since k ih

/-- **A line that waits is not forgotten.** -/
lemma accounted (hclean : ∀ n, (t.run n).stopsClean (t.acts n) = true) (hfair : t.Fair)
    {n id : Nat} (hid : id < (t.run n).queued) : ∃ m, (t.run m).Accounted id := by
  have hgood : ∀ m, Good (t.run m) (t.acts m) (t.run (m + 1)) := fun m =>
    (serial hclean m).step (hclean m) (t.step m)
  have hqueued : ∀ m, id < (t.run (n + m)).queued := by
    intro m
    induction m with
    | zero => exact hid
    | succ m ih => exact Nat.lt_of_lt_of_le ih (hgood (n + m)).counted
  by_contra hnever
  -- the line waits forever, so the pump always waits for something that is answered
  have hwaits : ∀ m, id ∈ (t.run (n + m)).queue.map Line.id := fun m =>
    ((serial hclean (n + m)).lines.ledger id (hqueued m)).resolve_left fun h => hnever ⟨_, h⟩
  have hpending : ∀ m, (t.run (n + m)).pending = true := by
    intro m
    refine (serial hclean (n + m)).pending fun hnil => ?_
    have hmem := hwaits m
    rw [hnil] at hmem
    cases hmem
  have hcomes : ∀ m, 0 < ahead id (t.run (n + m)) →
      ∃ j, m ≤ j ∧ (t.run (n + j)).settles (t.acts (n + j)) = true := by
    intro m _
    obtain ⟨j, hj, hsettles | hdone⟩ := hfair _ (hpending m)
    · refine ⟨j - n, by omega, ?_⟩
      rwa [show n + (j - n) = j by omega]
    · have hstill := hpending (j - n)
      rw [show n + (j - n) = j by omega] at hstill
      exact absurd (hdone.symm.trans hstill) Bool.false_ne_true
  obtain ⟨m, hm⟩ := @eventually_zero _ (fun m => t.run (n + m)) (ahead id) _
    (fun m => (hgood (n + m)).le id (hqueued m))
    (fun m h => (hgood (n + m)).lt h id (ahead_pos (hwaits m))) hcomes
  exact absurd (hm m (Nat.le_refl m)) (ahead_pos (hwaits m)).ne'

/-- **Stopping is clean** on every fair run on which no stop comes while the installed voice loads,
synthesises or plays a line. -/
theorem clean_of_stopsClean (hfair : t.Fair)
    (hclean : ∀ n, (t.run n).stopsClean (t.acts n) = true) : t.Clean := by
  intro n hstop
  have hstep := t.step n
  rw [hstop] at hstep
  have hnext : t.run (n + 1) = (t.run n).stop c := (Option.some.inj hstep).symm
  have hsince : (t.run (n + 1)).Since (t.run n).queued := by
    rw [hnext]
    exact (good_stop (serial hclean n) (hstop ▸ hclean n)).2
  refine ⟨fun m line hnm hsound => ?_, fun k id _ _ hid => accounted hclean hfair hid⟩
  exact (serial hclean m).startsToSound (since hclean hnm hsince) (t.step m) hsound

/-- A list of events, and nothing after it. -/
def ofEvents (c : Setup) (events : List SpeechEvent)
    (h : (events.foldlM (TTSManager.step c) .new).isSome = true) : Trace c where
  run := playOut (TTSManager.step c) .new events
  acts := thenIdle .idle events
  start := rfl
  step := playOut_step (fun _ => rfl) h

/-- What holds in every state up to the last event holds in every state. -/
lemma forall_ofEvents {events : List SpeechEvent}
    {h : (events.foldlM (TTSManager.step c) .new).isSome = true} {P : TTSManager → Prop}
    (hP : ∀ n < events.length + 1, P (playOut (TTSManager.step c) .new events n)) (n : Nat) :
    P ((ofEvents c events h).run n) := by
  rcases Nat.lt_or_ge n (events.length + 1) with hlt | hge
  · exact hP n hlt
  · have hlast := hP events.length (Nat.lt_succ_self _)
    rwa [playOut_of_le (Nat.le_refl _) (Nat.le_of_succ_le hge)] at hlast

/-- Events that answer what is waited for, and leave nothing waiting in the end. -/
lemma fair_ofEvents {events : List SpeechEvent}
    {h : (events.foldlM (TTSManager.step c) .new).isSome = true}
    (hanswered : ∀ n < events.length, (playOut (TTSManager.step c) .new events n).pending = true →
      ∃ m < events.length + 1, n ≤ m ∧
        ((playOut (TTSManager.step c) .new events m).settles (thenIdle .idle events m) = true ∨
          (playOut (TTSManager.step c) .new events m).pending = false))
    (hend : (playOut (TTSManager.step c) .new events events.length).pending = false) :
    (ofEvents c events h).Fair := by
  intro n hpending
  rcases Nat.lt_or_ge n events.length with hlt | hge
  · obtain ⟨m, -, hnm, hsettles⟩ := hanswered n hlt hpending
    exact ⟨m, hnm, hsettles⟩
  · rw [playOut_of_le (Nat.le_refl _) hge] at hend
    exact absurd (hend.symm.trans hpending) Bool.false_ne_true

lemma stopsClean_ofEvents {events : List SpeechEvent}
    {h : (events.foldlM (TTSManager.step c) .new).isSome = true}
    (hclean : ∀ n < events.length, (playOut (TTSManager.step c) .new events n).stopsClean
      (thenIdle .idle events n) = true) (n : Nat) :
    ((ofEvents c events h).run n).stopsClean ((ofEvents c events h).acts n) = true := by
  rcases Nat.lt_or_ge n events.length with hlt | hge
  · exact hclean n hlt
  · have hidle : (ofEvents c events h).acts n = .idle := List.getD_eq_default _ _ hge
    rw [hidle]
    rfl

/-- The installed voice speaks English, and is preferred. -/
def english : Setup := ⟨.vox, false, some fun lang => lang = "en", true⟩

/-- A stop while a line is synthesised: the line is heard after it. -/
def stopDuringSynthesis : Trace english :=
  ofEvents english [.speak "a" "en", .loadSettled true, .stop, .synthesised 200 .started,
    .sourceSounds 0, .sourceEnded 0] (by decide)

/-- A stop while a line plays: the line that is queued next waits forever. -/
def stopDuringPlayback : Trace english :=
  ofEvents english [.speak "a" "en", .loadSettled true, .synthesised 200 .started,
    .sourceSounds 0, .stop, .speak "b" "en"] (by decide)

/-- Stopping is not clean, on fair runs: what is synthesised is heard after the stop, and what is
queued after a playing line was stopped is never handed to a provider. -/
theorem stop_is_not_clean :
    (stopDuringSynthesis.Fair ∧ ¬ stopDuringSynthesis.Clean) ∧
    stopDuringPlayback.Fair ∧ ¬ stopDuringPlayback.Clean := by
  refine ⟨⟨fair_ofEvents (by decide) (by decide), fun h => ?_⟩,
    fair_ofEvents (by decide) (by decide), fun h => ?_⟩
  · exact absurd ((h 2 rfl).1 4 ⟨0, "a", "en", false⟩ (by decide) (by decide)) (by decide)
  · obtain ⟨m, hm⟩ := (h 4 rfl).2 6 1 (by decide) (by decide) (by decide)
    have hnever : ∀ n, ¬ (stopDuringPlayback.run n).Accounted 1 :=
      forall_ofEvents (P := fun s => ¬ s.Accounted 1) (by decide)
    exact hnever m hm

/-- Stops between two lines, and while the browser reads the second. -/
def stopBetween : Trace english :=
  ofEvents english [.speak "a" "en", .loadSettled true, .synthesised 200 .started,
    .sourceSounds 0, .sourceEnded 0, .stop, .speak "b" "en", .speak "c" "it",
    .synthesised 200 .startThrows, .utteranceSettled, .utteranceSounds, .stop, .utteranceSettled]
    (by decide)

theorem clean_sample : stopBetween.Clean := by
  refine clean_of_stopsClean (fair_ofEvents (by decide) (by decide)) ?_
  exact stopsClean_ofEvents (by decide)

end Trace

end VoxTranslate.Client.Speech
