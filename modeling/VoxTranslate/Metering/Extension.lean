import VoxTranslate.Engine.Registry
import VoxTranslate.Lib.Run
import VoxTranslate.Metering.Meter

/-!
# The metering of a browser-extension session

What the handler of an extension's socket keeps: the channel into the engine session, the handle
of the meter and whether the credit has run out.  They are written in different branches of one
loop.  A third path translates single texts for the browser and looks at none of them.  The meter
is a task of its own, and a meter that was cancelled has yet to notice.
-/

namespace VoxTranslate.Metering

open Lib Engine

/-- What is known of an extension connection when its loop starts. -/
structure ExtensionConfig where
  engineId : String
  /-- The browser talks to the provider itself, and the server opens no session. -/
  clientDirect : Bool
  costScalesPerLanguage : Bool
  /-- The usage session, unless its creation failed. -/
  usageSession : Option Uuid

/-- A `TranslateText` request on its way, and what held when it was taken. -/
structure TextRequest where
  requestId : String
  text : String
  metered : Bool
  exhausted : Bool
  deriving DecidableEq, Repr

/-- The variables of the handler, the tasks it has spawned, and a record of what it did. -/
structure ExtensionSession where
  /-- The channel into the engine session, and whether the engine still reads it. -/
  audioTx : Option Bool
  meterCancel : Option Meter
  exhausted : Bool
  /-- The meters that were cancelled and have not noticed yet. -/
  cancelled : List Meter
  /-- Signals of exhaustion that were not read yet. -/
  exhaust : Nat
  /-- The texts that are being translated. -/
  requests : List TextRequest
  closed : Bool
  /-- A client-direct connection was started, and neither stopped nor out of credit since. -/
  started : Bool
  /-- For each session that was opened, whether the credit had run out by then. -/
  opened : List Bool
  /-- Every text that was taken. -/
  taken : List TextRequest
  /-- The translated texts sent to the client, with their requests. -/
  sent : List (TextRequest × String)
  deriving DecidableEq, Repr

/-- What may happen next. -/
inductive ExtensionEvent where
  | start (outcome : SessionOutcome)
  | stop
  | setLang (lang : String)
  | translateText (requestId text : String)
  /-- A chunk of audio. -/
  | audio
  /-- Any other frame. -/
  | other
  | disconnect
  /-- The loop reads a signal of exhaustion. -/
  | exhausted
  /-- The engine closes its end of the audio channel. -/
  | engineCloses
  /-- The timer of the meter fires. -/
  | tick (outcome : TickOutcome)
  /-- The timer of a cancelled meter fires, and wins against the cancellation. -/
  | lateTick (i : Nat) (outcome : TickOutcome)
  /-- A cancelled meter notices, and returns. -/
  | noticed (i : Nat)
  /-- A text has been translated, or its translation has failed. -/
  | translated (i : Nat) (answer : Option String)

/-- Longest segment accepted on the translate hop, in bytes. -/
def maxTranslateChars : Nat := 2000

namespace ExtensionSession

def connect : ExtensionSession where
  audioTx := none
  meterCancel := none
  exhausted := false
  cancelled := []
  exhaust := 0
  requests := []
  closed := false
  started := false
  opened := []
  taken := []
  sent := []

/-- The meter that can be cancelled is running. -/
def metered (s : ExtensionSession) : Bool := s.meterCancel.any Meter.isRunning

/-- Drop the handle of the meter, which cancels it. -/
def dropHandle (s : ExtensionSession) : ExtensionSession :=
  { s with
    meterCancel := none
    cancelled := (s.meterCancel.filter Meter.isRunning).toList ++ s.cancelled }

section Steps

variable (cfg : ExtensionConfig)

/-- The connection has an open session. -/
def isOpen (s : ExtensionSession) : Bool :=
  if cfg.clientDirect then s.started else s.audioTx == some true

/-- `start_meter`, on a server with billing. -/
def startMeter : Option Meter :=
  cfg.usageSession.map fun _ =>
    .spawn (.usage (.speaker cfg.costScalesPerLanguage) cfg.engineId)

/-- The handle of the meter is replaced, and that of an earlier one dropped. -/
def meterStarted (s : ExtensionSession) : ExtensionSession :=
  { s.dropHandle with meterCancel := startMeter cfg }

/-- `Start`. -/
def start (s : ExtensionSession) (outcome : SessionOutcome) : ExtensionSession :=
  if s.audioTx.isSome || (cfg.clientDirect && s.meterCancel.isSome) then s
  else if s.exhausted then s
  else if cfg.clientDirect then
    { s.meterStarted cfg with started := true, opened := s.exhausted :: s.opened }
  else
    match outcome with
    | .started => { s.meterStarted cfg with
        audioTx := some true
        opened := s.exhausted :: s.opened }
    | .atCapacity | .failed => s

/-- `Stop`. -/
def stop (s : ExtensionSession) : ExtensionSession :=
  { s.dropHandle with audioTx := none, started := false }

/-- `TranslateText`: the text is handed to a task of its own. -/
def translateText (s : ExtensionSession) (requestId text : String) : ExtensionSession :=
  if maxTranslateChars < text.utf8ByteSize then s
  else
    let request : TextRequest := ⟨requestId, text, s.metered, s.exhausted⟩
    { s with requests := s.requests ++ [request], taken := request :: s.taken }

/-- A chunk of audio: a channel that refuses it is dropped. -/
def audio (s : ExtensionSession) : ExtensionSession :=
  if s.audioTx = some false then { s with audioTx := none } else s

/-- A signal of exhaustion was read. -/
def readExhausted (s : ExtensionSession) : ExtensionSession :=
  { s.dropHandle with
    exhaust := s.exhaust - 1
    exhausted := true
    audioTx := none
    started := false }

/-- The teardown. -/
def tornDown (s : ExtensionSession) : ExtensionSession :=
  { s.dropHandle with audioTx := none, started := false, closed := true }

/-- A meter after a tick. -/
def ticked (m : Meter) (outcome : TickOutcome) : Meter :=
  { m with state := (m.kind.tick 1 0 0 outcome).state }

/-- A meter that runs out says so. -/
def signal (s : ExtensionSession) (m : Meter) : ExtensionSession :=
  { s with exhaust := s.exhaust + (if m.state = .exhausted then 1 else 0) }

/-- The step function; `none` where the step cannot be taken. -/
def step (s : ExtensionSession) : ExtensionEvent → Option ExtensionSession
  | .start outcome => if s.closed then none else some (s.start cfg outcome)
  | .stop => if s.closed then none else some s.stop
  | .setLang _ => if s.closed then none else some s
  | .translateText requestId text =>
    if s.closed then none else some (s.translateText requestId text)
  | .audio => if s.closed then none else some s.audio
  | .other => if s.closed then none else some s
  | .disconnect => if s.closed then none else some s.tornDown
  | .exhausted => if s.closed || s.exhaust = 0 then none else some s.readExhausted
  | .engineCloses =>
    if s.audioTx = some true then some { s with audioTx := some false } else none
  | .tick outcome =>
    match s.meterCancel with
    | none => none
    | some m =>
      if m.isRunning then
        some { s.signal (ticked m outcome) with meterCancel := some (ticked m outcome) }
      else none
  | .lateTick i outcome =>
    match s.cancelled[i]? with
    | none => none
    | some m =>
      some { s.signal (ticked m outcome) with
        cancelled :=
          if (ticked m outcome).isRunning then s.cancelled.set i (ticked m outcome)
          else s.cancelled.eraseIdx i }
  | .noticed i =>
    if i < s.cancelled.length then some { s with cancelled := s.cancelled.eraseIdx i } else none
  | .translated i answer =>
    match s.requests[i]? with
    | none => none
    | some request =>
      some { s with
        requests := s.requests.eraseIdx i
        -- nothing is sent once the socket is gone
        sent := if s.closed then s.sent else (request, answer.getD request.text) :: s.sent }

/-- A meter runs exactly while a session is open, once every signal of exhaustion was read; every
translated text was taken while one ran; and after exhaustion no session is opened and no text is
taken. -/
structure MeteredExactly (s : ExtensionSession) : Prop where
  meter_iff_open : s.exhaust = 0 ∨ s.closed = true → (s.metered = true ↔ s.isOpen cfg = true)
  sent_metered : ∀ r ∈ s.sent, r.1.metered = true
  opened_before : ∀ exhausted ∈ s.opened, exhausted = false
  taken_before : ∀ r ∈ s.taken, r.exhausted = false

/-- A session is opened only where the usage session exists, the engine closes none while a meter
runs, no charge fails for another reason than the balance, and no text comes while no meter
runs. -/
def keepsMetered (s : ExtensionSession) : ExtensionEvent → Bool
  | .start outcome =>
    cfg.usageSession.isSome || s.exhausted || (!cfg.clientDirect && outcome != .started)
  | .engineCloses => !s.metered
  | .tick outcome => outcome != .failed
  | .translateText _ text => maxTranslateChars < text.utf8ByteSize || s.metered
  | _ => true

end Steps

/-! ## One step -/

variable {cfg : ExtensionConfig} {s t : ExtensionSession}

/-- A meter runs only while a session is open, and one that does not run by then has signalled
that it ran out. -/
structure Balanced (cfg : ExtensionConfig) (s : ExtensionSession) : Prop where
  metered_open : s.metered = true → s.isOpen cfg = true
  open_metered : s.isOpen cfg = true → s.metered = true ∨ 0 < s.exhaust
  usage : ∀ m ∈ s.meterCancel, ∃ scope engine, m.kind = .usage scope engine
  direct : cfg.clientDirect = true → s.audioTx = none
  after_exhaustion : s.exhausted = true → s.meterCancel = none
  after_close : s.closed = true → s.meterCancel = none ∧ s.isOpen cfg = false
  pending_metered : ∀ r ∈ s.requests, r.metered = true
  sent_metered : ∀ r ∈ s.sent, r.1.metered = true
  opened_before : ∀ exhausted ∈ s.opened, exhausted = false
  taken_before : ∀ r ∈ s.taken, r.exhausted = false

lemma Balanced.connect (cfg : ExtensionConfig) : Balanced cfg connect where
  metered_open := by simp [ExtensionSession.connect, metered]
  open_metered := by simp [ExtensionSession.connect, isOpen]
  usage := by simp [ExtensionSession.connect]
  direct := by simp [ExtensionSession.connect]
  after_exhaustion := by simp [ExtensionSession.connect]
  after_close := by simp [ExtensionSession.connect]
  pending_metered := by simp [ExtensionSession.connect]
  sent_metered := by simp [ExtensionSession.connect]
  opened_before := by simp [ExtensionSession.connect]
  taken_before := by simp [ExtensionSession.connect]

/-- A balanced session is metered exactly. -/
lemma Balanced.meteredExactly (h : Balanced cfg s) : MeteredExactly cfg s where
  meter_iff_open hread := by
    refine ⟨h.metered_open, fun hopen => ?_⟩
    refine (h.open_metered hopen).resolve_right fun hwaiting => ?_
    rcases hread with hnone | hclosed
    · omega
    · rw [(h.after_close hclosed).2] at hopen
      cases hopen
  sent_metered := h.sent_metered
  opened_before := h.opened_before
  taken_before := h.taken_before

@[simp] lemma isOpen_false (haudio : s.audioTx = none) (hstarted : s.started = false) :
    s.isOpen cfg = false := by
  simp [isOpen, haudio, hstarted]

@[simp] lemma metered_none (h : s.meterCancel = none) : s.metered = false := by
  simp [metered, h]

/-- Dropping the handle and ending the session keeps the balance. -/
lemma Balanced.released (h : Balanced cfg s) (hhandle : t.meterCancel = none)
    (haudio : t.audioTx = none) (hstarted : t.started = false) (hrequests : t.requests = s.requests)
    (hsent : t.sent = s.sent) (hopened : t.opened = s.opened) (htaken : t.taken = s.taken) :
    Balanced cfg t where
  metered_open hmetered := by simp [hhandle] at hmetered
  open_metered hopen := by simp [haudio, hstarted] at hopen
  usage := by simp [hhandle]
  direct _ := haudio
  after_exhaustion _ := hhandle
  after_close _ := ⟨hhandle, isOpen_false haudio hstarted⟩
  pending_metered := hrequests ▸ h.pending_metered
  sent_metered := hsent ▸ h.sent_metered
  opened_before := hopened ▸ h.opened_before
  taken_before := htaken ▸ h.taken_before

/-- A meter that starts with its session keeps the balance. -/
lemma Balanced.opened (h : Balanced cfg s) (hhandle : t.meterCancel = startMeter cfg)
    (hcreated : cfg.usageSession.isSome = true) (hopen : t.isOpen cfg = true)
    (hdirect : cfg.clientDirect = true → t.audioTx = none) (hexhausted : s.exhausted = false)
    (hexhausted' : t.exhausted = s.exhausted) (hclosed : t.closed = false)
    (hrequests : t.requests = s.requests) (hsent : t.sent = s.sent)
    (hopened : t.opened = s.exhausted :: s.opened) (htaken : t.taken = s.taken) :
    Balanced cfg t where
  metered_open _ := hopen
  open_metered _ := by
    obtain ⟨sid, hsid⟩ := Option.isSome_iff_exists.mp hcreated
    left
    simp [metered, hhandle, startMeter, hsid, Meter.isRunning, Meter.spawn]
  usage m hm := by
    rw [hhandle, startMeter, Option.mem_def, Option.map_eq_some_iff] at hm
    obtain ⟨_, _, rfl⟩ := hm
    exact ⟨_, _, rfl⟩
  direct := hdirect
  after_exhaustion hafter := by
    rw [hexhausted', hexhausted] at hafter
    cases hafter
  after_close hafter := by
    rw [hclosed] at hafter
    cases hafter
  pending_metered := hrequests ▸ h.pending_metered
  sent_metered := hsent ▸ h.sent_metered
  opened_before := by
    intro exhausted hmem
    rw [hopened, List.mem_cons] at hmem
    rcases hmem with rfl | hmem
    · exact hexhausted
    · exact h.opened_before exhausted hmem
  taken_before := htaken ▸ h.taken_before

lemma Balanced.start (h : Balanced cfg s) (hclosed : s.closed = false) (outcome : SessionOutcome)
    (hkeeps : keepsMetered cfg s (.start outcome) = true) : Balanced cfg (s.start cfg outcome) := by
  rw [ExtensionSession.start.eq_def]
  split_ifs with hstreaming hexhausted hdirect
  · exact h
  · exact h
  · have hcreated : cfg.usageSession.isSome = true := by
      simpa [keepsMetered, hexhausted, hdirect] using hkeeps
    exact h.opened rfl hcreated (by simp [isOpen, hdirect]) (fun hd => h.direct hd)
      (by simpa using hexhausted) rfl hclosed rfl rfl rfl rfl
  · rcases outcome with _ | _ | _
    · have hcreated : cfg.usageSession.isSome = true := by
        simpa [keepsMetered, hexhausted, hdirect] using hkeeps
      exact h.opened rfl hcreated (by simp [isOpen, hdirect]) (fun hd => absurd hd hdirect)
        (by simpa using hexhausted) rfl hclosed rfl rfl rfl rfl
    · exact h
    · exact h

lemma Balanced.translateText (h : Balanced cfg s) (requestId text : String)
    (hkeeps : keepsMetered cfg s (.translateText requestId text) = true) :
    Balanced cfg (s.translateText requestId text) := by
  rw [ExtensionSession.translateText]
  split_ifs with hlong
  · exact h
  · have hmetered : s.metered = true := by simpa [keepsMetered, hlong] using hkeeps
    have hexhausted : s.exhausted = false := by
      by_contra hex
      rw [metered_none (h.after_exhaustion (by simpa using hex))] at hmetered
      cases hmetered
    refine { h with pending_metered := ?_, taken_before := ?_ }
    · intro r hr
      rcases List.mem_append.mp hr with hr | hr
      · exact h.pending_metered r hr
      · rw [List.mem_singleton.mp hr]
        exact hmetered
    · intro r hr
      rcases List.mem_cons.mp hr with rfl | hr
      · exact hexhausted
      · exact h.taken_before r hr

/-- The handler and the engine drop a channel that is not read any more. -/
lemma Balanced.engineLost (h : Balanced cfg s) (hmetered : s.metered = false)
    (haudio : s.audioTx ≠ none) (audioTx : Option Bool) (hlost : audioTx ≠ some true) :
    Balanced cfg { s with audioTx } := by
  have hserver : cfg.clientDirect = false := by
    by_contra hdirect
    exact haudio (h.direct (by simpa using hdirect))
  have hopen : isOpen cfg { s with audioTx } = false := by simp [isOpen, hserver, hlost]
  refine { h with metered_open := ?_, open_metered := ?_, direct := ?_, after_close := ?_ }
  · intro hm
    exact absurd hm (by simpa [metered] using hmetered)
  · intro ho
    rw [hopen] at ho
    cases ho
  · intro hdirect
    rw [hserver] at hdirect
    cases hdirect
  · intro hc
    exact ⟨(h.after_close hc).1, hopen⟩

lemma Balanced.audio (h : Balanced cfg s) : Balanced cfg s.audio := by
  rw [ExtensionSession.audio]
  split_ifs with hclosed
  · have hmetered : s.metered = false := by
      by_contra hm
      have hopen := h.metered_open (by simpa using hm)
      by_cases hdirect : cfg.clientDirect = true
      · rw [h.direct hdirect] at hclosed
        cases hclosed
      · simp [isOpen, hdirect, hclosed] at hopen
    exact h.engineLost hmetered (by simp [hclosed]) none (by simp)
  · exact h

lemma Balanced.tick (h : Balanced cfg s) {m : Meter} (hm : s.meterCancel = some m)
    (hrunning : m.isRunning = true) {outcome : TickOutcome} (houtcome : outcome ≠ .failed) :
    Balanced cfg { s.signal (ticked m outcome) with meterCancel := some (ticked m outcome) } := by
  obtain ⟨scope, engine, hkind⟩ := h.usage m hm
  have hopen : s.isOpen cfg = true := h.metered_open (by simp [metered, hm, hrunning])
  refine { h with
    metered_open := fun _ => hopen
    open_metered := ?_
    usage := ?_
    after_exhaustion := ?_
    after_close := ?_ }
  · intro _
    cases outcome <;>
      simp_all [metered, ticked, signal, MeterKind.tick, Meter.isRunning]
  · intro m' hm'
    cases Option.mem_some_iff.mp hm'
    exact ⟨scope, engine, hkind⟩
  · intro hex
    rw [h.after_exhaustion hex] at hm
    cases hm
  · intro hclosed
    rw [(h.after_close hclosed).1] at hm
    cases hm

/-- More signals, and fewer cancelled meters, keep the balance. -/
lemma Balanced.signal (h : Balanced cfg s) (m : Meter) (cancelled : List Meter) :
    Balanced cfg { s.signal m with cancelled } :=
  { h with open_metered := fun hopen => (h.open_metered hopen).imp_right fun hwaiting =>
      Nat.lt_of_lt_of_le hwaiting (Nat.le_add_right _ _) }

lemma Balanced.translated (h : Balanced cfg s) {i : Nat} {request : TextRequest}
    (hi : s.requests[i]? = some request) (text : String) :
    Balanced cfg { s with
      requests := s.requests.eraseIdx i
      sent := if s.closed then s.sent else (request, text) :: s.sent } := by
  refine { h with pending_metered := ?_, sent_metered := ?_ }
  · intro r hr
    exact h.pending_metered r (List.mem_of_mem_eraseIdx hr)
  · intro r hr
    split_ifs at hr
    · exact h.sent_metered r hr
    · rcases List.mem_cons.mp hr with rfl | hr
      · exact h.pending_metered request (List.mem_of_getElem? hi)
      · exact h.sent_metered r hr

/-- Every step that is kept metered keeps the balance. -/
lemma Balanced.step (h : Balanced cfg s) {e : ExtensionEvent}
    (hkeeps : keepsMetered cfg s e = true) (hstep : s.step cfg e = some t) : Balanced cfg t := by
  cases e with
  | start outcome =>
    obtain ⟨hclosed, ⟨⟩⟩ := Option.ite_none_left_eq_some.mp hstep
    exact h.start (by simpa using hclosed) outcome hkeeps
  | stop =>
    obtain ⟨-, ⟨⟩⟩ := Option.ite_none_left_eq_some.mp hstep
    exact h.released rfl rfl rfl rfl rfl rfl rfl
  | setLang lang | other =>
    obtain ⟨-, ⟨⟩⟩ := Option.ite_none_left_eq_some.mp hstep
    exact h
  | translateText requestId text =>
    obtain ⟨-, ⟨⟩⟩ := Option.ite_none_left_eq_some.mp hstep
    exact h.translateText requestId text hkeeps
  | audio =>
    obtain ⟨-, ⟨⟩⟩ := Option.ite_none_left_eq_some.mp hstep
    exact h.audio
  | disconnect =>
    obtain ⟨-, ⟨⟩⟩ := Option.ite_none_left_eq_some.mp hstep
    exact h.released rfl rfl rfl rfl rfl rfl rfl
  | exhausted =>
    obtain ⟨-, ⟨⟩⟩ := Option.ite_none_left_eq_some.mp hstep
    exact h.released rfl rfl rfl rfl rfl rfl rfl
  | engineCloses =>
    obtain ⟨haudio, ⟨⟩⟩ := Option.ite_none_right_eq_some.mp hstep
    have hmetered : s.metered = false := by simpa [keepsMetered] using hkeeps
    exact h.engineLost hmetered (by simp [haudio]) (some false) (by simp)
  | tick outcome =>
    rw [ExtensionSession.step.eq_def] at hstep
    cases hm : s.meterCancel with
    | none => simp [hm] at hstep
    | some m =>
      simp only [hm, Option.ite_none_right_eq_some, Option.some.injEq] at hstep
      obtain ⟨hrunning, rfl⟩ := hstep
      exact h.tick hm hrunning (by simpa [keepsMetered] using hkeeps)
  | lateTick i outcome =>
    rw [ExtensionSession.step.eq_def] at hstep
    cases hi : s.cancelled[i]? with
    | none => simp [hi] at hstep
    | some m =>
      simp only [hi, Option.some.injEq] at hstep
      subst hstep
      exact h.signal (ticked m outcome) _
  | noticed i =>
    obtain ⟨-, ⟨⟩⟩ := Option.ite_none_right_eq_some.mp hstep
    exact { h with }
  | translated i answer =>
    rw [ExtensionSession.step.eq_def] at hstep
    cases hi : s.requests[i]? with
    | none => simp [hi] at hstep
    | some request =>
      simp only [hi, Option.some.injEq] at hstep
      subst hstep
      exact h.translated hi _

/-- A browser tab on a tier whose audio passes through the server. -/
def tabAudio (usageSession : Option Uuid) : ExtensionConfig where
  engineId := "standard"
  clientDirect := false
  costScalesPerLanguage := false
  usageSession := usageSession

end ExtensionSession

end VoxTranslate.Metering
