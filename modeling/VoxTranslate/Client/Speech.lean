import VoxTranslate.Lib.Run

/-!
# Translated speech

The manager queues the lines and hands them one at a time to the installed voice or to the voice
of the browser, which takes over when the installed one fails.  A line of the installed voice waits
for the engine to load, for its synthesis and for the end of its playback; `stop` may come in any of
these waits.  Every call and every answer runs to its end, with what it resumes, before the next.
Which voice of a provider reads a line is left out, and so is the notice of a fallback.
-/

namespace VoxTranslate.Client.Speech

open Lib

/-- Lines that may wait; past it the oldest are dropped. -/
def queueCap : Nat := 8

def healthStartupMs : Nat := 1500

def healthMaxStrikes : Nat := 3

/-- A line to be spoken; the number counts the lines in the order they were queued. -/
structure Line where
  id : Nat
  text : String
  lang : String
  /-- System phrases are always read by the browser. -/
  system : Bool
  deriving DecidableEq, Repr

/-- The user's engine preference. -/
inductive EnginePref where
  | auto
  | browser
  | vox
  deriving DecidableEq, Repr

/-- What does not change during a session: the preference, the verdict of the benchmark, the
languages of the installed voice, and whether the browser can speak at all. -/
structure Setup where
  pref : EnginePref
  benchmarkPassed : Bool
  vox : Option (String → Bool)
  browserAvailable : Bool

structure HealthMonitor where
  strikes : Nat
  degraded : Bool
  deriving DecidableEq, Repr

/-- Record the startup latency of one line; only a streak of slow ones degrades. -/
def HealthMonitor.record (h : HealthMonitor) (ms : Nat) : HealthMonitor :=
  if h.degraded then h
  else if healthStartupMs < ms then
    { strikes := h.strikes + 1, degraded := healthMaxStrikes ≤ h.strikes + 1 }
  else { h with strikes := 0 }

inductive TTSProvider where
  | browser
  | vox
  deriving DecidableEq, Repr

/-- Which provider serves a line right now. -/
def chooseProvider (c : Setup) (health : HealthMonitor) (line : Line) : TTSProvider :=
  if line.system || health.degraded || c.pref = .browser then .browser
  else if (c.vox.any fun supports => supports line.lang) = false then .browser
  else if c.pref = .vox || c.benchmarkPassed then .vox
  else .browser

/-! ## Playback -/

/-- A buffer source is started, then audible, then over: ended, stopped, or never started. -/
inductive SourceState where
  | started
  | audible
  | over
  deriving DecidableEq, Repr

structure Source where
  line : Line
  /-- `onended` is attached. -/
  handled : Bool
  state : SourceState
  deriving DecidableEq, Repr

structure PlaybackService where
  sources : List Source
  /-- The current source, by its position. -/
  current : Option Nat
  deriving DecidableEq, Repr

/-- What starting a source comes to. -/
inductive PlayOutcome where
  | noContext
  | startThrows
  | started
  deriving DecidableEq, Repr

/-- Play one line; the source whose end it resolves with, `none` where it rejects. -/
def PlaybackService.play (p : PlaybackService) (line : Line) :
    PlayOutcome → PlaybackService × Option Nat
  | .noContext => (p, none)
  | .startThrows => (⟨p.sources ++ [⟨line, true, .over⟩], some p.sources.length⟩, none)
  | .started =>
    (⟨p.sources ++ [⟨line, true, .started⟩], some p.sources.length⟩, some p.sources.length)

/-- Stop the current source.  Its `onended` is detached first. -/
def PlaybackService.stop (p : PlaybackService) : PlaybackService where
  sources := match p.current with
    | none => p.sources
    | some i => p.sources.modify i fun src => { src with handled := false, state := .over }
  current := none

/-- The handler of the end of a source. -/
def PlaybackService.onended (p : PlaybackService) (i : Nat) : PlaybackService :=
  if p.current = some i then { p with current := none } else p

def PlaybackService.setState (p : PlaybackService) (i : Nat) (src : Source) (state : SourceState) :
    PlaybackService :=
  { p with sources := p.sources.set i { src with state } }

/-! ## The manager -/

/-- An utterance the browser was given. -/
inductive Utterance where
  | waiting
  | audible
  | cancelled
  deriving DecidableEq, Repr

/-- What the pump waits for. -/
inductive Wait where
  | load (line : Line)
  | synth (line : Line)
  | play (line : Line) (source : Nat)
  | browser (line : Line) (utterance : Utterance)
  deriving DecidableEq, Repr

/-- The manager with its providers.  The last four fields only record: how many lines were queued,
and which of them were handed to a provider, dropped by the cap, and cleared by a stop. -/
structure TTSManager where
  queue : List Line
  /-- `none` while the pump does not run. -/
  pump : Option Wait
  engine : Bool
  health : HealthMonitor
  playback : PlaybackService
  queued : Nat
  handed : List Nat
  dropped : List Nat
  cleared : List Nat
  deriving DecidableEq, Repr

inductive SpeechEvent where
  | speak (text lang : String)
  | speakSystem (text lang : String)
  | stop
  | loadSettled (ok : Bool)
  | synthFailed
  | synthesised (ms : Nat) (outcome : PlayOutcome)
  | sourceSounds (source : Nat)
  | sourceEnded (source : Nat)
  | utteranceSounds
  | utteranceSettled
  /-- Nothing happens. -/
  | idle
  deriving DecidableEq, Repr

namespace TTSManager

def new : TTSManager where
  queue := []
  pump := none
  engine := false
  health := ⟨0, false⟩
  playback := ⟨[], none⟩
  queued := 0
  handed := []
  dropped := []
  cleared := []

/-- The loop of the pump, from where it takes the next line off the queue.  A browser that cannot
speak is done with a line at once. -/
def pumpLoop (c : Setup) : List Line → TTSManager → TTSManager
  | [], s => { s with queue := [], pump := none }
  | line :: queue, s =>
    let s := { s with handed := line.id :: s.handed }
    match chooseProvider c s.health line with
    | .vox => { s with queue, pump := some (if s.engine then .synth line else .load line) }
    | .browser =>
      if c.browserAvailable then { s with queue, pump := some (.browser line .waiting) }
      else pumpLoop c queue s

/-- The installed voice failed on a line: the browser reads it. -/
def fallback (c : Setup) (s : TTSManager) (line : Line) : TTSManager :=
  if c.browserAvailable then { s with pump := some (.browser line .waiting) }
  else s.pumpLoop c s.queue

def enqueue (c : Setup) (s : TTSManager) (text lang : String) (system : Bool) : TTSManager :=
  let queue := s.queue ++ [⟨s.queued, text, lang, system⟩]
  let excess := queue.length - queueCap
  let s := { s with
    queue := queue.drop excess
    queued := s.queued + 1
    dropped := (queue.take excess).map Line.id ++ s.dropped }
  if s.pump.isSome then s else s.pumpLoop c s.queue

def stop (c : Setup) (s : TTSManager) : TTSManager :=
  { s with
    queue := []
    cleared := s.queue.map Line.id ++ s.cleared
    pump := match s.pump with
      | some (.browser line _) => some (.browser line .cancelled)
      | pump => pump
    playback := if c.vox.isSome then s.playback.stop else s.playback }

/-- The engine loaded, or did not; a load that fails is tried again with the next line. -/
def loadSettled (c : Setup) (s : TTSManager) (line : Line) (ok : Bool) : TTSManager :=
  if ok then { s with engine := true, pump := some (.synth line) } else s.fallback c line

/-- A line was synthesised, and its playback is started. -/
def synthesised (c : Setup) (s : TTSManager) (line : Line) (ms : Nat) (outcome : PlayOutcome) :
    TTSManager :=
  let s := { s with health := s.health.record ms }
  match s.playback.play line outcome with
  | (playback, some i) => { s with playback, pump := some (.play line i) }
  | (playback, none) => { s with playback }.fallback c line

/-- One event; `none` where it cannot happen. -/
def step (c : Setup) (s : TTSManager) : SpeechEvent → Option TTSManager
  | .speak text lang => some (s.enqueue c text lang false)
  | .speakSystem text lang => some (s.enqueue c text lang true)
  | .stop => some (s.stop c)
  | .loadSettled ok =>
    match s.pump with
    | some (.load line) => some (s.loadSettled c line ok)
    | _ => none
  | .synthFailed =>
    match s.pump with
    | some (.synth line) => some (s.fallback c line)
    | _ => none
  | .synthesised ms outcome =>
    match s.pump with
    | some (.synth line) => some (s.synthesised c line ms outcome)
    | _ => none
  | .sourceSounds i =>
    match s.playback.sources[i]? with
    | some ⟨line, handled, .started⟩ =>
      some { s with playback := s.playback.setState i ⟨line, handled, .started⟩ .audible }
    | _ => none
  | .sourceEnded i =>
    match s.playback.sources[i]? with
    | some ⟨_, _, .over⟩ | none => none
    | some src =>
      let s := { s with playback := s.playback.setState i src .over }
      if src.handled then
        let s := { s with playback := s.playback.onended i }
        match s.pump with
        | some (.play _ j) => some (if i = j then s.pumpLoop c s.queue else s)
        | _ => some s
      else some s
  | .utteranceSounds =>
    match s.pump with
    | some (.browser line .waiting) => some { s with pump := some (.browser line .audible) }
    | _ => none
  | .utteranceSettled =>
    match s.pump with
    | some (.browser _ _) => some (s.pumpLoop c s.queue)
    | _ => none
  | .idle => some s

end TTSManager

end VoxTranslate.Client.Speech
