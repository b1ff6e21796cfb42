import VoxTranslate.Lib.Assoc
import VoxTranslate.Lib.Run

/-!
# The client-direct pipelines

For every remote peer whose language differs from the listener's, the manager runs one pipeline
over the peer's audio.  A pipeline is started in two steps, with the mint of a session between
them, and the second step looks only at some of what the first has looked at.  The maps of the
manager are kept here as one entry for each peer.
-/

namespace VoxTranslate.Client

open Lib

/-- An audio stream of a peer. -/
structure MediaStream where
  id : Nat
  audioTracks : Nat
  deriving DecidableEq, Repr

/-- A running pipeline, with the stream that its capture is wired to. -/
structure Pipeline where
  stream : MediaStream
  sourceLang : String
  attempt : Nat
  deriving DecidableEq, Repr

/-- A call of `startPipeline` that waits for its session. -/
structure Start where
  stream : MediaStream
  sourceLang : String
  attempt : Nat
  deriving DecidableEq, Repr

/-- A timer that is pending. -/
structure RetryTimer where
  id : Nat
  attempt : Nat
  deriving DecidableEq, Repr

/-- `RETRY_BACKOFF_MS.length`. -/
def maxRetries : Nat := 3

/-- What the manager knows of one peer. -/
structure CartesiaPeer where
  stream : Option MediaStream
  lang : Option String
  pipeline : Option Pipeline
  /-- The handle in `retryTimers`. -/
  retryTimer : Option Nat
  gaveUp : Bool
  starting : List Start
  /-- The pipelines that were not stopped. -/
  running : List Pipeline
  /-- The timers that were neither cleared nor fired. -/
  timers : List RetryTimer
  nextTimer : Nat
  /-- A socket was opened for the peer, once. -/
  opened : Bool
  deriving DecidableEq, Repr

namespace CartesiaPeer

def new : CartesiaPeer := ⟨none, none, none, none, false, [], [], [], 0, false⟩

/-- The stream and the language to translate, where the peer is wanted. -/
def wanted (p : CartesiaPeer) (active : Bool) (myLang : String) : Option (MediaStream × String) :=
  match p.stream, p.lang with
  | some stream, some lang =>
    if active && lang ≠ "" && lang ≠ "auto" && lang ≠ myLang then some (stream, lang) else none
  | _, _ => none

/-- The peer is one of `peerIds`. -/
def known (p : CartesiaPeer) : Bool := p.stream.isSome || p.lang.isSome

def stopPipeline (p : CartesiaPeer) : CartesiaPeer :=
  match p.pipeline with
  | none => p
  | some pipe => { p with pipeline := none, running := p.running.erase pipe }

def clearRetry (p : CartesiaPeer) : CartesiaPeer :=
  match p.retryTimer with
  | none => p
  | some id => { p with retryTimer := none, timers := p.timers.filter fun t => t.id ≠ id }

/-- The first step of `startPipeline`: a session is asked for. -/
def startPipeline (p : CartesiaPeer) (stream : MediaStream) (sourceLang : String)
    (attempt : Nat) : CartesiaPeer :=
  if stream.audioTracks = 0 then p
  else { p with starting := p.starting ++ [⟨stream, sourceLang, attempt⟩] }

def reconcile (p : CartesiaPeer) (active : Bool) (myLang : String) (targetChanged : Bool) :
    CartesiaPeer :=
  if p.gaveUp then p
  else
    match p.wanted active myLang with
    | none => p.clearRetry.stopPipeline
    | some (stream, lang) =>
      if p.pipeline.any (fun pipe => pipe.sourceLang = lang) && !targetChanged then p
      else p.clearRetry.stopPipeline.startPipeline stream lang 0

def handleError (p : CartesiaPeer) : CartesiaPeer :=
  let attempt := (p.pipeline.map Pipeline.attempt).getD maxRetries
  let p := p.stopPipeline
  if attempt < maxRetries then
    { p with
      retryTimer := some p.nextTimer
      timers := p.timers ++ [⟨p.nextTimer, attempt⟩]
      nextTimer := p.nextTimer + 1 }
  else { p with gaveUp := true }

/-- The second step of `startPipeline`. -/
def sessionMinted (p : CartesiaPeer) (active : Bool) (start : Start) (session constructed : Bool) :
    CartesiaPeer :=
  if !session || !active || p.lang ≠ some start.sourceLang then p
  else if p.pipeline.isSome then p
  else if !constructed then p.handleError
  else
    let pipe : Pipeline := ⟨start.stream, start.sourceLang, start.attempt⟩
    { p with pipeline := some pipe, running := pipe :: p.running, opened := true }

def retryFired (p : CartesiaPeer) (active : Bool) (myLang : String) (timer : RetryTimer) :
    CartesiaPeer :=
  let p := { p with timers := p.timers.filter fun t => t.id ≠ timer.id, retryTimer := none }
  match p.wanted active myLang with
  | none => p
  | some (stream, lang) =>
    if p.gaveUp || p.pipeline.isSome then p
    else p.startPipeline stream lang (timer.attempt + 1)

def removed (p : CartesiaPeer) : CartesiaPeer :=
  { p.stopPipeline.clearRetry with gaveUp := false, stream := none, lang := none }

end CartesiaPeer

/-- `CartesiaManager`, as far as its pipelines go. -/
structure CartesiaManager where
  active : Bool
  myLang : String
  peers : Assoc String CartesiaPeer

inductive CartesiaEvent where
  | activate (myLang : String)
  | deactivate
  | setMyLang (lang : String)
  | setPeerStream (peerId : String) (stream : MediaStream)
  | setPeerLang (peerId lang : String)
  | removePeer (peerId : String)
  /-- The mint of one of the waiting starts is answered, with a session or with null; the socket
  may fail to be constructed. -/
  | minted (peerId : String) (i : Nat) (session constructed : Bool)
  /-- An error on a socket of the peer, or in its capture. -/
  | socketError (peerId : String)
  | retryFired (peerId : String) (i : Nat)
  deriving DecidableEq, Repr

namespace CartesiaManager

def new : CartesiaManager := ⟨false, "", ∅⟩

def peer (s : CartesiaManager) (peerId : String) : CartesiaPeer :=
  (s.peers.lookup peerId).getD .new

def modify (s : CartesiaManager) (peerId : String) (f : CartesiaPeer → CartesiaPeer) :
    CartesiaManager :=
  { s with peers := s.peers.insert peerId (f (s.peer peerId)) }

/-- A loop over the peers. -/
def forPeers (s : CartesiaManager) (f : CartesiaPeer → CartesiaPeer) : CartesiaManager :=
  { s with peers := s.peers.mapEntries fun p => some (f p) }

def activate (s : CartesiaManager) (myLang : String) : CartesiaManager :=
  { s with active := true, myLang }.forPeers fun p =>
    if p.known then p.reconcile true myLang false else p

def deactivate (s : CartesiaManager) : CartesiaManager :=
  { s with active := false }.forPeers CartesiaPeer.removed

def setMyLang (s : CartesiaManager) (lang : String) : CartesiaManager :=
  if lang = s.myLang then s
  else { s with myLang := lang }.forPeers fun p =>
    let p := { p with gaveUp := false }
    if p.known then p.reconcile s.active lang true else p

def setPeerStream (s : CartesiaManager) (peerId : String) (stream : MediaStream) :
    CartesiaManager :=
  s.modify peerId fun p =>
    { p with stream := some stream }.reconcile s.active s.myLang false

def setPeerLang (s : CartesiaManager) (peerId lang : String) : CartesiaManager :=
  if (s.peer peerId).lang = some lang then s
  else s.modify peerId fun p =>
    { p with lang := some lang, gaveUp := false }.reconcile s.active s.myLang false

/-- One event; `none` where it cannot happen. -/
def step (s : CartesiaManager) : CartesiaEvent → Option CartesiaManager
  | .activate myLang => some (s.activate myLang)
  | .deactivate => some s.deactivate
  | .setMyLang lang => some (s.setMyLang lang)
  | .setPeerStream peerId stream => some (s.setPeerStream peerId stream)
  | .setPeerLang peerId lang => some (s.setPeerLang peerId lang)
  | .removePeer peerId => some (s.modify peerId CartesiaPeer.removed)
  | .minted peerId i session constructed =>
    ((s.peer peerId).starting[i]?).map fun start => s.modify peerId fun p =>
      { p with starting := p.starting.eraseIdx i }.sessionMinted s.active start session constructed
  | .socketError peerId =>
    if (s.peer peerId).opened then some (s.modify peerId CartesiaPeer.handleError) else none
  | .retryFired peerId i =>
    ((s.peer peerId).timers[i]?).map fun timer =>
      s.modify peerId fun p => p.retryFired s.active s.myLang timer

end CartesiaManager

/-! ## The claim of a state -/

/-- A peer has one pipeline at most, it has one only when it is wanted and over what it is wanted
for, and it waits for one or has one when it is wanted, has audio and was not given up. -/
structure CartesiaPeer.Follows (p : CartesiaPeer) (active : Bool) (myLang : String) : Prop where
  single : p.running.length ≤ 1
  fed : ∀ pipe ∈ p.running, p.wanted active myLang = some (pipe.stream, pipe.sourceLang)
  served : ∀ stream lang, p.wanted active myLang = some (stream, lang) →
    stream.audioTracks ≠ 0 → p.gaveUp = false → p.running ≠ [] ∨ p.timers ≠ []

namespace CartesiaManager

/-- While no session is being minted, every peer is followed. -/
def FollowsRoom (s : CartesiaManager) : Prop :=
  (∀ peerId, (s.peer peerId).starting = []) →
    ∀ peerId, (s.peer peerId).Follows s.active s.myLang

/-- A peer that has a pipeline is given no other stream; a session that opens a pipeline finds the
peer wanted over the stream it was asked for; a mint that fails is not the only hope of a wanted
peer; and the manager is not activated in the language of a peer that was given up and has a
pipeline. -/
def keepsUp (s : CartesiaManager) : CartesiaEvent → Bool
  | .activate myLang =>
    s.peers.entries.all fun e =>
      !e.2.gaveUp || e.2.pipeline.all fun pipe => pipe.sourceLang ≠ myLang
  | .setPeerStream peerId stream => (s.peer peerId).pipeline.all fun pipe => pipe.stream = stream
  | .minted peerId i session constructed =>
    ((s.peer peerId).starting[i]?).all fun start =>
      let p := { s.peer peerId with starting := (s.peer peerId).starting.eraseIdx i }
      if session then
        !s.active || p.lang ≠ some start.sourceLang || p.pipeline.isSome || !constructed ||
          p.wanted s.active s.myLang = some (start.stream, start.sourceLang)
      else
        p.gaveUp || p.pipeline.isSome || !p.timers.isEmpty ||
          (p.wanted s.active s.myLang).all fun (stream, lang) =>
            stream.audioTracks == 0 || p.starting.any fun start => start.sourceLang = lang
  | _ => true

end CartesiaManager

/-! ## One peer -/

namespace CartesiaPeer

variable {p q : CartesiaPeer} {active targetChanged : Bool} {myLang lang : String}
  {stream : MediaStream} {attempt : Nat}

lemma wanted_congr (hstream : q.stream = p.stream) (hlang : q.lang = p.lang) :
    q.wanted active myLang = p.wanted active myLang := by
  rw [wanted, wanted, hstream, hlang]

/-- A peer is wanted over its stream in its language, by an active manager, when that is a known
language and not the listener's. -/
lemma wanted_eq_some : p.wanted active myLang = some (stream, lang) ↔
    p.stream = some stream ∧ p.lang = some lang ∧ active = true ∧
      lang ≠ "" ∧ lang ≠ "auto" ∧ lang ≠ myLang := by
  rw [wanted]
  split
  · next stream' lang' hstream hlang =>
    rw [hstream, hlang]
    split_ifs with hcond
    · simp only [Bool.and_eq_true, decide_eq_true_eq] at hcond
      simp only [Option.some.injEq, Prod.mk.injEq]
      constructor
      · rintro ⟨rfl, rfl⟩
        exact ⟨rfl, rfl, hcond.1.1.1, hcond.1.1.2, hcond.1.2, hcond.2⟩
      · rintro ⟨rfl, rfl, -⟩
        exact ⟨rfl, rfl⟩
    · constructor
      · intro h
        cases h
      rintro ⟨hs, hl, hactive, hempty, hauto, hmine⟩
      cases hs
      cases hl
      exact absurd (by simp [hactive, hempty, hauto, hmine]) hcond
  · next hno =>
    constructor
    · intro h
      cases h
    rintro ⟨hs, hl, -⟩
    exact absurd hl (hno _ _ hs)

@[simp] lemma stopPipeline_pipeline : p.stopPipeline.pipeline = none := by
  rw [stopPipeline]
  split
  · assumption
  · rfl

/-- Stopping concerns the pipeline only. -/
lemma stopPipeline_fields : p.stopPipeline.stream = p.stream ∧ p.stopPipeline.lang = p.lang ∧
    p.stopPipeline.gaveUp = p.gaveUp ∧ p.stopPipeline.starting = p.starting := by
  rw [stopPipeline]
  split <;> exact ⟨rfl, rfl, rfl, rfl⟩

lemma running_stopPipeline (h : p.running = p.pipeline.toList) : p.stopPipeline.running = [] := by
  rw [stopPipeline]
  split
  · next hnone =>
    rw [h, hnone]
    rfl
  · next pipe hsome => simp [h, hsome]

/-- Clearing concerns the timers only. -/
lemma clearRetry_fields : p.clearRetry.stream = p.stream ∧ p.clearRetry.lang = p.lang ∧
    p.clearRetry.running = p.running ∧ p.clearRetry.pipeline = p.pipeline := by
  rw [clearRetry]
  split <;> exact ⟨rfl, rfl, rfl, rfl⟩

lemma wanted_stopped :
    p.clearRetry.stopPipeline.wanted active myLang = p.wanted active myLang := by
  obtain ⟨hstream, hlang, -, -⟩ := stopPipeline_fields (p := p.clearRetry)
  obtain ⟨hstream', hlang', -, -⟩ := clearRetry_fields (p := p)
  exact wanted_congr (hstream.trans hstream') (hlang.trans hlang')

lemma running_stopped (h : p.running = p.pipeline.toList) :
    p.clearRetry.stopPipeline.running = [] := by
  obtain ⟨-, -, hrun, hpipe⟩ := clearRetry_fields (p := p)
  exact running_stopPipeline (by rw [hrun, hpipe, h])

lemma startPipeline_fields : (p.startPipeline stream lang attempt).stream = p.stream ∧
    (p.startPipeline stream lang attempt).lang = p.lang ∧
    (p.startPipeline stream lang attempt).pipeline = p.pipeline ∧
    (p.startPipeline stream lang attempt).running = p.running := by
  rw [startPipeline]
  split_ifs <;> exact ⟨rfl, rfl, rfl, rfl⟩

lemma mem_startPipeline (h : stream.audioTracks ≠ 0) :
    ⟨stream, lang, attempt⟩ ∈ (p.startPipeline stream lang attempt).starting := by
  rw [startPipeline, if_neg h]
  exact List.mem_append_right _ (List.mem_singleton_self _)

/-- The one pipeline of a peer is the one that runs, it is fed by what the peer is wanted for, and
a wanted peer has a pipeline, a timer, or a start under way. -/
structure Sound (p : CartesiaPeer) (active : Bool) (myLang : String) : Prop where
  running : p.running = p.pipeline.toList
  fed : ∀ pipe, p.pipeline = some pipe →
    p.wanted active myLang = some (pipe.stream, pipe.sourceLang)
  served : ∀ stream lang, p.wanted active myLang = some (stream, lang) →
    stream.audioTracks ≠ 0 → p.gaveUp = false →
    p.pipeline.isSome = true ∨ p.timers ≠ [] ∨ ∃ start ∈ p.starting, start.sourceLang = lang

lemma Sound.follows (h : p.Sound active myLang) (hnone : p.starting = []) :
    p.Follows active myLang where
  single := by
    rw [h.running]
    cases p.pipeline <;> simp
  fed pipe hpipe := by
    rw [h.running, Option.mem_toList] at hpipe
    exact h.fed pipe hpipe
  served stream lang hwanted haudio hgave := by
    rcases h.served stream lang hwanted haudio hgave with hpipe | htimer | ⟨start, hstart, -⟩
    · left
      obtain ⟨pipe, hsome⟩ := Option.isSome_iff_exists.mp hpipe
      simp [h.running, hsome]
    · exact .inr htimer
    · rw [hnone] at hstart
      cases hstart

/-- A peer without a pipeline that nobody waits for. -/
lemma sound_of_unwanted (hrun : p.running = []) (hpipe : p.pipeline = none)
    (hwanted : p.wanted active myLang = none) : p.Sound active myLang where
  running := by rw [hrun, hpipe]; rfl
  fed pipe h := by rw [hpipe] at h; cases h
  served stream lang h := by rw [hwanted] at h; cases h

lemma sound_new : new.Sound active myLang := sound_of_unwanted rfl rfl rfl

/-- The start of a wanted peer serves it. -/
lemma sound_startPipeline (hrun : p.running = []) (hpipe : p.pipeline = none)
    (hwanted : p.wanted active myLang = some (stream, lang)) :
    (p.startPipeline stream lang attempt).Sound active myLang := by
  obtain ⟨hstream', hlang', hpipe', hrun'⟩ :=
    @startPipeline_fields p lang stream attempt
  refine ⟨?_, fun pipe h => ?_, fun stream' lang' h haudio _ => ?_⟩
  · rw [hrun', hpipe', hrun, hpipe]
    rfl
  · rw [hpipe', hpipe] at h
    cases h
  · rw [wanted_congr hstream' hlang', hwanted] at h
    cases h
    exact .inr (.inr ⟨_, mem_startPipeline haudio, rfl⟩)

/-- **Reconciling a peer** makes it sound, if its pipeline is fed by its stream. -/
lemma sound_reconcile (hrun : p.running = p.pipeline.toList) (hgave : p.gaveUp = false)
    (hstream : ∀ pipe, p.pipeline = some pipe → p.stream = some pipe.stream) :
    (p.reconcile active myLang targetChanged).Sound active myLang := by
  rw [reconcile, hgave, if_neg Bool.false_ne_true]
  split
  · next hnone =>
    apply sound_of_unwanted (running_stopped hrun) stopPipeline_pipeline
    rwa [wanted_stopped]
  · next stream lang hwanted =>
    split_ifs with hsame
    · obtain ⟨hpipe, -⟩ := Bool.and_eq_true_iff.mp hsame
      refine ⟨hrun, fun pipe h => ?_, fun _ _ _ _ _ => .inl (Option.isSome_of_any hpipe)⟩
      rw [h, Option.any_some, decide_eq_true_eq] at hpipe
      obtain ⟨hof, -⟩ := wanted_eq_some.mp hwanted
      rw [hwanted, hpipe]
      cases hof.symm.trans (hstream pipe h)
      rfl
    · apply sound_startPipeline (running_stopped hrun) stopPipeline_pipeline
      rwa [wanted_stopped]

lemma Sound.stream_eq (h : p.Sound active myLang) (pipe : Pipeline)
    (hpipe : p.pipeline = some pipe) : p.stream = some pipe.stream :=
  (wanted_eq_some.mp (h.fed pipe hpipe)).1

/-- A peer that was given up is not reconciled. -/
lemma reconcile_of_gaveUp (h : p.gaveUp = true) :
    p.reconcile active myLang targetChanged = p := by rw [reconcile, if_pos h]

/-! ### One event -/

/-- A loop over the peers, or a change of the peer's language, after which it is not given up. -/
lemma Sound.reconcile {active' : Bool} {myLang' : String} (h : q.Sound active' myLang')
    (hrun : p.running = q.running) (hpipe : p.pipeline = q.pipeline)
    (hstream : p.stream = q.stream) (hgave : p.gaveUp = false) :
    (p.reconcile active myLang targetChanged).Sound active myLang := by
  refine sound_reconcile ?_ hgave fun pipe hp => ?_
  · rw [hrun, hpipe]
    exact h.running
  · rw [hstream]
    exact h.stream_eq pipe (hpipe ▸ hp)

/-- Nothing runs for a peer of which nothing is known. -/
lemma Sound.unknown {active' : Bool} {myLang' : String} (h : q.Sound active' myLang')
    (hrun : p.running = q.running) (hpipe : p.pipeline = q.pipeline)
    (hstream : p.stream = q.stream) (hknown : ¬ p.known = true) : p.Sound active myLang := by
  rw [known, Bool.or_eq_true, not_or, Option.not_isSome_iff_eq_none] at hknown
  have hnone : q.pipeline = none := by
    cases hp : q.pipeline with
    | none => rfl
    | some pipe => cases (hstream.symm.trans hknown.1).symm.trans (h.stream_eq pipe hp)
  refine sound_of_unwanted ?_ (hpipe.trans hnone) ?_
  · rw [hrun, h.running, hnone]
    rfl
  · rw [wanted, hknown.1]

lemma Sound.activate (h : p.Sound active myLang) {lang : String}
    (hguard : p.gaveUp = true → ∀ pipe, p.pipeline = some pipe → pipe.sourceLang ≠ lang) :
    (if p.known then p.reconcile true lang false else p).Sound true lang := by
  split_ifs with hknown
  · cases hgave : p.gaveUp with
    | false => exact h.reconcile rfl rfl rfl hgave
    | true =>
      rw [reconcile_of_gaveUp hgave]
      refine ⟨h.running, fun pipe hpipe => ?_, fun _ _ _ _ hfalse => ?_⟩
      · obtain ⟨hstream, hlang, -, hempty, hauto, -⟩ := wanted_eq_some.mp (h.fed pipe hpipe)
        exact wanted_eq_some.mpr ⟨hstream, hlang, rfl, hempty, hauto, hguard hgave pipe hpipe⟩
      · rw [hgave] at hfalse
        cases hfalse
  · exact h.unknown rfl rfl rfl hknown

lemma Sound.setPeerStream (h : p.Sound active myLang)
    (hguard : ∀ pipe, p.pipeline = some pipe → pipe.stream = stream) :
    ({ p with stream := some stream }.reconcile active myLang false).Sound active myLang := by
  rcases Bool.eq_false_or_eq_true p.gaveUp with hgave | hgave
  · rw [reconcile_of_gaveUp (p := { p with stream := some stream }) hgave]
    refine ⟨h.running, fun pipe hpipe => ?_, fun _ _ _ _ hfalse => ?_⟩
    · obtain ⟨-, hrest⟩ := wanted_eq_some.mp (h.fed pipe hpipe)
      exact wanted_eq_some.mpr ⟨by rw [hguard pipe hpipe], hrest⟩
    · cases hgave.symm.trans hfalse
  · exact sound_reconcile h.running hgave fun pipe hp => by rw [hguard pipe hp]

lemma Sound.removed (h : p.Sound active myLang) {active' : Bool} {myLang' : String} :
    p.removed.Sound active' myLang' := by
  obtain ⟨-, -, hrun, hpipe⟩ := clearRetry_fields (p := p.stopPipeline)
  exact sound_of_unwanted (hrun.trans (running_stopPipeline h.running))
    (hpipe.trans stopPipeline_pipeline) rfl

/-- After an error a peer waits for its timer, or is given up. -/
lemma Sound.handleError (h : p.Sound active myLang) : p.handleError.Sound active myLang := by
  have hrun : p.stopPipeline.running = [] := running_stopPipeline h.running
  have hpipe : p.stopPipeline.pipeline = none := stopPipeline_pipeline
  rw [CartesiaPeer.handleError]
  split_ifs with hattempt
  · refine ⟨by rw [hrun, hpipe]; rfl, fun pipe hp => ?_, fun _ _ _ _ _ => ?_⟩
    · cases hpipe.symm.trans hp
    · exact .inr (.inl (List.append_ne_nil_of_right_ne_nil _ (List.cons_ne_nil _ _)))
  · refine ⟨by rw [hrun, hpipe]; rfl, fun pipe hp => ?_, fun _ _ _ _ hgave => ?_⟩
    · cases hpipe.symm.trans hp
    · cases hgave

lemma Sound.sessionMinted (h : p.Sound active myLang) {i : Nat} {start : Start}
    {session constructed : Bool} (hi : p.starting[i]? = some start)
    (hlost : session = false → p.gaveUp = true ∨ p.pipeline.isSome = true ∨ p.timers ≠ [] ∨
      ∀ stream lang, p.wanted active myLang = some (stream, lang) →
        stream.audioTracks = 0 ∨ ∃ start ∈ p.starting.eraseIdx i, start.sourceLang = lang)
    (hopened : session = true → active = true → p.lang = some start.sourceLang →
      p.pipeline = none → constructed = true →
      p.wanted active myLang = some (start.stream, start.sourceLang)) :
    ({ p with starting := p.starting.eraseIdx i }.sessionMinted active start session
      constructed).Sound active myLang := by
  rw [CartesiaPeer.sessionMinted]
  split_ifs with hbail hpipe hconstructed
  · refine ⟨h.running, h.fed, fun stream lang hwanted haudio hgave => ?_⟩
    change p.wanted active myLang = some (stream, lang) at hwanted
    cases session with
    | false =>
      rcases hlost rfl with hgave' | hpipe | htimers | hother
      · cases hgave'.symm.trans hgave
      · exact .inl hpipe
      · exact .inr (.inl htimers)
      · rcases hother stream lang hwanted with hnone | hsome
        · exact absurd hnone haudio
        · exact .inr (.inr hsome)
    | true =>
      -- the start bails out because the language has changed: another one serves the peer
      obtain ⟨-, hlang, hactive, -⟩ := wanted_eq_some.mp hwanted
      have hne : start.sourceLang ≠ lang := by
        rintro rfl
        simp [hactive, hlang] at hbail
      rcases h.served stream lang hwanted haudio hgave with hpipe | htimers | ⟨other, hmem, heq⟩
      · exact .inl hpipe
      · exact .inr (.inl htimers)
      · refine .inr (.inr ⟨other, ?_, heq⟩)
        obtain ⟨j, hj⟩ := List.mem_iff_getElem?.mp hmem
        refine List.mem_eraseIdx_iff_getElem?.mpr ⟨j, ?_, hj⟩
        rintro rfl
        cases hi.symm.trans hj
        exact hne heq
  · exact ⟨h.running, h.fed, fun _ _ _ _ _ => .inl hpipe⟩
  · have hnone : p.pipeline = none := Option.not_isSome_iff_eq_none.mp hpipe
    have hrun : p.running = [] := by rw [h.running, hnone]; rfl
    simp only [CartesiaPeer.handleError, stopPipeline, hnone, Option.map_none, Option.getD_none,
      lt_irrefl, if_false]
    refine ⟨hrun, fun pipe hp => ?_, fun _ _ _ _ hgave => ?_⟩
    · cases hp
    · cases hgave
  · have hnone : p.pipeline = none := Option.not_isSome_iff_eq_none.mp hpipe
    simp only [Bool.or_eq_true, Bool.not_eq_true', decide_eq_true_eq, not_or, Bool.not_eq_false,
      not_not] at hbail hconstructed
    refine ⟨by simp [h.running, hnone], fun pipe hp => ?_, fun _ _ _ _ _ => .inl rfl⟩
    cases hp
    exact hopened hbail.1.1 hbail.1.2 hbail.2 hnone hconstructed

lemma Sound.retryFired (h : p.Sound active myLang) (timer : RetryTimer) :
    (p.retryFired active myLang timer).Sound active myLang := by
  rw [CartesiaPeer.retryFired]
  split
  · next hnone =>
    refine ⟨h.running, h.fed, fun stream lang hwanted => ?_⟩
    cases hnone.symm.trans hwanted
  · next stream lang hwanted =>
    split_ifs with hidle
    · refine ⟨h.running, h.fed, fun _ _ _ _ hgave => ?_⟩
      rcases Bool.or_eq_true_iff.mp hidle with hgave' | hpipe
      · cases hgave'.symm.trans hgave
      · exact .inl hpipe
    · have hnone : p.pipeline = none := by
        rw [Bool.or_eq_true, not_or] at hidle
        exact Option.not_isSome_iff_eq_none.mp hidle.2
      refine sound_startPipeline ?_ hnone hwanted
      exact h.running.trans (by rw [hnone]; rfl)

end CartesiaPeer

/-! ## The room -/

namespace CartesiaManager

variable {s t : CartesiaManager} {event : CartesiaEvent} {peerId other : String}
  {f : CartesiaPeer → CartesiaPeer}

/-- Every peer is sound. -/
def Inv (s : CartesiaManager) : Prop := ∀ peerId, (s.peer peerId).Sound s.active s.myLang

lemma peer_modify_self : (s.modify peerId f).peer peerId = f (s.peer peerId) := by
  rw [peer, modify, AList.lookup_insert, Option.getD_some]

lemma peer_modify_of_ne (h : other ≠ peerId) : (s.modify peerId f).peer other = s.peer other := by
  rw [peer, modify, AList.lookup_insert_ne h, peer]

lemma peer_forPeers (hf : f .new = .new) : (s.forPeers f).peer peerId = f (s.peer peerId) := by
  rw [peer, forPeers, Assoc.lookup_mapEntries, peer]
  cases s.peers.lookup peerId with
  | none => exact hf.symm
  | some p => rfl

lemma Inv.modify (h : s.Inv) (hf : (f (s.peer peerId)).Sound s.active s.myLang) :
    (s.modify peerId f).Inv := by
  intro id
  by_cases hid : id = peerId
  · subst hid
    rw [peer_modify_self]
    exact hf
  · rw [peer_modify_of_ne hid]
    exact h id

lemma Inv.activate (h : s.Inv) {myLang : String}
    (hguard : s.keepsUp (.activate myLang) = true) : (s.activate myLang).Inv := by
  intro id
  rw [CartesiaManager.activate, peer_forPeers rfl]
  refine (h id).activate fun hgave pipe hpipe => ?_
  rw [keepsUp, List.all_eq_true] at hguard
  cases hlookup : s.peers.lookup id with
  | none =>
    rw [peer, hlookup] at hgave
    cases hgave
  | some p =>
    have hpeer : s.peer id = p := by rw [peer, hlookup, Option.getD_some]
    have hentry := hguard ⟨id, p⟩ (AList.mem_lookup_iff.mp hlookup)
    rw [hpeer] at hgave hpipe
    simpa [hgave, hpipe] using hentry

lemma Inv.setMyLang (h : s.Inv) {lang : String} : (s.setMyLang lang).Inv := by
  rw [CartesiaManager.setMyLang]
  split_ifs
  · exact h
  · intro id
    rw [peer_forPeers rfl]
    dsimp only [forPeers]
    split_ifs with hknown
    · exact (h id).reconcile rfl rfl rfl rfl
    · exact (h id).unknown rfl rfl rfl hknown

/-- **One event** that keeps up. -/
lemma Inv.step (h : s.Inv) (hguard : s.keepsUp event = true) (hstep : s.step event = some t) :
    t.Inv := by
  cases event with
  | activate myLang =>
    cases hstep
    exact h.activate hguard
  | deactivate =>
    cases hstep
    intro id
    rw [CartesiaManager.deactivate, peer_forPeers rfl]
    exact (h id).removed
  | setMyLang lang =>
    cases hstep
    exact h.setMyLang
  | setPeerStream peerId stream =>
    cases hstep
    refine h.modify ((h peerId).setPeerStream fun pipe hpipe => ?_)
    rw [keepsUp, hpipe] at hguard
    exact of_decide_eq_true hguard
  | setPeerLang peerId lang =>
    cases hstep
    rw [setPeerLang]
    split_ifs
    · exact h
    · exact h.modify ((h peerId).reconcile rfl rfl rfl rfl)
  | removePeer peerId =>
    cases hstep
    exact h.modify (h peerId).removed
  | minted peerId i session constructed =>
    obtain ⟨start, hi, rfl⟩ := Option.map_eq_some_iff.mp hstep
    rw [keepsUp, hi, Option.all_some] at hguard
    refine h.modify ((h peerId).sessionMinted hi ?_ ?_)
    · rintro rfl
      simp only [Bool.false_eq_true, if_false, Bool.or_eq_true, Bool.not_eq_true',
        List.isEmpty_eq_false_iff] at hguard
      rcases hguard with ((hgave | hpipe) | htimers) | hother
      · exact .inl hgave
      · exact .inr (.inl hpipe)
      · exact .inr (.inr (.inl htimers))
      · refine .inr (.inr (.inr fun stream lang hwanted => ?_))
        have hwanted' : CartesiaPeer.wanted
            { s.peer peerId with starting := (s.peer peerId).starting.eraseIdx i }
            s.active s.myLang = some (stream, lang) := hwanted
        rw [hwanted', Option.all_some] at hother
        simpa using hother
    · rintro rfl hactive hlang hpipe hconstructed
      simp only [if_true, Bool.or_eq_true, Bool.not_eq_true', decide_eq_true_eq] at hguard
      rcases hguard with (((hidle | hchanged) | hrunning) | hrefused) | hwanted
      · cases hidle.symm.trans hactive
      · exact absurd hlang hchanged
      · rw [hpipe] at hrunning
        cases hrunning
      · cases hrefused.symm.trans hconstructed
      · exact hwanted
  | socketError peerId =>
    rw [step] at hstep
    split_ifs at hstep
    cases hstep
    exact h.modify (h peerId).handleError
  | retryFired peerId i =>
    obtain ⟨timer, -, rfl⟩ := Option.map_eq_some_iff.mp hstep
    exact h.modify ((h peerId).retryFired timer)

lemma inv_new : new.Inv := fun _ => CartesiaPeer.sound_new

/-- **The pipelines follow the room** in every state of a run whose events keep up. -/
theorem followsRoom_of_run {events : List CartesiaEvent}
    (hrun : Run (Guarded (ofPartial step) fun s event => s.keepsUp event = true) new events s) :
    s.FollowsRoom := by
  have hinv : s.Inv := hrun.invariant Inv (fun _ _ _ _ h hstep => h.step hstep.1 hstep.2) inv_new
  exact fun hnone peerId => (hinv peerId).follows (hnone peerId)

/-- A peer changes its language, its pipeline fails and is retried, and the listener takes the
language of the other peer. -/
theorem followsRoom_sample : ∃ events s,
    Run (Guarded (ofPartial step) fun s event => s.keepsUp event = true) new events s ∧
      s.FollowsRoom ∧ (s.peer "ann").running = [⟨⟨1, 1⟩, "fr", 1⟩] ∧ (s.peer "bob").running = [] := by
  let events : List CartesiaEvent :=
    [.activate "it", .setPeerLang "ann" "en", .setPeerStream "ann" ⟨1, 1⟩,
      .minted "ann" 0 true true, .setPeerLang "bob" "es", .setPeerStream "bob" ⟨2, 1⟩,
      .setPeerLang "ann" "fr", .minted "bob" 0 true true, .minted "ann" 0 true true,
      .socketError "ann", .retryFired "ann" 0, .setMyLang "es", .minted "ann" 0 true true,
      .minted "ann" 0 true true]
  obtain ⟨s, hrun, hann, hbob⟩ : ∃ s,
      Run (Guarded (ofPartial step) fun s event => s.keepsUp event = true) new events s ∧
        (s.peer "ann").running = [⟨⟨1, 1⟩, "fr", 1⟩] ∧ (s.peer "bob").running = [] :=
    Run.exists_guarded_of_decide (by decide +kernel)
  exact ⟨events, s, hrun, followsRoom_of_run hrun, hann, hbob⟩

/-- A peer keeps the pipeline over its old stream; a mint that fails leaves a peer without anything;
and a pipeline starts for a peer whose language has become the listener's. -/
theorem stream_not_followed :
    (∃ events s, Run (ofPartial step) new events s ∧ ¬ s.FollowsRoom ∧
      (s.peer "ann").stream = some ⟨2, 1⟩ ∧ (s.peer "ann").running = [⟨⟨1, 1⟩, "en", 0⟩]) ∧
    (∃ events s, Run (ofPartial step) new events s ∧ ¬ s.FollowsRoom ∧
      (s.peer "ann").gaveUp = false ∧ (s.peer "ann").running = [] ∧ (s.peer "ann").timers = []) ∧
    ∃ events s, Run (ofPartial step) new events s ∧ ¬ s.FollowsRoom ∧
      s.myLang = "en" ∧ (s.peer "ann").running = [⟨⟨1, 1⟩, "en", 0⟩] := by
  have hothers : ∀ {s : CartesiaManager}, s.peers.keys = ["ann"] → (s.peer "ann").starting = [] →
      ∀ peerId, (s.peer peerId).starting = [] := by
    intro s hkeys hann peerId
    by_cases heq : peerId = "ann"
    · rw [heq, hann]
    · have hnone : s.peers.lookup peerId = none := by
        rw [AList.lookup_eq_none, AList.mem_keys, hkeys]
        simpa using heq
      rw [peer, hnone]
      rfl
  refine ⟨?_, ?_, ?_⟩
  · obtain ⟨s, hrun, hkeys, hstarting, hstream, hrunning⟩ : ∃ s, Run (ofPartial step) new
        [.activate "it", .setPeerLang "ann" "en", .setPeerStream "ann" ⟨1, 1⟩,
          .minted "ann" 0 true true, .setPeerStream "ann" ⟨2, 1⟩] s ∧ s.peers.keys = ["ann"] ∧
        (s.peer "ann").starting = [] ∧ (s.peer "ann").stream = some ⟨2, 1⟩ ∧
        (s.peer "ann").running = [⟨⟨1, 1⟩, "en", 0⟩] := Run.exists_of_decide (by decide +kernel)
    refine ⟨_, s, hrun, fun h => ?_, hstream, hrunning⟩
    have hfed := (h (hothers hkeys hstarting) "ann").fed _ (hrunning ▸ List.mem_singleton_self _)
    cases hstream.symm.trans (CartesiaPeer.wanted_eq_some.mp hfed).1
  · obtain ⟨s, hrun, hkeys, hstarting, hwanted, hgave, hrunning, htimers⟩ : ∃ s,
        Run (ofPartial step) new [.activate "it", .setPeerLang "ann" "en",
          .setPeerStream "ann" ⟨1, 1⟩, .minted "ann" 0 false true] s ∧ s.peers.keys = ["ann"] ∧
        (s.peer "ann").starting = [] ∧
        (s.peer "ann").wanted s.active s.myLang = some (⟨1, 1⟩, "en") ∧
        (s.peer "ann").gaveUp = false ∧ (s.peer "ann").running = [] ∧
        (s.peer "ann").timers = [] := Run.exists_of_decide (by decide +kernel)
    refine ⟨_, s, hrun, fun h => ?_, hgave, hrunning, htimers⟩
    have hserved := (h (hothers hkeys hstarting) "ann").served _ _ hwanted (by decide) hgave
    rcases hserved with hnot | hnot
    · exact hnot hrunning
    · exact hnot htimers
  · obtain ⟨s, hrun, hkeys, hstarting, hlang, hrunning⟩ : ∃ s, Run (ofPartial step) new
        [.activate "it", .setPeerLang "ann" "en", .setPeerStream "ann" ⟨1, 1⟩, .setMyLang "en",
          .minted "ann" 0 true true] s ∧ s.peers.keys = ["ann"] ∧
        (s.peer "ann").starting = [] ∧ s.myLang = "en" ∧
        (s.peer "ann").running = [⟨⟨1, 1⟩, "en", 0⟩] := Run.exists_of_decide (by decide +kernel)
    refine ⟨_, s, hrun, fun h => ?_, hlang, hrunning⟩
    have hfed := (h (hothers hkeys hstarting) "ann").fed _ (hrunning ▸ List.mem_singleton_self _)
    obtain ⟨-, -, -, -, -, hne⟩ := CartesiaPeer.wanted_eq_some.mp hfed
    exact hne hlang.symm

end CartesiaManager

end VoxTranslate.Client
