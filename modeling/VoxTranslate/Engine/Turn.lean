import VoxTranslate.Engine.Registry
import VoxTranslate.Rooms.Routing

/-!
# One speaking turn, with the listeners paying

When a speaker starts, every engine a cross-language listener chose is opened on the same
audio, and the base tier after them.  Each session delivers to the listeners of its engine;
only when no other engine was opened does the base tier deliver to everybody.
-/

namespace VoxTranslate.Engine

open Rooms

/-- A session that was started, and whether it serves the listeners of its engine only. -/
structure EngineSession where
  engine : String
  listenerPays : Bool
  deriving DecidableEq, Repr

/-- The notice that an engine's listeners drop to another one. -/
structure EngineDowngraded where
  peerId : String
  fromEngine : String
  toEngine : String
  reason : String
  deriving DecidableEq, Repr

/-- What the `Start` of a speaker has opened and announced. -/
structure Turn where
  feeds : List EngineSession
  anyPremiumOk : Bool
  downgraded : List EngineDowngraded
  deriving DecidableEq, Repr

section Start

variable (registry : EngineRegistry) (m : RoomManager) (room id liveLang : String)

-- what `start_session` answers, for an engine and the mode it is asked to run in
variable (outcome : String → Bool → SessionOutcome)

/-- Open one engine alongside the base tier. -/
def openExtra (turn : Turn) (eid : String) : Turn :=
  match registry.get eid with
  | none => turn
  | some eng =>
    match outcome eng.id true with
    | .started => { turn with feeds := turn.feeds ++ [⟨eng.id, true⟩], anyPremiumOk := true }
    | .atCapacity | .failed =>
      { turn with downgraded := turn.downgraded ++ [⟨id, eid, standardId, "premium_at_capacity"⟩] }

/-- The engines the cross-language listeners demand. -/
def wantedEngines : List String :=
  extraEnginesForTurn ((m.translationRoutes room id liveLang).map TranslationRoute.engine)
    registry.speechEngines

/-- The base tier. -/
def baseEngine : EngineMetadata := (registry.get standardId).getD registry.defaultEngine

/-- `Start`: the demanded engines, and the base tier always. -/
def startTurn : Turn :=
  let turn := (wantedEngines registry m room id liveLang).foldl (openExtra registry id outcome)
    ⟨[], false, []⟩
  match outcome (baseEngine registry).id turn.anyPremiumOk with
  | .started => { turn with feeds := turn.feeds ++ [⟨(baseEngine registry).id, turn.anyPremiumOk⟩] }
  | .atCapacity | .failed => turn

/-- The languages a session translates into. -/
def EngineSession.targets (s : EngineSession) : List String :=
  (if s.listenerPays then m.targetLangsForEngine room id s.engine
    else m.getRoomLanguages room id).filter fun lang => lang ≠ liveLang

/-- Whom the output in one language is delivered to. -/
def EngineSession.deliver (s : EngineSession) (lang : String) (p : Peer) : Bool :=
  if s.listenerPays then p.lang = lang && p.engine = s.engine else p.lang = lang

/-- The session serves the peer: it translates into some language and delivers it there. -/
def EngineSession.serves (s : EngineSession) (p : Peer) : Bool :=
  (s.targets m room id liveLang).any fun lang => s.deliver lang p

/-- A peer the speaker is to be translated for. -/
def IsListener (p : Peer) : Prop :=
  p ∈ m.peersOf room ∧ p.id ≠ id ∧ p.lang ≠ autoLang ∧ p.lang ≠ liveLang

instance (p : Peer) : Decidable (IsListener m room id liveLang p) := inferInstanceAs (Decidable (_ ∧ _))

/-- The listener translates in the browser. -/
def isClientDirect (p : Peer) : Bool :=
  (registry.get p.engine).any fun e => e.capabilities.clientDirect

/-- The engine opens alongside the base tier when a listener demands it. -/
def startsAlongside (engine : String) : Prop :=
  engine ≠ standardId ∧ engine ∈ registry.speechEngines ∧ outcome engine true = .started

end Start

section Coverage

variable {registry : EngineRegistry} {m : RoomManager} {room id liveLang : String}
  {outcome : String → Bool → SessionOutcome} {p : Peer}

/-- A session serves the listeners it delivers to: its languages include theirs. -/
lemma serves_iff {s : EngineSession} (hp : IsListener m room id liveLang p) :
    s.serves m room id liveLang p = true ↔ (s.listenerPays = true → p.engine = s.engine) := by
  obtain ⟨hmem, hid, hauto, hlang⟩ := hp
  simp only [EngineSession.serves, EngineSession.targets, EngineSession.deliver, List.any_eq_true,
    List.mem_filter, decide_eq_true_eq]
  cases s.listenerPays with
  | true =>
    simp only [if_true, Bool.and_eq_true, decide_eq_true_eq, true_implies]
    constructor
    · rintro ⟨lang, -, -, hengine⟩
      exact hengine
    · intro hengine
      have htarget : p.lang ∈ m.targetLangsForEngine room id s.engine :=
        RoomManager.mem_targetLangsForEngine.mpr ⟨hauto, p, hmem, hid, hengine, rfl⟩
      exact ⟨p.lang, ⟨htarget, hlang⟩, rfl, hengine⟩
  | false =>
    have htarget : p.lang ∈ m.getRoomLanguages room id :=
      RoomManager.mem_getRoomLanguages.mpr ⟨hauto, p, hmem, hid, rfl⟩
    refine iff_of_true ⟨p.lang, ⟨?_, hlang⟩, ?_⟩ fun h => ?_
    · exact htarget
    · simp
    · cases h

/-- The engines that were opened alongside the base tier. -/
def extras (registry : EngineRegistry) (m : RoomManager) (room id liveLang : String)
    (outcome : String → Bool → SessionOutcome) : List String :=
  (wantedEngines registry m room id liveLang).filter fun eid => outcome eid true = .started

lemma nodup_extras : (extras registry m room id liveLang outcome).Nodup :=
  (nodup_extraEnginesForTurn _ _).filter _

/-- A listener's engine is open exactly when it starts alongside the base tier. -/
lemma mem_extras (hp : IsListener m room id liveLang p) :
    p.engine ∈ extras registry m room id liveLang outcome ↔ startsAlongside registry outcome p.engine := by
  obtain ⟨hmem, hid, hauto, hlang⟩ := hp
  have hchosen : p.engine ∈ (m.translationRoutes room id liveLang).map TranslationRoute.engine :=
    List.mem_map.mpr
      ⟨_, RoomManager.mem_translationRoutes.mpr ⟨p, hmem, hid, hauto, hlang, rfl⟩, rfl⟩
  simp only [extras, wantedEngines, List.mem_filter, mem_extraEnginesForTurn, decide_eq_true_eq,
    startsAlongside, and_assoc]
  exact and_iff_right hchosen

/-- Only listeners' engines are opened. -/
lemma extras_eq_nil :
    extras registry m room id liveLang outcome = [] ↔
      ∀ p, IsListener m room id liveLang p → ¬ startsAlongside registry outcome p.engine := by
  constructor
  · intro hnil p hp hstarts
    have := (mem_extras hp).mpr hstarts
    rw [hnil] at this
    cases this
  · intro hnone
    refine List.eq_nil_iff_forall_not_mem.mpr fun eid hmem => ?_
    have hwanted := (List.mem_filter.mp hmem).1
    obtain ⟨hchosen, -, -⟩ := mem_extraEnginesForTurn.mp hwanted
    obtain ⟨route, hroute, rfl⟩ := List.mem_map.mp hchosen
    obtain ⟨p, hmem', hid, hauto, hlang, rfl⟩ := RoomManager.mem_translationRoutes.mp hroute
    have hp : IsListener m room id liveLang p := ⟨hmem', hid, hauto, hlang⟩
    exact hnone p hp ((mem_extras hp).mp hmem)

/-- The registered engines that were demanded are opened one after the other. -/
lemma foldl_openExtra (id : String) (outcome : String → Bool → SessionOutcome) (turn : Turn)
    {eids : List String} (hreg : ∀ eid ∈ eids, (registry.get eid).isSome = true) :
    (eids.foldl (openExtra registry id outcome) turn).feeds = turn.feeds ++
      (eids.filter fun eid => outcome eid true = .started).map (fun eid => ⟨eid, true⟩) ∧
    (eids.foldl (openExtra registry id outcome) turn).anyPremiumOk =
      (turn.anyPremiumOk || !(eids.filter fun eid => outcome eid true = .started).isEmpty) := by
  induction eids generalizing turn with
  | nil => simp
  | cons eid eids ih =>
    obtain ⟨eng, heng⟩ := Option.isSome_iff_exists.mp (hreg eid List.mem_cons_self)
    obtain ⟨hfeeds, hany⟩ := ih (openExtra registry id outcome turn eid)
      fun e he => hreg e (List.mem_cons_of_mem _ he)
    rw [List.foldl_cons, hfeeds, hany]
    have hid := EngineRegistry.get_id heng
    cases h : outcome eid true <;> simp [openExtra, heng, hid, h]

/-- The demanded engines are registered. -/
lemma registered_of_wanted :
    ∀ eid ∈ wantedEngines registry m room id liveLang, (registry.get eid).isSome = true := by
  intro eid hmem
  obtain ⟨-, -, hspeech⟩ := mem_extraEnginesForTurn.mp hmem
  rw [EngineRegistry.get_isSome]
  obtain ⟨e, he, rfl⟩ := List.mem_map.mp hspeech
  exact List.mem_map_of_mem (List.mem_filter.mp he).1

/-- The sessions of a turn: those of the demanded engines that opened, and the base tier's. -/
lemma startTurn_feeds :
    (startTurn registry m room id liveLang outcome).feeds =
      (extras registry m room id liveLang outcome).map (fun eid => ⟨eid, true⟩) ++
        if outcome (baseEngine registry).id
          (!(extras registry m room id liveLang outcome).isEmpty) = .started
        then [⟨(baseEngine registry).id, !(extras registry m room id liveLang outcome).isEmpty⟩]
        else [] := by
  obtain ⟨hfeeds, hany⟩ := foldl_openExtra id outcome ⟨[], false, []⟩
    fun eid (h : eid ∈ wantedEngines registry m room id liveLang) => registered_of_wanted eid h
  rw [List.nil_append] at hfeeds
  rw [Bool.false_or] at hany
  unfold startTurn extras
  dsimp only
  rw [hany]
  split
  · next h => rw [if_pos h, hfeeds]
  · next h => rw [if_neg (by rw [h]; decide), hfeeds, List.append_nil]
  · next h => rw [if_neg (by rw [h]; decide), hfeeds, List.append_nil]

/-- The sessions of a turn whose base tier started. -/
lemma startTurn_feeds_of_standard
    (hstd : ∃ lp, ⟨standardId, lp⟩ ∈ (startTurn registry m room id liveLang outcome).feeds) :
    (startTurn registry m room id liveLang outcome).feeds =
      (extras registry m room id liveLang outcome).map (fun eid => ⟨eid, true⟩) ++
        [⟨standardId, !(extras registry m room id liveLang outcome).isEmpty⟩] := by
  obtain ⟨lp, hlp⟩ := hstd
  rw [startTurn_feeds] at hlp ⊢
  rcases List.mem_append.mp hlp with hmem | hmem
  · obtain ⟨eid, heid, heq⟩ := List.mem_map.mp hmem
    cases heq
    exact absurd rfl (mem_extraEnginesForTurn.mp (List.mem_filter.mp heid).1).2.1
  · split_ifs at hmem ⊢
    · have hbase := List.mem_singleton.mp hmem
      rw [← (EngineSession.mk.inj hbase).1]
    · cases hmem

/-- The engines whose sessions serve a listener: its own if that was opened, and the base tier
if that is its own or serves everybody. -/
lemma servedBy_eq (hp : IsListener m room id liveLang p)
    (hstd : ∃ lp, ⟨standardId, lp⟩ ∈ (startTurn registry m room id liveLang outcome).feeds) :
    ((startTurn registry m room id liveLang outcome).feeds.filter fun s =>
        s.serves m room id liveLang p).map EngineSession.engine =
      (if p.engine ∈ extras registry m room id liveLang outcome then [p.engine] else []) ++
        if p.engine = standardId ∨ extras registry m room id liveLang outcome = [] then [standardId]
        else [] := by
  rw [startTurn_feeds_of_standard hstd, List.filter_append, List.map_append]
  refine congrArg₂ (· ++ ·) ?_ ?_
  · -- of the demanded engines only the listener's own delivers to it
    have hown : ∀ eid, EngineSession.serves m room id liveLang ⟨eid, true⟩ p = decide (eid = p.engine) := by
      intro eid
      rw [Bool.eq_iff_iff, serves_iff hp, decide_eq_true_iff]
      exact ⟨fun h => (h rfl).symm, fun h _ => h.symm⟩
    rw [List.filter_map, List.map_map]
    simp only [Function.comp_def, hown, List.map_id']
    rw [List.filter_eq]
    split_ifs with hmem
    · rw [List.count_eq_one_of_mem nodup_extras hmem, List.replicate_one]
    · rw [List.count_eq_zero_of_not_mem hmem, List.replicate_zero]
  · have hbase : EngineSession.serves m room id liveLang
        ⟨standardId, !(extras registry m room id liveLang outcome).isEmpty⟩ p = true ↔
        p.engine = standardId ∨ extras registry m room id liveLang outcome = [] := by
      rw [serves_iff hp]
      cases extras registry m room id liveLang outcome <;> simp
    split_ifs with h
    · have hserves := hbase.mpr h
      simp [hserves]
    · have hserves := hbase.not.mpr h
      simp [hserves]

end Coverage

/-! ## Two premium engines -/

/-- An engine that streams audio. -/
def speechEngine (id : String) : EngineMetadata := ⟨id, ⟨true, true, false⟩⟩

/-- The base tier and two premium engines. -/
def threeEngines : EngineRegistry :=
  ⟨[speechEngine standardId, speechEngine openaiId, speechEngine geminiId],
    speechEngine standardId, List.mem_cons_self⟩

/-- A peer that receives in a language from an engine. -/
def listener (id : String) (conn : Uuid) (lang engine : String) : Peer :=
  ⟨id, conn, id, lang, none, engine, none, none, ⟨0, false, false⟩, false⟩

/-- A speaker and a listener of each premium engine. -/
def twoListeners : RoomManager :=
  ((((⟨∅, []⟩ : RoomManager).join "r" (listener "s" 1 "it" standardId) .private 9).1.join "r"
    (listener "a" 2 "en" openaiId) .private 9).1.join "r" (listener "b" 3 "fr" geminiId) .private 9).1

/-- Both engines open. -/
def roomy : String → Bool → SessionOutcome := fun _ _ => .started

/-- One of the two is at capacity. -/
def crowded (engine : String) (_ : Bool) : SessionOutcome :=
  if engine = geminiId then .atCapacity else .started

end VoxTranslate.Engine
