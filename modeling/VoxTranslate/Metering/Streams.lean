import VoxTranslate.Lib.Distinct
import VoxTranslate.Rooms.Departure
import VoxTranslate.Rooms.Routing

/-!
# What is billed and what is translated

A meter asks the registry, at every tick, how many streams to bill.  Where the speaker pays it
is the number of languages that are translated into; where the listeners pay, each is billed for
the sources it receives.  The translations themselves follow the routes.

The count of a listener's sources leaves out the speakers whose language is not known yet, while
the engines detect it and translate.  And it counts for a listener whose own language is not
known yet, into which nothing is translated.
-/

namespace VoxTranslate.Metering

open Rooms

/-- How many streams to bill for a tick; `none` when there is nothing to translate. -/
def billableStreams (targets : List String) (speakerLang : String) (scalePerLanguage : Bool) :
    Option Nat :=
  let distinct := (targets.filter fun t => t ≠ speakerLang).length
  if distinct = 0 then none else some (if scalePerLanguage then distinct else 1)

end VoxTranslate.Metering

namespace VoxTranslate.Rooms.RoomManager

open Lib Metering

variable (m : RoomManager) (room : String)

/-- How many cross-language sources a listener is receiving. -/
def activeSourceCount (listenerId listenerLang : String) : Nat :=
  ((m.peersOf room).filter fun p =>
    p.id ≠ listenerId && p.lang ≠ autoLang && p.lang ≠ listenerLang && p.speaking).length

/-- The speaking peers whose audio is translated for a listener. -/
def sourcesFor (listener : Peer) : List Peer :=
  (m.peersOf room).filter fun p =>
    p.speaking && (⟨listener.lang, listener.engine⟩ : TranslationRoute) ∈
      m.translationRoutes room p.id p.lang

/-- The distinct languages of a speaker's routes. -/
def routeLangs (speakerId speakerLang : String) : List String :=
  ((m.translationRoutes room speakerId speakerLang).map TranslationRoute.lang).eraseDups

/-- What is billed is what is translated: to each listener, to a speaker of either pricing, and
language by language for each engine. -/
structure MeteringAgrees : Prop where
  listener : ∀ l ∈ m.peersOf room,
    m.activeSourceCount room l.id l.lang = (m.sourcesFor room l).length
  perLanguage : ∀ speakerId speakerLang,
    billableStreams (m.getRoomLanguages room speakerId) speakerLang true =
      if m.translationRoutes room speakerId speakerLang = [] then none
      else some (m.routeLangs room speakerId speakerLang).length
  flat : ∀ speakerId speakerLang,
    billableStreams (m.getRoomLanguages room speakerId) speakerLang false =
      if m.translationRoutes room speakerId speakerLang = [] then none else some 1
  engine : ∀ speakerId speakerLang engine lang,
    (lang ∈ m.targetLangsForEngine room speakerId engine ∧ lang ≠ speakerLang) ↔
      ⟨lang, engine⟩ ∈ m.translationRoutes room speakerId speakerLang

/-- A listener is of unknown language exactly when everybody else who speaks is. -/
def UnknownTogether : Prop :=
  ∀ l ∈ m.peersOf room, ∀ p ∈ m.peersOf room, p.id ≠ l.id → p.speaking = true →
    (p.lang = autoLang ↔ l.lang = autoLang)

instance : Decidable (m.UnknownTogether room) :=
  inferInstanceAs (Decidable (∀ l ∈ m.peersOf room, _))

variable {m room}

/-! ## A listener's sources -/

/-- Who is in the room is known by the identifier. -/
lemma eq_of_id_eq {p q : Peer} (hp : p ∈ m.peersOf room) (hq : q ∈ m.peersOf room)
    (hid : p.id = q.id) : p = q := by
  cases hroom : m.getRoom room with
  | none => simp [peersOf, hroom] at hp
  | some r =>
    rw [peersOf_of_getRoom hroom] at hp hq
    exact List.inj_on_of_nodup_map r.ids_nodup hp hq hid

/-- A speaker is translated for a listener of a known language other than its own. -/
lemma sourcesFor_eq {l : Peer} (hl : l ∈ m.peersOf room) :
    m.sourcesFor room l = (m.peersOf room).filter fun p =>
      p.id ≠ l.id && l.lang ≠ autoLang && p.lang ≠ l.lang && p.speaking := by
  refine List.filter_congr fun p hp => ?_
  rw [Bool.eq_iff_iff]
  simp only [Bool.and_eq_true, decide_eq_true_eq, mem_translationRoutes, TranslationRoute.mk.injEq]
  constructor
  · rintro ⟨hspeaking, q, hq, hid, hauto, hlang, hl', -⟩
    rw [← hl'] at hauto hlang
    refine ⟨⟨⟨fun heq => hlang ?_, hauto⟩, fun heq => hlang heq.symm⟩, hspeaking⟩
    rw [eq_of_id_eq hp hl heq]
  · rintro ⟨⟨⟨hid, hauto⟩, hlang⟩, hspeaking⟩
    exact ⟨hspeaking, l, hl, fun heq => hid heq.symm, hauto, fun heq => hlang heq.symm, rfl, rfl⟩

/-- A listener is billed for what is translated for it exactly when everybody else who speaks is
of unknown language just in case the listener is. -/
lemma activeSourceCount_eq_iff {l : Peer} (hl : l ∈ m.peersOf room) :
    m.activeSourceCount room l.id l.lang = (m.sourcesFor room l).length ↔
      ∀ p ∈ m.peersOf room, p.id ≠ l.id → p.speaking = true →
        (p.lang = autoLang ↔ l.lang = autoLang) := by
  rw [sourcesFor_eq hl, activeSourceCount]
  by_cases hauto : l.lang = autoLang
  · have hnone : ((m.peersOf room).filter fun p =>
        p.id ≠ l.id && l.lang ≠ autoLang && p.lang ≠ l.lang && p.speaking) = [] := by
      simp [hauto]
    rw [hnone, List.length_nil, List.length_eq_zero_iff, List.filter_eq_nil_iff]
    refine forall₂_congr fun p hp => ?_
    simp only [hauto, Bool.and_eq_true, decide_eq_true_eq, iff_true]
    tauto
  · have hnested : ((m.peersOf room).filter fun p =>
        p.id ≠ l.id && p.lang ≠ autoLang && p.lang ≠ l.lang && p.speaking) =
        ((m.peersOf room).filter fun p =>
          p.id ≠ l.id && l.lang ≠ autoLang && p.lang ≠ l.lang && p.speaking).filter
          fun p => p.lang ≠ autoLang := by
      rw [List.filter_filter]
      refine List.filter_congr fun p _ => ?_
      rw [Bool.eq_iff_iff]
      simp only [hauto, Bool.and_eq_true, decide_eq_true_eq, ne_eq, not_false_eq_true, and_true]
      tauto
    rw [hnested, List.length_filter_eq_length_iff]
    simp only [hauto, List.mem_filter, Bool.and_eq_true, decide_eq_true_eq, ne_eq,
      not_false_eq_true, and_true, iff_false, and_imp]
    refine forall₂_congr fun p hp => ⟨fun h hid hspeaking hp' => ?_, fun h hid _ hspeaking => ?_⟩
    · refine h hid (fun heq => hauto ?_) hspeaking hp'
      rw [← heq, hp']
    · exact h hid hspeaking

/-! ## A speaker's languages -/

lemma mem_routeLangs {speakerId speakerLang lang : String} :
    lang ∈ m.routeLangs room speakerId speakerLang ↔
      lang ∈ m.getRoomLanguages room speakerId ∧ lang ≠ speakerLang := by
  simp only [routeLangs, List.mem_eraseDups, List.mem_map, mem_translationRoutes,
    mem_getRoomLanguages]
  constructor
  · rintro ⟨route, ⟨p, hp, hid, hauto, hlang, rfl⟩, rfl⟩
    exact ⟨⟨hauto, p, hp, hid, rfl⟩, hlang⟩
  · rintro ⟨⟨hauto, p, hp, hid, rfl⟩, hlang⟩
    exact ⟨_, ⟨p, hp, hid, hauto, hlang, rfl⟩, rfl⟩

lemma nodup_getRoomLanguages (speakerId : String) : (m.getRoomLanguages room speakerId).Nodup := by
  rw [getRoomLanguages]
  cases m.getRoom room with
  | none => exact List.nodup_nil
  | some r => exact nodup_eraseDups _

/-- The languages a speaker is billed for are those of its routes. -/
lemma length_targets (speakerId speakerLang : String) :
    ((m.getRoomLanguages room speakerId).filter fun t => t ≠ speakerLang).length =
      (m.routeLangs room speakerId speakerLang).length := by
  refine length_eq_of_mem_iff ((nodup_getRoomLanguages _).filter _) (nodup_eraseDups _)
    fun lang => ?_
  rw [mem_routeLangs, List.mem_filter, decide_eq_true_eq]

lemma length_routeLangs_eq_zero {speakerId speakerLang : String} :
    (m.routeLangs room speakerId speakerLang).length = 0 ↔
      m.translationRoutes room speakerId speakerLang = [] := by
  rw [List.length_eq_zero_iff, List.eq_nil_iff_forall_not_mem, List.eq_nil_iff_forall_not_mem]
  simp only [routeLangs, List.mem_eraseDups, List.mem_map, not_exists, not_and]
  constructor
  · intro h route hroute
    exact h route.lang route hroute rfl
  · intro h lang route hroute
    exact absurd hroute (h route)

lemma billableStreams_eq (speakerId speakerLang : String) (scale : Bool) :
    billableStreams (m.getRoomLanguages room speakerId) speakerLang scale =
      if m.translationRoutes room speakerId speakerLang = [] then none
      else some (if scale then (m.routeLangs room speakerId speakerLang).length else 1) := by
  simp only [billableStreams, length_targets, length_routeLangs_eq_zero]

/-- **When metering agrees with routing**: exactly when, of any two peers one of whom speaks, both
or neither are of unknown language. -/
theorem metering_agrees_iff (m : RoomManager) (room : String) :
    m.MeteringAgrees room ↔ m.UnknownTogether room := by
  constructor
  · intro h l hl
    exact (activeSourceCount_eq_iff hl).mp (h.listener l hl)
  · intro h
    refine
      { listener := fun l hl => (activeSourceCount_eq_iff hl).mpr (h l hl)
        perLanguage := fun speakerId speakerLang => billableStreams_eq speakerId speakerLang true
        flat := fun speakerId speakerLang => billableStreams_eq speakerId speakerLang false
        engine := fun speakerId speakerLang engine lang => ?_ }
    rw [mem_targetLangsForEngine, mem_translationRoutes]
    constructor
    · rintro ⟨⟨hauto, p, hp, hid, rfl, rfl⟩, hlang⟩
      exact ⟨p, hp, hid, hauto, hlang, rfl⟩
    · rintro ⟨p, hp, hid, hauto, hlang, heq⟩
      cases heq
      exact ⟨⟨hauto, p, hp, hid, rfl, rfl⟩, hlang⟩

/-- A room of two, the first of whom speaks. -/
def speaks (speakerLang listenerLang : String) : RoomManager :=
  (((⟨∅, []⟩ : RoomManager).join "r" (guest "a" 1 speakerLang) .private 9).1.join "r"
    (guest "b" 2 listenerLang) .private 10).1.setSpeaking "r" "a" true

/-- A listener whose language is not known yet is billed for an Italian speaker whom nobody
translates for it; and is not billed for a speaker of unknown language, who is translated. -/
theorem unknown_listener_billed :
    (speaks "it" "auto").activeSourceCount "r" "b" "auto" = 1 ∧
    (speaks "it" "auto").translationRoutes "r" "a" "it" = [] ∧
    (speaks "it" "auto").sourcesFor "r" (guest "b" 2 "auto") = [] ∧
    (speaks "auto" "en").activeSourceCount "r" "b" "en" = 0 ∧
    (speaks "auto" "en").translationRoutes "r" "a" "auto" = [⟨"en", "standard"⟩] ∧
    ((speaks "auto" "en").sourcesFor "r" (guest "b" 2 "en")).map Peer.id = ["a"] ∧
    ¬ (speaks "it" "auto").MeteringAgrees "r" ∧ ¬ (speaks "auto" "en").MeteringAgrees "r" := by
  have hcounts : (speaks "it" "auto").activeSourceCount "r" "b" "auto" = 1 ∧
      (speaks "it" "auto").translationRoutes "r" "a" "it" = [] ∧
      (speaks "it" "auto").sourcesFor "r" (guest "b" 2 "auto") = [] ∧
      (speaks "auto" "en").activeSourceCount "r" "b" "en" = 0 ∧
      (speaks "auto" "en").translationRoutes "r" "a" "auto" = [⟨"en", "standard"⟩] ∧
      ((speaks "auto" "en").sourcesFor "r" (guest "b" 2 "en")).map Peer.id = ["a"] := by
    decide +kernel
  have hlistener : guest "b" 2 "auto" ∈ (speaks "it" "auto").peersOf "r" := by decide +kernel
  have hspeaker : guest "b" 2 "en" ∈ (speaks "auto" "en").peersOf "r" := by decide +kernel
  obtain ⟨hbilled, hroutes, hnone, hfree, hroutes', hone⟩ := hcounts
  refine ⟨hbilled, hroutes, hnone, hfree, hroutes', hone, fun h => ?_, fun h => ?_⟩
  · have heq := h.listener _ hlistener
    rw [hnone] at heq
    exact absurd (hbilled.symm.trans heq) (by decide)
  · have heq := h.listener _ hspeaker
    rw [← List.length_map Peer.id, hone] at heq
    exact absurd (hfree.symm.trans heq) (by decide)

end VoxTranslate.Rooms.RoomManager
