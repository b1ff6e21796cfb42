import VoxTranslate.Rooms.Manager

/-!
# Who is to be translated for

The language and engine queries of the registry, and the sends that are addressed by them.
The marker `"auto"` stands for a language that is not yet known and is never a target.
-/

namespace VoxTranslate.Rooms

/-- The marker of a language that is not yet known. -/
def autoLang : String := "auto"

/-- One translation a speaker's audio must produce. -/
structure TranslationRoute where
  lang : String
  engine : String
  deriving DecidableEq, Repr

/-- The distinct routes of a speaker's audio, in the order they are first seen. -/
def routesForSpeaker (listeners : List (String × String)) (speakerLang : String) :
    List TranslationRoute :=
  ((listeners.filter fun l => l.1 ≠ autoLang ∧ l.1 ≠ speakerLang).map fun l => ⟨l.1, l.2⟩).eraseDups

lemma mem_routesForSpeaker {listeners : List (String × String)} {speakerLang : String}
    {route : TranslationRoute} :
    route ∈ routesForSpeaker listeners speakerLang ↔
      (route.lang, route.engine) ∈ listeners ∧ route.lang ≠ autoLang ∧ route.lang ≠ speakerLang := by
  simp only [routesForSpeaker, List.mem_eraseDups, List.mem_map, List.mem_filter, decide_eq_true_eq]
  constructor
  · rintro ⟨⟨lang, engine⟩, ⟨hmem, hlang⟩, rfl⟩
    exact ⟨hmem, hlang⟩
  · rintro ⟨hmem, hlang⟩
    exact ⟨_, ⟨hmem, hlang⟩, rfl⟩

namespace Room

/-- The distinct languages of the peers that `select` names, in the order they are first seen. -/
def langsOf (room : Room) (select : Peer → Bool) : List String :=
  ((room.peers.filter fun p => select p && p.lang ≠ autoLang).map Peer.lang).eraseDups

@[simp] lemma mem_langsOf {room : Room} {select : Peer → Bool} {lang : String} :
    lang ∈ room.langsOf select ↔
      lang ≠ autoLang ∧ ∃ p ∈ room.peers, select p = true ∧ p.lang = lang := by
  simp only [langsOf, List.mem_eraseDups, List.mem_map, List.mem_filter, Bool.and_eq_true,
    decide_eq_true_eq]
  constructor
  · rintro ⟨p, ⟨hmem, hselect, hauto⟩, rfl⟩
    exact ⟨hauto, p, hmem, hselect, rfl⟩
  · rintro ⟨hauto, p, hmem, hselect, rfl⟩
    exact ⟨p, ⟨hmem, hselect, hauto⟩, rfl⟩

end Room

namespace RoomManager

variable (m : RoomManager) (room : String)

/-- The peers of a room that may not exist. -/
def peersOf : List Peer := ((m.getRoom room).map Room.peers).getD []

/-- The routes of a speaker's audio for the current listeners. -/
def translationRoutes (speakerId speakerLang : String) : List TranslationRoute :=
  routesForSpeaker (((m.peersOf room).filter fun p => p.id ≠ speakerId).map fun p => (p.lang, p.engine))
    speakerLang

/-- Distinct languages present in the room, but for one peer's. -/
def getRoomLanguages (excludeId : String) : List String :=
  ((m.getRoom room).map fun r => r.langsOf fun p => p.id ≠ excludeId).getD []

/-- Distinct languages of the room's listeners who chose an engine. -/
def targetLangsForEngine (excludeId engine : String) : List String :=
  ((m.getRoom room).map fun r => r.langsOf fun p => p.id ≠ excludeId && p.engine = engine).getD []

def peerLang (id : String) : Option String :=
  ((m.peersOf room).find? fun p => p.id = id).map Peer.lang

/-- Send to every peer whose language is `lang`. -/
def broadcastToLang (lang : String) : RoomManager := m.sendTo room fun p => p.lang = lang

/-- Send only to peers who both receive in `lang` and chose `engine`. -/
def broadcastToLangEngine (lang engine : String) : RoomManager :=
  m.sendTo room fun p => p.lang = lang && p.engine = engine

variable {m room}

lemma peersOf_of_getRoom {r : Room} (hroom : m.getRoom room = some r) :
    m.peersOf room = r.peers := by
  simp [peersOf, hroom]

lemma mem_translationRoutes {speakerId speakerLang : String} {route : TranslationRoute} :
    route ∈ m.translationRoutes room speakerId speakerLang ↔
      ∃ p ∈ m.peersOf room, p.id ≠ speakerId ∧ p.lang ≠ autoLang ∧ p.lang ≠ speakerLang ∧
        route = ⟨p.lang, p.engine⟩ := by
  simp only [translationRoutes, mem_routesForSpeaker, List.mem_map, List.mem_filter,
    decide_eq_true_eq]
  constructor
  · rintro ⟨⟨p, ⟨hmem, hid⟩, heq⟩, hauto, hlang⟩
    obtain ⟨hl, he⟩ := Prod.mk.inj heq
    exact ⟨p, hmem, hid, hl ▸ hauto, hl ▸ hlang, by rw [hl, he]⟩
  · rintro ⟨p, hmem, hid, hauto, hlang, rfl⟩
    exact ⟨⟨p, ⟨hmem, hid⟩, rfl⟩, hauto, hlang⟩

lemma mem_getRoomLanguages {excludeId lang : String} :
    lang ∈ m.getRoomLanguages room excludeId ↔
      lang ≠ autoLang ∧ ∃ p ∈ m.peersOf room, p.id ≠ excludeId ∧ p.lang = lang := by
  unfold getRoomLanguages peersOf
  cases m.getRoom room <;> simp

lemma mem_targetLangsForEngine {excludeId engine lang : String} :
    lang ∈ m.targetLangsForEngine room excludeId engine ↔
      lang ≠ autoLang ∧ ∃ p ∈ m.peersOf room, p.id ≠ excludeId ∧ p.engine = engine ∧ p.lang = lang := by
  unfold targetLangsForEngine peersOf
  cases m.getRoom room <;> simp [and_assoc]

end RoomManager

end VoxTranslate.Rooms
