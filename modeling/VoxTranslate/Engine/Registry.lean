import VoxTranslate.Base
import Mathlib.Data.List.Dedup
import Mathlib.Data.List.Sort

/-!
# Translation engines

The registry of the engines, with its guaranteed default, and the two pure decisions the
server makes over them: which engines run alongside the base tier for one speaking turn, and
which languages a speaker's running sessions should drop and add.
-/

namespace VoxTranslate.Engine

def standardId : String := "standard"
def openaiId : String := "premium"
def geminiId : String := "gemini_live_translate"
def cartesiaId : String := "cartesia"

/-- What an engine can do. -/
structure EngineCapabilities where
  /-- The engine streams translated audio back. -/
  translatedAudio : Bool
  costScalesPerLanguage : Bool
  /-- The browser connects to the provider directly. -/
  clientDirect : Bool
  deriving DecidableEq, Repr

structure EngineMetadata where
  id : String
  capabilities : EngineCapabilities
  deriving DecidableEq, Repr

/-- The available engines, with a guaranteed default. -/
structure EngineRegistry where
  engines : List EngineMetadata
  defaultEngine : EngineMetadata
  default_mem : defaultEngine ∈ engines

namespace EngineRegistry

/-- Look up an engine by id; the first registration wins. -/
def get (r : EngineRegistry) (id : String) : Option EngineMetadata :=
  r.engines.find? fun e => e.id = id

/-- An unknown id is the default engine. -/
def resolve (r : EngineRegistry) (id : Option String) : EngineMetadata :=
  (id.bind r.get).getD r.defaultEngine

/-- A client-direct engine cannot serve a phone leg. -/
def resolveForPhone (r : EngineRegistry) (id : Option String) : EngineMetadata :=
  if (r.resolve id).capabilities.clientDirect then r.defaultEngine else r.resolve id

/-- The engines that stream audio back. -/
def speechEngines (r : EngineRegistry) : List String :=
  (r.engines.filter fun e => e.capabilities.translatedAudio).map EngineMetadata.id

lemma get_id {r : EngineRegistry} {id : String} {e : EngineMetadata} (h : r.get id = some e) :
    e.id = id := by
  simpa using List.find?_some h

/-- Every registered id is found. -/
lemma get_isSome {r : EngineRegistry} {id : String} :
    (r.get id).isSome = true ↔ id ∈ r.engines.map EngineMetadata.id := by
  simp [get, List.find?_isSome]

end EngineRegistry

/-- Outcome of opening a speaking session. -/
inductive SessionOutcome where
  | started
  | atCapacity
  | failed
  deriving DecidableEq, Repr

/-- The engines to open alongside the base tier for one speaking turn: those a cross-language
listener chose, of the ones that stream audio, without the base tier, each once. -/
def extraEnginesForTurn (chosen speechEngines : List String) : List String :=
  ((chosen.filter fun id => id ≠ standardId ∧ id ∈ speechEngines).insertionSort (· ≤ ·)).dedup

@[simp] lemma mem_extraEnginesForTurn {chosen speechEngines : List String} {id : String} :
    id ∈ extraEnginesForTurn chosen speechEngines ↔
      id ∈ chosen ∧ id ≠ standardId ∧ id ∈ speechEngines := by
  simp [extraEnginesForTurn]

lemma nodup_extraEnginesForTurn (chosen speechEngines : List String) :
    (extraEnginesForTurn chosen speechEngines).Nodup := List.nodup_dedup _

/-- Given the languages that have a session and those that are wanted, the ones to drop and
the ones to add. -/
def reconcileLangs (active want : List String) : List String × List String :=
  (active.filter fun l => l ∉ want, want.filter fun l => l ∉ active)

end VoxTranslate.Engine
