import VoxTranslate.Engine.Qwen
import VoxTranslate.Lib.Rounding

/-!
# Which way an utterance goes

Two people share one microphone, so the words decide which of the two configured languages was
spoken.  The free path looks at the writing systems alone; whatever it cannot tell is a question
for the classifier.  Abstaining is an answer: an utterance without a direction is held.
-/

namespace VoxTranslate.Talk

open Lib Engine

/-- A language code. -/
abbrev Lang := Text

/-- Which way one utterance goes. -/
inductive Direction where
  /-- The signed-in user spoke. -/
  | userToOther
  /-- The other person spoke. -/
  | otherToUser
  /-- Not enough evidence: hold. -/
  | unknown
  deriving DecidableEq, Repr

namespace Direction

/-- The language the translated speech comes out in. -/
def target (userLang otherLang : Lang) : Direction → Option Lang
  | userToOther => some otherLang
  | otherToUser => some userLang
  | unknown => none

/-- The language that was spoken. -/
def source (userLang otherLang : Lang) : Direction → Option Lang
  | userToOther => some userLang
  | otherToUser => some otherLang
  | unknown => none

variable {userLang otherLang : Lang} {d : Direction}

@[simp] lemma target_eq_none_iff : d.target userLang otherLang = none ↔ d = unknown := by
  cases d <;> simp [target]

lemma target_mem {lang : Lang} (h : d.target userLang otherLang = some lang) :
    lang = userLang ∨ lang = otherLang := by
  cases d with
  | userToOther => exact .inr (Option.some_inj.mp h).symm
  | otherToUser => exact .inl (Option.some_inj.mp h).symm
  | unknown => cases h

end Direction

/-- A direction, and whether evidence chose it or the conversation's prior. -/
structure Resolution where
  direction : Direction
  /-- It may become the next sentence's prior. -/
  isAnchored : Bool
  deriving DecidableEq, Repr

namespace Resolution

/-- Nothing was decided. -/
def UNKNOWN : Resolution := ⟨.unknown, false⟩

/-- Chosen by evidence. -/
def anchored (direction : Direction) : Resolution := ⟨direction, direction ≠ .unknown⟩

/-- Chosen by a weak verdict that the prior agreed with. -/
def corroborated (direction : Direction) : Resolution := ⟨direction, false⟩

end Resolution

/-! ## The free path -/

/-- Compare on the base subtag. -/
def baseCode (code : Lang) : Lang := code.trim.takeWhile (· ≠ '-')

/-- The direction of a spoken language; a third language has none. -/
def Direction.fromSpoken (spoken userLang otherLang : Lang) : Direction :=
  if baseCode spoken = baseCode userLang then .userToOther
  else if baseCode spoken = baseCode otherLang then .otherToUser
  else .unknown

/-- The writing systems that code points tell apart. -/
inductive Script where
  | latin | cyrillic | greek | hebrew | arabic | devanagari | han | kana | hangul | thai
  | georgian | armenian
  deriving DecidableEq, Repr

/-- The script of one character. -/
def charScript (c : Char) : Option Script :=
  let within (lo hi : Nat) : Bool := lo ≤ c.toNat && c.toNat ≤ hi
  if within 0x0041 0x005A || within 0x0061 0x007A || within 0x00C0 0x024F then some .latin
  else if within 0x0370 0x03FF || within 0x1F00 0x1FFF then some .greek
  else if within 0x0400 0x052F then some .cyrillic
  else if within 0x0530 0x058F then some .armenian
  else if within 0x0590 0x05FF then some .hebrew
  else if within 0x0600 0x06FF || within 0x0750 0x077F || within 0x08A0 0x08FF then some .arabic
  else if within 0x0900 0x097F then some .devanagari
  else if within 0x0E00 0x0E7F then some .thai
  else if within 0x10A0 0x10FF || within 0x1C90 0x1CBF then some .georgian
  else if within 0x3040 0x30FF then some .kana
  else if within 0x3400 0x4DBF || within 0x4E00 0x9FFF || within 0xF900 0xFAFF then some .han
  else if within 0xAC00 0xD7AF || within 0x1100 0x11FF || within 0x3130 0x318F then some .hangul
  else none

/-- The scripts a language is written in; `none` for a language that is not modelled. -/
def langScripts (code : Lang) : Option (List Script) :=
  let isOneOf (codes : List String) : Bool := codes.any fun c => c.toList = baseCode code
  if isOneOf ["ja"] then some [.kana, .han]
  else if isOneOf ["zh", "yue"] then some [.han]
  else if isOneOf ["ko"] then some [.hangul, .han]
  else if isOneOf ["th", "lo"] then some [.thai]
  else if isOneOf ["he", "yi"] then some [.hebrew]
  else if isOneOf ["ar", "fa", "ur", "ps", "ckb"] then some [.arabic]
  else if isOneOf ["hi", "mr", "ne"] then some [.devanagari]
  else if isOneOf ["el"] then some [.greek]
  else if isOneOf ["ru", "uk", "be", "bg", "sr", "mk", "kk", "mn"] then some [.cyrillic]
  else if isOneOf ["ka"] then some [.georgian]
  else if isOneOf ["hy"] then some [.armenian]
  else if isOneOf ["en", "it", "es", "fr", "de", "pt", "nl", "pl", "tr", "id", "ms", "vi", "sv",
      "da", "nb", "nn", "fi", "cs", "sk", "sl", "hr", "bs", "ro", "hu", "et", "lv", "lt", "sq",
      "is", "ga", "cy", "mt", "eu", "ca", "gl", "af", "sw", "so", "ha", "ig", "yo", "zu", "az",
      "uz", "fil", "ht", "lb"] then some [.latin]
  else none

/-- `MIN_SCRIPT_EVIDENCE`: discriminating characters needed before the hint decides. -/
def minScriptEvidence : Nat := 4

/-- A number as an `f32`; none here is too small or too large for one. -/
def f32 (q : ℚ) : ℚ := roundTo 24 q

/-- `SCRIPT_MARGIN`. -/
def scriptMargin : ℚ := f32 (4 / 5)

/-- The hits make up that share of the evidence, as far as an `f32` tells. -/
def reachesMargin (hits evidence : Nat) : Bool := scriptMargin ≤ f32 (f32 hits / f32 evidence)

/-- How many characters belong to a script of the one language and to none of the other. -/
def scriptHits (text : Text) (own foreign : List Script) : Nat :=
  text.countP fun c =>
    match charScript c with
    | some s => s ∈ own && s ∉ foreign
    | none => false

/-- Decide from the writing system alone, or abstain. -/
def scriptHint (text : Text) (userLang otherLang : Lang) : Direction :=
  match langScripts userLang, langScripts otherLang with
  | some userScripts, some otherScripts =>
    let userHits := scriptHits text userScripts otherScripts
    let otherHits := scriptHits text otherScripts userScripts
    let evidence := userHits + otherHits
    if evidence < minScriptEvidence then .unknown
    else if reachesMargin userHits evidence then .userToOther
    else if reachesMargin otherHits evidence then .otherToUser
    else .unknown
  | _, _ => .unknown

example : scriptHint "ここはどこですか".toList "it".toList "ja".toList = .otherToUser := by
  decide +kernel

/-- The two languages of a conversation. -/
structure Resolver where
  userLang : Lang
  otherLang : Lang
  deriving DecidableEq, Repr

/-- Resolve without asking the model. -/
def Resolver.resolveLocal (r : Resolver) (text : Text) : Direction :=
  scriptHint text r.userLang r.otherLang

/-- No text is no evidence. -/
@[simp] lemma Resolver.resolveLocal_nil (r : Resolver) : r.resolveLocal [] = .unknown := by
  rw [resolveLocal, scriptHint]
  split <;> rfl

end VoxTranslate.Talk
