import VoxTranslate.Engine.Registry
import VoxTranslate.Lib.Assoc
import VoxTranslate.Lib.Distinct
import VoxTranslate.Lib.Run

/-!
# The primary session of a webinar

A webinar runs one session for each language somebody watches in.  One of them is primary and
persists the transcript; whether a session is, is decided when it is spawned.  The languages
are reconciled with the viewers once a second.
-/

namespace VoxTranslate.Webinar

open Lib Engine

/-- A connection to a webinar. -/
structure Viewer where
  isHost : Bool
  lang : Option String
  deriving DecidableEq, Repr

/-- The distinct languages of the viewers. -/
def targetLanguages (viewers : List Viewer) : List String :=
  ((viewers.filter fun v => !v.isHost).filterMap Viewer.lang).eraseDups

/-- The state of `run_webinar_session`. -/
structure WebinarSession where
  /-- The languages that are fed, with the flag their session was spawned with. -/
  active : Assoc String Bool
  primary : Option String
  deriving DecidableEq

namespace WebinarSession

/-- Before the first tick. -/
def start : WebinarSession := ⟨∅, none⟩

/-- Drop the feed of a language. -/
def dropLang (s : WebinarSession) (lang : String) : WebinarSession :=
  { active := s.active.erase lang
    primary := if s.primary = some lang then none else s.primary }

/-- Spawn the session of a language. -/
def addLang (s : WebinarSession) (lang : String) : WebinarSession :=
  { active := s.active.insert lang s.primary.isNone
    primary := if s.primary.isNone then some lang else s.primary }

/-- The languages the viewers want. -/
def want (source : String) (viewers : List Viewer) : List String :=
  (targetLanguages viewers).filter fun l => l ≠ source

/-- A reconcile tick. -/
def tick (source : String) (s : WebinarSession) (viewers : List Viewer) : WebinarSession :=
  let (dropLangs, addLangs) := reconcileLangs s.active.keys (want source viewers)
  addLangs.foldl addLang (dropLangs.foldl dropLang s)

/-- The gate of `finalize_record`: whether the session of a language writes its finals down. -/
def writes (s : WebinarSession) (recordTranscript : Bool) (lang : String) : Bool :=
  recordTranscript && s.active.lookup lang = some true

/-- With any session active, exactly one was spawned as primary: the one `primary` names. -/
def Elected (s : WebinarSession) : Prop :=
  s.active.keys ≠ [] →
    ∃ lang, s.primary = some lang ∧ ∀ lang', s.active.lookup lang' = some true ↔ lang' = lang

/-- The flags say what `primary` says. -/
def Consistent (s : WebinarSession) : Prop :=
  ∀ lang, s.active.lookup lang = some true ↔ s.primary = some lang

/-- Consistent, and somebody is primary as soon as anything runs. -/
def Sound (s : WebinarSession) : Prop :=
  s.Consistent ∧ (s.primary = none → s.active.keys = [])

/-- The tick drops the primary language, keeps another one and adds none. -/
def orphans (source : String) (s : WebinarSession) (viewers : List Viewer) : Bool :=
  s.primary.any fun p => p ∉ want source viewers ∧
    (∃ l ∈ s.active.keys, l ∈ want source viewers) ∧
    ∀ l ∈ want source viewers, l ∈ s.active.keys

variable {source : String} {s t : WebinarSession} {viewers : List Viewer} {lang : String}

lemma start_sound : start.Sound := ⟨fun _ => by simp [start], fun _ => rfl⟩

lemma mem_keys_iff : lang ∈ s.active.keys ↔ (s.active.lookup lang).isSome = true := by
  rw [← AList.mem_keys, AList.lookup_isSome]

/-- Elected is sound, for a consistent session. -/
lemma Consistent.elected_iff (h : s.Consistent) : s.Elected ↔ s.Sound := by
  constructor
  · intro helected
    refine ⟨h, fun hnone => ?_⟩
    by_contra hne
    obtain ⟨l, hl, -⟩ := helected hne
    rw [hnone] at hl
    cases hl
  · rintro ⟨-, hnone⟩ hne
    obtain ⟨p, hp⟩ := Option.ne_none_iff_exists'.mp (mt hnone hne)
    refine ⟨p, hp, fun lang => ?_⟩
    rw [h lang, hp, Option.some_inj, eq_comm]

/-! ## The two halves of a tick -/

lemma nodup_want : (want source viewers).Nodup := (nodup_eraseDups _).filter _

lemma Consistent.dropLang (h : s.Consistent) (lang : String) : (s.dropLang lang).Consistent := by
  intro l
  simp only [WebinarSession.dropLang]
  by_cases hl : l = lang
  · subst hl
    rw [AList.lookup_erase]
    split_ifs with hp <;> simp [hp]
  · rw [AList.lookup_erase_ne hl, h l]
    split_ifs with hp
    · simp [hp, Ne.symm hl]
    · rfl

/-- A language that is not active is spawned as primary exactly when nobody is. -/
lemma Consistent.addLang (h : s.Consistent) (hnew : lang ∉ s.active.keys) :
    (s.addLang lang).Consistent := by
  intro l
  simp only [WebinarSession.addLang]
  cases hp : s.primary with
  | none =>
    by_cases hl : l = lang
    · subst hl
      simp
    · rw [AList.lookup_insert_ne hl, h l, hp]
      simp [Ne.symm hl]
  | some p =>
    have hactive : p ∈ s.active.keys := mem_keys_iff.mpr (by rw [(h p).mpr hp]; rfl)
    by_cases hl : l = lang
    · subst hl
      have hne : p ≠ l := fun heq => hnew (heq ▸ hactive)
      simp [hne]
    · rw [AList.lookup_insert_ne hl, h l, hp]
      simp

lemma lookup_dropLangs (langs : List String) (l : String) :
    (langs.foldl WebinarSession.dropLang s).active.lookup l =
      if l ∈ langs then none else s.active.lookup l := by
  have hactive : (langs.foldl WebinarSession.dropLang s).active = s.active.eraseAll langs := by
    induction langs generalizing s with
    | nil => rfl
    | cons l langs ih => exact ih
  rw [hactive, Assoc.lookup_eraseAll]

lemma primary_dropLangs (langs : List String) :
    (langs.foldl WebinarSession.dropLang s).primary = none ↔ ∀ p, s.primary = some p → p ∈ langs := by
  induction langs generalizing s with
  | nil => cases hp : s.primary <;> simp [hp]
  | cons l langs ih =>
    rw [List.foldl_cons, ih, WebinarSession.dropLang]
    cases hp : s.primary with
    | none => simp
    | some p => by_cases hpl : p = l <;> simp [hpl]

lemma primary_addLangs (langs : List String) :
    (langs.foldl WebinarSession.addLang s).primary = none ↔ s.primary = none ∧ langs = [] := by
  induction langs generalizing s with
  | nil => simp
  | cons l langs ih =>
    rw [List.foldl_cons, ih, WebinarSession.addLang]
    cases s.primary <;> simp

lemma Consistent.addLangs (h : s.Consistent) {langs : List String} (hnodup : langs.Nodup)
    (hnew : ∀ l ∈ langs, l ∉ s.active.keys) :
    (langs.foldl WebinarSession.addLang s).Consistent := by
  induction langs generalizing s with
  | nil => exact h
  | cons l langs ih =>
    rw [List.nodup_cons] at hnodup
    refine ih (h.addLang (hnew l List.mem_cons_self)) hnodup.2 fun l' hl' => ?_
    have hne : l' ≠ l := fun heq => hnodup.1 (heq ▸ hl')
    have hnot := hnew l' (List.mem_cons_of_mem _ hl')
    rw [mem_keys_iff] at hnot ⊢
    rwa [WebinarSession.addLang, AList.lookup_insert_ne hne]

/-- What the languages of the viewers do to those of the sessions. -/
lemma tick_eq :
    s.tick source viewers =
      ((want source viewers).filter fun l => l ∉ s.active.keys).foldl WebinarSession.addLang
        ((s.active.keys.filter fun l => l ∉ want source viewers).foldl WebinarSession.dropLang s) :=
  rfl

/-- **No tick makes a second session primary**, or leaves the flags behind. -/
theorem Consistent.tick (h : s.Consistent) : (s.tick source viewers).Consistent := by
  rw [tick_eq]
  refine Consistent.addLangs ?_ (nodup_want.filter _) fun l hl => ?_
  · exact foldl_invariant (fun s lang _ hs => hs.dropLang lang) h
  · rw [List.mem_filter, decide_eq_true_eq, mem_keys_iff] at hl
    rw [mem_keys_iff, lookup_dropLangs]
    split_ifs
    · simp
    · exact hl.2

/-- **A tick leaves somebody primary unless it orphans the transcript.** -/
theorem Sound.tick_iff (h : s.Sound) :
    (s.tick source viewers).Sound ↔ s.orphans source viewers = false := by
  rw [Sound, and_iff_right h.1.tick, ← not_iff_not, Bool.not_eq_false, orphans]
  cases hp : s.primary with
  | none =>
    -- nothing runs yet: whatever is added brings a primary with it
    have hnone : ∀ l, s.active.lookup l = none := by
      intro l
      have hnot : l ∉ s.active.keys := by simp [h.2 hp]
      rwa [mem_keys_iff, Bool.not_eq_true, Option.isSome_eq_false_iff, Option.isNone_iff_eq_none] at hnot
    refine iff_of_false (not_not.mpr ?_) (by simp)
    rw [tick_eq, primary_addLangs]
    rintro ⟨-, hadded⟩
    rw [hadded, List.foldl_nil, List.eq_nil_iff_forall_not_mem]
    intro l
    rw [mem_keys_iff, lookup_dropLangs, hnone]
    simp
  | some p =>
    have hactive : p ∈ s.active.keys := mem_keys_iff.mpr (by rw [(h.1 p).mpr hp]; rfl)
    rw [Option.any_some, decide_eq_true_eq, Classical.not_imp, tick_eq, primary_addLangs,
      primary_dropLangs]
    simp only [hp, Option.some_inj, forall_eq', List.mem_filter, decide_eq_true_eq, hactive, true_and,
      List.filter_eq_nil_iff, not_not]
    rw [and_assoc]
    refine and_congr_right fun hdropped => ?_
    rw [and_comm]
    refine and_congr_left fun hadded => ?_
    -- nothing was added: what is left of the sessions is what the viewers still want
    have hnil : ((want source viewers).filter fun l => l ∉ s.active.keys) = [] :=
      List.filter_eq_nil_iff.mpr (by simpa using hadded)
    rw [hnil, List.foldl_nil, ← not_iff_not, not_not, List.eq_nil_iff_forall_not_mem]
    push Not
    refine forall_congr' fun l => ?_
    rw [mem_keys_iff, lookup_dropLangs]
    by_cases hl : l ∈ s.active.keys
    · have hsome := mem_keys_iff.mp hl
      by_cases hw : l ∈ want source viewers <;> simp [hl, hw, hsome]
    · rw [mem_keys_iff] at hl
      simp [mem_keys_iff, hl]

/-- The system of reconcile ticks. -/
def Ticks (source : String) : WebinarSession → List Viewer → WebinarSession → Prop :=
  ofPartial fun s viewers => some (s.tick source viewers)

/-- **When a webinar has one primary session.**  After every tick of a run exactly one active
session was spawned as primary, and it is the one `primary` names, exactly when no tick drops
the primary language while another one stays and none is added. -/
theorem primary_elected_iff (source : String) (ticks : List (List Viewer)) (t : WebinarSession)
    (hrun : Run (Ticks source) start ticks t) :
    Run (Guarded (Ticks source) fun s viewers => (!s.orphans source viewers) = true) start ticks t ↔
      ∀ pre u, pre <+: ticks → Run (Ticks source) start pre u → u.Elected := by
  refine Run.guarded_iff_prefixes (I := Sound) ?_ (fun s hs => hs.1.elected_iff.mpr hs) ?_ hrun
    start_sound
  · rintro s viewers t hs hguard ⟨⟩
    exact hs.tick_iff.mpr (by simpa using hguard)
  · rintro s viewers t hs hguard ⟨⟩
    rw [hs.1.tick.elected_iff, hs.tick_iff]
    simpa using hguard

/-- Two languages are watched for two ticks. -/
theorem primary_elected_steady :
    ∃ t, Run (Ticks "it") start
        [[⟨false, some "es"⟩, ⟨false, some "fr"⟩], [⟨false, some "es"⟩, ⟨false, some "fr"⟩]] t ∧
      ∀ pre u, pre <+: [[⟨false, some "es"⟩, ⟨false, some "fr"⟩],
          [⟨false, some "es"⟩, ⟨false, some "fr"⟩]] →
        Run (Ticks "it") start pre u → u.Elected := by
  obtain ⟨t, hguarded⟩ : ∃ t, Run (Guarded (Ticks "it") fun s viewers =>
      (!s.orphans "it" viewers) = true) start
      [[⟨false, some "es"⟩, ⟨false, some "fr"⟩], [⟨false, some "es"⟩, ⟨false, some "fr"⟩]] t :=
    Run.exists_guarded_of_isSome (by decide +kernel)
  exact ⟨t, hguarded.ofGuarded, (primary_elected_iff "it" _ t hguarded.ofGuarded).mp hguarded⟩

/-- The primary language loses its viewers and another keeps its own: nobody writes the
transcript any more. -/
theorem primary_orphaned :
    ∃ t, Run (Ticks "it") start [[⟨false, some "es"⟩, ⟨false, some "fr"⟩], [⟨false, some "fr"⟩]] t ∧
      t.active.keys = ["fr"] ∧ t.primary = none ∧ t.writes true "fr" = false ∧ ¬ t.Elected := by
  obtain ⟨t, hrun, hkeys, hprimary, hwrites⟩ : ∃ t, Run (Ticks "it") start
      [[⟨false, some "es"⟩, ⟨false, some "fr"⟩], [⟨false, some "fr"⟩]] t ∧
      t.active.keys = ["fr"] ∧ t.primary = none ∧ t.writes true "fr" = false :=
    Run.exists_of_decide (by decide +kernel)
  refine ⟨t, hrun, hkeys, hprimary, hwrites, fun helected => ?_⟩
  obtain ⟨l, hl, -⟩ := helected (by simp [hkeys])
  rw [hprimary] at hl
  cases hl

end WebinarSession

end VoxTranslate.Webinar
