import VoxTranslate.Engine.Turn
import VoxTranslate.Lib.Fair
import VoxTranslate.Lib.Table
import VoxTranslate.Rooms.Departure

/-!
# The language sessions of an engine

A coordinator runs for every speaking turn.  It keeps one reconnecting task for each target
language, feeds them the captured audio, and reconciles the languages with the room once a
second; all coordinators of an engine share one pool of permits.  Coordinators, tasks and rooms
take their steps in any order.

Whether a language has a session is read off the map of the feeds, which outlives the task
behind it: a task that gave up on its upstream stays in the map as long as its language is
wanted.
-/

namespace VoxTranslate.Engine

open Lib Rooms

/-- How many opens may fail in a row before a task gives up. -/
def maxOpenFailures : Nat := 6

/-- Capacity of the audio feed of a task. -/
def perSessionAudioCap : Nat := 128

/-- Where a task of `reconnect_loop` stands. -/
inductive Phase where
  | connecting
  | connected
  /-- Asleep before the next attempt. -/
  | backoff
  /-- Returned after too many failed opens. -/
  | gaveUp
  /-- Returned because its feed was closed. -/
  | finished
  deriving DecidableEq, Repr

/-- The task of one language of one coordinator. -/
structure LangTask where
  id : Uuid
  /-- The coordinator that spawned it. -/
  owner : Uuid
  lang : String
  phase : Phase
  failures : Nat
  /-- Chunks of audio in its feed. -/
  queued : Nat
  deriving DecidableEq, Repr

/-- What a task may meet in its next step. -/
inductive TaskEvent where
  | openOk
  | openFailed
  /-- The connection takes a chunk from the feed. -/
  | forward
  /-- The connection finds the feed empty and closed. -/
  | audioClosed
  /-- The upstream dropped the connection. -/
  | dropped
  | wake
  deriving DecidableEq, Repr

namespace LangTask

/-- The task has not returned, and holds its permit. -/
def isLive (t : LangTask) : Bool :=
  match t.phase with
  | .connecting | .connected | .backoff => true
  | .gaveUp | .finished => false

/-- One step of `reconnect_loop`; `fed` says whether the sender of the feed is still alive. -/
def step (fed : Bool) (t : LangTask) : TaskEvent → Option LangTask
  | .openOk =>
    if t.phase = .connecting then some { t with phase := .connected, failures := 0 } else none
  | .openFailed =>
    if t.phase = .connecting then
      let failures := t.failures + 1
      some { t with
        failures
        phase := if maxOpenFailures ≤ failures then .gaveUp else .backoff }
    else none
  | .forward =>
    if t.phase = .connected ∧ 0 < t.queued then some { t with queued := t.queued - 1 } else none
  | .audioClosed =>
    if t.phase = .connected ∧ t.queued = 0 ∧ fed = false then some { t with phase := .finished }
    else none
  | .dropped => if t.phase = .connected then some { t with phase := .backoff } else none
  | .wake =>
    if t.phase = .backoff then some { t with phase := if fed then .connecting else .finished }
    else none

/-- `try_send` of a chunk into the feed, dropped when the feed is full. -/
def push (t : LangTask) : LangTask :=
  if t.isLive && t.queued < perSessionAudioCap then { t with queued := t.queued + 1 } else t

/-- How many steps the task can still take once its feed is closed. -/
def remaining (t : LangTask) : Nat :=
  match t.phase with
  | .connecting => t.queued + 3
  | .connected => t.queued + 2
  | .backoff => 1
  | .gaveUp | .finished => 0

lemma remaining_eq_zero {t : LangTask} : t.remaining = 0 ↔ t.isLive = false := by
  cases h : t.phase <;> simp [remaining, isLive, h]

section Step

variable {t t' : LangTask} {fed : Bool} {ev : TaskEvent}

lemma push_id (t : LangTask) : t.push.id = t.id := by
  rw [push]
  split_ifs <;> rfl

lemma push_owner (t : LangTask) : t.push.owner = t.owner := by
  rw [push]
  split_ifs <;> rfl

lemma push_lang (t : LangTask) : t.push.lang = t.lang := by
  rw [push]
  split_ifs <;> rfl

lemma push_phase (t : LangTask) : t.push.phase = t.phase := by
  rw [push]
  split_ifs <;> rfl

/-- **What a step does.** -/
lemma step_cases (h : t.step fed ev = some t') :
    (t.phase = .connecting ∧ t' = { t with phase := .connected, failures := 0 }) ∨
    (t.phase = .connecting ∧ maxOpenFailures ≤ t.failures + 1 ∧
      t' = { t with phase := .gaveUp, failures := t.failures + 1 }) ∨
    (t.phase = .connecting ∧ t' = { t with phase := .backoff, failures := t.failures + 1 }) ∨
    (t.phase = .connected ∧ 0 < t.queued ∧ t' = { t with queued := t.queued - 1 }) ∨
    (t.phase = .connected ∧ t.queued = 0 ∧ fed = false ∧ t' = { t with phase := .finished }) ∨
    (t.phase = .connected ∧ t' = { t with phase := .backoff }) ∨
    (t.phase = .backoff ∧ fed = true ∧ t' = { t with phase := .connecting }) ∨
    (t.phase = .backoff ∧ fed = false ∧ t' = { t with phase := .finished }) := by
  cases ev with
  | openOk =>
    simp only [step, Option.ite_none_right_eq_some, Option.some.injEq] at h
    exact .inl ⟨h.1, h.2.symm⟩
  | openFailed =>
    simp only [step, Option.ite_none_right_eq_some, Option.some.injEq] at h
    by_cases hmax : maxOpenFailures ≤ t.failures + 1
    · rw [if_pos hmax] at h
      exact .inr (.inl ⟨h.1, hmax, h.2.symm⟩)
    · rw [if_neg hmax] at h
      exact .inr (.inr (.inl ⟨h.1, h.2.symm⟩))
  | forward =>
    simp only [step, Option.ite_none_right_eq_some, Option.some.injEq] at h
    exact .inr (.inr (.inr (.inl ⟨h.1.1, h.1.2, h.2.symm⟩)))
  | audioClosed =>
    simp only [step, Option.ite_none_right_eq_some, Option.some.injEq] at h
    exact .inr (.inr (.inr (.inr (.inl ⟨h.1.1, h.1.2.1, h.1.2.2, h.2.symm⟩))))
  | dropped =>
    simp only [step, Option.ite_none_right_eq_some, Option.some.injEq] at h
    exact .inr (.inr (.inr (.inr (.inr (.inl ⟨h.1, h.2.symm⟩)))))
  | wake =>
    simp only [step, Option.ite_none_right_eq_some, Option.some.injEq] at h
    cases fed with
    | true => exact .inr (.inr (.inr (.inr (.inr (.inr (.inl ⟨h.1, rfl, h.2.symm⟩))))))
    | false => exact .inr (.inr (.inr (.inr (.inr (.inr (.inr ⟨h.1, rfl, h.2.symm⟩))))))

/-- A step keeps what identifies the task. -/
lemma step_keys (h : t.step fed ev = some t') :
    t'.id = t.id ∧ t'.owner = t.owner ∧ t'.lang = t.lang := by
  rcases step_cases h with ⟨_, rfl⟩ | ⟨_, _, rfl⟩ | ⟨_, rfl⟩ | ⟨_, _, rfl⟩ | ⟨_, _, _, rfl⟩ | ⟨_, rfl⟩ |
    ⟨_, _, rfl⟩ | ⟨_, _, rfl⟩ <;> exact ⟨rfl, rfl, rfl⟩

/-- Only a live task takes a step. -/
lemma step_live (h : t.step fed ev = some t') : t.isLive = true := by
  rcases step_cases h with ⟨hp, _⟩ | ⟨hp, _⟩ | ⟨hp, _⟩ | ⟨hp, _⟩ | ⟨hp, _⟩ | ⟨hp, _⟩ | ⟨hp, _⟩ | ⟨hp, _⟩ <;>
    rw [isLive, hp]

/-- A task returns for want of a feed only when it has none. -/
lemma step_finished (h : t.step fed ev = some t') (hf : t'.phase = .finished) : fed = false := by
  rcases step_cases h with ⟨_, rfl⟩ | ⟨_, _, rfl⟩ | ⟨_, rfl⟩ | ⟨hp, _, rfl⟩ | ⟨_, _, hfed, _⟩ |
    ⟨_, rfl⟩ | ⟨_, _, rfl⟩ | ⟨_, hfed, _⟩
  case inr.inr.inr.inl => exact absurd (hp.symm.trans hf) (by decide)
  all_goals first | exact hfed | cases hf

/-- **A task whose feed is closed runs out of steps.** -/
lemma step_remaining (h : t.step false ev = some t') : t'.remaining < t.remaining := by
  rcases step_cases h with ⟨hp, rfl⟩ | ⟨hp, _, rfl⟩ | ⟨hp, rfl⟩ | ⟨hp, _, rfl⟩ | ⟨hp, _, _, rfl⟩ |
    ⟨hp, rfl⟩ | ⟨hp, hfed, _⟩ | ⟨hp, _, rfl⟩
  case inr.inr.inr.inr.inr.inr.inl => cases hfed
  all_goals
    simp only [remaining, hp]
    omega

/-- A live task whose feed is closed can always go on. -/
lemma exists_step (h : t.isLive = true) : ∃ ev, (t.step false ev).isSome = true := by
  cases hp : t.phase with
  | connecting => exact ⟨.openOk, by simp [step, hp]⟩
  | connected =>
    rcases Nat.eq_zero_or_pos t.queued with hq | hq
    · exact ⟨.audioClosed, by simp [step, hp, hq]⟩
    · exact ⟨.forward, by simp [step, hp, hq]⟩
  | backoff => exact ⟨.wake, by simp [step, hp]⟩
  | gaveUp => simp [isLive, hp] at h
  | finished => simp [isLive, hp] at h

end Step

end LangTask

end VoxTranslate.Engine
