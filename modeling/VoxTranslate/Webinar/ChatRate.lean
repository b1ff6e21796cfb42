import VoxTranslate.Webinar.ChatDelivery

/-!
# How many messages a chat takes

A guest without a cookie is a new sender with each request, so that a limit on the sender alone
limits nobody.  The limit on the webinar is asked first and asks for nobody's name.
-/

namespace VoxTranslate.Webinar.Chat

open Lib Engine Limits

/-- The limits of the keys. -/
def ratePolicy (v : Venue) : RateKey → Policy
  | .webinar _ => WEBINAR_RATE
  | .sender _ _ => SENDER_RATE
  | .other key => v.others key

/-- When the limiter is asked. -/
def HallAction.asksAt : HallAction → Option Nat
  | .limiter _ now | .post _ now => some now
  | _ => none

namespace Hall

variable (v : Venue)

/-- What a step asks the limiter. -/
def limiterCalls (s : Hall) : HallAction → List (Call RateKey)
  | .limiter key now => [⟨.other key, now⟩]
  | .post request now =>
    match draft v.world s.webinar request.caller request.body with
    | .error _ => []
    | .ok d =>
      if (allow s.hits (.webinar s.webinar.id) WEBINAR_RATE now).2 then
        [⟨.webinar s.webinar.id, now⟩, ⟨.sender s.webinar.id d.senderId, now⟩]
      else [⟨.webinar s.webinar.id, now⟩]
  | _ => []

/-- No call of the step prunes the webinar's entry while its window runs. -/
def sparesWebinar (s : Hall) (a : HallAction) : Bool :=
  Run.meets (Limits.step (ratePolicy v)) (spares (ratePolicy v) (.webinar s.webinar.id)) s.hits
    (s.limiterCalls v a)

variable {v} {s t : Hall} {a : HallAction} {as : List HallAction} {hits : Hits RateKey}
  {w : WebinarRow} {d : Draft} {now : Nat} {calls : List (Call RateKey)}

/-- The webinar's calls among the answers of some calls. -/
def allowedWebinar (v : Venue) (id : Uuid) (hits : Hits RateKey) (calls : List (Call RateKey)) : Nat :=
  allowed (.webinar id) (answers (ratePolicy v) hits calls)

lemma allowedWebinar_append (v : Venue) (id : Uuid) (hits : Hits RateKey)
    (cs cs' : List (Call RateKey)) : allowedWebinar v id hits (cs ++ cs') =
      allowedWebinar v id hits cs + allowedWebinar v id (table (ratePolicy v) hits cs) cs' := by
  rw [allowedWebinar, answers_append, allowed_append]
  rfl

/-- The two limits, as calls of the limiter: what passes both was counted for the webinar. -/
lemma limited_eq (v : Venue) (hits : Hits RateKey) (w : WebinarRow) (senderId : Uuid) (now : Nat) :
    let calls : List (Call RateKey) := if (allow hits (.webinar w.id) WEBINAR_RATE now).2 then
      [⟨.webinar w.id, now⟩, ⟨.sender w.id senderId, now⟩] else [⟨.webinar w.id, now⟩]
    (limited hits w senderId now).1 = table (ratePolicy v) hits calls ∧
      ((limited hits w senderId now).2 = none → 0 < allowedWebinar v w.id hits calls) := by
  cases hroom : (allow hits (.webinar w.id) WEBINAR_RATE now).2 with
  | false =>
    simp only [limited, hroom, Bool.not_false, if_true, Bool.false_eq_true, if_false]
    exact ⟨rfl, nofun⟩
  | true =>
    simp only [limited, hroom, Bool.not_true, Bool.false_eq_true, if_false, if_true]
    refine ⟨rfl, fun _ => List.countP_pos_iff.mpr ⟨(⟨.webinar w.id, now⟩, true), ?_, by simp⟩⟩
    rw [answers]
    exact List.mem_cons.mpr (.inl (Prod.ext rfl hroom.symm))

/-- What a request asks the limiter, and that what is admitted was allowed the webinar. -/
lemma limiter_post (s : Hall) (request : Request) (now : Nat) :
    let r := accept v.world v.moderator s.hits (some s.webinar) request.caller request.body now
    let calls := s.limiterCalls v (.post request now)
    r.1 = table (ratePolicy v) s.hits calls ∧
      ∀ d, r.2 = .ok d → 0 < allowedWebinar v s.webinar.id s.hits calls := by
  cases hdraft : draft v.world s.webinar request.caller request.body with
  | error refusal =>
    simp only [accept, limiterCalls, hdraft]
    refine ⟨rfl, fun d h => ?_⟩
    cases h
  | ok d =>
    obtain ⟨hhits, hallowed⟩ := limited_eq v s.hits s.webinar d.senderId now
    simp only [limiterCalls, hdraft]
    refine ⟨?_, fun d' h => hallowed ?_⟩
    · simp only [accept, hdraft]
      exact hhits
    · obtain ⟨w, hw, hdraft', hnone, -⟩ := accept_ok h
      cases hw
      rw [hdraft] at hdraft'
      cases hdraft'
      exact hnone

/-- The actions that ask the limiter nothing. -/
lemma rest_step (hasks : a.asksAt = none) (hstep : step v s a = some t) :
    t.webinar.id = s.webinar.id ∧ t.hits = s.hits ∧ t.posts.length = s.posts.length := by
  cases a with
  | connect page c =>
    simp only [Hall.step] at hstep
    obtain ⟨presence, -, rfl⟩ := Option.map_eq_some_iff.mp hstep
    exact ⟨rfl, rfl, rfl⟩
  | presence b =>
    simp only [Hall.step] at hstep
    obtain ⟨-, hmap⟩ := Option.ite_none_right_eq_some.mp hstep
    obtain ⟨presence, -, rfl⟩ := Option.map_eq_some_iff.mp hmap
    exact ⟨rfl, rfl, rfl⟩
  | broadcast i =>
    simp only [Hall.step] at hstep
    split at hstep
    · obtain ⟨presence, -, rfl⟩ := Option.map_eq_some_iff.mp hstep
      exact ⟨rfl, rfl, List.length_set⟩
    · cases hstep
  | deliver c =>
    simp only [Hall.step] at hstep
    split at hstep <;> cases hstep
    exact ⟨rfl, rfl, rfl⟩
  | insert i translations id createdAt =>
    obtain ⟨request, d, -, -, rfl⟩ := store_eq_some hstep
    exact ⟨rfl, rfl, List.length_set⟩
  | abandon i translations id createdAt =>
    obtain ⟨request, d, -, -, rfl⟩ := store_eq_some hstep
    exact ⟨rfl, rfl, List.length_set⟩
  | answer i =>
    simp only [Hall.step] at hstep
    split at hstep
    · next request _ _ =>
      cases hstep
      cases request.page <;> exact ⟨rfl, rfl, List.length_set⟩
    · cases hstep
  | fail i =>
    simp only [Hall.step] at hstep
    split at hstep <;> cases hstep <;> exact ⟨rfl, rfl, List.length_set⟩
  | read q i caller rows =>
    simp only [Hall.step] at hstep
    split at hstep
    · obtain ⟨-, heq⟩ := Option.ite_none_right_eq_some.mp hstep
      cases heq
      exact ⟨rfl, rfl, rfl⟩
    · cases hstep
  | readFails q i =>
    simp only [Hall.step] at hstep
    split at hstep <;> cases hstep
    exact ⟨rfl, rfl, rfl⟩
  | loaded q i =>
    simp only [Hall.step] at hstep
    obtain ⟨page, -, rfl⟩ := Option.map_eq_some_iff.mp hstep
    exact ⟨rfl, rfl, rfl⟩
  | patch fields | lose c | toggle q =>
    cases hstep
    exact ⟨rfl, rfl, rfl⟩
  | limiter key now | post request now => cases hasks

/-- What a step asks the limiter, and that a message that is admitted was allowed the webinar. -/
lemma limiter_step (hstep : step v s a = some t) : t.webinar.id = s.webinar.id ∧
    t.hits = table (ratePolicy v) s.hits (s.limiterCalls v a) ∧
    (∀ c ∈ s.limiterCalls v a, a.asksAt = some c.now) ∧
    t.posts.length ≤ s.posts.length +
      allowedWebinar v s.webinar.id s.hits (s.limiterCalls v a) := by
  cases a with
  | limiter key now =>
    cases hstep
    exact ⟨rfl, rfl, fun c hc => by rw [List.mem_singleton.mp hc]; rfl, Nat.le_add_right _ _⟩
  | post request now =>
    obtain ⟨hhits, hallowed⟩ := limiter_post (v := v) s request now
    cases hstep
    refine ⟨rfl, hhits, fun c hc => ?_, ?_⟩
    · simp only [limiterCalls] at hc
      split at hc
      · cases hc
      · split_ifs at hc
        · rcases List.mem_cons.mp hc with rfl | hc
          · rfl
          · rw [List.mem_singleton.mp hc]
            rfl
        · rw [List.mem_singleton.mp hc]
          rfl
    · dsimp only
      split
      · next d hadmit =>
        have hpos := hallowed d hadmit
        rw [List.length_append, List.length_singleton]
        omega
      · exact Nat.le_add_right _ _
  | _ =>
    obtain ⟨hid, hhits, hlength⟩ := rest_step rfl hstep
    exact ⟨hid, hhits, nofun, hlength.le⟩

/-- What a run asks the limiter. -/
lemma limiter_run
    (hrun : Run (Guarded (ofPartial (step v)) fun s a => s.sparesWebinar v a = true) s as t) :
    ∃ calls, Run (Guarded (ofFun (Limits.step (ratePolicy v))) fun hits c =>
        spares (ratePolicy v) (.webinar s.webinar.id) hits c = true) s.hits calls t.hits ∧
      (∀ c ∈ calls, ∃ a ∈ as, a.asksAt = some c.now) ∧
      t.posts.length ≤ s.posts.length + allowedWebinar v s.webinar.id s.hits calls := by
  induction hrun with
  | nil s => exact ⟨[], .nil _, nofun, Nat.le_refl _⟩
  | @cons s t u a as hstep _ ih =>
    obtain ⟨hspares, hstep⟩ := hstep
    obtain ⟨hid, hhits, hasked, hlength⟩ := limiter_step hstep
    obtain ⟨calls, hcalls, hrest, hlength'⟩ := ih
    rw [hid, hhits] at hcalls hlength'
    refine ⟨s.limiterCalls v a ++ calls, ?_, fun c hc => ?_, ?_⟩
    · exact Run.append_iff.mpr ⟨_, Run.guarded_ofFun hspares, hcalls⟩
    · rcases List.mem_append.mp hc with hc | hc
      · exact ⟨a, List.mem_cons_self, hasked c hc⟩
      · obtain ⟨b, hb, hnow⟩ := hrest c hc
        exact ⟨b, List.mem_cons_of_mem _ hb, hnow⟩
    · rw [allowedWebinar_append]
      omega

/-- **Whatever names they give, a window takes thirty messages.**  Until ten seconds after the
window of the webinar's key began, no more messages pass the gates than are left of its thirty, as
long as no other request prunes that key. -/
theorem chat_rate {e : Entry}
    (hrun : Run (Guarded (ofPartial (step v)) fun s a => s.sparesWebinar v a = true) s as t)
    (he : s.hits.lookup (.webinar s.webinar.id) = some e)
    (hinside : ∀ a ∈ as, ∀ now ∈ a.asksAt, now ≤ e.start + 10000) :
    t.posts.length ≤ s.posts.length + (30 - e.count) := by
  obtain ⟨calls, hcalls, hasked, hlength⟩ := limiter_run hrun
  have hwindow : ∀ c ∈ calls, c.now ≤
      e.start + (ratePolicy v (.webinar s.webinar.id)).window := by
    intro c hc
    obtain ⟨a, ha, hnow⟩ := hasked c hc
    exact hinside a ha c.now hnow
  have hle := allowed_le_of_window hwindow he hcalls
  exact Nat.le_trans hlength (Nat.add_le_add_left hle _)

/-- A guest without a cookie, who is somebody else each time. -/
def stranger (guest : Uuid) : Request :=
  { greeting 0 with page := none, caller := ⟨none, false, guest⟩ }

theorem chat_rate_strangers :
    (after [.post (stranger 1) 0, .post (stranger 2) 1, .post (stranger 3) 2]).posts.length ≤
      (after [.post (stranger 1) 0]).posts.length + (30 - 1) := by
  have hrun : Run (Guarded (ofPartial (step sampleVenue)) fun s a =>
      s.sparesWebinar sampleVenue a = true) (after [.post (stranger 1) 0])
      [.post (stranger 2) 1, .post (stranger 3) 2]
      (after [.post (stranger 1) 0, .post (stranger 2) 1, .post (stranger 3) 2]) :=
    Run.guarded_ofPartial_iff.mpr rfl
  have he : (after [.post (stranger 1) 0]).hits.lookup
      (.webinar (after [.post (stranger 1) 0]).webinar.id) = some ⟨1, 0⟩ := by
    decide +kernel
  exact chat_rate hrun he (by simp [HallAction.asksAt])

/-- A sender who writes thirty messages at once has five of them taken, and nobody else is heard. -/
example : (after ((List.replicate 30 (.post (stranger 1) 0)) ++ [.post (stranger 2) 1])).posts.map
    (fun post => post.request.caller.guest) = List.replicate 5 1 := by
  decide +kernel

end Hall

end VoxTranslate.Webinar.Chat
