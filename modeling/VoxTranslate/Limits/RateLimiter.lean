import VoxTranslate.Lib.Assoc
import VoxTranslate.Lib.Run

/-!
# The rate limiter (`rate_limit.rs`)

One table counts the calls of every key, each with the start of its window.  A call gives its
key's limit and window.  When the table has grown large, a call first drops the entries that
have elapsed, and it measures them with its own window, whatever window they were counted
under.

The module compares the answers a key gets in a shared table with those it gets when it is
alone, and bounds what a key gets in one window.  Times and windows are in one unit of a
clock that does not go back.
-/

namespace VoxTranslate.Limits

open Lib (Assoc Run ofFun Guarded)

/-- The limit a caller passes. -/
structure Policy where
  max : Nat
  window : Nat
  deriving DecidableEq, Repr

/-- The calls counted in a window, and its start. -/
structure Entry where
  count : Nat
  start : Nat
  deriving DecidableEq, Repr

/-- The size above which a call prunes. -/
def maxEntries : Nat := 10000

namespace Entry

/-- What one call makes of its key's entry, with the answer. -/
def hit (entry : Option Entry) (p : Policy) (now : Nat) : Entry × Bool :=
  let e := entry.getD ⟨0, now⟩
  if p.window < now - e.start then (⟨1, now⟩, true)
  else if e.count < p.max then ({ e with count := e.count + 1 }, true)
  else (e, false)

lemma hit_none {p : Policy} {now : Nat} (h : 0 < p.max) : hit none p now = (⟨1, now⟩, true) := by
  simp [hit, h]

lemma hit_elapsed {e : Entry} {p : Policy} {now : Nat} (h : p.window < now - e.start) :
    hit (some e) p now = (⟨1, now⟩, true) := by
  simp [hit, h]

lemma hit_inside {e : Entry} {p : Policy} {now : Nat} (h : now - e.start ≤ p.window) :
    hit (some e) p now =
      if e.count < p.max then ({ e with count := e.count + 1 }, true) else (e, false) := by
  simp [hit, Nat.not_lt.mpr h]

lemma hit_allowed {entry : Option Entry} {p : Policy} {now : Nat}
    (h : (hit entry p now).2 = true) : 0 < (hit entry p now).1.count ∧
      (0 < p.max ∨ ∃ e, entry = some e ∧ p.window < now - e.start) := by
  cases entry with
  | none =>
    simp only [hit, Option.getD_none, Nat.sub_self, Nat.not_lt_zero, if_false] at h ⊢
    split_ifs at h ⊢ with hmax
    exact ⟨Nat.succ_pos _, .inl hmax⟩
  | some e =>
    by_cases hw : p.window < now - e.start
    · rw [hit_elapsed hw]
      exact ⟨Nat.one_pos, .inr ⟨e, rfl, hw⟩⟩
    · rw [hit_inside (by omega)] at h ⊢
      split_ifs at h ⊢ with hcount
      exact ⟨Nat.succ_pos _, .inl (Nat.zero_lt_of_lt hcount)⟩

end Entry

section Table

variable {κ : Type*} [DecidableEq κ]

/-- The table of the limiter. -/
abbrev Hits (κ : Type*) := Assoc κ Entry

/-- Drop what has elapsed under this window, when the table is large. -/
def prune (hits : Hits κ) (window now : Nat) : Hits κ :=
  if maxEntries < hits.entries.length then
    hits.mapEntries fun e => if now - e.start ≤ window then some e else none
  else hits

/-- `RateLimiter::allow`. -/
def allow (hits : Hits κ) (key : κ) (p : Policy) (now : Nat) : Hits κ × Bool :=
  let hits := prune hits p.window now
  let r := Entry.hit (hits.lookup key) p now
  (hits.insert key r.1, r.2)

/-- A call for a key.  Its limit and window are those of the key. -/
structure Call (κ : Type*) where
  key : κ
  now : Nat
  deriving DecidableEq, Repr

variable (policy : κ → Policy)

/-- The table after a call. -/
def step (hits : Hits κ) (c : Call κ) : Hits κ := (allow hits c.key (policy c.key) c.now).1

/-- The answer to a call. -/
def answer (hits : Hits κ) (c : Call κ) : Bool := (allow hits c.key (policy c.key) c.now).2

/-- The calls of a sequence with their answers. -/
def answers (hits : Hits κ) : List (Call κ) → List (Call κ × Bool)
  | [] => []
  | c :: cs => (c, answer policy hits c) :: answers (step policy hits c) cs

/-- The table after a sequence of calls. -/
def table (hits : Hits κ) (calls : List (Call κ)) : Hits κ := calls.foldl (step policy) hits

/-- The answers one key got. -/
def answersOf (k : κ) (as : List (Call κ × Bool)) : List (Call κ × Bool) :=
  as.filter fun a => a.1.key = k

/-- How many calls of a key were allowed. -/
def allowed (k : κ) (as : List (Call κ × Bool)) : Nat := as.countP fun a => a.1.key = k && a.2

/-- The window of the call's key starts at the call. -/
def StartsWindow (hits : Hits κ) (c : Call κ) : Prop :=
  ∃ e, (step policy hits c).lookup c.key = some e ∧ e.start = c.now

/-- The call leaves the entry of `k` to its own window: if it prunes, it drops that entry only
where the window of `k` has elapsed too and `k` has a positive limit, and a call of `k` under
the limit zero finds its window still running. -/
def spares (k : κ) (hits : Hits κ) (c : Call κ) : Bool :=
  match hits.lookup k with
  | none => true
  | some e =>
    (hits.entries.length ≤ maxEntries || c.now - e.start ≤ (policy c.key).window ||
      ((policy k).window < c.now - e.start && 0 < (policy k).max)) &&
    (c.key ≠ k || 0 < (policy k).max || c.now - e.start ≤ (policy k).window)

variable {policy} {k : κ} {hits alone : Hits κ} {c : Call κ}

@[simp] lemma table_nil : table policy hits [] = hits := rfl

@[simp] lemma table_cons (cs : List (Call κ)) :
    table policy hits (c :: cs) = table policy (step policy hits c) cs := rfl

lemma table_append (cs cs' : List (Call κ)) :
    table policy hits (cs ++ cs') = table policy (table policy hits cs) cs' := List.foldl_append

/-! ### One call -/

lemma lookup_prune (hits : Hits κ) (window now : Nat) (k : κ) :
    (prune hits window now).lookup k = hits.lookup k ∨
      ((prune hits window now).lookup k = none ∧ maxEntries < hits.entries.length ∧
        ∃ e, hits.lookup k = some e ∧ window < now - e.start) := by
  rw [prune]
  split_ifs with hlarge
  · rw [Assoc.lookup_mapEntries]
    cases he : hits.lookup k with
    | none => exact .inl rfl
    | some e =>
      by_cases hw : now - e.start ≤ window
      · exact .inl (by rw [Option.bind_some, if_pos hw])
      · exact .inr ⟨by rw [Option.bind_some, if_neg hw], hlarge, e, rfl, Nat.lt_of_not_le hw⟩
  · exact .inl rfl

/-- What the guard leaves of the entry of `k`. -/
lemma lookup_prune_of_spares (h : spares policy k hits c = true) :
    (prune hits (policy c.key).window c.now).lookup k = hits.lookup k ∨
      ((prune hits (policy c.key).window c.now).lookup k = none ∧ 0 < (policy k).max ∧
        ∃ e, hits.lookup k = some e ∧ (policy k).window < c.now - e.start) := by
  obtain hkept | ⟨hdropped, hlarge, e, he, hw⟩ :=
    lookup_prune hits (policy c.key).window c.now k
  · exact .inl hkept
  · rw [spares, he] at h
    simp only [Bool.and_eq_true, Bool.or_eq_true, decide_eq_true_eq] at h
    obtain ⟨(hsmall | hinside) | ⟨helapsed, hmax⟩, -⟩ := h
    · omega
    · omega
    · exact .inr ⟨hdropped, hmax, e, he, helapsed⟩

lemma lookup_step_self : (step policy hits c).lookup c.key =
    some (Entry.hit ((prune hits (policy c.key).window c.now).lookup c.key) (policy c.key)
      c.now).1 := by
  rw [step, allow]
  exact AList.lookup_insert _

lemma lookup_step_of_ne (h : k ≠ c.key) : (step policy hits c).lookup k =
    (prune hits (policy c.key).window c.now).lookup k := by
  rw [step, allow]
  exact AList.lookup_insert_ne h

/-! ### A key among others -/

/-- The shared entry of a key agrees with the one it has alone, or is gone where the latter has
elapsed. -/
def Agrees (p : Policy) (now : Nat) (shared alone : Option Entry) : Prop :=
  shared = alone ∨
    (shared = none ∧ 0 < p.max ∧ ∃ e, alone = some e ∧ p.window < now - e.start)

namespace Agrees

variable {p : Policy} {now now' : Nat} {shared : Option Entry} {own : Option Entry}

lemma mono (h : Agrees p now shared own) (hnow : now ≤ now') : Agrees p now' shared own := by
  refine h.imp_right ?_
  rintro ⟨hnone, hmax, e, he, hw⟩
  exact ⟨hnone, hmax, e, he, by omega⟩

lemma hit_eq (h : Agrees p now shared own) : Entry.hit shared p now = Entry.hit own p now := by
  obtain rfl | ⟨rfl, hmax, e, rfl, hw⟩ := h
  · rfl
  · rw [Entry.hit_none hmax, Entry.hit_elapsed hw]

lemma prune (h : Agrees (policy k) c.now (hits.lookup k) own)
    (hspares : spares policy k hits c = true) :
    Agrees (policy k) c.now
      ((Limits.prune hits (policy c.key).window c.now).lookup k) own := by
  obtain hkept | ⟨hdropped, hmax, e, he, hw⟩ := lookup_prune_of_spares hspares
  · rwa [hkept]
  · obtain heq | ⟨hnone, -⟩ := h
    · exact .inr ⟨hdropped, hmax, e, heq ▸ he, hw⟩
    · rw [hnone] at he
      cases he

end Agrees

omit [DecidableEq κ] in
/-- A table of one key is not pruned. -/
lemma prune_of_alone (h : ∀ k' ∈ alone, k' = k) (window now : Nat) :
    prune alone window now = alone := by
  refine if_neg ?_
  have hkeys : ∀ k' ∈ alone.keys, k' = k := fun k' hk' => h k' (AList.mem_keys.mpr hk')
  have hlen : alone.keys.length ≤ 1 := by
    have hnodup : alone.keys.Nodup := alone.keys_nodup
    match hk : alone.keys with
    | [] => simp
    | [_] => simp
    | k₁ :: k₂ :: ks =>
      rw [hk] at hkeys hnodup
      have heq : k₁ = k₂ := (hkeys k₁ (by simp)).trans (hkeys k₂ (by simp)).symm
      simp [heq] at hnodup
  have hentries : alone.entries.length = alone.keys.length := by
    simp [AList.keys, List.keys]
  simp only [maxEntries]
  omega

lemma mem_step_of_alone (h : ∀ k' ∈ alone, k' = k) (hc : c.key = k) :
    ∀ k' ∈ step policy alone c, k' = k := by
  intro k' hk'
  rw [step, allow, prune_of_alone h, AList.mem_insert] at hk'
  exact hk'.elim (fun heq => heq.trans hc) (h k')

/-- **The calls of the other keys do not show in the answers of `k`.** -/
lemma answersOf_eq {calls : List (Call κ)} {t : Nat}
    (hclock : (calls.map Call.now).Pairwise (· ≤ ·)) (hnow : ∀ c ∈ calls, t ≤ c.now)
    (halone : ∀ k' ∈ alone, k' = k) (hagree : Agrees (policy k) t (hits.lookup k) (alone.lookup k))
    {hits' : Hits κ}
    (hrun : Run (Guarded (ofFun (step policy)) fun s c => spares policy k s c = true)
      hits calls hits') :
    answersOf k (answers policy hits calls) =
      answers policy alone (calls.filter fun c => c.key = k) := by
  induction calls generalizing hits alone t with
  | nil => rfl
  | cons c calls ih =>
    obtain ⟨_, ⟨hspares, rfl⟩, hrest⟩ := Run.cons_iff.mp hrun
    rw [List.map_cons, List.pairwise_cons] at hclock
    have hnow' : ∀ d ∈ calls, c.now ≤ d.now :=
      fun d hd => hclock.1 d.now (List.mem_map_of_mem hd)
    have hpruned := (hagree.mono (hnow c List.mem_cons_self)).prune hspares
    rw [answers]
    by_cases hk : c.key = k
    · have hown : (step policy alone c).lookup k =
          some (Entry.hit (alone.lookup k) (policy k) c.now).1 := by
        rw [← hk, lookup_step_self, prune_of_alone halone]
      have hshared : (step policy hits c).lookup k =
          some (Entry.hit (alone.lookup k) (policy k) c.now).1 := by
        rw [← hpruned.hit_eq, ← hk, lookup_step_self]
      have hanswer : answer policy hits c = answer policy alone c := by
        show (Entry.hit _ _ _).2 = (Entry.hit _ _ _).2
        rw [prune_of_alone halone, hk, ← hpruned.hit_eq, hk]
      rw [List.filter_cons_of_pos (by simpa using hk), answers, answersOf,
        List.filter_cons_of_pos (by simpa using hk), hanswer]
      exact congrArg _ (ih hclock.2 hnow' (mem_step_of_alone halone hk)
        (.inl (hshared.trans hown.symm)) hrest)
    · rw [List.filter_cons_of_neg (by simpa using hk), answersOf,
        List.filter_cons_of_neg (by simpa using hk)]
      refine ih hclock.2 hnow' halone ?_ hrest
      rwa [lookup_step_of_ne (Ne.symm hk)]

/-! ### A key in its window -/

/-- Inside the window that started at `e.start`, `k` gets what is left of its limit. -/
lemma allowed_le_of_window {calls : List (Call κ)} {e : Entry}
    (hinside : ∀ d ∈ calls, d.now ≤ e.start + (policy k).window)
    (he : hits.lookup k = some e) {hits' : Hits κ}
    (hrun : Run (Guarded (ofFun (step policy)) fun s c => spares policy k s c = true)
      hits calls hits') :
    allowed k (answers policy hits calls) ≤ (policy k).max - e.count := by
  induction calls generalizing hits e with
  | nil => exact Nat.zero_le _
  | cons c calls ih =>
    obtain ⟨_, ⟨hspares, rfl⟩, hrest⟩ := Run.cons_iff.mp hrun
    have hnow : c.now ≤ e.start + (policy k).window := hinside c List.mem_cons_self
    have hkept : (prune hits (policy c.key).window c.now).lookup k = some e := by
      obtain hkept | ⟨-, -, e', he', hw⟩ := lookup_prune_of_spares hspares
      · rw [hkept, he]
      · cases he.symm.trans he'
        omega
    have hinside' : ∀ d ∈ calls, d.now ≤ e.start + (policy k).window :=
      fun d hd => hinside d (List.mem_cons_of_mem _ hd)
    rw [answers, allowed, List.countP_cons, ← allowed]
    by_cases hk : c.key = k
    · subst hk
      have hhit : Entry.hit (some e) (policy c.key) c.now =
          if e.count < (policy c.key).max then ({ e with count := e.count + 1 }, true)
          else (e, false) := Entry.hit_inside (by omega)
      have hstep : (step policy hits c).lookup c.key =
          some (Entry.hit (some e) (policy c.key) c.now).1 := by
        rw [lookup_step_self, hkept]
      have hanswer : answer policy hits c = (Entry.hit (some e) (policy c.key) c.now).2 := by
        rw [answer, allow, hkept]
      rw [hhit] at hstep hanswer
      split_ifs at hstep hanswer with hcount
      · have hrec := ih (e := { e with count := e.count + 1 }) hinside' hstep hrest
        simp [hanswer]
        simp at hrec
        omega
      · have hrec := ih hinside' hstep hrest
        simp [hanswer]
        omega
    · have hstep : (step policy hits c).lookup k = some e := by
        rw [lookup_step_of_ne (Ne.symm hk), hkept]
      have hrec := ih hinside' hstep hrest
      simp [hk]
      omega

/-- A call that starts the window of `k`, with the calls up to the window's end. -/
lemma allowed_le_of_startsWindow {calls : List (Call κ)} (hk : c.key = k)
    (hstarts : StartsWindow policy hits c)
    (hinside : ∀ d ∈ calls, d.now ≤ c.now + (policy k).window) {hits' : Hits κ}
    (hrun : Run (Guarded (ofFun (step policy)) fun s c => spares policy k s c = true)
      hits (c :: calls) hits') :
    allowed k (answers policy hits (c :: calls)) ≤ (policy k).max := by
  obtain ⟨_, ⟨hspares, rfl⟩, hrest⟩ := Run.cons_iff.mp hrun
  obtain ⟨e, he, hstart⟩ := hstarts
  subst hk
  have hrec := allowed_le_of_window (hstart.symm ▸ hinside) he hrest
  rw [answers, allowed, List.countP_cons, ← allowed]
  cases hanswer : answer policy hits c with
  | false =>
    simp
    omega
  | true =>
    rw [lookup_step_self] at he
    cases he
    obtain ⟨hcount, hmax⟩ := Entry.hit_allowed hanswer
    have hpositive : 0 < (policy c.key).max := by
      refine hmax.elim id ?_
      rintro ⟨e, he, hw⟩
      -- an elapsed entry was there before the pruning, and the guard allows that call
      obtain hkept | ⟨hdropped, -⟩ := lookup_prune_of_spares hspares
      · rw [hkept] at he
        rw [spares, he] at hspares
        simp at hspares
        omega
      · rw [hdropped] at he
        cases he
    simp
    omega

/-- **Where no call prunes with a window shorter than an entry's own, the answers a key gets
are those it gets alone, and inside a window it gets at most its limit.** -/
theorem keys_independent_of_run {calls : List (Call κ)}
    (hclock : (calls.map Call.now).Pairwise (· ≤ ·))
    (hrun : Run (Guarded (ofFun (step policy)) fun s c => spares policy k s c = true)
      ∅ calls hits) :
    answersOf k (answers policy ∅ calls) =
        answers policy ∅ (calls.filter fun c => c.key = k) ∧
      ∀ pre c mid post, calls = pre ++ c :: mid ++ post → c.key = k →
        StartsWindow policy (table policy ∅ pre) c →
        (∀ d ∈ mid, d.now ≤ c.now + (policy k).window) →
        allowed k (answers policy (table policy ∅ pre) (c :: mid)) ≤ (policy k).max := by
  constructor
  · exact answersOf_eq hclock (fun _ _ => Nat.zero_le _) (by simp) (.inl rfl) hrun
  · rintro pre c mid post rfl hk hstarts hinside
    obtain ⟨_, hrun', -⟩ := Run.append_iff.mp hrun
    obtain ⟨s, hpre, hmid⟩ := Run.append_iff.mp hrun'
    have hs : table policy ∅ pre = s := Run.ofFun_iff.mp hpre.ofGuarded
    rw [hs] at hstarts ⊢
    exact allowed_le_of_startsWindow hk hstarts hinside hmid

/-! ### Many one-off keys -/

lemma answers_append (hits : Hits κ) (cs cs' : List (Call κ)) :
    answers policy hits (cs ++ cs') =
      answers policy hits cs ++ answers policy (table policy hits cs) cs' := by
  induction cs generalizing hits with
  | nil => rfl
  | cons c cs ih => exact congrArg _ (ih _)

lemma allowed_append (as as' : List (Call κ × Bool)) :
    allowed k (as ++ as') = allowed k as + allowed k as' := List.countP_append

lemma allowed_of_others {calls : List (Call κ)} (h : ∀ c ∈ calls, c.key ≠ k) (hits : Hits κ) :
    allowed k (answers policy hits calls) = 0 := by
  induction calls generalizing hits with
  | nil => rfl
  | cons c calls ih =>
    rw [answers, allowed, List.countP_cons, ← allowed,
      ih fun d hd => h d (List.mem_cons_of_mem _ hd)]
    simp [h c List.mem_cons_self]

lemma lookup_singleton (k : κ) (e : Entry) : (AList.singleton k e : Hits κ).lookup k = some e :=
  AList.lookup_insert ∅

lemma mem_singleton {k' : κ} {e : Entry} : k' ∈ (AList.singleton k e : Hits κ) ↔ k' = k := by
  rw [← AList.insert_empty, AList.mem_insert]
  simp

/-- A key that calls again and again at one time, within its limit. -/
lemma table_of_burst {n now : Nat} (hn : n < (policy k).max) :
    table policy ∅ (List.replicate (n + 1) ⟨k, now⟩) = AList.singleton k ⟨n + 1, now⟩ ∧
      allowed k (answers policy ∅ (List.replicate (n + 1) ⟨k, now⟩)) = n + 1 := by
  induction n with
  | zero =>
    have hcall : allow (∅ : Hits κ) k (policy k) now = (AList.singleton k ⟨1, now⟩, true) := by
      rw [allow, prune, if_neg (by simp), AList.lookup_empty, Entry.hit_none hn]
      rfl
    rw [List.replicate_one, table_cons, table_nil, step, hcall, answers, answer, hcall]
    exact ⟨rfl, by simp [allowed, answers]⟩
  | succ n ih =>
    obtain ⟨htable, hallowed⟩ := ih (by omega)
    have hcall : allow (AList.singleton k ⟨n + 1, now⟩) k (policy k) now =
        (AList.singleton k ⟨n + 2, now⟩, true) := by
      rw [allow, prune, if_neg (by simp [maxEntries]), lookup_singleton,
        Entry.hit_inside (by simp), if_pos hn, AList.insert_singleton_eq]
    rw [List.replicate_succ', table_append, htable, table_cons, table_nil, step, hcall,
      answers_append, htable, allowed_append, hallowed, answers, answer, hcall]
    exact ⟨rfl, by simp [allowed, answers]⟩

/-- New keys fill the table up to one entry more than it may hold, and leave the old entries. -/
lemma table_of_fresh {keys : List κ} {now : Nat} (hnodup : keys.Nodup)
    (hfresh : ∀ key ∈ keys, key ∉ hits)
    (hsize : hits.entries.length + keys.length ≤ maxEntries + 1) :
    (table policy hits (keys.map fun key => ⟨key, now⟩)).entries.length =
        hits.entries.length + keys.length ∧
      ∀ k ∉ keys, (table policy hits (keys.map fun key => ⟨key, now⟩)).lookup k =
        hits.lookup k := by
  induction keys generalizing hits with
  | nil => exact ⟨rfl, fun _ _ => rfl⟩
  | cons key keys ih =>
    rw [List.nodup_cons] at hnodup
    rw [List.length_cons] at hsize
    have hsmall : prune hits (policy key).window now = hits := if_neg (by omega)
    obtain ⟨e, hstep⟩ : ∃ e, step policy hits ⟨key, now⟩ = hits.insert key e := by
      rw [step, allow, hsmall]
      exact ⟨_, rfl⟩
    have hlen : (hits.insert key e).entries.length = hits.entries.length + 1 := by
      rw [AList.entries_insert_of_notMem (hfresh key List.mem_cons_self), List.length_cons]
    obtain ⟨hlength, hlookup⟩ := @ih (hits.insert key e) hnodup.2 (by
      intro key' hkey' hmem
      obtain rfl | hmem := (AList.mem_insert _).mp hmem
      · exact hnodup.1 hkey'
      · exact hfresh key' (List.mem_cons_of_mem _ hkey') hmem) (by omega)
    rw [List.map_cons, table_cons, hstep]
    refine ⟨by rw [hlength, hlen, List.length_cons]; omega, fun k hk => ?_⟩
    rw [List.mem_cons, not_or] at hk
    rw [hlookup k hk.2, AList.lookup_insert_ne hk.1]

end Table

/-! ## Two windows in one table -/

/-- Thirty uploads an hour for an organisation, twenty calls a minute for anybody else. -/
def samplePolicy (key : String) : Policy :=
  if key = "reqdoc-org:7" then ⟨30, 3600⟩ else ⟨20, 60⟩

theorem keys_independent_sample :
    answersOf "reqdoc-org:7" (answers samplePolicy ∅ [⟨"reqdoc-org:7", 0⟩, ⟨"auth:a", 1⟩]) =
        answers samplePolicy ∅
          ([⟨"reqdoc-org:7", 0⟩, ⟨"auth:a", 1⟩].filter fun c => c.key = "reqdoc-org:7") ∧
      ∀ pre c mid post, [⟨"reqdoc-org:7", 0⟩, ⟨"auth:a", 1⟩] = pre ++ c :: mid ++ post →
        c.key = "reqdoc-org:7" → StartsWindow samplePolicy (table samplePolicy ∅ pre) c →
        (∀ d ∈ mid, d.now ≤ c.now + (samplePolicy "reqdoc-org:7").window) →
        allowed "reqdoc-org:7" (answers samplePolicy (table samplePolicy ∅ pre) (c :: mid)) ≤
          (samplePolicy "reqdoc-org:7").max :=
  keys_independent_of_run (by decide) (.cons ⟨by decide, rfl⟩ (.cons ⟨by decide, rfl⟩ (.nil _)))

/-- The keys of strangers who call once. -/
@[irreducible] def caller (n : Nat) : String :=
  String.ofList ('a' :: 'u' :: 't' :: 'h' :: ':' :: List.replicate n 'x')

lemma caller_injective : Function.Injective caller := by
  intro m n h
  rw [caller, caller] at h
  have hlist := String.ofList_injective h
  simpa using congrArg List.length hlist

lemma caller_ne_org (n : Nat) : caller n ≠ "reqdoc-org:7" := by
  intro h
  have hhead : (caller n).toList.head? = some 'r' := by
    rw [h]
    decide
  rw [caller, String.toList_ofList] at hhead
  exact absurd hhead (by simp)

/-- An organisation uses up its hour; ten thousand strangers call; a minute later another
stranger and then the organisation call. -/
def sampleBurst : List (Call String) := List.replicate 30 ⟨"reqdoc-org:7", 0⟩

def sampleStrangers : List (Call String) :=
  ((List.range maxEntries).map caller).map fun key => ⟨key, 0⟩

def sampleCalls : List (Call String) :=
  sampleBurst ++ (sampleStrangers ++ [⟨caller maxEntries, 61⟩, ⟨"reqdoc-org:7", 61⟩])

lemma filter_sampleCalls : sampleCalls.filter (fun c => c.key = "reqdoc-org:7") =
    sampleBurst ++ [⟨"reqdoc-org:7", 61⟩] := by
  have hstrangers : sampleStrangers.filter (fun c => c.key = "reqdoc-org:7") = [] := by
    rw [List.filter_eq_nil_iff]
    intro c hc
    obtain ⟨key, hkey, rfl⟩ := List.mem_map.mp hc
    obtain ⟨n, -, rfl⟩ := List.mem_map.mp hkey
    simpa using caller_ne_org n
  rw [sampleCalls, List.filter_append, List.filter_append, hstrangers,
    List.filter_eq_self.mpr (by simp [sampleBurst]), List.nil_append,
    List.filter_cons_of_neg (by simpa using caller_ne_org maxEntries)]
  rfl

lemma sampleBurst_spec :
    table samplePolicy ∅ sampleBurst = AList.singleton "reqdoc-org:7" ⟨30, 0⟩ ∧
      allowed "reqdoc-org:7" (answers samplePolicy ∅ sampleBurst) = 30 :=
  table_of_burst (by decide)

/-- The strangers fill the table and leave the organisation's entry. -/
lemma sampleStrangers_table :
    let hits := table samplePolicy (table samplePolicy ∅ sampleBurst) sampleStrangers
    hits.entries.length = maxEntries + 1 ∧ hits.lookup "reqdoc-org:7" = some ⟨30, 0⟩ := by
  have hnodup : ((List.range maxEntries).map caller).Nodup :=
    List.nodup_range.map caller_injective
  have hother : "reqdoc-org:7" ∉ (List.range maxEntries).map caller := by
    intro hmem
    obtain ⟨n, -, hn⟩ := List.mem_map.mp hmem
    exact caller_ne_org n hn
  have hfresh : ∀ key ∈ (List.range maxEntries).map caller,
      key ∉ (AList.singleton "reqdoc-org:7" ⟨30, 0⟩ : Hits String) := by
    intro key hkey hmem
    rw [mem_singleton] at hmem
    subst hmem
    exact hother hkey
  have hsize : (AList.singleton "reqdoc-org:7" ⟨30, 0⟩ : Hits String).entries.length +
      ((List.range maxEntries).map caller).length = maxEntries + 1 := by
    rw [List.length_map, List.length_range, Nat.add_comm]
    rfl
  rw [sampleBurst_spec.1]
  obtain ⟨hlength, hlookup⟩ := @table_of_fresh _ _ samplePolicy _ _ 0 hnodup hfresh (le_of_eq hsize)
  exact ⟨hlength.trans hsize, (hlookup _ hother).trans (lookup_singleton _ _)⟩

/-- A stranger's call, with its window of a minute, prunes the organisation's entry. -/
lemma org_allowed_after_pruning :
    answer samplePolicy
      (table samplePolicy (table samplePolicy ∅ sampleBurst)
        (sampleStrangers ++ [⟨caller maxEntries, 61⟩])) ⟨"reqdoc-org:7", 61⟩ = true := by
  obtain ⟨hlength, hlookup⟩ := sampleStrangers_table
  rw [table_append]
  generalize table samplePolicy (table samplePolicy ∅ sampleBurst) sampleStrangers = hits at *
  have hpolicy : samplePolicy (caller maxEntries) = ⟨20, 60⟩ :=
    if_neg (caller_ne_org maxEntries)
  have hlarge : maxEntries < hits.entries.length := by omega
  have hgone : (step samplePolicy hits ⟨caller maxEntries, 61⟩).lookup "reqdoc-org:7" = none := by
    rw [lookup_step_of_ne (Ne.symm (caller_ne_org maxEntries)), prune, if_pos hlarge,
      Assoc.lookup_mapEntries, hlookup, hpolicy]
    rfl
  have hpruned : (prune (step samplePolicy hits ⟨caller maxEntries, 61⟩)
      (samplePolicy "reqdoc-org:7").window 61).lookup "reqdoc-org:7" = none := by
    obtain hkept | ⟨hdropped, -⟩ := lookup_prune (step samplePolicy hits ⟨caller maxEntries, 61⟩)
      (samplePolicy "reqdoc-org:7").window 61 "reqdoc-org:7"
    · rw [hkept, hgone]
    · exact hdropped
  rw [table_cons, table_nil, answer, allow, hpruned, Entry.hit_none (by decide)]

lemma allowed_sampleCalls :
    allowed "reqdoc-org:7" (answers samplePolicy ∅ sampleCalls) = 31 := by
  have hothers : ∀ c ∈ sampleStrangers ++ [⟨caller maxEntries, 61⟩], c.key ≠ "reqdoc-org:7" := by
    intro c hc
    obtain hc | hc := List.mem_append.mp hc
    · obtain ⟨key, hkey, rfl⟩ := List.mem_map.mp hc
      obtain ⟨n, -, rfl⟩ := List.mem_map.mp hkey
      exact caller_ne_org n
    · rw [List.mem_singleton.mp hc]
      exact caller_ne_org maxEntries
  have hsplit : sampleCalls =
      sampleBurst ++ ((sampleStrangers ++ [⟨caller maxEntries, 61⟩]) ++ [⟨"reqdoc-org:7", 61⟩]) := by
    rw [sampleCalls, List.append_assoc]
    rfl
  rw [hsplit, answers_append, allowed_append, sampleBurst_spec.2, answers_append, allowed_append,
    allowed_of_others hothers, answers, org_allowed_after_pruning]
  rfl

/-- The organisation's answers are not those it gets alone, and within a minute of the start of
its hour it is allowed thirty-one calls of thirty. -/
theorem short_window_prunes_long :
    (sampleCalls.map Call.now).Pairwise (· ≤ ·) ∧
      answersOf "reqdoc-org:7" (answers samplePolicy ∅ sampleCalls) ≠
        answers samplePolicy ∅ (sampleCalls.filter fun c => c.key = "reqdoc-org:7") ∧
      ∃ c mid, sampleCalls = c :: mid ∧ c.key = "reqdoc-org:7" ∧ StartsWindow samplePolicy ∅ c ∧
        (∀ d ∈ mid, d.now ≤ c.now + (samplePolicy "reqdoc-org:7").window) ∧
        (samplePolicy "reqdoc-org:7").max <
          allowed "reqdoc-org:7" (answers samplePolicy ∅ (c :: mid)) := by
  have htimes : ∀ c ∈ sampleBurst ++ sampleStrangers, c.now = 0 := by
    intro c hc
    obtain hc | hc := List.mem_append.mp hc
    · rw [List.eq_of_mem_replicate hc]
    · obtain ⟨key, -, rfl⟩ := List.mem_map.mp hc
      rfl
  refine ⟨?_, ?_, ⟨"reqdoc-org:7", 0⟩,
    List.replicate 29 ⟨"reqdoc-org:7", 0⟩ ++
      (sampleStrangers ++ [⟨caller maxEntries, 61⟩, ⟨"reqdoc-org:7", 61⟩]), rfl, rfl,
    ⟨⟨1, 0⟩, by decide, rfl⟩, ?_, ?_⟩
  · rw [sampleCalls, ← List.append_assoc, List.map_append, List.pairwise_append]
    refine ⟨?_, by decide, ?_⟩
    · rw [List.map_congr_left htimes, List.map_const']
      exact List.pairwise_replicate.mpr (.inr le_rfl)
    · intro n hn m _
      obtain ⟨c, hc, rfl⟩ := List.mem_map.mp hn
      rw [htimes c hc]
      exact Nat.zero_le m
  · intro heq
    have hshared : allowed "reqdoc-org:7"
        (answersOf "reqdoc-org:7" (answers samplePolicy ∅ sampleCalls)) = 31 := by
      rw [← allowed_sampleCalls, allowed, answersOf, List.countP_filter]
      refine List.countP_congr fun a _ => ?_
      simp only [Bool.and_eq_true, decide_eq_true_eq]
      exact ⟨fun h => h.1, fun h => ⟨h, h.1⟩⟩
    rw [heq, filter_sampleCalls, answers_append, allowed_append, sampleBurst_spec.2,
      sampleBurst_spec.1] at hshared
    exact absurd hshared (by decide)
  · intro d hd
    obtain hd | hd := List.mem_append.mp hd
    · rw [htimes d (List.mem_append_left _ (List.mem_cons_of_mem _ hd))]
      exact Nat.zero_le _
    · obtain hd | hd := List.mem_append.mp hd
      · rw [htimes d (List.mem_append_right _ hd)]
        exact Nat.zero_le _
      · simp only [List.mem_cons, List.not_mem_nil, or_false] at hd
        obtain rfl | rfl := hd <;> decide
  · show _ < allowed _ (answers samplePolicy ∅ sampleCalls)
    rw [allowed_sampleCalls]
    decide

end VoxTranslate.Limits
