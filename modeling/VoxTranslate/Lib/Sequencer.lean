import Mathlib.Data.Fintype.Basic

/-!
# Replicas behind a sequencer

Every replica applies its own operations at once and sends them to a sequencer, which puts the
operations of all into one order.  A replica goes through that order and applies what is not its
own.  It has then applied the operations in another order than the others; it stands where the
one order leads as long as what it is given commutes with what it has not yet met of its own.
-/

namespace Lib

structure Sequencer (ι ω : Type*) where
  /-- What a replica has sent, and is not yet in the order. -/
  outbox : ι → List ω
  log : List (ι × ω)
  /-- How far a replica has gone through the order. -/
  seen : ι → Nat

namespace Sequencer

variable {ι ω σ : Type*} [DecidableEq ι] (q : Sequencer ι ω) (i : ι)

def idle : Sequencer ι ω := ⟨fun _ => [], [], fun _ => 0⟩

def send (ops : List ω) : Sequencer ι ω :=
  { q with outbox := Function.update q.outbox i (q.outbox i ++ ops) }

/-- The next operation of a replica is put into the order. -/
def order : Option (Sequencer ι ω) :=
  match q.outbox i with
  | [] => none
  | op :: ops =>
    some { q with outbox := Function.update q.outbox i ops, log := q.log ++ [(i, op)] }

/-- What a replica meets next, with its sender. -/
def next : Option (ι × ω) := q.log[q.seen i]?

def advance : Sequencer ι ω := { q with seen := Function.update q.seen i (q.seen i + 1) }

/-- What a replica has sent and not yet met. -/
def pending : List ω := ((q.log.drop (q.seen i)).filter (·.1 = i)).map Prod.snd ++ q.outbox i

/-- The operations of a replica, in the order in which they count. -/
def history : List ω := (q.log.take (q.seen i)).map Prod.snd ++ q.pending i

/-- A replica has met nothing that is not in the order. -/
def Sound : Prop := ∀ i, q.seen i ≤ q.log.length

/-- All is in the order, and every replica has gone through it. -/
def Delivered : Prop := ∀ i, q.outbox i = [] ∧ q.seen i = q.log.length

instance [Fintype ι] [DecidableEq ω] : Decidable q.Delivered :=
  inferInstanceAs (Decidable (∀ i, q.outbox i = [] ∧ q.seen i = q.log.length))

variable {q : Sequencer ι ω} {q' : Sequencer ι ω} {i j : ι} {op : ω} {ops : List ω}

omit [DecidableEq ι] in
lemma sound_idle : (idle : Sequencer ι ω).Sound := fun _ => Nat.zero_le _

lemma history_idle : (idle : Sequencer ι ω).history i = [] := rfl

lemma Sound.send (h : q.Sound) : (q.send i ops).Sound := h

lemma history_send_self : (q.send i ops).history i = q.history i ++ ops := by
  simp [history, pending, Sequencer.send]

lemma history_send_ne (h : j ≠ i) : (q.send i ops).history j = q.history j := by
  simp [history, pending, Sequencer.send, h]

lemma Sound.order (h : q.Sound) (ho : q.order i = some q') : q'.Sound := by
  rw [Sequencer.order] at ho
  split at ho
  · cases ho
  · cases ho
    intro j
    exact Nat.le_trans (h j) (by simp)

/-- To be put into the order makes no difference to any replica. -/
lemma history_order (h : q.Sound) (ho : q.order i = some q') : q'.history j = q.history j := by
  rw [Sequencer.order] at ho
  split at ho
  · cases ho
  next op ops hout =>
    cases ho
    simp only [history, pending, List.take_append_of_le_length (h j),
      List.drop_append_of_le_length (h j)]
    by_cases hj : i = j
    · subst hj
      simp [hout]
    · simp [hj, Ne.symm hj]

lemma Sound.advance (h : q.Sound) {e : ι × ω} (he : q.next i = some e) : (q.advance i).Sound := by
  intro j
  rw [Sequencer.advance]
  dsimp only
  by_cases hj : j = i
  · rw [hj, Function.update_self]
    exact (List.getElem?_eq_some_iff.mp he).1
  · rw [Function.update_of_ne hj]
    exact h j

lemma history_advance_ne (h : j ≠ i) : (q.advance i).history j = q.history j := by
  simp [history, pending, Sequencer.advance, h]

/-- A replica that meets one of its own operations. -/
lemma history_advance_own (h : q.next i = some (i, op)) :
    (q.advance i).history i = q.history i := by
  obtain ⟨hlt, hget⟩ := List.getElem?_eq_some_iff.mp h
  have hdrop := List.drop_eq_getElem_cons hlt
  rw [hget] at hdrop
  simp [history, pending, Sequencer.advance, hdrop, List.take_succ_eq_append_getElem hlt, hget]

/-- A replica that meets the operation of another. -/
lemma history_advance_other (h : q.next i = some (j, op)) (hj : j ≠ i) : ∃ before,
    q.history i = before ++ q.pending i ∧
      (q.advance i).history i = before ++ op :: q.pending i := by
  obtain ⟨hlt, hget⟩ := List.getElem?_eq_some_iff.mp h
  have hdrop := List.drop_eq_getElem_cons hlt
  rw [hget] at hdrop
  refine ⟨(q.log.take (q.seen i)).map Prod.snd, rfl, ?_⟩
  simp [history, pending, Sequencer.advance, hdrop, List.take_succ_eq_append_getElem hlt, hget, hj]

lemma Delivered.history_eq (h : q.Delivered) : q.history i = q.log.map Prod.snd := by
  obtain ⟨hout, hseen⟩ := h i
  simp [history, pending, hout, hseen]

/-- What commutes with all that follows may as well come last. -/
lemma foldl_cons_of_commute {f : σ → ω → σ} (h : ∀ op' ∈ ops, ∀ s, f (f s op) op' = f (f s op') op)
    (s : σ) : (op :: ops).foldl f s = f (ops.foldl f s) op := by
  induction ops generalizing s with
  | nil => rfl
  | cons op' ops ih =>
    have hrest := ih (fun op'' hop'' => h op'' (List.mem_cons_of_mem _ hop'')) (f s op')
    rw [List.foldl_cons] at hrest
    rw [List.foldl_cons, List.foldl_cons, h op' List.mem_cons_self, hrest, List.foldl_cons]

/-- **What a replica is given**, where it commutes with what is pending. -/
theorem foldl_history_advance {f : σ → ω → σ} (h : q.next i = some (j, op)) (hj : j ≠ i)
    (hcomm : ∀ op' ∈ q.pending i, ∀ s, f (f s op) op' = f (f s op') op) (s : σ) :
    ((q.advance i).history i).foldl f s = f ((q.history i).foldl f s) op := by
  obtain ⟨before, hbefore, hafter⟩ := history_advance_other h hj
  rw [hbefore, hafter, List.foldl_append, foldl_cons_of_commute hcomm, List.foldl_append]

end Sequencer

end Lib
