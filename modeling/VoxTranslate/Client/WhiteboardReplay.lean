import VoxTranslate.Client.Whiteboard
import VoxTranslate.Lib.Roster
import VoxTranslate.Lib.Run

/-!
# The board of a late joiner

The server keeps the last operations and gives them to whoever joins.  The replay does not know
that the last page cannot be deleted, and an operation that brought a page is dropped like any
other when it is the oldest.
-/

namespace VoxTranslate.Client

open Lib
open Rooms (WhiteboardOp Board maxWhiteboardOps)

def pageEvents (ops : List WhiteboardOp) : List (Roster.Event String) :=
  (ops.map mark).filterMap pageEvent

/-- A room, and the board of a client that was there from the start.  The observer keeps every
operation with its number, for two that are drawn may be equal. -/
structure Relay where
  board : Board
  observer : Whiteboard (WhiteboardOp × Nat)
  relayed : Nat

namespace Relay

def new : Relay := ⟨.blank, .new, 0⟩

/-- An operation is stored, and it is relayed. -/
def relay (s : Relay) (o : WhiteboardOp) : Relay where
  board := s.board.apply o
  observer := s.observer.applyOp Prod.fst (o, s.relayed)
  relayed := s.relayed + 1

/-- What the observer was sent is still stored. -/
def stored (s : Relay) (a : WhiteboardOp × Nat) : Bool :=
  s.relayed - s.board.whiteboard.length ≤ a.2

def joiner (s : Relay) : Whiteboard WhiteboardOp := .applySnapshot id s.board.whiteboard

/-- A late joiner has the pages of the observer, and on each what is still stored. -/
def Agrees (s : Relay) : Prop :=
  s.joiner.pages = s.observer.pages ∧
    ∀ pid, s.joiner.drawables id pid =
      ((s.observer.drawables Prod.fst pid).filter s.stored).map Prod.fst

/-- The oldest operation matters to none of the pages. -/
def oldestFades : List WhiteboardOp → Bool
  | [] => true
  | o :: log => (pageEvent (mark o)).all (Roster.fades defaultPage (pageEvents log))

/-- The operation deletes the only page. -/
def deletesOnly (s : Relay) (o : WhiteboardOp) : Bool :=
  match mark o with
  | .pageDel pid => s.observer.pages = [pid]
  | _ => false

/-- The operation does not delete the only page, and what is dropped for it matters to none of the
pages. -/
def keepsPages (s : Relay) (o : WhiteboardOp) : Bool :=
  mark o = .clear || !s.deletesOnly o &&
    (s.board.whiteboard.length < maxWhiteboardOps || oldestFades (s.board.whiteboard ++ [o]))

end Relay

/-! ## A replay -/

section Replay

variable {α β : Type*} {op : α → WhiteboardOp} {w : Whiteboard α} {a : α} {as : List α}

/-- What an operation that is replayed makes of what is drawn. -/
def drawn (op : α → WhiteboardOp) (l : List α) (a : α) : List α :=
  match mark (op a) with
  | .clear => l
  | .pageAdd _ => l
  | .pageDel pid => l.filter fun b => !onPage pid (op b)
  | .pageClear pid => l.filter fun b => !onPage pid (op b)
  | .drawable _ => l ++ [a]

lemma ops_replayOp : (w.replayOp op a).ops = drawn op w.ops a := by
  rw [Whiteboard.replayOp, drawn]
  cases mark (op a) with
  | pageAdd pid => exact Whiteboard.ops_ensurePage
  | _ => rfl

lemma ops_foldl_replayOp :
    (as.foldl (Whiteboard.replayOp op) w).ops = as.foldl (drawn op) w.ops := by
  induction as generalizing w with
  | nil => rfl
  | cons a as ih => rw [List.foldl_cons, List.foldl_cons, ih, ops_replayOp]

lemma pages_foldl_replayOp : (as.foldl (Whiteboard.replayOp op) w).pages =
    (pageEvents (as.map op)).foldl Roster.apply w.pages := by
  induction as generalizing w with
  | nil => rfl
  | cons a as ih =>
    rw [List.foldl_cons, ih, Whiteboard.pages_replayOp, pageEvents, pageEvents, List.map_cons,
      List.map_cons]
    cases hevent : pageEvent (mark (op a)) with
    | none => rw [List.filterMap_cons_none hevent, Option.elim_none]
    | some e => rw [List.filterMap_cons_some hevent, Option.elim_some, List.foldl_cons]

/-- What is replayed does not depend on what carries the operations. -/
lemma map_foldl_drawn {f : α → β} {op' : β → WhiteboardOp} (hf : ∀ a, op' (f a) = op a)
    (l : List α) : (as.foldl (drawn op) l).map f = (as.map f).foldl (drawn op') (l.map f) := by
  induction as generalizing l with
  | nil => rfl
  | cons a as ih =>
    rw [List.foldl_cons, ih, List.map_cons, List.foldl_cons]
    congr 1
    rw [drawn, drawn, hf]
    have hwipe : ∀ pid, (l.filter fun b => !onPage pid (op b)).map f =
        (l.map f).filter fun b => !onPage pid (op' b) := by
      intro pid
      rw [List.filter_map]
      congr 1
      exact List.filter_congr fun b _ => by simp [hf]
    cases mark (op a) with
    | pageDel pid => exact hwipe pid
    | pageClear pid => exact hwipe pid
    | drawable pid => simp
    | _ => rfl

/-- A part of what is drawn that holds all that is drawn later. -/
lemma filter_foldl_drawn {p : α → Bool} (hp : ∀ a ∈ as, p a = true) (l : List α) :
    (as.foldl (drawn op) l).filter p = as.foldl (drawn op) (l.filter p) := by
  induction as generalizing l with
  | nil => rfl
  | cons a as ih =>
    rw [List.foldl_cons, List.foldl_cons, ih fun b hb => hp b (List.mem_cons_of_mem _ hb)]
    congr 1
    rw [drawn, drawn]
    have hwipe : ∀ pid, (l.filter fun b => !onPage pid (op b)).filter p =
        (l.filter p).filter fun b => !onPage pid (op b) := by
      intro pid
      rw [List.filter_filter, List.filter_filter]
      exact List.filter_congr fun b _ => Bool.and_comm _ _
    cases mark (op a) with
    | pageDel pid => exact hwipe pid
    | pageClear pid => exact hwipe pid
    | drawable pid => simp [List.filter_append, hp a List.mem_cons_self]
    | _ => rfl

end Replay

/-! ## The observer and the log -/

/-- The log, of which the last operation has the number before `next`, and the board of an observer
that stands for it. -/
structure Faithful (log : List WhiteboardOp) (next : Nat) (w : Whiteboard (WhiteboardOp × Nat)) :
    Prop where
  length : log.length ≤ next
  tidy : w.Tidy Prod.fst
  pages : (pageEvents log).foldl Roster.apply [defaultPage] = w.pages
  ops : (log.zipIdx (next - log.length)).foldl (drawn Prod.fst) [] =
    w.ops.filter fun a => next - log.length ≤ a.2

namespace Faithful

variable {log : List WhiteboardOp} {next : Nat} {w : Whiteboard (WhiteboardOp × Nat)}
  {o : WhiteboardOp}

lemma nil (next : Nat) : Faithful [] next .new where
  length := Nat.zero_le _
  tidy := Whiteboard.tidy_new
  pages := rfl
  ops := rfl

/-- An operation is stored at the end of the log. -/
lemma concat (h : Faithful log next w) (hclear : mark o ≠ .clear)
    (hdel : ∀ pid, mark o = .pageDel pid → w.pages ≠ [pid]) :
    Faithful (log ++ [o]) (next + 1) (w.applyOp Prod.fst (o, next)) := by
  obtain ⟨hpages, hops⟩ := h.tidy.applyOp_eq (a := (o, next)) hclear hdel
  have hlen : (log ++ [o]).length = log.length + 1 := List.length_append
  have hbase : next + 1 - (log.length + 1) = next - log.length := Nat.add_sub_add_right _ _ _
  refine ⟨?_, h.tidy.applyOp hdel, ?_, ?_⟩
  · rw [hlen]
    exact Nat.succ_le_succ h.length
  · rw [hpages, Whiteboard.pages_replayOp, ← h.pages]
    simp only [pageEvents, List.map_append, List.filterMap_append, List.foldl_append]
    cases hevent : pageEvent (mark o) <;> simp [hevent]
  · have hplace : next - log.length + log.length = next := Nat.sub_add_cancel h.length
    rw [hlen, hbase, hops, ops_replayOp, List.zipIdx_append, List.foldl_append, hplace]
    have hkept : ∀ a ∈ [(o, next)], decide (next - log.length ≤ a.2) = true := by simp
    rw [h.ops]
    exact (filter_foldl_drawn hkept w.ops).symm

/-- The oldest operation is dropped. -/
lemma tail (h : Faithful (o :: log) next w)
    (hfades : Relay.oldestFades (o :: log) = true) : Faithful log next w := by
  have hlen : log.length + 1 ≤ next := h.length
  refine ⟨by omega, h.tidy, ?_, ?_⟩
  · rw [← h.pages]
    rw [Relay.oldestFades] at hfades
    simp only [pageEvents, List.map_cons]
    cases hevent : pageEvent (mark o) with
    | none => rw [List.filterMap_cons_none hevent]
    | some e =>
      rw [hevent, Option.all_some, Roster.fades_iff] at hfades
      rw [List.filterMap_cons_some hevent, List.foldl_cons]
      exact hfades.symm
  · have hbase : next - (o :: log).length + 1 = next - log.length := by
      rw [List.length_cons]
      omega
    have hops := h.ops
    rw [List.zipIdx_cons, hbase] at hops
    have hold : ∀ a ∈ log.zipIdx (next - log.length), decide (next - log.length ≤ a.2) = true :=
      fun a ha => decide_eq_true (List.le_snd_of_mem_zipIdx ha)
    have hnew := congrArg (List.filter fun a => decide (next - log.length ≤ a.2)) hops
    rw [List.foldl_cons, filter_foldl_drawn hold, List.filter_filter] at hnew
    have hgone : (drawn Prod.fst [] (o, next - (o :: log).length)).filter
        (fun a => decide (next - log.length ≤ a.2)) = [] := by
      refine List.filter_eq_nil_iff.mpr fun a ha => ?_
      have hsame : a = (o, next - (o :: log).length) := by
        rw [drawn] at ha
        dsimp only at ha
        cases hmark : mark o <;> simp_all
      rw [hsame, decide_eq_true_iff, ← hbase]
      exact Nat.not_succ_le_self _
    rw [hgone] at hnew
    refine hnew.trans (List.filter_congr fun a _ => ?_)
    have hle : next - (o :: log).length ≤ next - log.length := hbase ▸ Nat.le_succ _
    rw [Bool.and_eq_left_iff_imp, decide_eq_true_iff, decide_eq_true_iff]
    exact hle.trans

/-- The board of a late joiner. -/
lemma joiner (h : Faithful log next w) :
    (Whiteboard.applySnapshot id log).pages = w.pages ∧
      ∀ pid, (Whiteboard.applySnapshot id log).drawables id pid =
        ((w.drawables Prod.fst pid).filter fun a => next - log.length ≤ a.2).map Prod.fst := by
  have hpages : (log.foldl (Whiteboard.replayOp id) .new).pages = w.pages := by
    rw [pages_foldl_replayOp, List.map_id]
    exact h.pages
  have hops : (log.foldl (Whiteboard.replayOp id) .new).ops =
      (w.ops.filter fun a => next - log.length ≤ a.2).map Prod.fst := by
    have hfst : ∀ a : WhiteboardOp × ℕ, id (Prod.fst a) = Prod.fst a := fun _ => rfl
    have hmap : ((log.zipIdx (next - log.length)).foldl (drawn Prod.fst) []).map Prod.fst =
        ((log.zipIdx (next - log.length)).map Prod.fst).foldl (drawn id) [] :=
      map_foldl_drawn hfst []
    rw [List.zipIdx_map_fst] at hmap
    rw [ops_foldl_replayOp, ← h.ops, hmap]
    rfl
  refine ⟨?_, fun pid => ?_⟩
  · rw [Whiteboard.applySnapshot]
    dsimp only
    rw [hpages, if_neg h.tidy.nonempty]
  · rw [Whiteboard.drawables, Whiteboard.drawables, Whiteboard.applySnapshot]
    dsimp only
    rw [hops, List.filter_map, List.filter_filter, List.filter_filter]
    congr 1
    exact List.filter_congr fun a _ => Bool.and_comm _ _

end Faithful

namespace Relay

variable {s : Relay} {o : WhiteboardOp}

/-- The log and the board of the observer match, and the log is within its bound. -/
structure Inv (s : Relay) : Prop where
  faithful : Faithful s.board.whiteboard s.relayed s.observer
  bounded : s.board.whiteboard.length ≤ maxWhiteboardOps

lemma mark_eq_clear : mark o = .clear ↔ o = .clear := by
  cases o with
  | clear => exact ⟨fun _ => rfl, fun _ => rfl⟩
  | draw id tool _ _ _ =>
    refine ⟨fun h => ?_, nofun⟩
    rw [mark] at h
    split_ifs at h

lemma whiteboard_relay (h : o ≠ .clear) : (s.relay o).board.whiteboard =
    (s.board.whiteboard ++ [o]).drop ((s.board.whiteboard ++ [o]).length - maxWhiteboardOps) := by
  rw [relay, Rooms.Board.apply.eq_def]
  split
  · exact absurd rfl h
  · dsimp only

/-- **One operation**. -/
lemma Inv.relay (h : s.Inv) (hkeeps : s.keepsPages o = true) : (s.relay o).Inv := by
  by_cases hclear : o = .clear
  · rw [hclear]
    exact ⟨.nil _, Nat.zero_le _⟩
  · have hmark : mark o ≠ .clear := fun hm => hclear (mark_eq_clear.mp hm)
    simp only [keepsPages, Bool.or_eq_true, Bool.and_eq_true, decide_eq_true_iff, hmark, false_or,
      Bool.not_eq_true'] at hkeeps
    have hdel : ∀ pid, mark o = .pageDel pid → s.observer.pages ≠ [pid] := by
      intro pid hpid heq
      have honly : s.deletesOnly o = true := by
        rw [deletesOnly, hpid]
        exact decide_eq_true heq
      exact Bool.false_ne_true (hkeeps.1.symm.trans honly)
    have hconcat := h.faithful.concat hmark hdel
    have hboard := whiteboard_relay (s := s) hclear
    have hlen : (s.board.whiteboard ++ [o]).length = s.board.whiteboard.length + 1 :=
      List.length_append
    by_cases hfull : s.board.whiteboard.length < maxWhiteboardOps
    · have hnone : (s.board.whiteboard ++ [o]).length - maxWhiteboardOps = 0 := by omega
      rw [hnone, List.drop_zero] at hboard
      refine ⟨hboard ▸ hconcat, ?_⟩
      rw [hboard, hlen]
      exact hfull
    · have hone : (s.board.whiteboard ++ [o]).length - maxWhiteboardOps = 1 := by
        have := h.bounded
        omega
      obtain ⟨oldest, log, hlog⟩ := List.exists_cons_of_ne_nil
        (List.append_ne_nil_of_right_ne_nil s.board.whiteboard (List.cons_ne_nil o []))
      rw [hone, hlog, List.drop_one, List.tail_cons] at hboard
      rw [hlog] at hconcat hkeeps hlen
      have hfades := hkeeps.2.resolve_left hfull
      refine ⟨hboard ▸ hconcat.tail hfades, ?_⟩
      rw [hboard, Nat.succ.inj hlen]
      exact h.bounded

/-- **A late joiner agrees with an observer**, in any state of a run in which no operation deletes
the only page, and none is dropped that matters to the pages. -/
theorem agrees_of_run {ops : List WhiteboardOp}
    (h : Run (Guarded (ofFun relay) fun s o => s.keepsPages o = true) new ops s) : s.Agrees := by
  have hinv : s.Inv := h.invariant Inv (fun s o _ t hs hstep => hstep.2 ▸ hs.relay hstep.1)
    ⟨.nil 0, Nat.zero_le _⟩
  exact hinv.faithful.joiner

/-- Nothing but the last operations is stored. -/
lemma whiteboard_foldl_relay {ops : List WhiteboardOp} (hops : .clear ∉ ops) :
    (ops.foldl relay new).board.whiteboard = ops.drop (ops.length - maxWhiteboardOps) := by
  induction ops using List.reverseRecOn with
  | nil => rfl
  | append_singleton ops o ih =>
    have hclear : o ≠ .clear := by
      rintro rfl
      exact hops (List.mem_append_right _ (List.mem_singleton_self _))
    have hlen : ops.length - maxWhiteboardOps + ((ops ++ [o]).length -
        (ops.length - maxWhiteboardOps) - maxWhiteboardOps) =
        (ops ++ [o]).length - maxWhiteboardOps := by
      rw [List.length_append, List.length_singleton]
      omega
    rw [List.foldl_append, List.foldl_cons, List.foldl_nil, whiteboard_relay hclear,
      ih fun hmem => hops (List.mem_append_left _ hmem),
      ← List.drop_append_of_le_length (Nat.sub_le _ _), List.length_drop, List.drop_drop, hlen]

/-- What is drawn on a page of the board leaves the pages. -/
lemma pages_foldl_relay {ops : List WhiteboardOp} {pid : String} (s : Relay)
    (hops : ∀ o ∈ ops, mark o = .drawable pid) (hpid : pid ∈ s.observer.pages) :
    (ops.foldl relay s).observer.pages = s.observer.pages := by
  refine foldl_invariant (I := fun t : Relay => t.observer.pages = s.observer.pages)
    (fun t o ho ht => ?_) rfl
  rw [relay, Whiteboard.applyOp]
  dsimp only
  rw [hops o ho]
  dsimp only
  rw [Whiteboard.pages_ensurePage, if_pos (ht ▸ hpid), ht]

/-- A joiner that is given nothing but strokes on the first page has no other. -/
lemma pages_applySnapshot {log : List WhiteboardOp}
    (hlog : ∀ o ∈ log, mark o = .drawable defaultPage) :
    (Whiteboard.applySnapshot id log).pages = [defaultPage] := by
  have hpages : (log.foldl (Whiteboard.replayOp id) .new).pages = [defaultPage] := by
    refine foldl_invariant (I := fun w : Whiteboard WhiteboardOp => w.pages = [defaultPage])
      (fun w o ho hw => ?_) rfl
    rw [Whiteboard.pages_replayOp, id_eq, hlog o ho, hw]
    rfl
  rw [Whiteboard.applySnapshot]
  dsimp only
  rw [hpages, if_neg (List.cons_ne_nil _ _)]

/-- A stroke on the first page. -/
def stroke : WhiteboardOp := .draw "p1:0" "pen" "#f1f5f9" 0 [(0, 0)]

/-- The last page is deleted for the late joiner only; and a page is lost when its marker is the
oldest operation. -/
theorem joiner_disagrees :
    (∃ s, Run (ofFun relay) new [relayMarker "page-add" "p2", relayMarker "page-del" "p1",
      relayMarker "page-del" "p2"] s ∧ ¬ s.Agrees) ∧
    ∃ s, Run (ofFun relay) new
      (relayMarker "page-add" "p2" :: List.replicate maxWhiteboardOps stroke) s ∧ ¬ s.Agrees := by
  refine ⟨⟨_, Run.ofFun_iff.mpr rfl, fun h => ?_⟩, ⟨_, Run.ofFun_iff.mpr rfl, fun h => ?_⟩⟩
  · exact absurd h.1 (by decide)
  · have hmark : ∀ o ∈ List.replicate maxWhiteboardOps stroke, mark o = .drawable defaultPage :=
      fun o ho => (List.eq_of_mem_replicate ho).symm ▸ by decide
    have hdrop : (relayMarker "page-add" "p2" :: List.replicate maxWhiteboardOps stroke).drop
        ((relayMarker "page-add" "p2" :: List.replicate maxWhiteboardOps stroke).length -
          maxWhiteboardOps) = List.replicate maxWhiteboardOps stroke := by
      rw [List.length_cons, List.length_replicate, Nat.add_sub_cancel_left, List.drop_one,
        List.tail_cons]
    have hclear : .clear ∉ relayMarker "page-add" "p2" :: List.replicate maxWhiteboardOps stroke :=
      fun hmem => (List.mem_cons.mp hmem).elim nofun fun hrep =>
        nomatch List.eq_of_mem_replicate hrep
    have hpages := h.1
    rw [joiner, whiteboard_foldl_relay hclear, hdrop, pages_applySnapshot hmark, List.foldl_cons,
      pages_foldl_relay _ hmark (by decide)] at hpages
    exact absurd hpages (by decide)

/-- Two pages are drawn on, the first is deleted, and the other is wiped and drawn on again. -/
theorem agrees_sample : (List.foldl relay new [stroke, relayMarker "page-add" "p2",
    .draw "p2:0" "rect" "#f1f5f9" 0 [(0, 0), (1, 1)], relayMarker "page-del" "p1",
    relayMarker "page-clear" "p2", .draw "p2:1" "pen" "#f1f5f9" 0 [(0, 1)]]).Agrees :=
  agrees_of_run (Run.guarded_ofFun (by decide))

end Relay

end VoxTranslate.Client
