import VoxTranslate.Lib.Roster
import VoxTranslate.Rooms.Lifetimes

/-!
# The whiteboard of a client

A client keeps the pages of the board in order, and all that is drawn on them.  What changes the
pages is sent as draws without points, and the page of a draw stands in its id.  A client that was
there applies the operations as they come; one that joins late is given those that the server has
stored, and replays them.
-/

namespace VoxTranslate.Client

open Lib
open Rooms (WhiteboardOp)

def defaultPage : String := "p1"

/-- The page of a draw stands before the first colon of its id. -/
def pageOf (id : String) : String :=
  if ':' ∈ id.toList then .ofList (id.toList.takeWhile (· ≠ ':')) else defaultPage

/-- What an operation is for; its tool says it. -/
inductive Mark where
  | clear
  | pageAdd (pid : String)
  | pageDel (pid : String)
  | pageClear (pid : String)
  | drawable (pid : String)
  deriving DecidableEq, Repr

def mark : WhiteboardOp → Mark
  | .clear => .clear
  | .draw id tool _ _ _ =>
    if tool = "page-add" then .pageAdd (pageOf id)
    else if tool = "page-del" then .pageDel (pageOf id)
    else if tool = "page-clear" then .pageClear (pageOf id)
    else .drawable (pageOf id)

/-- What an operation does to the pages. -/
def pageEvent : Mark → Option (Roster.Event String)
  | .clear => none
  | .pageAdd pid => some (.add pid)
  | .pageDel pid => some (.remove pid)
  | .pageClear _ => none
  | .drawable pid => some (.add pid)

/-- An operation on the pages, as a client relays it. -/
def relayMarker (tool pid : String) : WhiteboardOp := .draw (pid ++ ":" ++ tool) tool "" 0 []

def onPage (pid : String) : WhiteboardOp → Bool
  | .clear => false
  | .draw id _ _ _ _ => pageOf id = pid

/-- The board.  It keeps objects of any type that carry an operation. -/
structure Whiteboard (α : Type*) where
  ops : List α
  pages : List String
  current : String
  deriving DecidableEq

namespace Whiteboard

variable {α : Type*} (op : α → WhiteboardOp)

def new : Whiteboard α := ⟨[], [defaultPage], defaultPage⟩

/-- What is drawn on a page, in order. -/
def drawables (w : Whiteboard α) (pid : String) : List α :=
  w.ops.filter fun a => onPage pid (op a)

/-- Without what is drawn on a page. -/
def wipe (w : Whiteboard α) (pid : String) : Whiteboard α :=
  { w with ops := w.ops.filter fun a => !onPage pid (op a) }

def ensurePage (w : Whiteboard α) (pid : String) : Whiteboard α :=
  if pid ∈ w.pages then w else { w with pages := w.pages ++ [pid] }

/-- The last page is never deleted. -/
def removePage (w : Whiteboard α) (pid : String) : Whiteboard α :=
  if w.pages.length ≤ 1 then w
  else
    let pages := w.pages.filter (· ≠ pid)
    { w.wipe op pid with
      pages, current := if w.current = pid then pages.headD defaultPage else w.current }

/-- Apply a remote operation. -/
def applyOp (w : Whiteboard α) (a : α) : Whiteboard α :=
  match mark (op a) with
  | .clear => new
  | .pageAdd pid => w.ensurePage pid
  | .pageDel pid => w.removePage op pid
  | .pageClear pid => w.wipe op pid
  | .drawable pid => { w.ensurePage pid with ops := w.ops ++ [a] }

/-- One operation of the log that a late joiner is given. -/
def replayOp (w : Whiteboard α) (a : α) : Whiteboard α :=
  match mark (op a) with
  | .clear => w
  | .pageAdd pid => w.ensurePage pid
  | .pageDel pid => { w.wipe op pid with pages := w.pages.filter (· ≠ pid) }
  | .pageClear pid => w.wipe op pid
  | .drawable pid => { w.ensurePage pid with ops := w.ops ++ [a] }

/-- The board of a late joiner. -/
def applySnapshot (ops : List α) : Whiteboard α :=
  let w := ops.foldl (replayOp op) new
  { w with
    current := if w.current ∈ w.pages then w.current else w.pages.headD defaultPage
    pages := if w.pages = [] then [defaultPage] else w.pages }

variable {op} {w w' : Whiteboard α} {pid : String} {a : α}

@[simp] lemma ops_ensurePage : (w.ensurePage pid).ops = w.ops := by
  rw [ensurePage]
  split_ifs <;> rfl

@[simp] lemma current_ensurePage : (w.ensurePage pid).current = w.current := by
  rw [ensurePage]
  split_ifs <;> rfl

lemma pages_ensurePage : (w.ensurePage pid).pages =
    if pid ∈ w.pages then w.pages else w.pages ++ [pid] := by
  rw [ensurePage]
  split_ifs <;> rfl

@[simp] lemma mem_pages_ensurePage {pid' : String} :
    pid' ∈ (w.ensurePage pid).pages ↔ pid' ∈ w.pages ∨ pid' = pid := by
  rw [pages_ensurePage]
  split_ifs with h
  · refine ⟨.inl, ?_⟩
    rintro (h' | rfl)
    · exact h'
    · exact h
  · simp

lemma pages_replayOp : (w.replayOp op a).pages =
    (pageEvent (mark (op a))).elim w.pages (Roster.apply w.pages) := by
  rw [replayOp]
  cases mark (op a) with
  | pageAdd pid => exact pages_ensurePage
  | drawable pid => exact pages_ensurePage
  | _ => rfl

/-- A board has each of its pages once, has one at least, and what is drawn on it is on them. -/
structure Tidy (op : α → WhiteboardOp) (w : Whiteboard α) : Prop where
  nodup : w.pages.Nodup
  nonempty : w.pages ≠ []
  registered : ∀ a ∈ w.ops, ∀ pid, onPage pid (op a) = true → pid ∈ w.pages

lemma tidy_new : (new : Whiteboard α).Tidy op :=
  ⟨List.nodup_singleton _, List.cons_ne_nil _ _, nofun⟩

lemma Tidy.of_eq (h : w.Tidy op) (hpages : w'.pages = w.pages) (hops : w'.ops = w.ops) :
    w'.Tidy op := by
  refine ⟨hpages ▸ h.nodup, hpages ▸ h.nonempty, ?_⟩
  rw [hpages, hops]
  exact h.registered

lemma onPage_of_drawable {o : WhiteboardOp} {pid' : String} (h : mark o = .drawable pid) :
    onPage pid' o = true ↔ pid' = pid := by
  cases o with
  | clear => cases h
  | draw id tool _ _ _ =>
    have hpid : pageOf id = pid := by
      rw [mark] at h
      split_ifs at h
      cases h
      rfl
    rw [onPage, hpid, decide_eq_true_iff, eq_comm]

lemma mem_wipe {b : α} : b ∈ (w.wipe op pid).ops ↔ b ∈ w.ops ∧ onPage pid (op b) = false := by
  simp [wipe]

/-- Where the page is not the only one, a deletion takes it and what is drawn on it. -/
lemma Tidy.removePage (h : w.Tidy op) (hne : w.pages ≠ [pid]) :
    (w.removePage op pid).pages = w.pages.filter (· ≠ pid) ∧
      (w.removePage op pid).ops = (w.wipe op pid).ops := by
  rw [Whiteboard.removePage]
  by_cases hlen : w.pages.length ≤ 1
  · obtain ⟨pid', rest, hcons⟩ := List.exists_cons_of_ne_nil h.nonempty
    have hone : w.pages = [pid'] := by
      rw [hcons, List.length_cons] at hlen
      rw [hcons, List.eq_nil_of_length_eq_zero (by omega : rest.length = 0)]
    have hother : pid' ≠ pid := fun heq => hne (heq ▸ hone)
    rw [if_pos hlen]
    constructor
    · rw [hone, List.filter_cons_of_pos (by simpa using hother), List.filter_nil]
    · refine (List.filter_eq_self.mpr fun a ha => ?_).symm
      cases hon : onPage pid (op a) with
      | false => rfl
      | true =>
        have hmem := h.registered a ha pid hon
        rw [hone, List.mem_singleton] at hmem
        exact absurd hmem.symm hother
  · rw [if_neg hlen]
    exact ⟨rfl, rfl⟩

/-- Unless it deletes the only page, an operation is applied as it is replayed. -/
lemma Tidy.applyOp_eq (h : w.Tidy op) (hclear : mark (op a) ≠ .clear)
    (hdel : ∀ pid, mark (op a) = .pageDel pid → w.pages ≠ [pid]) :
    (w.applyOp op a).pages = (w.replayOp op a).pages ∧
      (w.applyOp op a).ops = (w.replayOp op a).ops := by
  rw [Whiteboard.applyOp, Whiteboard.replayOp]
  cases hmark : mark (op a) with
  | clear => exact absurd hmark hclear
  | pageDel pid => exact h.removePage (hdel pid hmark)
  | _ => exact ⟨rfl, rfl⟩

lemma Tidy.replayOp (h : w.Tidy op)
    (hdel : ∀ pid, mark (op a) = .pageDel pid → w.pages ≠ [pid]) : (w.replayOp op a).Tidy op := by
  refine ⟨?_, ?_, fun b hb pid' hon => ?_⟩
  · rw [pages_replayOp]
    cases pageEvent (mark (op a)) with
    | none => exact h.nodup
    | some e => exact Roster.nodup_apply h.nodup
  · rw [pages_replayOp]
    cases hmark : mark (op a) with
    | pageDel pid => exact Roster.apply_remove_ne_nil h.nodup h.nonempty (hdel pid hmark)
    | pageAdd pid => exact List.ne_nil_of_mem Roster.mem_apply_add
    | drawable pid => exact List.ne_nil_of_mem Roster.mem_apply_add
    | _ => exact h.nonempty
  · rw [Whiteboard.replayOp] at hb ⊢
    cases hmark : mark (op a) with
    | clear =>
      rw [hmark] at hb
      exact h.registered b hb pid' hon
    | pageAdd pid =>
      rw [hmark] at hb
      dsimp only at hb
      rw [ops_ensurePage] at hb
      exact mem_pages_ensurePage.mpr (.inl (h.registered b hb pid' hon))
    | pageDel pid =>
      rw [hmark] at hb
      obtain ⟨hmem, hoff⟩ := mem_wipe.mp hb
      refine List.mem_filter.mpr ⟨h.registered b hmem pid' hon, decide_eq_true ?_⟩
      rintro rfl
      exact Bool.false_ne_true (hoff.symm.trans hon)
    | pageClear pid =>
      rw [hmark] at hb
      exact h.registered b (mem_wipe.mp hb).1 pid' hon
    | drawable pid =>
      rw [hmark] at hb
      refine mem_pages_ensurePage.mpr ?_
      rcases List.mem_append.mp hb with hold | hnew
      · exact .inl (h.registered b hold pid' hon)
      · rw [List.mem_singleton.mp hnew] at hon
        exact .inr ((onPage_of_drawable hmark).mp hon)

lemma Tidy.applyOp (h : w.Tidy op)
    (hdel : ∀ pid, mark (op a) = .pageDel pid → w.pages ≠ [pid]) : (w.applyOp op a).Tidy op := by
  by_cases hclear : mark (op a) = .clear
  · rw [Whiteboard.applyOp, hclear]
    exact tidy_new
  · obtain ⟨hpages, hops⟩ := h.applyOp_eq hclear hdel
    exact (h.replayOp hdel).of_eq hpages hops

end Whiteboard

end VoxTranslate.Client
