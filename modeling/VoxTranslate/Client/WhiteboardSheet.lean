import Mathlib.Data.List.TakeWhile
import Mathlib.Data.Set.Insert
import VoxTranslate.Client.WhiteboardEditor

/-!
# The sheet of a whiteboard

What two clients can compare of their boards is which pages there are, and what is drawn on them.
On the sheet no page is the last one, and what two clients do commutes unless one deletes or wipes
a page that the other draws on or adds.  Every edit makes of the sheet what it sends to the others
makes of theirs.
-/

namespace VoxTranslate.Client

open Rooms (WhiteboardOp)

@[ext]
structure Sheet where
  pages : Set String
  drawn : Set WhiteboardOp

namespace Sheet

def blank : Sheet := ⟨{defaultPage}, ∅⟩

def wipe (s : Sheet) (pid : String) : Sheet :=
  { s with drawn := {o | o ∈ s.drawn ∧ onPage pid o = false} }

def apply (s : Sheet) (o : WhiteboardOp) : Sheet :=
  match mark o with
  | .clear => blank
  | .pageAdd pid => { s with pages := insert pid s.pages }
  | .pageDel pid => { s.wipe pid with pages := {pid' | pid' ∈ s.pages ∧ pid' ≠ pid} }
  | .pageClear pid => s.wipe pid
  | .drawable pid => ⟨insert pid s.pages, insert o s.drawn⟩

end Sheet

/-- Two operations that one client does while another does the other. -/
def clashes : Mark → Mark → Bool
  | .clear, _ => true
  | _, .clear => true
  | .pageDel pid, .pageAdd pid' => pid = pid'
  | .pageDel pid, .drawable pid' => pid = pid'
  | .pageAdd pid, .pageDel pid' => pid = pid'
  | .drawable pid, .pageDel pid' => pid = pid'
  | .pageClear pid, .drawable pid' => pid = pid'
  | .drawable pid, .pageClear pid' => pid = pid'
  | _, _ => false

lemma clashes_comm (m m' : Mark) : clashes m m' = clashes m' m := by
  cases m <;> cases m' <;> simp [clashes, eq_comm]

namespace Mark

def addsPage : Mark → String → Bool
  | .clear, pid => pid = defaultPage
  | .pageAdd pid', pid => pid = pid'
  | .drawable pid', pid => pid = pid'
  | _, _ => false

def keepsPage : Mark → String → Bool
  | .clear, _ => false
  | .pageDel pid', pid => pid ≠ pid'
  | _, _ => true

def addsDrawn : Mark → Bool
  | .drawable _ => true
  | _ => false

def keepsDrawn : Mark → WhiteboardOp → Bool
  | .clear, _ => false
  | .pageDel pid, o => !onPage pid o
  | .pageClear pid, o => !onPage pid o
  | _, _ => true

end Mark

namespace Sheet

variable {s : Sheet} {o o' x : WhiteboardOp} {pid : String}

lemma mem_pages_apply : pid ∈ (s.apply o).pages ↔
    pid ∈ s.pages ∧ (mark o).keepsPage pid = true ∨ (mark o).addsPage pid = true := by
  rw [apply]
  cases mark o <;> simp [blank, wipe, Mark.keepsPage, Mark.addsPage, or_comm]

lemma mem_drawn_apply : x ∈ (s.apply o).drawn ↔
    x ∈ s.drawn ∧ (mark o).keepsDrawn x = true ∨ (mark o).addsDrawn = true ∧ x = o := by
  rw [apply]
  cases mark o <;> simp [blank, wipe, Mark.keepsDrawn, Mark.addsDrawn, or_comm]

lemma keepsPage_of_not_clashes {m m' : Mark} (h : clashes m m' = false)
    (hadds : m.addsPage pid = true) : m'.keepsPage pid = true := by
  cases m <;> cases m' <;> simp_all [clashes, Mark.addsPage, Mark.keepsPage]

lemma keepsDrawn_of_not_clashes (h : clashes (mark o) (mark o') = false)
    (hadds : (mark o).addsDrawn = true) : (mark o').keepsDrawn o = true := by
  cases hm : mark o with
  | drawable pid =>
    have hon : ∀ pid', pid' ≠ pid → onPage pid' o = false := fun pid' hne =>
      Bool.eq_false_iff.mpr fun hon => hne ((Whiteboard.onPage_of_drawable hm).mp hon)
    rw [hm] at h
    cases hm' : mark o' with
    | clear =>
      rw [hm'] at h
      cases h
    | pageDel pid' =>
      rw [Mark.keepsDrawn, hon pid' fun heq => by simp [hm', clashes, heq] at h]
      rfl
    | pageClear pid' =>
      rw [Mark.keepsDrawn, hon pid' fun heq => by simp [hm', clashes, heq] at h]
      rfl
    | _ => rfl
  | _ =>
    rw [hm] at hadds
    cases hadds

/-- Two updates of a membership commute when neither takes away what the other adds. -/
lemma update_comm {p keeps keeps' adds adds' : Prop} (h : adds → keeps') (h' : adds' → keeps) :
    ((p ∧ keeps ∨ adds) ∧ keeps' ∨ adds') ↔ ((p ∧ keeps' ∨ adds') ∧ keeps ∨ adds) := by
  tauto

/-- **Operations that do not clash commute**. -/
lemma apply_comm (h : clashes (mark o) (mark o') = false) (s : Sheet) :
    (s.apply o).apply o' = (s.apply o').apply o := by
  have h' := (clashes_comm _ _).symm.trans h
  apply Sheet.ext
  · refine Set.ext fun pid => ?_
    simp only [mem_pages_apply]
    exact update_comm (keepsPage_of_not_clashes h) (keepsPage_of_not_clashes h')
  · refine Set.ext fun x => ?_
    have hkeeps : (mark o).addsDrawn = true ∧ x = o → (mark o').keepsDrawn x = true :=
      fun hx => hx.2 ▸ keepsDrawn_of_not_clashes h hx.1
    have hkeeps' : (mark o').addsDrawn = true ∧ x = o' → (mark o).keepsDrawn x = true :=
      fun hx => hx.2 ▸ keepsDrawn_of_not_clashes h' hx.1
    simp only [mem_drawn_apply]
    exact update_comm hkeeps hkeeps'

end Sheet

/-! ## Boards -/

namespace Whiteboard

variable {w w' : Whiteboard WhiteboardOp} {o : WhiteboardOp} {pid : String}

/-- What is shown of a board. -/
def sheet (w : Whiteboard WhiteboardOp) : Sheet := ⟨{pid | pid ∈ w.pages}, {o | o ∈ w.ops}⟩

/-- **An operation that is applied**, unless it deletes the only page. -/
lemma Tidy.sheet_applyOp (h : w.Tidy id) (hdel : ∀ pid, mark o = .pageDel pid → w.pages ≠ [pid]) :
    (w.applyOp id o).sheet = w.sheet.apply o := by
  rw [Whiteboard.applyOp, Sheet.apply, id_eq]
  cases hmark : mark o with
  | clear => simp [sheet, new, Sheet.blank]
  | pageAdd pid =>
    apply Sheet.ext
    · exact Set.ext fun pid' => mem_pages_ensurePage.trans or_comm
    · simp [sheet]
  | pageDel pid =>
    obtain ⟨hpages, hops⟩ := h.removePage (hdel pid hmark)
    apply Sheet.ext
    · exact Set.ext fun pid' => by simp [sheet, hpages]
    · exact Set.ext fun x => by simp [sheet, hops, wipe, Sheet.wipe]
  | pageClear pid =>
    apply Sheet.ext
    · rfl
    · exact Set.ext fun x => by simp [sheet, wipe, Sheet.wipe]
  | drawable pid =>
    apply Sheet.ext
    · exact Set.ext fun pid' => mem_pages_ensurePage.trans or_comm
    · exact Set.ext fun x => by simp [sheet, or_comm]

end Whiteboard

/-! ## The names of the pages -/

lemma not_mem_pageOf (id : String) : ':' ∉ (pageOf id).toList := by
  rw [pageOf]
  split_ifs
  · rw [String.toList_ofList]
    intro hmem
    simpa using List.mem_takeWhile_imp hmem
  · decide

lemma pageOf_append {pid : String} (h : ':' ∉ pid.toList) (rest : String) :
    pageOf (pid ++ ":" ++ rest) = pid := by
  have hlist : (pid ++ ":" ++ rest).toList = pid.toList ++ ':' :: rest.toList := by
    simp [String.toList_append]
  have hall : ∀ c ∈ pid.toList, decide (c ≠ ':') = true :=
    fun c hc => decide_eq_true fun heq => h (heq ▸ hc)
  rw [pageOf, hlist, if_pos (by simp), List.takeWhile_append_of_pos hall,
    List.takeWhile_cons_of_neg (by simp), List.append_nil, String.ofList_toList]

/-- A page that an operation adds has a name without a colon. -/
lemma not_mem_of_addsPage {o : WhiteboardOp} {pid : String} (h : (mark o).addsPage pid = true) :
    ':' ∉ pid.toList := by
  cases o with
  | clear =>
    rw [mark, Mark.addsPage, decide_eq_true_iff] at h
    rw [h]
    decide
  | draw id tool _ _ _ =>
    rw [mark] at h
    split_ifs at h
    · rw [Mark.addsPage, decide_eq_true_iff] at h
      exact h ▸ not_mem_pageOf id
    · cases h
    · cases h
    · rw [Mark.addsPage, decide_eq_true_iff] at h
      exact h ▸ not_mem_pageOf id

namespace Whiteboard

variable {w : Whiteboard WhiteboardOp} {o : WhiteboardOp} {ops : List WhiteboardOp} {pid : String}

/-- A board that shows one of its pages, and the names of all have no colon. -/
structure Clean (w : Whiteboard WhiteboardOp) : Prop where
  tidy : w.Tidy id
  current : w.current ∈ w.pages
  names : ∀ pid ∈ w.pages, ':' ∉ pid.toList

lemma clean_new : (new : Whiteboard WhiteboardOp).Clean := by
  refine ⟨tidy_new, List.mem_singleton_self _, fun pid hpid => ?_⟩
  rw [List.mem_singleton.mp hpid]
  decide

lemma current_applyOp (h : w.Tidy id) (hcurrent : w.current ∈ w.pages)
    (hdel : ∀ pid, mark o = .pageDel pid → w.pages ≠ [pid]) :
    (w.applyOp id o).current ∈ (w.applyOp id o).pages := by
  rw [Whiteboard.applyOp, id_eq]
  cases hmark : mark o with
  | clear => exact List.mem_singleton_self _
  | pageAdd pid =>
    refine mem_pages_ensurePage.mpr (.inl ?_)
    rwa [current_ensurePage]
  | pageDel pid =>
    dsimp only
    rw [removePage]
    by_cases hlen : w.pages.length ≤ 1
    · rwa [if_pos hlen]
    · rw [if_neg hlen]
      dsimp only
      split_ifs with heq
      · obtain ⟨pid', rest, hcons⟩ := List.exists_cons_of_ne_nil
          (Lib.Roster.apply_remove_ne_nil h.nodup h.nonempty (hdel pid hmark))
        rw [Lib.Roster.apply] at hcons
        rw [hcons]
        exact List.mem_cons_self
      · exact List.mem_filter.mpr ⟨hcurrent, decide_eq_true heq⟩
  | pageClear pid => exact hcurrent
  | drawable pid =>
    refine mem_pages_ensurePage.mpr (.inl ?_)
    simpa using hcurrent

lemma Clean.applyOp (h : w.Clean) (hdel : ∀ pid, mark o = .pageDel pid → w.pages ≠ [pid]) :
    (w.applyOp id o).Clean := by
  refine ⟨h.tidy.applyOp hdel, current_applyOp h.tidy h.current hdel, fun pid hpid => ?_⟩
  have hmem : pid ∈ (w.sheet.apply o).pages := h.tidy.sheet_applyOp hdel ▸ hpid
  rcases Sheet.mem_pages_apply.mp hmem with ⟨hold, -⟩ | hadds
  · exact h.names pid hold
  · exact not_mem_of_addsPage hadds

lemma Clean.setCurrent (h : w.Clean) (hpid : pid ∈ w.pages) : Clean { w with current := pid } :=
  ⟨h.tidy.of_eq rfl rfl, hpid, h.names⟩

/-- Draws on pages of the board. -/
lemma Clean.draw (h : w.Clean) (hops : ∀ o ∈ ops, ∃ pid ∈ w.pages, mark o = .drawable pid) :
    Clean { w with ops := w.ops ++ ops } ∧
      sheet { w with ops := w.ops ++ ops } = ops.foldl Sheet.apply w.sheet := by
  induction ops generalizing w with
  | nil =>
    have hsame : { w with ops := w.ops ++ [] } = w := by rw [List.append_nil]
    exact ⟨hsame.symm ▸ h, by rw [hsame]; rfl⟩
  | cons o ops ih =>
    obtain ⟨pid, hpid, hmark⟩ := hops o List.mem_cons_self
    have hdel : ∀ pid', mark o = .pageDel pid' → w.pages ≠ [pid'] :=
      fun _ hm => nomatch hmark.symm.trans hm
    have hpush : w.applyOp id o = { w with ops := w.ops ++ [o] } := by
      rw [Whiteboard.applyOp, id_eq, hmark]
      dsimp only
      rw [ensurePage, if_pos hpid]
    have hsheet := h.tidy.sheet_applyOp hdel
    have hclean := h.applyOp hdel
    rw [hpush] at hsheet hclean
    have hrest := ih hclean fun o' ho' => hops o' (List.mem_cons_of_mem _ ho')
    dsimp only at hrest
    rw [List.append_assoc, List.singleton_append, hsheet] at hrest
    exact hrest

end Whiteboard

end VoxTranslate.Client
