import VoxTranslate.Client.WhiteboardSheet
import VoxTranslate.Lib.Decimal
import VoxTranslate.Lib.Run
import VoxTranslate.Lib.Sequencer

/-!
# Editors of one whiteboard

The clients of a room edit their boards at once, and the server relays what they did to the others
in one order.  The boards differ in the end where somebody drew on a page that another deleted or
wiped meanwhile, where a deletion came to a board that had no other page, and where a stroke went
on after its page was gone.
-/

namespace VoxTranslate.Client

open Lib
open Rooms (WhiteboardOp)

/-! ## One edit -/

namespace Editor

variable {e e' : Editor} {ev : Edit}

/-- What is drawn has a page: the points that wait are on a page of the board. -/
def strokeHasPage (e : Editor) : Bool := e.pending = [] || pageOf e.strokeId ∈ e.pages

/-- A stroke does not go on after its page is gone. -/
def strokesOnPage (e : Editor) : Edit → Bool
  | .flush => e.strokeHasPage
  | .pointerUp _ => !e.drawing || !e.tool.freehand || e.strokeHasPage
  | _ => true

/-- The board stays clean, and what was sent makes of a sheet what the edit made of it. -/
def Follows (e e' : Editor) (ops : List WhiteboardOp) : Prop :=
  e'.Clean ∧ e'.sheet = ops.foldl Sheet.apply e.sheet

lemma follows_nil (h : e.Clean) (hboard : e'.toWhiteboard = e.toWhiteboard) :
    Follows e e' [] := by
  rw [Follows, hboard]
  exact ⟨h, rfl⟩

lemma mark_draw (id color : String) (tool : WbTool) (width : ℚ) (points : List (ℚ × ℚ)) :
    mark (.draw id tool.name color width points) = .drawable (pageOf id) := by
  have hname : tool.name ≠ "page-add" ∧ tool.name ≠ "page-del" ∧ tool.name ≠ "page-clear" := by
    cases tool <;> decide
  rw [mark, if_neg hname.1, if_neg hname.2.1, if_neg hname.2.2]

lemma mark_relayMarker {pid : String} (h : ':' ∉ pid.toList) :
    mark (relayMarker "page-add" pid) = .pageAdd pid ∧
      mark (relayMarker "page-del" pid) = .pageDel pid ∧
      mark (relayMarker "page-clear" pid) = .pageClear pid := by
  simp [relayMarker, mark, pageOf_append h]

lemma not_mem_newPageId {random : String} (h : isRandom random = true) :
    ':' ∉ (e.newPageId random).toList := by
  intro hmem
  simp only [newPageId, String.toList_append, List.mem_append] at hmem
  rcases hmem with ((hmem | hmem) | hmem) | hmem
  · exact absurd hmem (by decide)
  · have hcolon := List.all_eq_true.mp h ':' hmem
    exact absurd hcolon (by decide)
  · exact absurd hmem (by decide)
  · rw [toList_toString] at hmem
    exact not_mem_decimal (by decide) hmem

/-- What is drawn at once goes to a page of the board. -/
lemma follows_draw (h : e.Clean) {o : WhiteboardOp} {pid : String} (hpid : pid ∈ e.pages)
    (hmark : mark o = .drawable pid) : Follows e (e.draw o).1 (e.draw o).2 :=
  Whiteboard.Clean.draw h fun _ ho' => ⟨pid, hpid, List.mem_singleton.mp ho' ▸ hmark⟩

lemma follows_flush (h : e.Clean) (hpage : e.strokeHasPage = true) :
    Follows e e.flush.1 e.flush.2 := by
  rw [flush]
  split_ifs with hpending
  · exact follows_nil h rfl
  · rw [strokeHasPage, decide_eq_false hpending, Bool.false_or, decide_eq_true_iff] at hpage
    exact follows_draw (e := { e with last := e.pending.getLast?, pending := [] }) h hpage
      (mark_draw _ _ _ _ _)

lemma follows_onUp (h : e.Clean) {pt : ℚ × ℚ}
    (hpage : (!e.drawing || !e.tool.freehand || e.strokeHasPage) = true) :
    Follows e (e.onUp pt).1 (e.onUp pt).2 := by
  rw [onUp]
  cases hdrawing : e.drawing with
  | false => exact follows_nil h rfl
  | true =>
    cases hfree : e.tool.freehand with
    | true =>
      have hstroke : e.strokeHasPage = true := by simpa [hdrawing, hfree] using hpage
      exact follows_flush (e := { e with drawing := false }) h hstroke
    | false =>
      cases hstart : e.shapeStart with
      | none => exact follows_nil h rfl
      | some start =>
        simp only [Bool.not_true, Bool.false_eq_true, if_false]
        split_ifs
        · exact follows_nil h rfl
        · refine follows_draw (e := { e with
            drawing := false, shapeStart := none, strokeSeq := e.strokeSeq + 1 }) h h.current ?_
          rw [mark_draw, pageOf_append (h.names _ h.current)]

/-- A page is added, and shown. -/
lemma follows_addPage (h : e.Clean) {random : String} (hrandom : isRandom random = true) :
    Follows e (e.addPage random).1 (e.addPage random).2 := by
  have hmark := (mark_relayMarker (not_mem_newPageId (e := e) hrandom)).1
  have hdel : ∀ pid, mark (relayMarker "page-add" (e.newPageId random)) = .pageDel pid →
      e.pages ≠ [pid] := fun _ hm => nomatch hmark.symm.trans hm
  have happly : e.toWhiteboard.applyOp id (relayMarker "page-add" (e.newPageId random)) =
      e.toWhiteboard.ensurePage (e.newPageId random) := by
    rw [Whiteboard.applyOp, id_eq, hmark]
  have hclean := Whiteboard.Clean.applyOp h hdel
  have hsheet := h.tidy.sheet_applyOp hdel
  rw [happly] at hclean hsheet
  refine ⟨hclean.setCurrent ?_, hsheet⟩
  exact Whiteboard.mem_pages_ensurePage.mpr (.inr rfl)

lemma mark_copyTo {o : WhiteboardOp} {pid pid' : String} (h : mark o = .drawable pid')
    (hpid : ':' ∉ pid.toList) (seq : Nat) : mark (copyTo pid seq o) = .drawable pid := by
  cases o with
  | clear => cases h
  | draw id tool _ _ _ =>
    rw [mark] at h
    rw [copyTo, mark, pageOf_append hpid]
    split_ifs at h ⊢
    rfl

lemma follows_duplicatePage (h : e.Clean) {random : String} (hrandom : isRandom random = true) :
    Follows e (e.duplicatePage random).1 (e.duplicatePage random).2 := by
  obtain ⟨hclean, hsheet⟩ := follows_addPage h hrandom
  have hcopies : ∀ o ∈ (e.copied.zipIdx (e.strokeSeq + 1)).map fun c =>
      copyTo (e.newPageId random) c.2 c.1,
      ∃ pid ∈ (e.addPage random).1.pages, mark o = .drawable pid := by
    intro o ho
    obtain ⟨c, hc, rfl⟩ := List.mem_map.mp ho
    have hcopied : c.1 ∈ e.copied := List.fst_mem_of_mem_zipIdx hc
    have hmark : mark c.1 = .drawable e.current := of_decide_eq_true (List.mem_filter.mp hcopied).2
    refine ⟨e.newPageId random, Whiteboard.mem_pages_ensurePage.mpr (.inr rfl), ?_⟩
    exact mark_copyTo hmark (not_mem_newPageId hrandom) _
  obtain ⟨hclean', hsheet'⟩ := hclean.draw hcopies
  rw [hsheet] at hsheet'
  have hops : (e.addPage random).1.ops = e.ops := Whiteboard.ops_ensurePage
  rw [hops] at hclean' hsheet'
  exact ⟨hclean', hsheet'⟩

lemma follows_deleteCurrentPage (h : e.Clean) :
    Follows e e.deleteCurrentPage.1 e.deleteCurrentPage.2 := by
  rw [deleteCurrentPage]
  split_ifs with hlen
  · exact follows_nil h rfl
  · have hmark := (mark_relayMarker (h.names _ h.current)).2.1
    have hdel : ∀ pid, mark (relayMarker "page-del" e.current) = .pageDel pid →
        e.pages ≠ [pid] := by
      intro pid _ heq
      exact hlen (by rw [heq, List.length_singleton])
    have happly : e.toWhiteboard.applyOp id (relayMarker "page-del" e.current) =
        e.toWhiteboard.removePage id e.current := by
      rw [Whiteboard.applyOp, id_eq, hmark]
    have hclean := Whiteboard.Clean.applyOp h hdel
    have hsheet := h.tidy.sheet_applyOp hdel
    rw [happly] at hclean hsheet
    exact ⟨hclean, hsheet⟩

lemma follows_clearPage (h : e.Clean) : Follows e e.clearPage.1 e.clearPage.2 := by
  have hmark := (mark_relayMarker (h.names _ h.current)).2.2
  have hdel : ∀ pid, mark (relayMarker "page-clear" e.current) = .pageDel pid → e.pages ≠ [pid] :=
    fun _ hm => nomatch hmark.symm.trans hm
  have happly : e.toWhiteboard.applyOp id (relayMarker "page-clear" e.current) =
      e.toWhiteboard.wipe id e.current := by
    rw [Whiteboard.applyOp, id_eq, hmark]
  have hclean := Whiteboard.Clean.applyOp h hdel
  have hsheet := h.tidy.sheet_applyOp hdel
  rw [happly] at hclean hsheet
  exact ⟨hclean, hsheet⟩

/-- **One edit**, if no stroke goes on after its page is gone. -/
lemma follows_edit (h : e.Clean) (hpage : e.strokesOnPage ev = true)
    {r : Editor × List WhiteboardOp} (hedit : e.edit ev = some r) : Follows e r.1 r.2 := by
  cases ev with
  | choose tool color widthKey =>
    cases hedit
    exact follows_nil h rfl
  | pointerDown pt =>
    cases hedit
    refine follows_nil h ?_
    rw [onDown]
    split_ifs <;> rfl
  | pointerMove pt =>
    cases hedit
    refine follows_nil h ?_
    rw [onMove]
    split_ifs <;> rfl
  | pointerUp pt =>
    cases hedit
    exact follows_onUp h hpage
  | flush =>
    cases hedit
    exact follows_flush h hpage
  | setPageIndex index =>
    cases hedit
    dsimp only
    rw [setPageIndex]
    split
    · exact follows_nil h rfl
    next pid hpid =>
      split_ifs
      · exact follows_nil h rfl
      · exact ⟨Whiteboard.Clean.setCurrent h (List.mem_of_getElem? hpid), rfl⟩
  | addPage random =>
    rw [edit] at hedit
    split_ifs at hedit with hrandom
    cases hedit
    exact follows_addPage h hrandom
  | duplicatePage random =>
    rw [edit] at hedit
    split_ifs at hedit with hrandom
    cases hedit
    exact follows_duplicatePage h hrandom.1
  | deleteCurrentPage =>
    cases hedit
    exact follows_deleteCurrentPage h
  | clearPage =>
    cases hedit
    exact follows_clearPage h

end Editor

/-! ## Many editors -/

/-- The clients of a room, and the server that relays what they do. -/
structure Boards (ι : Type*) where
  editor : ι → Editor
  relay : Sequencer ι WhiteboardOp

inductive BoardEvent (ι : Type*) where
  | edit (i : ι) (ev : Editor.Edit)
  /-- The server stores and relays the next operation of a client. -/
  | order (i : ι)
  /-- A client comes to the next operation of the server's order; its own is not sent to it. -/
  | deliver (i : ι)
  deriving DecidableEq

namespace Boards

variable {ι : Type*} [DecidableEq ι]

def new : Boards ι := ⟨fun _ => .new, .idle⟩

/-- One event; `none` where it cannot happen. -/
def step (s : Boards ι) : BoardEvent ι → Option (Boards ι)
  | .edit i ev =>
    ((s.editor i).edit ev).map fun r =>
      ⟨Function.update s.editor i r.1, s.relay.send i r.2⟩
  | .order i => (s.relay.order i).map fun relay => { s with relay }
  | .deliver i =>
    (s.relay.next i).map fun sent =>
      ⟨if sent.1 = i then s.editor
        else Function.update s.editor i ((s.editor i).applyOp sent.2), s.relay.advance i⟩

/-- The boards agree in what is shown of each page. -/
def Converged (s : Boards ι) : Prop :=
  ∀ i j, (∀ pid, pid ∈ (s.editor i).pages ↔ pid ∈ (s.editor j).pages) ∧
    ∀ pid o, o ∈ (s.editor i).drawables id pid ↔ o ∈ (s.editor j).drawables id pid

/-- The operation deletes the only page of the board it comes to. -/
def deletesOnly (e : Editor) (o : WhiteboardOp) : Bool :=
  match mark o with
  | .pageDel pid => e.pages = [pid]
  | _ => false

/-- What comes to a client clashes with nothing that is pending there, and does not delete its only
page; and no stroke goes on after its page is gone. -/
def avoidsClash (s : Boards ι) : BoardEvent ι → Bool
  | .edit i ev => (s.editor i).strokesOnPage ev
  | .order _ => true
  | .deliver i =>
    (s.relay.next i).all fun sent => sent.1 = i || !deletesOnly (s.editor i) sent.2 &&
      (s.relay.pending i).all fun own => !clashes (mark sent.2) (mark own)

/-- Each board is as its history makes it. -/
structure Inv (s : Boards ι) : Prop where
  relay : s.relay.Sound
  clean : ∀ i, (s.editor i).Clean
  sheet : ∀ i, (s.editor i).sheet = (s.relay.history i).foldl Sheet.apply .blank

variable {s t : Boards ι}

lemma inv_new : (new : Boards ι).Inv := by
  refine ⟨Sequencer.sound_idle, fun _ => Whiteboard.clean_new, fun _ => ?_⟩
  rw [new, Sequencer.history_idle]
  simp [Editor.new, Whiteboard.sheet, Whiteboard.new, Sheet.blank]

/-- **One event** that clashes with nothing. -/
lemma Inv.step (h : s.Inv) {event : BoardEvent ι} (hguard : s.avoidsClash event = true)
    (hstep : s.step event = some t) : t.Inv := by
  cases event with
  | edit i ev =>
    obtain ⟨r, hedit, rfl⟩ := Option.map_eq_some_iff.mp hstep
    obtain ⟨hclean, hsheet⟩ := Editor.follows_edit (h.clean i) hguard hedit
    refine ⟨h.relay.send, fun j => ?_, fun j => ?_⟩
    · by_cases hj : j = i
      · subst hj
        simpa using hclean
      · simpa [hj] using h.clean j
    · by_cases hj : j = i
      · subst hj
        simp only [Function.update_self, hsheet, h.sheet, Sequencer.history_send_self,
          List.foldl_append]
      · simp only [Function.update_of_ne hj, Sequencer.history_send_ne hj, h.sheet]
  | order i =>
    obtain ⟨relay, horder, rfl⟩ := Option.map_eq_some_iff.mp hstep
    refine ⟨h.relay.order horder, h.clean, fun j => ?_⟩
    dsimp only
    rw [h.sheet, Sequencer.history_order h.relay horder]
  | deliver i =>
    obtain ⟨⟨j, o⟩, hnext, rfl⟩ := Option.map_eq_some_iff.mp hstep
    by_cases hj : j = i
    · subst hj
      rw [if_pos rfl]
      refine ⟨h.relay.advance hnext, h.clean, fun k => ?_⟩
      dsimp only
      by_cases hk : k = j
      · subst hk
        rw [h.sheet, Sequencer.history_advance_own hnext]
      · rw [h.sheet, Sequencer.history_advance_ne hk]
    · rw [avoidsClash, hnext] at hguard
      simp only [Option.all_some, hj, decide_false, Bool.false_or, Bool.and_eq_true,
        Bool.not_eq_true', List.all_eq_true] at hguard
      have hdel : ∀ pid, mark o = .pageDel pid → (s.editor i).pages ≠ [pid] := by
        intro pid hmark heq
        have honly : deletesOnly (s.editor i) o = true := by
          rw [deletesOnly, hmark]
          exact decide_eq_true heq
        exact Bool.false_ne_true (hguard.1.symm.trans honly)
      have hclean := Whiteboard.Clean.applyOp (h.clean i) hdel
      have hsheet := (h.clean i).tidy.sheet_applyOp hdel
      rw [if_neg hj]
      refine ⟨h.relay.advance hnext, fun k => ?_, fun k => ?_⟩
      · by_cases hk : k = i
        · subst hk
          simpa [Editor.applyOp] using hclean
        · simpa [hk] using h.clean k
      · by_cases hk : k = i
        · subst hk
          have hcomm : ∀ own ∈ s.relay.pending k, ∀ sh : Sheet,
              (sh.apply o).apply own = (sh.apply own).apply o :=
            fun own hown => Sheet.apply_comm (hguard.2 own hown)
          simp only [Function.update_self, Editor.applyOp]
          rw [hsheet, h.sheet, Sequencer.foldl_history_advance hnext hj hcomm]
        · simp only [Function.update_of_ne hk]
          rw [h.sheet, Sequencer.history_advance_ne hk]

/-- The first of two clients adds a page, and the second shows it. -/
def secondPage : List (BoardEvent (Fin 2)) :=
  [.edit 0 (.addPage "a"), .order 0, .deliver 0, .deliver 1, .edit 1 (.setPageIndex 1)]

/-- What both have sent is put into the order, and comes to both. -/
def exchange : List (BoardEvent (Fin 2)) :=
  [.order 0, .order 1, .deliver 0, .deliver 0, .deliver 1, .deliver 1]

end Boards

end VoxTranslate.Client
