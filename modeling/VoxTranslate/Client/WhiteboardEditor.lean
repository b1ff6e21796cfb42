import Mathlib.Algebra.Order.Field.Rat
import VoxTranslate.Client.Whiteboard

/-!
# Editing the whiteboard

A client draws and changes the pages of its own board at once, and sends the operations that do
the same to the others.  A stroke is sent in batches while it is drawn, on the page where it began.
-/

namespace VoxTranslate.Client

open Rooms (WhiteboardOp)

inductive WbTool where
  | pen
  | highlighter
  | eraser
  | line
  | arrow
  | rect
  | ellipse
  deriving DecidableEq, Repr

namespace WbTool

def name : WbTool → String
  | .pen => "pen"
  | .highlighter => "highlighter"
  | .eraser => "eraser"
  | .line => "line"
  | .arrow => "arrow"
  | .rect => "rect"
  | .ellipse => "ellipse"

def freehand : WbTool → Bool
  | .pen | .highlighter | .eraser => true
  | _ => false

end WbTool

inductive WbWidth where
  | s
  | m
  | l
  deriving DecidableEq, Repr

/-- A fraction of the width of the board. -/
def WbWidth.base : WbWidth → ℚ
  | .s => 35 / 10000
  | .m => 6 / 1000
  | .l => 11 / 1000

/-- The board of a client, and what it is drawing. -/
structure Editor extends Whiteboard WhiteboardOp where
  tool : WbTool
  color : String
  widthKey : WbWidth
  drawing : Bool
  strokeId : String
  strokeSeq : Nat
  pending : List (ℚ × ℚ)
  last : Option (ℚ × ℚ)
  shapeStart : Option (ℚ × ℚ)
  deriving DecidableEq

namespace Editor

def new : Editor where
  toWhiteboard := .new
  tool := .pen
  color := "#f1f5f9"
  widthKey := .m
  drawing := false
  strokeId := ""
  strokeSeq := 0
  pending := []
  last := none
  shapeStart := none

def opWidth (e : Editor) : ℚ :=
  match e.tool with
  | .eraser => e.widthKey.base * 6
  | .highlighter => e.widthKey.base * 4
  | _ => e.widthKey.base

/-- The operation of another client is applied. -/
def applyOp (e : Editor) (o : WhiteboardOp) : Editor :=
  { e with toWhiteboard := e.toWhiteboard.applyOp id o }

def onDown (e : Editor) (pt : ℚ × ℚ) : Editor :=
  if e.tool.freehand then
    { e with
      drawing := true, strokeId := e.current ++ ":" ++ toString e.strokeSeq
      strokeSeq := e.strokeSeq + 1, last := none, pending := [pt] }
  else { e with drawing := true, shapeStart := some pt }

def onMove (e : Editor) (pt : ℚ × ℚ) : Editor :=
  if e.drawing && e.tool.freehand then { e with pending := e.pending ++ [pt] } else e

/-- What a client draws is on its own board at once. -/
def draw (e : Editor) (o : WhiteboardOp) : Editor × List WhiteboardOp :=
  ({ e with ops := e.ops ++ [o] }, [o])

/-- The points that wait go out as one draw, which begins where the last one ended. -/
def flush (e : Editor) : Editor × List WhiteboardOp :=
  if e.pending = [] then (e, [])
  else
    { e with last := e.pending.getLast?, pending := [] }.draw
      (.draw e.strokeId e.tool.name e.color e.opWidth (e.last.toList ++ e.pending))

/-- A shape that is as good as a point is dropped. -/
def onUp (e : Editor) (pt : ℚ × ℚ) : Editor × List WhiteboardOp :=
  if !e.drawing then (e, [])
  else if e.tool.freehand then { e with drawing := false }.flush
  else
    match e.shapeStart with
    | none => ({ e with drawing := false }, [])
    | some start =>
      if |pt.1 - start.1| < 2 / 1000 ∧ |pt.2 - start.2| < 2 / 1000 then
        ({ e with drawing := false, shapeStart := none }, [])
      else
        { e with drawing := false, shapeStart := none, strokeSeq := e.strokeSeq + 1 }.draw
          (.draw (e.current ++ ":" ++ toString e.strokeSeq) e.tool.name e.color e.opWidth
            [start, pt])

/-- Show another page; this is not relayed. -/
def setPageIndex (e : Editor) (index : Nat) : Editor :=
  match e.pages[index]? with
  | none => e
  | some pid =>
    if pid = "" ∨ pid = e.current then e else { e with current := pid, shapeStart := none }

/-- A new page has a random name, and the next number of the client in it. -/
def newPageId (e : Editor) (random : String) : String :=
  "p-" ++ random ++ "-" ++ toString e.strokeSeq

def addPage (e : Editor) (random : String) : Editor × List WhiteboardOp :=
  let pid := e.newPageId random
  ({ e with
      toWhiteboard := { e.toWhiteboard.ensurePage pid with current := pid }
      strokeSeq := e.strokeSeq + 1 }, [relayMarker "page-add" pid])

/-- A draw as it is on another page, under a new number. -/
def copyTo (pid : String) (seq : Nat) : WhiteboardOp → WhiteboardOp
  | .clear => .clear
  | .draw _ tool color width points => .draw (pid ++ ":" ++ toString seq) tool color width points

/-- What is copied of the current page. -/
def copied (e : Editor) : List WhiteboardOp :=
  e.ops.filter fun o => mark o = .drawable e.current

def duplicatePage (e : Editor) (random : String) : Editor × List WhiteboardOp :=
  let pid := e.newPageId random
  let copies := (e.copied.zipIdx (e.strokeSeq + 1)).map fun c => copyTo pid c.2 c.1
  ({ e with
      toWhiteboard :=
        { e.toWhiteboard.ensurePage pid with ops := e.ops ++ copies, current := pid }
      strokeSeq := e.strokeSeq + 1 + copies.length }, relayMarker "page-add" pid :: copies)

/-- The last page stays. -/
def deleteCurrentPage (e : Editor) : Editor × List WhiteboardOp :=
  if e.pages.length ≤ 1 then (e, [])
  else
    ({ e with toWhiteboard := e.toWhiteboard.removePage id e.current },
      [relayMarker "page-del" e.current])

def clearPage (e : Editor) : Editor × List WhiteboardOp :=
  ({ e with toWhiteboard := e.toWhiteboard.wipe id e.current },
    [relayMarker "page-clear" e.current])

/-- What the user does, or the timer of a stroke. -/
inductive Edit where
  | choose (tool : WbTool) (color : String) (widthKey : WbWidth)
  | pointerDown (pt : ℚ × ℚ)
  | pointerMove (pt : ℚ × ℚ)
  | pointerUp (pt : ℚ × ℚ)
  | flush
  | setPageIndex (index : Nat)
  | addPage (random : String)
  | duplicatePage (random : String)
  | deleteCurrentPage
  | clearPage
  deriving DecidableEq

/-- The digits of a random number in base 36. -/
def isRandom (random : String) : Bool := random.toList.all Char.isAlphanum

/-- An edit, and what is sent; `none` where it cannot happen. -/
def edit (e : Editor) : Edit → Option (Editor × List WhiteboardOp)
  | .choose tool color widthKey => some ({ e with tool, color, widthKey }, [])
  | .pointerDown pt => some (e.onDown pt, [])
  | .pointerMove pt => some (e.onMove pt, [])
  | .pointerUp pt => some (e.onUp pt)
  | .flush => some e.flush
  | .setPageIndex index => some (e.setPageIndex index, [])
  | .addPage random => if isRandom random then some (e.addPage random) else none
  -- a new page is not the current one, or the loop over what is drawn would not end
  | .duplicatePage random =>
    if isRandom random ∧ e.newPageId random ≠ e.current then some (e.duplicatePage random)
    else none
  | .deleteCurrentPage => some e.deleteCurrentPage
  | .clearPage => some e.clearPage

end Editor

end VoxTranslate.Client
