import VoxTranslate.Webinar.Chat

/-!
# The chat panel of a page (`webinar-chat.ts`)

A panel is given messages from three sides: those that are sent to everybody while the page is
connected, those that it fetches from the table, and its own, which it renders as soon as they are
accepted.  It renders the first that comes of each id.
-/

namespace VoxTranslate.Client.Chat

open Engine Webinar Webinar.Chat

/-! ## What is sent -/

/-- The whitespace of `String.prototype.trim`. -/
def isJsWhitespace (c : Char) : Bool :=
  c.toNat = 0xFEFF || (isWhitespace c && c.toNat ≠ 0x85)

/-- What stands in the form when a message is sent. -/
structure Composer where
  input : Text
  /-- `displayName()`. -/
  name : Option Text
  lang : String
  avatarUrl : Option String
  pendingAttachment : Option WvAttachment
  deriving DecidableEq, Repr

/-- The body of the request of `send`, where there is something to send. -/
def send (c : Composer) : Option ChatBody :=
  let text := Lib.trim isJsWhitespace c.input
  if text = [] && c.pendingAttachment.isNone then none
  else some {
    text := text
    displayName := c.name.filter fun n => n ≠ []
    lang := if c.lang = "" then none else some c.lang
    avatarUrl := c.avatarUrl.filter fun u => u ≠ ""
    attachment := c.pendingAttachment }

/-- What the sender renders when a message is accepted: nobody has told the page what the server
made of it. -/
def echo (token : Bool) (body : ChatBody) (id : Uuid) (createdAt : Timestamp) : ChatEvent where
  id := id
  senderKind := if token then .host else .guest
  displayName := body.displayName.getD []
  original := body.text
  lang := body.lang.getD ""
  translations := []
  createdAt := createdAt
  avatarUrl := body.avatarUrl
  attachment := body.attachment

/-! ## What comes -/

/-- `parseAttachment`, which the messages of the table go through. -/
def parseAttachment (a : WvAttachment) : Option WvAttachment :=
  if "https://".toList.isPrefixOf a.url.toList then some a else none

def normalizeChat (e : ChatEvent) : ChatEvent :=
  { e with attachment := e.attachment.bind parseAttachment }

def renderChatText (event : ChatEvent) (myLang : String) : Text :=
  (event.translations.lookup myLang).getD event.original

/-! ## The panel -/

structure ChatPanel where
  /-- The ids that were rendered. -/
  seen : List Uuid
  /-- The rows of the list. -/
  list : List ChatEvent
  /-- The placeholder stands in the list. -/
  empty : Bool
  deriving DecidableEq, Repr

namespace ChatPanel

def new : ChatPanel := ⟨[], [], true⟩

/-- `append`, with its answer. -/
def append (p : ChatPanel) (event : ChatEvent) : ChatPanel × Bool :=
  if event.id ∈ p.seen then (p, false)
  else (⟨p.seen ++ [event.id], p.list ++ [event], false⟩, true)

/-- The loop of `loadHistory`. -/
def appendAll (p : ChatPanel) (events : List ChatEvent) : ChatPanel :=
  events.foldl (fun p event => (p.append event).1) p

/-- Every message is rendered once, or the placeholder. -/
structure Tidy (p : ChatPanel) : Prop where
  seen : p.seen = p.list.map ChatEvent.id
  nodup : p.seen.Nodup
  empty : p.empty = true ↔ p.list = []

variable {p : ChatPanel} {event e : ChatEvent} {events : List ChatEvent} {id : Uuid}

lemma tidy_new : new.Tidy := ⟨rfl, List.nodup_nil, iff_of_true rfl rfl⟩

lemma Tidy.append (h : p.Tidy) : (p.append event).1.Tidy := by
  rw [ChatPanel.append]
  split_ifs with hseen
  · exact h
  · refine ⟨by simp [h.seen], ?_, iff_of_false (by simp) (by simp)⟩
    rw [List.nodup_append]
    refine ⟨h.nodup, List.nodup_singleton _, ?_⟩
    rintro a ha b hb rfl
    exact hseen (List.mem_singleton.mp hb ▸ ha)

lemma mem_seen_append : id ∈ (p.append event).1.seen ↔ id ∈ p.seen ∨ id = event.id := by
  rw [ChatPanel.append]
  split_ifs with hseen
  · refine ⟨.inl, ?_⟩
    rintro (h | rfl)
    · exact h
    · exact hseen
  · simp

lemma mem_list_append (h : e ∈ (p.append event).1.list) : e ∈ p.list ∨ e = event := by
  rw [ChatPanel.append] at h
  split_ifs at h
  · exact .inl h
  · simpa using h

lemma length_append (p : ChatPanel) (event : ChatEvent) : (p.append event).1.list.length =
    p.list.length + if (p.append event).2 then 1 else 0 := by
  rw [ChatPanel.append]
  split_ifs <;> simp_all

lemma Tidy.appendAll (h : p.Tidy) : (p.appendAll events).Tidy := by
  induction events generalizing p with
  | nil => exact h
  | cons event events ih => exact ih h.append

lemma mem_seen_appendAll :
    id ∈ (p.appendAll events).seen ↔ id ∈ p.seen ∨ id ∈ events.map ChatEvent.id := by
  induction events generalizing p with
  | nil => simp [ChatPanel.appendAll]
  | cons event events ih =>
    show id ∈ ((p.append event).1.appendAll events).seen ↔ _
    rw [ih, mem_seen_append, List.map_cons, List.mem_cons, or_assoc]

lemma mem_list_appendAll (h : e ∈ (p.appendAll events).list) : e ∈ p.list ∨ e ∈ events := by
  induction events generalizing p with
  | nil => exact .inl h
  | cons event events ih =>
    rw [List.mem_cons]
    rcases ih h with h | h
    · exact (mem_list_append h).imp_right .inl
    · exact .inr (.inr h)

lemma length_appendAll : p.list.length ≤ (p.appendAll events).list.length := by
  induction events generalizing p with
  | nil => exact Nat.le_refl _
  | cons event events ih =>
    refine Nat.le_trans ?_ ih
    rw [length_append]
    omega

end ChatPanel

/-! ## The page (`webinar-view.ts`, `app.ts`) -/

structure Page where
  panel : ChatPanel
  isOpen : Bool
  unread : Nat
  historyLoaded : Bool
  /-- The fetches of the history that are on their way, with the answers that have come back. -/
  loads : List (Option (List ChatEvent))
  deriving DecidableEq, Repr

namespace Page

/-- A viewer fetches the history when the panel is opened for the first time. -/
def viewer : Page := ⟨.new, false, 0, false, []⟩

/-- The studio of the host fetches it at once. -/
def studio : Page := ⟨.new, true, 0, true, [none]⟩

/-- A message that was sent to everybody. -/
def onChat (p : Page) (event : ChatEvent) : Page :=
  let r := p.panel.append event
  { p with panel := r.1, unread := if r.2 && !p.isOpen then p.unread + 1 else p.unread }

def toggle (p : Page) : Page :=
  if p.isOpen then { p with isOpen := false }
  else { p with
    isOpen := true
    unread := 0
    historyLoaded := true
    loads := if p.historyLoaded then p.loads else p.loads ++ [none] }

/-- A message of the page was accepted. -/
def sent (p : Page) (token : Bool) (body : ChatBody) (id : Uuid) (createdAt : Timestamp) : Page :=
  { p with panel := (p.panel.append (echo token body id createdAt)).1 }

/-- The answer to a fetch, which is empty where the fetch failed. -/
def answered (p : Page) (i : Nat) (events : List ChatEvent) : Page :=
  { p with loads := p.loads.set i (some (events.map normalizeChat)) }

def loaded (p : Page) (i : Nat) : Option Page :=
  match p.loads[i]? with
  | some (some events) =>
    some { p with panel := p.panel.appendAll events, loads := p.loads.eraseIdx i }
  | _ => none

/-- The badge counts messages of the list, and nothing while the panel is open. -/
structure Tidy (p : Page) : Prop where
  panel : p.panel.Tidy
  unread : p.unread ≤ p.panel.list.length
  shut : p.isOpen = true → p.unread = 0

variable {p q : Page} {event : ChatEvent} {events : List ChatEvent} {token : Bool} {body : ChatBody}
  {id : Uuid} {createdAt : Timestamp} {i : Nat}

lemma tidy_viewer : viewer.Tidy := ⟨ChatPanel.tidy_new, Nat.le_refl _, nofun⟩

lemma tidy_studio : studio.Tidy := ⟨ChatPanel.tidy_new, Nat.le_refl _, fun _ => rfl⟩

lemma Tidy.onChat (h : p.Tidy) : (p.onChat event).Tidy := by
  refine ⟨h.panel.append, ?_, fun hopen => ?_⟩
  · have hlength := ChatPanel.length_append p.panel event
    have hunread := h.unread
    show (if (p.panel.append event).2 && !p.isOpen then p.unread + 1 else p.unread) ≤
      (p.panel.append event).1.list.length
    cases hadded : (p.panel.append event).2 with
    | false =>
      simp only [hadded, Bool.false_and, Bool.false_eq_true, if_false] at hlength ⊢
      omega
    | true =>
      rw [hadded, if_pos rfl] at hlength
      split_ifs <;> omega
  · have hopen' : p.isOpen = true := hopen
    simpa [Page.onChat, hopen'] using h.shut hopen'

lemma Tidy.toggle (h : p.Tidy) : p.toggle.Tidy := by
  rw [Page.toggle]
  split
  · exact ⟨h.panel, h.unread, nofun⟩
  · exact ⟨h.panel, Nat.zero_le _, fun _ => rfl⟩

lemma Tidy.sent (h : p.Tidy) : (p.sent token body id createdAt).Tidy := by
  refine ⟨h.panel.append, ?_, h.shut⟩
  refine Nat.le_trans h.unread ?_
  show p.panel.list.length ≤ (p.panel.append _).1.list.length
  rw [ChatPanel.length_append]
  omega

lemma Tidy.answered (h : p.Tidy) : (p.answered i events).Tidy := ⟨h.panel, h.unread, h.shut⟩

lemma loaded_eq_some (h : p.loaded i = some q) : ∃ events, p.loads[i]? = some (some events) ∧
    q = { p with panel := p.panel.appendAll events, loads := p.loads.eraseIdx i } := by
  rw [loaded] at h
  split at h
  · next events hevents => exact ⟨events, hevents, (Option.some.inj h).symm⟩
  · cases h

lemma Tidy.loaded (h : p.Tidy) (hloaded : p.loaded i = some q) : q.Tidy := by
  obtain ⟨events, -, rfl⟩ := loaded_eq_some hloaded
  exact ⟨h.panel.appendAll, Nat.le_trans h.unread ChatPanel.length_appendAll, h.shut⟩

end Page

end VoxTranslate.Client.Chat
