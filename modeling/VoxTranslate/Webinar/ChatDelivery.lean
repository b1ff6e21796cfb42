import VoxTranslate.Client.ChatPanel
import VoxTranslate.Webinar.Presence

/-!
# Who is shown which message of a chat

The handlers of a webinar's messages, the connections over which the messages are sent to everybody
and the pages that show them take their steps in any order.  A page may come late, fetch what was
written before, lose its connection and open another.

Whatever is on a page is a row of the table, and two pages that show a row show the same message.
-/

namespace VoxTranslate.Webinar.Chat

open Lib Engine Limits Client.Chat

/-- A message that somebody sends, from a page or from elsewhere. -/
structure Request where
  page : Option Nat
  /-- The page has a token, whosever it is. -/
  token : Bool
  body : ChatBody
  caller : Caller
  deriving DecidableEq, Repr

/-- Where the handler of a message is. -/
inductive Stage where
  /-- It waits for the translations. -/
  | drafted (d : Draft)
  /-- The row is there. -/
  | stored (event : ChatEvent)
  /-- Everybody was sent it; the answer is on its way. -/
  | sent (event : ChatEvent)
  | done
  deriving DecidableEq, Repr

structure Post where
  request : Request
  stage : Stage
  deriving DecidableEq, Repr

/-- What is fixed while a webinar goes on. -/
structure Venue where
  world : Outside
  moderator : Moderator
  /-- The limits of the other endpoints. -/
  others : String → Policy
  toJson : ChatEvent → String
  /-- The pages that are studios of the host. -/
  isStudio : Nat → Bool

/-- A webinar with the pages of those who are in it. -/
structure Hall where
  webinar : WebinarRow
  presence : Presence
  hits : Hits RateKey
  rows : List ChatRow
  posts : List Post
  /-- The page at the other end of a connection. -/
  pageOf : Nat → Option Nat
  /-- The messages on each connection. -/
  wire : Nat → List ChatEvent
  pages : Nat → Page

inductive HallAction where
  /-- A socket is opened, by a page or by somebody else. -/
  | connect (page : Option Nat) (conn : Viewer)
  /-- The tasks of the connections, and the broadcasts that are not of the chat. -/
  | presence (a : Presence.Act)
  /-- The first message on a connection reaches its page. -/
  | deliver (conn : Nat)
  /-- A socket breaks, with what is on it. -/
  | lose (conn : Nat)
  | patch (fields : WebinarFields)
  /-- A request to another endpoint. -/
  | limiter (key : String) (now : Nat)
  | post (request : Request) (now : Nat)
  | insert (i : Nat) (translations : List (String × Text)) (id : Uuid) (createdAt : Timestamp)
  /-- The row is inserted for a handler that was dropped, as its request was. -/
  | abandon (i : Nat) (translations : List (String × Text)) (id : Uuid) (createdAt : Timestamp)
  | broadcast (i : Nat)
  | answer (i : Nat)
  /-- The statement fails, or the answer does not arrive. -/
  | fail (i : Nat)
  | toggle (page : Nat)
  /-- The query of fetch `i` answers these rows. -/
  | read (page i : Nat) (caller : Caller) (rows : List ChatRow)
  | readFails (page i : Nat)
  | loaded (page i : Nat)

/-- What a page asks for. -/
def HISTORY : Int := 50

namespace Hall

variable (v : Venue)

def start (w : WebinarRow) : Hall where
  webinar := w
  presence := .init
  hits := ∅
  rows := []
  posts := []
  pageOf := fun _ => none
  wire := fun _ => []
  pages := fun p => if v.isStudio p then .studio else .viewer

def setPage (s : Hall) (p : Nat) (page : Page) : Hall :=
  { s with pages := Function.update s.pages p page }

def setPost (s : Hall) (i : Nat) (post : Post) : Hall := { s with posts := s.posts.set i post }

def setWire (s : Hall) (conn : Nat) (frames : List ChatEvent) : Hall :=
  { s with wire := Function.update s.wire conn frames }

/-- `connect` has an action of its own, and so have the broadcasts of messages. -/
def ofPresence : Presence.Act → Bool
  | .connect _ | .broadcast (.chat _) => false
  | _ => true

/-- A row for the draft of a handler, unless there is one under that id. -/
def store (s : Hall) (i : Nat) (translations : List (String × Text)) (id : Uuid)
    (createdAt : Timestamp) (next : Draft → Stage) : Option Hall :=
  match s.posts[i]? with
  | some ⟨request, .drafted d⟩ =>
    if id ∈ s.rows.map ChatRow.id then none
    else some { s.setPost i ⟨request, next d⟩ with
      rows := s.rows ++ [insertChatMessage d translations id createdAt] }
  | _ => none

/-- `broadcast_chat`: everybody who is registered, whoever they are. -/
def send (s : Hall) (event : ChatEvent) : Nat → List ChatEvent := fun conn =>
  s.wire conn ++ if (s.presence.registered conn).isSome then [event] else []

def step (s : Hall) : HallAction → Option Hall
  | .connect page conn =>
    (s.presence.step (.connect conn)).map fun p =>
      { s with presence := p, pageOf := Function.update s.pageOf s.presence.next page }
  | .presence a =>
    if ofPresence a then (s.presence.step a).map fun p => { s with presence := p } else none
  | .deliver conn =>
    match s.wire conn, s.pageOf conn with
    | event :: rest, some p =>
      some ((s.setPage p ((s.pages p).onChat event)).setWire conn rest)
    | _, _ => none
  | .lose conn =>
    some { s.setWire conn [] with pageOf := Function.update s.pageOf conn none }
  | .patch fields => some { s with webinar := { s.webinar with fields := fields } }
  | .limiter key now => some { s with hits := (allow s.hits (.other key) (v.others key) now).1 }
  | .post request now =>
    let r := accept v.world v.moderator s.hits (some s.webinar) request.caller request.body now
    some { s with
      hits := r.1
      posts := match r.2 with
        | .ok d => s.posts ++ [⟨request, .drafted d⟩]
        | .error _ => s.posts }
  | .insert i translations id createdAt =>
    s.store i translations id createdAt fun d => .stored (chatEvent d translations id createdAt)
  | .abandon i translations id createdAt => s.store i translations id createdAt fun _ => .done
  | .broadcast i =>
    match s.posts[i]? with
    | some ⟨request, .stored event⟩ =>
      (s.presence.step (.broadcast (.chat (v.toJson event)))).map fun p =>
        { s.setPost i ⟨request, .sent event⟩ with presence := p, wire := s.send event }
    | _ => none
  | .answer i =>
    match s.posts[i]? with
    | some ⟨request, .sent event⟩ =>
      let t := s.setPost i ⟨request, .done⟩
      some <| match request.page with
        | some p =>
          t.setPage p ((s.pages p).sent request.token request.body event.id event.createdAt)
        | none => t
    | _ => none
  | .fail i =>
    match s.posts[i]? with
    | some ⟨request, .drafted _⟩ | some ⟨request, .sent _⟩ => some (s.setPost i ⟨request, .done⟩)
    | _ => none
  | .toggle p => some (s.setPage p (s.pages p).toggle)
  | .read p i caller rows =>
    match (s.pages p).loads[i]? with
    | some none =>
      if Latest (clampLimit (some HISTORY)).toNat s.rows rows then
        some (s.setPage p ((s.pages p).answered i
          (match listChat s.webinar caller rows with
            | .ok events => events
            | .error _ => [])))
      else none
    | _ => none
  | .readFails p i =>
    match (s.pages p).loads[i]? with
    | some none => some (s.setPage p ((s.pages p).answered i []))
    | _ => none
  | .loaded p i => ((s.pages p).loaded i).map fun page => s.setPage p page

/-! ## What is shown -/

variable {v} {s t u : Hall} {a : HallAction} {as bs : List HallAction} {w : WebinarRow}
  {row : ChatRow} {rows rows' : List ChatRow} {event e : ChatEvent} {post : Post} {page : Page}
  {conn p i : Nat}

/-- The row of a message that passed the gates. -/
structure Accepted (v : Venue) (request : Request) (row : ChatRow) : Prop where
  text : row.originalText = request.body.text.trim
  short : row.originalText.length ≤ MAX_TEXT_CHARS
  moderate : v.moderator.severity v.world row.originalText = .none
  name : row.displayName ≠ [] ∧ row.displayName.length ≤ MAX_NAME_CHARS
  avatar : ∀ u ∈ row.avatarUrl, safeAvatarUrl v.world u = true
  kind : row.senderKind = .host ↔
    request.caller.account.isSome = true ∧ request.caller.member = true

/-- What a panel may render of a row. -/
inductive Renders (v : Venue) (row : ChatRow) : ChatEvent → Prop
  /-- What everybody was sent. -/
  | live : Renders v row (historyView row)
  /-- What was fetched. -/
  | history : Renders v row (normalizeChat (historyView row))
  /-- What its sender made of it. -/
  | own {request : Request} (h : Accepted v request row) :
    Renders v row (echo request.token request.body row.id row.createdAt)

/-- What a handler knows. -/
def PostSound (v : Venue) (rows : List ChatRow) (post : Post) : Prop :=
  match post.stage with
  | .drafted d => d.Passed v.world v.moderator post.request.body post.request.caller
  | .stored event | .sent event =>
    ∃ row ∈ rows, event = historyView row ∧ Accepted v post.request row
  | .done => True

/-- What a page shows, and will show of what it fetched. -/
structure PageSound (v : Venue) (rows : List ChatRow) (page : Page) : Prop where
  tidy : page.Tidy
  shown : ∀ e ∈ page.panel.list, ∃ row ∈ rows, Renders v row e
  fetched : ∀ events, some events ∈ page.loads → ∀ e ∈ events,
    ∃ row ∈ rows, e = normalizeChat (historyView row)

/-- Every message that is anywhere is a row. -/
structure Sound (v : Venue) (s : Hall) : Prop where
  nodup : (s.rows.map ChatRow.id).Nodup
  rows : ∀ row ∈ s.rows, ∃ request, Accepted v request row
  posts : ∀ post ∈ s.posts, PostSound v s.rows post
  wire : ∀ conn, ∀ e ∈ s.wire conn, ∃ row ∈ s.rows, e = historyView row
  pages : ∀ p, PageSound v s.rows (s.pages p)

lemma accepted_of_passed {d : Draft} {request : Request}
    (h : d.Passed v.world v.moderator request.body request.caller)
    (translations : List (String × Text)) (id : Uuid) (createdAt : Timestamp) :
    Accepted v request (insertChatMessage d translations id createdAt) :=
  ⟨h.text, h.short, h.moderate, h.name, h.avatar, h.kind⟩

lemma PostSound.mono (h : PostSound v rows post) (hrows : rows ⊆ rows') :
    PostSound v rows' post := by
  rw [PostSound] at h ⊢
  split at h
  · exact h
  · exact h.imp fun row hrow => ⟨hrows hrow.1, hrow.2⟩
  · exact h.imp fun row hrow => ⟨hrows hrow.1, hrow.2⟩
  · exact h

lemma PageSound.mono (h : PageSound v rows page) (hrows : rows ⊆ rows') :
    PageSound v rows' page where
  tidy := h.tidy
  shown e he := (h.shown e he).imp fun _ hrow => ⟨hrows hrow.1, hrow.2⟩
  fetched events hevents e he :=
    (h.fetched events hevents e he).imp fun _ hrow => ⟨hrows hrow.1, hrow.2⟩

lemma PageSound.onChat (h : PageSound v rows page) (he : ∃ row ∈ rows, event = historyView row) :
    PageSound v rows (page.onChat event) where
  tidy := h.tidy.onChat
  shown e hmem := by
    rcases ChatPanel.mem_list_append hmem with hmem | rfl
    · exact h.shown e hmem
    · obtain ⟨row, hrow, rfl⟩ := he
      exact ⟨row, hrow, .live⟩
  fetched := h.fetched

lemma PageSound.toggle (h : PageSound v rows page) : PageSound v rows page.toggle := by
  refine ⟨h.tidy.toggle, ?_, ?_⟩
  · have hpanel : page.toggle.panel = page.panel := by
      rw [Page.toggle]
      split <;> rfl
    rw [hpanel]
    exact h.shown
  · intro events hevents
    refine h.fetched events ?_
    rw [Page.toggle] at hevents
    split at hevents
    · exact hevents
    · dsimp only at hevents
      split_ifs at hevents
      · exact hevents
      · simpa using hevents

lemma PageSound.sent {request : Request} (h : PageSound v rows page) (hrow : row ∈ rows)
    (haccepted : Accepted v request row) :
    PageSound v rows (page.sent request.token request.body row.id row.createdAt) where
  tidy := h.tidy.sent
  shown e hmem := by
    rcases ChatPanel.mem_list_append hmem with hmem | rfl
    · exact h.shown e hmem
    · exact ⟨row, hrow, .own haccepted⟩
  fetched := h.fetched

lemma PageSound.answered {events : List ChatEvent} (h : PageSound v rows page)
    (hevents : ∀ e ∈ events, ∃ row ∈ rows, e = historyView row) :
    PageSound v rows (page.answered i events) where
  tidy := h.tidy.answered
  shown := h.shown
  fetched events' hmem e he := by
    rcases List.mem_or_eq_of_mem_set hmem with hmem | heq
    · exact h.fetched events' hmem e he
    · obtain ⟨e', he', rfl⟩ := List.mem_map.mp (Option.some.inj heq ▸ he)
      obtain ⟨row, hrow, rfl⟩ := hevents e' he'
      exact ⟨row, hrow, rfl⟩

lemma PageSound.loaded {q : Page} (h : PageSound v rows page) (hloaded : page.loaded i = some q) :
    PageSound v rows q := by
  have htidy := h.tidy.loaded hloaded
  obtain ⟨events, hevents, rfl⟩ := Page.loaded_eq_some hloaded
  refine ⟨htidy, fun e hmem => ?_, fun events' hmem => ?_⟩
  · rcases ChatPanel.mem_list_appendAll hmem with hmem | hmem
    · exact h.shown e hmem
    · obtain ⟨row, hrow, rfl⟩ :=
        h.fetched events (List.mem_iff_getElem?.mpr ⟨i, hevents⟩) e hmem
      exact ⟨row, hrow, .history⟩
  · exact h.fetched events' (List.mem_of_mem_eraseIdx hmem)

lemma Sound.setPage (h : s.Sound v) (hpage : PageSound v s.rows page) :
    (s.setPage p page).Sound v where
  nodup := h.nodup
  rows := h.rows
  posts := h.posts
  wire := h.wire
  pages q := by
    by_cases hq : q = p
    · subst hq
      simpa [Hall.setPage] using hpage
    · simpa [Hall.setPage, Function.update_of_ne hq] using h.pages q

lemma Sound.setPost (h : s.Sound v) (hpost : PostSound v s.rows post) :
    (s.setPost i post).Sound v where
  nodup := h.nodup
  rows := h.rows
  posts q hq := by
    rcases List.mem_or_eq_of_mem_set hq with hq | rfl
    · exact h.posts q hq
    · exact hpost
  wire := h.wire
  pages := h.pages

lemma Sound.setWire {frames : List ChatEvent} (h : s.Sound v)
    (hframes : ∀ e ∈ frames, ∃ row ∈ s.rows, e = historyView row) :
    (s.setWire conn frames).Sound v where
  nodup := h.nodup
  rows := h.rows
  posts := h.posts
  wire c e he := by
    by_cases hc : c = conn
    · subst hc
      simp only [Hall.setWire, Function.update_self] at he
      exact hframes e he
    · simp only [Hall.setWire, Function.update_of_ne hc] at he
      exact h.wire c e he
  pages := h.pages

lemma store_eq_some {translations : List (String × Text)} {id : Uuid} {createdAt : Timestamp}
    {next : Draft → Stage} (h : s.store i translations id createdAt next = some t) :
    ∃ request d, s.posts[i]? = some ⟨request, .drafted d⟩ ∧ id ∉ s.rows.map ChatRow.id ∧
      t = { s.setPost i ⟨request, next d⟩ with
        rows := s.rows ++ [insertChatMessage d translations id createdAt] } := by
  rw [store] at h
  split at h
  · next request d hpost =>
    split_ifs at h with hid
    exact ⟨request, d, hpost, hid, (Option.some.inj h).symm⟩
  · cases h

/-- A row is inserted for what has passed the gates. -/
lemma Sound.store {translations : List (String × Text)} {id : Uuid} {createdAt : Timestamp}
    {next : Draft → Stage} (h : s.Sound v)
    (hnext : ∀ d, next d = .done ∨ next d = .stored (chatEvent d translations id createdAt))
    (hstep : s.store i translations id createdAt next = some t) : t.Sound v := by
  obtain ⟨request, d, hpost, hid, rfl⟩ := store_eq_some hstep
  have hpassed := h.posts _ (List.mem_iff_getElem?.mpr ⟨i, hpost⟩)
  have haccepted := accepted_of_passed hpassed translations id createdAt
  have hsub : s.rows ⊆ s.rows ++ [insertChatMessage d translations id createdAt] :=
    List.subset_append_left _ _
  have hlast : insertChatMessage d translations id createdAt ∈
      s.rows ++ [insertChatMessage d translations id createdAt] :=
    List.mem_append_right _ List.mem_cons_self
  refine ⟨?_, ?_, ?_, ?_, fun p => (h.pages p).mono hsub⟩
  · -- the identifier is fresh
    rw [List.map_append, List.nodup_append]
    refine ⟨h.nodup, List.nodup_singleton _, ?_⟩
    rintro a ha b hb rfl
    have heq : a = id := List.mem_singleton.mp hb
    exact hid (heq ▸ ha)
  · intro row hrow
    rcases List.mem_append.mp hrow with hrow | hrow
    · exact h.rows row hrow
    · exact ⟨request, List.mem_singleton.mp hrow ▸ haccepted⟩
  · intro post hmem
    rcases List.mem_or_eq_of_mem_set hmem with hmem | rfl
    · exact (h.posts post hmem).mono hsub
    · rcases hnext d with hdone | hstored
      · simp [PostSound, hdone]
      · simp only [PostSound, hstored]
        exact ⟨_, hlast, (historyView_insertChatMessage ..).symm, haccepted⟩
  · intro conn e he
    exact (h.wire conn e he).imp fun row hrow => ⟨hsub hrow.1, hrow.2⟩

lemma Sound.step (h : s.Sound v) (hstep : step v s a = some t) : t.Sound v := by
  cases a with
  | connect page conn =>
    simp only [Hall.step] at hstep
    obtain ⟨presence, -, rfl⟩ := Option.map_eq_some_iff.mp hstep
    exact ⟨h.nodup, h.rows, h.posts, h.wire, h.pages⟩
  | presence a =>
    simp only [Hall.step] at hstep
    obtain ⟨-, hmap⟩ := Option.ite_none_right_eq_some.mp hstep
    obtain ⟨presence, -, rfl⟩ := Option.map_eq_some_iff.mp hmap
    exact ⟨h.nodup, h.rows, h.posts, h.wire, h.pages⟩
  | deliver conn =>
    simp only [Hall.step] at hstep
    split at hstep
    · next event rest p hwire hpage =>
      cases hstep
      -- what was on the wire is the view of a row, for the panel and for the rest of the wire
      have hall : ∀ e ∈ event :: rest, ∃ row ∈ s.rows, e = historyView row := hwire ▸ h.wire conn
      have hpage := h.setPage (p := p) ((h.pages p).onChat (hall event List.mem_cons_self))
      exact hpage.setWire fun e he => hall e (List.mem_cons_of_mem _ he)
    · cases hstep
  | lose conn =>
    cases hstep
    have hlost : (s.setWire conn []).Sound v := h.setWire nofun
    exact ⟨hlost.nodup, hlost.rows, hlost.posts, hlost.wire, hlost.pages⟩
  | patch fields =>
    cases hstep
    exact ⟨h.nodup, h.rows, h.posts, h.wire, h.pages⟩
  | limiter key now =>
    cases hstep
    exact ⟨h.nodup, h.rows, h.posts, h.wire, h.pages⟩
  | post request now =>
    cases hstep
    refine { h with posts := fun post hpost => ?_ }
    dsimp only at hpost
    split at hpost
    · next d hadmit =>
      -- a message that is admitted has passed the gates
      rcases List.mem_append.mp hpost with hpost | hpost
      · exact h.posts post hpost
      · rw [List.mem_singleton.mp hpost]
        exact passed_of_accept hadmit
    · exact h.posts post hpost
  | insert i translations id createdAt => exact h.store (fun _ => .inr rfl) hstep
  | abandon i translations id createdAt => exact h.store (fun _ => .inl rfl) hstep
  | broadcast i =>
    simp only [Hall.step] at hstep
    split at hstep
    · next request event hpost =>
      obtain ⟨presence, -, rfl⟩ := Option.map_eq_some_iff.mp hstep
      have hstored := h.posts _ (List.mem_iff_getElem?.mpr ⟨i, hpost⟩)
      have hnext : (s.setPost i ⟨request, .sent event⟩).Sound v := h.setPost hstored
      -- the event is the view of the row it was stored in
      refine { hnext with wire := fun c e he => ?_ }
      rcases List.mem_append.mp he with he | he
      · exact h.wire c e he
      · split_ifs at he
        · rw [List.mem_singleton.mp he]
          exact hstored.imp fun row hrow => ⟨hrow.1, hrow.2.1⟩
        · cases he
    · cases hstep
  | answer i =>
    simp only [Hall.step] at hstep
    split at hstep
    · next request event hpost =>
      cases hstep
      obtain ⟨row, hrow, rfl, haccepted⟩ := h.posts _ (List.mem_iff_getElem?.mpr ⟨i, hpost⟩)
      have hdone : (s.setPost i ⟨request, .done⟩).Sound v := h.setPost trivial
      -- the sender shows the answer, which is the row as well
      cases request.page with
      | none => exact hdone
      | some p => exact hdone.setPage ((h.pages p).sent hrow haccepted)
    · cases hstep
  | fail i =>
    simp only [Hall.step] at hstep
    split at hstep
    · cases hstep
      exact h.setPost trivial
    · cases hstep
      exact h.setPost trivial
    · cases hstep
  | toggle p =>
    cases hstep
    exact h.setPage (h.pages p).toggle
  | read p i caller rows =>
    simp only [Hall.step] at hstep
    split at hstep
    · obtain ⟨hlatest, heq⟩ := Option.ite_none_right_eq_some.mp hstep
      cases heq
      refine h.setPage ((h.pages p).answered fun e he => ?_)
      -- what is fetched are rows of the table
      rw [listChat] at he
      split_ifs at he
      · cases he
      · cases he
      · obtain ⟨row, hrow, rfl⟩ := List.mem_map.mp he
        exact ⟨row, hlatest.subset hrow, rfl⟩
    · cases hstep
  | readFails p i =>
    simp only [Hall.step] at hstep
    split at hstep
    · cases hstep
      exact h.setPage ((h.pages p).answered nofun)
    · cases hstep
  | loaded p i =>
    simp only [Hall.step] at hstep
    obtain ⟨page, hpage, rfl⟩ := Option.map_eq_some_iff.mp hstep
    exact h.setPage ((h.pages p).loaded hpage)

lemma sound_start : (start v w).Sound v := by
  refine ⟨List.nodup_nil, fun _ h => absurd h List.not_mem_nil, fun _ h => absurd h List.not_mem_nil,
    fun _ _ h => absurd h List.not_mem_nil, fun p => ?_⟩
  show PageSound v [] (if v.isStudio p then .studio else .viewer)
  split_ifs
  · refine ⟨Page.tidy_studio, nofun, fun events hevents => ?_⟩
    simp [Page.studio] at hevents
  · exact ⟨Page.tidy_viewer, nofun, nofun⟩

lemma sound_of_run (hrun : Run (ofPartial (step v)) (start v w) as s) : s.Sound v :=
  hrun.invariant (Sound v) (fun s a _ t h (hstep : step v s a = some t) => h.step hstep)
    sound_start

lemma Renders.id_eq (h : Renders v row e) : e.id = row.id := by
  cases h <;> rfl

lemma Renders.createdAt_eq (h : Renders v row e) : e.createdAt = row.createdAt := by
  cases h <;> rfl

lemma Renders.original_eq {request : Request} (haccepted : Accepted v request row)
    (h : Renders v row e) : e.original.trim = row.originalText := by
  have htrim : row.originalText.trim = row.originalText := by
    rw [haccepted.text, Text.trim_trim]
  cases h with
  | live => exact htrim
  | history => exact htrim
  | own h => exact h.text.symm

/-- A sender who has a token and is no member takes themselves for the host. -/
lemma Renders.senderKind_eq (h : Renders v row e) : e.senderKind = row.senderKind ∨
    ∃ request : Request, e = echo request.token request.body row.id row.createdAt ∧
      request.token ≠ (request.caller.account.isSome && request.caller.member) := by
  cases h with
  | live => exact .inl rfl
  | history => exact .inl rfl
  | @own request h =>
    by_cases htoken : request.token = (request.caller.account.isSome && request.caller.member)
    · left
      show (if request.token then SenderKind.host else .guest) = row.senderKind
      rw [htoken]
      by_cases hmember : request.caller.account.isSome = true ∧ request.caller.member = true
      · simp [hmember, h.kind.mpr hmember]
      · have hguest : row.senderKind ≠ .host := fun hhost => hmember (h.kind.mp hhost)
        cases hkind : row.senderKind with
        | host => exact absurd hkind hguest
        | guest => simpa using hmember
    · exact .inr ⟨request, rfl, htoken⟩

lemma Sound.row_unique {row' : ChatRow} (h : s.Sound v) (hrow : row ∈ s.rows) (hrow' : row' ∈ s.rows)
    (hid : row.id = row'.id) : row = row' :=
  List.inj_on_of_nodup_map h.nodup hrow hrow' hid

/-- A chat in which nothing is forbidden. -/
def sampleVenue : Venue where
  world := ⟨id, Char.isAlphanum, fun _ => none⟩
  moderator := ⟨[]⟩
  others := fun _ => ⟨20, 60000⟩
  toJson := fun _ => "chat"
  isStudio := fun _ => false

def sampleChat : WebinarRow :=
  { WebinarDb.sampleRow with fields := { WebinarDb.sampleRow.fields with chatEnabled := true } }

/-- Where a list of steps leads. -/
def after (as : List HallAction) : Hall :=
  (as.foldlM (step sampleVenue) (start sampleVenue sampleChat)).getD (start sampleVenue sampleChat)

/-- Somebody who has a token and is no member greets, on page `p`. -/
def greeting (p : Nat) : Request where
  page := some p
  token := true
  body := ⟨"hello".toList, some "Ada".toList, some "en", none, none⟩
  caller := ⟨some 5, false, 9⟩

/-- Two pages are connected, and the first greets. -/
def greeted : List HallAction :=
  [.connect (some 0) ⟨false, none⟩, .presence (.joinLock 0), .presence (.joinInsert 0),
    .presence (.joinUnlock 0), .connect (some 1) ⟨false, none⟩, .presence (.joinLock 1),
    .presence (.joinInsert 1), .presence (.joinUnlock 1), .post (greeting 0) 0, .insert 0 [] 1 10,
    .broadcast 0, .answer 0, .deliver 0, .deliver 1]

lemma run_greeted : Run (ofPartial (step sampleVenue)) (start sampleVenue sampleChat) greeted
    (after greeted) := Run.ofPartial_iff.mpr rfl

end Hall

end VoxTranslate.Webinar.Chat
