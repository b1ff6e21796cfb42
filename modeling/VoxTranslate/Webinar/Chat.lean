import VoxTranslate.Engine.Qwen
import VoxTranslate.Limits.RateLimiter
import VoxTranslate.Webinar.Lifecycle

/-!
# The chat of a webinar (`webinar/chat.rs`)

Everybody in a webinar may write.  A message is checked, counted against the webinar and against
its sender, moderated, translated, put into a table and sent to everybody.  What is sent is what a
later reader is given from the table.
-/

namespace VoxTranslate.Webinar.Chat

open Lib Engine Limits

/-! ## Moderation (`moderation.rs`) -/

inductive Severity where
  | none
  | severe
  deriving DecidableEq, Repr

/-- The tables of Unicode and the libraries that a request is checked with. -/
structure Outside where
  toLowercase : Text → Text
  isAlphanumeric : Char → Bool
  /-- `Url::parse`, with the scheme and the host of what it accepts. -/
  parseUrl : String → Option (String × Option Text)

structure Moderator where
  terms : List Text
  deriving DecidableEq, Repr

variable (world : Outside)

/-- `Moderator::from_terms`. -/
def Moderator.fromTerms (terms : List Text) : Moderator :=
  ⟨(terms.map fun t => world.toLowercase t.trim).filter fun t => t ≠ []⟩

/-- `lower.split(|c| !c.is_alphanumeric())`. -/
def tokens (text : Text) : List Text :=
  (world.toLowercase text).splitOnP fun c => !world.isAlphanumeric c

def Moderator.severity (m : Moderator) (text : Text) : Severity :=
  if m.terms = [] then .none
  else if (tokens world text).any fun token => token ≠ [] && m.terms.contains token then .severe
  else .none

/-! ## What a message may be -/

def MAX_TEXT_CHARS : Nat := 500

def MAX_NAME_CHARS : Nat := 40

def DEFAULT_NAME : Text := "Guest".toList

def validChatText (raw : Text) : Except Response Text :=
  let t := raw.trim
  if t = [] then .error (badRequest "message text is required")
  else if MAX_TEXT_CHARS < t.length then .error (badRequest "message too long (max 500 chars)")
  else .ok t

def clampChars (s : Text) (max : Nat) : Text := s.take max

def validDisplayName (raw : Option Text) : Text :=
  let trimmed := (raw.map Text.trim).getD []
  if trimmed = [] then DEFAULT_NAME else clampChars trimmed MAX_NAME_CHARS

def AVATAR_HOSTS : List Text := ["googleusercontent.com".toList, "supabase.co".toList]

def safeAvatarUrl (raw : String) : Bool :=
  match world.parseUrl raw with
  | none => false
  | some (scheme, host) =>
    if scheme ≠ "https" then false
    else
      match host with
      | none => false
      | some host => AVATAR_HOSTS.any fun allowed => host = allowed || ('.' :: allowed).isSuffixOf host

structure WvAttachment where
  url : String
  name : String
  contentType : String
  size : Int
  deriving DecidableEq, Repr

inductive SenderKind where
  | host
  | guest
  deriving DecidableEq, Repr

/-- The body of a request. -/
structure ChatBody where
  text : Text
  displayName : Option Text
  lang : Option String
  avatarUrl : Option String
  attachment : Option WvAttachment
  deriving DecidableEq, Repr

/-- Who sends a request. -/
structure Caller where
  /-- `caller_id`: the account of the token, in good standing. -/
  account : Option Uuid
  /-- `require_role` finds the account among the members of the organisation. -/
  member : Bool
  /-- The cookie. -/
  guest : Uuid
  deriving DecidableEq, Repr

def hostUserId (caller : Caller) : Option Uuid :=
  caller.account.filter fun _ => caller.member

def resolveSender (caller : Caller) : SenderKind × Uuid :=
  match hostUserId caller with
  | some userId => (.host, userId)
  | none => (.guest, caller.guest)

/-! ## The gates -/

/-- The keys of the limiter, which as texts are different: of a webinar, of a sender in it, and of
the other endpoints. -/
inductive RateKey where
  | webinar (id : Uuid)
  | sender (id senderId : Uuid)
  | other (key : String)
  deriving DecidableEq, Repr

/-- Messages and milliseconds: of a webinar and of a sender. -/
def WEBINAR_RATE : Policy := ⟨30, 10000⟩

def SENDER_RATE : Policy := ⟨5, 10000⟩

/-- A message that has passed the gates. -/
structure Draft where
  senderKind : SenderKind
  senderId : Uuid
  displayName : Text
  text : Text
  originalLang : String
  avatarUrl : Option String
  attachment : Option WvAttachment
  deriving DecidableEq, Repr

/-- An attachment may come without a text. -/
def bodyText (body : ChatBody) : Except Response Text :=
  if body.attachment.isSome && body.text.trim = [] then .ok [] else validChatText body.text

/-- A language that is not one is called `auto`. -/
def bodyLang (body : ChatBody) : String :=
  match body.lang.map validLang with
  | some (.ok l) => l
  | _ => "auto"

/-- Steps 4 and 5 of `post_chat`, with the text that was found valid. -/
def compose (caller : Caller) (body : ChatBody) (text : Text) : Draft where
  senderKind := (resolveSender caller).1
  senderId := (resolveSender caller).2
  displayName := validDisplayName body.displayName
  text := text
  originalLang := bodyLang body
  avatarUrl := body.avatarUrl.filter fun u => safeAvatarUrl world u
  attachment := body.attachment

/-- Steps 2 to 5. -/
def draft (w : WebinarRow) (caller : Caller) (body : ChatBody) : Except Response Draft :=
  if w.fields.membersOnly && caller.account.isNone then
    .error (.error 401 "this webinar is open to signed-in members only")
  else if !w.fields.chatEnabled then
    .error (.error 403 "chat is not enabled for this webinar")
  else (bodyText body).map (compose world caller body)

/-- Step 6: the webinar is asked first, and what its sender is refused has counted already. -/
def limited (hits : Hits RateKey) (w : WebinarRow) (senderId : Uuid) (now : Nat) :
    Hits RateKey × Option Response :=
  let room := allow hits (.webinar w.id) WEBINAR_RATE now
  if !room.2 then (room.1, some (.error 429 "chat is busy, slow down"))
  else
    let own := allow room.1 (.sender w.id senderId) SENDER_RATE now
    (own.1, if own.2 then none else some (.error 429 "slow down"))

/-- Steps 1 to 7. -/
def accept (m : Moderator) (hits : Hits RateKey) (found : Option WebinarRow) (caller : Caller)
    (body : ChatBody) (now : Nat) : Hits RateKey × Except Response Draft :=
  match found with
  | none => (hits, .error (notFound "webinar not found"))
  | some w =>
    match draft world w caller body with
    | .error refusal => (hits, .error refusal)
    | .ok d =>
      let counted := limited hits w d.senderId now
      (counted.1,
        match counted.2 with
        | some refusal => .error refusal
        | none =>
          if m.severity world d.text = .severe then .error (.error 422 "message blocked")
          else .ok d)

/-! ## The table and the frames -/

/-- What is sent to everybody (`webinar/presence.rs`). -/
structure ChatEvent where
  id : Uuid
  senderKind : SenderKind
  displayName : Text
  original : Text
  lang : String
  translations : List (String × Text)
  createdAt : Timestamp
  avatarUrl : Option String
  attachment : Option WvAttachment
  deriving DecidableEq, Repr

/-- A row of `webinar_chat_messages`. -/
structure ChatRow where
  id : Uuid
  senderKind : SenderKind
  senderId : Uuid
  displayName : Text
  originalText : Text
  originalLang : String
  translations : List (String × Text)
  createdAt : Timestamp
  avatarUrl : Option String
  attachmentUrl : Option String
  attachmentName : Option String
  attachmentContentType : Option String
  attachmentSize : Option Int
  deriving DecidableEq, Repr

/-- `insert_chat_message`, with what the database generates. -/
def insertChatMessage (d : Draft) (translations : List (String × Text)) (id : Uuid)
    (createdAt : Timestamp) : ChatRow where
  id := id
  senderKind := d.senderKind
  senderId := d.senderId
  displayName := d.displayName
  originalText := d.text
  originalLang := d.originalLang
  translations := translations
  createdAt := createdAt
  avatarUrl := d.avatarUrl
  attachmentUrl := d.attachment.map WvAttachment.url
  attachmentName := d.attachment.map WvAttachment.name
  attachmentContentType := d.attachment.map WvAttachment.contentType
  attachmentSize := d.attachment.map WvAttachment.size

/-- Step 10 of `post_chat`. -/
def chatEvent (d : Draft) (translations : List (String × Text)) (id : Uuid)
    (createdAt : Timestamp) : ChatEvent where
  id := id
  senderKind := d.senderKind
  displayName := d.displayName
  original := d.text
  lang := d.originalLang
  translations := translations
  createdAt := createdAt
  avatarUrl := d.avatarUrl
  attachment := d.attachment

def historyView (r : ChatRow) : ChatEvent where
  id := r.id
  senderKind := r.senderKind
  displayName := r.displayName
  original := r.originalText
  lang := r.originalLang
  translations := r.translations
  createdAt := r.createdAt
  avatarUrl := r.avatarUrl
  attachment :=
    match r.attachmentUrl, r.attachmentName, r.attachmentContentType, r.attachmentSize with
    | some url, some name, some ct, some size => some ⟨url, name, ct, size⟩
    | _, _, _, _ => none

def MAX_HISTORY : Int := 100

def DEFAULT_HISTORY : Int := 50

def clampLimit (requested : Option Int) : Int :=
  match requested with
  | none => DEFAULT_HISTORY
  | some n => max 1 (min n MAX_HISTORY)

/-- `ORDER BY created_at DESC LIMIT`, turned round; the order within an instant is the
database's. -/
structure Latest (limit : Nat) (rows answer : List ChatRow) : Prop where
  length : answer.length = min limit rows.length
  subset : answer ⊆ rows
  nodup : (answer.map ChatRow.id).Nodup
  sorted : (answer.map ChatRow.createdAt).Pairwise (· ≤ ·)
  newest : ∀ r ∈ rows, r ∉ answer → ∀ a ∈ answer, r.createdAt ≤ a.createdAt

instance (limit : Nat) (rows answer : List ChatRow) : Decidable (Latest limit rows answer) :=
  decidable_of_iff
    (answer.length = min limit rows.length ∧ answer ⊆ rows ∧ (answer.map ChatRow.id).Nodup ∧
      (answer.map ChatRow.createdAt).Pairwise (· ≤ ·) ∧
      ∀ r ∈ rows, r ∉ answer → ∀ a ∈ answer, r.createdAt ≤ a.createdAt)
    ⟨fun ⟨h₁, h₂, h₃, h₄, h₅⟩ => ⟨h₁, h₂, h₃, h₄, h₅⟩,
      fun h => ⟨h.length, h.subset, h.nodup, h.sorted, h.newest⟩⟩

/-- `list_chat`, with the rows that its query answers. -/
def listChat (w : WebinarRow) (caller : Caller) (answer : List ChatRow) :
    Except Response (List ChatEvent) :=
  if w.fields.membersOnly && caller.account.isNone then
    .error (.error 401 "this webinar is open to signed-in members only")
  else if !w.fields.chatEnabled then .ok []
  else .ok (answer.map historyView)

/-! ## What passes -/

variable {world} {m : Moderator} {hits hits' : Hits RateKey} {found : Option WebinarRow}
  {w : WebinarRow} {caller : Caller} {body : ChatBody} {d : Draft} {now : Nat}

/-- **A reader of the table is given what everybody was sent.** -/
lemma historyView_insertChatMessage (d : Draft) (translations : List (String × Text)) (id : Uuid)
    (createdAt : Timestamp) :
    historyView (insertChatMessage d translations id createdAt) =
      chatEvent d translations id createdAt := by
  obtain ⟨-, -, -, -, -, -, attachment⟩ := d
  cases attachment <;> rfl

/-- What a message is when it has passed the gates. -/
structure Draft.Passed (world : Outside) (m : Moderator) (body : ChatBody) (caller : Caller)
    (d : Draft) : Prop where
  text : d.text = body.text.trim
  short : d.text.length ≤ MAX_TEXT_CHARS
  something : d.text ≠ [] ∨ d.attachment.isSome = true
  moderate : m.severity world d.text = .none
  name : d.displayName ≠ [] ∧ d.displayName.length ≤ MAX_NAME_CHARS
  avatar : ∀ u ∈ d.avatarUrl, safeAvatarUrl world u = true
  kind : d.senderKind = .host ↔ caller.account.isSome = true ∧ caller.member = true
  attachment : d.attachment = body.attachment

lemma bodyText_ok {text : Text} (h : bodyText body = .ok text) :
    text = body.text.trim ∧ text.length ≤ MAX_TEXT_CHARS ∧
      (text ≠ [] ∨ body.attachment.isSome = true) := by
  rw [bodyText] at h
  split_ifs at h with hattached
  · obtain ⟨hsome, hblank⟩ := Bool.and_eq_true_iff.mp hattached
    cases h
    exact ⟨(of_decide_eq_true hblank).symm, Nat.zero_le _, .inr hsome⟩
  · simp only [validChatText] at h
    split_ifs at h with hempty hlong
    cases h
    exact ⟨rfl, Nat.le_of_not_lt hlong, .inl hempty⟩

lemma validDisplayName_spec (raw : Option Text) :
    validDisplayName raw ≠ [] ∧ (validDisplayName raw).length ≤ MAX_NAME_CHARS := by
  simp only [validDisplayName]
  split_ifs with hempty
  · exact ⟨by decide, by decide⟩
  · refine ⟨fun hnil => ?_, List.length_take_le _ _⟩
    rcases List.take_eq_nil_iff.mp hnil with hzero | hnil
    · cases hzero
    · exact hempty hnil

lemma senderKind_host : (resolveSender caller).1 = .host ↔
    caller.account.isSome = true ∧ caller.member = true := by
  obtain ⟨account, member, guest⟩ := caller
  cases account <;> cases member <;> simp [resolveSender, hostUserId, Option.filter]

lemma draft_ok (h : draft world w caller body = .ok d) :
    ∃ text, bodyText body = .ok text ∧ d = compose world caller body text := by
  rw [draft] at h
  split_ifs at h
  cases htext : bodyText body with
  | error refusal =>
    rw [htext] at h
    cases h
  | ok text =>
    rw [htext] at h
    cases h
    exact ⟨text, rfl, rfl⟩

/-- What is admitted was drafted, was not refused by the limiter and is moderate. -/
lemma accept_ok (h : (accept world m hits found caller body now).2 = .ok d) :
    ∃ w, found = some w ∧ draft world w caller body = .ok d ∧
      (limited hits w d.senderId now).2 = none ∧ m.severity world d.text = .none := by
  cases hfound : found with
  | none =>
    rw [hfound] at h
    cases h
  | some w =>
    simp only [hfound, accept] at h
    cases hdraft : draft world w caller body with
    | error refusal =>
      rw [hdraft] at h
      cases h
    | ok d' =>
      simp only [hdraft] at h
      split at h
      · cases h
      · next hnone =>
        split_ifs at h with hsevere
        cases h
        refine ⟨w, rfl, hdraft, hnone, ?_⟩
        cases hseverity : m.severity world d.text with
        | none => rfl
        | severe => exact absurd hseverity hsevere

lemma passed_of_accept (h : (accept world m hits found caller body now).2 = .ok d) :
    d.Passed world m body caller := by
  obtain ⟨w, -, hdraft, -, hmoderate⟩ := accept_ok h
  obtain ⟨text, htext, rfl⟩ := draft_ok hdraft
  obtain ⟨heq, hshort, hsome⟩ := bodyText_ok htext
  exact
    { text := heq
      short := hshort
      something := hsome
      moderate := hmoderate
      name := validDisplayName_spec _
      avatar := fun u hu => (Option.filter_eq_some_iff.mp hu).2
      kind := senderKind_host
      attachment := rfl }

end VoxTranslate.Webinar.Chat
