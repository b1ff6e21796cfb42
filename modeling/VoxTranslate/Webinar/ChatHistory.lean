import VoxTranslate.Webinar.ChatDelivery

/-!
# What a page misses of a chat

A message that is sent to everybody reaches the pages that are connected, and a message that was
written before reaches the pages that fetch it.  A page that fetches while it is connected misses
nothing but what is older than all that it fetched.  The connection has to come first: what is
written between a fetch and the connection reaches the page in neither way.
-/

namespace VoxTranslate.Webinar.Chat

open Lib Engine Limits Client.Chat

namespace Hall

variable {v : Venue} {s t u : Hall} {a : HallAction} {as bs : List HallAction} {w : WebinarRow}
  {row : ChatRow} {rows : List ChatRow} {event e : ChatEvent} {post : Post} {page : Page}
  {conn p i : Nat}

/-! ## What is not missed -/

/-- What happens to a page: what is on it stays, and what was fetched comes onto it. -/
structure PageAdvances (page q : Page) : Prop where
  seen : page.panel.seen ⊆ q.panel.seen
  loads : ∀ events, some events ∈ page.loads →
    some events ∈ q.loads ∨ ∀ e ∈ events, e.id ∈ q.panel.seen

lemma pageAdvances_rfl : PageAdvances page page := ⟨fun _ h => h, fun _ h => .inl h⟩

lemma pageAdvances_append {q : Page} (hpanel : q.panel = (page.panel.append event).1)
    (hloads : q.loads = page.loads) : PageAdvances page q where
  seen _ hid := hpanel ▸ ChatPanel.mem_seen_append.mpr (.inl hid)
  loads _ h := .inl (hloads ▸ h)

lemma pageAdvances_toggle : PageAdvances page page.toggle := by
  rw [Page.toggle]
  split
  · exact ⟨fun _ h => h, fun _ h => .inl h⟩
  · refine ⟨fun _ h => h, fun events hevents => .inl ?_⟩
    dsimp only
    split_ifs
    · exact hevents
    · exact List.mem_append_left _ hevents

lemma pageAdvances_answered {events : List ChatEvent} (h : page.loads[i]? = some none) :
    PageAdvances page (page.answered i events) where
  seen _ h := h
  loads _ hmem := .inl (Place.mem_set_of_ne h hmem (by simp))

lemma mem_or_eq_of_eraseIdx {α : Type*} {l : List α} {x y : α} (hx : x ∈ l)
    (hy : l[i]? = some y) : x ∈ l.eraseIdx i ∨ x = y := by
  obtain ⟨j, hj⟩ := List.mem_iff_getElem?.mp hx
  by_cases hji : j = i
  · exact .inr (Option.some.inj (hj.symm.trans (hji ▸ hy)))
  · exact .inl (List.mem_eraseIdx_iff_getElem?.mpr ⟨j, hji, hj⟩)

lemma pageAdvances_loaded {q : Page} (h : page.loaded i = some q) : PageAdvances page q := by
  obtain ⟨events, hevents, rfl⟩ := Page.loaded_eq_some h
  refine ⟨fun _ hid => ChatPanel.mem_seen_appendAll.mpr (.inl hid), fun events' hmem => ?_⟩
  refine (mem_or_eq_of_eraseIdx hmem hevents).imp_right fun heq e he => ?_
  cases heq
  exact ChatPanel.mem_seen_appendAll.mpr (.inr (List.mem_map_of_mem he))

/-- What a step does to a page and to a connection of it that is registered: a row that is new is
with its handler, from there it comes onto the connection, and from there onto the page. -/
structure Advances (conn p : Nat) (s t : Hall) : Prop where
  rows : ∀ row ∈ t.rows, row ∈ s.rows ∨
    ∃ post ∈ t.posts, ∃ event, post.stage = .stored event ∧ event.id = row.id
  posts : ∀ post ∈ s.posts, ∀ event, post.stage = .stored event →
    post ∈ t.posts ∨ event ∈ t.wire conn
  wire : ∀ event ∈ s.wire conn, event ∈ t.wire conn ∨ event.id ∈ (t.pages p).panel.seen
  page : PageAdvances (s.pages p) (t.pages p)

lemma advances_of_eq (hrows : t.rows = s.rows)
    (hposts : ∀ post ∈ s.posts, ∀ event, post.stage = .stored event → post ∈ t.posts)
    (hwire : t.wire conn = s.wire conn) (hpage : PageAdvances (s.pages p) (t.pages p)) :
    Advances conn p s t where
  rows _ hrow := .inl (hrows ▸ hrow)
  posts post hpost event hstage := .inl (hposts post hpost event hstage)
  wire _ hevent := .inl (hwire ▸ hevent)
  page := hpage

lemma pageAdvances_setPage {q : Nat} (h : PageAdvances (s.pages q) page) :
    PageAdvances (s.pages p) ((s.setPage q page).pages p) := by
  by_cases hq : p = q
  · subst hq
    simpa [setPage] using h
  · simpa [setPage, Function.update_of_ne hq] using pageAdvances_rfl

lemma advances_setPage {q : Nat} (h : PageAdvances (s.pages q) page) :
    Advances conn p s (s.setPage q page) :=
  advances_of_eq rfl (fun _ hpost _ _ => hpost) rfl (pageAdvances_setPage h)

/-- A handler that has not stored its row, or has sent it, may go on. -/
lemma stored_setPost {old : Post} (hold : s.posts[i]? = some old)
    (hstage : ∀ event, old.stage ≠ .stored event) :
    ∀ q ∈ s.posts, ∀ event, q.stage = .stored event → q ∈ (s.setPost i post).posts := by
  intro q hq event hevent
  refine Place.mem_set_of_ne hold hq ?_
  rintro rfl
  exact hstage event hevent

lemma advances_setPost {old : Post} (hold : s.posts[i]? = some old)
    (hstage : ∀ event, old.stage ≠ .stored event) : Advances conn p s (s.setPost i post) :=
  advances_of_eq rfl (stored_setPost hold hstage) rfl pageAdvances_rfl

/-- A message that is with its handler, on the connection or on the page. -/
def Coming (conn p : Nat) (s : Hall) (id : Uuid) : Prop :=
  (∃ post ∈ s.posts, ∃ event, post.stage = .stored event ∧ event.id = id) ∨
    (∃ event ∈ s.wire conn, event.id = id) ∨ id ∈ (s.pages p).panel.seen

lemma Advances.coming {id : Uuid} (h : Advances conn p s t) (hcoming : Coming conn p s id) :
    Coming conn p t id := by
  rcases hcoming with ⟨post, hpost, event, hstage, rfl⟩ | ⟨event, hevent, rfl⟩ | hseen
  · rcases h.posts post hpost event hstage with hpost | hevent
    · exact .inl ⟨post, hpost, event, hstage, rfl⟩
    · exact .inr (.inl ⟨event, hevent, rfl⟩)
  · exact .inr ((h.wire event hevent).imp_left fun hevent => ⟨event, hevent, rfl⟩)
  · exact .inr (.inr (h.page.seen hseen))

/-- The step lemma: the connection is registered, is the page's and stays so. -/
lemma advances_step (hregistered : (s.presence.registered conn).isSome = true)
    (hpage : s.pageOf conn = some p) (hstays : t.pageOf conn = some p)
    (hdropped : ∀ i translations id createdAt, a ≠ .abandon i translations id createdAt)
    (hstep : step v s a = some t) : Advances conn p s t := by
  cases a with
  | connect page c =>
    simp only [Hall.step] at hstep
    obtain ⟨presence, -, rfl⟩ := Option.map_eq_some_iff.mp hstep
    exact advances_of_eq rfl (fun _ hpost _ _ => hpost) rfl pageAdvances_rfl
  | presence a =>
    simp only [Hall.step] at hstep
    obtain ⟨-, hmap⟩ := Option.ite_none_right_eq_some.mp hstep
    obtain ⟨presence, -, rfl⟩ := Option.map_eq_some_iff.mp hmap
    exact advances_of_eq rfl (fun _ hpost _ _ => hpost) rfl pageAdvances_rfl
  | deliver c =>
    simp only [Hall.step] at hstep
    split at hstep
    · next event rest q hwire hq =>
      cases hstep
      have honto : PageAdvances (s.pages p) ((s.setPage q ((s.pages q).onChat event)).pages p) :=
        pageAdvances_setPage (pageAdvances_append rfl rfl)
      refine ⟨fun _ hrow => .inl hrow, fun _ hpost _ _ => .inl hpost, fun e he => ?_, honto⟩
      -- the event leaves the wire of its own connection only, for the panel
      by_cases hc : conn = c
      · subst hc
        obtain rfl : p = q := Option.some.inj (hpage.symm.trans hq)
        rw [hwire] at he
        rcases List.mem_cons.mp he with rfl | he
        · right
          show e.id ∈ ((s.setPage p ((s.pages p).onChat e)).pages p).panel.seen
          simp only [setPage, Function.update_self]
          exact ChatPanel.mem_seen_append.mpr (.inr rfl)
        · left
          simpa [setWire] using he
      · left
        simpa [setWire, setPage, Function.update_of_ne hc] using he
    · cases hstep
  | lose c =>
    cases hstep
    -- the page is still there, so that another connection was lost
    have hc : conn ≠ c := by
      rintro rfl
      simp at hstays
    exact advances_of_eq rfl (fun _ hpost _ _ => hpost)
      (by simp [setWire, Function.update_of_ne hc]) pageAdvances_rfl
  | patch fields =>
    cases hstep
    exact advances_of_eq rfl (fun _ hpost _ _ => hpost) rfl pageAdvances_rfl
  | limiter key now =>
    cases hstep
    exact advances_of_eq rfl (fun _ hpost _ _ => hpost) rfl pageAdvances_rfl
  | post request now =>
    cases hstep
    refine advances_of_eq rfl (fun post hpost _ _ => ?_) rfl pageAdvances_rfl
    dsimp only
    split
    · exact List.mem_append_left _ hpost
    · exact hpost
  | insert i translations id createdAt =>
    obtain ⟨request, d, hpost, -, rfl⟩ := store_eq_some hstep
    refine ⟨fun row hrow => ?_, fun q hq event hevent =>
      .inl (stored_setPost hpost (by simp) q hq event hevent), fun _ he => .inl he,
      pageAdvances_rfl⟩
    -- the new row waits in its post
    refine (List.mem_append.mp hrow).imp_right fun hrow => ?_
    rw [List.mem_singleton.mp hrow]
    exact ⟨_, List.mem_iff_getElem?.mpr ⟨i, Place.getElem?_set_here hpost⟩, _, rfl, rfl⟩
  | abandon i translations id createdAt => exact absurd rfl (hdropped i translations id createdAt)
  | broadcast i =>
    simp only [Hall.step] at hstep
    split at hstep
    · next request event hpost =>
      obtain ⟨presence, -, rfl⟩ := Option.map_eq_some_iff.mp hstep
      refine ⟨fun _ hrow => .inl hrow, fun q hq e he => ?_, fun e he => .inl ?_, pageAdvances_rfl⟩
      · -- the event is no longer stored, but whoever is registered has it on the wire
        by_cases heq : q = ⟨request, .stored event⟩
        · right
          subst heq
          cases he
          simp [send, hregistered]
        · exact .inl (Place.mem_set_of_ne hpost hq heq)
      · exact List.mem_append_left _ he
    · cases hstep
  | answer i =>
    simp only [Hall.step] at hstep
    split at hstep
    · next request event hpost =>
      cases hstep
      have hposts : ∀ q ∈ s.posts, ∀ e, q.stage = .stored e →
          q ∈ (s.setPost i ⟨request, .done⟩).posts := stored_setPost hpost (by simp)
      cases request.page with
      | none => exact advances_setPost hpost (by simp)
      | some q =>
        exact advances_of_eq rfl hposts rfl (pageAdvances_setPage (pageAdvances_append rfl rfl))
    · cases hstep
  | fail i =>
    simp only [Hall.step] at hstep
    split at hstep
    · next hpost =>
      cases hstep
      exact advances_setPost hpost (by simp)
    · next hpost =>
      cases hstep
      exact advances_setPost hpost (by simp)
    · cases hstep
  | toggle q =>
    cases hstep
    exact advances_setPage pageAdvances_toggle
  | read q i caller rows =>
    simp only [Hall.step] at hstep
    split at hstep
    · next hload =>
      obtain ⟨-, heq⟩ := Option.ite_none_right_eq_some.mp hstep
      cases heq
      exact advances_setPage (pageAdvances_answered hload)
    · cases hstep
  | readFails q i =>
    simp only [Hall.step] at hstep
    split at hstep
    · next hload =>
      cases hstep
      exact advances_setPage (pageAdvances_answered hload)
    · cases hstep
  | loaded q i =>
    simp only [Hall.step] at hstep
    obtain ⟨page, hloaded, rfl⟩ := Option.map_eq_some_iff.mp hstep
    exact advances_setPage (pageAdvances_loaded hloaded)

/-! ### A connection that stays -/

/-- A task that is in `leave` does not come back, and one that is present is so until it is. -/
def Onward (f g : Nat → Pc) : Prop :=
  ∀ id, ((f id).leaves = true → (g id).leaves = true) ∧
    ∀ c, f id = .present c → g id = .present c ∨ (g id).leaves = true

lemma onward_rfl {f : Nat → Pc} : Onward f f := fun _ => ⟨id, fun _ h => .inl h⟩

lemma onward_update {f : Nat → Pc} {pc : Pc} {id : Nat}
    (hleaves : (f id).leaves = true → pc.leaves = true)
    (hpresent : ∀ c, f id = .present c → pc.leaves = true) :
    Onward f (Function.update f id pc) := by
  intro j
  by_cases hj : j = id
  · subst hj
    rw [Function.update_self]
    exact ⟨hleaves, fun c hc => .inr (hpresent c hc)⟩
  · rw [Function.update_of_ne hj]
    exact ⟨fun h => h, fun _ h => .inl h⟩

lemma onward_step {x y : Presence} {b : Presence.Act} (hx : x.Tracks) (h : x.step b = some y) :
    Onward x.pc y.pc ∧ x.next ≤ y.next := by
  cases b with
  | connect c =>
    cases h
    -- a number that was not given out yet is idle
    have hidle := hx.fresh x.next (Nat.le_refl _)
    exact ⟨onward_update (by simp [hidle, Pc.leaves]) (by simp [hidle]), Nat.le_succ _⟩
  | joinLock id =>
    simp only [Presence.step] at h
    split at h
    · next c hpc =>
      split_ifs at h
      cases h
      exact ⟨onward_update (by simp [hpc, Pc.leaves]) (by simp [hpc]), Nat.le_refl _⟩
    · cases h
  | joinInsert id =>
    simp only [Presence.step] at h
    split at h
    · next c hpc =>
      cases h
      exact ⟨onward_update (by simp [hpc, Pc.leaves]) (by simp [hpc]), Nat.le_refl _⟩
    · cases h
  | joinUnlock id =>
    simp only [Presence.step] at h
    split at h
    · next c hpc =>
      cases h
      exact ⟨onward_update (by simp [hpc, Pc.leaves]) (by simp [hpc]), Nat.le_refl _⟩
    · cases h
  | disconnect id =>
    simp only [Presence.step] at h
    split at h
    · cases h
      exact ⟨onward_update (fun _ => rfl) (fun _ _ => rfl), Nat.le_refl _⟩
    · cases h
  | leaveLock id =>
    simp only [Presence.step] at h
    split at h
    · split_ifs at h
      split at h
      · cases h
        exact ⟨onward_update (fun _ => rfl) (fun _ _ => rfl), Nat.le_refl _⟩
      · cases h
        exact ⟨onward_update (fun _ => rfl) (fun _ _ => rfl), Nat.le_refl _⟩
    · cases h
  | leaveCheck id =>
    simp only [Presence.step] at h
    split at h
    · cases h
      exact ⟨onward_update (fun _ => rfl) (fun _ _ => rfl), Nat.le_refl _⟩
    · cases h
  | leaveUnlock id =>
    simp only [Presence.step] at h
    split at h
    · next empty _ =>
      cases h
      refine ⟨onward_update (fun _ => ?_) (fun _ _ => ?_), Nat.le_refl _⟩ <;> cases empty <;> rfl
    · cases h
  | leaveRemove id =>
    simp only [Presence.step] at h
    split at h
    · split_ifs at h
      cases h
      exact ⟨onward_update (fun _ => rfl) (fun _ _ => rfl), Nat.le_refl _⟩
    · cases h
  | broadcast b =>
    simp only [Presence.step] at h
    split_ifs at h
    cases h
    exact ⟨onward_rfl, Nat.le_refl _⟩
  | beginStt =>
    simp only [Presence.step] at h
    split_ifs at h <;> cases h <;> exact ⟨onward_rfl, Nat.le_refl _⟩
  | endStt =>
    simp only [Presence.step] at h
    split_ifs at h
    cases h
    exact ⟨onward_rfl, Nat.le_refl _⟩

/-- No leave of the registry removes somebody who has joined. -/
def removesNobody (s : Hall) : HallAction → Bool
  | .presence a => s.presence.removesNobody a
  | _ => true

/-- What a step does to the registry and to the ends of the connections: nothing but to break one, or
a step of the registry. -/
lemma presence_step (hstep : step v s a = some t) :
    (t.presence = s.presence ∧ ∀ c, t.pageOf c = s.pageOf c ∨ t.pageOf c = none) ∨
      ∃ b, s.presence.step b = some t.presence ∧
        (s.removesNobody a = true → s.presence.removesNobody b = true) ∧
        ∀ c < s.presence.next, t.pageOf c = s.pageOf c := by
  cases a with
  | connect page c =>
    simp only [Hall.step] at hstep
    obtain ⟨presence, hpresence, rfl⟩ := Option.map_eq_some_iff.mp hstep
    exact .inr ⟨_, hpresence, fun _ => rfl, fun c hc => Function.update_of_ne (Nat.ne_of_lt hc) _ _⟩
  | presence b =>
    simp only [Hall.step] at hstep
    obtain ⟨-, hmap⟩ := Option.ite_none_right_eq_some.mp hstep
    obtain ⟨presence, hpresence, rfl⟩ := Option.map_eq_some_iff.mp hmap
    exact .inr ⟨b, hpresence, fun h => h, fun _ _ => rfl⟩
  | broadcast i =>
    simp only [Hall.step] at hstep
    split at hstep
    · obtain ⟨presence, hpresence, rfl⟩ := Option.map_eq_some_iff.mp hstep
      exact .inr ⟨_, hpresence, fun _ => rfl, fun _ _ => rfl⟩
    · cases hstep
  | lose c =>
    cases hstep
    -- the connection that is lost leaves the registry later, by a task of its own
    refine .inl ⟨rfl, fun c' => ?_⟩
    by_cases hc : c' = c
    · exact .inr (by simp [hc])
    · exact .inl (Function.update_of_ne hc _ _)
  | deliver c =>
    simp only [Hall.step] at hstep
    split at hstep <;> cases hstep
    exact .inl ⟨rfl, fun _ => .inl rfl⟩
  | insert i translations id createdAt =>
    obtain ⟨request, d, -, -, rfl⟩ := store_eq_some hstep
    exact .inl ⟨rfl, fun _ => .inl rfl⟩
  | abandon i translations id createdAt =>
    obtain ⟨request, d, -, -, rfl⟩ := store_eq_some hstep
    exact .inl ⟨rfl, fun _ => .inl rfl⟩
  | answer i =>
    simp only [Hall.step] at hstep
    split at hstep
    · next request _ _ =>
      cases hstep
      cases request.page <;> exact .inl ⟨rfl, fun _ => .inl rfl⟩
    · cases hstep
  | fail i =>
    simp only [Hall.step] at hstep
    split at hstep <;> cases hstep <;> exact .inl ⟨rfl, fun _ => .inl rfl⟩
  | read q i caller rows =>
    simp only [Hall.step] at hstep
    split at hstep
    · obtain ⟨-, heq⟩ := Option.ite_none_right_eq_some.mp hstep
      cases heq
      exact .inl ⟨rfl, fun _ => .inl rfl⟩
    · cases hstep
  | readFails q i =>
    simp only [Hall.step] at hstep
    split at hstep <;> cases hstep
    exact .inl ⟨rfl, fun _ => .inl rfl⟩
  | loaded q i =>
    simp only [Hall.step] at hstep
    obtain ⟨page, -, rfl⟩ := Option.map_eq_some_iff.mp hstep
    exact .inl ⟨rfl, fun _ => .inl rfl⟩
  | patch fields | limiter key now | post request now | toggle q =>
    cases hstep
    exact .inl ⟨rfl, fun _ => .inl rfl⟩

variable {viewer : Viewer} {old fetched : List ChatRow}

/-- The connection of the page is present. -/
def Steady (viewer : Viewer) (conn p : Nat) (s : Hall) : Prop :=
  s.presence.pc conn = .present viewer ∧ s.pageOf conn = some p

/-- It will not be again. -/
def Gone (conn p : Nat) (s : Hall) : Prop :=
  (s.presence.pc conn).leaves = true ∨ s.pageOf conn ≠ some p

lemma Steady.not_gone (h : Steady viewer conn p s) : ¬ Gone conn p s := by
  rintro (hleaves | hpage)
  · rw [h.1] at hleaves
    cases hleaves
  · exact hpage h.2

lemma tracks_step (h : s.presence.Tracks) (hguard : s.removesNobody a = true)
    (hstep : step v s a = some t) : t.presence.Tracks := by
  rcases presence_step hstep with ⟨heq, -⟩ | ⟨b, hb, hremoves, -⟩
  · rwa [heq]
  · exact h.step (hremoves hguard) hb

lemma gone_step (viewer : Viewer) (p : Nat) (h : s.presence.Tracks) (hlt : conn < s.presence.next)
    (hstep : step v s a = some t) : conn < t.presence.next ∧ (Gone conn p s → Gone conn p t) ∧
      (Steady viewer conn p s → Steady viewer conn p t ∨ Gone conn p t) := by
  rcases presence_step hstep with ⟨heq, hpages⟩ | ⟨b, hb, -, hpages⟩
  · rw [Gone, Gone, Steady, Steady, heq]
    rcases hpages conn with hpage | hpage
    · rw [hpage]
      exact ⟨hlt, fun h => h, .inl⟩
    · exact ⟨hlt, fun _ => .inr (by simp [hpage]), fun _ => .inr (.inr (by simp [hpage]))⟩
  · obtain ⟨honward, hnext⟩ := onward_step h hb
    obtain ⟨hleaves, hpresent⟩ := honward conn
    rw [Gone, Gone, Steady, Steady, hpages conn hlt]
    refine ⟨Nat.lt_of_lt_of_le hlt hnext, fun h => h.imp_left hleaves, fun ⟨hpc, hpage⟩ => ?_⟩
    exact (hpresent viewer hpc).imp (fun hpc => ⟨hpc, hpage⟩) .inl

/-- What a page that fetched is sure of: a row that was not there when it fetched is coming, and
what it fetched is coming. -/
structure Covered (conn p : Nat) (old fetched : List ChatRow) (s : Hall) : Prop where
  rows : ∀ row ∈ s.rows, row ∈ old ∨ Coming conn p s row.id
  fetch : some ((fetched.map historyView).map normalizeChat) ∈ (s.pages p).loads ∨
    ∀ row ∈ fetched, row.id ∈ (s.pages p).panel.seen

lemma Covered.advances (h : Covered conn p old fetched s) (hadvances : Advances conn p s t) :
    Covered conn p old fetched t where
  rows row hrow := by
    rcases hadvances.rows row hrow with hrow | hnew
    · exact (h.rows row hrow).imp_right hadvances.coming
    · exact .inr (.inl hnew)
  fetch := by
    rcases h.fetch with hload | hseen
    · refine (hadvances.page.loads _ hload).imp_right fun hseen row hrow => ?_
      exact hseen _ (List.mem_map_of_mem (List.mem_map_of_mem hrow))
    · exact .inr fun row hrow => hadvances.page.seen (hseen row hrow)

lemma registered_of_steady (h : s.presence.Tracks) (hsteady : Steady viewer conn p s) :
    (s.presence.registered conn).isSome = true := by
  rw [(h.joined conn (by rw [hsteady.1]; rfl)).1, hsteady.1]
  rfl

/-- The guarded steps, where no handler is dropped. -/
lemma covered_of_run
    (hrun : Run (Guarded (ofPartial (step v)) fun s a => s.removesNobody a = true) s as t)
    (has : ∀ a ∈ as, ∀ i translations id createdAt, a ≠ .abandon i translations id createdAt)
    (htracks : s.presence.Tracks) (hlt : conn < s.presence.next)
    (hsteady : Steady viewer conn p s) (hcovered : Covered conn p old fetched s) :
    Gone conn p t ∨ Covered conn p old fetched t := by
  have h : t.presence.Tracks ∧ conn < t.presence.next ∧
      (Gone conn p t ∨ Steady viewer conn p t ∧ Covered conn p old fetched t) := by
    refine hrun.invariant (fun t => t.presence.Tracks ∧ conn < t.presence.next ∧
      (Gone conn p t ∨ Steady viewer conn p t ∧ Covered conn p old fetched t)) ?_
      ⟨htracks, hlt, .inr ⟨hsteady, hcovered⟩⟩
    rintro s a ha t ⟨htracks, hlt, h⟩ ⟨hguard, hstep⟩
    obtain ⟨hlt', hgone, hstays⟩ := gone_step viewer p htracks hlt hstep
    refine ⟨tracks_step htracks hguard hstep, hlt', ?_⟩
    rcases h with h | ⟨hsteady, hcovered⟩
    · exact .inl (hgone h)
    rcases hstays hsteady with hsteady' | hgone'
    · exact .inr ⟨hsteady', hcovered.advances
        (advances_step (registered_of_steady htracks hsteady) hsteady.2 hsteady'.2 (has a ha) hstep)⟩
    · exact .inl hgone'
  exact h.2.2.imp_right And.right

/-- A fetch that was answered: its rows are on their way, and every row there is is old. -/
lemma read_eq_some {caller : Caller} (conn : Nat) (hread : step v s (.read p i caller fetched) = some t)
    (hview : listChat s.webinar caller fetched = .ok (fetched.map historyView)) :
    Latest (clampLimit (some HISTORY)).toNat s.rows fetched ∧ t.presence = s.presence ∧
      t.pageOf = s.pageOf ∧ Covered conn p s.rows fetched t := by
  simp only [Hall.step] at hread
  split at hread
  · next hload =>
    obtain ⟨hlatest, heq⟩ := Option.ite_none_right_eq_some.mp hread
    cases heq
    refine ⟨hlatest, rfl, rfl, fun _ hrow => .inl hrow, .inl ?_⟩
    simp only [hview, setPage, Function.update_self, Page.answered]
    exact List.mem_iff_getElem?.mpr ⟨i, Place.getElem?_set_here hload⟩
  · cases hread

/-- The fetch was full, if it left a row out. -/
lemma length_of_latest {limit : Nat} (h : Latest limit rows fetched) (hrow : row ∈ rows)
    (hnot : row ∉ fetched) : fetched.length = limit := by
  have hnodup : (row :: fetched).Nodup := List.nodup_cons.mpr ⟨hnot, h.nodup.of_map⟩
  have hle : (row :: fetched).length ≤ rows.length :=
    (hnodup.subperm (List.cons_subset.mpr ⟨hrow, h.subset⟩)).length_le
  have hlength := h.length
  rw [List.length_cons] at hle
  omega

/-- The guarded steps from the start. -/
lemma guarded_after {as : List HallAction}
    (h : (as.foldlM (fun s a => if s.removesNobody a then step sampleVenue s a else none)
      (start sampleVenue sampleChat)) = some (after as)) :
    Run (Guarded (ofPartial (step sampleVenue)) fun s a => s.removesNobody a = true)
      (start sampleVenue sampleChat) as (after as) :=
  Run.guarded_ofPartial_iff.mpr h

/-- Somebody greets; then a page is connected and opens the chat. -/
def late : List HallAction :=
  [.post { greeting 1 with page := none } 0, .insert 0 [] 1 10, .broadcast 0, .answer 0,
    .connect (some 0) ⟨false, none⟩, .presence (.joinLock 0), .presence (.joinInsert 0),
    .presence (.joinUnlock 0), .toggle 0]

/-- The row of the first greeting. -/
def firstRow : ChatRow :=
  insertChatMessage (compose sampleVenue.world (greeting 1).caller (greeting 1).body
    "hello".toList) [] 1 10

/-- The page fetches it. -/
def toldLate : List HallAction := late ++ [.read 0 0 (greeting 1).caller [firstRow]]

/-- Somebody greets again, before what the page fetched has arrived. -/
def again : List HallAction :=
  [.post { greeting 1 with page := none } 1, .insert 1 [] 2 20, .broadcast 1, .answer 1, .deliver 0,
    .loaded 0 0]

/-- A message that is written between the fetch and the connection is never shown. -/
example : ((after (late.take 4 ++ [.toggle 0, .read 0 0 (greeting 1).caller [firstRow]] ++
    again.take 4 ++ (late.drop 4).take 4 ++ [.loaded 0 0])).pages 0).panel.list.map ChatEvent.id =
      [1] := by
  decide +kernel

end Hall

end VoxTranslate.Webinar.Chat
