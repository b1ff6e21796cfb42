import Mathlib.Algebra.Order.Ring.Int
import Mathlib.Data.List.Infix
import VoxTranslate.Voip.LiveCalls

/-!
# Tickets for the media socket

The URL of a media socket is its credential: a payload with its signature, good for a minute and
for one connection.  A registry remembers the nonces that were spent, and forgets those whose
ticket has expired.

The encoding of the payload and the signature are not computed here.  `Codec` stands for them;
the runs below assume of it that a payload that was encoded reads back, and that only this server
signs.
-/

namespace VoxTranslate.Voip

open Lib

/-- How long a ticket is valid. -/
def ticketTtlSecs : Int := 60

/-- What the bridge needs to serve the socket. -/
structure MediaTicket where
  callId : Uuid
  legId : String
  room : String
  peerId : String
  /-- Unix seconds after which this ticket is refused. -/
  exp : Int
  nonce : String
  deriving DecidableEq, Repr

inductive TicketError where
  | malformed
  | badSignature
  | expired
  | replayed
  deriving DecidableEq, Repr

/-- The payload as base64 of JSON, and HMAC-SHA256 as base64, under the server's key. -/
structure Codec where
  encode : MediaTicket → String
  decode : String → Option MediaTicket
  sign : String → String

/-- Split a text at its first dot. -/
def splitOnce (raw : String) : Option (String × String) :=
  match raw.toList.dropWhile (· ≠ '.') with
  | [] => none
  | _ :: rest => some (String.ofList (raw.toList.takeWhile (· ≠ '.')), String.ofList rest)

namespace MediaTicket

variable (codec : Codec)

/-- Mint a ticket. -/
def mint (ticket : MediaTicket) : String :=
  codec.encode ticket ++ "." ++ codec.sign (codec.encode ticket)

/-- Verify a ticket's signature and expiry, without consuming it. -/
def verify (raw : String) (now : Int) : Except TicketError MediaTicket :=
  match splitOnce raw with
  | none => .error .malformed
  | some (encoded, sig) =>
    if sig ≠ codec.sign encoded then .error .badSignature
    else
      match codec.decode encoded with
      | none => .error .malformed
      | some ticket => if now > ticket.exp then .error .expired else .ok ticket

/-- The ticket of a leg. -/
def issue (callId : Uuid) (legId room peerId : String) (now : Int) (nonce : String) :
    MediaTicket :=
  { callId, legId, room, peerId, exp := now + ticketTtlSecs, nonce }

end MediaTicket

/-- The nonces that were spent, with the expiry of their tickets. -/
abbrev TicketRegistry := Assoc String Int

namespace TicketRegistry

/-- `spent.retain`. -/
def sweep (spent : TicketRegistry) (now : Int) : TicketRegistry :=
  spent.mapEntries fun exp => if exp ≥ now then some exp else none

/-- Verify and consume. -/
def redeem (codec : Codec) (spent : TicketRegistry) (raw : String) (now : Int) :
    TicketRegistry × Except TicketError MediaTicket :=
  match MediaTicket.verify codec raw now with
  | .error e => (spent, .error e)
  | .ok ticket =>
    let spent := spent.sweep now
    let spent' := spent.insert ticket.nonce ticket.exp
    if (spent.lookup ticket.nonce).isSome then (spent', .error .replayed) else (spent', .ok ticket)

end TicketRegistry

/-- The registry, with what was issued and what was redeemed. -/
structure TicketDesk where
  spent : TicketRegistry
  clock : Int
  issued : List MediaTicket
  /-- What was presented with success, and when. -/
  redeemed : List (String × Int)

namespace TicketDesk

def start (now : Int) : TicketDesk := ⟨∅, now, [], []⟩

inductive Act where
  | issue (callId : Uuid) (legId room peerId : String) (now : Int) (nonce : String)
  | redeem (raw : String) (now : Int)
  deriving DecidableEq

variable (codec : Codec)

/-- The step function; `none` where the clock goes back or a nonce is drawn a second time. -/
def step (s : TicketDesk) : Act → Option TicketDesk
  | .issue callId legId room peerId now nonce =>
    if s.clock ≤ now ∧ ∀ t ∈ s.issued, t.nonce ≠ nonce then
      some { s with
        clock := now
        issued := .issue callId legId room peerId now nonce :: s.issued }
    else none
  | .redeem raw now =>
    if s.clock ≤ now then
      let (spent, result) := s.spent.redeem codec raw now
      some { s with
        spent
        clock := now
        redeemed := s.redeemed ++ if result.toOption.isSome then [(raw, now)] else [] }
    else none

/-- The assumptions on the encoding and the signature: what is encoded reads back and has no dot
in it, and whoever presents a valid signature has it from a ticket that was issued. -/
def Assumed (s : TicketDesk) : Act → Prop
  | .issue callId legId room peerId now nonce =>
    let ticket := MediaTicket.issue callId legId room peerId now nonce
    codec.decode (codec.encode ticket) = some ticket ∧ '.' ∉ (codec.encode ticket).toList
  | .redeem raw _ => ∀ encoded, splitOnce raw = some (encoded, codec.sign encoded) →
      ∃ t ∈ s.issued, encoded = codec.encode t

end TicketDesk

/-! ## The text of a ticket -/

lemma splitOnce_append {encoded sig : String} (h : '.' ∉ encoded.toList) :
    splitOnce (encoded ++ "." ++ sig) = some (encoded, sig) := by
  have hne : ∀ c ∈ encoded.toList, decide (c ≠ '.') = true := by
    intro c hc
    refine decide_eq_true fun heq => h ?_
    rwa [heq] at hc
  have htake : (encoded.toList ++ '.' :: sig.toList).takeWhile (· ≠ '.') = encoded.toList := by
    rw [List.takeWhile_append_of_pos hne]
    simp
  have hdrop : (encoded.toList ++ '.' :: sig.toList).dropWhile (· ≠ '.') = '.' :: sig.toList := by
    rw [List.dropWhile_append_of_pos hne]
    simp
  have htext : (encoded ++ "." ++ sig).toList = encoded.toList ++ '.' :: sig.toList := by
    simp
  rw [splitOnce, htext, hdrop, htake]
  simp

lemma eq_of_splitOnce {raw encoded sig : String} (h : splitOnce raw = some (encoded, sig)) :
    raw = encoded ++ "." ++ sig := by
  have htext := List.takeWhile_append_dropWhile (p := fun c => decide (c ≠ '.')) (l := raw.toList)
  rw [splitOnce] at h
  split at h
  · cases h
  · next d rest hdrop =>
    have hdot : d = '.' := by
      have hhead := List.head?_dropWhile_not (fun c => decide (c ≠ '.')) raw.toList
      rw [hdrop] at hhead
      simpa using hhead
    cases h
    subst hdot
    rw [hdrop] at htext
    refine String.toList_injective (htext.symm.trans ?_)
    simp

/-! ## One redemption -/

namespace MediaTicket

variable {codec : Codec} {raw : String} {now : Int} {ticket : MediaTicket}

/-- What is verified has a valid signature, reads as the ticket, and has not expired. -/
lemma verify_eq_ok :
    verify codec raw now = .ok ticket ↔
      (∃ encoded, splitOnce raw = some (encoded, codec.sign encoded) ∧
        codec.decode encoded = some ticket) ∧ now ≤ ticket.exp := by
  rw [verify]
  split
  · next hnone => simp [hnone]
  · next encoded sig hsome =>
    split_ifs with hsig
    · simp [hsome, hsig]
    · rw [not_ne_iff] at hsig
      subst hsig
      split
      · next hdecode => simp [hsome, hdecode]
      · next t hdecode =>
        have hread : (∃ encoded, splitOnce raw = some (encoded, codec.sign encoded) ∧
            codec.decode encoded = some ticket) ↔ t = ticket := by
          simp [hsome, hdecode]
        rw [hread]
        split_ifs with hexp
        · refine iff_of_false (by simp) ?_
          rintro ⟨rfl, hle⟩
          exact absurd hexp (Int.not_lt.mpr hle)
        · constructor
          · rintro ⟨⟩
            exact ⟨rfl, Int.not_lt.mp hexp⟩
          · rintro ⟨rfl, -⟩
            rfl

/-- What was minted reads as it was minted. -/
lemma verify_mint (hdecode : codec.decode (codec.encode ticket) = some ticket)
    (hdot : '.' ∉ (codec.encode ticket).toList) (now : Int) :
    verify codec (ticket.mint codec) now =
      if now > ticket.exp then .error .expired else .ok ticket := by
  rw [verify, mint, splitOnce_append hdot]
  simp [hdecode]

end MediaTicket

namespace TicketRegistry

variable {codec : Codec} {spent : TicketRegistry} {raw nonce : String} {now exp : Int}
  {ticket : MediaTicket}

/-- A sweep keeps what has not expired. -/
lemma lookup_sweep (h : now ≤ exp) (hspent : spent.lookup nonce = some exp) :
    (spent.sweep now).lookup nonce = some exp := by
  rw [sweep, Assoc.lookup_mapEntries, hspent, Option.bind_some, if_pos h]

/-- What is refused by the verification is recorded nowhere. -/
lemma redeem_of_error {e : TicketError} (h : MediaTicket.verify codec raw now = .error e) :
    spent.redeem codec raw now = (spent, .error e) := by
  rw [redeem, h]

/-- A ticket that is verified is spent, and accepted if its nonce was not. -/
lemma redeem_of_ok (h : MediaTicket.verify codec raw now = .ok ticket) :
    spent.redeem codec raw now =
      ((spent.sweep now).insert ticket.nonce ticket.exp,
        if ((spent.sweep now).lookup ticket.nonce).isSome then .error .replayed
        else .ok ticket) := by
  rw [redeem, h]
  dsimp only
  split_ifs <;> rfl

end TicketRegistry

namespace TicketDesk

variable {codec : Codec} {s t : TicketDesk} {a : Act} {acts : List Act} {raw : String}
  {now : Int}

/-- What the registry remembers. -/
structure Kept (codec : Codec) (s : TicketDesk) : Prop where
  /-- What was issued reads back. -/
  faithful : ∀ t ∈ s.issued,
    codec.decode (codec.encode t) = some t ∧ '.' ∉ (codec.encode t).toList
  nonces : ∀ t ∈ s.issued, ∀ t' ∈ s.issued, t.nonce = t'.nonce → t = t'
  /-- What was redeemed was issued, was not expired, and is remembered until it is. -/
  spent : ∀ r ∈ s.redeemed, r.2 ≤ s.clock ∧ ∃ t ∈ s.issued, r.1 = t.mint codec ∧ r.2 ≤ t.exp ∧
    (t.exp < s.clock ∨ s.spent.lookup t.nonce = some t.exp)
  once : (s.redeemed.map Prod.fst).Nodup

lemma start_kept (now : Int) : (start now).Kept codec where
  faithful t h := by cases h
  nonces t h := by cases h
  spent r h := by cases h
  once := List.nodup_nil

/-- What is presented and verified was issued, as it is. -/
lemma Kept.verified {ticket : MediaTicket} (h : s.Kept codec)
    (hassumed : s.Assumed codec (.redeem raw now))
    (hok : MediaTicket.verify codec raw now = .ok ticket) :
    ticket ∈ s.issued ∧ raw = ticket.mint codec := by
  obtain ⟨⟨encoded, hsplit, hdecode⟩, -⟩ := MediaTicket.verify_eq_ok.mp hok
  obtain ⟨t, ht, rfl⟩ := hassumed encoded hsplit
  rw [(h.faithful t ht).1] at hdecode
  cases hdecode
  exact ⟨ht, eq_of_splitOnce hsplit⟩

lemma Kept.verify_mint {ticket : MediaTicket} (h : s.Kept codec) (hissued : ticket ∈ s.issued)
    (now : Int) :
    MediaTicket.verify codec (ticket.mint codec) now =
      if now > ticket.exp then .error .expired else .ok ticket :=
  MediaTicket.verify_mint (h.faithful ticket hissued).1 (h.faithful ticket hissued).2 now

lemma Kept.mint_inj {t t' : MediaTicket} (h : s.Kept codec) (ht : t ∈ s.issued)
    (ht' : t' ∈ s.issued) (heq : t.mint codec = t'.mint codec) : t = t' := by
  have hread := h.verify_mint ht (min t.exp t'.exp)
  rw [heq, h.verify_mint ht', if_neg (by omega), if_neg (by omega)] at hread
  cases hread
  rfl

/-- Time passes, and what is remembered of the tickets that have not expired stays. -/
lemma Kept.elapse {spent : TicketRegistry} (h : s.Kept codec) (hclock : s.clock ≤ now)
    (hspent : ∀ t ∈ s.issued, now ≤ t.exp → s.spent.lookup t.nonce = some t.exp →
      spent.lookup t.nonce = some t.exp) :
    { s with spent, clock := now }.Kept codec where
  faithful := h.faithful
  nonces := h.nonces
  spent r hr := by
    obtain ⟨hbefore, t, ht, hraw, hexp, hleft⟩ := h.spent r hr
    refine ⟨hbefore.trans hclock, t, ht, hraw, hexp, ?_⟩
    by_cases hlate : t.exp < now
    · exact .inl hlate
    · rcases hleft with hexpired | hspent'
      · exact absurd (hexpired.trans_le hclock) hlate
      · exact .inr (hspent t ht (Int.not_lt.mp hlate) hspent')
  once := h.once

/-- A ticket that is spent leaves the others remembered. -/
lemma Kept.spend {ticket : MediaTicket} (h : s.Kept codec) (hclock : s.clock ≤ now)
    (hissued : ticket ∈ s.issued) :
    { s with
      spent := (s.spent.sweep now).insert ticket.nonce ticket.exp
      clock := now }.Kept codec := by
  refine h.elapse hclock fun t ht hlate hspent => ?_
  by_cases hnonce : t.nonce = ticket.nonce
  · cases h.nonces t ht ticket hissued hnonce
    exact AList.lookup_insert _
  · rw [AList.lookup_insert_ne hnonce]
    exact TicketRegistry.lookup_sweep hlate hspent

/-- A ticket that is accepted was not accepted before. -/
lemma Kept.accept {ticket : MediaTicket} (h : s.Kept codec) (hclock : s.clock ≤ now)
    (hissued : ticket ∈ s.issued) (hexp : now ≤ ticket.exp)
    (hfresh : (s.spent.sweep now).lookup ticket.nonce = none) :
    { s with
      spent := (s.spent.sweep now).insert ticket.nonce ticket.exp
      clock := now
      redeemed := s.redeemed ++ [(ticket.mint codec, now)] }.Kept codec := by
  have hnew : ticket.mint codec ∉ s.redeemed.map Prod.fst := by
    intro hmem
    obtain ⟨r, hr, hraw⟩ := List.mem_map.mp hmem
    obtain ⟨-, t, ht, hmint, -, hleft⟩ := h.spent r hr
    cases h.mint_inj hissued ht (hraw.symm.trans hmint)
    rcases hleft with hexpired | hspent
    · omega
    · rw [TicketRegistry.lookup_sweep hexp hspent] at hfresh
      cases hfresh
  have hold := h.spend hclock hissued
  refine ⟨hold.faithful, hold.nonces, fun r hr => ?_, ?_⟩
  · rcases List.mem_append.mp hr with hbefore | hlast
    · exact hold.spent r hbefore
    · cases List.mem_singleton.mp hlast
      exact ⟨le_rfl, ticket, hissued, rfl, hexp, .inr (AList.lookup_insert _)⟩
  · rw [List.map_append, List.map_singleton, List.nodup_append]
    refine ⟨h.once, List.nodup_singleton _, ?_⟩
    rintro r hr r' hr' rfl
    rw [List.mem_singleton.mp hr'] at hr
    exact hnew hr

/-- A ticket that is verified is presented. -/
lemma step_redeem_of_ok {ticket : MediaTicket} (hclock : s.clock ≤ now)
    (hok : MediaTicket.verify codec raw now = .ok ticket) :
    s.step codec (.redeem raw now) =
      some { s with
        spent := (s.spent.sweep now).insert ticket.nonce ticket.exp
        clock := now
        redeemed := s.redeemed ++
          if ((s.spent.sweep now).lookup ticket.nonce).isSome then [] else [(raw, now)] } := by
  simp only [TicketDesk.step, if_pos hclock, TicketRegistry.redeem_of_ok hok]
  by_cases hspent : ((s.spent.sweep now).lookup ticket.nonce).isSome = true
  · simp only [if_pos hspent]
    rfl
  · simp only [if_neg hspent]
    rfl

lemma Kept.step (h : s.Kept codec) (hassumed : s.Assumed codec a)
    (hstep : s.step codec a = some t) : t.Kept codec := by
  cases a with
  | issue callId legId room peerId now nonce =>
    simp only [TicketDesk.step] at hstep
    split_ifs at hstep with hnow
    cases hstep
    have hold := h.elapse hnow.1 fun t _ _ (hspent : s.spent.lookup t.nonce = some t.exp) => hspent
    refine ⟨?_, ?_, fun r hr => ?_, h.once⟩
    · rintro t (_ | ⟨_, ht⟩)
      · exact hassumed
      · exact h.faithful t ht
    · rintro t (_ | ⟨_, ht⟩) t' (_ | ⟨_, ht'⟩) hnonce
      · rfl
      · exact absurd hnonce.symm (hnow.2 t' ht')
      · exact absurd hnonce (hnow.2 t ht)
      · exact h.nonces t ht t' ht' hnonce
    · obtain ⟨hbefore, t, ht, hleft⟩ := hold.spent r hr
      exact ⟨hbefore, t, List.mem_cons_of_mem _ ht, hleft⟩
  | redeem raw now =>
    have hclock : s.clock ≤ now := by
      by_contra hback
      rw [TicketDesk.step, if_neg hback] at hstep
      cases hstep
    cases hverify : MediaTicket.verify codec raw now with
    | error e =>
      simp only [TicketDesk.step, if_pos hclock, TicketRegistry.redeem_of_error hverify] at hstep
      cases hstep
      simpa [Except.toOption] using h.elapse hclock fun _ _ _ hspent => hspent
    | ok ticket =>
      obtain ⟨hissued, rfl⟩ := h.verified hassumed hverify
      have hexp := (MediaTicket.verify_eq_ok.mp hverify).2
      rw [step_redeem_of_ok hclock hverify] at hstep
      cases hstep
      cases hfresh : (s.spent.sweep now).lookup ticket.nonce with
      | none => exact h.accept hclock hissued hexp hfresh
      | some exp => simpa using h.spend hclock hissued

end TicketDesk

/-! ## Legs and tickets -/

/-- The parked legs and the tickets of a server. -/
structure MediaDesk where
  legs : LegDesk
  tickets : TicketDesk

namespace MediaDesk

inductive Act where
  | leg (a : LegDesk.Act)
  | ticket (a : TicketDesk.Act)
  deriving DecidableEq

def step (codec : Codec) (s : MediaDesk) : Act → Option MediaDesk
  | .leg a => some { s with legs := s.legs.step a }
  | .ticket a => (s.tickets.step codec a).map fun tickets => { s with tickets }

/-- The assumptions on the encoding and the signature. -/
def Assumed (codec : Codec) (s : MediaDesk) : Act → Prop
  | .leg _ => True
  | .ticket a => s.tickets.Assumed codec a

def start (rooms : Rooms.RoomManager) (now : Int) : MediaDesk := ⟨.start rooms, .start now⟩

variable {codec : Codec} {s : MediaDesk} {acts : List Act} {rooms : Rooms.RoomManager} {now : Int}

/-- **Legs and tickets are claimed once**, in any run.  A parking is handed to one claimant, and
not after it was dropped; a reclaim that comes too late does nothing.  A ticket is redeemed once,
and not past its expiry; an expired ticket, and a text that is no issued ticket, are refused and
leave the registry as it was. -/
theorem claimed_once (hrun : Run (Guarded (ofPartial (step codec)) (Assumed codec))
      (start rooms now) acts s) :
    (s.legs.handed.Nodup ∧ (∀ n ∈ s.legs.dropped, n ∉ s.legs.handed) ∧
      ∀ callId, s.legs.calls.pending.lookup callId = none → s.legs.reclaim callId = s.legs) ∧
    (s.tickets.redeemed.map Prod.fst).Nodup ∧
    (∀ r ∈ s.tickets.redeemed, ∃ t ∈ s.tickets.issued, r.1 = t.mint codec ∧ ¬ t.exp < r.2) ∧
    (∀ t ∈ s.tickets.issued, ∀ now, t.exp < now →
      s.tickets.spent.redeem codec (t.mint codec) now = (s.tickets.spent, .error .expired)) ∧
    (∀ raw now, raw ∉ s.tickets.issued.map (MediaTicket.mint codec) →
      s.tickets.Assumed codec (.redeem raw now) →
      ∃ e, s.tickets.spent.redeem codec raw now = (s.tickets.spent, .error e)) := by
  have hkept : s.legs.Accounted ∧ s.tickets.Kept codec := by
    refine hrun.invariant (fun s => s.legs.Accounted ∧ s.tickets.Kept codec) ?_
      ⟨LegDesk.start_accounted rooms, TicketDesk.start_kept now⟩
    rintro s a - t ⟨hlegs, htickets⟩ ⟨hassumed, hstep⟩
    cases a with
    | leg a =>
      cases hstep
      exact ⟨hlegs.step a, htickets⟩
    | ticket a =>
      obtain ⟨tickets, htickets', rfl⟩ := Option.map_eq_some_iff.mp hstep
      exact ⟨hlegs, htickets.step hassumed htickets'⟩
  obtain ⟨hlegs, htickets⟩ := hkept
  obtain ⟨hhanded, hdropped⟩ := hlegs.handed_once
  refine ⟨⟨hhanded, hdropped, fun callId => LegDesk.reclaim_none⟩, htickets.once, ?_, ?_, ?_⟩
  · intro r hr
    obtain ⟨-, t, ht, hraw, hexp, -⟩ := htickets.spent r hr
    exact ⟨t, ht, hraw, not_lt.mpr hexp⟩
  · intro t ht now hlate
    refine TicketRegistry.redeem_of_error ?_
    rw [htickets.verify_mint ht, if_pos hlate]
  · intro raw now haltered hassumed
    cases hverify : MediaTicket.verify codec raw now with
    | error e => exact ⟨e, TicketRegistry.redeem_of_error hverify⟩
    | ok ticket =>
      obtain ⟨hissued, rfl⟩ := htickets.verified hassumed hverify
      exact absurd (List.mem_map_of_mem hissued) haltered

/-- The ticket of one leg, and what the crates make of it. -/
def sampleTicket : MediaTicket :=
  { callId := 0, legId := "leg", room := "ph-1", peerId := "phone-1", exp := 1760000060
    nonce := "0123456789abcdef0123456789abcdef" }

def samplePayload : String :=
  "eyJjYWxsX2lkIjoiMDAwMDAwMDAtMDAwMC0wMDAwLTAwMDAtMDAwMDAwMDAwMDAwIiwibGVnX2lkIjoibGVnIiwicm9v" ++
  "bSI6InBoLTEiLCJwZWVyX2lkIjoicGhvbmUtMSIsImV4cCI6MTc2MDAwMDA2MCwibm9uY2UiOiIwMTIzNDU2Nzg5YWJj" ++
  "ZGVmMDEyMzQ1Njc4OWFiY2RlZiJ9"

/-- The payload and its signature under the key `a-server-side-media-key`. -/
def sampleCodec : Codec where
  encode t := if t = sampleTicket then samplePayload else ""
  decode text := if text = samplePayload then some sampleTicket else none
  sign payload :=
    if payload = samplePayload then "ajBzWaE1TGSLuuEzScY9eelw7jwdAofJGtTMmMmHE4M" else ""

lemma dot_notMem_samplePayload : '.' ∉ samplePayload.toList := by
  -- a long literal is evaluated piece by piece
  unfold samplePayload
  rw [String.toList_append, String.toList_append, List.mem_append, List.mem_append]
  rw [String.toList_ofList, String.toList_ofList, String.toList_ofList]
  decide

lemma sampleCodec_faithful :
    sampleCodec.decode (sampleCodec.encode sampleTicket) = some sampleTicket ∧
      '.' ∉ (sampleCodec.encode sampleTicket).toList := by
  refine ⟨by simp [sampleCodec], ?_⟩
  have hencode : sampleCodec.encode sampleTicket = samplePayload := by simp [sampleCodec]
  rw [hencode]
  exact dot_notMem_samplePayload

/-- The sample's ticket is presented. -/
lemma sample_redeem {s : MediaDesk} {now : Int} (hclock : s.tickets.clock ≤ now)
    (hexp : now ≤ sampleTicket.exp) :
    s.step sampleCodec (.ticket (.redeem (sampleTicket.mint sampleCodec) now)) =
      some { s with tickets :=
        { s.tickets with
          spent := (s.tickets.spent.sweep now).insert sampleTicket.nonce sampleTicket.exp
          clock := now
          redeemed := s.tickets.redeemed ++
            if ((s.tickets.spent.sweep now).lookup sampleTicket.nonce).isSome then []
            else [(sampleTicket.mint sampleCodec, now)] } } := by
  have hverify := MediaTicket.verify_mint sampleCodec_faithful.1 sampleCodec_faithful.2 now
  rw [if_neg (not_lt.mpr hexp)] at hverify
  rw [step, TicketDesk.step_redeem_of_ok hclock hverify, Option.map_some]

/-- A ticket is issued and presented twice; its leg is taken by the socket, and the reclaim finds
none.  A minute later the ticket has expired. -/
theorem claimed_once_sample : ∃ acts s,
    Run (Guarded (ofPartial (step sampleCodec)) (Assumed sampleCodec))
      (start ⟨∅, []⟩ 1760000000) acts s ∧
    s.tickets.redeemed = [(sampleTicket.mint sampleCodec, 1760000001)] ∧ s.legs.handed = [0] ∧
    s.legs.handed.Nodup ∧
    s.tickets.spent.redeem sampleCodec (sampleTicket.mint sampleCodec) 1760000061 =
      (s.tickets.spent, .error .expired) := by
  have hpresented : ∀ s : MediaDesk, sampleTicket ∈ s.tickets.issued → ∀ now,
      s.Assumed sampleCodec (.ticket (.redeem (sampleTicket.mint sampleCodec) now)) := by
    intro s hissued now encoded hsplit
    rw [MediaTicket.mint, splitOnce_append sampleCodec_faithful.2] at hsplit
    exact ⟨sampleTicket, hissued, (Prod.mk.inj (Option.some.inj hsplit)).1.symm⟩
  let leg : PendingLeg := ⟨0, 9, 5, none, "ph-1", "phone-1", 2, "standard", "en"⟩
  have hrun : Run (Guarded (ofPartial (step sampleCodec)) (Assumed sampleCodec))
      (start ⟨∅, []⟩ 1760000000)
      [.leg (.park leg),
        .ticket (.issue 0 "leg" "ph-1" "phone-1" 1760000000 "0123456789abcdef0123456789abcdef"),
        .ticket (.redeem (sampleTicket.mint sampleCodec) 1760000001), .leg (.take 0),
        .ticket (.redeem (sampleTicket.mint sampleCodec) 1760000002), .leg (.reclaim 0)] _ :=
    .cons ⟨trivial, rfl⟩ (.cons ⟨sampleCodec_faithful, rfl⟩
      (.cons ⟨hpresented _ (List.mem_singleton_self _) _, sample_redeem (by decide) (by decide)⟩
        (.cons ⟨trivial, rfl⟩
          (.cons ⟨hpresented _ (List.mem_singleton_self _) _,
              sample_redeem (by decide) (by decide)⟩
            (.cons ⟨trivial, rfl⟩ (.nil _))))))
  have honce := claimed_once hrun
  exact ⟨_, _, hrun, rfl, rfl, honce.1.1,
    honce.2.2.2.1 sampleTicket (List.mem_singleton_self _) 1760000061 (by decide)⟩

end MediaDesk

end VoxTranslate.Voip
