import VoxTranslate.Client.TicTacToe
import VoxTranslate.Lib.Place
import VoxTranslate.Lib.Ring

/-!
# The seats of a new mini-game

The participants of a call are a ring.  Whoever is entitled to stay after a finished game keeps a
seat, and the participant after the loser takes the other one.  So the opponents of a player who
stays are the other participants, one after the other.
-/

namespace VoxTranslate.Client

open Lib Lib.Place Lib.Ring

/-- Who stays after a finished game: the winner, or X after a draw. -/
def entitled (g : GameState) : Option String :=
  match g.status, g.winner with
  | .won, some .x => some g.xId
  | .won, some .o => g.oId
  | .draw, _ => some g.xId
  | _, _ => none

/-- The game after one whose player stays, with the same participants; anybody may have started
it. -/
def Follows (parts : List String) (player : String) (g g' : GameState) : Prop :=
  entitled g = some player ∧
    ∃ starterId, nextSeats parts (some g) starterId = (g'.xId, g'.oId)

/-- Whom a player has played against. -/
def opponent (g : GameState) (player : String) : Option String :=
  if player = g.xId then g.oId else some g.xId

variable {parts : List String} {g g' : GameState} {player starterId exclude : String} {start : Nat}

/-! ## The search in the ring -/

lemma nextOther_eq (parts : List String) (start : Nat) (exclude : String) :
    nextOther parts start exclude = nextAfter parts start exclude := by
  rw [nextAfter, ← findSome?_range, nextOther, List.length_rotate]
  refine findSome?_eq_of_mem fun k hk => ?_
  have hplace : start + (k + 1) = k + (start + 1) := by omega
  rw [List.getElem?_rotate (List.mem_range.mp hk), hplace]

/-- Of two participants or more, one is not excluded. -/
lemma exists_nextOther (hparts : parts.Nodup) (hlength : 2 ≤ parts.length)
    (hexclude : exclude ∈ parts) (start : Nat) :
    ∃ o, nextOther parts start exclude = some o ∧ o ∈ parts ∧ exclude ≠ o := by
  have hpos : 0 < (others parts exclude).length := by
    rw [length_others]
    omega
  obtain ⟨b, hb⟩ := List.exists_mem_of_length_pos hpos
  obtain ⟨hmem, hne⟩ := (mem_others_iff hparts hexclude).mp hb
  have hfound : ((parts.rotate (start + 1)).find? (· ≠ exclude)).isSome = true := by
    rw [List.find?_isSome]
    exact ⟨b, List.mem_rotate.mpr hmem, by simpa using hne⟩
  obtain ⟨o, ho⟩ := Option.isSome_iff_exists.mp hfound
  refine ⟨o, (nextOther_eq parts start exclude).trans ho, ?_, ?_⟩
  · exact List.mem_rotate.mp (List.mem_of_find?_eq_some ho)
  · have hother := List.find?_some ho
    exact fun heq => (of_decide_eq_true hother) heq.symm

/-! ## One new game -/

lemma mem_of_keptSeat {prev : Option GameState} (h : keptSeat parts prev = some (g, player)) :
    player ∈ parts := by
  cases prev with
  | none => cases h
  | some g₀ =>
    have hkept : ∀ o : Option String, (o.bind fun keep =>
        if keep ≠ "" ∧ keep ∈ parts then some (g₀, keep) else none) = some (g, player) →
        player ∈ parts := by
      intro o ho
      obtain ⟨keep, -, hkeep⟩ := Option.bind_eq_some_iff.mp ho
      obtain ⟨⟨-, hmem⟩, heq⟩ := Option.ite_none_right_eq_some.mp hkeep
      cases heq
      exact hmem
    rw [keptSeat] at h
    cases hstatus : g₀.status with
    | won =>
      by_cases hwinner : g₀.winner = some .x
      · exact hkept (some g₀.xId) (by simpa [hstatus, hwinner] using h)
      · exact hkept g₀.oId (by simpa [hstatus, hwinner] using h)
    | draw => exact hkept (some g₀.xId) (by simpa [hstatus] using h)
    | _ => simp [hstatus] at h

/-- Two seats for two different participants, whatever was before. -/
lemma seats_spec (hparts : parts.Nodup) (hlength : 2 ≤ parts.length) (prev : Option GameState)
    (starterId : String) : ∃ o, (nextSeats parts prev starterId).2 = some o ∧ o ∈ parts ∧
      (nextSeats parts prev starterId).1 ∈ parts ∧ (nextSeats parts prev starterId).1 ≠ o := by
  rw [nextSeats, if_neg (by omega)]
  split
  next prev' keep hkept =>
    have hmem := mem_of_keptSeat hkept
    obtain ⟨o, ho, hin, hne⟩ := exists_nextOther hparts hlength hmem
      (((if keep = prev'.xId then prev'.oId else some prev'.xId).bind parts.idxOf?).getD
        (parts.idxOf keep))
    exact ⟨o, ho, hin, hmem, hne⟩
  next =>
    let starter := if starterId ∈ parts then starterId else parts.headD starterId
    have hmem : starter ∈ parts := by
      by_cases hin : starterId ∈ parts
      · simpa only [starter, if_pos hin] using hin
      · obtain ⟨a, rest, rfl⟩ := List.exists_cons_of_length_pos (l := parts) (by omega)
        simp only [starter, if_neg hin, List.headD_cons, List.mem_cons, true_or]
    obtain ⟨o, ho, hin, hne⟩ := exists_nextOther hparts hlength hmem (parts.idxOf starter)
    exact ⟨o, ho, hin, hmem, hne⟩

/-- Who is entitled to stay, and is there, stays. -/
lemma nextSeats_of_entitled (hlength : 2 ≤ parts.length) (hentitled : entitled g = some player)
    (hmem : player ∈ parts) (hid : player ≠ "") (starterId : String) :
    nextSeats parts (some g) starterId =
      (player, nextOther parts
        (((opponent g player).bind parts.idxOf?).getD (parts.idxOf player)) player) := by
  have hkept : keptSeat parts (some g) = some (g, player) := by
    rw [entitled] at hentitled
    split at hentitled
    next hstatus hwinner => simp_all [keptSeat]
    next hstatus hwinner => simp_all [keptSeat]
    next hstatus => simp_all [keptSeat]
    next => cases hentitled
  rw [nextSeats, if_neg (by omega), hkept]
  rfl

lemma idxOf?_of_mem {l : List String} {c : String} (h : c ∈ l) :
    l.idxOf? c = some (l.idxOf c) := by
  induction l with
  | nil => cases h
  | cons a l ih =>
    rw [List.idxOf?_cons]
    by_cases hac : a = c
    · rw [if_pos (by simpa using hac), hac, List.idxOf_cons_self]
    · rw [if_neg (by simpa using hac), List.idxOf_cons_ne _ hac,
        ih (List.mem_of_ne_of_mem (Ne.symm hac) h), Option.map_some]

/-- After one of the others the next of them takes the seat. -/
lemma Follows.of_other (hparts : parts.Nodup) (hlength : 2 ≤ parts.length) (hmem : player ∈ parts)
    (hid : player ≠ "") (h : Follows parts player g g') {j : Nat} {c : String}
    (hc : opponent g player = some c) (hj : (others parts player)[j]? = some c) :
    g'.oId = (others parts player)[(j + 1) % (others parts player).length]? := by
  obtain ⟨hentitled, starterId, hseats⟩ := h
  rw [nextSeats_of_entitled hlength hentitled hmem hid, Prod.mk.injEq, nextOther_eq] at hseats
  have hin : c ∈ parts := ((mem_others_iff hparts hmem).mp (List.mem_of_getElem? hj)).1
  rw [← hseats.2, hc, Option.bind_some, idxOf?_of_mem hin, Option.getD_some,
    nextAfter_other hparts hmem hj]

/-- Somebody of the others takes the seat. -/
lemma Follows.exists_other (hparts : parts.Nodup) (hlength : 2 ≤ parts.length)
    (hmem : player ∈ parts) (hid : player ≠ "") (h : Follows parts player g g') :
    g'.xId = player ∧
      ∃ k, g'.oId = (others parts player)[k % (others parts player).length]? := by
  obtain ⟨hentitled, starterId, hseats⟩ := id h
  rw [nextSeats_of_entitled hlength hentitled hmem hid, Prod.mk.injEq, nextOther_eq] at hseats
  refine ⟨hseats.1.symm, ?_⟩
  by_cases hother : ∃ c, opponent g player = some c ∧ c ∈ others parts player
  · obtain ⟨c, hc, hin⟩ := hother
    obtain ⟨j, hj⟩ := List.mem_iff_getElem?.mp hin
    exact ⟨j + 1, h.of_other hparts hlength hmem hid hc hj⟩
  · -- the search starts at the player
    have hstart : ((opponent g player).bind parts.idxOf?).getD (parts.idxOf player) =
        parts.idxOf player := by
      cases hc : opponent g player with
      | none => rfl
      | some c =>
        by_cases hin : c ∈ parts
        · have heq : c = player := by
            by_contra hne
            exact hother ⟨c, hc, (mem_others_iff hparts hmem).mpr ⟨hin, hne⟩⟩
          rw [heq, Option.bind_some, idxOf?_of_mem hmem, Option.getD_some]
        · rw [Option.bind_some, List.idxOf?_eq_none_iff.mpr hin, Option.getD_none]
    exact ⟨0, by rw [← hseats.2, hstart, nextAfter_self hparts hmem, Nat.zero_mod]⟩

/-! ## A player who stays -/

/-- From an opponent on, the opponents are the others in their order. -/
lemma opponents_from (hparts : parts.Nodup) (hlength : 2 ≤ parts.length) (hmem : player ∈ parts)
    (hid : player ≠ "") (games : List GameState) {k : Nat} (hx : g.xId = player)
    (ho : g.oId = (others parts player)[k % (others parts player).length]?)
    (h : List.IsChain (Follows parts player) (g :: games)) :
    games.map GameState.oId = cyclic (others parts player) (k + 1) games.length := by
  induction games generalizing g k with
  | nil => rfl
  | cons g' games ih =>
    obtain ⟨hfollows, hrest⟩ := List.isChain_cons_cons.mp h
    have hpos : 0 < (others parts player).length := by
      rw [length_others]
      omega
    have hopponent : opponent g player = g.oId := if_pos hx.symm
    obtain ⟨c, hc⟩ : ∃ c, g.oId = some c :=
      ⟨_, ho.trans (List.getElem?_eq_getElem (Nat.mod_lt k hpos))⟩
    have hnext := hfollows.of_other hparts hlength hmem hid (hopponent.trans hc) (ho.symm.trans hc)
    rw [Nat.mod_add_mod] at hnext
    have hx' := (hfollows.exists_other hparts hlength hmem hid).1
    rw [List.map_cons, List.length_cons, cyclic_succ, hnext, ih hx' hnext hrest]

/-- The opponents of a player who stays are the others in their order. -/
lemma opponents_of_chain (hparts : parts.Nodup) (hlength : 2 ≤ parts.length)
    (hmem : player ∈ parts) (hid : player ≠ "") (games : List GameState)
    (h : List.IsChain (Follows parts player) (g :: games)) :
    ∃ k, games.map GameState.oId = cyclic (others parts player) k games.length := by
  cases games with
  | nil => exact ⟨0, rfl⟩
  | cons g' games =>
    obtain ⟨hfollows, hrest⟩ := List.isChain_cons_cons.mp h
    obtain ⟨hx, k, ho⟩ := hfollows.exists_other hparts hlength hmem hid
    refine ⟨k, ?_⟩
    rw [List.map_cons, List.length_cons, cyclic_succ, ho,
      opponents_from hparts hlength hmem hid games hx ho hrest]

/-- As many games in a row as there are others are one against each of them. -/
lemma window_spec (hparts : parts.Nodup) (hmem : player ∈ parts) {games : List GameState} {k : Nat}
    (hgames : games.map GameState.oId = cyclic (others parts player) k games.length)
    {window : List (Option String)} (hwindow : window <:+: games.map GameState.oId)
    (hcount : window.length = parts.length - 1) :
    (∃ r, window = ((others parts player).rotate r).map some) ∧
      ∀ q ∈ parts, q ≠ player → window.count (some q) = 1 := by
  obtain ⟨before, after, heq⟩ := hwindow
  rw [hgames] at heq
  have hcyclic := eq_cyclic_of_infix heq
  rw [hcount, ← length_others parts player, cyclic_length] at hcyclic
  refine ⟨⟨_, hcyclic⟩, fun q hq hne => ?_⟩
  have hnodup := (List.nodup_cons.mp (nodup_cons_others hparts hmem)).2
  have hin : q ∈ others parts player := (mem_others_iff hparts hmem).mpr ⟨hq, hne⟩
  have hnodup' : (((others parts player).rotate (k + before.length)).map some).Nodup :=
    (List.nodup_rotate.mpr hnodup).map fun _ _ => Option.some.inj
  rw [hcyclic]
  exact List.count_eq_one_of_mem hnodup' (List.mem_map_of_mem (List.mem_rotate.mpr hin))

/-- **The seats of a new game.**  They are taken by two different participants; the player entitled
to stay keeps one; and while a player stays, its opponents are all others in the order of the ring,
each once in as many games as there are others. -/
theorem nextSeats_fair (parts : List String) (hparts : parts.Nodup) (hlength : 2 ≤ parts.length) :
    (∀ prev starterId, ∃ o, (nextSeats parts prev starterId).2 = some o ∧ o ∈ parts ∧
      (nextSeats parts prev starterId).1 ∈ parts ∧ (nextSeats parts prev starterId).1 ≠ o) ∧
    ∀ player ∈ parts, player ≠ "" →
      (∀ g starterId, entitled g = some player →
        (nextSeats parts (some g) starterId).1 = player) ∧
      ∀ g games, List.IsChain (Follows parts player) (g :: games) →
        (∃ k, games.map GameState.oId = cyclic (others parts player) k games.length) ∧
        ∀ window, window <:+: games.map GameState.oId → window.length = parts.length - 1 →
          (∃ r, window = ((others parts player).rotate r).map some) ∧
            ∀ q ∈ parts, q ≠ player → window.count (some q) = 1 := by
  refine ⟨seats_spec hparts hlength, fun player hmem hid => ⟨?_, ?_⟩⟩
  · intro g starterId hentitled
    rw [nextSeats_of_entitled hlength hentitled hmem hid]
  · intro g games hchain
    obtain ⟨k, hgames⟩ := opponents_of_chain hparts hlength hmem hid games hchain
    exact ⟨⟨k, hgames⟩, fun window hwindow hcount => window_spec hparts hmem hgames hwindow hcount⟩

/-- A game that was drawn. -/
def drawnGame (xId oId : String) : GameState where
  board := []
  turn := .x
  status := .draw
  winner := none
  winLine := none
  xId
  xName := ""
  oId := some oId
  oName := none
  seq := 0

theorem nextSeats_fair_sample :
    (nextSeats ["a", "b", "c"] (some (drawnGame "a" "b")) "b").1 = "a" ∧
      ∃ k, [some "c", some "b"] = cyclic (others ["a", "b", "c"] "a") k 2 := by
  obtain ⟨hstays, hfair⟩ :=
    (nextSeats_fair ["a", "b", "c"] (by decide) (by decide)).2 "a" (by decide) (by decide)
  refine ⟨hstays _ "b" rfl, ?_⟩
  have hchain : List.IsChain (Follows ["a", "b", "c"] "a")
      [drawnGame "a" "b", drawnGame "a" "c", drawnGame "a" "b"] := by
    refine .cons_cons ⟨rfl, "a", ?_⟩ (.cons_cons ⟨rfl, "a", ?_⟩ (.singleton _))
    · decide
    · decide
  exact (hfair _ _ hchain).1

/-- An empty id counts as no player: the seat is not kept, though the participant is there. -/
theorem empty_id_not_kept :
    ["a", "b", ""].Nodup ∧ entitled (drawnGame "" "a") = some "" ∧ "" ∈ ["a", "b", ""] ∧
      nextSeats ["a", "b", ""] (some (drawnGame "" "a")) "a" = ("a", some "b") := by
  decide

end VoxTranslate.Client
