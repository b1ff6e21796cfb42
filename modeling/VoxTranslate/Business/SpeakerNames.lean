import Mathlib.Algebra.Order.Ring.Int
import VoxTranslate.Lib.Assoc
import VoxTranslate.Lib.Greatest
import VoxTranslate.Lib.Text

/-!
# Real names for diarised speakers (`business/transcripts.rs`)

Diarisation tells the voices of a call apart, and does not know whose they are.  Each utterance
votes for the participant whose realtime utterance it most likely is, and each voice takes the name
with the most votes.  The votes stand in hash maps, which are walked through in any order.
-/

namespace VoxTranslate.Business

open Lib

/-- A diarised utterance; its times are milliseconds of the call. -/
structure Segment where
  speakerId : String
  speakerName : String
  text : List Char
  startMs : Int
  endMs : Int
  deriving DecidableEq, Repr

/-- A realtime speech event. -/
structure NamedUtterance where
  name : String
  text : List Char
  offsetMs : Int
  deriving DecidableEq, Repr

/-- What the standard library knows of letters. -/
structure Unicode where
  isAlphanumeric : Char → Bool
  toLowercase : List Char → List Char

/-- An order in which hash maps are walked through. -/
structure Walk (β : Type) where
  entries : Assoc String β → List (Sigma fun _ : String => β)
  perm : ∀ m, (entries m).Perm m.entries

/-- The orders of one call: every map has a hasher of its own. -/
structure HashOrder where
  clusters : Walk (Assoc String Int)
  names : String → Walk Int

def attributionTimeToleranceMs : Int := 8000

/-- The labels that diarisation gives. -/
def isPlaceholderName (name : String) : Bool :=
  match "Speaker ".toList.isPrefixOf? name.toList with
  | some n => !n.isEmpty && n.all fun c => '0' ≤ c && c ≤ '9'
  | none => false

section Votes

variable (unicode : Unicode)

def contentTokenSet (text : List Char) : List (List Char) :=
  (((words (fun c => !unicode.isAlphanumeric c) text).filter fun t => 2 ≤ t.length).map
    unicode.toLowercase).eraseDups

/-- The number of words that both have. -/
def sharedWords (seg : Segment) (u : NamedUtterance) : Int :=
  ((contentTokenSet unicode seg.text).filter fun t =>
    (contentTokenSet unicode u.text).contains t).length

def timeOk (seg : Segment) (u : NamedUtterance) : Bool :=
  seg.startMs - attributionTimeToleranceMs ≤ u.offsetMs &&
    u.offsetMs ≤ seg.endMs + attributionTimeToleranceMs

/-- The weight of an utterance as evidence for a segment. -/
def weightFor (seg : Segment) (u : NamedUtterance) : Option Int :=
  let shared := sharedWords unicode seg u
  if shared = 0 then none
  else if shared < 2 && !timeOk seg u then none
  else some (shared * if timeOk seg u then 2 else 1)

/-- The vote of a segment: of the utterances with the greatest weight, the first. -/
def bestMatch (realtime : List NamedUtterance) (seg : Segment) : Option (String × Int) :=
  if contentTokenSet unicode seg.text = [] then none
  else firstMaxByKey Prod.snd (realtime.filterMap fun u =>
    (weightFor unicode seg u).map (Prod.mk u.name))

def castVote (realtime : List NamedUtterance) (votes : Assoc String (Assoc String Int))
    (seg : Segment) : Assoc String (Assoc String Int) :=
  match bestMatch unicode realtime seg with
  | some (name, weight) =>
    let names := (votes.lookup seg.speakerId).getD ∅
    votes.insert seg.speakerId (names.insert name ((names.lookup name).getD 0 + weight))
  | none => votes

def votesOf (segments : List Segment) (realtime : List NamedUtterance) :
    Assoc String (Assoc String Int) :=
  segments.foldl (castVote unicode realtime) ∅

def mapClustersToNames (order : HashOrder) (segments : List Segment)
    (realtime : List NamedUtterance) : Assoc String String :=
  Assoc.insertAll ∅ ((order.clusters.entries (votesOf unicode segments realtime)).filterMap
    fun entry => ((maxByKey Sigma.snd ((order.names entry.1).entries entry.2)).map
      Sigma.fst).map (Prod.mk entry.1))

/-- `segments_with_names`, of the utterances that are looked up where a name is still missing. -/
def segmentsWithNames (order : HashOrder) (segments : List Segment)
    (realtime : List NamedUtterance) : List Segment :=
  if segments.any fun s => isPlaceholderName s.speakerName then
    let nameMap := mapClustersToNames unicode order segments realtime
    segments.map fun seg =>
      if isPlaceholderName seg.speakerName then
        match nameMap.lookup seg.speakerId with
        | some name => { seg with speakerName := name }
        | none => seg
      else seg
  else segments

/-- The evidence that a vote needs: two words, or one at about the same time. -/
def qualifies (seg : Segment) (u : NamedUtterance) : Bool :=
  2 ≤ sharedWords unicode seg u || 1 ≤ sharedWords unicode seg u && timeOk seg u

/-- What a segment adds to a name of a cluster. -/
def share (realtime : List NamedUtterance) (cluster name : String) (seg : Segment) : Int :=
  if seg.speakerId = cluster then
    match bestMatch unicode realtime seg with
    | some (n, weight) => if n = name then weight else 0
    | none => 0
  else 0

/-- The summed weight of a name. -/
def totalOf (segments : List Segment) (realtime : List NamedUtterance) (cluster name : String) :
    Int := (segments.map (share unicode realtime cluster name)).sum

/-- Some segment of the cluster votes for the name. -/
def Voted (segments : List Segment) (realtime : List NamedUtterance) (cluster name : String) :
    Prop :=
  ∃ seg ∈ segments, seg.speakerId = cluster ∧
    ∃ weight, bestMatch unicode realtime seg = some (name, weight)

/-- No name of the cluster has a greater weight. -/
def Top (segments : List Segment) (realtime : List NamedUtterance) (cluster name : String) :
    Prop :=
  Voted unicode segments realtime cluster name ∧
    ∀ other, totalOf unicode segments realtime cluster other ≤
      totalOf unicode segments realtime cluster name

end Votes

variable {unicode : Unicode} {segments : List Segment} {realtime realtime' : List NamedUtterance}
  {seg : Segment} {u : NamedUtterance} {cluster name : String} {order : HashOrder}

/-! ## One segment -/

lemma sharedWords_nonneg : 0 ≤ sharedWords unicode seg u := Int.natCast_nonneg _

lemma weightFor_pos {weight : Int} (h : weightFor unicode seg u = some weight) : 0 < weight := by
  have hnonneg : 0 ≤ sharedWords unicode seg u := sharedWords_nonneg
  rw [weightFor] at h
  split_ifs at h with hzero _ htime
  · cases h
    omega
  · cases h
    omega

lemma weightFor_isSome : (weightFor unicode seg u).isSome = qualifies unicode seg u := by
  have hnonneg : 0 ≤ sharedWords unicode seg u := sharedWords_nonneg
  rw [weightFor, qualifies]
  by_cases hzero : sharedWords unicode seg u = 0
  · simp [hzero]
  · by_cases htwo : sharedWords unicode seg u < 2
    · have hone : 1 ≤ sharedWords unicode seg u := by omega
      cases htime : timeOk seg u <;> simp [hzero, htwo, hone, not_le.mpr htwo]
    · simp [hzero, htwo, not_lt.mp htwo]

lemma bestMatch_pos {weight : Int} (h : bestMatch unicode realtime seg = some (name, weight)) :
    0 < weight := by
  rw [bestMatch] at h
  split_ifs at h
  obtain ⟨u, -, hu⟩ := List.mem_filterMap.mp (mem_of_firstMaxByKey h)
  obtain ⟨w, hw, heq⟩ := Option.map_eq_some_iff.mp hu
  cases heq
  exact weightFor_pos hw

/-- A segment votes when there is evidence. -/
lemma bestMatch_isSome_iff : (∃ vote, bestMatch unicode realtime seg = some vote) ↔
    ∃ u ∈ realtime, qualifies unicode seg u = true := by
  simp only [← weightFor_isSome]
  rw [← Option.isSome_iff_exists, bestMatch]
  by_cases hempty : contentTokenSet unicode seg.text = []
  · have hnone : ∀ u, weightFor unicode seg u = none := fun u => by
      rw [weightFor, sharedWords, hempty]
      rfl
    simp [hempty, hnone]
  · rw [if_neg hempty, ← Option.not_isNone, Bool.not_eq_true', Bool.eq_false_iff, ne_eq,
      Option.isNone_iff_eq_none, firstMaxByKey_eq_none, List.filterMap_eq_nil_iff]
    simp [Option.isSome_iff_ne_none]

/-- Utterances that are no evidence for a segment do not matter to it. -/
lemma bestMatch_congr {relevant : NamedUtterance → Bool}
    (hrelevant : ∀ u, qualifies unicode seg u = true → relevant u = true)
    (h : realtime'.filter relevant = realtime.filter relevant) :
    bestMatch unicode realtime' seg = bestMatch unicode realtime seg := by
  have hfilter : ∀ l : List NamedUtterance,
      (l.filter relevant).filterMap (fun u => (weightFor unicode seg u).map (Prod.mk u.name)) =
        l.filterMap fun u => (weightFor unicode seg u).map (Prod.mk u.name) := by
    intro l
    rw [List.filterMap_filter]
    refine List.filterMap_congr fun u _ => ?_
    split_ifs with hu
    · rfl
    · have hnone : weightFor unicode seg u = none := by
        rw [← Option.not_isSome_iff_eq_none, weightFor_isSome]
        exact fun hqualifies => hu (hrelevant u hqualifies)
      rw [hnone, Option.map_none]
  rw [bestMatch, bestMatch, ← hfilter realtime', h, hfilter]

/-! ## The votes -/

/-- The votes are those of some segments. -/
structure Tallied (unicode : Unicode) (realtime : List NamedUtterance) (segments : List Segment)
    (votes : Assoc String (Assoc String Int)) : Prop where
  voted : ∀ cluster name, ((votes.lookup cluster).bind (AList.lookup name)).isSome = true ↔
    Voted unicode segments realtime cluster name
  total : ∀ cluster name, ((votes.lookup cluster).bind (AList.lookup name)).getD 0 =
    totalOf unicode segments realtime cluster name
  nonempty : ∀ cluster names, votes.lookup cluster = some names →
    ∃ name weight, names.lookup name = some weight

lemma tallied_nil : Tallied unicode realtime [] ∅ where
  voted := by
    intro cluster name
    constructor
    · intro h
      cases h
    · rintro ⟨seg, hseg, -⟩
      cases hseg
  total := fun _ _ => rfl
  nonempty := by
    intro cluster names h
    cases h

lemma voted_concat : Voted unicode (segments ++ [seg]) realtime cluster name ↔
    Voted unicode segments realtime cluster name ∨
      seg.speakerId = cluster ∧ ∃ weight, bestMatch unicode realtime seg = some (name, weight) := by
  simp only [Voted, List.mem_append, List.mem_singleton, or_and_right, exists_or, exists_eq_left]

lemma totalOf_concat : totalOf unicode (segments ++ [seg]) realtime cluster name =
    totalOf unicode segments realtime cluster name + share unicode realtime cluster name seg := by
  simp [totalOf]

/-- A segment without a vote changes nothing. -/
lemma Tallied.skip {votes : Assoc String (Assoc String Int)}
    (h : Tallied unicode realtime segments votes) (hnone : bestMatch unicode realtime seg = none) :
    Tallied unicode realtime (segments ++ [seg]) votes where
  voted := fun cluster name => by rw [h.voted, voted_concat, hnone]; simp
  total := fun cluster name => by rw [h.total, totalOf_concat, share, hnone]; simp
  nonempty := h.nonempty

lemma Tallied.cast {votes : Assoc String (Assoc String Int)} {weight : Int}
    (h : Tallied unicode realtime segments votes)
    (hsome : bestMatch unicode realtime seg = some (name, weight)) :
    Tallied unicode realtime (segments ++ [seg])
      (votes.insert seg.speakerId (((votes.lookup seg.speakerId).getD ∅).insert name
        (((votes.lookup seg.speakerId).bind (AList.lookup name)).getD 0 + weight))) := by
  have hother : ∀ other, ((votes.lookup seg.speakerId).getD ∅).lookup other =
      (votes.lookup seg.speakerId).bind (AList.lookup other) := by
    intro other
    cases votes.lookup seg.speakerId with
    | none => rfl
    | some names => rfl
  refine ⟨fun c n => ?_, fun c n => ?_, fun c names hc => ?_⟩
  · rw [voted_concat, hsome]
    by_cases hc : c = seg.speakerId
    · subst hc
      rw [AList.lookup_insert, Option.bind_some]
      by_cases hn : n = name
      · subst hn
        simp
      · rw [AList.lookup_insert_ne hn, hother, h.voted]
        simp [Ne.symm hn]
    · rw [AList.lookup_insert_ne hc, h.voted]
      simp [Ne.symm hc]
  · rw [totalOf_concat, share, hsome, ← h.total]
    by_cases hc : c = seg.speakerId
    · subst hc
      rw [AList.lookup_insert, Option.bind_some, if_pos rfl]
      by_cases hn : n = name
      · subst hn
        simp
      · rw [AList.lookup_insert_ne hn, hother]
        simp [Ne.symm hn]
    · rw [AList.lookup_insert_ne hc, if_neg (Ne.symm hc), add_zero]
  · by_cases hcs : c = seg.speakerId
    · subst hcs
      rw [AList.lookup_insert] at hc
      cases hc
      exact ⟨name, _, AList.lookup_insert _⟩
    · rw [AList.lookup_insert_ne hcs] at hc
      exact h.nonempty c names hc

lemma Tallied.step {votes : Assoc String (Assoc String Int)}
    (h : Tallied unicode realtime segments votes) (seg : Segment) :
    Tallied unicode realtime (segments ++ [seg]) (castVote unicode realtime votes seg) := by
  rw [castVote]
  cases hbest : bestMatch unicode realtime seg with
  | none => exact h.skip hbest
  | some vote =>
    have hcast := h.cast hbest
    have hprev : ((votes.lookup seg.speakerId).getD ∅).lookup vote.1 =
        (votes.lookup seg.speakerId).bind (AList.lookup vote.1) := by
      cases votes.lookup seg.speakerId with
      | none => rfl
      | some names => rfl
    rw [← hprev] at hcast
    exact hcast

lemma tallied_votesOf (unicode : Unicode) (segments : List Segment)
    (realtime : List NamedUtterance) :
    Tallied unicode realtime segments (votesOf unicode segments realtime) := by
  induction segments using List.reverseRecOn with
  | nil => exact tallied_nil
  | append_singleton segments seg ih =>
    rw [votesOf, List.foldl_concat]
    exact ih.step seg

lemma totalOf_nonneg : 0 ≤ totalOf unicode segments realtime cluster name := by
  refine List.sum_nonneg fun x hx => ?_
  obtain ⟨seg, -, rfl⟩ := List.mem_map.mp hx
  rw [share]
  split_ifs
  · cases hbest : bestMatch unicode realtime seg with
    | none => exact le_rfl
    | some vote =>
      have hpos : 0 < vote.2 := bestMatch_pos hbest
      dsimp only
      split_ifs
      · exact hpos.le
      · exact le_rfl
  · exact le_rfl

/-- The greatest entry of a cluster is a name that no other exceeds. -/
lemma Tallied.hasMaxKey_iff {votes : Assoc String (Assoc String Int)} {names : Assoc String Int}
    {weight : Int} (h : Tallied unicode realtime segments votes)
    (hcluster : votes.lookup cluster = some names) :
    HasMaxKey Sigma.snd names.entries ⟨name, weight⟩ ↔
      Top unicode segments realtime cluster name ∧
        weight = totalOf unicode segments realtime cluster name := by
  have hentry : ∀ n w, (⟨n, w⟩ : Sigma fun _ : String => Int) ∈ names.entries ↔
      Voted unicode segments realtime cluster n ∧
        w = totalOf unicode segments realtime cluster n := by
    intro n w
    rw [← AList.mem_lookup_iff, Option.mem_def, ← h.voted, ← h.total, hcluster, Option.bind_some]
    cases names.lookup n with
    | none => simp
    | some w' => simp [eq_comm]
  have hzero : ∀ n, ¬ Voted unicode segments realtime cluster n →
      totalOf unicode segments realtime cluster n = 0 := by
    intro n hn
    rw [← h.voted, Option.not_isSome_iff_eq_none] at hn
    rw [← h.total, hn]
    rfl
  rw [HasMaxKey, hentry]
  constructor
  · rintro ⟨⟨hvoted, rfl⟩, hle⟩
    refine ⟨⟨hvoted, fun other => ?_⟩, rfl⟩
    by_cases hother : Voted unicode segments realtime cluster other
    · exact hle ⟨other, _⟩ ((hentry _ _).mpr ⟨hother, rfl⟩)
    · rw [hzero other hother]
      exact totalOf_nonneg
  · rintro ⟨⟨hvoted, hle⟩, rfl⟩
    refine ⟨⟨hvoted, rfl⟩, ?_⟩
    rintro ⟨other, w⟩ hmem
    obtain ⟨-, rfl⟩ := (hentry other w).mp hmem
    exact hle other

/-! ## The names -/

lemma lookup_mapClustersToNames (order : HashOrder) (cluster : String) :
    (mapClustersToNames unicode order segments realtime).lookup cluster =
      ((votesOf unicode segments realtime).lookup cluster).bind fun names =>
        (maxByKey Sigma.snd ((order.names cluster).entries names)).map Sigma.fst := by
  have hperm := order.clusters.perm (votesOf unicode segments realtime)
  have hnodup : (order.clusters.entries (votesOf unicode segments realtime)).NodupKeys :=
    (List.perm_nodupKeys hperm).mpr (votesOf unicode segments realtime).nodupKeys
  rw [mapClustersToNames, Assoc.lookup_insertAll_filterMap (fun cluster names =>
    (maxByKey Sigma.snd ((order.names cluster).entries names)).map Sigma.fst) hnodup,
    List.perm_dlookup cluster hnodup hperm]
  exact Option.or_none

/-- The name of a cluster is one that no other exceeds. -/
lemma top_of_lookup
    (h : (mapClustersToNames unicode order segments realtime).lookup cluster = some name) :
    Top unicode segments realtime cluster name := by
  rw [lookup_mapClustersToNames] at h
  obtain ⟨names, hcluster, hname⟩ := Option.bind_eq_some_iff.mp h
  obtain ⟨⟨n, w⟩, hmax, rfl⟩ := Option.map_eq_some_iff.mp hname
  obtain ⟨hmem, hle⟩ := hasMaxKey_of_maxByKey hmax
  have hperm := (order.names cluster).perm names
  exact (((tallied_votesOf unicode segments realtime).hasMaxKey_iff hcluster).mp
    ⟨hperm.subset hmem, fun b hb => hle b (hperm.symm.subset hb)⟩).1

/-- A cluster is named when one of its segments votes. -/
lemma lookup_isSome_iff :
    ((mapClustersToNames unicode order segments realtime).lookup cluster).isSome = true ↔
      ∃ seg ∈ segments, seg.speakerId = cluster ∧
        ∃ u ∈ realtime, qualifies unicode seg u = true := by
  simp only [← bestMatch_isSome_iff]
  constructor
  · intro h
    obtain ⟨name, hname⟩ := Option.isSome_iff_exists.mp h
    obtain ⟨seg, hseg, hcluster, weight, hbest⟩ := (top_of_lookup hname).1
    exact ⟨seg, hseg, hcluster, _, hbest⟩
  · rintro ⟨seg, hseg, hcluster, ⟨name, weight⟩, hbest⟩
    have htallied := tallied_votesOf unicode segments realtime
    have hvoted := (htallied.voted cluster name).mpr ⟨seg, hseg, hcluster, weight, hbest⟩
    obtain ⟨w, hw⟩ := Option.isSome_iff_exists.mp hvoted
    obtain ⟨names, hnames, hlookup⟩ := Option.bind_eq_some_iff.mp hw
    rw [lookup_mapClustersToNames, hnames, Option.bind_some, Option.isSome_map]
    rw [← Option.ne_none_iff_isSome, ne_eq, maxByKey_eq_none]
    intro hnil
    have hmem := ((order.names cluster).perm names).symm.subset (AList.mem_lookup_iff.mp hlookup)
    rw [hnil] at hmem
    cases hmem

/-- A walk that goes through the entries of one map in a given order. -/
def Walk.through {β : Type} [DecidableEq β] (m : Assoc String β)
    (l : List (Sigma fun _ : String => β)) (h : l.Perm m.entries) : Walk β where
  entries m' := if m'.entries = m.entries then l else m'.entries
  perm m' := by
    split_ifs with heq
    · rw [heq]
      exact h
    · exact List.Perm.refl _

/-- The maps as they were built. -/
def Walk.asBuilt (β : Type) : Walk β := ⟨AList.entries, fun _ => List.Perm.refl _⟩

/-- Each name that no other exceeds is given in some order. -/
lemma Top.exists_order (h : Top unicode segments realtime cluster name) : ∃ order,
    (mapClustersToNames unicode order segments realtime).lookup cluster = some name := by
  have htallied := tallied_votesOf unicode segments realtime
  obtain ⟨w, hw⟩ := Option.isSome_iff_exists.mp ((htallied.voted cluster name).mpr h.1)
  obtain ⟨names, hnames, -⟩ := Option.bind_eq_some_iff.mp hw
  obtain ⟨l, hperm, hmax⟩ := ((htallied.hasMaxKey_iff hnames).mpr ⟨h, rfl⟩).exists_perm
  refine ⟨⟨.asBuilt _, fun _ => .through names l hperm⟩, ?_⟩
  rw [lookup_mapClustersToNames, hnames, Option.bind_some]
  simp only [Walk.through, if_true, hmax, Option.map_some]

/-- Where no two names are greatest, the orders do not matter. -/
lemma lookup_eq_of_once (honce : ∀ a b, Top unicode segments realtime cluster a →
      Top unicode segments realtime cluster b → a = b) (order order' : HashOrder) :
    (mapClustersToNames unicode order segments realtime).lookup cluster =
      (mapClustersToNames unicode order' segments realtime).lookup cluster := by
  rw [lookup_mapClustersToNames, lookup_mapClustersToNames]
  cases hcluster : (votesOf unicode segments realtime).lookup cluster with
  | none => rfl
  | some names =>
    have htallied := tallied_votesOf unicode segments realtime
    have hunique : ∀ a b, HasMaxKey Sigma.snd names.entries a →
        HasMaxKey Sigma.snd names.entries b → a = b := by
      rintro ⟨a, w⟩ ⟨b, w'⟩ ha hb
      obtain ⟨htop, rfl⟩ := (htallied.hasMaxKey_iff hcluster).mp ha
      obtain ⟨htop', rfl⟩ := (htallied.hasMaxKey_iff hcluster).mp hb
      rw [honce a b htop htop']
    rw [Option.bind_some, Option.bind_some, maxByKey_perm hunique
      ((order.names cluster).perm names) ((order'.names cluster).perm names)]

/-- Utterances that are no evidence for any segment change nothing. -/
lemma mapClustersToNames_congr (order : HashOrder)
    (h : realtime'.filter (fun u => segments.any fun seg => qualifies unicode seg u) =
      realtime.filter fun u => segments.any fun seg => qualifies unicode seg u) :
    mapClustersToNames unicode order segments realtime' =
      mapClustersToNames unicode order segments realtime := by
  have hvotes : votesOf unicode segments realtime' = votesOf unicode segments realtime := by
    refine List.foldl_ext _ _ _ fun votes seg hseg => ?_
    rw [castVote, castVote, bestMatch_congr (fun u hu => ?_) h]
    exact List.any_eq_true.mpr ⟨seg, hseg, hu⟩
  rw [mapClustersToNames, mapClustersToNames, hvotes]

/-- **Real names are stable** exactly when no cluster has two names of the same greatest weight; two
exports then name the same people.  In any order, a cluster is named when one of its segments has
evidence, the name is one that no other exceeds, and utterances that are no evidence for any
segment change nothing. -/
theorem names_stable_iff (unicode : Unicode) (segments : List Segment)
    (realtime : List NamedUtterance) :
    ((∀ order order' cluster,
      (mapClustersToNames unicode order segments realtime).lookup cluster =
        (mapClustersToNames unicode order' segments realtime).lookup cluster) ↔
      ∀ cluster a b, Top unicode segments realtime cluster a →
        Top unicode segments realtime cluster b → a = b) ∧
    ((∀ cluster a b, Top unicode segments realtime cluster a →
        Top unicode segments realtime cluster b → a = b) →
      ∀ order order', segmentsWithNames unicode order segments realtime =
        segmentsWithNames unicode order' segments realtime) ∧
    ∀ order,
      (∀ cluster, ((mapClustersToNames unicode order segments realtime).lookup cluster).isSome ↔
        ∃ seg ∈ segments, seg.speakerId = cluster ∧
          ∃ u ∈ realtime, qualifies unicode seg u = true) ∧
      (∀ cluster name,
        (mapClustersToNames unicode order segments realtime).lookup cluster = some name →
        ∀ other, totalOf unicode segments realtime cluster other ≤
          totalOf unicode segments realtime cluster name) ∧
      ∀ realtime', (realtime'.filter fun u => segments.any fun seg => qualifies unicode seg u) =
          (realtime.filter fun u => segments.any fun seg => qualifies unicode seg u) →
        mapClustersToNames unicode order segments realtime' =
          mapClustersToNames unicode order segments realtime := by
  refine ⟨⟨fun h cluster a b ha hb => ?_, fun honce order order' cluster => ?_⟩,
    fun honce order order' => ?_, fun order => ⟨fun cluster => lookup_isSome_iff, ?_, ?_⟩⟩
  · obtain ⟨order, horder⟩ := ha.exists_order
    obtain ⟨order', horder'⟩ := hb.exists_order
    have heq := h order order' cluster
    rw [horder, horder'] at heq
    exact Option.some.inj heq
  · exact lookup_eq_of_once (honce cluster) order order'
  · have hlookup : ∀ cluster,
        (mapClustersToNames unicode order segments realtime).lookup cluster =
          (mapClustersToNames unicode order' segments realtime).lookup cluster :=
      fun cluster => lookup_eq_of_once (honce cluster) order order'
    simp only [segmentsWithNames, hlookup]
  · intro cluster name hname
    exact (top_of_lookup hname).2
  · intro realtime' h
    exact mapClustersToNames_congr order h

/-- Letters and digits as ASCII has them. -/
def ascii : Unicode := ⟨Char.isAlphanum, List.map Char.toLower⟩

/-- Two people say the same words as one voice, one utterance each. -/
theorem tie_depends_on_order : ∃ order order',
    (mapClustersToNames ascii order
        [⟨"0", "Speaker 1", ['g', 'o'], 0, 1⟩, ⟨"0", "Speaker 1", ['u', 'p'], 2, 3⟩]
        [⟨"Ada", ['g', 'o'], 0⟩, ⟨"Bea", ['u', 'p'], 2⟩]).lookup "0" = some "Ada" ∧
      (mapClustersToNames ascii order'
        [⟨"0", "Speaker 1", ['g', 'o'], 0, 1⟩, ⟨"0", "Speaker 1", ['u', 'p'], 2, 3⟩]
        [⟨"Ada", ['g', 'o'], 0⟩, ⟨"Bea", ['u', 'p'], 2⟩]).lookup "0" = some "Bea" := by
  refine ⟨⟨.asBuilt _, fun _ => .asBuilt _⟩,
    ⟨.asBuilt _, fun _ => ⟨fun m => m.entries.reverse, fun _ => List.reverse_perm _⟩⟩, ?_, ?_⟩
  · decide
  · decide

end VoxTranslate.Business
