import VoxTranslate.Voip.Requirements

/-!
# The books of the requirement groups

Each row of `voip_requirement_groups` is a claim or holds what the provider answered when it made
the group, and each combination is claimed by one row.  So a combination has one live group, as
long as no claim is deleted for which the provider makes one.
-/

namespace VoxTranslate.Voip.Paperwork

open Lib

/-- The call made a group that is not over. -/
def isLive (c : Creation) : Bool := c.group.any fun g => !g.reported.isOver

/-- One live group for a combination at most. -/
def OneLive (s : Paperwork) : Prop :=
  ∀ c ∈ s.creations, ∀ c' ∈ s.creations, isLive c = true → isLive c' = true →
    c.combination = c'.combination → c = c'

instance (s : Paperwork) : Decidable s.OneLive :=
  inferInstanceAs (Decidable (∀ c ∈ s.creations, ∀ c' ∈ s.creations, isLive c = true →
    isLive c' = true → c.combination = c'.combination → c = c'))

/-- A group is made for a claim that stands, no claim goes whose group was made, and a group that
was expired from the start is not revived. -/
def keepsClaims (s : Paperwork) : Action → Bool
  | .opened claim _ _ => s.groups.any fun row => row.id = claim
  | .releaseClaim claim => (s.creation claim).all fun c => c.group.isNone
  | .reclaimStaleGroups =>
    s.groups.all fun row =>
      !isStale s.now row || (s.creation row.id).all fun c => c.group.isNone
  | .report id status =>
    s.providerGroups.all fun g =>
      g.id ≠ id || status.isOver || (StoredStatus.said g.created).holdsSlot
  | _ => true

/-! ## The books -/

/-- The rows against the calls: a row is a claim, or holds what its call's answer said; the
combination is claimed by one row. -/
structure Books (groups : List GroupRow) (creations : List Creation) : Prop where
  claims : Table.Unique Creation.key creations
  ids : ∀ c ∈ creations, ∀ c' ∈ creations, ∀ g g', c.group = some g → c'.group = some g' →
    g.id = g'.id → c = c'
  recorded : ∀ row ∈ groups, ∃ c ∈ creations, c.claim = row.id ∧
    c.combination = row.combination ∧
    (row.providerGroupId = none ∧ row.status = .creating ∨
      ∃ g, c.group = some g ∧ row.providerGroupId = some g.id ∧ row.status = .said g.created)
  slots : ∀ row ∈ groups, ∀ row' ∈ groups, row.combination = row'.combination →
    row.status.holdsSlot = true → row'.status.holdsSlot = true → row = row'

/-- The calls keep what the books read of them. -/
structure KeepsCall (f : Creation → Creation) : Prop where
  claim : ∀ c, (f c).claim = c.claim
  combination : ∀ c, (f c).combination = c.combination
  group : ∀ c, (f c).group.map (fun g => (g.id, g.created)) =
    c.group.map fun g => (g.id, g.created)

namespace KeepsCall

variable {f : Creation → Creation} {c : Creation} {g : ProviderGroup}

lemma of_group (hf : KeepsCall f) (h : (f c).group = some g) :
    ∃ g₀, c.group = some g₀ ∧ g₀.id = g.id ∧ g₀.created = g.created := by
  have hgroup := hf.group c
  rw [h, Option.map_some] at hgroup
  obtain ⟨g₀, hg₀, heq⟩ := Option.map_eq_some_iff.mp hgroup.symm
  exact ⟨g₀, hg₀, (Prod.mk.inj heq).1, (Prod.mk.inj heq).2⟩

lemma to_group (hf : KeepsCall f) (h : c.group = some g) :
    ∃ g₁, (f c).group = some g₁ ∧ g₁.id = g.id ∧ g₁.created = g.created := by
  have hgroup := hf.group c
  rw [h, Option.map_some] at hgroup
  obtain ⟨g₁, hg₁, heq⟩ := Option.map_eq_some_iff.mp hgroup
  exact ⟨g₁, hg₁, (Prod.mk.inj heq).1, (Prod.mk.inj heq).2⟩

/-- A change to the call of one claim. -/
lemma update (hf : KeepsCall f) (claim : Uuid) :
    KeepsCall fun c => if c.key = claim then f c else c where
  claim := fun c => by
    split_ifs
    · exact hf.claim c
    · rfl
  combination := fun c => by
    split_ifs
    · exact hf.combination c
    · rfl
  group := fun c => by
    split_ifs
    · exact hf.group c
    · rfl

lemma answered : KeepsCall fun c => { c with waiting := false } :=
  ⟨fun _ => rfl, fun _ => rfl, fun _ => rfl⟩

lemma reported (id : RequirementGroupId) (status : GroupStatus) :
    KeepsCall fun c =>
      { c with group := c.group.map fun g =>
          if g.id = id then { g with reported := status } else g } where
  claim := fun _ => rfl
  combination := fun _ => rfl
  group := fun c => by
    rw [Option.map_map]
    refine congrFun (congrArg Option.map (funext fun g => ?_)) c.group
    rw [Function.comp_apply]
    split_ifs <;> rfl

end KeepsCall

namespace Books

variable {groups groups' : List GroupRow} {creations : List Creation} {row row' : GroupRow}
  {c c' : Creation} {g g' : ProviderGroup}

lemma nil : Books [] [] where
  claims := fun _ h => by cases h
  ids := fun _ h => by cases h
  recorded := fun _ h => by cases h
  slots := fun _ h => by cases h

/-- Rows are deleted. -/
lemma subset (h : Books groups creations) (hsub : ∀ row ∈ groups', row ∈ groups) :
    Books groups' creations where
  claims := h.claims
  ids := h.ids
  recorded := fun row hrow => h.recorded row (hsub row hrow)
  slots := fun row hrow row' hrow' => h.slots row (hsub row hrow) row' (hsub row' hrow')

/-- The calls change in what the books do not read. -/
lemma mapCalls (h : Books groups creations) {f : Creation → Creation} (hf : KeepsCall f) :
    Books groups (creations.map f) where
  claims := by
    intro a ha b hb heq
    obtain ⟨c, hc, rfl⟩ := List.mem_map.mp ha
    obtain ⟨c', hc', rfl⟩ := List.mem_map.mp hb
    rw [h.claims c hc c' hc' ((hf.claim c).symm.trans (heq.trans (hf.claim c')))]
  ids := by
    intro a ha b hb g g' hg hg' hid
    obtain ⟨c, hc, rfl⟩ := List.mem_map.mp ha
    obtain ⟨c', hc', rfl⟩ := List.mem_map.mp hb
    obtain ⟨g₀, hg₀, hid₀, -⟩ := hf.of_group hg
    obtain ⟨g₀', hg₀', hid₀', -⟩ := hf.of_group hg'
    rw [h.ids c hc c' hc' g₀ g₀' hg₀ hg₀' (hid₀.trans (hid.trans hid₀'.symm))]
  recorded := by
    intro row hrow
    obtain ⟨c, hc, hclaim, hcomb, hstored⟩ := h.recorded row hrow
    refine ⟨f c, List.mem_map_of_mem hc, (hf.claim c).trans hclaim,
      (hf.combination c).trans hcomb, ?_⟩
    rcases hstored with hnone | ⟨g, hg, hid, hstatus⟩
    · exact .inl hnone
    · obtain ⟨g₁, hg₁, hid₁, hcreated⟩ := hf.to_group hg
      exact .inr ⟨g₁, hg₁, by rw [hid, hid₁], by rw [hstatus, hcreated]⟩
  slots := h.slots

/-- A claim that was won. -/
lemma claim (h : Books groups creations) {combination : Combination} {id : Uuid} {now : Timestamp}
    (hslot : ∀ row ∈ groups, row.combination = combination → row.status.holdsSlot = false)
    (hfresh : ∀ c ∈ creations, c.claim ≠ id) :
    Books (⟨id, combination, none, .creating, now⟩ :: groups)
      (⟨id, combination, none, true⟩ :: creations) where
  claims := h.claims.cons hfresh
  ids := by
    intro c hc c' hc' g g' hg hg'
    rcases List.mem_cons.mp hc with rfl | hc
    · cases hg
    rcases List.mem_cons.mp hc' with rfl | hc'
    · cases hg'
    exact h.ids c hc c' hc' g g' hg hg'
  recorded := by
    intro row hrow
    rcases List.mem_cons.mp hrow with rfl | hrow
    · exact ⟨_, List.mem_cons_self, rfl, rfl, .inl ⟨rfl, rfl⟩⟩
    · obtain ⟨c, hc, hrest⟩ := h.recorded row hrow
      exact ⟨c, List.mem_cons_of_mem _ hc, hrest⟩
  slots := by
    intro row hrow row' hrow' hcomb hheld hheld'
    rcases List.mem_cons.mp hrow with rfl | hrow <;>
      rcases List.mem_cons.mp hrow' with rfl | hrow'
    · rfl
    · rw [hslot row' hrow' hcomb.symm] at hheld'
      cases hheld'
    · rw [hslot row hrow hcomb] at hheld
      cases hheld
    · exact h.slots row hrow row' hrow' hcomb hheld hheld'

/-- The provider makes a group. -/
lemma opened (h : Books groups creations) {claim : Uuid} {g₁ : ProviderGroup}
    (hnone : ∀ c ∈ creations, c.claim = claim → c.group = none)
    (hfresh : ∀ c ∈ creations, ∀ g, c.group = some g → g.id ≠ g₁.id) :
    Books groups (Table.update Creation.key creations claim
      fun c => { c with group := some g₁ }) where
  claims := h.claims.update fun _ => rfl
  ids := by
    intro a ha b hb g g' hg hg' hid
    rcases Table.mem_update.mp ha with ⟨c, hc, hkey, rfl⟩ | ⟨ha, -⟩ <;>
      rcases Table.mem_update.mp hb with ⟨c', hc', hkey', rfl⟩ | ⟨hb, -⟩
    · rw [h.claims c hc c' hc' (hkey.trans hkey'.symm)]
    · cases hg
      exact absurd hid.symm (hfresh b hb g' hg')
    · cases hg'
      exact absurd hid (hfresh a ha g hg)
    · exact h.ids a ha b hb g g' hg hg' hid
  recorded := by
    intro row hrow
    obtain ⟨c, hc, hclaim, hcomb, hstored⟩ := h.recorded row hrow
    by_cases hkey : c.key = claim
    · refine ⟨_, Table.mem_update.mpr (.inl ⟨c, hc, hkey, rfl⟩), hclaim, hcomb, ?_⟩
      rcases hstored with hstored | ⟨g, hg, -⟩
      · exact .inl hstored
      · rw [hnone c hc hkey] at hg
        cases hg
    · exact ⟨c, Table.mem_update.mpr (.inr ⟨hc, hkey⟩), hclaim, hcomb, hstored⟩
  slots := h.slots

/-- An answer is written down. -/
lemma record (h : Books groups creations) (hc : c ∈ creations) (hg : c.group = some g) :
    Books (Table.update GroupRow.key groups c.claim fun row =>
      { row with providerGroupId := some g.id, status := .said g.created }) creations where
  claims := h.claims
  ids := h.ids
  recorded := by
    intro a ha
    rcases Table.mem_update.mp ha with ⟨row, hrow, hkey, rfl⟩ | ⟨hrow, -⟩
    · obtain ⟨c', hc', hclaim, hcomb, -⟩ := h.recorded row hrow
      obtain rfl := h.claims c' hc' c hc (hclaim.trans hkey)
      exact ⟨c', hc, hclaim, hcomb, .inr ⟨g, hg, rfl, rfl⟩⟩
    · exact h.recorded a hrow
  slots := by
    -- a row that holds its slot now held it as a claim
    have hheld : ∀ row ∈ groups, row.key = c.claim →
        (StoredStatus.said g.created).holdsSlot = true → row.status.holdsSlot = true := by
      intro row hrow hkey hholds
      obtain ⟨c', hc', hclaim, -, ⟨-, hcreating⟩ | ⟨g', hg', -, hstatus⟩⟩ := h.recorded row hrow
      · rw [hcreating]
        rfl
      · obtain rfl := h.claims c' hc' c hc (hclaim.trans hkey)
        rw [hg] at hg'
        cases hg'
        rwa [hstatus]
    intro a ha b hb hcomb hholds hholds'
    rcases Table.mem_update.mp ha with ⟨row, hrow, hkey, rfl⟩ | ⟨hrow, hne⟩ <;>
      rcases Table.mem_update.mp hb with ⟨row', hrow', hkey', rfl⟩ | ⟨hrow', hne'⟩
    · rw [h.slots row hrow row' hrow' hcomb (hheld row hrow hkey hholds)
        (hheld row' hrow' hkey' hholds')]
    · obtain rfl := h.slots row hrow b hrow' hcomb (hheld row hrow hkey hholds) hholds'
      exact absurd hkey hne'
    · obtain rfl := h.slots a hrow row' hrow' hcomb hholds (hheld row' hrow' hkey' hholds')
      exact absurd hkey' hne
    · exact h.slots a hrow b hrow' hcomb hholds hholds'

/-- What is stored of a group is what its creation answered. -/
lemma status_eq (h : Books groups creations) (hrow : row ∈ groups) (hc : c ∈ creations)
    (hg : c.group = some g) (hid : row.providerGroupId = some g.id) :
    row.status = .said g.created ∧ c.claim = row.id ∧ c.combination = row.combination := by
  obtain ⟨c', hc', hclaim, hcomb, ⟨hnone, -⟩ | ⟨g', hg', hid', hstatus⟩⟩ := h.recorded row hrow
  · rw [hnone] at hid
    cases hid
  · rw [hid] at hid'
    obtain rfl := h.ids c' hc' c hc g' g hg' hg (Option.some.inj hid').symm
    rw [hg] at hg'
    cases hg'
    exact ⟨hstatus, hclaim, hcomb⟩

end Books

/-! ## The operations -/

section Operations

variable {s t : Paperwork} {id claimId : Uuid} {gid : RequirementGroupId} {status : GroupStatus}
  {combination : Combination} {a : Action}

lemma mem_providerGroups {g : ProviderGroup} :
    g ∈ s.providerGroups ↔ ∃ c ∈ s.creations, c.group = some g := List.mem_filterMap

lemma claim_spec (h : s.claim combination id = some t) :
    (∀ row ∈ s.groups, row.combination = combination → row.status.holdsSlot = false) ∧
      (∀ c ∈ s.creations, c.claim ≠ id) ∧
      t.groups = ⟨id, combination, none, .creating, s.now⟩ :: s.groups ∧
      t.creations = ⟨id, combination, none, true⟩ :: s.creations := by
  unfold claim at h
  split_ifs at h with hfree
  cases h
  simp only [Bool.or_eq_true, not_or, Option.not_isSome_iff_eq_none] at hfree
  refine ⟨fun row hrow hcomb => ?_, fun c hc => Table.get_eq_none.mp hfree.2 c hc, rfl, rfl⟩
  have hrow_free := List.find?_eq_none.mp hfree.1 row hrow
  simpa [hcomb] using hrow_free

lemma opened_spec (h : s.opened claimId gid status = some t)
    (hids : Table.Unique Creation.key s.creations) :
    (∀ c ∈ s.creations, c.claim = claimId → c.group = none) ∧
      (∀ c ∈ s.creations, ∀ g, c.group = some g → g.id ≠ gid) ∧
      t.groups = s.groups ∧
      t.creations = Table.update Creation.key s.creations claimId
        fun c => { c with group := some ⟨gid, status, status⟩ } := by
  unfold opened at h
  obtain ⟨c, hc, h⟩ := Option.bind_eq_some_iff.mp h
  split_ifs at h with hfree
  cases h
  rw [Bool.or_eq_true, not_or, Option.not_isSome_iff_eq_none] at hfree
  refine ⟨fun c' hc' hclaim => ?_, fun c' hc' g hg hid => hfree.2 ?_, rfl, rfl⟩
  · rw [hids c' hc' c (Table.mem_of_get hc) (hclaim.trans (Table.key_of_get hc).symm)]
    exact hfree.1
  · exact List.any_eq_true.mpr ⟨g, mem_providerGroups.mpr ⟨c', hc', hg⟩, by simpa using hid⟩

lemma recordGroup_spec (h : s.recordGroup claimId = some t) :
    ∃ c ∈ s.creations, c.claim = claimId ∧ ∃ g, c.group = some g ∧
      t.groups = Table.update GroupRow.key s.groups claimId (fun row =>
        { row with providerGroupId := some g.id, status := .said g.created }) ∧
      t.creations = (s.answered claimId).creations := by
  unfold recordGroup at h
  obtain ⟨c, hc, h⟩ := Option.bind_eq_some_iff.mp h
  obtain ⟨g, hg, h⟩ := Option.bind_eq_some_iff.mp h
  split_ifs at h
  cases h
  exact ⟨c, Table.mem_of_get hc, Table.key_of_get hc, g, hg, rfl, rfl⟩

lemma releaseClaim_spec (h : s.releaseClaim claimId = some t) :
    t.groups = s.groups.filter (fun row => !(row.id = claimId && row.providerGroupId.isNone)) ∧
      t.creations = (s.answered claimId).creations := by
  unfold releaseClaim at h
  obtain ⟨c, hc, h⟩ := Option.bind_eq_some_iff.mp h
  split_ifs at h
  cases h
  exact ⟨rfl, rfl⟩

lemma abandon_spec (h : s.abandon claimId = some t) :
    t.groups = s.groups ∧ t.creations = (s.answered claimId).creations := by
  unfold abandon at h
  obtain ⟨c, hc, h⟩ := Option.bind_eq_some_iff.mp h
  split_ifs at h
  cases h
  exact ⟨rfl, rfl⟩

lemma attachUnlinked_books (row : RegulatedNumber) :
    (s.attachUnlinked row).groups = s.groups ∧ (s.attachUnlinked row).creations = s.creations := by
  rw [attachUnlinked, attachReusableGroupIfAny]
  split_ifs
  · split <;> exact ⟨rfl, rfl⟩
  · exact ⟨rfl, rfl⟩

/-- A reconcile pass writes numbers, and calls the provider. -/
lemma reconcileRows_books (reply : Uuid → SubOrderReply) (rows : List RegulatedNumber) :
    (s.reconcileRows reply rows).groups = s.groups ∧
      (s.reconcileRows reply rows).creations = s.creations := by
  induction rows generalizing s with
  | nil => exact ⟨rfl, rfl⟩
  | cons row rows ih =>
    obtain ⟨hgroups, hcreations⟩ := s.attachUnlinked_books row
    rw [reconcileRows]
    split
    · exact ⟨hgroups, hcreations⟩
    next w _ =>
      obtain ⟨ih_groups, ih_creations⟩ :=
        ih (s := (s.attachUnlinked row).updateNumber row.id (.write s.now w))
      exact ⟨ih_groups.trans hgroups, ih_creations.trans hcreations⟩

lemma reconcileDue_spec {pass : ReconcilePass} (h : s.reconcileDue pass = some t) :
    pass.claimed.Nodup ∧
      (∀ id ∈ pass.claimed, (s.number id).any (fun n => n.isCheckDue s.now) = true) ∧
      t = (s.holdRows pass.claimed).reconcileRows pass.reply
        (pass.claimed.filterMap (s.holdRows pass.claimed).number) := by
  unfold reconcileDue at h
  split_ifs at h with hclaim
  cases h
  exact ⟨hclaim.1, hclaim.2.2, rfl⟩

/-- The actions that write the groups or call for one. -/
def Action.writesBooks : Action → Bool
  | .claim .. | .opened .. | .recordGroup _ | .releaseClaim _ | .abandon _ | .report ..
  | .reclaimStaleGroups => true
  | _ => false

lemma step_quiet (h : s.step a = some t) (hquiet : a.writesBooks = false) :
    t.groups = s.groups ∧ t.creations = s.creations := by
  cases a with
  | elapse | attach | write =>
    cases h
    exact ⟨rfl, rfl⟩
  | linkGroup number group =>
    rw [step, linkGroup] at h
    obtain ⟨n, -, h⟩ := Option.bind_eq_some_iff.mp h
    split_ifs at h
    cases h
    exact ⟨rfl, rfl⟩
  | buy n =>
    rw [step] at h
    split_ifs at h
    cases h
    exact ⟨rfl, rfl⟩
  | reconcileDue pass =>
    obtain ⟨-, -, rfl⟩ := reconcileDue_spec h
    exact reconcileRows_books ..
  | _ => cases hquiet

/-- **A step keeps the books.** -/
lemma books_step (hI : Books s.groups s.creations) (h : s.step a = some t) :
    Books t.groups t.creations := by
  have hanswered : ∀ claimId, Books s.groups (s.answered claimId).creations := fun claimId =>
    hI.mapCalls (KeepsCall.answered.update claimId)
  cases a with
  | claim combination id =>
    obtain ⟨hslot, hfresh, hgroups, hcreations⟩ := claim_spec h
    rw [hgroups, hcreations]
    exact hI.claim hslot hfresh
  | opened claimId gid status =>
    obtain ⟨hnone, hfresh, hgroups, hcreations⟩ := opened_spec h hI.claims
    rw [hgroups, hcreations]
    exact hI.opened hnone hfresh
  | recordGroup claimId =>
    obtain ⟨c, hc, rfl, g, hg, hgroups, hcreations⟩ := recordGroup_spec h
    rw [hgroups, hcreations]
    exact (hI.record hc hg).mapCalls (KeepsCall.answered.update c.claim)
  | releaseClaim claimId =>
    obtain ⟨hgroups, hcreations⟩ := releaseClaim_spec h
    rw [hgroups, hcreations]
    exact (hanswered claimId).subset fun row hrow => (List.mem_filter.mp hrow).1
  | abandon claimId =>
    obtain ⟨hgroups, hcreations⟩ := abandon_spec h
    rw [hgroups, hcreations]
    exact hanswered claimId
  | report gid status =>
    cases h
    exact hI.mapCalls (KeepsCall.reported gid status)
  | reclaimStaleGroups =>
    cases h
    exact hI.subset fun row hrow => (List.mem_filter.mp hrow).1
  | _ =>
    obtain ⟨hgroups, hcreations⟩ := step_quiet h rfl
    rwa [hgroups, hcreations]

end Operations

/-! ## One live group -/

/-- Every group has the row of its claim, and lives only if it was not expired from the start. -/
structure Covered (groups : List GroupRow) (creations : List Creation) : Prop where
  standing : ∀ c ∈ creations, ∀ g, c.group = some g → ∃ row ∈ groups, row.id = c.claim
  holds : ∀ c ∈ creations, ∀ g, c.group = some g → g.reported.isOver = false →
    (StoredStatus.said g.created).holdsSlot = true

section OneLive

variable {s t : Paperwork} {a : Action} {groups groups' : List GroupRow}
  {creations : List Creation}

lemma Covered.nil : Covered [] [] where
  standing := fun _ h => by cases h
  holds := fun _ h => by cases h

/-- Rows go for which no group was made. -/
lemma Covered.filter (h : Covered groups creations) {keep : GroupRow → Bool}
    (hkeep : ∀ row ∈ groups, ∀ c ∈ creations, ∀ g, c.group = some g → row.id = c.claim →
      keep row = true) : Covered (groups.filter keep) creations where
  standing := by
    intro c hc g hg
    obtain ⟨row, hrow, hclaim⟩ := h.standing c hc g hg
    exact ⟨row, List.mem_filter.mpr ⟨hrow, hkeep row hrow c hc g hg hclaim⟩, hclaim⟩
  holds := h.holds

/-- Rows are added or rewritten, and keep their ids. -/
lemma Covered.rows (h : Covered groups creations)
    (hids : ∀ row ∈ groups, ∃ row' ∈ groups', row'.id = row.id) : Covered groups' creations where
  standing := by
    intro c hc g hg
    obtain ⟨row, hrow, hclaim⟩ := h.standing c hc g hg
    obtain ⟨row', hrow', hid⟩ := hids row hrow
    exact ⟨row', hrow', hid.trans hclaim⟩
  holds := h.holds

/-- A call is made. -/
lemma Covered.call (h : Covered groups creations) {c₁ : Creation} (hnone : c₁.group = none) :
    Covered groups (c₁ :: creations) where
  standing := by
    intro c hc g hg
    rcases List.mem_cons.mp hc with rfl | hc
    · rw [hnone] at hg
      cases hg
    · exact h.standing c hc g hg
  holds := by
    intro c hc g hg
    rcases List.mem_cons.mp hc with rfl | hc
    · rw [hnone] at hg
      cases hg
    · exact h.holds c hc g hg

/-- The provider makes a group for a claim that stands. -/
lemma Covered.opened (h : Covered groups creations) {claimId : Uuid} {row : GroupRow}
    (hrow : row ∈ groups) (hclaim : row.id = claimId) (gid : RequirementGroupId)
    (status : GroupStatus) :
    Covered groups (Table.update Creation.key creations claimId
      fun c => { c with group := some ⟨gid, status, status⟩ }) where
  standing := by
    intro c hc g hg
    rcases Table.mem_update.mp hc with ⟨c', -, hkey, rfl⟩ | ⟨hc, -⟩
    · exact ⟨row, hrow, hclaim.trans hkey.symm⟩
    · exact h.standing c hc g hg
  holds := by
    intro c hc g hg hlive
    rcases Table.mem_update.mp hc with ⟨c', -, -, rfl⟩ | ⟨hc, -⟩
    · cases hg
      cases status <;> first | rfl | cases hlive
    · exact h.holds c hc g hg hlive

/-- The provider reports a group, and revives none. -/
lemma Covered.report (h : Covered groups creations) {gid : RequirementGroupId}
    {status : GroupStatus}
    (hrevives : ∀ c ∈ creations, ∀ g, c.group = some g → g.id = gid → status.isOver = false →
      (StoredStatus.said g.created).holdsSlot = true) :
    Covered groups (creations.map fun c =>
      { c with group := c.group.map fun g =>
          if g.id = gid then { g with reported := status } else g }) where
  standing := by
    intro c hc g hg
    obtain ⟨c', hc', rfl⟩ := List.mem_map.mp hc
    obtain ⟨g', hg', -⟩ := Option.map_eq_some_iff.mp hg
    exact h.standing c' hc' g' hg'
  holds := by
    intro c hc g hg hlive
    obtain ⟨c', hc', rfl⟩ := List.mem_map.mp hc
    obtain ⟨g', hg', rfl⟩ := Option.map_eq_some_iff.mp hg
    split_ifs at hlive ⊢ with hid
    · exact hrevives c' hc' g' hg' hid hlive
    · exact h.holds c' hc' g' hg' hlive

/-- Calls are answered. -/
lemma Covered.answered (h : Covered s.groups s.creations) (claimId : Uuid) :
    Covered s.groups (s.answered claimId).creations := by
  have hback : ∀ c ∈ (s.answered claimId).creations,
      ∃ c' ∈ s.creations, c'.claim = c.claim ∧ c'.group = c.group := by
    intro c hc
    rcases Table.mem_update.mp hc with ⟨c', hc', -, rfl⟩ | ⟨hc, -⟩
    · exact ⟨c', hc', rfl, rfl⟩
    · exact ⟨c, hc, rfl, rfl⟩
  constructor
  · intro c hc g hg
    obtain ⟨c', hc', hclaim, hgroup⟩ := hback c hc
    rw [← hclaim]
    exact h.standing c' hc' g (hgroup.trans hg)
  · intro c hc g hg
    obtain ⟨c', hc', -, hgroup⟩ := hback c hc
    exact h.holds c' hc' g (hgroup.trans hg)

/-- The calls of a claim for which no group was made. -/
lemma group_none_of_all (hids : Table.Unique Creation.key s.creations) {claimId : Uuid}
    (h : (s.creation claimId).all (fun c => c.group.isNone) = true) {c : Creation}
    (hc : c ∈ s.creations) (hclaim : c.claim = claimId) : c.group = none := by
  have hget : s.creation claimId = some c := by
    rw [← hclaim]
    exact Table.get_of_mem hids hc
  rw [hget, Option.all_some] at h
  exact Option.isNone_iff_eq_none.mp h

/-- **A step that keeps the claims keeps every group covered.** -/
lemma covered_step (hI : Books s.groups s.creations) (hcov : Covered s.groups s.creations)
    (hguard : s.keepsClaims a = true) (h : s.step a = some t) :
    Covered t.groups t.creations := by
  cases a with
  | claim combination id =>
    obtain ⟨-, -, hgroups, hcreations⟩ := claim_spec h
    rw [hgroups, hcreations]
    exact (hcov.rows fun row hrow => ⟨row, List.mem_cons_of_mem _ hrow, rfl⟩).call rfl
  | opened claimId gid status =>
    obtain ⟨-, -, hgroups, hcreations⟩ := opened_spec h hI.claims
    obtain ⟨row, hrow, hclaim⟩ := List.any_eq_true.mp hguard
    rw [hgroups, hcreations]
    exact hcov.opened hrow (of_decide_eq_true hclaim) gid status
  | recordGroup claimId =>
    obtain ⟨-, -, -, g, -, hgroups, hcreations⟩ := recordGroup_spec h
    rw [hgroups, hcreations]
    refine (hcov.answered claimId).rows fun row hrow => ?_
    have hkeeps : Table.KeepsKey GroupRow.key fun row : GroupRow =>
        { row with providerGroupId := some g.id, status := .said g.created } := fun _ => rfl
    exact (Table.exists_key_update hkeeps).mpr ⟨row, hrow, rfl⟩
  | releaseClaim claimId =>
    obtain ⟨hgroups, hcreations⟩ := releaseClaim_spec h
    rw [hgroups, hcreations]
    refine Covered.answered (s := { s with groups := _ })
      (hcov.filter fun row hrow c hc g hg hclaim => ?_) claimId
    by_cases hid : row.id = claimId
    · rw [group_none_of_all hI.claims hguard hc (hclaim.symm.trans hid)] at hg
      cases hg
    · simp [hid]
  | abandon claimId =>
    obtain ⟨hgroups, hcreations⟩ := abandon_spec h
    rw [hgroups, hcreations]
    exact hcov.answered claimId
  | report gid status =>
    cases h
    refine hcov.report fun c hc g hg hid hlive => ?_
    have hrevives := List.all_eq_true.mp hguard g (mem_providerGroups.mpr ⟨c, hc, hg⟩)
    simpa [hid, hlive] using hrevives
  | reclaimStaleGroups =>
    cases h
    refine hcov.filter fun row hrow c hc g hg hclaim => ?_
    have hkept := List.all_eq_true.mp hguard row hrow
    cases hstale : isStale s.now row with
    | false => rfl
    | true =>
      rw [hstale] at hkept
      rw [group_none_of_all hI.claims (by simpa using hkept) hc hclaim.symm] at hg
      cases hg
  | _ =>
    obtain ⟨hgroups, hcreations⟩ := step_quiet h rfl
    rwa [hgroups, hcreations]

lemma oneLive_of_covered (hI : Books s.groups s.creations) (hcov : Covered s.groups s.creations) :
    s.OneLive := by
  -- a live group holds the slot through the row of its claim
  have hslot : ∀ c ∈ s.creations, isLive c = true →
      ∃ row ∈ s.groups, row.id = c.claim ∧ row.combination = c.combination ∧
        row.status.holdsSlot = true := by
    intro c hc hcall
    obtain ⟨g, hg, hlive⟩ := (Option.any_eq_true _ _).mp hcall
    rw [Bool.not_eq_true'] at hlive
    obtain ⟨row, hrow, hclaim⟩ := hcov.standing c hc g hg
    obtain ⟨c', hc', hclaim', hcomb, hstored⟩ := hI.recorded row hrow
    obtain rfl := hI.claims c' hc' c hc (hclaim'.trans hclaim)
    refine ⟨row, hrow, hclaim, hcomb.symm, ?_⟩
    rcases hstored with ⟨-, hstatus⟩ | ⟨g', hg', -, hstatus⟩
    · rw [hstatus]
      rfl
    · rw [hg] at hg'
      cases hg'
      rw [hstatus]
      exact hcov.holds c' hc g hg hlive
  intro c hc c' hc' hlive hlive' hcomb
  obtain ⟨row, hrow, hclaim, hrow_comb, hholds⟩ := hslot c hc hlive
  obtain ⟨row', hrow', hclaim', hrow_comb', hholds'⟩ := hslot c' hc' hlive'
  obtain rfl := hI.slots row hrow row' hrow'
    (hrow_comb.trans (hcomb.trans hrow_comb'.symm)) hholds hholds'
  exact hI.claims c hc c' hc' (hclaim.symm.trans hclaim')

end OneLive

end VoxTranslate.Voip.Paperwork
