import VoxTranslate.Voip.GroupBooks

/-!
# What the stored status of a requirement group is worth

The sweep attaches a group that is stored as approved, and the unique index frees the slot of one
that is stored as expired.  Both read a column that repeats what the provider said when it made
the group.
-/

namespace VoxTranslate.Voip.Paperwork

open Lib

/-! ## What a pass of the sweep is for -/

/-- The numbers that a pass comes to. -/
def reached (reply : Uuid → SubOrderReply) : List Uuid → List Uuid
  | [] => []
  | id :: ids => if reply id = .rateLimited then [id] else id :: reached reply ids

/-- After a pass from `s` to `t` the stored statuses are those last reported: a group that is
over holds no slot, and an approved one is attached to the numbers of its combination that the
pass finds without a group. -/
structure Follows (s : Paperwork) (pass : ReconcilePass) (t : Paperwork) : Prop where
  mirrored : ∀ row ∈ t.groups, ∀ g ∈ t.providerGroups, row.providerGroupId = some g.id →
    row.status = .said g.reported
  freed : ∀ row ∈ t.groups, ∀ g ∈ t.providerGroups, row.providerGroupId = some g.id →
    g.reported.isOver = true → row.status.holdsSlot = false
  reused : ∀ id ∈ reached pass.reply pass.claimed, ∀ n, s.number id = some n →
    n.requirementGroupId = none → ∀ row ∈ t.groups, ∀ g ∈ t.providerGroups,
    row.combination = n.combination → row.providerGroupId = some g.id → g.reported = .approved →
    (∃ n', t.number id = some n' ∧ n'.requirementGroupId = some row.id) ∧
      (n.providerSubOrderId, g.id) ∈ t.attached

/-- The provider has not changed its mind about a group that is written down, and had not
declined it at once. -/
def Settled (s : Paperwork) : Prop :=
  ∀ row ∈ s.groups, ∀ g ∈ s.providerGroups, row.providerGroupId = some g.id →
    g.reported = g.created ∧ g.created ≠ .declined

instance (s : Paperwork) : Decidable s.Settled :=
  inferInstanceAs (Decidable (∀ row ∈ s.groups, ∀ g ∈ s.providerGroups,
    row.providerGroupId = some g.id → g.reported = g.created ∧ g.created ≠ .declined))

/-! ## Reuse -/

/-- The number has this group. -/
def Linked (s : Paperwork) (number group : Uuid) : Prop :=
  ∃ n, s.number number = some n ∧ n.requirementGroupId = some group

section Reuse

variable {s t : Paperwork} {id group : Uuid} {gid : RequirementGroupId}
  {row n : RegulatedNumber} {rows : List RegulatedNumber} {reply : Uuid → SubOrderReply}
  {x : Option String × RequirementGroupId}

lemma link_keepsKey (group : Uuid) :
    Table.KeepsKey RegulatedNumber.key (RegulatedNumber.link group) := fun _ => rfl

lemma write_keepsKey (now : Timestamp) (w : NumberWrite) :
    Table.KeepsKey RegulatedNumber.key (RegulatedNumber.write now w) := fun n =>
  (w.apply_same now n.toNumberRow).1

lemma id_of_number (h : s.number id = some n) : n.id = id := by
  have hkey : n.key = id := Table.key_of_get h
  exact hkey

lemma number_updateNumber {f : RegulatedNumber → RegulatedNumber}
    (hf : Table.KeepsKey RegulatedNumber.key f) (h : s.number id = some n) :
    (s.updateNumber id f).number id = some (f n) := by
  rw [number, updateNumber, Table.get_update_self hf]
  exact congrArg (Option.map f) h

lemma number_updateNumber_of_ne {f : RegulatedNumber → RegulatedNumber} {id' : Uuid}
    (hf : Table.KeepsKey RegulatedNumber.key f) (hne : id ≠ id') :
    (s.updateNumber id' f).number id = s.number id := Table.get_update_of_ne hf hne

lemma number_attachUnlinked_of_ne (hne : id ≠ row.id) :
    (s.attachUnlinked row).number id = s.number id := by
  rw [attachUnlinked, attachReusableGroupIfAny]
  split_ifs
  · split
    · rfl
    · exact number_updateNumber_of_ne (link_keepsKey _) hne
  · rfl

/-- A number keeps the group it has, through any write. -/
lemma Linked.updateNumber (h : s.Linked id group) {id' : Uuid}
    {f : RegulatedNumber → RegulatedNumber} (hf : Table.KeepsKey RegulatedNumber.key f)
    (hlink : ∀ n, n.requirementGroupId = some group → (f n).requirementGroupId = some group) :
    (s.updateNumber id' f).Linked id group := by
  obtain ⟨n, hn, hgroup⟩ := h
  rcases eq_or_ne id id' with rfl | hne
  · exact ⟨f n, number_updateNumber hf hn, hlink n hgroup⟩
  · exact ⟨n, (number_updateNumber_of_ne hf hne).trans hn, hgroup⟩

lemma Linked.attachUnlinked (h : s.Linked id group) : (s.attachUnlinked row).Linked id group := by
  rw [Paperwork.attachUnlinked, attachReusableGroupIfAny]
  split_ifs
  · split
    · exact h
    · refine h.updateNumber (link_keepsKey _) fun n hn => ?_
      rw [RegulatedNumber.link, hn, Option.some_or]
  · exact h

lemma Linked.reconcileRows (h : s.Linked id group) :
    (s.reconcileRows reply rows).Linked id group := by
  induction rows generalizing s with
  | nil => exact h
  | cons row rows ih =>
    rw [Paperwork.reconcileRows]
    split
    · exact h.attachUnlinked
    next w _ => exact ih (h.attachUnlinked.updateNumber (write_keepsKey _ w) fun _ hn => hn)

lemma mem_attached_attachUnlinked (h : x ∈ s.attached) : x ∈ (s.attachUnlinked row).attached := by
  rw [attachUnlinked, attachReusableGroupIfAny]
  split_ifs
  · split
    · exact h
    · exact List.mem_append_right _ h
  · exact h

lemma mem_attached_reconcileRows (h : x ∈ s.attached) :
    x ∈ (s.reconcileRows reply rows).attached := by
  induction rows generalizing s with
  | nil => exact h
  | cons row rows ih =>
    rw [reconcileRows]
    split
    · exact mem_attached_attachUnlinked h
    · exact ih (mem_attached_attachUnlinked h)

lemma reusable_congr (h : t.groups = s.groups) (row : RegulatedNumber) :
    t.reusable row = s.reusable row := by
  rw [reusable, reusable, h]

/-- The sweep attaches the group that it finds. -/
lemma attachUnlinked_links {found : GroupRow} (hnone : row.requirementGroupId = none)
    (hrow : s.number row.id = some row) (hreuse : s.reusable row = some found)
    (hgid : found.providerGroupId = some gid) :
    (s.attachUnlinked row).Linked row.id found.id ∧
      (row.providerSubOrderId, gid) ∈ (s.attachUnlinked row).attached := by
  have hlinked := number_updateNumber (link_keepsKey found.id) hrow
  rw [attachUnlinked, hnone, attachReusableGroupIfAny, hreuse]
  refine ⟨⟨_, hlinked, ?_⟩, ?_⟩
  · rw [RegulatedNumber.link, hnone, Option.none_or]
  · simp [hgid]

/-- A pass attaches the group that it finds to every number without one that it comes to. -/
lemma reconcileRows_reuses (hnodup : (rows.map RegulatedNumber.key).Nodup)
    (hrows : ∀ row ∈ rows, s.number row.id = some row) {found : GroupRow} (hmem : row ∈ rows)
    (hreached : row.id ∈ reached reply (rows.map RegulatedNumber.key))
    (hnone : row.requirementGroupId = none) (hreuse : s.reusable row = some found)
    (hgid : found.providerGroupId = some gid) :
    (s.reconcileRows reply rows).Linked row.id found.id ∧
      (row.providerSubOrderId, gid) ∈ (s.reconcileRows reply rows).attached := by
  induction rows generalizing s with
  | nil => cases hmem
  | cons head rows ih =>
    rw [List.map_cons, List.nodup_cons] at hnodup
    obtain ⟨hhead, hrest⟩ := List.forall_mem_cons.mp hrows
    rw [reconcileRows]
    rcases List.mem_cons.mp hmem with rfl | htail
    · obtain ⟨hlinked, hattached⟩ := attachUnlinked_links hnone hhead hreuse hgid
      split
      · exact ⟨hlinked, hattached⟩
      next w _ =>
        exact ⟨(hlinked.updateNumber (write_keepsKey _ w) fun _ hn => hn).reconcileRows,
          mem_attached_reconcileRows hattached⟩
    · have hne : ∀ row ∈ rows, row.id ≠ head.id := fun row hrow hid =>
        hnodup.1 (List.mem_map.mpr ⟨row, hrow, hid⟩)
      rw [List.map_cons, reached] at hreached
      split_ifs at hreached with hlimit
      · exact absurd (List.mem_singleton.mp hreached) (hne row htail)
      have hgoes : ∃ w, sweepWrite head (reply head.id) = some w := by
        rw [← Option.isSome_iff_exists]
        cases hreply : reply head.id with
        | rateLimited => exact absurd hreply hlimit
        | known state =>
          rw [sweepWrite]
          split <;> rfl
        | _ => rfl
      obtain ⟨w, hw⟩ := hgoes
      rw [hw]
      refine ih hnodup.2 (fun row hrow => ?_) htail
        ((List.mem_cons.mp hreached).resolve_left (hne row htail)) ?_
      · rw [number_updateNumber_of_ne (write_keepsKey _ w) (hne row hrow),
          number_attachUnlinked_of_ne (hne row hrow)]
        exact hrest row hrow
      · exact (reusable_congr (s.attachUnlinked_books head).1 row).trans hreuse

/-- A number that the claim of a pass finds. -/
lemma number_holdRows (h : s.number id = some n) (ids : List Uuid) :
    ∃ held, (s.holdRows ids).number id = some held ∧ held.combination = n.combination ∧
      held.requirementGroupId = n.requirementGroupId ∧
      held.providerSubOrderId = n.providerSubOrderId := by
  have hkeeps : Table.KeepsKey RegulatedNumber.key (RegulatedNumber.hold s.now ids) := by
    intro n
    rw [RegulatedNumber.hold]
    split_ifs <;> rfl
  refine ⟨n.hold s.now ids, (Table.get_map hkeeps).trans (congrArg (Option.map _) h), ?_⟩
  rw [RegulatedNumber.hold]
  split_ifs <;> exact ⟨rfl, rfl, rfl⟩

/-- The rows that a pass reads. -/
lemma rows_of_claimed {ids : List Uuid} (h : ∀ id ∈ ids, (s.number id).isSome = true) :
    (ids.filterMap s.number).map RegulatedNumber.key = ids ∧
      ∀ row ∈ ids.filterMap s.number, s.number row.id = some row := by
  constructor
  · induction ids with
    | nil => rfl
    | cons id ids ih =>
      obtain ⟨hid, hids⟩ := List.forall_mem_cons.mp h
      obtain ⟨n, hn⟩ := Option.isSome_iff_exists.mp hid
      rw [List.filterMap_cons, hn, List.map_cons, ih hids, Table.key_of_get hn]
  · intro row hrow
    obtain ⟨id, -, hid⟩ := List.mem_filterMap.mp hrow
    rwa [id_of_number hid]

/-- The query finds the approved row of the combination. -/
lemma reusable_eq (hI : Books s.groups s.creations) {found : GroupRow} (hfound : found ∈ s.groups)
    (hcomb : found.combination = n.combination) (hkind : n.numberKind.isSome = true)
    (hstatus : found.status = .said .approved) (hgid : found.providerGroupId = some gid) :
    s.reusable n = some found := by
  obtain ⟨kind, hkind⟩ := Option.isSome_iff_exists.mp hkind
  rw [RegulatedNumber.combination, hkind, Option.getD_some] at hcomb
  cases hquery : s.reusable n with
  | none =>
    have hmissed := List.find?_eq_none.mp hquery found hfound
    simp [hcomb, hkind, hstatus, hgid] at hmissed
  | some other =>
    have hother := List.find?_some hquery
    simp only [Bool.and_eq_true, decide_eq_true_eq] at hother
    obtain ⟨⟨⟨⟨horg, hcountry⟩, hother_kind⟩, happroved⟩, -⟩ := hother
    rw [hkind] at hother_kind
    have hsame : other.combination = found.combination := by
      rw [hcomb, ← horg, ← hcountry, ← Option.some.inj hother_kind]
    rw [hI.slots other (List.mem_of_find?_eq_some hquery) found hfound hsame
      (by rw [happroved]; rfl) (by rw [hstatus]; rfl)]

/-- A pass reuses the groups that are stored as approved. -/
lemma reconcileDue_reuses (hI : Books s.groups s.creations) {pass : ReconcilePass}
    (h : s.reconcileDue pass = some t) (hreached : id ∈ reached pass.reply pass.claimed)
    (hn : s.number id = some n) (hclaimed : id ∈ pass.claimed)
    (hnone : n.requirementGroupId = none) {found : GroupRow} (hfound : found ∈ s.groups)
    (hcomb : found.combination = n.combination) (hstatus : found.status = .said .approved)
    (hgid : found.providerGroupId = some gid) :
    t.Linked id found.id ∧ (n.providerSubOrderId, gid) ∈ t.attached := by
  obtain ⟨hnodup, hdue, rfl⟩ := reconcileDue_spec h
  have hsome : ∀ id ∈ pass.claimed, ((s.holdRows pass.claimed).number id).isSome = true := by
    intro id hid
    obtain ⟨n, hn, -⟩ := (Option.any_eq_true _ _).mp (hdue id hid)
    obtain ⟨held, hheld, -⟩ := number_holdRows hn pass.claimed
    rw [hheld]
    rfl
  obtain ⟨held, hheld, hheld_comb, hheld_group, hheld_sub⟩ :=
    number_holdRows hn pass.claimed
  obtain ⟨hkeys, hrows⟩ := rows_of_claimed hsome
  have hid := id_of_number hheld
  -- a number that is due has a sub-order, so its kind is known
  have hkind : held.numberKind.isSome = true := by
    have hdue_n := hdue id hclaimed
    rw [hn, Option.any_some, NumberRow.isCheckDue] at hdue_n
    simp only [Bool.and_eq_true] at hdue_n
    exact held.kind_known (by rw [hheld_sub]; exact hdue_n.1.2)
  have hreuse : (s.holdRows pass.claimed).reusable held = some found :=
    reusable_eq (s := s.holdRows pass.claimed) hI hfound (hcomb.trans hheld_comb.symm) hkind
      hstatus hgid
  rw [← hid, ← hheld_sub]
  refine reconcileRows_reuses (by rwa [hkeys]) hrows ?_ (by rwa [hkeys, hid])
    (hheld_group.trans hnone) hreuse hgid
  exact List.mem_filterMap.mpr ⟨id, hclaimed, hheld⟩

lemma mem_of_reached {ids : List Uuid} (h : id ∈ reached reply ids) : id ∈ ids := by
  induction ids with
  | nil => cases h
  | cons id' ids ih =>
    rw [reached] at h
    split_ifs at h
    · exact List.mem_cons.mpr (.inl (List.mem_singleton.mp h))
    · obtain rfl | h := List.mem_cons.mp h
      · exact List.mem_cons_self
      · exact List.mem_cons_of_mem _ (ih h)

/-- **A pass leaves what the provider last reported exactly where it has changed nothing.** -/
lemma follows_iff_settled (hI : Books s.groups s.creations) {pass : ReconcilePass}
    (h : s.reconcileDue pass = some t) : s.Follows pass t ↔ s.Settled := by
  obtain ⟨hgroups, hcreations⟩ : t.groups = s.groups ∧ t.creations = s.creations :=
    step_quiet (a := .reconcileDue pass) h rfl
  have hproviders : t.providerGroups = s.providerGroups := by
    rw [providerGroups, hcreations, providerGroups]
  have hstored : ∀ row ∈ s.groups, ∀ g ∈ s.providerGroups, row.providerGroupId = some g.id →
      row.status = .said g.created := by
    intro row hrow g hg hid
    obtain ⟨c, hc, hcg⟩ := mem_providerGroups.mp hg
    exact (hI.status_eq hrow hc hcg hid).1
  constructor
  · intro hfollows row hrow g hg hid
    rw [← hgroups] at hrow
    rw [← hproviders] at hg
    have hmirrored := hfollows.mirrored row hrow g hg hid
    have hstatus := hstored row (hgroups ▸ hrow) g (hproviders ▸ hg) hid
    have hsame : g.reported = g.created := by
      rw [hstatus] at hmirrored
      exact (StoredStatus.said.inj hmirrored).symm
    refine ⟨hsame, fun hdeclined => ?_⟩
    have hfreed := hfollows.freed row hrow g hg hid (by rw [hsame, hdeclined]; rfl)
    rw [hstatus, hdeclined] at hfreed
    cases hfreed
  · intro hsettled
    refine ⟨?_, ?_, ?_⟩
    · rw [hgroups, hproviders]
      intro row hrow g hg hid
      rw [hstored row hrow g hg hid, (hsettled row hrow g hg hid).1]
    · rw [hgroups, hproviders]
      intro row hrow g hg hid hover
      obtain ⟨hsame, hdeclined⟩ := hsettled row hrow g hg hid
      rw [hsame] at hover
      rw [hstored row hrow g hg hid]
      cases hcreated : g.created with
      | declined => exact absurd hcreated hdeclined
      | expired | noLongerEligible => rfl
      | _ =>
        rw [hcreated] at hover
        cases hover
    · rw [hgroups, hproviders]
      intro id hreached n hn hnone row hrow g hg hcomb hid happroved
      have hstatus := hstored row hrow g hg hid
      rw [← (hsettled row hrow g hg hid).1, happroved] at hstatus
      exact reconcileDue_reuses hI h hreached hn (mem_of_reached hreached) hnone hrow hcomb
        hstatus hid

end Reuse

/-! ## Any run -/

section Run

variable {numbers : List RegulatedNumber} {now : Timestamp} {as : List Action} {s : Paperwork}

lemma books_of_run (h : Run (ofPartial step) (start numbers now) as s) :
    Books s.groups s.creations :=
  h.invariant (fun s => Books s.groups s.creations) (fun _ _ _ _ hI hstep => books_step hI hstep)
    Books.nil

lemma oneLive_of_run
    (h : Run (Guarded (ofPartial step) fun s a => s.keepsClaims a = true)
      (start numbers now) as s) : s.OneLive := by
  have hbooks := h.invariant
    (fun s => Books s.groups s.creations ∧ Covered s.groups s.creations)
    (fun _ _ _ _ hI hstep =>
      ⟨books_step hI.1 hstep.2, covered_step hI.1 hI.2 hstep.1 hstep.2⟩)
    ⟨Books.nil, Covered.nil⟩
  exact oneLive_of_covered hbooks.1 hbooks.2

end Run

/-- **A pass of the sweep leaves the stored statuses as the provider last reported them exactly
where the provider reports of every group what it said when it made it, and did not decline it
then; and a combination has one live group at most in every run that keeps the claims.** -/
theorem groups_follow_provider_iff (numbers : List RegulatedNumber) (now : Timestamp) :
    (∀ as s pass t, Run (ofPartial step) (start numbers now) as s →
      s.step (.reconcileDue pass) = some t → (s.Follows pass t ↔ s.Settled)) ∧
    ∀ as s, Run (Guarded (ofPartial step) fun s a => s.keepsClaims a = true)
      (start numbers now) as s → s.OneLive :=
  ⟨fun _ _ _ _ hrun hstep => follows_iff_settled (books_of_run hrun) hstep,
    fun _ _ hrun => oneLive_of_run hrun⟩

/-- A number that waits for its papers. -/
def numberInReview (id : Uuid) (subOrder : String) : RegulatedNumber where
  id := id
  orgId := 7
  providerNumberId := none
  e164 := "+33123456789"
  inboundEnabled := true
  outboundEnabled := false
  isDefault := false
  status := .pendingRegulatory
  statusReason := none
  customerMonthlyUsd := none
  purchaseKey := none
  nextRenewalAt := none
  suspendedAt := none
  regulatoryRequirement := some "proof of address"
  providerSubOrderId := some subOrder
  regulatoryFailures := 0
  regulatoryNextCheckAt := some 0
  country := "FR"
  numberKind := some .mobile
  requirementGroupId := none
  kind_known := fun _ => rfl

def twoNumbers : List RegulatedNumber := [numberInReview 1 "so-1", numberInReview 2 "so-2"]

def frenchMobile : Combination := ⟨7, "FR", .mobile⟩

/-- A sweep that comes to the second number. -/
def secondNumber : ReconcilePass := ⟨25, [2], fun _ => .unsupported⟩

/-- A group that is approved at once is attached to the other number of the combination. -/
theorem groups_follow_provider_sample :
    ∃ s t, Run (ofPartial step) (start twoNumbers 0)
        [.claim frenchMobile 1, .opened 1 "rg" .approved, .recordGroup 1, .linkGroup 1 1] s ∧
      s.step (.reconcileDue secondNumber) = some t ∧ s.Follows secondNumber t ∧ s.OneLive := by
  obtain ⟨hfollows, honeLive⟩ := groups_follow_provider_iff twoNumbers 0
  obtain ⟨s, hrun, hs⟩ : ∃ s, Run (Guarded (ofPartial step) fun s a => s.keepsClaims a = true)
      (start twoNumbers 0)
      [.claim frenchMobile 1, .opened 1 "rg" .approved, .recordGroup 1, .linkGroup 1 1] s ∧
      (s.Settled ∧ (s.step (.reconcileDue secondNumber)).isSome = true) :=
    Run.exists_guarded_of_decide (by decide)
  obtain ⟨t, ht⟩ := Option.isSome_iff_exists.mp hs.2
  exact ⟨s, t, hrun.ofGuarded, ht, (hfollows _ s _ t hrun.ofGuarded ht).mpr hs.1,
    honeLive _ s hrun⟩

/-- A group that the provider approved stays stored as unapproved, an expired one keeps its
slot, and a claim that is reclaimed while the provider is slow makes a second group. -/
theorem approval_is_not_stored :
    (∃ s t, Run (ofPartial step) (start twoNumbers 0)
        [.claim frenchMobile 1, .opened 1 "rg" .unapproved, .recordGroup 1, .linkGroup 1 1,
          .report "rg" .pendingApproval, .attach (some "so-1") "rg", .write 1 .submit,
          .report "rg" .approved] s ∧
      s.step (.reconcileDue secondNumber) = some t ∧ ¬ s.Follows secondNumber t) ∧
    (∃ s, Run (ofPartial step) (start [] 0)
        [.claim frenchMobile 1, .opened 1 "rg" .unapproved, .recordGroup 1,
          .report "rg" .expired] s ∧ s.step (.claim frenchMobile 2) = none) ∧
    ∃ s, Run (ofPartial step) (start [] 0)
        [.claim frenchMobile 1, .elapse 601000000, .reclaimStaleGroups, .claim frenchMobile 2,
          .opened 1 "rg-1" .unapproved, .opened 2 "rg-2" .unapproved, .recordGroup 2] s ∧
      ¬ s.OneLive := by
  refine ⟨?_, Run.exists_of_decide (by decide), Run.exists_of_decide (by decide)⟩
  obtain ⟨s, hrun, hs⟩ : ∃ s, Run (ofPartial step) (start twoNumbers 0)
      [.claim frenchMobile 1, .opened 1 "rg" .unapproved, .recordGroup 1, .linkGroup 1 1,
        .report "rg" .pendingApproval, .attach (some "so-1") "rg", .write 1 .submit,
        .report "rg" .approved] s ∧
      (¬ s.Settled ∧ (s.step (.reconcileDue secondNumber)).isSome = true) :=
    Run.exists_of_decide (by decide)
  obtain ⟨t, ht⟩ := Option.isSome_iff_exists.mp hs.2
  exact ⟨s, t, hrun, ht, fun h => hs.1 ((follows_iff_settled (books_of_run hrun) ht).mp h)⟩

end VoxTranslate.Voip.Paperwork
