import VoxTranslate.Voip.Inbound

/-!
# Windows that cross midnight

A window that closes at or before its opening time ends on the next day.  The office is meant to
be open in the window of the day and in what is left, after midnight, of the window of the day
before.  The check looks at the entry of the day alone, and takes the early hours of a day with
such a window for a part of it.
-/

namespace VoxTranslate.Voip

/-- A window from its opening to its closing time, in minutes from midnight. -/
structure Window where
  opening : Int
  closing : Int
  deriving DecidableEq, Repr

namespace Window

/-- The window ends on the next day. -/
def Overnight (w : Window) : Prop := w.closing ≤ w.opening

/-- The time is in the window, on the day it opens. -/
def Covers (w : Window) (minutes : Int) : Prop :=
  w.opening ≤ minutes ∧ (w.Overnight ∨ minutes < w.closing)

/-- The time is in what the window leaves for the next day. -/
def Tail (w : Window) (minutes : Int) : Prop := w.Overnight ∧ minutes < w.closing

instance (w : Window) (minutes : Int) : Decidable (w.Covers minutes) :=
  inferInstanceAs (Decidable (_ ≤ _ ∧ (_ ≤ _ ∨ _ < _)))

instance (w : Window) (minutes : Int) : Decidable (w.Tail minutes) :=
  inferInstanceAs (Decidable (_ ≤ _ ∧ _ < _))

end Window

namespace Week

/-- The window that opens on a day. -/
def window (week : Week) (day : Nat) : Option Window :=
  match week.opensAt[day]?.join, week.closesAt[day]?.join with
  | some opening, some closing => some ⟨opening, closing⟩
  | _, _ => none

/-- Open in the window of the day. -/
def CoversToday (week : Week) (day : Nat) (minutes : Int) : Prop :=
  ∃ w, week.window day = some w ∧ w.Covers minutes

/-- Before the end of an overnight window of the day. -/
def InTail (week : Week) (day : Nat) (minutes : Int) : Prop :=
  ∃ w, week.window day = some w ∧ w.Tail minutes

instance (week : Week) (day : Nat) (minutes : Int) : Decidable (week.CoversToday day minutes) :=
  decidable_of_iff ((week.window day).any fun w => w.Covers minutes) (by
    simp [CoversToday, Option.any_eq_true])

instance (week : Week) (day : Nat) (minutes : Int) : Decidable (week.InTail day minutes) :=
  decidable_of_iff ((week.window day).any fun w => w.Tail minutes) (by
    simp [InTail, Option.any_eq_true])

/-- The day before, on a week that begins with Monday. -/
def yesterday (day : Nat) : Nat := (day + 6) % 7

variable {week : Week} {day : Nat} {minutes : Int}

/-- What the check reports for a week with opening times: the tail is that of the day itself. -/
lemma isOpen_iff (hopening : week.isEmpty = false) :
    isOpen day minutes (some week) = true ↔
      week.CoversToday day minutes ∨ week.InTail day minutes := by
  simp only [isOpen, hopening, CoversToday, InTail, window]
  cases hopens : week.opensAt[day]?.join with
  | none => simp
  | some opening =>
    cases hcloses : week.closesAt[day]?.join with
    | none => simp
    | some closing =>
      simp only [Option.some.injEq, exists_eq_left', Window.Covers, Window.Tail, Window.Overnight,
        Bool.false_eq_true, if_false]
      split_ifs with hsame
      · simp only [Bool.and_eq_true, decide_eq_true_eq]
        omega
      · simp only [Bool.or_eq_true, decide_eq_true_eq]
        omega

lemma window_of_isEmpty (hempty : week.isEmpty = true) (day : Nat) : week.window day = none := by
  have hnone : week.opensAt[day]?.join = none := by
    cases hentry : week.opensAt[day]? with
    | none => rfl
    | some entry =>
      have := List.all_eq_true.mp hempty entry (List.mem_of_getElem? hentry)
      simpa using this
  rw [window, hnone]

/-- **When office hours cover overnight windows.**  The office is reported open exactly in the
window of the day and in the tail of the window of the day before, if and only if the week has an
opening time at all, and the time is in the window of the day or in the tails of both days'
windows or of neither. -/
theorem isOpen_overnight_iff (week : Week) (day : Nat) (minutes : Int) :
    (isOpen day minutes (some week) = true ↔
        week.CoversToday day minutes ∨ week.InTail (yesterday day) minutes) ↔
      (∃ opening, some opening ∈ week.opensAt) ∧ (week.CoversToday day minutes ∨
        (week.InTail day minutes ↔ week.InTail (yesterday day) minutes)) := by
  have hsome : week.isEmpty = false ↔ ∃ opening, some opening ∈ week.opensAt := by
    rw [isEmpty, List.all_eq_false]
    constructor
    · rintro ⟨entry, hmem, hentry⟩
      obtain ⟨opening, rfl⟩ := Option.ne_none_iff_exists'.mp (by simpa using hentry)
      exact ⟨opening, hmem⟩
    · rintro ⟨opening, hmem⟩
      exact ⟨some opening, hmem, by simp⟩
  rw [← hsome]
  by_cases hopening : week.isEmpty = false
  · rw [isOpen_iff hopening]
    tauto
  · -- a week without opening times is open, and no window covers anything
    rw [Bool.not_eq_false] at hopening
    have hopen : isOpen day minutes (some week) = true := by simp only [isOpen, hopening, if_true]
    simp [hopen, hopening, CoversToday, InTail, window_of_isEmpty hopening]

/-- An office that opens at ten on Monday night until six, and from nine to five on the other
days. -/
def mondayNight : Week :=
  .fromArrays [1320, 540, 540, 540, 540, 540, 540] [360, 1020, 1020, 1020, 1020, 1020, 1020]

/-- At two on Monday morning, before anybody has come, the office is reported open; at two on
Tuesday morning, with the night shift at work, it is reported closed. -/
theorem night_shift_misread :
    (isOpen 0 120 (some mondayNight) = true ∧ ¬ mondayNight.CoversToday 0 120 ∧
        ¬ mondayNight.InTail (yesterday 0) 120) ∧
      isOpen 1 120 (some mondayNight) = false ∧ mondayNight.InTail (yesterday 1) 120 := by
  decide

end Week

end VoxTranslate.Voip
