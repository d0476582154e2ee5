import Mathlib.Data.List.Basic
import Mathlib.Data.List.Count
import Mathlib.Data.List.Pairwise

/-!
# Counting in fixed windows

Events are counted in windows.  The windows follow each other without overlap, a window after
the first is as wide as the width says, and no window counts more than a limit.  An interval
of that width meets two windows at most, so it holds at most twice the limit.
-/

namespace Window

/-- An event with the window that counted it. -/
structure Entry where
  time : ℕ
  started : ℕ
  ends : ℕ
deriving DecidableEq

/-- The window of the later event is that of the earlier one, or a full one that begins after
it. -/
def Entry.Precedes (width : ℕ) (earlier later : Entry) : Prop :=
  (later.started = earlier.started ∧ later.ends = earlier.ends) ∨
    (earlier.ends < later.started ∧ later.ends = later.started + width)

/-- The instant of an event lies in its window. -/
def Entry.Held (entry : Entry) : Prop := entry.started ≤ entry.time ∧ entry.time ≤ entry.ends

variable {width : ℕ}

theorem Entry.Precedes.refl (entry : Entry) : entry.Precedes width entry := .inl ⟨rfl, rfl⟩

theorem Entry.Precedes.trans {first second third : Entry} (hsecond : first.Precedes width second)
    (hthird : second.Precedes width third) : first.Precedes width third := by
  rcases hthird with ⟨hstarted, hends⟩ | ⟨hafter, hwide⟩
  · unfold Precedes
    rwa [hstarted, hends]
  · refine .inr ⟨?_, hwide⟩
    rcases hsecond with ⟨-, hends⟩ | ⟨hbefore, hfull⟩
    · rwa [← hends]
    · omega

/-- Three events of one interval do not lie in three windows. -/
theorem Entry.Precedes.not_third {first second third : Entry} {start : ℕ}
    (hsecond : first.Precedes width second) (hthird : second.Precedes width third)
    (hne : second.started ≠ first.started) (hne' : third.started ≠ second.started)
    (hfirst : first.Held) (hheld : third.Held) (hfrom : start ≤ first.time) :
    start + width < third.time := by
  rcases hsecond with ⟨hsame, -⟩ | ⟨hafter, hwide⟩
  · exact absurd hsame hne
  · rcases hthird with ⟨hsame, -⟩ | ⟨hafter', -⟩
    · exact absurd hsame hne'
    · obtain ⟨-, hends⟩ := hfirst
      obtain ⟨hstarted, -⟩ := hheld
      omega

/-- Of two events one comes first. -/
theorem forall_either {log : List Entry} (hspaced : log.Pairwise (Entry.Precedes width))
    {left right : Entry} (hleft : left ∈ log) (hright : right ∈ log) :
    left.Precedes width right ∨ right.Precedes width left := by
  induction log with
  | nil => cases hleft
  | cons entry log ih =>
      rw [List.pairwise_cons] at hspaced
      obtain ⟨hentry, hlog⟩ := hspaced
      rcases List.mem_cons.mp hleft with rfl | hleft'
      · rcases List.mem_cons.mp hright with rfl | hright'
        · exact .inl (.inl ⟨rfl, rfl⟩)
        · exact .inl (hentry right hright')
      · rcases List.mem_cons.mp hright with rfl | hright'
        · exact .inr (hentry left hleft')
        · exact ih hlog hleft' hright'

/-- The events of an interval lie in two windows. -/
theorem exists_two_windows {log : List Entry} (hspaced : log.Pairwise (Entry.Precedes width))
    (hheld : ∀ entry ∈ log, entry.Held) {start : ℕ}
    (hwithin : ∀ entry ∈ log, start ≤ entry.time ∧ entry.time ≤ start + width) :
    ∃ left right, ∀ entry ∈ log, entry.started = left ∨ entry.started = right := by
  cases log with
  | nil => exact ⟨0, 0, fun _ h => absurd h List.not_mem_nil⟩
  | cons first rest =>
      rw [List.pairwise_cons] at hspaced
      obtain ⟨hfirst, hrest⟩ := hspaced
      by_cases hother : ∃ entry ∈ rest, entry.started ≠ first.started
      · obtain ⟨second, hsecond, hne⟩ := hother
        refine ⟨first.started, second.started, fun entry hentry => ?_⟩
        rcases List.mem_cons.mp hentry with rfl | hentry
        · exact .inl rfl
        by_contra hcon
        rw [not_or] at hcon
        -- of the two later events one comes first, and the other is in a third window
        have hordered := forall_either hrest hsecond hentry
        have hfrom := (hwithin first (List.mem_cons_self ..)).1
        have hheldFirst := hheld first (List.mem_cons_self ..)
        rcases hordered with hordered | hordered
        · have := (hfirst second hsecond).not_third hordered hne hcon.2 hheldFirst
            (hheld entry (List.mem_cons_of_mem _ hentry)) hfrom
          have := (hwithin entry (List.mem_cons_of_mem _ hentry)).2
          omega
        · have := (hfirst entry hentry).not_third hordered hcon.1 (Ne.symm hcon.2) hheldFirst
            (hheld second (List.mem_cons_of_mem _ hsecond)) hfrom
          have := (hwithin second (List.mem_cons_of_mem _ hsecond)).2
          omega
      · refine ⟨first.started, first.started, fun entry hentry => ?_⟩
        rcases List.mem_cons.mp hentry with rfl | hentry
        · exact .inl rfl
        · by_contra hcon
          rw [or_self] at hcon
          exact hother ⟨entry, hentry, hcon⟩

/-- An interval of the width holds at most twice the limit. -/
theorem length_within_le {log : List Entry} {limit : ℕ}
    (hspaced : log.Pairwise (Entry.Precedes width)) (hheld : ∀ entry ∈ log, entry.Held)
    (hcount : ∀ started, (log.filter (·.started = started)).length ≤ limit) (start : ℕ) :
    (log.filter fun entry => start ≤ entry.time ∧ entry.time ≤ start + width).length ≤
      2 * limit := by
  have hsub : (log.filter fun entry =>
      decide (start ≤ entry.time ∧ entry.time ≤ start + width)).Sublist log := List.filter_sublist
  obtain ⟨left, right, hwindows⟩ := exists_two_windows (hspaced.sublist hsub)
    (fun entry hentry => hheld entry (hsub.mem hentry))
    (fun entry hentry => by simpa using (List.mem_filter.mp hentry).2)
  generalize (log.filter fun entry =>
    decide (start ≤ entry.time ∧ entry.time ≤ start + width)) = inside at hsub hwindows
  have hleft : (inside.filter fun entry => decide (entry.started = left)).length ≤ limit :=
    Nat.le_trans (hsub.filter _).length_le (hcount left)
  have hright : (inside.filter fun entry => decide (entry.started = right)).length ≤ limit :=
    Nat.le_trans (hsub.filter _).length_le (hcount right)
  have hsplit : inside.length = (inside.filter fun entry => decide (entry.started = left)).length +
      (inside.filter fun entry => !decide (entry.started = left)).length :=
    List.length_eq_length_filter_add _
  have hrest : (inside.filter fun entry => !decide (entry.started = left)).length ≤
      (inside.filter fun entry => decide (entry.started = right)).length := by
    rw [← List.countP_eq_length_filter, ← List.countP_eq_length_filter]
    refine List.countP_mono_left fun entry hentry hne => ?_
    rcases hwindows entry hentry with h | h
    · simp [h] at hne
    · simpa using h
  omega

end Window
