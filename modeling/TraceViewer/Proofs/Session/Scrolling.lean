import TraceViewer.Session.Key

/-!
# Scrolling through an event

The lines of an event are counted without a bound, and the position in them has sixteen bits.  So
scrolling down ends where it should as long as this is less than `65536` lines from the top, and
starts over from the top where it should end further down.
-/

namespace TraceViewer.Session

variable {s : Session}

/-! ## 1. Positions -/

/-- Where scrolling down by so many lines should end: at the last page if not before. -/
def positionBelow (s : Session) (lines : Nat) : Nat := min (s.scroll.toNat + lines) s.lastScroll

/-- The position is not beyond the last page. -/
def IsWithinPages (s : Session) : Prop := s.scroll.toNat ≤ s.lastScroll

instance (s : Session) : Decidable s.IsWithinPages := Nat.decLe ..

theorem positionBelow_le (s : Session) (lines : Nat) : s.positionBelow lines ≤ s.lastScroll :=
  Nat.min_le_right ..

theorem IsWithinPages.le_positionBelow (h : s.IsWithinPages) (lines : Nat) :
    s.scroll.toNat ≤ s.positionBelow lines :=
  Nat.le_min.mpr ⟨Nat.le_add_right .., h⟩

theorem lastScroll_of_noLines (hlines : s.viewport.detailLines = 0) : s.lastScroll = 0 := by
  unfold lastScroll
  omega

/-- What is left of a position in sixteen bits. -/
theorem IsWithinPages.toNat_scrollDown (h : s.IsWithinPages) (lines : Nat) :
    (s.scrollDown lines).scroll.toNat = s.positionBelow lines % 65536 := by
  unfold scrollDown
  split
  · next hlines =>
    have hlast := lastScroll_of_noLines hlines
    have hle := s.positionBelow_le lines
    have hscroll : s.scroll.toNat ≤ s.lastScroll := h
    have hzero : s.positionBelow lines = 0 := by omega
    rw [hzero]
    omega
  · exact UInt16.toNat_ofNat' ..

/-! ## 2. Scrolling down -/

theorem IsWithinPages.lands_iff (h : s.IsWithinPages) (lines : Nat) :
    (s.scrollDown lines).scroll.toNat = s.positionBelow lines ↔ s.positionBelow lines < 65536 := by
  rw [h.toNat_scrollDown]
  omega

/-- A position other than the top can be lost, if there are so many lines. -/
theorem IsWithinPages.neverUp_iff (h : s.IsWithinPages) :
    (∀ lines ≤ farDown, s.scroll.toNat ≤ (s.scrollDown lines).scroll.toNat) ↔
      s.lastScroll < 65536 ∨ s.scroll.toNat = 0 := by
  have hscroll := s.scroll.toNat_lt
  constructor
  · intro hdown
    rcases Nat.lt_or_ge s.lastScroll 65536 with hfew | hmany
    · exact .inl hfew
    · -- scrolling down to the first position that sixteen bits do not count leads to the top
      have hfirst : s.positionBelow (65536 - s.scroll.toNat) = 65536 := by
        unfold positionBelow
        omega
      have hle := hdown (65536 - s.scroll.toNat) (by unfold farDown; omega)
      rw [h.toNat_scrollDown, hfirst] at hle
      exact .inr (by omega)
  · rintro (hfew | htop) lines -
    · have hle := s.positionBelow_le lines
      rw [(h.lands_iff lines).mpr (Nat.lt_of_le_of_lt hle hfew)]
      exact h.le_positionBelow lines
    · rw [htop]
      exact Nat.zero_le _

theorem IsWithinPages.reachesEnd_iff (h : s.IsWithinPages) (control : Bool) :
    (s.detailKey (.char 'G' control)).scroll.toNat = s.lastScroll ↔ s.lastScroll < 65536 := by
  have hkey : s.detailKey (.char 'G' control) = s.scrollDown farDown := by cases control <;> rfl
  rw [hkey]
  constructor
  · intro hend
    rw [← hend]
    exact UInt16.toNat_lt _
  · intro hfew
    have hend : s.positionBelow farDown = s.lastScroll := by
      unfold positionBelow farDown
      omega
    rw [(h.lands_iff farDown).mpr (hend ▸ hfew), hend]

/-- Scrolling down ends where it should exactly if sixteen bits count that far.  It never goes up
exactly if they count up to the last page, or from the top; and `G` leads to the last page exactly
if they count up to it. -/
theorem scrollDown_iff (h : s.IsWithinPages) :
    (∀ lines ≤ farDown, (s.scrollDown lines).scroll.toNat = s.positionBelow lines ↔
        s.positionBelow lines < 65536) ∧
      ((∀ lines ≤ farDown, s.scroll.toNat ≤ (s.scrollDown lines).scroll.toNat) ↔
        s.lastScroll < 65536 ∨ s.scroll.toNat = 0) ∧
      ∀ control, (s.detailKey (.char 'G' control)).scroll.toNat = s.lastScroll ↔
        s.lastScroll < 65536 :=
  ⟨fun lines _ => h.lands_iff lines, h.neverUp_iff, h.reachesEnd_iff⟩

/-- An event of as many lines as sixteen bits count with the last page, seen from the line before
that. -/
theorem scrollDown_iff_longestEvent :
    let s : Session := { viewport := { detailHeight := 1, detailLines := 65536 }, scroll := 65534 }
    s.IsWithinPages ∧ (s.scrollDown 7).scroll.toNat = 65535 ∧
      ∀ lines ≤ farDown, s.scroll.toNat ≤ (s.scrollDown lines).scroll.toNat := by
  intro s
  have h : s.IsWithinPages := by decide
  exact ⟨h, (s.scrollDown_iff h).1 7 (by decide) |>.mpr (by decide),
    (s.scrollDown_iff h).2.1.mpr (.inl (by decide))⟩

/-- One line more, and the next line down is the first one. -/
theorem scrollDown_startsOver :
    let s : Session := { viewport := { detailHeight := 1, detailLines := 65537 }, scroll := 65535 }
    s.IsWithinPages ∧ s.positionBelow 1 = 65536 ∧ (s.scrollDown 1).scroll.toNat = 0 ∧
      s.lastScroll = 65536 ∧ (s.detailKey (.char 'G')).scroll.toNat = 0 := by
  decide

end TraceViewer.Session
