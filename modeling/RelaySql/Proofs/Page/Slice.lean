import RelaySql.Page.Window
import RelaySql.Proofs.Page.Bounds

/-!
# Pages — a window on a set, and the page of the whole set

A window shows a slice of the set: the rows from `PageWindow.offset` on, `PageWindow.size` of them
at most.  The page of the slice and the page of the whole set keep ranges of offsets
(`PageBounds.keep`), and edges depend on the rows at the offsets of the range only.

* `Connection.edgesWithin_slice`: two ranges that hold the same offsets of the slice and of the set
  keep the same edges.
* `PageWindow.mem_of_keep`: the page of the whole set lies in the window.
* `PageWindow.keep_shown`: if the window fetches anything, both pages keep the same range.

Both statements except a page that is counted back from a cursor beyond the set
(`PageBounds.CountsBackPast`): its window ends at the cursor, the page at the end of the set.
-/

namespace RelaySql

variable {α : Type}

/-! ### Edges of a slice -/

/-- The elements of a slice, numbered from its start, are those the whole list has in its range. -/
theorem zipIdx_slice (xs : List α) (start count base : Nat) :
    ((xs.drop start).take count).zipIdx (base + start) =
      (xs.zipIdx base).filter fun p => base + start ≤ p.2 ∧ p.2 < base + start + count := by
  induction xs generalizing start count base with
  | nil => simp
  | cons x xs ih =>
      cases start with
      | zero =>
          cases count with
          | zero => simp
          | succ count =>
              have h := ih 0 count (base + 1)
              simp only [List.drop_zero, Nat.add_zero] at h
              simp only [List.drop_zero, List.take_succ_cons, Nat.add_zero, List.zipIdx_cons, h]
              rw [List.filter_cons_of_pos (by simp)]
              congr 1
              -- the bounds differ by the head alone, and every later number is above it
              refine List.filter_congr fun p hp => ?_
              have := List.le_snd_of_mem_zipIdx hp
              simp only [decide_eq_decide]
              omega
      | succ start =>
          have h := ih start count (base + 1)
          have hx : ¬ (base + (start + 1) ≤ base ∧ base < base + (start + 1) + count) :=
            fun hx => absurd hx.1 (Nat.not_le.mpr (Nat.lt_add_of_pos_right (Nat.succ_pos start)))
          rw [List.drop_succ_cons, List.zipIdx_cons, List.filter_cons_of_neg,
            show base + (start + 1) = base + 1 + start by omega, h]
          exact fun hd => hx (of_decide_eq_true hd)

namespace Connection

/-- **Edges depend on the offsets kept.**  If a range over a slice and a range over the whole list
hold the same offsets, they keep the same edges. -/
theorem edgesWithin_slice {xs : List α} {start count : Nat} {range whole : Span}
    (h : ∀ o, o < xs.length →
      (start ≤ o ∧ o < start + count ∧ range.contains o = true ↔ whole.contains o = true)) :
    edgesWithin range ((xs.drop start).take count) start = edgesWithin whole xs 0 := by
  have hz := zipIdx_slice xs start count 0
  rw [Nat.zero_add] at hz
  simp only [edgesWithin, hz, List.filterMap_filter]
  refine List.filterMap_congr fun p hp => ?_
  have ho := h p.2 (by simpa using List.snd_lt_add_of_mem_zipIdx hp)
  by_cases hw : whole.contains p.2 = true
  · obtain ⟨h₁, h₂, h₃⟩ := ho.mpr hw
    simp [h₁, h₂, h₃, hw]
  · by_cases hs : start ≤ p.2 ∧ p.2 < start + count
    · have hr : ¬ range.contains p.2 = true := fun hr => hw (ho.mp ⟨hs.1, hs.2, hr⟩)
      simp [hw, hr]
    · simp [hw, hs]

end Connection

/-! ### The window and the page of the whole set -/

theorem Span.contains_iff {s : Span} {o : Nat} :
    s.contains o = true ↔ s.start ≤ o ∧ o < s.stop := by
  simp [Span.contains]

/-- A sum that fits is not stopped. -/
theorem addUpTo64_of_le {a c : Nat} (h : a + c ≤ maxUInt64) : addUpTo64 a c = a + c :=
  Nat.min_eq_left h

/-- A sum within the row counts fits. -/
theorem addUpTo64_of_le_maxInt64 {a c : Nat} (h : a + c ≤ maxInt64) : addUpTo64 a c = a + c :=
  addUpTo64_of_le (Nat.le_trans h (by decide))

namespace PageBounds

/-- The page is counted back from a cursor beyond a set of `n` rows. -/
def CountsBackPast (b : PageBounds) (n : Nat) : Prop :=
  b.first = none ∧ b.last ≠ none ∧ ∃ before, b.before = some before ∧ n < before

theorem lower_le {b : PageBounds} (hb : b.Fits) : b.lower ≤ maxInt64 + 1 := by
  cases ha : b.after with
  | none => simp [lower, ha]
  | some a =>
      have := hb.after a ha
      simp only [lower, ha, addUpTo64]
      omega

/-- The first offset and a size make no sum that is stopped. -/
theorem lower_add_first {b : PageBounds} (hb : b.Fits) {first : Nat} (hf : b.first = some first) :
    addUpTo64 b.lower first = b.lower + first := by
  refine addUpTo64_of_le ?_
  have h₁ := lower_le hb
  have h₂ := hb.first first hf
  simp only [maxInt64, maxUInt64] at h₁ h₂ ⊢
  omega

/-! The range kept lies within the slice and within each bound. -/

theorem lower_le_start (b : PageBounds) (s : Span) : b.lower ≤ (b.keep s).start := by
  simp only [keep]
  split <;> omega

theorem start_le_start (b : PageBounds) (s : Span) : s.start ≤ (b.keep s).start := by
  simp only [keep]
  split <;> omega

theorem stop_le (b : PageBounds) (s : Span) : (b.keep s).stop ≤ s.stop := by
  simp only [keep]
  split <;> split <;> omega

theorem stop_le_before {b : PageBounds} {s : Span} {before : Nat} (h : b.before = some before) :
    (b.keep s).stop ≤ before := by
  simp only [keep, h]
  split <;> omega

theorem stop_le_first {b : PageBounds} {s : Span} {first : Nat} (h : b.first = some first) :
    (b.keep s).stop ≤ addUpTo64 (max s.start b.lower) first := by
  simp only [keep, h]
  exact Nat.min_le_right _ _

/-- A range that `first` does not cut ends with the slice or at the cursor. -/
theorem stop_keep {b : PageBounds} {s : Span}
    (h : ∀ first ∈ b.first, s.stop ≤ addUpTo64 (max s.start b.lower) first) :
    (b.keep s).stop = min s.stop (b.before.getD s.stop) := by
  rcases hf : b.first with _ | first
  · rcases hbe : b.before with _ | before <;> simp [keep, hf, hbe]
  · have hcut := h first hf
    rcases hbe : b.before with _ | before <;> simp only [keep, hf, hbe, Option.getD_none,
      Option.getD_some, Nat.min_self]
    · exact Nat.min_eq_left hcut
    · exact Nat.min_eq_left (Nat.le_trans (Nat.min_le_left _ _) hcut)

/-- A range begins with the slice, behind `after`, or where `last` counts back to. -/
theorem start_keep (b : PageBounds) (s : Span) :
    (b.keep s).start = max (max s.start b.lower) (b.last.elim 0 ((b.keep s).stop - ·)) := by
  rcases hl : b.last with _ | last <;> simp [keep, hl]

/-- The range kept depends on the first offset let through and on the end of the range. -/
theorem keep_ext {b : PageBounds} {s s' : Span}
    (hstart : max s.start b.lower = max s'.start b.lower)
    (hstop : (b.keep s).stop = (b.keep s').stop) : b.keep s = b.keep s' := by
  simp only [keep, hstart] at hstop ⊢
  rw [hstop]

end PageBounds

namespace PageWindow

/-- How many of `n` rows the window shows at most: the probe is not shown. -/
def size (w : PageWindow) (n : Nat) : Nat := (w.pageSize <|> w.limit).getD n

variable {b : PageBounds} {n : Nat}

/-- The window of a page counted from the front. -/
theorem ofBounds_first {first : Nat} (hf : b.first = some first) :
    (ofBounds b).offset = b.lower ∧ (ofBounds b).size n =
      match b.before with
      | none => first
      | some before => min (before - b.lower) first := by
  cases hb : b.before <;> simp [ofBounds, size, hf, hb]

/-- The window of a page counted back from a cursor. -/
theorem ofBounds_last {last before : Nat} (hf : b.first = none) (hl : b.last = some last)
    (hb : b.before = some before) :
    (ofBounds b).offset = max b.lower (before - last) ∧
      (ofBounds b).size n = before - max b.lower (before - last) := by
  simp [ofBounds, size, hf, hl, hb]

/-- The window of any other page. -/
theorem ofBounds_open (hf : b.first = none) (h : b.last = none ∨ b.before = none) :
    (ofBounds b).offset = b.lower ∧ (ofBounds b).size n =
      match b.before with
      | none => n
      | some before => before - b.lower := by
  rcases h with h | h
  · cases hb : b.before <;> simp [ofBounds, size, hf, h, hb]
  · cases hl : b.last <;> simp [ofBounds, size, hf, hl, h]

/-- A window begins behind the first offset let through only where it is counted back from a cursor. -/
theorem offset_eq (b : PageBounds) : (ofBounds b).offset = b.lower ∨
    b.first = none ∧ ∃ last ∈ b.last, ∃ before ∈ b.before,
      (ofBounds b).offset = max b.lower (before - last) := by
  rcases hf : b.first with _ | first <;> rcases hl : b.last with _ | last <;>
    rcases hbe : b.before with _ | before <;> simp [ofBounds, hf, hl, hbe]

theorem lower_le_offset (b : PageBounds) : b.lower ≤ (ofBounds b).offset := by
  rcases offset_eq b with ho | ⟨-, last, -, before, -, ho⟩
  · exact Nat.le_of_eq ho.symm
  · rw [ho]
    exact Nat.le_max_left _ _

theorem offset_le (hb : b.Fits) : (ofBounds b).offset ≤ maxInt64 + 1 := by
  have hlower := PageBounds.lower_le hb
  rcases offset_eq b with ho | ⟨-, last, -, before, hbe, ho⟩ <;> rw [ho]
  · exact hlower
  · have hbefore := hb.before before hbe
    omega

theorem before_le (hx : ¬ b.CountsBackPast n) {last before : Nat} (hf : b.first = none)
    (hl : b.last = some last) (hb : b.before = some before) : before ≤ n :=
  Nat.le_of_not_lt fun hlt => hx ⟨hf, by simp [hl], before, hb, hlt⟩

/-- **The page of the whole set lies in the window.** -/
theorem mem_of_keep (hb : b.Fits) (hx : ¬ b.CountsBackPast n) {o : Nat}
    (h : (b.keep ⟨0, n⟩).contains o = true) :
    (ofBounds b).offset ≤ o ∧ o < (ofBounds b).offset + (ofBounds b).size n := by
  obtain ⟨hstart, hstop⟩ := Span.contains_iff.mp h
  have hlower := Nat.le_trans (b.lower_le_start ⟨0, n⟩) hstart
  have hn := Nat.lt_of_lt_of_le hstop (b.stop_le ⟨0, n⟩)
  rcases hf : b.first with _ | first
  · by_cases hopen : b.last = none ∨ b.before = none
    · obtain ⟨h₁, h₂⟩ := ofBounds_open (n := n) hf hopen
      rw [h₁, h₂]
      refine ⟨hlower, ?_⟩
      rcases hbe : b.before with _ | before
      · exact Nat.lt_of_lt_of_le hn (Nat.le_add_left _ _)
      · have hbefore := Nat.lt_of_lt_of_le hstop (PageBounds.stop_le_before hbe)
        simp only
        omega
    · obtain ⟨last, hl⟩ := Option.ne_none_iff_exists'.mp fun h => hopen (.inl h)
      obtain ⟨before, hbe⟩ := Option.ne_none_iff_exists'.mp fun h => hopen (.inr h)
      obtain ⟨h₁, h₂⟩ := ofBounds_last (n := n) hf hl hbe
      have hle := before_le hx hf hl hbe
      have hbefore := Nat.lt_of_lt_of_le hstop (PageBounds.stop_le_before hbe)
      -- the page ends at the cursor, which lies in the set
      have hlast : before - last ≤ o := by
        simp only [PageBounds.keep, hf, hl, hbe, Nat.min_eq_right hle] at hstart
        exact Nat.le_trans (Nat.le_max_right _ _) hstart
      rw [h₁, h₂]
      omega
  · obtain ⟨h₁, h₂⟩ := ofBounds_first (n := n) hf
    have hfirst := Nat.lt_of_lt_of_le hstop (PageBounds.stop_le_first hf)
    rw [Nat.zero_max, PageBounds.lower_add_first hb hf] at hfirst
    rw [h₁, h₂]
    refine ⟨hlower, ?_⟩
    rcases hbe : b.before with _ | before
    · exact hfirst
    · have hbefore := Nat.lt_of_lt_of_le hstop (PageBounds.stop_le_before hbe)
      simp only
      omega

/-- **A window that fetches anything keeps the page of the whole set.**  A page counted from the
front fetches its probe even where it shows nothing. -/
theorem keep_shown (hb : b.Fits) (hx : ¬ b.CountsBackPast n)
    (ho : (ofBounds b).offset < n) (hs : b.first = none → 0 < (ofBounds b).size n) :
    b.keep ⟨(ofBounds b).offset,
      (ofBounds b).offset + min ((ofBounds b).size n) (n - (ofBounds b).offset)⟩ =
      b.keep ⟨0, n⟩ := by
  rcases hf : b.first with _ | first
  · have hs := hs hf
    by_cases hopen : b.last = none ∨ b.before = none
    · obtain ⟨h₁, h₂⟩ := ofBounds_open (n := n) hf hopen
      simp only [h₁, h₂] at ho hs ⊢
      refine PageBounds.keep_ext (by simp) ?_
      rcases hbe : b.before with _ | before <;>
        simp only [PageBounds.keep, hf, hbe] at hs ⊢ <;> omega
    · obtain ⟨last, hl⟩ := Option.ne_none_iff_exists'.mp fun h => hopen (.inl h)
      obtain ⟨before, hbe⟩ := Option.ne_none_iff_exists'.mp fun h => hopen (.inr h)
      obtain ⟨h₁, h₂⟩ := ofBounds_last (n := n) hf hl hbe
      have hle := before_le hx hf hl hbe
      rw [h₂] at hs
      -- the window ends at the cursor, which lies in the set
      have hstop : max b.lower (before - last) +
          min (before - max b.lower (before - last)) (n - max b.lower (before - last)) =
          before := by
        rw [Nat.min_eq_left (Nat.sub_le_sub_right hle _)]
        exact Nat.add_sub_cancel' (Nat.le_of_lt (Nat.sub_pos_iff_lt.mp hs))
      rw [h₁, h₂, hstop]
      simp only [PageBounds.keep, hf, hl, hbe, Nat.min_self, Nat.min_eq_right hle, Span.mk.injEq,
        and_true]
      omega
  · obtain ⟨h₁, h₂⟩ := ofBounds_first (n := n) hf
    have hadd := PageBounds.lower_add_first hb hf
    simp only [h₁, h₂] at ho ⊢
    refine PageBounds.keep_ext (by simp) ?_
    rcases hbe : b.before with _ | before <;>
      simp only [PageBounds.keep, hf, hbe, Nat.max_self, Nat.zero_max, hadd] <;> omega

end PageWindow

end RelaySql
