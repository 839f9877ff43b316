import RelaySql.Proofs.Page.Info

/-!
# Pages — slices that are enough for a page

The page of a whole set is made from a slice of it too, if the slice holds what the page needs.  Its
end is needed as far as `before` and `first` reach.  Of its front everything behind `after` is
needed, since `first` counts from there; only a page without `first` is counted from its end, so
that the slice may begin where `last` counts back to.

* `PageBounds.Suffices`: the slices that are enough.
* `PageBounds.keep_suffices`: a slice that is enough keeps the range that the whole set keeps.
* `Connection.ofSlice_suffices`: so it gives the same page, also where the page is empty.
-/

namespace RelaySql

namespace PageBounds

/-- The first offset behind `after`. -/
def behind (b : PageBounds) : Nat := b.after.elim 0 (· + 1)

/-- Where the rows before `before` end in a set of `n` rows. -/
def upTo (b : PageBounds) (n : Nat) : Nat := min n (b.before.getD n)

/-- The rows from `s` to `t` of a set of `n` rows are enough for the page. -/
structure Suffices (b : PageBounds) (n s t : Nat) : Prop where
  /-- They reach up to the end of the set, to `before`, or as far as `first` counts. -/
  stop : min (b.upTo n) (b.first.elim n (b.behind + ·)) ≤ t
  /-- They begin no later than the rows behind `after`, or no later than `last` counts back. -/
  start : s ≤ b.behind ∨
    b.first = none ∧ ∃ last ∈ b.last, s ≤ max b.behind (b.upTo n - last)

instance (b : PageBounds) (n s t : Nat) : Decidable (b.Suffices n s t) :=
  decidable_of_iff
    (min (b.upTo n) (b.first.elim n (b.behind + ·)) ≤ t ∧ (s ≤ b.behind ∨
      b.first = none ∧ ∃ last ∈ b.last, s ≤ max b.behind (b.upTo n - last)))
    ⟨fun h => ⟨h.1, h.2⟩, fun h => ⟨h.1, h.2⟩⟩

variable {b : PageBounds} {n s t : Nat}

/-- No cursor lies so far out that the offset behind it is stopped. -/
theorem lower_eq_behind (h : ∀ after ∈ b.after, after ≤ maxInt64) : b.lower = b.behind := by
  rcases ha : b.after with _ | after
  · simp only [lower, behind, ha, Option.elim_none]
  · have hle := h after ha
    simp only [lower, behind, ha, Option.elim_some]
    refine addUpTo64_of_le ?_
    simp only [maxInt64, maxUInt64] at hle ⊢
    omega

/-- A range ends with the slice, at the cursor, or where `first` caps it. -/
theorem stop_eq (b : PageBounds) (s : Span) :
    (b.keep s).stop = min (b.upTo s.stop)
      (b.first.elim s.stop (addUpTo64 (max s.start b.lower) ·)) := by
  rcases hbe : b.before with _ | before <;> rcases hf : b.first with _ | first <;>
    simp only [keep, upTo, hbe, hf, Option.getD_none, Option.getD_some, Option.elim_none,
      Option.elim_some] <;> omega

/-- A slice that is enough ends behind the page of the whole set, so both pages end together. -/
theorem stop_suffices (hlower : b.lower = b.behind) (hn : n ≤ maxUInt64) (ht : t ≤ n)
    (h : b.Suffices n s t) : (b.keep ⟨s, t⟩).stop = (b.keep ⟨0, n⟩).stop := by
  obtain ⟨hstop, hstart⟩ := h
  rw [stop_eq, stop_eq, hlower]
  rcases hf : b.first with _ | first
  · simp only [hf, Option.elim_none] at hstop ⊢
    rcases hbe : b.before with _ | before <;>
      simp only [upTo, hbe, Option.getD_none, Option.getD_some] at hstop ⊢ <;> omega
  · -- `first` counts from the same offset in both
    have hfront : s ≤ b.behind := hstart.resolve_right fun h => by
      rw [hf] at h
      cases h.1
    simp only [hf, Option.elim_some, addUpTo64] at hstop ⊢
    rcases hbe : b.before with _ | before <;>
      simp only [upTo, hbe, Option.getD_none, Option.getD_some] at hstop ⊢ <;> omega

/-- **A slice that is enough keeps the range that the whole set keeps.** -/
theorem keep_suffices (hlower : b.lower = b.behind) (hn : n ≤ maxUInt64) (ht : t ≤ n)
    (h : b.Suffices n s t) : b.keep ⟨s, t⟩ = b.keep ⟨0, n⟩ := by
  have hstop := stop_suffices hlower hn ht h
  rcases h.start with hfront | ⟨hf, last, hl, hback⟩
  · refine keep_ext ?_ hstop
    simp only [hlower]
    omega
  · -- both pages are counted back from the end that they share
    have hend : (b.keep ⟨0, n⟩).stop = b.upTo n := by
      rw [stop_eq, hf, Option.elim_none]
      exact Nat.min_eq_left (Nat.min_le_left _ _)
    have hstart : (b.keep ⟨s, t⟩).start = (b.keep ⟨0, n⟩).start := by
      rw [start_keep, start_keep, hstop, hend, hlower, Option.mem_def.mp hl]
      simp only [Option.elim_some]
      omega
    exact congrArg₂ Span.mk hstart hstop

end PageBounds

namespace Connection

variable {α : Type} {xs : List α} {b : PageBounds} {s t : Nat}

/-- **The page of a slice that is enough** is the page of the whole set. -/
theorem within_suffices (hlower : b.lower = b.behind) (hn : xs.length ≤ maxUInt64) (hst : s ≤ t)
    (ht : t ≤ xs.length) (h : b.Suffices xs.length s t) :
    within ((xs.drop s).take (t - s)) b ⟨some xs.length, s⟩ =
      within xs b ⟨some xs.length, 0⟩ := by
  have hlength : s + ((xs.drop s).take (t - s)).length = t := by
    rw [List.length_take, List.length_drop]
    omega
  have hkeep := PageBounds.keep_suffices hlower hn ht h
  have hslice : addUpTo64 s ((xs.drop s).take (t - s)).length = t := by
    rw [addUpTo64_of_le (by omega), hlength]
  have hwhole : addUpTo64 0 xs.length = xs.length := by
    rw [addUpTo64_of_le (by omega), Nat.zero_add]
  have hedges : edgesWithin (b.keep ⟨0, xs.length⟩) ((xs.drop s).take (t - s)) s =
      edgesWithin (b.keep ⟨0, xs.length⟩) xs 0 := by
    refine edgesWithin_slice fun o _ => ⟨fun h => h.2.2, fun ho => ?_⟩
    -- the range that is kept lies in the slice
    have hstart := b.start_le_start ⟨s, t⟩
    have hstop := b.stop_le ⟨s, t⟩
    rw [hkeep] at hstart hstop
    obtain ⟨hlo, hhi⟩ := Span.contains_iff.mp ho
    simp only at hstart hstop
    exact ⟨by omega, by omega, ho⟩
  simp only [within, hslice, hwhole, hkeep, hedges, Option.getD_some, Nat.max_eq_left ht,
    Nat.max_self]

/-- **A slice that is enough gives the page of the whole set**: the same edges and the same page
info, also where there are no edges. -/
theorem ofSlice_suffices {request : PageRequest} (hb : request.bounds = .ok b)
    (hn : xs.length ≤ maxUInt64) (hst : s ≤ t) (ht : t ≤ xs.length)
    (h : b.Suffices xs.length s t) :
    ∃ page, ofSlice ((xs.drop s).take (t - s)) request ⟨some xs.length, s⟩ = .ok page ∧
      ofList xs request = .ok page := by
  obtain ⟨-, hafter, -⟩ := PageRequest.bounds_eq_ok hb
  have hlower : b.lower = b.behind := PageBounds.lower_eq_behind fun after ha =>
    PageRequest.offset_le (hafter.trans (congrArg _ ha))
  refine ⟨within xs b ⟨some xs.length, 0⟩, ?_, ?_⟩
  · rw [ofSlice, hb, ← within_suffices hlower hn hst ht h]
    rfl
  · rw [ofList, ofSlice, hb]
    rfl

/-- The last two rows between two cursors, from a slice that begins behind the first of them. -/
theorem ofSlice_suffices_lateSlice :
    ∃ page, ofSlice ["d", "e"] ⟨none, some (.ofOffset 0), some 2, some (.ofOffset 5)⟩
        ⟨some 6, 3⟩ = .ok page ∧
      ofList ["a", "b", "c", "d", "e", "f"]
        ⟨none, some (.ofOffset 0), some 2, some (.ofOffset 5)⟩ = .ok page ∧
      page.nodes = ["d", "e"] := by
  have hbounds : PageRequest.bounds ⟨none, some (.ofOffset 0), some 2, some (.ofOffset 5)⟩ =
      .ok ⟨none, some 0, some 2, some 5⟩ := rfl
  have hlength : ["a", "b", "c", "d", "e", "f"].length ≤ maxUInt64 := by decide
  obtain ⟨page, hslice, hwhole⟩ := ofSlice_suffices (s := 3) (t := 5) hbounds hlength (by decide)
    (by decide) (by decide)
  refine ⟨page, hslice, hwhole, ?_⟩
  cases hwhole
  rfl

end Connection

end RelaySql
