import RelaySql.Proofs.Page.Info
import RelaySql.Proofs.Page.Visits
import RelaySql.Proofs.Resolver.PerParent

/-!
# Pages — with totals and without

A source that counts its rows tells the size of the set with each of them.  Of one that does not, the
size is inferred from the number of rows: it is exact where fewer rows came than were asked for, and
where the probe came it reaches one row behind the page.  Of the size a page tells only whether rows
follow it, and for that the probe is enough.

* `Connection.within_beyond`: of the size of its set a page tells only whether it reaches beyond.
* `Connection.within_learned`: so it tells the same with the size that is inferred from a probe.
* `Resolver.resolve_totals_eq`: both sources give the same page.

A page that ends at a cursor, without `first`, has no probe, and where its window is full nothing is
known of the rows behind it.
-/

namespace RelaySql

namespace Connection

variable {α : Type} {b : PageBounds}

/-- **Of the size of its set a page tells only whether it reaches beyond the slice.** -/
theorem within_beyond {slice : List α} {start m m' : Nat} (h : start + slice.length ≤ maxUInt64)
    (hm : start + slice.length < m) (hm' : start + slice.length < m') :
    within slice b ⟨some m, start⟩ = within slice b ⟨some m', start⟩ := by
  have hstop : _ ≤ start + slice.length := b.stop_le ⟨start, start + slice.length⟩
  have hinfo : ∀ n, start + slice.length < n →
      (within slice b ⟨some n, start⟩).pageInfo =
        ⟨true, 0 < (b.keep ⟨start, start + slice.length⟩).start,
          (within slice b ⟨some n, start⟩).edges.head?.map Edge.cursor,
          (within slice b ⟨some n, start⟩).edges.getLast?.map Edge.cursor⟩ := by
    intro n hn
    have hnext : (b.keep ⟨start, start + slice.length⟩).stop < max n (start + slice.length) := by
      omega
    have hset : 0 < max n (start + slice.length) := by omega
    simp only [pageInfo_within h, info, Option.getD_some, hnext, hset, decide_true, Bool.and_true]
  calc within slice b ⟨some m, start⟩
      = ⟨(within slice b ⟨some m, start⟩).edges, (within slice b ⟨some m, start⟩).pageInfo⟩ := rfl
    _ = ⟨(within slice b ⟨some m', start⟩).edges, (within slice b ⟨some m', start⟩).pageInfo⟩ := by
      rw [hinfo m hm, hinfo m' hm']
      rfl

/-- **With the size inferred a page tells what it tells with the size**, where a probe is fetched or
all rows are. -/
theorem within_learned (hb : b.Fits) (h : b.first ≠ none ∨ b.before = none) {xs : List α}
    (hn : xs.length ≤ maxUInt64) :
    within ((xs.drop (PageWindow.ofBounds b).offset).take ((PageWindow.ofBounds b).size xs.length)) b
        ⟨(PageWindow.ofBounds b).learned false xs.length, (PageWindow.ofBounds b).offset⟩ =
      within ((xs.drop (PageWindow.ofBounds b).offset).take
          ((PageWindow.ofBounds b).size xs.length)) b
        ⟨(PageWindow.ofBounds b).learned true xs.length, (PageWindow.ofBounds b).offset⟩ := by
  by_cases hfetched : (PageWindow.ofBounds b).fetched xs.length = 0
  · simp only [PageWindow.learned, hfetched, ne_eq, not_true_eq_false, and_false, if_false]
  · have hlt := PageWindow.offset_lt_of_fetched hfetched
    rw [PageWindow.offset_of_probed hb h] at hlt ⊢
    have hsilent : (PageWindow.ofBounds b).learned false xs.length =
        some (min xs.length (b.lower + (PageWindow.ofBounds b).size xs.length + 1)) := by
      rw [PageWindow.learned, if_neg (by simp),
        PageWindow.inferredLength_of_probed hb h (Nat.le_of_lt hlt) hn]
    have hcounting : (PageWindow.ofBounds b).learned true xs.length = some xs.length := by
      rw [PageWindow.learned, if_pos ⟨rfl, hfetched⟩]
    rw [hsilent, hcounting]
    rcases Nat.lt_or_ge (b.lower + (PageWindow.ofBounds b).size xs.length) xs.length with hlt | hge
    -- the probe came, and the set reaches beyond the page with it as with all rows
    · refine within_beyond ?_ ?_ ?_ <;>
        simp only [List.length_take, List.length_drop] <;> omega
    · rw [Nat.min_eq_left (by omega)]

end Connection

namespace Resolver

variable {C : Type} {r : Resolver C} {args : Arguments} {context : C} {q : ComposedQuery}
  {rows : List Row} {b : PageBounds}

/-- **Totals make no difference to a page** that is counted from the front or has no cursor to end
at.  Two sources hold the same list of rows, no more than 64 bits count, and one of them tells the size
of the list with each row; over both the field resolves to the same page. -/
theorem resolve_totals_eq {counting silent : Source} (hp : r.paginated = true)
    (hcounting : counting.Lists r.table true rows) (hsilent : silent.Lists r.table false rows)
    (hn : rows.length ≤ maxUInt64) (hq : r.compose args context none = .ok q)
    (hb : q.request.bounds = .ok b) (h : b.first ≠ none ∨ b.before = none) (t u : Trace) :
    ∃ page, PageRequest.ofArguments args = .ok q.request ∧
      (((r.withSource counting).resolve args context).after t).1 = .ok (.connection page) ∧
      (((r.withSource silent).resolve args context).after u).1 = .ok (.connection page) := by
  obtain ⟨b', -, hr, hb', hfits, -⟩ := bounds_of_compose hq hp
  obtain rfl : b' = b := Except.ok.inj (hb'.symm.trans hb)
  obtain ⟨v, hpage⟩ := resolve_window (r := r.withSource counting) hq hp hb hcounting t
  obtain ⟨w, hpage'⟩ := resolve_window (r := r.withSource silent) hq hp hb hsilent u
  rw [Connection.within_learned hfits h hn] at hpage'
  exact ⟨_, hr, congrArg Prod.fst hpage, congrArg Prod.fst hpage'⟩

theorem resolve_totals_eq_betweenCursors :
    ∃ page, (((ofFourRows.withSource (.ofTables "memory" [("item", fourRows)] true)).resolve
          betweenCursors ()).after []).1 = .ok (.connection page) ∧
      (((ofFourRows.withSource (.ofTables "memory" [("item", fourRows)] false)).resolve
          betweenCursors ()).after []).1 = .ok (.connection page) := by
  obtain ⟨q, hq, hbounds⟩ : ∃ q, ofFourRows.compose betweenCursors () none = .ok q ∧
      q.request.bounds = .ok ⟨some 2, some 0, some 1, some 3⟩ := ⟨_, rfl, rfl⟩
  have hlists : ∀ totals, (Source.ofTables "memory" [("item", fourRows)] totals).Lists
      ofFourRows.table totals fourRows := fun _ => Source.lists_ofTables rfl (by decide)
  obtain ⟨page, -, hpage⟩ := resolve_totals_eq rfl (hlists true) (hlists false) (by decide) hq
    hbounds (.inl (by simp)) [] []
  exact ⟨page, hpage⟩

end Resolver

end RelaySql
