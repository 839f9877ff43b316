import RelaySql.Proofs.Page.Slice
import RelaySql.Proofs.Resolver.Compose
import RelaySql.Proofs.Run
import RelaySql.Proofs.Source.Rows

/-!
# Pages — from the rows a window fetched to a page

* `PageWindow.shown_page`: of the rows that a source skips to and takes, those that are shown.
* `ComposedQuery.finish_fetched`: the page of the rows that a window fetched.
* `Resolver.resolve_of_lists`: a field over a source of one list resolves to the value of the rows
  that it asks for.
-/

namespace RelaySql

namespace PageWindow

variable {b : PageBounds}

/-- The rows without the probe. -/
def shown {α : Type} (w : PageWindow) (rows : List α) : List α :=
  match w.pageSize with
  | some size => rows.take size
  | none => rows

theorem shown_map {α β : Type} (w : PageWindow) (f : α → β) (rows : List α) :
    w.shown (rows.map f) = (w.shown rows).map f := by
  simp only [shown]
  cases w.pageSize <;> simp [List.map_take]

theorem mem_of_mem_shown {α : Type} {w : PageWindow} {rows : List α} {row : α}
    (h : row ∈ w.shown rows) : row ∈ rows := by
  simp only [shown] at h
  split at h
  · exact List.mem_of_mem_take h
  · exact h

/-- A place comes with the visible rows. -/
theorem shown_of_place {w : PageWindow} {rows visible : List Row} {p : Placement}
    (h : w.place rows = .ok (visible, p)) : visible = (w.shown rows).map Row.visible := by
  cases rows with
  | nil =>
      cases h
      rfl
  | cons row rest =>
      obtain ⟨t, -, h⟩ := Except.bind_eq_ok.mp h
      cases h
      rfl

/-- The place of rows that all tell the same size, or none. -/
theorem place_eq (w : PageWindow) {rows : List Row} {t : Option Nat}
    (h : ∀ row ∈ rows, total row = .ok t) :
    w.place rows = .ok ((w.shown rows).map Row.visible,
      ⟨(if rows = [] then none else t) <|> w.inferredLength rows.length, w.offset⟩) := by
  cases rows with
  | nil => rfl
  | cons row rest =>
      simp only [place, h row List.mem_cons_self, List.cons_ne_nil, if_false]
      rfl

/-- The probe is fetched beside the page. -/
theorem pageSize_le_limit (hb : b.Fits) {size : Nat} (hs : (ofBounds b).pageSize = some size) :
    ∃ limit, (ofBounds b).limit = some limit ∧ size ≤ limit := by
  rcases hf : b.first with _ | first
  · rcases hl : b.last with _ | last <;> rcases hbe : b.before with _ | before <;>
      simp [ofBounds, hf, hl, hbe] at hs
  · have hfits := hb.first first hf
    simp only [maxInt64] at hfits
    rcases hbe : b.before with _ | before <;> simp only [ofBounds, hf, hbe, Option.map_some,
      Option.map_none, Option.some.injEq] at hs ⊢ <;>
      refine ⟨_, rfl, ?_⟩ <;> simp only [addUpTo64, maxUInt64] <;> omega

/-- **The rows shown** of those that a source skips to and takes. -/
theorem shown_page {α : Type} (hb : b.Fits) (s : Statement) (rows : List α) :
    (ofBounds b).shown (Source.page (Resolver.windowed s (ofBounds b)) rows) =
      (rows.drop (ofBounds b).offset).take ((ofBounds b).size rows.length) := by
  simp only [Source.page, Resolver.windowed_offset, shown, size]
  rcases hs : (ofBounds b).pageSize with _ | size
  · rcases hl : (ofBounds b).limit with _ | limit
    · simp only [Resolver.windowed, hl, Option.orElse_eq_orElse, Option.orElse_none,
        Option.getD_none]
      rw [List.take_of_length_le (by simp)]
    · simp [Resolver.windowed, hl]
  · obtain ⟨limit, hl, hle⟩ := pageSize_le_limit hb hs
    simp [Resolver.windowed, hl, List.take_take, Nat.min_eq_left hle]

end PageWindow

namespace ComposedQuery

/-- **The page of the rows that a window fetched.**  The answer shows the rows that the statement
skips to and takes, and each of its rows tells the same size of the set, or none. -/
theorem finish_fetched {b : PageBounds} (hb : b.Fits) {request : PageRequest}
    (hr : request.bounds = .ok b) (s : Statement) {rows answer : List Row} {t : Option Nat}
    (hv : answer.map Row.visible = Source.page (Resolver.windowed s (.ofBounds b)) rows)
    (ht : ∀ row ∈ answer, PageWindow.total row = .ok t) :
    finish ⟨Resolver.windowed s (.ofBounds b), some (.ofBounds b), request⟩ answer =
      .ok (.connection (Connection.within
        ((rows.drop (PageWindow.ofBounds b).offset).take
          ((PageWindow.ofBounds b).size rows.length)) b
        ⟨(if answer = [] then none else t) <|>
          (PageWindow.ofBounds b).inferredLength answer.length,
          (PageWindow.ofBounds b).offset⟩)) := by
  have hshown := PageWindow.shown_page hb s rows
  rw [← hv, PageWindow.shown_map] at hshown
  simp only [finish, PageWindow.place_eq _ ht, Connection.ofSlice, hr, hshown]
  rfl

end ComposedQuery

/-- **A field over a source of one list** resolves to the value of the rows that it asks for. -/
theorem Resolver.resolve_of_lists {C : Type} {r : Resolver C} {args : Arguments} {context : C}
    {q : ComposedQuery} {totals : Bool} {rows : List Row}
    (hq : r.compose args context none = .ok q) (hsource : r.source.Lists r.table totals rows)
    (t : Trace) :
    ∃ answer u, List.Forall₂ (Row.ReturnedAs (q.statement.countTotal && totals) rows.length)
        (Source.page q.statement rows) answer ∧
      (r.resolve args context).after t = (q.finish answer, u) := by
  obtain ⟨htable, hjoin⟩ := statement_of_compose hq
  obtain ⟨answer, hanswer, hreturned⟩ :=
    hsource (t.statements r.source.name) q.statement htable hjoin
  refine ⟨answer, t ++ r.asking q.statement, hreturned, ?_⟩
  rw [resolve_after hq, hanswer]

end RelaySql
