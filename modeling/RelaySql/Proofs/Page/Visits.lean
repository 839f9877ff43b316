import RelaySql.Proofs.Page.Edges
import RelaySql.Proofs.Page.Learned
import RelaySql.Proofs.Page.Walk
import RelaySql.Proofs.Page.Whole

/-!
# Pages — a walk visits every row once

Over a source that holds a list of rows, a page of a walk takes as many rows as it can off those that
are left, at the end it walks from, and its last cursor tells the place of the next page.

* `Way.forward_step`, `Way.backward_step`: one page of a walk.
* `Resolver.walk_forward`, `Resolver.walk_backward`: the pages of a walk hold every row once.
-/

namespace RelaySql

namespace Resolver

variable {C : Type} {r : Resolver C} {context : C}

/-- The filter of the field, if it has one, never fails and never gives a blank condition. -/
def FilterAnswers (r : Resolver C) (context : C) : Prop :=
  ∀ condition, r.filter = some condition → ∀ args, ∃ answer,
    condition r.table args context = .ok answer ∧ ∀ text ∈ answer, Text.isBlank text = false

theorem composeFilter_of_answers (h : r.FilterAnswers context) (args : Arguments) :
    ∃ filter, r.composeFilter args context = .ok filter := by
  rcases hf : r.filter with _ | condition
  · exact ⟨none, by simp only [composeFilter, hf]⟩
  · obtain ⟨answer, hanswer, hblank⟩ := h condition hf args
    refine ⟨answer, ?_⟩
    simp only [composeFilter, hf, hanswer]
    cases answer with
    | none => rfl
    | some text =>
        simp only [bind, Except.bind, hblank text rfl]
        rfl

/-- The field serves a list of rows in pages: its filter does not fail, and its source answers from
the rows by skipping and taking. -/
structure Serves (r : Resolver C) (context : C) (totals : Bool) (rows : List Row) : Prop where
  paginated : r.paginated = true
  filter : r.FilterAnswers context
  source : r.source.Lists r.table totals rows
  fits : rows.length ≤ maxInt64

/-- Accepted arguments ask for such a page, in a set whose size is told or inferred from the number of
rows fetched. -/
theorem resolve_fetched {args : Arguments} {request : PageRequest} {b : PageBounds} {totals : Bool}
    {rows : List Row} (h : r.Serves context totals rows)
    (hr : PageRequest.ofArguments args = .ok request) (hrb : request.bounds = .ok b) (t : Trace) :
    ∃ length u, (r.resolve args context).after t = (.ok (.connection (Connection.within
        ((rows.drop (PageWindow.ofBounds b).offset).take
          ((PageWindow.ofBounds b).size rows.length)) b
        ⟨length, (PageWindow.ofBounds b).offset⟩)), u) ∧
      (length = some rows.length ∨ length = (PageWindow.ofBounds b).inferredLength
        ((PageWindow.ofBounds b).fetched rows.length)) := by
  obtain ⟨filter, hf⟩ := composeFilter_of_answers h.filter args
  have hq : r.compose args context none =
      .ok ⟨windowed (r.base none filter) (.ofBounds b), some (.ofBounds b), request⟩ := by
    simp only [compose_eq, joinFor, hf, query, h.paginated, hr, hrb, bind, Except.bind]
    rfl
  obtain ⟨u, hresult⟩ := resolve_window hq h.paginated hrb h.source t
  refine ⟨_, u, hresult, ?_⟩
  rw [PageWindow.learned]
  split
  · exact .inl rfl
  · exact .inr rfl

end Resolver

/-! ### Walking forward -/

section Forward

variable {b : PageBounds} {size : Nat} (hb : b.Fits) (hf : b.first = some size) (hl : b.last = none)
  (hbe : b.before = none)

include hb hf hl hbe in
/-- On the way forward a page keeps all rows that it shows. -/
theorem Connection.kept_forward {α : Type} {slice : List α} (hslice : slice.length ≤ size)
    (length : Option Nat) :
    kept slice b ⟨length, b.lower⟩ = ⟨b.lower, b.lower + slice.length⟩ := by
  have hadd := PageBounds.lower_add_first hb hf
  have hsum : addUpTo64 b.lower slice.length = b.lower + slice.length := by
    simp only [addUpTo64] at hadd ⊢
    omega
  simp only [kept, PageBounds.keep, hf, hl, hbe, hsum, Nat.max_self, hadd]
  congr 1
  omega

include hb hf hl hbe in
/-- **One page on the way forward** shows all rows of its slice, and tells whether the set of `n` rows
goes on behind them. -/
theorem Connection.within_forward {α : Type} {slice : List α} {n : Nat} (hlower : b.lower ≤ n)
    (hn : n ≤ maxInt64) (hslice : slice.length = min size (n - b.lower)) {length : Option Nat}
    (hlength : length = some n ∨
      length = (PageWindow.ofBounds b).inferredLength ((PageWindow.ofBounds b).fetched n)) :
    (within slice b ⟨length, b.lower⟩).edges = edgesFrom b.lower slice ∧
      (within slice b ⟨length, b.lower⟩).pageInfo.hasNextPage = decide (size < n - b.lower) := by
  have hkept := kept_forward hb hf hl hbe (show slice.length ≤ size by omega) length
  have hsum : addUpTo64 b.lower slice.length = b.lower + slice.length :=
    addUpTo64_of_le_maxInt64 (by omega)
  constructor
  · rw [edges_within, hkept, Nat.sub_self, List.drop_zero, Nat.add_sub_cancel_left,
      List.take_length]
  · have hnext : (within slice b ⟨length, b.lower⟩).pageInfo.hasNextPage =
        decide ((kept slice b ⟨length, b.lower⟩).stop <
          max (length.getD (addUpTo64 b.lower slice.length)) (addUpTo64 b.lower slice.length)) := rfl
    rw [hnext, hkept, hsum, decide_eq_decide, hslice]
    rcases hlength with rfl | rfl
    · simp only [Option.getD_some]
      omega
    · rw [PageWindow.inferredLength_of_probed hb (.inr hbe) hlower (Nat.le_trans hn (by decide)),
        (PageWindow.ofBounds_first (n := n) hf).2, hbe]
      simp only [Option.getD_some]
      omega

end Forward

/-! ### Walking backward -/

section Backward

variable {b : PageBounds} {size : Nat} (hb : b.Fits) (hf : b.first = none) (ha : b.after = none)
  (hl : b.last = some size)

include ha in
theorem PageBounds.lower_backward : b.lower = 0 := by
  simp only [lower, ha]

include hf ha hl in
/-- On the way back a page of the whole set keeps the rows before its cursor. -/
theorem Connection.kept_backward {α : Type} {rows : List α} (hn : rows.length ≤ maxInt64)
    (hbefore : b.before.getD rows.length ≤ rows.length) (length : Option Nat) :
    kept rows b ⟨length, 0⟩ =
      ⟨b.before.getD rows.length - size, b.before.getD rows.length⟩ := by
  have hsum : addUpTo64 0 rows.length = rows.length := by
    rw [addUpTo64_of_le_maxInt64 (by omega), Nat.zero_add]
  rcases hbe : b.before with _ | before <;>
    simp only [hbe, Option.getD_none, Option.getD_some] at hbefore ⊢ <;>
    simp only [kept, PageBounds.keep, hf, hl, hbe, hsum, PageBounds.lower_backward ha, Nat.max_self,
      Nat.zero_max, Nat.min_eq_right hbefore]

include hf ha hl in
/-- The window of a page on the way back ends with its rows, and what it keeps begins with them. -/
theorem Connection.start_kept_backward {α : Type} {slice : List α} {n : Nat} (hn : n ≤ maxInt64)
    (hbefore : b.before.getD n ≤ n)
    (hslice : slice.length = min ((PageWindow.ofBounds b).size n)
      (n - (PageWindow.ofBounds b).offset)) (length : Option Nat) :
    (kept slice b ⟨length, (PageWindow.ofBounds b).offset⟩).start = b.before.getD n - size ∧
      b.before.getD n ≤ addUpTo64 (PageWindow.ofBounds b).offset slice.length := by
  have hlower := PageBounds.lower_backward ha
  rcases hbe : b.before with _ | before
  · obtain ⟨h₁, h₂⟩ := PageWindow.ofBounds_open (n := n) hf (.inr hbe)
    rw [hlower] at h₁
    simp only [hbe] at h₂
    have hlength : slice.length = n := by
      rw [hslice, h₁, h₂]
      omega
    have hsum : addUpTo64 0 n = n := by
      rw [addUpTo64_of_le_maxInt64 (by omega), Nat.zero_add]
    simp only [kept, PageBounds.keep, hf, hl, hbe, hlower, h₁, hlength, hsum, Option.getD_none]
    omega
  · obtain ⟨h₁, h₂⟩ := PageWindow.ofBounds_last (n := n) hf hl hbe
    rw [hlower, Nat.zero_max] at h₁ h₂
    simp only [hbe, Option.getD_some] at hbefore
    have hlength : slice.length = before - (before - size) := by
      rw [hslice, h₁, h₂]
      omega
    have hsum : addUpTo64 (before - size) (before - (before - size)) = before := by
      rw [addUpTo64_of_le_maxInt64 (by omega)]
      omega
    simp only [kept, PageBounds.keep, hf, hl, hbe, hlower, h₁, hlength, hsum, Option.getD_some]
    omega

include hb hf ha hl in
/-- **One page on the way back** shows the rows before its cursor, or the last ones, and tells whether
others lie before them. -/
theorem Connection.within_backward {α : Type} {rows : List α} (hn : rows.length ≤ maxInt64)
    (hbefore : b.before.getD rows.length ≤ rows.length) {slice : List α}
    (hslice : slice = (rows.drop (PageWindow.ofBounds b).offset).take
      ((PageWindow.ofBounds b).size rows.length)) (length : Option Nat) :
    (within slice b ⟨length, (PageWindow.ofBounds b).offset⟩).edges =
        edgesFrom (b.before.getD rows.length - size)
          ((rows.drop (b.before.getD rows.length - size)).take
            (b.before.getD rows.length - (b.before.getD rows.length - size))) ∧
      (within slice b ⟨length, (PageWindow.ofBounds b).offset⟩).pageInfo.hasPreviousPage =
        decide (size < b.before.getD rows.length) := by
  have hx : ¬ b.CountsBackPast rows.length := by
    rintro ⟨-, -, before, hbe, hlt⟩
    simp only [hbe, Option.getD_some] at hbefore
    omega
  have hcount : slice.length = min ((PageWindow.ofBounds b).size rows.length)
      (rows.length - (PageWindow.ofBounds b).offset) := by
    rw [hslice, List.length_take, List.length_drop]
  obtain ⟨hstart, hstop⟩ := start_kept_backward hf ha hl hn hbefore hcount length
  constructor
  · rw [hslice, edges_within_window hb hn hx, edges_within, kept_backward hf ha hl hn hbefore,
      Nat.sub_zero]
  · have hprevious :
        (within slice b ⟨length, (PageWindow.ofBounds b).offset⟩).pageInfo.hasPreviousPage =
          (decide (0 < (kept slice b ⟨length, (PageWindow.ofBounds b).offset⟩).start) &&
            decide (0 < max (length.getD (addUpTo64 (PageWindow.ofBounds b).offset slice.length))
              (addUpTo64 (PageWindow.ofBounds b).offset slice.length))) := rfl
    rw [hprevious, hstart, ← Bool.decide_and, decide_eq_decide]
    omega

end Backward

/-! ### Walks -/

namespace Way

variable {C : Type} {r : Resolver C} {context : C} {others : Arguments} {size : Nat} {totals : Bool}
  {rows : List Row}

/-- The cursor stands before the last `count` of `n` rows. -/
def ForwardAt (n count : Nat) (cursor : Option Cursor) : Prop :=
  ∃ place : Option Nat, cursor = place.map Cursor.ofOffset ∧ place.elim 0 (· + 1) + count = n

/-- The cursor stands behind the first `count` of `n` rows. -/
def BackwardAt (n count : Nat) (cursor : Option Cursor) : Prop :=
  ∃ place : Option Nat, cursor = place.map Cursor.ofOffset ∧ place.getD n = count ∧ count ≤ n

/-- The first offset of a page on the way forward. -/
theorem lower_forward {place : Option Nat} (hp : ∀ o ∈ place, o ≤ maxInt64) :
    PageBounds.lower ⟨some size, place, none, none⟩ = place.elim 0 (· + 1) := by
  cases place with
  | none => rfl
  | some o =>
      have ho := hp o rfl
      exact addUpTo64_of_le (by simp only [maxInt64, maxUInt64] at ho ⊢; omega)

/-- Rows left off a page lie behind it. -/
theorem drop_length_sub (rows : List Row) {count : Nat} (hcount : count ≤ rows.length)
    (size : Nat) :
    rows.drop (rows.length - (count - size)) = (rows.drop (rows.length - count)).drop size := by
  rw [List.drop_drop]
  rcases Nat.le_total size count with hle | hge
  · congr 1
    omega
  · rw [List.drop_eq_nil_of_le (by omega), List.drop_eq_nil_of_le (by omega)]

/-- **A step forward** takes rows off the front of those left. -/
theorem forward_step (h : r.Serves context totals rows) (ho : others.Boundless) (hsize : 0 < size)
    (hs : size ≤ maxInt64) (count : Nat) (cursor : Option Cursor)
    (hat : ForwardAt rows.length count cursor) (t : Trace) :
    ∃ page u, (r.resolve (forward.arguments others size cursor) context).after t =
        (.ok (.connection page), u) ∧
      Walk.Step forward size (fun count => rows.drop (rows.length - count)) (· ++ ·)
        (ForwardAt rows.length) count page := by
  obtain ⟨place, rfl, hcount⟩ := hat
  have hn := h.fits
  have hplace : ∀ o ∈ place, o ≤ maxInt64 := by
    rintro o rfl
    simp only [Option.elim_some] at hcount
    omega
  obtain ⟨request, hr, hrb⟩ := bounds_forward ho hs hplace
  have hlower : PageBounds.lower ⟨some size, place, none, none⟩ = rows.length - count := by
    rw [lower_forward hplace]
    omega
  obtain ⟨length, u, hpage, hlength⟩ := Resolver.resolve_fetched h hr hrb t
  obtain ⟨h₁, h₂⟩ := PageWindow.ofBounds_first (b := ⟨some size, place, none, none⟩)
    (n := rows.length) rfl
  rw [h₁, h₂] at hpage
  have hslice : ((rows.drop (rows.length - count)).take size).length =
      min size (rows.length - (rows.length - count)) :=
    List.length_take.trans (congrArg (min size) List.length_drop)
  obtain ⟨hedges, hnext⟩ := Connection.within_forward (PageRequest.bounds_fit hr hrb) rfl rfl rfl
    (by omega) hn (hlower ▸ hslice) hlength
  rw [hlower] at hpage hedges hnext
  refine ⟨_, u, hpage, ?_, ?_, fun hlt => ?_⟩
  · rw [Connection.nodes, hedges, Connection.nodes_edgesFrom, drop_length_sub rows (by omega),
      List.take_append_drop]
  · exact hnext.trans (decide_eq_decide.mpr (by omega))
  · have hne : (rows.drop (rows.length - count)).take size ≠ [] := by
      intro hnil
      rw [hnil, List.length_nil] at hslice
      omega
    refine ⟨some (rows.length - count + size - 1), ?_, ?_⟩
    · refine Eq.trans (congrArg (fun e => e.getLast?.map Edge.cursor) hedges) ?_
      rw [Connection.getLast?_edgesFrom hne, hslice, Nat.min_eq_left (by omega)]
      rfl
    · simp only [Option.elim_some]
      omega

/-- **A step backward** takes rows off the end of those left. -/
theorem backward_step (h : r.Serves context totals rows) (ho : others.Boundless) (hsize : 0 < size)
    (hs : size ≤ maxInt64) (count : Nat) (cursor : Option Cursor)
    (hat : BackwardAt rows.length count cursor) (t : Trace) :
    ∃ page u, (r.resolve (backward.arguments others size cursor) context).after t =
        (.ok (.connection page), u) ∧
      Walk.Step backward size (fun count => rows.take count) (fun page rest => rest ++ page)
        (BackwardAt rows.length) count page := by
  obtain ⟨place, rfl, rfl, hcount⟩ := hat
  have hn := h.fits
  have hplace : ∀ o ∈ place, o ≤ maxInt64 := by
    rintro o rfl
    simp only [Option.getD_some] at hcount
    omega
  obtain ⟨request, hr, hrb⟩ := bounds_backward ho hs hplace
  obtain ⟨length, u, hpage, -⟩ := Resolver.resolve_fetched h hr hrb t
  obtain ⟨hedges, hprevious⟩ := Connection.within_backward (PageRequest.bounds_fit hr hrb) rfl rfl
    rfl hn hcount rfl length
  simp only at hedges hprevious
  generalize place.getD rows.length = count at hcount hedges hprevious ⊢
  refine ⟨_, u, hpage, ?_, hprevious, fun hlt => ?_⟩
  · rw [Connection.nodes, hedges, Connection.nodes_edgesFrom, ← List.take_add]
    congr 1
    omega
  · have hne : (rows.drop (count - size)).take (count - (count - size)) ≠ [] := by
      intro hnil
      have hlength := congrArg List.length hnil
      rw [List.length_take, List.length_drop, List.length_nil] at hlength
      omega
    refine ⟨some (count - size), ?_, rfl, by omega⟩
    refine Eq.trans (congrArg (fun e => e.head?.map Edge.cursor) hedges) ?_
    rw [Connection.head?_edgesFrom hne]
    rfl

end Way

namespace Walk

theorem foldr_append (pages : List (Connection Row)) :
    (pages.map Connection.nodes).foldr (· ++ ·) [] = pages.flatMap Connection.nodes := by
  induction pages with
  | nil => rfl
  | cons page rest ih => rw [List.map_cons, List.foldr_cons, ih, List.flatMap_cons]

theorem foldr_append_reverse (pages : List (Connection Row)) :
    (pages.map Connection.nodes).foldr (fun page rest => rest ++ page) [] =
      pages.reverse.flatMap Connection.nodes := by
  induction pages with
  | nil => rfl
  | cons page rest ih =>
      rw [List.map_cons, List.foldr_cons, ih, List.reverse_cons, List.flatMap_append,
        List.flatMap_singleton]

end Walk

namespace Resolver

variable {C : Type} {r : Resolver C} {context : C} {others : Arguments} {size : Nat} {totals : Bool}
  {rows : List Row}

/-- **Walking forward visits every row once**: there is one walk, it ends after as many pages as it
takes to hold the rows, and its pages one after another hold the rows. -/
theorem walk_forward (h : r.Serves context totals rows) (ho : others.Boundless) (hsize : 1 ≤ size)
    (hs : size ≤ maxInt64) (t : Trace) :
    ∃ pages, (∀ walked, Walk .forward r context others size none t walked ↔ walked = pages) ∧
      pages.length = max 1 ((rows.length + size - 1) / size) ∧
      pages.flatMap Connection.nodes = rows := by
  have hstart : Way.ForwardAt rows.length rows.length none := ⟨none, rfl, by simp⟩
  obtain ⟨pages, hwalk, hlength, hjoin⟩ := Walk.exists_of_step hsize
    (fun count => rows.drop (rows.length - count)) (by simp) (Way.forward_step h ho hsize hs) hstart t
  refine ⟨pages, fun walked => ⟨fun hw => hw.unique hwalk, fun he => he ▸ hwalk⟩, hlength, ?_⟩
  rw [← Walk.foldr_append, hjoin, Nat.sub_self, List.drop_zero]

/-- Five rows in memory. -/
def fiveRows : List Row :=
  [[("id", .ofNat 1)], [("id", .ofNat 2)], [("id", .ofNat 3)], [("id", .ofNat 4)],
    [("id", .ofNat 5)]]

/-- An argument that does not bound a page. -/
def tagged : Arguments := [("tag", .string "x")]

theorem boundless_tagged : tagged.Boundless := by
  simp [Arguments.Boundless, tagged, Fields.get?]

/-- A field that serves them in pages, filtered by a condition that never fails. -/
def ofFiveRows (totals : Bool) : Resolver Unit :=
  ⟨"item", none, some fun _ _ _ => .ok (some "TRUE"), [⟨"id", .ascending⟩], true,
    .ofTables "memory" [("item", fiveRows)] totals⟩

theorem serves_ofFiveRows (totals : Bool) : (ofFiveRows totals).Serves () totals fiveRows := by
  refine ⟨rfl, fun condition hc args => ⟨some "TRUE", ?_, ?_⟩, ?_, by decide⟩
  · cases hc
    rfl
  · intro text ht
    obtain rfl := Option.some.inj ht
    decide
  · exact Source.lists_ofTables rfl (by decide)

theorem walk_forward_fiveRows :
    ∃ pages, Walk .forward (ofFiveRows false) () tagged 2 none [] pages ∧
      pages.length = 3 ∧ pages.flatMap Connection.nodes = fiveRows := by
  obtain ⟨pages, hwalk, hlength, hnodes⟩ :=
    walk_forward (serves_ofFiveRows false) boundless_tagged (show 1 ≤ 2 by decide) (by decide) []
  exact ⟨pages, (hwalk pages).mpr rfl, hlength, hnodes⟩

/-- **Walking backward visits every row once**: there is one walk, it ends after as many pages as it
takes to hold the rows, and its pages in reverse hold the rows. -/
theorem walk_backward (h : r.Serves context totals rows) (ho : others.Boundless) (hsize : 1 ≤ size)
    (hs : size ≤ maxInt64) (t : Trace) :
    ∃ pages, (∀ walked, Walk .backward r context others size none t walked ↔ walked = pages) ∧
      pages.length = max 1 ((rows.length + size - 1) / size) ∧
      pages.reverse.flatMap Connection.nodes = rows := by
  have hstart : Way.BackwardAt rows.length rows.length none := ⟨none, rfl, rfl, Nat.le_refl _⟩
  obtain ⟨pages, hwalk, hlength, hjoin⟩ := Walk.exists_of_step hsize
    (fun count => rows.take count) (by simp) (Way.backward_step h ho hsize hs) hstart t
  refine ⟨pages, fun walked => ⟨fun hw => hw.unique hwalk, fun he => he ▸ hwalk⟩, hlength, ?_⟩
  rw [← Walk.foldr_append_reverse, hjoin, List.take_length]

theorem walk_backward_fiveRows :
    ∃ pages, Walk .backward (ofFiveRows true) () tagged 2 none [] pages ∧
      pages.length = 3 ∧ pages.reverse.flatMap Connection.nodes = fiveRows := by
  obtain ⟨pages, hwalk, hlength, hnodes⟩ :=
    walk_backward (serves_ofFiveRows true) boundless_tagged (show 1 ≤ 2 by decide) (by decide) []
  exact ⟨pages, (hwalk pages).mpr rfl, hlength, hnodes⟩

end Resolver

end RelaySql
