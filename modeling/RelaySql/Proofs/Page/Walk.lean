import RelaySql.Proofs.Cursor
import RelaySql.Proofs.Page.Bounds
import RelaySql.Proofs.Run

/-!
# Pages — walking from page to page

A client that walks through a set asks for its first page by a size alone, and for every later one
by the size and the cursor that the page before it ends with, as long as a page says that there is
more.  It may walk forward, from the start of the set, or backward, from its end.

* `Walk`: the pages of a walk; there is one walk at most (`Walk.unique`).
* `Walk.exists_of_step`: if every page takes as many rows as it can off those that are left, the walk
  ends, after as many pages as it takes to hold them.
* `Way.bounds_forward`, `Way.bounds_backward`: what the arguments of a walk ask for.
-/

namespace RelaySql

/-- A way to walk through a set: the arguments for the size of a page and for the cursor it is asked
for with, and what a page tells of the next one. -/
structure Way where
  size : String
  cursor : String
  more : PageInfo → Bool
  next : PageInfo → Option Cursor

namespace Way

/-- From the start of the set to its end. -/
def forward : Way := ⟨"first", "after", PageInfo.hasNextPage, PageInfo.endCursor⟩

/-- From the end of the set to its start. -/
def backward : Way := ⟨"last", "before", PageInfo.hasPreviousPage, PageInfo.startCursor⟩

/-- The arguments for a page, beside those that do not bound it. -/
def arguments (d : Way) (others : Arguments) (size : Nat) : Option Cursor → Arguments
  | none => Fields.insert others d.size (.number (.whole size))
  | some c => Fields.insert (Fields.insert others d.size (.number (.whole size))) d.cursor
      (.string c.text)

end Way

/-! ### Walks -/

section Walks

variable {C : Type}

/-- The pages of a walk that asks for a page with this cursor next, after this trace. -/
inductive Walk (d : Way) (r : Resolver C) (context : C) (others : Arguments) (size : Nat) :
    Option Cursor → Trace → List (Connection Row) → Prop where
  | last {cursor : Option Cursor} {t u : Trace} {page : Connection Row}
      (asked : (r.resolve (d.arguments others size cursor) context).after t =
        (.ok (.connection page), u))
      (done : d.more page.pageInfo = false) : Walk d r context others size cursor t [page]
  | more {cursor : Option Cursor} {t u : Trace} {page : Connection Row}
      {pages : List (Connection Row)}
      (asked : (r.resolve (d.arguments others size cursor) context).after t =
        (.ok (.connection page), u))
      (further : d.more page.pageInfo = true)
      (rest : Walk d r context others size (d.next page.pageInfo) u pages) :
      Walk d r context others size cursor t (page :: pages)

namespace Walk

variable {d : Way} {r : Resolver C} {context : C} {others : Arguments} {size : Nat}

/-- **There is one walk at most.** -/
theorem unique {cursor : Option Cursor} {t : Trace} {pages pages' : List (Connection Row)}
    (h : Walk d r context others size cursor t pages)
    (h' : Walk d r context others size cursor t pages') : pages = pages' := by
  induction h generalizing pages' with
  | last asked done =>
      cases h' with
      | last asked' =>
          rw [asked] at asked'
          cases asked'
          rfl
      | more asked' further =>
          rw [asked] at asked'
          cases asked'
          rw [done] at further
          cases further
  | more asked further _ ih =>
      cases h' with
      | last asked' done =>
          rw [asked] at asked'
          cases asked'
          rw [done] at further
          cases further
      | more asked' _ rest =>
          rw [asked] at asked'
          cases asked'
          rw [ih rest]

/-- As many pages as it takes to hold rows, one at least. -/
def pageCount (count size : Nat) : Nat := max 1 ((count + size - 1) / size)

theorem pageCount_of_le {count : Nat} (h : count ≤ size) : pageCount count size = 1 := by
  rcases Nat.eq_zero_or_pos size with rfl | hsize
  · simp [pageCount]
  · have hlt : (count + size - 1) / size < 2 := by
      rw [Nat.div_lt_iff_lt_mul hsize]
      omega
    simp only [pageCount]
    omega

theorem pageCount_of_lt {count : Nat} (hsize : 0 < size) (h : size < count) :
    pageCount count size = pageCount (count - size) size + 1 := by
  have hone : 1 ≤ (count - size + size - 1) / size := by
    rw [Nat.le_div_iff_mul_le hsize]
    omega
  have hstep : (count + size - 1) / size = (count - size + size - 1) / size + 1 := by
    rw [← Nat.add_div_right _ hsize]
    congr 1
    omega
  simp only [pageCount, hstep]
  omega

variable (d r context others size)

/-- What a page does on a walk when `count` rows are left: it takes as many of them as it can off
those left, and says whether any remain, and where. -/
structure Step (left : Nat → List Row) (join : List Row → List Row → List Row)
    (At : Nat → Option Cursor → Prop) (count : Nat) (page : Connection Row) : Prop where
  taken : left count = join page.nodes (left (count - size))
  more : d.more page.pageInfo = decide (size < count)
  next : size < count → At (count - size) (d.next page.pageInfo)

variable {d r context others size}

/-- **A walk takes all rows**, if every page takes as many as it can. -/
theorem exists_of_step (hsize : 0 < size) (left : Nat → List Row)
    {join : List Row → List Row → List Row} {At : Nat → Option Cursor → Prop}
    (hleft : left 0 = [])
    (hstep : ∀ count cursor, At count cursor → ∀ t, ∃ page u,
      (r.resolve (d.arguments others size cursor) context).after t = (.ok (.connection page), u) ∧
        Step d size left join At count page)
    {count : Nat} {cursor : Option Cursor} (h : At count cursor) (t : Trace) :
    ∃ pages, Walk d r context others size cursor t pages ∧
      pages.length = pageCount count size ∧
      (pages.map Connection.nodes).foldr join [] = left count := by
  induction count using Nat.strongRecOn generalizing cursor t with
  | ind count ih =>
      obtain ⟨page, u, hpage, hstep⟩ := hstep count cursor h t
      have htaken := hstep.taken
      rcases Nat.lt_or_ge size count with hlt | hge
      · have hmore : d.more page.pageInfo = true := by
          rw [hstep.more, decide_eq_true hlt]
        obtain ⟨pages, hwalk, hlength, hjoin⟩ :=
          ih (count - size) (by omega) (hstep.next hlt) u
        refine ⟨page :: pages, .more hpage hmore hwalk, ?_, ?_⟩
        · rw [List.length_cons, hlength, pageCount_of_lt hsize hlt]
        · rw [List.map_cons, List.foldr_cons, hjoin, htaken]
      · have hdone : d.more page.pageInfo = false := by
          rw [hstep.more, decide_eq_false (Nat.not_lt.mpr hge)]
        refine ⟨[page], .last hpage hdone, (pageCount_of_le hge).symm, ?_⟩
        rw [Nat.sub_eq_zero_of_le hge, hleft] at htaken
        exact htaken.symm

end Walk

end Walks

/-! ### What the arguments of a walk ask for -/

namespace Arguments

/-- None of the arguments bounds a page. -/
def Boundless (args : Arguments) : Prop :=
  ∀ name ∈ ["first", "after", "last", "before"], args.get? name = none

variable {args : Arguments} {name : String}

theorem read?_of_none (h : args.get? name = none) {α : Type} (read : Input → Option α)
    (fault : String → Input → ArgumentFault) : args.read? name read fault = .ok none := by
  simp only [read?, h]

theorem int?_of_whole {n : Nat} (h : args.get? name = some (.number (.whole n)))
    (hn : n ≤ maxInt64) : args.int? name = .ok (some n) := by
  have hrange : minInt64 ≤ (n : Int) ∧ (n : Int) ≤ maxInt64 := by
    simp only [minInt64, maxInt64] at hn ⊢
    omega
  simp only [int?, read?, h, Number.int64?, hrange, and_self, if_true]

theorem string?_of_string {s : String} (h : args.get? name = some (.string s)) :
    args.string? name = .ok (some s) := by
  simp only [string?, read?, h]

end Arguments

namespace PageRequest

/-- The request of arguments that are of the right kinds. -/
theorem ofArguments_of {args : Arguments} {first last : Option Int} {after before : Option String}
    (hf : args.int? "first" = .ok first) (ha : args.string? "after" = .ok after)
    (hl : args.int? "last" = .ok last) (hb : args.string? "before" = .ok before) :
    ofArguments args = .ok ⟨first, after.map Cursor.mk, last, before.map Cursor.mk⟩ := by
  simp only [ofArguments, hf, ha, hl, hb]
  rfl

theorem size_of_nat (name : String) (n : Nat) : size name (some (n : Int)) = .ok (some n) := by
  simp [size]

/-- Cursors of offsets that fit the row counts are read back. -/
theorem offset_of_cursors {place : Option Nat} (h : ∀ o ∈ place, o ≤ maxInt64) :
    offset (((place.map Cursor.ofOffset).map Cursor.text).map Cursor.mk) = .ok place := by
  cases place with
  | none => rfl
  | some o =>
      simp only [Option.map_some, offset, Cursor.offset_ofOffset (h o rfl)]
      rfl

end PageRequest

namespace Way

variable {others : Arguments} {size : Nat} {place : Option Nat}

section Given

variable (d : Way) (hd : d.size ≠ d.cursor) (cursor : Option Cursor)

theorem get?_arguments_of_ne {name : String} (hs : d.size ≠ name) (hc : d.cursor ≠ name)
    (ho : others.get? name = none) : (d.arguments others size cursor).get? name = none := by
  cases cursor <;> simp [arguments, Fields.get?_insert, hs, hc, ho]

include hd in
theorem int?_arguments (hs : size ≤ maxInt64) :
    (d.arguments others size cursor).int? d.size = .ok (some size) := by
  refine Arguments.int?_of_whole ?_ hs
  cases cursor <;> simp [arguments, Fields.get?_insert, hd.symm]

include hd in
theorem string?_arguments (ho : others.get? d.cursor = none) :
    (d.arguments others size cursor).string? d.cursor = .ok (cursor.map Cursor.text) := by
  cases cursor with
  | none => exact Arguments.read?_of_none (by simp [arguments, Fields.get?_insert, hd, ho]) _ _
  | some c => exact Arguments.string?_of_string (Fields.get?_insert_self _ _ _)

end Given

/-- **Walking forward** asks for a size after an offset. -/
theorem bounds_forward (ho : others.Boundless) (hs : size ≤ maxInt64)
    (hp : ∀ o ∈ place, o ≤ maxInt64) :
    ∃ request, PageRequest.ofArguments
        (forward.arguments others size (place.map Cursor.ofOffset)) = .ok request ∧
      request.bounds = .ok ⟨some size, place, none, none⟩ := by
  refine ⟨_, PageRequest.ofArguments_of (int?_arguments forward (by decide) _ hs)
    (string?_arguments forward (by decide) _ (ho "after" (by decide)))
    (Arguments.read?_of_none (get?_arguments_of_ne forward _ (by decide) (by decide)
      (ho "last" (by decide))) _ _)
    (Arguments.read?_of_none (get?_arguments_of_ne forward _ (by decide) (by decide)
      (ho "before" (by decide))) _ _), ?_⟩
  simp only [PageRequest.bounds, PageRequest.size_of_nat, PageRequest.offset_of_cursors hp]
  rfl

/-- **Walking backward** asks for a size before an offset. -/
theorem bounds_backward (ho : others.Boundless) (hs : size ≤ maxInt64)
    (hp : ∀ o ∈ place, o ≤ maxInt64) :
    ∃ request, PageRequest.ofArguments
        (backward.arguments others size (place.map Cursor.ofOffset)) = .ok request ∧
      request.bounds = .ok ⟨none, none, some size, place⟩ := by
  refine ⟨_, PageRequest.ofArguments_of
    (Arguments.read?_of_none (get?_arguments_of_ne backward _ (by decide) (by decide)
      (ho "first" (by decide))) _ _)
    (Arguments.read?_of_none (get?_arguments_of_ne backward _ (by decide) (by decide)
      (ho "after" (by decide))) _ _)
    (int?_arguments backward (by decide) _ hs)
    (string?_arguments backward (by decide) _ (ho "before" (by decide))), ?_⟩
  simp only [PageRequest.bounds, PageRequest.size_of_nat, PageRequest.offset_of_cursors hp]
  rfl

end Way

end RelaySql
