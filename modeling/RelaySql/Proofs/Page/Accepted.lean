import RelaySql.Proofs.Cursor
import RelaySql.Proofs.Fields
import RelaySql.Proofs.Page.Bounds

/-!
# Pages — which arguments are accepted

Two arguments of a page are sizes and two are cursors.  They are gone through twice in the same
order: first the kind of every value is checked, and only then what the values say.

* `PageArgument.OfKind`, `PageArgument.Gives`: the values of an argument that have its kind, and the
  number that such a value gives.
* `PageArgument.fate`: what becomes of one argument in the two passes.
* `PageRequest.asked_eq`: the bounds that arguments ask for are the two passes.
* `PageRequest.asked_exactly`: which arguments are accepted, with which numbers, and which fault is
  reported of all others.
-/

namespace RelaySql

namespace Fields

/-- Of pairs that are put in one after another, the last under a name is found. -/
theorem get?_ofPairs {α : Type} (pairs : List (String × α)) (name : String) :
    (ofPairs pairs).get? name = get? pairs.reverse name := by
  induction pairs using List.reverseRecOn with
  | nil => rfl
  | append_singleton pairs p ih =>
      have hput : ofPairs (pairs ++ [p]) = (ofPairs pairs).insert p.1 p.2 := by
        simp only [ofPairs, List.foldl_append, List.foldl_cons, List.foldl_nil]
      rw [hput, get?_insert, ih, List.reverse_append]
      rfl

/-- Pairs of different names may be put in in any order. -/
theorem get?_ofPairs_perm {α : Type} {pairs pairs' : List (String × α)} (h : pairs.Perm pairs')
    (hn : (keys pairs).Nodup) (name : String) :
    (ofPairs pairs).get? name = (ofPairs pairs').get? name := by
  have hnodup : ∀ {l : List (String × α)}, l.Perm pairs → (keys l).Nodup := fun hl =>
    (hl.map Prod.fst).nodup_iff.mpr hn
  have hfind : ∀ {l : List (String × α)}, l.Perm pairs → ∀ a,
      get? l name = some a ↔ (name, a) ∈ pairs := fun hl a =>
    ⟨fun ha => hl.mem_iff.mp (mem_of_get? ha), fun ha => get?_of_mem (hnodup hl) (hl.mem_iff.mpr ha)⟩
  refine Option.ext fun a => ?_
  rw [get?_ofPairs, get?_ofPairs, hfind (List.reverse_perm _), hfind ((List.reverse_perm _).trans h.symm)]

end Fields

namespace Arguments

/-- The value given to an argument; one that is absent or null is given none. -/
def given? (args : Arguments) (name : String) : Option Input :=
  match args.get? name with
  | some .null => none
  | v => v

theorem read?_eq (args : Arguments) (name : String) {α : Type} (read : Input → Option α)
    (fault : String → Input → ArgumentFault) :
    args.read? name read fault =
      match args.given? name with
      | none => .ok none
      | some v =>
        match read v with
        | some a => .ok (some a)
        | none => .error (.argument (fault name v)) := by
  simp only [read?, given?]
  rcases args.get? name with _ | v
  · rfl
  · cases v <;> rfl

/-- **An argument read as a whole number**: it is given none, or one within a signed 64-bit integer,
or else its value is reported. -/
theorem int?_outcome (args : Arguments) (name : String) :
    (args.given? name = none ∧ args.int? name = .ok none) ∨
    (∃ n : Int, args.given? name = some (.number (.whole n)) ∧ (minInt64 ≤ n ∧ n ≤ maxInt64) ∧
      args.int? name = .ok (some n)) ∨
    (∃ v, args.given? name = some v ∧
      (¬ ∃ n : Int, v = .number (.whole n) ∧ minInt64 ≤ n ∧ n ≤ maxInt64) ∧
      args.int? name = .error (.argument (.notInteger name v))) := by
  rw [int?, read?_eq]
  rcases args.given? name with _ | v
  · exact .inl ⟨rfl, rfl⟩
  · refine .inr ?_
    by_cases hv : ∃ n : Int, v = .number (.whole n) ∧ minInt64 ≤ n ∧ n ≤ maxInt64
    · obtain ⟨n, rfl, hn⟩ := hv
      exact .inl ⟨n, rfl, hn, by simp only [Number.int64?, if_pos hn]⟩
    · refine .inr ⟨v, rfl, hv, ?_⟩
      rcases v with _ | ⟨n | x⟩ | _ | _ | _ | _ | _ | _ <;> try rfl
      simp only [Number.int64?]
      rw [if_neg fun hn => hv ⟨n, rfl, hn⟩]

/-- **An argument read as a text**: it is given none, or a text or the name of an enumeration value,
or else its value is reported. -/
theorem string?_outcome (args : Arguments) (name : String) :
    (args.given? name = none ∧ args.string? name = .ok none) ∨
    (∃ v s, args.given? name = some v ∧ (v = .string s ∨ v = .enumeration s) ∧
      args.string? name = .ok (some s)) ∨
    (∃ v, args.given? name = some v ∧ (¬ ∃ s, v = .string s ∨ v = .enumeration s) ∧
      args.string? name = .error (.argument (.notString name v))) := by
  rw [string?, read?_eq]
  rcases args.given? name with _ | v
  · exact .inl ⟨rfl, rfl⟩
  · refine .inr ?_
    by_cases hv : ∃ s, v = .string s ∨ v = .enumeration s
    · obtain ⟨s, hs⟩ := hv
      refine .inl ⟨v, s, rfl, hs, ?_⟩
      rcases hs with rfl | rfl <;> rfl
    · refine .inr ⟨v, rfl, hv, ?_⟩
      cases v with
      | string s => exact absurd ⟨s, .inl rfl⟩ hv
      | enumeration s => exact absurd ⟨s, .inr rfl⟩ hv
      | null | number | boolean | binary | list | object => rfl

end Arguments

/-! ### One argument -/

/-- An argument of a page. -/
inductive PageArgument where
  | first
  | after
  | last
  | before
deriving DecidableEq, Repr

namespace PageArgument

/-- The arguments in the order they are checked in. -/
def all : List PageArgument := [first, after, last, before]

/-- The name of an argument. -/
def name : PageArgument → String
  | first => "first"
  | after => "after"
  | last => "last"
  | before => "before"

/-- The value has the kind of the argument: a size is a whole number within a signed 64-bit integer,
and a cursor is a text, or the name of an enumeration value. -/
def OfKind : PageArgument → Input → Prop
  | first, v | last, v => ∃ n : Int, v = .number (.whole n) ∧ minInt64 ≤ n ∧ n ≤ maxInt64
  | after, v | before, v => ∃ s, v = .string s ∨ v = .enumeration s

/-- The number that a value gives to the argument: of a size the number itself, and of a cursor the
offset it was made from. -/
def Gives : PageArgument → Input → Nat → Prop
  | first, v, n | last, v, n => n ≤ maxInt64 ∧ v = .number (.whole n)
  | after, v, n | before, v, n => n ≤ maxInt64 ∧
      (v = .string (Cursor.ofOffset n).text ∨ v = .enumeration (Cursor.ofOffset n).text)

/-- The fault of a value that does not have the kind of the argument. -/
def kindFault (a : PageArgument) (v : Input) : Fault :=
  match a with
  | first | last => .argument (.notInteger a.name v)
  | after | before => .argument (.notString a.name v)

/-- The fault of a value that has the kind of the argument and gives no number. -/
def valueFault (a : PageArgument) : Input → Fault
  | .number (.whole n) => .page (.negative a.name n)
  | .string s | .enumeration s => .malformedCursor s
  | v => a.kindFault v

/-- The bound of an argument. -/
def bound (b : PageBounds) : PageArgument → Option Nat
  | first => b.first
  | after => b.after
  | last => b.last
  | before => b.before

variable (args : Arguments)

/-- The first pass over an argument, which tells only whether its value has the right kind. -/
def kinded : PageArgument → Except Fault Unit
  | first => (args.int? "first").map fun _ => ()
  | after => (args.string? "after").map fun _ => ()
  | last => (args.int? "last").map fun _ => ()
  | before => (args.string? "before").map fun _ => ()

/-- Both passes over an argument: its number. -/
def number : PageArgument → Except Fault (Option Nat)
  | first => args.int? "first" >>= PageRequest.size "first"
  | after => args.string? "after" >>= fun s => PageRequest.offset (s.map Cursor.mk)
  | last => args.int? "last" >>= PageRequest.size "last"
  | before => args.string? "before" >>= fun s => PageRequest.offset (s.map Cursor.mk)

/-- What may become of an argument in the two passes. -/
inductive Fate (a : PageArgument) : Prop where
  | absent (hgiven : args.given? a.name = none) (hkind : a.kinded args = .ok ())
      (hnumber : a.number args = .ok none)
  | accepted {v : Input} {n : Nat} (hgiven : args.given? a.name = some v) (hof : a.OfKind v)
      (hgives : a.Gives v n) (hkind : a.kinded args = .ok ())
      (hnumber : a.number args = .ok (some n))
  | refused {v : Input} (hgiven : args.given? a.name = some v) (hof : a.OfKind v)
      (hgives : ∀ n, ¬ a.Gives v n) (hkind : a.kinded args = .ok ())
      (hnumber : a.number args = .error (a.valueFault v))
  | otherKind {v : Input} (hgiven : args.given? a.name = some v) (hof : ¬ a.OfKind v)
      (hkind : a.kinded args = .error (a.kindFault v))
      (hnumber : a.number args = .error (a.kindFault v))

variable {args}

/-- A whole number is accepted as a size exactly when it is not negative. -/
theorem fate_of_size {a : PageArgument} (hof : ∀ v, a.OfKind v ↔
      ∃ n : Int, v = .number (.whole n) ∧ minInt64 ≤ n ∧ n ≤ maxInt64)
    (hgives : ∀ v n, a.Gives v n ↔ n ≤ maxInt64 ∧ v = .number (.whole n))
    (hfault : ∀ v, a.kindFault v = .argument (.notInteger a.name v))
    (hkind : a.kinded args = (args.int? a.name).map fun _ => ())
    (hnumber : a.number args = args.int? a.name >>= PageRequest.size a.name) : a.Fate args := by
  obtain ⟨hg, hr⟩ | ⟨n, hg, hn, hr⟩ | ⟨v, hg, hv, hr⟩ := args.int?_outcome a.name
  · exact .absent hg (by rw [hkind, hr]; rfl) (by rw [hnumber, hr]; rfl)
  · have hkinded : a.kinded args = .ok () := by rw [hkind, hr]; rfl
    have hread : a.number args = PageRequest.size a.name (some n) := by rw [hnumber, hr]; rfl
    by_cases h0 : 0 ≤ n
    · obtain ⟨m, rfl⟩ := Int.eq_ofNat_of_zero_le h0
      refine .accepted hg ((hof _).mpr ⟨_, rfl, hn⟩)
        ((hgives _ m).mpr ⟨Int.ofNat_le.mp hn.2, rfl⟩) hkinded ?_
      rw [hread, PageRequest.size, if_pos h0, Int.toNat_natCast]
    · refine .refused hg ((hof _).mpr ⟨n, rfl, hn⟩) (fun m hm => ?_) hkinded ?_
      · obtain ⟨-, hm⟩ := (hgives _ m).mp hm
        obtain rfl : n = m := by simpa using hm
        exact h0 (Int.natCast_nonneg m)
      · rw [hread, PageRequest.size, if_neg h0]
        rfl
  · refine .otherKind hg (fun h => hv ((hof v).mp h)) ?_ ?_
    · rw [hkind, hr, hfault]; rfl
    · rw [hnumber, hr, hfault]; rfl

/-- A text is accepted as a cursor exactly when it is the cursor of an offset. -/
theorem fate_of_cursor {a : PageArgument}
    (hof : ∀ v, a.OfKind v ↔ ∃ s, v = .string s ∨ v = .enumeration s)
    (hgives : ∀ v n, a.Gives v n ↔ n ≤ maxInt64 ∧
      (v = .string (Cursor.ofOffset n).text ∨ v = .enumeration (Cursor.ofOffset n).text))
    (hfault : ∀ v, a.kindFault v = .argument (.notString a.name v))
    (hkind : a.kinded args = (args.string? a.name).map fun _ => ())
    (hnumber : a.number args =
      args.string? a.name >>= fun s => PageRequest.offset (s.map Cursor.mk)) : a.Fate args := by
  obtain ⟨hg, hr⟩ | ⟨v, s, hg, hs, hr⟩ | ⟨v, hg, hv, hr⟩ := args.string?_outcome a.name
  · exact .absent hg (by rw [hkind, hr]; rfl) (by rw [hnumber, hr]; rfl)
  · have hkinded : a.kinded args = .ok () := by rw [hkind, hr]; rfl
    have hread : a.number args = (Cursor.mk s).offset.map some := by rw [hnumber, hr]; rfl
    obtain ⟨hok, herror, -⟩ := Cursor.offset_iff_ofOffset ⟨s⟩
    by_cases hn : ∃ n ≤ maxInt64, (⟨s⟩ : Cursor) = Cursor.ofOffset n
    · obtain ⟨n, hle, hc⟩ := hn
      refine .accepted hg ((hof v).mpr ⟨s, hs⟩) ((hgives v n).mpr ⟨hle, ?_⟩) hkinded ?_
      · rw [← hc]
        exact hs
      · rw [hread, (hok n).mpr ⟨hle, hc⟩]
        rfl
    · have hnone : ∀ n ≤ maxInt64, (⟨s⟩ : Cursor) ≠ Cursor.ofOffset n :=
        fun n hle hc => hn ⟨n, hle, hc⟩
      refine .refused hg ((hof v).mpr ⟨s, hs⟩) (fun n hm => ?_) hkinded ?_
      · obtain ⟨hle, hm⟩ := (hgives v n).mp hm
        have hsame : s = (Cursor.ofOffset n).text := by
          rcases hs with rfl | rfl
          · simpa only [Input.string.injEq, reduceCtorEq, or_false] using hm
          · simpa only [Input.enumeration.injEq, reduceCtorEq, false_or] using hm
        exact hnone n hle (congrArg Cursor.mk hsame)
      · rw [hread, herror.mpr hnone]
        rcases hs with rfl | rfl <;> rfl
  · refine .otherKind hg (fun h => hv ((hof v).mp h)) ?_ ?_
    · rw [hkind, hr, hfault]; rfl
    · rw [hnumber, hr, hfault]; rfl

/-- **What becomes of an argument.** -/
theorem fate (args : Arguments) (a : PageArgument) : a.Fate args := by
  cases a with
  | first | last =>
      exact fate_of_size (fun _ => .rfl) (fun _ _ => .rfl) (fun _ => rfl) rfl rfl
  | after | before =>
      exact fate_of_cursor (fun _ => .rfl) (fun _ _ => .rfl) (fun _ => rfl) rfl rfl

theorem Gives.unique {a : PageArgument} {v : Input} {m n : Nat} (h : a.Gives v m)
    (h' : a.Gives v n) : m = n := by
  have hcursor : ∀ s : String, s = (Cursor.ofOffset m).text → s = (Cursor.ofOffset n).text → m = n :=
    fun s hm hn => Cursor.ofOffset_injective (congrArg Cursor.mk (hm.symm.trans hn))
  cases a with
  | first | last =>
      obtain ⟨-, rfl⟩ := h
      have hsame : (m : Int) = n := by simpa only [Input.number.injEq, Number.whole.injEq] using h'.2
      exact Int.ofNat_inj.mp hsame
  | after | before =>
      obtain ⟨-, rfl | rfl⟩ := h
      · exact hcursor _ rfl (by simpa only [Input.string.injEq, reduceCtorEq, or_false] using h'.2)
      · exact hcursor _ rfl (by simpa only [Input.enumeration.injEq, reduceCtorEq, false_or] using h'.2)

theorem Gives.ofKind {a : PageArgument} {v : Input} {n : Nat} (h : a.Gives v n) : a.OfKind v := by
  cases a with
  | first | last =>
      obtain ⟨hn, rfl⟩ := h
      exact ⟨n, rfl, Int.le_trans (by decide) (Int.natCast_nonneg n), Int.ofNat_le.mpr hn⟩
  | after | before => exact ⟨_, h.2⟩

/-- The first pass lets an argument through. -/
theorem kinded_eq_ok_iff {a : PageArgument} :
    (∃ u, a.kinded args = .ok u) ↔ ∀ v, args.given? a.name = some v → a.OfKind v := by
  cases a.fate args with
  | absent hg hk hn =>
      rw [hg, hk]
      exact iff_of_true ⟨_, rfl⟩ fun v hv => nomatch hv
  | accepted hg hof _ hk hn | refused hg hof _ hk hn =>
      rw [hg, hk]
      exact iff_of_true ⟨_, rfl⟩ fun v hv => Option.some.inj hv ▸ hof
  | otherKind hg hof hk hn =>
      rw [hg, hk]
      exact iff_of_false (fun ⟨_, h⟩ => nomatch h) fun h => hof (h _ rfl)

/-- **The first pass stops at an argument** whose value is not of its kind. -/
theorem kinded_eq_error_iff {a : PageArgument} {fault : Fault} :
    a.kinded args = .error fault ↔
      ∃ v, args.given? a.name = some v ∧ ¬ a.OfKind v ∧ fault = a.kindFault v := by
  cases a.fate args with
  | absent hg hk hn =>
      rw [hg, hk]
      exact iff_of_false (fun h => nomatch h) fun ⟨_, h, _⟩ => nomatch h
  | accepted hg hof _ hk hn | refused hg hof _ hk hn =>
      rw [hg, hk]
      exact iff_of_false (fun h => nomatch h) fun ⟨_, h, hne, _⟩ => hne (Option.some.inj h ▸ hof)
  | @otherKind v hg hof hk hn =>
      rw [hg, hk]
      constructor
      · rintro ⟨⟩
        exact ⟨v, rfl, hof, rfl⟩
      · rintro ⟨_, ⟨⟩, -, rfl⟩
        rfl

/-- **An argument has a number** exactly when its value gives it, and none when it is given none. -/
theorem number_eq_ok_iff {a : PageArgument} {n : Option Nat} :
    a.number args = .ok n ↔ Option.Rel a.Gives (args.given? a.name) n := by
  cases a.fate args with
  | absent hg hk hn =>
      rw [hg, hn]
      constructor
      · rintro ⟨⟩
        exact .none
      · rintro ⟨⟩
        rfl
  | accepted hg _ hgives hk hn =>
      rw [hg, hn]
      constructor
      · rintro ⟨⟩
        exact .some hgives
      · rintro (⟨h⟩ | _)
        rw [h.unique hgives]
  | refused hg _ hgives hk hn =>
      rw [hg, hn]
      refine iff_of_false (fun h => nomatch h) ?_
      rintro (⟨h⟩ | _)
      exact hgives _ h
  | otherKind hg hof hk hn =>
      rw [hg, hn]
      refine iff_of_false (fun h => nomatch h) ?_
      rintro (⟨h⟩ | _)
      exact hof h.ofKind

/-- **The second pass stops at an argument** whose value gives no number. -/
theorem number_eq_error_iff {a : PageArgument} {fault : Fault} (h : ∃ u, a.kinded args = .ok u) :
    a.number args = .error fault ↔
      ∃ v, args.given? a.name = some v ∧ (∀ n, ¬ a.Gives v n) ∧ fault = a.valueFault v := by
  cases a.fate args with
  | absent hg hk hn =>
      rw [hg, hn]
      exact iff_of_false (fun h => nomatch h) fun ⟨_, h, _⟩ => nomatch h
  | accepted hg _ hgives hk hn =>
      rw [hg, hn]
      exact iff_of_false (fun h => nomatch h)
        fun ⟨_, h, hnone, _⟩ => hnone _ (Option.some.inj h ▸ hgives)
  | @refused v hg _ hgives hk hn =>
      rw [hg, hn]
      constructor
      · rintro ⟨⟩
        exact ⟨v, rfl, hgives, rfl⟩
      · rintro ⟨_, ⟨⟩, -, rfl⟩
        rfl
  | otherKind hg hof hk hn =>
      obtain ⟨u, hu⟩ := h
      rw [hk] at hu
      cases hu

end PageArgument

/-! ### All arguments -/

namespace PageRequest

/-- The bounds that arguments ask for. -/
def asked (args : Arguments) : Except Fault PageBounds := ofArguments args >>= bounds

/-- The bounds of a number for each argument. -/
def ofNumbers : List (Option Nat) → PageBounds
  | [first, after, last, before] => ⟨first, after, last, before⟩
  | _ => {}

/-- **The bounds that arguments ask for** are two passes over the arguments. -/
theorem asked_eq (args : Arguments) :
    asked args = PageArgument.all.mapM (PageArgument.kinded args) >>= fun _ =>
      (PageArgument.all.mapM (PageArgument.number args)).map ofNumbers := by
  simp only [asked, ofArguments, PageArgument.all, List.mapM_cons, List.mapM_nil,
    PageArgument.kinded, PageArgument.number]
  rcases args.int? "first" with _ | first
  · rfl
  rcases args.string? "after" with _ | after
  · rfl
  rcases args.int? "last" with _ | last
  · rfl
  rcases args.string? "before" with _ | before
  · rfl
  simp only [bounds, bind, Except.bind, pure, Except.pure, Except.map]
  rcases size "first" first with _ | _
  · rfl
  rcases offset (after.map Cursor.mk) with _ | _
  · rfl
  rcases size "last" last with _ | _
  · rfl
  rcases offset (before.map Cursor.mk) with _ | _ <;> rfl

/-- **Arguments are accepted** with these bounds exactly when each argument has its number. -/
theorem asked_eq_ok_iff {args : Arguments} {b : PageBounds} :
    asked args = .ok b ↔ ∀ a : PageArgument, a.number args = .ok (a.bound b) := by
  rw [asked_eq, Except.bind_eq_ok]
  constructor
  · rintro ⟨_, -, h⟩
    obtain ⟨numbers, hnumbers, rfl⟩ := Except.map_eq_ok.mp h
    rw [Except.mapM_eq_ok] at hnumbers
    rcases hnumbers with _ | ⟨h₁, _ | ⟨h₂, _ | ⟨h₃, _ | ⟨h₄, ⟨⟩⟩⟩⟩⟩
    intro a
    cases a with
    | first => exact h₁
    | after => exact h₂
    | last => exact h₃
    | before => exact h₄
  · intro h
    -- an argument that has its number is let through by the first pass
    have hkinded : ∀ a : PageArgument, a.kinded args = .ok () := by
      intro a
      have hrel := PageArgument.number_eq_ok_iff.mp (h a)
      obtain ⟨u, hu⟩ := PageArgument.kinded_eq_ok_iff.mpr fun v hv => by
        rw [hv] at hrel
        generalize a.bound b = n at hrel
        cases hrel with
        | some hgives => exact hgives.ofKind
      exact hu
    refine ⟨PageArgument.all.map fun _ => (), Except.mapM_eq_ok.mpr ?_,
      Except.map_eq_ok.mpr ⟨PageArgument.all.map (PageArgument.bound b), Except.mapM_eq_ok.mpr ?_, rfl⟩⟩
    · rw [List.forall₂_map_right_iff, List.forall₂_same]
      exact fun a _ => hkinded a
    · rw [List.forall₂_map_right_iff, List.forall₂_same]
      exact fun a _ => h a

/-- The argument is the first, in the order they are checked in, to be given a value of this sort. -/
def First (args : Arguments) (sort : PageArgument → Input → Prop) (a : PageArgument) (v : Input) :
    Prop :=
  args.given? a.name = some v ∧ sort a v ∧ ∃ before after, PageArgument.all = before ++ a :: after ∧
    ∀ a' ∈ before, ∀ v', args.given? a'.name = some v' → ¬ sort a' v'

/-- **Arguments are refused** with the fault of the first value that does not have its kind, or else
of the first that gives no number. -/
theorem asked_eq_error_iff {args : Arguments} {fault : Fault} :
    asked args = .error fault ↔
      (∃ a v, First args (fun a v => ¬ a.OfKind v) a v ∧ fault = a.kindFault v) ∨
      (∀ (a : PageArgument) v, args.given? a.name = some v → a.OfKind v) ∧
        ∃ a v, First args (fun a v => ∀ n, ¬ a.Gives v n) a v ∧ fault = a.valueFault v := by
  have hmem : ∀ a : PageArgument, a ∈ PageArgument.all := fun a => by cases a <;> decide
  rw [asked_eq, Except.bind_eq_error, Except.mapM_eq_error]
  refine or_congr ?_ ?_
  · constructor
    · rintro ⟨before, a, after, hsplit, hbefore, ha⟩
      obtain ⟨v, hv, hof, rfl⟩ := PageArgument.kinded_eq_error_iff.mp ha
      refine ⟨a, v, ⟨hv, hof, before, after, hsplit, fun a' ha' v' hv' => not_not.mpr ?_⟩, rfl⟩
      exact PageArgument.kinded_eq_ok_iff.mp (hbefore a' ha') v' hv'
    · rintro ⟨a, v, ⟨hv, hof, before, after, hsplit, hbefore⟩, rfl⟩
      refine ⟨before, a, after, hsplit, fun a' ha' => PageArgument.kinded_eq_ok_iff.mpr ?_,
        PageArgument.kinded_eq_error_iff.mpr ⟨v, hv, hof, rfl⟩⟩
      exact fun v' hv' => not_not.mp (hbefore a' ha' v' hv')
  · have hpass : (∃ us, PageArgument.all.mapM (PageArgument.kinded args) = .ok us) ↔
        ∀ a : PageArgument, ∃ u, a.kinded args = .ok u := by
      constructor
      · rintro ⟨us, hus⟩ a
        obtain ⟨u, -, hu⟩ := Except.mem_of_mapM_eq_ok hus (hmem a)
        exact ⟨u, hu⟩
      · intro h
        refine ⟨PageArgument.all.map fun _ => (), Except.mapM_eq_ok.mpr ?_⟩
        rw [List.forall₂_map_right_iff, List.forall₂_same]
        exact fun a _ => (h a).choose_spec
    rw [exists_and_right, hpass, Except.map_eq_error, Except.mapM_eq_error]
    simp only [← PageArgument.kinded_eq_ok_iff]
    refine and_congr_right fun hkinded => ?_
    constructor
    · rintro ⟨before, a, after, hsplit, hbefore, ha⟩
      obtain ⟨v, hv, hnone, rfl⟩ := (PageArgument.number_eq_error_iff (hkinded a)).mp ha
      refine ⟨a, v, ⟨hv, hnone, before, after, hsplit, fun a' ha' v' hv' => not_forall_not.mpr ?_⟩, rfl⟩
      obtain ⟨n, hn⟩ := hbefore a' ha'
      have hrel := PageArgument.number_eq_ok_iff.mp hn
      rw [hv'] at hrel
      cases hrel with
      | some hgives => exact ⟨_, hgives⟩
    · rintro ⟨a, v, ⟨hv, hnone, before, after, hsplit, hbefore⟩, rfl⟩
      refine ⟨before, a, after, hsplit, fun a' ha' => ?_,
        (PageArgument.number_eq_error_iff (hkinded a)).mpr ⟨v, hv, hnone, rfl⟩⟩
      cases hg : args.given? a'.name with
      | none => exact ⟨none, PageArgument.number_eq_ok_iff.mpr (hg ▸ .none)⟩
      | some v' =>
          obtain ⟨n, hn⟩ := not_forall_not.mp (hbefore a' ha' v' hg)
          exact ⟨some n, PageArgument.number_eq_ok_iff.mpr (hg ▸ .some hn)⟩

/-- Only the arguments of a page matter for its bounds. -/
theorem asked_congr {args args' : Arguments}
    (h : ∀ a : PageArgument, args.get? a.name = args'.get? a.name) : asked args = asked args' := by
  have hint : ∀ a : PageArgument, args.int? a.name = args'.int? a.name := fun a => by
    simp only [Arguments.int?, Arguments.read?, h a]
  have hstring : ∀ a : PageArgument, args.string? a.name = args'.string? a.name := fun a => by
    simp only [Arguments.string?, Arguments.read?, h a]
  have hrequest : ofArguments args = ofArguments args' := by
    simp only [ofArguments]
    rw [show args.int? "first" = _ from hint .first, show args.string? "after" = _ from hstring .after,
      show args.int? "last" = _ from hint .last, show args.string? "before" = _ from hstring .before]
    rfl
  rw [asked, asked, hrequest]

/-- **Arguments of a page are accepted exactly**: with these bounds when each argument has the number
that its value gives, and none when it is given none.  All others are refused, with the fault of the
first value that does not have its kind, whatever the other values say, or else of the first that
gives no number.  Further arguments do not matter, nor does the order in which arguments are added. -/
theorem asked_exactly (args : Arguments) :
    (∀ b, asked args = .ok b ↔
      ∀ a : PageArgument, Option.Rel a.Gives (args.given? a.name) (a.bound b)) ∧
    (∀ fault, asked args = .error fault ↔
      (∃ a v, First args (fun a v => ¬ a.OfKind v) a v ∧ fault = a.kindFault v) ∨
      (∀ (a : PageArgument) v, args.given? a.name = some v → a.OfKind v) ∧
        ∃ a v, First args (fun a v => ∀ n, ¬ a.Gives v n) a v ∧ fault = a.valueFault v) ∧
    (∀ args' : Arguments, (∀ a : PageArgument, args.get? a.name = args'.get? a.name) →
      asked args = asked args') ∧
    ∀ added added' : List (String × Input), added.Perm added' → (Fields.keys added).Nodup →
      asked (Fields.ofPairs added) = asked (Fields.ofPairs added') := by
  refine ⟨fun b => ?_, fun fault => asked_eq_error_iff, fun args' h => asked_congr h,
    fun added added' hperm hn => asked_congr fun a => Fields.get?_ofPairs_perm hperm hn a.name⟩
  rw [asked_eq_ok_iff]
  exact forall_congr' fun a => PageArgument.number_eq_ok_iff

/-- A cursor of the wrong kind is reported before a negative size, although the size comes first. -/
example : asked [("first", .number (.whole (-1))), ("before", .boolean true)] =
    .error (.argument (.notString "before" (.boolean true))) := rfl

end PageRequest

end RelaySql
