import RelaySql.Page.Request
import RelaySql.Proofs.Outcome

/-!
# Pages — the sizes of accepted bounds

The sizes and cursors of a request are signed 64-bit integers that are not negative, so the
arithmetic on windows and slices, which stops at the largest unsigned integer, never reaches it.

* `PageRequest.bounds_fit`: the bounds of a request taken from arguments fit the row counts.
-/

namespace RelaySql

/-- All four bounds, where they are given, fit the row counts. -/
structure PageBounds.Fits (b : PageBounds) : Prop where
  first : ∀ n, b.first = some n → n ≤ maxInt64
  after : ∀ n, b.after = some n → n ≤ maxInt64
  last : ∀ n, b.last = some n → n ≤ maxInt64
  before : ∀ n, b.before = some n → n ≤ maxInt64

namespace Number

theorem int64?_range {n : Number} {i : Int} (h : n.int64? = some i) :
    minInt64 ≤ i ∧ i ≤ maxInt64 := by
  cases n with
  | whole v =>
      simp only [int64?] at h
      split at h
      · next hv => cases h; exact hv
      · cases h
  | real x => cases h

end Number

namespace Arguments

theorem read?_eq_ok {α : Type} {args : Arguments} {name : String} {read : Input → Option α}
    {fault : String → Input → ArgumentFault} {a : α}
    (h : args.read? name read fault = .ok (some a)) :
    ∃ v, args.get? name = some v ∧ read v = some a := by
  simp only [read?] at h
  split at h
  · cases h
  · cases h
  · next v _ hv =>
      split at h
      · next a' ha => cases h; exact ⟨v, hv, ha⟩
      · cases h

theorem int?_range {args : Arguments} {name : String} {i : Int}
    (h : args.int? name = .ok (some i)) : minInt64 ≤ i ∧ i ≤ maxInt64 := by
  obtain ⟨v, -, hv⟩ := read?_eq_ok h
  cases v with
  | number n => exact Number.int64?_range hv
  | _ => cases hv

end Arguments

namespace Cursor

theorem offset_le {c : Cursor} {n : Nat} (h : c.offset = .ok n) : n ≤ maxInt64 := by
  simp only [offset] at h
  split at h
  · next m hm =>
      cases h
      simp only [offset?, Option.bind_eq_bind, Option.bind_eq_some_iff] at hm
      obtain ⟨bytes, -, hm⟩ := hm
      split at hm
      · simp only [offsetOfDigits?] at hm
        split at hm
        · next hc => cases hm; exact hc.2
        · cases hm
      · cases hm
  · cases h

end Cursor

namespace PageRequest

theorem size_eq_ok {name : String} {value : Option Int} {n : Nat}
    (h : size name value = .ok (some n)) : value = some (n : Int) := by
  cases value with
  | none => cases h
  | some i =>
      simp only [size] at h
      split at h
      · next hi => cases h; rw [Int.toNat_of_nonneg hi]
      · cases h

theorem offset_le {c : Option Cursor} {n : Nat} (h : offset c = .ok (some n)) :
    n ≤ maxInt64 := by
  cases c with
  | none => cases h
  | some c =>
      obtain ⟨m, hm, hn⟩ := Except.map_eq_ok.mp h
      cases hn
      exact Cursor.offset_le hm

/-- The parts of accepted bounds. -/
theorem bounds_eq_ok {r : PageRequest} {b : PageBounds} (h : r.bounds = .ok b) :
    size "first" r.first = .ok b.first ∧ offset r.after = .ok b.after ∧
      size "last" r.last = .ok b.last ∧ offset r.before = .ok b.before := by
  obtain ⟨first, h₁, h⟩ := Except.bind_eq_ok.mp h
  obtain ⟨after, h₂, h⟩ := Except.bind_eq_ok.mp h
  obtain ⟨last, h₃, h⟩ := Except.bind_eq_ok.mp h
  obtain ⟨before, h₄, h⟩ := Except.bind_eq_ok.mp h
  cases h
  exact ⟨h₁, h₂, h₃, h₄⟩

/-- The parts of a request taken from arguments. -/
theorem ofArguments_eq_ok {args : Arguments} {r : PageRequest} (h : ofArguments args = .ok r) :
    args.int? "first" = .ok r.first ∧ args.int? "last" = .ok r.last := by
  obtain ⟨first, h₁, h⟩ := Except.bind_eq_ok.mp h
  obtain ⟨after, -, h⟩ := Except.bind_eq_ok.mp h
  obtain ⟨last, h₃, h⟩ := Except.bind_eq_ok.mp h
  obtain ⟨before, -, h⟩ := Except.bind_eq_ok.mp h
  cases h
  exact ⟨h₁, h₃⟩

/-- **Accepted bounds fit the row counts.** -/
theorem bounds_fit {args : Arguments} {r : PageRequest} {b : PageBounds}
    (hr : ofArguments args = .ok r) (hb : r.bounds = .ok b) : b.Fits := by
  obtain ⟨hf, hl⟩ := ofArguments_eq_ok hr
  obtain ⟨h₁, h₂, h₃, h₄⟩ := bounds_eq_ok hb
  refine ⟨fun n hn => ?_, fun n hn => ?_, fun n hn => ?_, fun n hn => ?_⟩
  · rw [size_eq_ok (h₁.trans (congrArg _ hn))] at hf
    exact Int.ofNat_le.mp (Arguments.int?_range hf).2
  · exact offset_le (h₂.trans (congrArg _ hn))
  · rw [size_eq_ok (h₃.trans (congrArg _ hn))] at hl
    exact Int.ofNat_le.mp (Arguments.int?_range hl).2
  · exact offset_le (h₄.trans (congrArg _ hn))

end PageRequest

end RelaySql
