import Mathlib.Tactic.SplitIfs
import RelaySql.Base64

/-!
# Base64 — bytes are read back from their text, and from no other text

* `Base64.decode?_encode`: bytes are read back from their text.
* `Base64.encode_of_decode?`: a text that is read is the text of what is read from it.
* `Base64.decode?_eq_some_iff`: so reading accepts exactly what writing produces, with no other
  padding and no bits beyond the last byte.
-/

namespace RelaySql.Base64

/-- Padding is no digit. -/
theorem digit_ne_pad {n : Nat} (h : n < 64) : digit n ≠ '=' := by
  have : ∀ m < 64, digit m ≠ '=' := by decide
  exact this n h

/-- A group of four characters that is not the last. -/
theorem decode?_group {p q r s : Char} {rest : List Char} (hrest : rest ≠ []) {a b c d : Nat}
    (hp : value? p = some a) (hq : value? q = some b) (hr : value? r = some c)
    (hs : value? s = some d) :
    decode? (p :: q :: r :: s :: rest) = (decode? rest).map fun bytes =>
      UInt8.ofNat (a * 4 + b / 16) :: UInt8.ofNat (b % 16 * 16 + c / 4) ::
        UInt8.ofNat (c % 4 * 64 + d) :: bytes := by
  cases rest with
  | nil => exact absurd rfl hrest
  | cons x rest =>
      simp only [decode?, hp, hq, hr, hs, Option.bind_eq_bind, Option.bind_some]
      cases decode? (x :: rest) <;> rfl

/-! The six-bit parts of three bytes, put together again. -/

theorem ofNat_first (a : UInt8) {n : Nat} (h : n < 16) :
    UInt8.ofNat (a.toNat / 4 * 4 + (a.toNat % 4 * 16 + n) / 16) = a := by
  have hparts : a.toNat / 4 * 4 + (a.toNat % 4 * 16 + n) / 16 = a.toNat := by omega
  rw [hparts, UInt8.ofNat_toNat]

theorem ofNat_second (b : UInt8) (m : Nat) {n : Nat} (h : n < 4) :
    UInt8.ofNat ((m * 16 + b.toNat / 16) % 16 * 16 + (b.toNat % 16 * 4 + n) / 4) = b := by
  have hb := b.toNat_lt
  have hparts : (m * 16 + b.toNat / 16) % 16 * 16 + (b.toNat % 16 * 4 + n) / 4 = b.toNat := by
    omega
  rw [hparts, UInt8.ofNat_toNat]

theorem ofNat_third (c : UInt8) (m : Nat) :
    UInt8.ofNat ((m * 4 + c.toNat / 64) % 4 * 64 + c.toNat % 64) = c := by
  have hc := c.toNat_lt
  have hparts : (m * 4 + c.toNat / 64) % 4 * 64 + c.toNat % 64 = c.toNat := by omega
  rw [hparts, UInt8.ofNat_toNat]

/-- **Bytes are read back from their text.** -/
theorem decode?_encode : ∀ bytes : List UInt8, decode? (encode bytes) = some bytes
  | [] => rfl
  | [a] => by
      have ha := a.toNat_lt
      have hfirst := ofNat_first a (show 0 < 16 by decide)
      rw [Nat.add_zero] at hfirst
      simp only [encode, decode?, decodeLast?, value?_digit (show a.toNat / 4 < 64 by omega),
        value?_digit (show a.toNat % 4 * 16 < 64 by omega), Option.bind_eq_bind, Option.bind_some,
        and_self, if_true, show a.toNat % 4 * 16 % 16 = 0 by omega, hfirst]
  | [a, b] => by
      have ha := a.toNat_lt
      have hb := b.toNat_lt
      have hr : b.toNat % 16 * 4 < 64 := by omega
      have hsecond := ofNat_second b (a.toNat % 4) (show 0 < 4 by decide)
      rw [Nat.add_zero] at hsecond
      simp only [encode, decode?, decodeLast?, value?_digit (show a.toNat / 4 < 64 by omega),
        value?_digit (show a.toNat % 4 * 16 + b.toNat / 16 < 64 by omega), value?_digit hr,
        digit_ne_pad hr, Option.bind_eq_bind, Option.bind_some, false_and, if_false, if_true,
        show b.toNat % 16 * 4 % 4 = 0 by omega, ofNat_first a (show b.toNat / 16 < 16 by omega),
        hsecond]
  | a :: b :: c :: rest => by
      have ha := a.toNat_lt
      have hb := b.toNat_lt
      have hc := c.toNat_lt
      have hp := value?_digit (show a.toNat / 4 < 64 by omega)
      have hq := value?_digit (show a.toNat % 4 * 16 + b.toNat / 16 < 64 by omega)
      have hr : b.toNat % 16 * 4 + c.toNat / 64 < 64 := by omega
      have hs : c.toNat % 64 < 64 := by omega
      have hfirst := ofNat_first a (show b.toNat / 16 < 16 by omega)
      have hsecond := ofNat_second b (a.toNat % 4) (show c.toNat / 64 < 4 by omega)
      have ih := decode?_encode rest
      simp only [encode]
      -- the last group is read on its own, even where nothing of it is padding
      by_cases hrest : encode rest = []
      · rw [hrest] at ih ⊢
        obtain rfl : rest = [] := (Option.some.inj ih).symm
        simp only [decode?, decodeLast?, hp, hq, value?_digit hr, value?_digit hs, digit_ne_pad hr,
          digit_ne_pad hs, Option.bind_eq_bind, Option.bind_some, false_and, if_false, hfirst,
          hsecond, ofNat_third]
      · rw [decode?_group hrest hp hq (value?_digit hr) (value?_digit hs), ih, hfirst, hsecond,
          ofNat_third]
        rfl

/-- A character of a run of the alphabet, told by its distance from the first of the run. -/
theorem ofNat_distance {first last c : Char} (h : first ≤ c ∧ c ≤ last) :
    c.toNat - first.toNat ≤ last.toNat - first.toNat ∧
      Char.ofNat (first.toNat + (c.toNat - first.toNat)) = c := by
  have hlow : first.toNat ≤ c.toNat := UInt32.le_iff_toNat_le.mp h.1
  have hhigh : c.toNat ≤ last.toNat := UInt32.le_iff_toNat_le.mp h.2
  exact ⟨Nat.sub_le_sub_right hhigh _, by rw [Nat.add_sub_cancel' hlow, Char.ofNat_toNat]⟩

/-- A character that has a value is the digit of it. -/
theorem digit_of_value? {c : Char} {n : Nat} (h : value? c = some n) : n < 64 ∧ digit n = c := by
  simp only [value?] at h
  split_ifs at h with hupper hlower hdecimal hplus hslash <;> cases h
  · obtain ⟨hle, hc⟩ := ofNat_distance hupper
    have hn : c.toNat - 'A'.toNat < 26 := Nat.lt_of_le_of_lt hle (by decide)
    exact ⟨by omega, by rw [digit, if_pos hn, hc]⟩
  · obtain ⟨hle, hc⟩ := ofNat_distance hlower
    have hn : c.toNat - 'a'.toNat < 26 := Nat.lt_of_le_of_lt hle (by decide)
    exact ⟨by omega,
      by rw [digit, if_neg (by omega), if_pos (by omega), Nat.add_sub_cancel, hc]⟩
  · obtain ⟨hle, hc⟩ := ofNat_distance hdecimal
    have hn : c.toNat - '0'.toNat < 10 := Nat.lt_of_le_of_lt hle (by decide)
    exact ⟨by omega, by
      rw [digit, if_neg (by omega), if_neg (by omega), if_pos (by omega), Nat.add_sub_cancel, hc]⟩
  · exact ⟨by decide, hplus.symm⟩
  · exact ⟨by decide, hslash.symm⟩

/-- The alphabet. -/
example : String.ofList ((List.range 64).map digit) =
    "ABCDEFGHIJKLMNOPQRSTUVWXYZabcdefghijklmnopqrstuvwxyz0123456789+/" := by decide

/-! Six-bit values, put together to bytes and taken apart again. -/

theorem toNat_first {p q : Nat} (hp : p < 64) (hq : q < 64) :
    (UInt8.ofNat (p * 4 + q / 16)).toNat = p * 4 + q / 16 :=
  UInt8.toNat_ofNat_of_lt' (show p * 4 + q / 16 < 256 by omega)

theorem toNat_second (q : Nat) {r : Nat} (hr : r < 64) :
    (UInt8.ofNat (q % 16 * 16 + r / 4)).toNat = q % 16 * 16 + r / 4 :=
  UInt8.toNat_ofNat_of_lt' (show q % 16 * 16 + r / 4 < 256 by omega)

theorem toNat_third (r : Nat) {s : Nat} (hs : s < 64) :
    (UInt8.ofNat (r % 4 * 64 + s)).toNat = r % 4 * 64 + s :=
  UInt8.toNat_ofNat_of_lt' (show r % 4 * 64 + s < 256 by omega)

/-- Three bytes made of four values have these values. -/
theorem encode_group {p q r s : Nat} (hp : p < 64) (hq : q < 64) (hr : r < 64) (hs : s < 64)
    (rest : List UInt8) :
    encode (UInt8.ofNat (p * 4 + q / 16) :: UInt8.ofNat (q % 16 * 16 + r / 4) ::
        UInt8.ofNat (r % 4 * 64 + s) :: rest) =
      digit p :: digit q :: digit r :: digit s :: encode rest := by
  simp only [encode, toNat_first hp hq, toNat_second q hr, toNat_third r hs]
  rw [show (p * 4 + q / 16) / 4 = p by omega,
    show (p * 4 + q / 16) % 4 * 16 + (q % 16 * 16 + r / 4) / 16 = q by omega,
    show (q % 16 * 16 + r / 4) % 16 * 4 + (r % 4 * 64 + s) / 64 = r by omega,
    show (r % 4 * 64 + s) % 64 = s by omega]

/-- A last group of characters is the text of its bytes. -/
theorem encode_of_decodeLast? {p q r s : Char} {bytes : List UInt8}
    (h : decodeLast? p q r s = some bytes) : encode bytes = [p, q, r, s] := by
  simp only [decodeLast?, Option.bind_eq_bind, Option.bind_eq_some_iff] at h
  obtain ⟨a, hp, b, hq, h⟩ := h
  obtain ⟨ha, rfl⟩ := digit_of_value? hp
  obtain ⟨hb, rfl⟩ := digit_of_value? hq
  split at h
  · next hpad =>
      -- one byte: the low bits of the second value are zero
      obtain ⟨rfl, rfl⟩ := hpad
      obtain ⟨hbits, h⟩ := Option.ite_none_right_eq_some.mp h
      cases h
      simp only [encode, toNat_first ha hb]
      rw [show (a * 4 + b / 16) / 4 = a by omega, show (a * 4 + b / 16) % 4 * 16 = b by omega]
  · rw [Option.bind_eq_some_iff] at h
    obtain ⟨c, hr, h⟩ := h
    obtain ⟨hc, rfl⟩ := digit_of_value? hr
    split at h
    · next hs =>
        -- two bytes: the low bits of the third value are zero
        obtain ⟨hbits, h⟩ := Option.ite_none_right_eq_some.mp h
        cases h
        simp only [encode, toNat_first ha hb, toNat_second b hc, hs]
        rw [show (a * 4 + b / 16) / 4 = a by omega,
          show (a * 4 + b / 16) % 4 * 16 + (b % 16 * 16 + c / 4) / 16 = b by omega,
          show (b % 16 * 16 + c / 4) % 16 * 4 = c by omega]
    · rw [Option.bind_eq_some_iff] at h
      obtain ⟨d, hs, h⟩ := h
      obtain ⟨hd, rfl⟩ := digit_of_value? hs
      cases h
      exact encode_group ha hb hc hd []

/-- **Only the text of some bytes is read.** -/
theorem encode_of_decode? {cs : List Char} {bytes : List UInt8} (h : decode? cs = some bytes) :
    encode bytes = cs := by
  fun_induction decode? cs generalizing bytes with
  | case1 =>
      cases h
      rfl
  | case2 p q r s => exact encode_of_decodeLast? h
  | case3 p q r s rest hrest ih =>
      simp only [Option.bind_eq_bind, Option.bind_eq_some_iff] at h
      obtain ⟨a, hp, b, hq, c, hr, d, hs, tail, htail, h⟩ := h
      obtain ⟨ha, rfl⟩ := digit_of_value? hp
      obtain ⟨hb, rfl⟩ := digit_of_value? hq
      obtain ⟨hc, rfl⟩ := digit_of_value? hr
      obtain ⟨hd, rfl⟩ := digit_of_value? hs
      cases h
      exact (encode_group ha hb hc hd tail).trans (by rw [ih htail])
  | case4 => cases h

/-- **Reading accepts exactly what writing produces.** -/
theorem decode?_eq_some_iff {cs : List Char} {bytes : List UInt8} :
    decode? cs = some bytes ↔ cs = encode bytes :=
  ⟨fun h => (encode_of_decode? h).symm, fun h => h ▸ decode?_encode bytes⟩

end RelaySql.Base64
