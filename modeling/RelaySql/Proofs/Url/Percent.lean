import RelaySql.Url.Percent

/-!
# Url — texts up to percent encoding

Two texts are the same up to percent encoding if they decode to the same bytes.  A text is read from
the left: a percent sign with two digits is a byte, and every other character stands for itself.

* `Percent.reading`: induction along that reading.
* `Percent.decode_encode`: an encoding that leaves percent signs and digits alone keeps a text up to
  percent encoding.
* `Percent.decode_append_cons`: a text is decoded in two parts around a character that is no digit.
* `Percent.length_decode_filter`: every character that is left out of a text shortens its bytes.
* `Percent.decode_eq_self_iff`: decoding gives the text itself exactly if it holds no encoded byte.
-/

namespace RelaySql.Url.Percent

/-- The same text up to percent encoding. -/
def Equiv (s t : String) : Prop := decode s.toList = decode t.toList

/-- Percent signs and hexadecimal digits are among the characters. -/
structure Spares (holds : Char → Bool) : Prop where
  percent : holds '%' = true
  digit : ∀ {c n}, hexValue? c = some n → holds c = true

/-! ### Reading from the left -/

/-- Two hexadecimal digits come first. -/
def startsWithByte : List Char → Bool
  | a :: b :: _ => (hexValue? a).isSome && (hexValue? b).isSome
  | _ => false

theorem exists_of_startsWithByte {cs : List Char} (h : startsWithByte cs = true) :
    ∃ a b rest m n, cs = a :: b :: rest ∧ hexValue? a = some m ∧ hexValue? b = some n := by
  match cs with
  | a :: b :: rest =>
      simp only [startsWithByte, Bool.and_eq_true, Option.isSome_iff_exists] at h
      obtain ⟨⟨m, ha⟩, ⟨n, hb⟩⟩ := h
      exact ⟨a, b, rest, m, n, rfl, ha, hb⟩

/-- The character does not begin an encoded byte with what follows it. -/
def StandsAlone (c : Char) (rest : List Char) : Prop := c = '%' → startsWithByte rest = false

/-- What does not stand alone begins an encoded byte. -/
theorem exists_of_not_standsAlone {c : Char} {rest : List Char} (h : ¬ StandsAlone c rest) :
    c = '%' ∧ ∃ a b after m n, rest = a :: b :: after ∧ hexValue? a = some m ∧
      hexValue? b = some n := by
  obtain ⟨hc, hbyte⟩ := Classical.not_imp.mp h
  exact ⟨hc, exists_of_startsWithByte ((Bool.not_eq_false _).mp hbyte)⟩

theorem decode_byte {a b : Char} {h l : Nat} (ha : hexValue? a = some h) (hb : hexValue? b = some l)
    (rest : List Char) :
    decode ('%' :: a :: b :: rest) = UInt8.ofNat (16 * h + l) :: decode rest := by
  rw [decode, ha, hb]

theorem decode_cons {c : Char} {rest : List Char} (h : StandsAlone c rest) :
    decode (c :: rest) = String.utf8EncodeChar c ++ decode rest := by
  match c, rest with
  | c, [] => rw [decode]; rintro _ _ _ - ⟨⟩
  | c, [a] => rw [decode]; rintro _ _ _ - ⟨⟩
  | c, a :: b :: rest =>
      by_cases hc : c = '%'
      · subst hc
        have hnone := h rfl
        simp only [startsWithByte, Bool.and_eq_false_iff, Option.isSome_eq_false_iff,
          Option.isNone_iff_eq_none] at hnone
        rw [decode]
        rcases hnone with ha | hb
        · rw [ha]
        · rw [hb]
          cases hexValue? a <;> rfl
      · rw [decode]
        rintro _ _ _ rfl
        exact absurd rfl hc

/-- **Induction along the reading of a text**: nothing, an encoded byte, or a character that stands
alone. -/
theorem reading {motive : List Char → Prop} (nil : motive [])
    (byte : ∀ {a b h l} rest, hexValue? a = some h → hexValue? b = some l → motive rest →
      motive ('%' :: a :: b :: rest))
    (alone : ∀ {c rest}, StandsAlone c rest → motive rest → motive (c :: rest))
    (cs : List Char) : motive cs := by
  induction hn : cs.length using Nat.strongRecOn generalizing cs with
  | ind n ih =>
      subst hn
      match cs with
      | [] => exact nil
      | c :: rest =>
          by_cases h : StandsAlone c rest
          · exact alone h (ih _ (Nat.lt_succ_self _) rest rfl)
          · obtain ⟨rfl, a, b, rest, _, _, rfl, ha, hb⟩ := exists_of_not_standsAlone h
            exact byte rest ha hb (ih _ (by simp only [List.length_cons]; omega) rest rfl)

/-! ### Encoding -/

theorem hexValue?_toUpper_digitChar : ∀ n < 16, hexValue? (Nat.digitChar n).toUpper = some n := by
  decide

theorem decode_byte_append (b : UInt8) (cs : List Char) :
    decode (byte b ++ cs) = b :: decode cs := by
  have hlt : b.toNat < 256 := b.toNat_lt
  have hhigh := hexValue?_toUpper_digitChar (b.toNat / 16) (by omega)
  have hlow := hexValue?_toUpper_digitChar (b.toNat % 16) (Nat.mod_lt _ (by decide))
  have hvalue : 16 * (b.toNat / 16) + b.toNat % 16 = b.toNat := Nat.div_add_mod ..
  simp only [byte, List.cons_append, List.nil_append]
  rw [decode_byte hhigh hlow, hvalue, UInt8.ofNat_toNat]

theorem decode_bytes_append (bs : List UInt8) (cs : List Char) :
    decode (bs.flatMap byte ++ cs) = bs ++ decode cs := by
  induction bs with
  | nil => rfl
  | cons b bs ih =>
      rw [List.flatMap_cons, List.append_assoc, decode_byte_append, ih, List.cons_append]

variable {special : Char → Bool}

theorem encode_cons (c : Char) (cs : List Char) :
    encode special (c :: cs) =
      (if special c then (String.utf8EncodeChar c).flatMap byte else [c]) ++ encode special cs :=
  rfl

theorem encode_cons_of_not {c : Char} (h : special c = false) (cs : List Char) :
    encode special (c :: cs) = c :: encode special cs := by
  rw [encode_cons, if_neg (Bool.eq_false_iff.mp h), List.singleton_append]

/-- What a special character is encoded as begins with a percent sign. -/
theorem exists_encode_cons {c : Char} (h : special c = true) (cs : List Char) :
    ∃ rest, encode special (c :: cs) = '%' :: rest := by
  rw [encode_cons, if_pos h]
  cases hc : String.utf8EncodeChar c with
  | nil =>
      have hlength := String.length_utf8EncodeChar c
      rw [hc] at hlength
      exact absurd hlength.symm (Nat.pos_iff_ne_zero.mp c.utf8Size_pos)
  | cons b bs => exact ⟨_, rfl⟩

theorem startsWithByte_percent (cs : List Char) : startsWithByte ('%' :: cs) = false := by
  cases cs <;> rfl

theorem startsWithByte_cons_percent (c : Char) (cs : List Char) :
    startsWithByte (c :: '%' :: cs) = false := Bool.and_false _

/-- An encoding makes no text begin with a byte that did not. -/
theorem startsWithByte_encode {cs : List Char}
    (h : startsWithByte cs = false) : startsWithByte (encode special cs) = false := by
  match cs with
  | [] => rfl
  | c :: cs =>
      cases hc : special c with
      | true =>
          obtain ⟨rest, hrest⟩ := exists_encode_cons hc cs
          rw [hrest, startsWithByte_percent]
      | false =>
          rw [encode_cons_of_not hc]
          match cs with
          | [] => rfl
          | d :: cs =>
              cases hd : special d with
              | true =>
                  obtain ⟨rest, hrest⟩ := exists_encode_cons hd cs
                  rw [hrest, startsWithByte_cons_percent]
              | false =>
                  rw [encode_cons_of_not hd]
                  exact h

/-- **An encoding keeps a text** up to percent encoding, if it leaves percent signs and digits
alone. -/
theorem decode_encode (hspares : Spares fun c => !special c) (cs : List Char) :
    decode (encode special cs) = decode cs := by
  have hdigit : ∀ {c n}, hexValue? c = some n → special c = false := fun h => by
    simpa using hspares.digit h
  induction cs using reading with
  | nil => rfl
  | byte rest ha hb ih =>
      rw [encode_cons_of_not (by simpa using hspares.percent), encode_cons_of_not (hdigit ha),
        encode_cons_of_not (hdigit hb), decode_byte ha hb, decode_byte ha hb, ih]
  | @alone c rest h ih =>
      rw [decode_cons h, ← ih]
      cases hc : special c with
      | true => rw [encode_cons, if_pos hc, decode_bytes_append]
      | false =>
          rw [encode_cons_of_not hc, decode_cons fun hp => startsWithByte_encode (h hp)]

/-! ### Parts of a text -/

theorem startsWithByte_append_cons {c : Char} (hc : hexValue? c = none) (ys : List Char)
    {xs : List Char} (h : startsWithByte xs = false) : startsWithByte (xs ++ c :: ys) = false := by
  match xs with
  | [] => cases ys <;> simp [startsWithByte, hc]
  | [a] => simp [startsWithByte, hc]
  | a :: b :: xs => exact h

/-- A text is decoded in two parts around a character that is no digit. -/
theorem decode_append_cons {c : Char} (hc : hexValue? c = none) (xs ys : List Char) :
    decode (xs ++ c :: ys) = decode xs ++ decode (c :: ys) := by
  induction xs using reading with
  | nil => rfl
  | byte rest ha hb ih =>
      simp only [List.cons_append]
      rw [decode_byte ha hb, decode_byte ha hb, ih, List.cons_append]
  | alone h ih =>
      rw [List.cons_append, decode_cons fun hp => startsWithByte_append_cons hc ys (h hp),
        decode_cons h, ih, List.append_assoc]

/-- A text goes on with at least one byte. -/
theorem length_decode_lt_append {c : Char} (hc : hexValue? c = none) (hp : c ≠ '%')
    (xs ys : List Char) : (decode xs).length < (decode (xs ++ c :: ys)).length := by
  have hpos := c.utf8Size_pos
  rw [decode_append_cons hc, decode_cons fun heq => absurd heq hp, List.length_append,
    List.length_append, String.length_utf8EncodeChar]
  omega

theorem ne_percent_of_hexValue? {c : Char} {n : Nat} (h : hexValue? c = some n) : c ≠ '%' := by
  rintro rfl
  cases h

/-- A character in front adds at most its own bytes. -/
theorem length_decode_cons_le (c : Char) (cs : List Char) :
    (decode (c :: cs)).length ≤ c.utf8Size + (decode cs).length := by
  by_cases h : StandsAlone c cs
  · exact Nat.le_of_eq (by rw [decode_cons h, List.length_append, String.length_utf8EncodeChar])
  · obtain ⟨rfl, a, b, rest, _, _, rfl, ha, hb⟩ := exists_of_not_standsAlone h
    rw [decode_byte ha hb, decode_cons fun hp => absurd hp (ne_percent_of_hexValue? ha),
      decode_cons fun hp => absurd hp (ne_percent_of_hexValue? hb)]
    have hpos := Char.utf8Size_pos '%'
    simp only [List.length_cons, List.length_append]
    omega

/-- **Every character that is left out of a text shortens its bytes**, if percent signs and digits
are not left out. -/
theorem length_decode_filter {keeps : Char → Bool} (hspares : Spares keeps) (cs : List Char) :
    (decode (cs.filter keeps)).length + (cs.filter fun c => !keeps c).length ≤
      (decode cs).length := by
  induction cs using reading with
  | nil => exact Nat.le_refl _
  | byte rest ha hb ih =>
      simp only [List.filter_cons, hspares.percent, hspares.digit ha, hspares.digit hb, if_true,
        Bool.not_true, Bool.false_eq_true, if_false]
      rw [decode_byte ha hb, decode_byte ha hb, List.length_cons, List.length_cons]
      omega
  | @alone c rest h ih =>
      rw [decode_cons h, List.length_append, String.length_utf8EncodeChar]
      cases hc : keeps c with
      | true =>
          have hle := length_decode_cons_le c (rest.filter keeps)
          simp only [List.filter_cons, hc, if_true, Bool.not_true, Bool.false_eq_true, if_false]
          omega
      | false =>
          have hpos := c.utf8Size_pos
          simp only [List.filter_cons, hc, Bool.not_false, Bool.false_eq_true, if_false, if_true,
            List.length_cons]
          omega

/-! ### Texts without encoded bytes -/

/-- Somewhere in the text a percent sign begins an encoded byte. -/
def HoldsByte (cs : List Char) : Prop :=
  ∃ before after, cs = before ++ '%' :: after ∧ startsWithByte after = true

theorem HoldsByte.cons {cs : List Char} (h : HoldsByte cs) (c : Char) : HoldsByte (c :: cs) := by
  obtain ⟨before, after, rfl, hbyte⟩ := h
  exact ⟨c :: before, after, rfl, hbyte⟩

theorem length_decode_append_le (xs ys : List Char) :
    (decode (xs ++ ys)).length ≤
      (xs.flatMap String.utf8EncodeChar).length + (decode ys).length := by
  induction xs with
  | nil => exact Nat.le_add_left _ _
  | cons c xs ih =>
      have hle := length_decode_cons_le c (xs ++ ys)
      rw [List.cons_append, List.flatMap_cons, List.length_append, String.length_utf8EncodeChar]
      omega

/-- An encoded byte is shorter than its text. -/
theorem length_decode_lt_of_holdsByte {cs : List Char} (h : HoldsByte cs) :
    (decode cs).length < (cs.flatMap String.utf8EncodeChar).length := by
  obtain ⟨before, after, rfl, hbyte⟩ := h
  obtain ⟨a, b, rest, _, _, rfl, ha, hb⟩ := exists_of_startsWithByte hbyte
  have hle := length_decode_append_le before ('%' :: a :: b :: rest)
  have hrest := length_decode_append_le rest []
  rw [decode_byte ha hb, List.length_cons] at hle
  rw [List.append_nil] at hrest
  have hempty : (decode []).length = 0 := by rw [decode]; rfl
  have ha := a.utf8Size_pos
  have hb := b.utf8Size_pos
  simp only [List.flatMap_append, List.flatMap_cons, List.length_append,
    String.length_utf8EncodeChar]
  omega

/-- **Decoding gives the text itself** exactly if it holds no encoded byte. -/
theorem decode_eq_self_iff {cs : List Char} :
    decode cs = cs.flatMap String.utf8EncodeChar ↔ ¬ HoldsByte cs := by
  constructor
  · intro h hbyte
    exact absurd (length_decode_lt_of_holdsByte hbyte) (by rw [h]; exact Nat.lt_irrefl _)
  · intro h
    induction cs using reading with
    | nil => rw [decode]; rfl
    | @byte a b _ _ rest ha hb _ =>
        exact absurd ⟨[], a :: b :: rest, rfl, by simp [startsWithByte, ha, hb]⟩ h
    | alone halone ih =>
        rw [decode_cons halone, List.flatMap_cons, ih fun hrest => h (hrest.cons _)]

end RelaySql.Url.Percent
