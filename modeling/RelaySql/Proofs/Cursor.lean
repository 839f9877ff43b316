import Mathlib.Data.List.Basic
import RelaySql.Cursor
import RelaySql.Proofs.Base64

/-!
# Cursors — an offset is read back from its cursor, and from no other text

* `Cursor.offset_ofOffset`: an offset is read back from its cursor, if it fits the row counts.
* `Cursor.toDigits_ofDigits`: digits without a leading zero are those of the number they write.
* `Cursor.offset?_eq_some_iff`: so an offset is read from its own cursor only.
* `Cursor.offset_iff_ofOffset`: every other text is refused.
-/

namespace RelaySql.Cursor

/-- Characters below 256 are read back from their bytes. -/
theorem asciiChars_asciiBytes {cs : List Char} (h : ∀ c ∈ cs, c.toNat < 256) :
    asciiChars (asciiBytes cs) = cs := by
  rw [asciiChars, asciiBytes, List.map_map]
  refine (List.map_congr_left fun c hc => ?_).trans (List.map_id cs)
  have hc : (UInt8.ofNat c.toNat).toNat = c.toNat := by
    simpa using Nat.mod_eq_of_lt (h c hc)
  simp [hc]

/-- Bytes are read back from their characters. -/
theorem asciiBytes_asciiChars (bytes : List UInt8) : asciiBytes (asciiChars bytes) = bytes := by
  rw [asciiBytes, asciiChars, List.map_map]
  refine (List.map_congr_left fun b _ => ?_).trans (List.map_id bytes)
  have hvalid : b.toNat.isValidChar := .inl (Nat.lt_trans b.toNat_lt (by decide))
  have hb : (Char.ofNat b.toNat).toNat = b.toNat := by
    rw [Char.ofNat, dif_pos hvalid]
    rfl
  simp only [Function.comp_apply, hb, UInt8.ofNat_toNat, id_eq]

/-- The digits of a number begin with zero only if they are those of zero. -/
theorem head?_toDigits {n : Nat} (h : 0 < n) : (Nat.toDigits 10 n).head? ≠ some '0' := by
  induction n using Nat.strongRecOn with
  | ind n ih =>
      rcases Nat.lt_or_ge n 10 with hlt | hge
      · rw [Nat.toDigits_of_lt_base hlt]
        have : ∀ m < 10, 0 < m → [m.digitChar].head? ≠ some '0' := by decide
        exact this n hlt h
      · rw [Nat.toDigits_of_base_le (by decide) hge, List.head?_append_of_ne_nil _ Nat.toDigits_ne_nil]
        exact ih (n / 10) (by omega) (by omega)

theorem digitChar_of_isDigit {c : Char} (h : c.isDigit) :
    c.toNat - '0'.toNat < 10 ∧ (c.toNat - '0'.toNat).digitChar = c := by
  simp only [Char.isDigit, Bool.and_eq_true, decide_eq_true_eq] at h
  have hlow : '0'.toNat ≤ c.toNat := UInt32.le_iff_toNat_le.mp h.1
  have hhigh : c.toNat ≤ '9'.toNat := UInt32.le_iff_toNat_le.mp h.2
  have hlt : c.toNat - '0'.toNat < 10 :=
    Nat.lt_of_le_of_lt (Nat.sub_le_sub_right hhigh _) (by decide)
  refine ⟨hlt, Char.toNat_inj.mp ?_⟩
  rw [Nat.toNat_digitChar_of_lt_ten hlt]
  exact Nat.add_sub_cancel' hlow

/-- Digits behind a number above zero are the last digits of the number they make with it. -/
theorem toDigits_ofDigitChars {ds : List Char} (hds : ∀ c ∈ ds, c.isDigit) {m : Nat}
    (hm : 0 < m) : Nat.toDigits 10 (Nat.ofDigitChars 10 ds m) = Nat.toDigits 10 m ++ ds := by
  induction ds generalizing m with
  | nil => simp
  | cons c ds ih =>
      obtain ⟨hc, hds⟩ := List.forall_mem_cons.mp hds
      obtain ⟨hlt, hchar⟩ := digitChar_of_isDigit hc
      have hstep : Nat.toDigits 10 (10 * m + (c.toNat - '0'.toNat)) = Nat.toDigits 10 m ++ [c] := by
        rw [← Nat.toDigits_append_toDigits (by decide) hm hlt, Nat.toDigits_of_lt_base hlt, hchar]
      rw [Nat.ofDigitChars_cons, ih hds (by omega), hstep, List.append_assoc,
        List.singleton_append]

/-- **Digits without a leading zero** are those of the number they write. -/
theorem toDigits_ofDigits {ds : List Char} (hne : ds ≠ []) (hds : ∀ c ∈ ds, c.isDigit)
    (hzero : ds = ['0'] ∨ ds.head? ≠ some '0') : Nat.toDigits 10 (ofDigits ds) = ds := by
  rcases hzero with rfl | hzero
  · rfl
  cases ds with
  | nil => exact absurd rfl hne
  | cons c ds =>
      obtain ⟨hc, hds⟩ := List.forall_mem_cons.mp hds
      obtain ⟨hlt, hchar⟩ := digitChar_of_isDigit hc
      have hpos : 0 < c.toNat - '0'.toNat := by
        refine Nat.pos_of_ne_zero fun h => hzero ?_
        rw [List.head?_cons, ← hchar, h]
        rfl
      have hvalue : ofDigits (c :: ds) = Nat.ofDigitChars 10 ds (c.toNat - '0'.toNat) :=
        (@Nat.ofDigitChars_cons 10 c ds 0).trans (by rw [Nat.mul_zero, Nat.zero_add])
      rw [hvalue, toDigits_ofDigitChars hds hpos, Nat.toDigits_of_lt_base hlt, hchar,
        List.singleton_append]

/-- A number is read back from its digits. -/
theorem offsetOfDigits?_toDigits {n : Nat} (h : n ≤ maxInt64) :
    offsetOfDigits? (Nat.toDigits 10 n) = some n := by
  have hvalue : ofDigits (Nat.toDigits 10 n) = n := Nat.ofDigitChars_ten_toDigits
  have hdigits : (Nat.toDigits 10 n).all Char.isDigit = true :=
    List.all_eq_true.mpr fun c hc => Nat.isDigit_of_mem_toDigits (by decide) (by decide) hc
  have hzero : Nat.toDigits 10 n = ['0'] ∨ (Nat.toDigits 10 n).head? ≠ some '0' := by
    rcases Nat.eq_zero_or_pos n with rfl | hpos
    · exact .inl (Nat.toDigits_zero 10)
    · exact .inr (head?_toDigits hpos)
  simp only [offsetOfDigits?, hvalue]
  exact if_pos ⟨⟨Nat.toDigits_ne_nil, hdigits, hzero⟩, h⟩

theorem offsetOfDigits?_eq_some_iff {ds : List Char} {n : Nat} :
    offsetOfDigits? ds = some n ↔ n ≤ maxInt64 ∧ ds = Nat.toDigits 10 n := by
  constructor
  · intro h
    simp only [offsetOfDigits?] at h
    obtain ⟨⟨⟨hne, hds, hzero⟩, hle⟩, h⟩ := Option.ite_none_right_eq_some.mp h
    obtain rfl := Option.some.inj h
    exact ⟨hle, (toDigits_ofDigits hne (List.all_eq_true.mp hds) hzero).symm⟩
  · rintro ⟨hle, rfl⟩
    exact offsetOfDigits?_toDigits hle

/-- The mark and the digits of an offset are read back from their bytes. -/
theorem asciiChars_marked (n : Nat) :
    asciiChars (asciiBytes (mark ++ Nat.toDigits 10 n)) = mark ++ Nat.toDigits 10 n := by
  have hmark : (mark.all fun c => c.toNat < 256) = true := by decide
  refine asciiChars_asciiBytes (List.forall_mem_append.mpr ⟨fun c hc => ?_, fun c hc => ?_⟩)
  · exact of_decide_eq_true (List.all_eq_true.mp hmark c hc)
  · have hc := Nat.isDigit_of_mem_toDigits (by decide) (by decide) hc
    simp only [Char.isDigit, Bool.and_eq_true, decide_eq_true_eq] at hc
    exact Nat.lt_of_le_of_lt (UInt32.le_iff_toNat_le.mp hc.2) (by decide)

/-- **An offset is read back from its cursor.** -/
theorem offset_ofOffset {n : Nat} (h : n ≤ maxInt64) : (ofOffset n).offset = .ok n := by
  have hoffset : (ofOffset n).offset? = some n := by
    simp only [offset?, ofOffset, String.toList_ofList, Base64.decode?_encode, Option.bind_eq_bind,
      Option.bind_some, asciiChars_marked, List.take_left, List.drop_left, if_true,
      offsetOfDigits?_toDigits h]
  rw [offset, hoffset]

theorem ofOffset_eq_iff {c : Cursor} {n : Nat} :
    c = ofOffset n ↔
      Base64.decode? c.text.toList = some (asciiBytes (mark ++ Nat.toDigits 10 n)) := by
  rw [Base64.decode?_eq_some_iff]
  constructor
  · rintro rfl
    exact String.toList_ofList
  · intro h
    rw [ofOffset, ← h, String.ofList_toList]

/-- **Distinct offsets have distinct cursors.** -/
theorem ofOffset_injective : Function.Injective ofOffset := by
  intro m n h
  have hm := ofOffset_eq_iff.mp (Eq.refl (ofOffset m))
  have hbytes := Option.some.inj (hm.symm.trans (ofOffset_eq_iff.mp h))
  have hdigits : Nat.toDigits 10 m = Nat.toDigits 10 n := by
    have h := congrArg asciiChars hbytes
    rwa [asciiChars_marked, asciiChars_marked, List.append_cancel_left_eq] at h
  have hvalue : ∀ k, ofDigits (Nat.toDigits 10 k) = k := fun _ => Nat.ofDigitChars_ten_toDigits
  rw [← hvalue m, hdigits, hvalue n]

/-- **An offset is read from its own cursor only.** -/
theorem offset?_eq_some_iff {c : Cursor} {n : Nat} :
    c.offset? = some n ↔ n ≤ maxInt64 ∧ c = ofOffset n := by
  rw [ofOffset_eq_iff]
  simp only [offset?, Option.bind_eq_bind, Option.bind_eq_some_iff]
  constructor
  · rintro ⟨bytes, hbytes, h⟩
    obtain ⟨hmark, h⟩ := Option.ite_none_right_eq_some.mp h
    obtain ⟨hle, hdigits⟩ := offsetOfDigits?_eq_some_iff.mp h
    have hchars : asciiChars bytes = mark ++ Nat.toDigits 10 n :=
      (List.take_append_drop mark.length _).symm.trans (by rw [hmark, hdigits])
    rw [← hchars, asciiBytes_asciiChars]
    exact ⟨hle, hbytes⟩
  · rintro ⟨hle, h⟩
    refine ⟨_, h, ?_⟩
    rw [asciiChars_marked, List.take_left, List.drop_left, if_pos rfl, offsetOfDigits?_toDigits hle]

theorem offset_eq_ok_iff {c : Cursor} {n : Nat} : c.offset = .ok n ↔ c.offset? = some n := by
  simp only [offset]
  cases c.offset? <;> simp

theorem offset_eq_error_iff {c : Cursor} :
    c.offset = .error (.malformedCursor c.text) ↔ c.offset? = none := by
  simp only [offset]
  cases c.offset? <;> simp

/-- **A cursor has the offset that it was made from, and a text that is no cursor has none.**  The
offsets that are read fit the row counts; every text that is not the cursor of such an offset is
refused, with the text itself. -/
theorem offset_iff_ofOffset (c : Cursor) :
    (∀ n, c.offset = .ok n ↔ n ≤ maxInt64 ∧ c = ofOffset n) ∧
      (c.offset = .error (.malformedCursor c.text) ↔ ∀ n ≤ maxInt64, c ≠ ofOffset n) ∧
      (∀ n, (ofOffset n).offset =
        if n ≤ maxInt64 then .ok n else .error (.malformedCursor (ofOffset n).text)) ∧
      Function.Injective ofOffset := by
  have hread : ∀ (c : Cursor) n, c.offset = .ok n ↔ n ≤ maxInt64 ∧ c = ofOffset n :=
    fun c n => offset_eq_ok_iff.trans offset?_eq_some_iff
  have hrefused : ∀ c : Cursor, c.offset = .error (.malformedCursor c.text) ↔
      ∀ n ≤ maxInt64, c ≠ ofOffset n := by
    intro c
    simp only [offset_eq_error_iff, Option.eq_none_iff_forall_ne_some, ne_eq, offset?_eq_some_iff,
      not_and]
  refine ⟨hread c, hrefused c, fun n => ?_, ofOffset_injective⟩
  split
  · next hle => exact offset_ofOffset hle
  · next hgt =>
      refine (hrefused _).mpr fun m hm hsame => ?_
      rw [ofOffset_injective hsame] at hgt
      exact hgt hm

end RelaySql.Cursor
