import RelaySql.Proofs.Resolver.Keys
import RelaySql.Sql.Literal

/-!
# Literals — a key is told by its literal

The text of a number holds digits, signs, points and exponent marks only; a quoted text begins with
a quote, and a truth value is a word.  So values of different kinds never share a literal.

* `Number.spelled_text`: the text of a number holds no other characters.
* `Sql.quote_injective`: texts with the same literal are the same.
* `Sql.keyText_of_literal`: values with the same literal have the same text as keys.
* `KeyKind.literal`: within one kind of values, the text of a key tells its literal.
-/

namespace RelaySql

/-! ### The text of a number -/

/-- A character that the text of a number may hold. -/
def spells (c : Char) : Bool := c.isDigit || c == '-' || c == '+' || c == '.' || c == 'e'

/-- A row of such characters. -/
def Spelled (cs : List Char) : Prop := ∀ c ∈ cs, spells c = true

instance (cs : List Char) : Decidable (Spelled cs) :=
  decidable_of_iff (cs.all spells = true) List.all_eq_true

namespace Spelled

theorem append {cs ds : List Char} (hc : Spelled cs) (hd : Spelled ds) : Spelled (cs ++ ds) :=
  List.forall_mem_append.mpr ⟨hc, hd⟩

theorem of_digits {cs : List Char} (h : ∀ c ∈ cs, c.isDigit) : Spelled cs := by
  intro c hc
  simp [spells, h c hc]

theorem of_subset {cs ds : List Char} (h : Spelled ds) (hs : cs ⊆ ds) : Spelled cs :=
  fun c hc => h c (hs hc)

theorem zeros (n : Nat) : Spelled (List.replicate n '0') :=
  of_digits fun _ hc => List.eq_of_mem_replicate hc ▸ by decide

theorem toDigits (n : Nat) : Spelled (Nat.toDigits 10 n) :=
  of_digits fun _ hc => Nat.isDigit_of_mem_toDigits (by decide) (by decide) hc

theorem decimal (d : Decimal) : Spelled d.digits := by
  simp only [Decimal.digits]
  split
  · decide
  · refine (toDigits d.coefficient).of_subset fun c hc => ?_
    rw [List.mem_reverse] at hc
    exact List.mem_reverse.mp ((List.dropWhile_sublist _).subset hc)

theorem place {digits : List Char} (hd : Spelled digits) (point : Int) :
    Spelled (Layout.row.place digits point) := by
  simp only [Layout.place]
  split
  · exact (append (by decide) (zeros _)).append hd
  · split
    · exact (hd.append (zeros _)).append (by decide)
    · exact ((hd.of_subset (List.take_subset _ _)).append (by decide)).append
        (hd.of_subset (List.drop_subset _ _))

theorem scientific {digits : List Char} (hd : Spelled digits) (point : Int) :
    Spelled (Layout.scientific digits point) := by
  simp only [Layout.scientific]
  refine (((hd.of_subset (List.take_subset _ _)).append ?_).append ?_).append (toDigits _)
  · split
    · decide
    · exact append (show Spelled ['.'] by decide) (hd.of_subset fun _ => List.mem_of_mem_tail)
  · split <;> decide

end Spelled

/-- **The text of a number** holds digits, signs, points and exponent marks only. -/
theorem Number.spelled_text (n : Number) : Spelled n.text.toList := by
  have hnat : ∀ m : Nat, Spelled m.repr.toList := by
    intro m
    rw [Nat.toList_repr]
    exact Spelled.toDigits m
  cases n with
  | whole n =>
      cases n with
      | ofNat m => exact hnat m
      | negSucc m =>
          have h : (text (.whole (.negSucc m))).toList = ['-'] ++ (m + 1).repr.toList :=
            String.toList_append
          rw [h]
          exact Spelled.append (by decide) (hnat _)
  | real x =>
      simp only [text, Binary64.text, String.toList_ofList, Layout.chars]
      have hbody : ∀ p : Bool, Spelled (if p then Layout.row.place x.shortest.digits x.shortest.point
          else Layout.scientific x.shortest.digits x.shortest.point) := by
        intro p
        split
        · exact (Spelled.decimal _).place _
        · exact (Spelled.decimal _).scientific _
      split
      · exact Spelled.append (show Spelled ['-'] by decide) (hbody _)
      · exact hbody _

/-! ### Literals -/

namespace Sql

theorem head?_quoteChars (c : Char) (cs : List Char) : (quoteChars (c :: cs)).head? = some c := by
  simp only [quoteChars]
  split <;> rfl

theorem quoteChars_injective {s t : List Char} (h : quoteChars s = quoteChars t) : s = t := by
  induction s generalizing t with
  | nil =>
      cases t with
      | nil => rfl
      | cons d t =>
          have hd := head?_quoteChars d t
          rw [← h] at hd
          cases hd
  | cons c s ih =>
      -- a quoted character begins with itself, so the first ones are the same
      have hc := head?_quoteChars c s
      cases t with
      | nil =>
          rw [h] at hc
          cases hc
      | cons d t =>
          rw [h, head?_quoteChars] at hc
          obtain rfl := Option.some.inj hc
          simp only [quoteChars] at h
          split at h
          · rw [ih (List.cons.inj (List.cons.inj h).2).2]
          · rw [ih (List.cons.inj h).2]

/-- **Texts with the same literal are the same.** -/
theorem quote_injective {s t : String} (h : quote s = quote t) : s = t := by
  have h := congrArg String.toList h
  simp only [quote, String.toList_ofList, List.cons_append, List.cons.injEq, true_and,
    List.append_cancel_right_eq] at h
  exact String.toList_inj.mp (quoteChars_injective h)

theorem quote_mem (s : String) : '\'' ∈ (quote s).toList := by
  rw [quote, String.toList_ofList]
  exact List.mem_cons_self

/-- A text that the characters of a number do not spell is no number's. -/
theorem text_ne {n : Number} {s : String} (h : ¬ Spelled s.toList) : n.text ≠ s :=
  fun he => h (he ▸ n.spelled_text)

theorem not_spelled_quote (s : String) : ¬ Spelled (quote s).toList :=
  fun h => absurd (h '\'' (quote_mem s)) (by decide)

theorem not_spelled_truth (b : Bool) : ¬ Spelled (truth b).toList := by
  cases b <;> decide

theorem quote_ne_truth (s : String) (b : Bool) : quote s ≠ truth b := by
  intro h
  have hm := h ▸ quote_mem s
  revert hm
  cases b <;> decide

/-- **Values with the same literal have the same text** as keys. -/
theorem keyText_of_literal {v w : Json} {l : String} (hv : literal v = .ok l)
    (hw : literal w = .ok l) : v.keyText? = w.keyText? := by
  cases v with
  | null | array _ | object _ => cases hv
  | number n =>
      cases hv
      cases w with
      | null | array _ | object _ => cases hw
      | number m => exact congrArg some (Except.ok.inj hw).symm
      | string s => exact absurd (Except.ok.inj hw).symm (text_ne (not_spelled_quote s))
      | boolean b => exact absurd (Except.ok.inj hw).symm (text_ne (not_spelled_truth b))
  | string s =>
      cases hv
      cases w with
      | null | array _ | object _ => cases hw
      | number m => exact absurd (Except.ok.inj hw) (text_ne (not_spelled_quote s))
      | string t => exact congrArg some (quote_injective (Except.ok.inj hw)).symm
      | boolean b => exact absurd (Except.ok.inj hw).symm (quote_ne_truth s b)
  | boolean b =>
      cases hv
      cases w with
      | null | array _ | object _ => cases hw
      | number m => exact absurd (Except.ok.inj hw) (text_ne (not_spelled_truth b))
      | string s => exact absurd (Except.ok.inj hw) (quote_ne_truth s b)
      | boolean c => cases b <;> cases c <;> first | rfl | exact absurd (Except.ok.inj hw) (by decide)

end Sql

/-! ### Kinds of keys -/

/-- The kinds of values that keys are compared within. -/
inductive KeyKind where
  | numbers
  | strings
  | booleans
deriving DecidableEq, Repr

namespace KeyKind

/-- The value is of this kind. -/
def Holds : KeyKind → Json → Prop
  | numbers, v => ∃ n, v = .number n
  | strings, v => ∃ s, v = .string s
  | booleans, v => ∃ b, v = .boolean b

/-- The literal of the value of this kind with this text. -/
def literal : KeyKind → String → String
  | numbers, key => key
  | strings, key => Sql.quote key
  | booleans, key => Sql.truth (key = "true")

/-- **Within one kind the text of a key tells its literal.** -/
theorem literal_of_holds {kind : KeyKind} {v : Json} (h : kind.Holds v) :
    ∃ key, keyText v = .ok key ∧ Sql.literal v = .ok (kind.literal key) := by
  cases kind with
  | numbers =>
      obtain ⟨n, rfl⟩ := h
      exact ⟨n.text, rfl, rfl⟩
  | strings =>
      obtain ⟨s, rfl⟩ := h
      exact ⟨s, rfl, rfl⟩
  | booleans =>
      obtain ⟨b, rfl⟩ := h
      exact ⟨toString b, rfl, by cases b <;> rfl⟩

end KeyKind

end RelaySql
