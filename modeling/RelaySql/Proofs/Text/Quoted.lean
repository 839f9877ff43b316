import RelaySql.Text.Quoted

/-!
# Text — what a quoted name stands for

A quoted name can be read back, so two names that are quoted alike are the same: no character is
written as another is, or as another begins.

* `Text.escapeChar_append_inj`: what is written for a character ends where it ends, whatever follows.
* `Text.quoted_injective`: a quoted name stands for one name.
-/

namespace RelaySql.Text

/-! ### Numbers in hexadecimal -/

theorem digitChar_inj : ∀ m < 16, ∀ n < 16, Nat.digitChar m = Nat.digitChar n → m = n := by decide

theorem toDigits_injective {m n : Nat} (h : Nat.toDigits 16 m = Nat.toDigits 16 n) : m = n := by
  induction m using Nat.strongRecOn generalizing n with
  | ind m ih =>
      rw [Nat.toDigits_eq_if (by decide), Nat.toDigits_eq_if (n := n) (by decide)] at h
      split at h <;> split at h
      · next hm hn => exact digitChar_inj m hm n hn (List.singleton_inj.mp h)
      -- a number of one digit, and one of more
      · next hm hn =>
          have hlength := congrArg List.length h
          simp [Nat.toDigits_ne_nil] at hlength
      · next hm hn =>
          have hlength := congrArg List.length h
          simp [Nat.toDigits_ne_nil] at hlength
      · next hm hn =>
          obtain ⟨hfront, hlast⟩ := List.append_inj' h rfl
          have hdiv := ih (m / 16) (Nat.div_lt_self (by omega) (by decide)) hfront
          have hmod := digitChar_inj (m % 16) (Nat.mod_lt _ (by decide)) (n % 16)
            (Nat.mod_lt _ (by decide)) (List.singleton_inj.mp hlast)
          omega

theorem exists_digitChar {n : Nat} {c : Char} (h : c ∈ Nat.toDigits 16 n) :
    ∃ d < 16, c = Nat.digitChar d := by
  induction n using Nat.strongRecOn with
  | ind n ih =>
      rw [Nat.toDigits_eq_if (by decide)] at h
      split at h
      · next hn => exact ⟨n, hn, List.mem_singleton.mp h⟩
      · next hn =>
          obtain h | h := List.mem_append.mp h
          · exact ih (n / 16) (Nat.div_lt_self (by omega) (by decide)) h
          · exact ⟨n % 16, Nat.mod_lt _ (by decide), List.mem_singleton.mp h⟩

theorem brace_notMem_toDigits (n : Nat) : '}' ∉ Nat.toDigits 16 n := by
  intro h
  obtain ⟨d, hd, heq⟩ := exists_digitChar h
  revert heq
  revert d
  decide

/-! ### Characters -/

/-- The control that a letter behind a backslash stands for; anything else stands for itself. -/
def control (letter : Char) : Char :=
  match letter with
  | 'n' => '\n'
  | 'r' => '\r'
  | 't' => '\t'
  | '0' => '\x00'
  | letter => letter

/-- The number of a character between braces. -/
def numbered (c : Char) : List Char := ['\\', 'u', '{'] ++ Nat.toDigits 16 c.toNat ++ ['}']

/-- What is written for a character: itself, a letter behind a backslash, or its number. -/
theorem escapeChar_cases (c : Char) :
    (escapeChar c = [c] ∧ c ≠ '\\') ∨
      (∃ letter, escapeChar c = ['\\', letter] ∧ letter ≠ 'u' ∧ c = control letter) ∨
      escapeChar c = numbered c := by
  unfold escapeChar
  split
  · exact .inr (.inl ⟨_, rfl, by decide, rfl⟩)
  · exact .inr (.inl ⟨_, rfl, by decide, rfl⟩)
  · exact .inr (.inl ⟨_, rfl, by decide, rfl⟩)
  · exact .inr (.inl ⟨_, rfl, by decide, rfl⟩)
  · exact .inr (.inl ⟨_, rfl, by decide, rfl⟩)
  · exact .inr (.inl ⟨_, rfl, by decide, rfl⟩)
  · next hbackslash _ _ _ _ =>
      split
      · exact .inl ⟨rfl, hbackslash⟩
      · exact .inr (.inr rfl)

/-- What stands before the first `x`, and after it. -/
theorem append_cons_inj {α : Type} {x : α} {a b xs ys : List α} (ha : x ∉ a) (hb : x ∉ b)
    (h : a ++ x :: xs = b ++ x :: ys) : a = b ∧ xs = ys := by
  induction a generalizing b with
  | nil =>
      cases b with
      | nil => exact ⟨rfl, (List.cons.inj h).2⟩
      | cons c b => exact absurd ((List.cons.inj h).1 ▸ List.mem_cons_self) hb
  | cons d a ih =>
      cases b with
      | nil => exact absurd ((List.cons.inj h).1 ▸ List.mem_cons_self) ha
      | cons c b =>
          obtain ⟨rfl, htail⟩ := List.cons.inj h
          obtain ⟨rfl, rfl⟩ := ih (fun hm => ha (List.mem_cons_of_mem _ hm))
            (fun hm => hb (List.mem_cons_of_mem _ hm)) htail
          exact ⟨rfl, rfl⟩

theorem numbered_append_inj {c d : Char} {xs ys : List Char}
    (h : numbered c ++ xs = numbered d ++ ys) : c = d ∧ xs = ys := by
  simp only [numbered, List.cons_append, List.nil_append, List.append_assoc, List.cons.injEq,
    true_and] at h
  obtain ⟨hdigits, hrest⟩ := append_cons_inj (brace_notMem_toDigits _) (brace_notMem_toDigits _) h
  exact ⟨Char.toNat_inj.mp (toDigits_injective hdigits), hrest⟩

/-- **What is written for a character** ends where it ends, whatever follows. -/
theorem escapeChar_append_inj {c d : Char} {xs ys : List Char}
    (h : escapeChar c ++ xs = escapeChar d ++ ys) : c = d ∧ xs = ys := by
  obtain ⟨hc, hcb⟩ | ⟨l, hc, hlu, rfl⟩ | hc := escapeChar_cases c <;>
    obtain ⟨hd, hdb⟩ | ⟨m, hd, hmu, rfl⟩ | hd := escapeChar_cases d <;>
    rw [hc, hd] at h
  · exact List.cons.inj h
  -- only an escape begins with a backslash, and only a number goes on with a `u`
  · exact absurd (List.cons.inj h).1 hcb
  · exact absurd (List.cons.inj h).1 hcb
  · exact absurd (List.cons.inj h).1.symm hdb
  · obtain ⟨rfl, hrest⟩ := List.cons.inj (List.cons.inj h).2
    exact ⟨rfl, hrest⟩
  · exact absurd (List.cons.inj (List.cons.inj h).2).1 hlu
  · exact absurd (List.cons.inj h).1.symm hdb
  · exact absurd (List.cons.inj (List.cons.inj h).2).1.symm hmu
  · exact numbered_append_inj h

theorem escapeChar_ne_nil (c : Char) : escapeChar c ≠ [] := by
  obtain ⟨h, -⟩ | ⟨l, h, -⟩ | h := escapeChar_cases c <;> rw [h] <;> exact List.cons_ne_nil _ _

theorem flatMap_escapeChar_inj {cs ds : List Char}
    (h : cs.flatMap escapeChar = ds.flatMap escapeChar) : cs = ds := by
  induction cs generalizing ds with
  | nil =>
      cases ds with
      | nil => rfl
      | cons d ds =>
          rw [List.flatMap_cons] at h
          exact absurd (List.append_eq_nil_iff.mp h.symm).1 (escapeChar_ne_nil d)
  | cons c cs ih =>
      cases ds with
      | nil =>
          rw [List.flatMap_cons] at h
          exact absurd (List.append_eq_nil_iff.mp h).1 (escapeChar_ne_nil c)
      | cons d ds =>
          rw [List.flatMap_cons, List.flatMap_cons] at h
          obtain ⟨rfl, hrest⟩ := escapeChar_append_inj h
          rw [ih hrest]

/-- **A quoted name stands for one name.** -/
theorem quoted_injective {s s' : String} (h : quoted s = quoted s') : s = s' := by
  have hlist := congrArg String.toList h
  rw [toList_quoted, toList_quoted] at hlist
  exact String.toList_inj.mp
    (flatMap_escapeChar_inj (List.append_cancel_right (List.cons.inj hlist).2))

end RelaySql.Text
