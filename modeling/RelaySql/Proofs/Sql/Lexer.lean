import RelaySql.Proofs.Sql.Literal
import RelaySql.Sql.Statement

/-!
# Literals — a list of literals is read back

A literal that begins with a single quote runs to the first quote that no other quote follows, and
two quotes in it stand for one.  Any other literal is a number or a word, and runs as far as the
characters of these do.

* `Sql.readQuoted`, `Sql.lex`: reading one literal off the front of a text.
* `Sql.lexList`: reading the literals of a list, up to the parenthesis that closes it.
* `Sql.lex_quote`: a text is read back from its literal, whatever its characters are.
* `Sql.lexList_commaSeparated`: literals are read back from a list of them.
-/

namespace RelaySql

/-! ### Numbers have a text -/

theorem Layout.place_ne_nil (digits : List Char) (point : Int) : row.place digits point ≠ [] := by
  simp only [place]
  split
  · exact List.cons_ne_nil _ _
  · split
    · exact List.append_ne_nil_of_right_ne_nil _ (List.cons_ne_nil _ _)
    · exact List.append_ne_nil_of_left_ne_nil
        (List.append_ne_nil_of_right_ne_nil _ (List.cons_ne_nil _ _)) _

theorem Layout.scientific_ne_nil (digits : List Char) (point : Int) :
    scientific digits point ≠ [] :=
  List.append_ne_nil_of_right_ne_nil _ Nat.toDigits_ne_nil

theorem Number.toList_text_ne_nil (n : Number) : n.text.toList ≠ [] := by
  have hnat : ∀ m : Nat, m.repr.toList ≠ [] := by
    intro m
    rw [Nat.toList_repr]
    exact Nat.toDigits_ne_nil
  cases n with
  | whole n =>
      cases n with
      | ofNat m => exact hnat m
      | negSucc m =>
          have h : (text (.whole (.negSucc m))).toList = ['-'] ++ (m + 1).repr.toList :=
            String.toList_append
          rw [h]
          exact List.cons_ne_nil _ _
  | real x =>
      simp only [text, Binary64.text, String.toList_ofList, Layout.chars]
      have hbody : ∀ p : Bool, (if p then Layout.row.place x.shortest.digits x.shortest.point
          else Layout.scientific x.shortest.digits x.shortest.point) ≠ [] := by
        intro p
        split
        · exact Layout.place_ne_nil _ _
        · exact Layout.scientific_ne_nil _ _
      split
      · exact List.cons_ne_nil _ _
      · exact hbody _

namespace Sql

/-! ### Reading literals -/

/-- A character of a number or of a word. -/
def isWordChar (c : Char) : Bool := c.isAlphanum || c == '-' || c == '+' || c == '.'

/-- A literal as it is read. -/
inductive Lexeme where
  /-- A quoted text, without its quotes. -/
  | text (s : String)
  /-- A number or a word. -/
  | word (s : String)
deriving DecidableEq, Repr

namespace Lexeme

/-- The literal. -/
def sql : Lexeme → String
  | text s => quote s
  | word s => s

/-- A word holds the characters of words only, and at least one. -/
def IsWhole : Lexeme → Prop
  | text _ => True
  | word s => s.toList ≠ [] ∧ ∀ c ∈ s.toList, isWordChar c = true

end Lexeme

/-- The text of a quoted literal after its opening quote, and what follows the literal. -/
def readQuoted : List Char → Option (List Char × List Char)
  | [] => none
  | '\'' :: '\'' :: r => (readQuoted r).map fun (cs, rest) => ('\'' :: cs, rest)
  | '\'' :: r => some ([], r)
  | c :: r => (readQuoted r).map fun (cs, rest) => (c :: cs, rest)

/-- The number or word that a text begins with, and what follows it. -/
def readWord (cs : List Char) : Option (List Char × List Char) :=
  if cs.takeWhile isWordChar = [] then none
  else some (cs.takeWhile isWordChar, cs.dropWhile isWordChar)

/-- The literal that a text begins with, and what follows it. -/
def lex : List Char → Option (Lexeme × List Char)
  | '\'' :: r => (readQuoted r).map fun (cs, rest) => (.text (String.ofList cs), rest)
  | cs => (readWord cs).map fun (cs, rest) => (.word (String.ofList cs), rest)

theorem readQuoted_length {cs s rest : List Char} (h : readQuoted cs = some (s, rest)) :
    rest.length < cs.length := by
  fun_induction readQuoted cs generalizing s rest with
  | case1 => cases h
  | case2 r ih =>
      obtain ⟨⟨s, rest⟩, hr, h⟩ := Option.map_eq_some_iff.mp h
      cases h
      exact Nat.lt_succ_of_lt (Nat.lt_succ_of_lt (ih hr))
  | case3 r _ =>
      cases h
      exact Nat.lt_succ_self _
  | case4 c r _ _ ih =>
      obtain ⟨⟨s, rest⟩, hr, h⟩ := Option.map_eq_some_iff.mp h
      cases h
      exact Nat.lt_succ_of_lt (ih hr)

theorem readWord_length {cs s rest : List Char} (h : readWord cs = some (s, rest)) :
    rest.length < cs.length := by
  obtain ⟨hne, h⟩ := Option.ite_none_left_eq_some.mp h
  cases h
  have hlength := congrArg List.length (@List.takeWhile_append_dropWhile _ isWordChar cs)
  rw [List.length_append] at hlength
  have hpos := List.length_pos_iff.mpr hne
  omega

/-- A literal takes at least one character. -/
theorem lex_length {cs rest : List Char} {l : Lexeme} (h : lex cs = some (l, rest)) :
    rest.length < cs.length := by
  simp only [lex] at h
  split at h
  · obtain ⟨⟨s, rest⟩, hr, h⟩ := Option.map_eq_some_iff.mp h
    cases h
    exact Nat.lt_succ_of_lt (readQuoted_length hr)
  · obtain ⟨⟨s, rest⟩, hr, h⟩ := Option.map_eq_some_iff.mp h
    cases h
    exact readWord_length hr

/-- The literals of a text with a comma and a blank between them, and what follows them from the
closing parenthesis on. -/
def lexItems (cs : List Char) : Option (List Lexeme × List Char) :=
  match _h : lex cs with
  | some (l, ',' :: ' ' :: rest) => (lexItems rest).map fun (ls, rest) => (l :: ls, rest)
  | some (l, ')' :: rest) => some ([l], ')' :: rest)
  | _ => none
termination_by cs.length
decreasing_by
  have hlength := lex_length _h
  simp only [List.length_cons] at hlength
  omega

/-- The literals of a list, which may be empty, and what follows them from the closing parenthesis
on. -/
def lexList (cs : List Char) : Option (List Lexeme × List Char) :=
  if cs.head? = some ')' then some ([], cs) else lexItems cs

/-! ### Literals are read back -/

theorem readQuoted_quoteChars {rest : List Char} (h : rest.head? ≠ some '\'') (cs : List Char) :
    readQuoted (quoteChars cs ++ '\'' :: rest) = some (cs, rest) := by
  induction cs with
  | nil =>
      -- the quote closes the literal, since none follows it
      rw [quoteChars, List.nil_append, readQuoted]
      intro r hr
      exact h (hr ▸ rfl)
  | cons c cs ih =>
      by_cases hc : c = '\''
      · subst hc
        simp only [quoteChars, if_true, List.cons_append, readQuoted, ih, Option.map_some]
      · simp only [quoteChars, if_neg hc, List.cons_append]
        rw [readQuoted, ih, Option.map_some]
        · exact fun _ h _ => hc h
        · exact hc

/-- **A text is read back from its literal.** -/
theorem lex_quote (s : String) {rest : List Char} (h : rest.head? ≠ some '\'') :
    lex ((quote s).toList ++ rest) = some (.text s, rest) := by
  have hchars : (quote s).toList ++ rest = '\'' :: (quoteChars s.toList ++ '\'' :: rest) := by
    rw [quote, String.toList_ofList, List.cons_append, List.cons_append, List.append_assoc,
      List.singleton_append]
  rw [hchars, lex, readQuoted_quoteChars h]
  simp only [Option.map_some, String.ofList_toList]

/-- What no word runs into. -/
def Closes (rest : List Char) : Prop := ∀ c ∈ rest.head?, c ≠ '\'' ∧ isWordChar c = false

theorem readWord_append {s rest : List Char} (hne : s ≠ [])
    (hs : ∀ c ∈ s, isWordChar c = true) (hrest : ∀ c ∈ rest.head?, isWordChar c = false) :
    readWord (s ++ rest) = some (s, rest) := by
  have htake : rest.takeWhile isWordChar = [] := by
    cases rest with
    | nil => rfl
    | cons c r => rw [List.takeWhile_cons, hrest c rfl]; rfl
  have hdrop : rest.dropWhile isWordChar = rest := by
    cases rest with
    | nil => rfl
    | cons c r => rw [List.dropWhile_cons, hrest c rfl]; rfl
  rw [readWord, List.takeWhile_append_of_pos hs, List.dropWhile_append_of_pos hs, htake, hdrop,
    List.append_nil, if_neg hne]

/-- **A literal is read back** before anything that it does not run into. -/
theorem lex_sql {l : Lexeme} (hl : l.IsWhole) {rest : List Char} (hrest : Closes rest) :
    lex (l.sql.toList ++ rest) = some (l, rest) := by
  cases l with
  | text s => exact lex_quote s fun h => (hrest '\'' h).1 rfl
  | word s =>
      obtain ⟨hne, hs⟩ := hl
      have hread := readWord_append hne hs fun c hc => (hrest c hc).2
      have hquote : ∀ r, s.toList ++ rest ≠ '\'' :: r := by
        intro r hr
        cases hchars : s.toList with
        | nil => exact hne hchars
        | cons c cs =>
            rw [hchars] at hs hr
            obtain rfl : c = '\'' := (List.cons.inj hr).1
            exact absurd (hs '\'' List.mem_cons_self) (by decide)
      simp only [Lexeme.sql]
      rw [lex, hread]
      · simp only [Option.map_some, String.ofList_toList]
      · exact hquote

theorem closes_cons {c : Char} (h : c ≠ '\'' ∧ isWordChar c = false) (rest : List Char) :
    Closes (c :: rest) := by
  rintro _ ⟨⟩
  exact h

/-- No literal begins with the parenthesis that closes a list. -/
theorem lexItems_parenthesis (rest : List Char) : lexItems (')' :: rest) = none := by
  have hlex : lex (')' :: rest) = none := rfl
  rw [lexItems]
  split <;> simp_all

theorem lexItems_of_comma {cs rest : List Char} {l : Lexeme}
    (h : lex cs = some (l, ',' :: ' ' :: rest)) :
    lexItems cs = (lexItems rest).map fun (ls, rest) => (l :: ls, rest) := by
  rw [lexItems]
  split <;> simp_all

theorem lexItems_of_parenthesis {cs rest : List Char} {l : Lexeme}
    (h : lex cs = some (l, ')' :: rest)) : lexItems cs = some ([l], ')' :: rest) := by
  rw [lexItems]
  split <;> simp_all

open Statement (commaSeparated)

theorem commaSeparated_cons (s t : String) (rest : List String) :
    commaSeparated (s :: t :: rest) = s ++ ", " ++ commaSeparated (t :: rest) :=
  String.intercalate_cons_cons

theorem lexItems_commaSeparated {l : Lexeme} {ls : List Lexeme} (h : ∀ x ∈ l :: ls, x.IsWhole)
    (after : List Char) :
    lexItems ((commaSeparated ((l :: ls).map Lexeme.sql)).toList ++ ')' :: after) =
      some (l :: ls, ')' :: after) := by
  induction ls generalizing l with
  | nil =>
      rw [List.map_singleton, commaSeparated, String.intercalate_singleton]
      exact lexItems_of_parenthesis (lex_sql (h l List.mem_cons_self) (closes_cons (by decide) _))
  | cons m ls ih =>
      obtain ⟨hl, hls⟩ := List.forall_mem_cons.mp h
      have htext : (commaSeparated ((l :: m :: ls).map Lexeme.sql)).toList ++ ')' :: after =
          l.sql.toList ++
            ',' :: ' ' :: ((commaSeparated ((m :: ls).map Lexeme.sql)).toList ++ ')' :: after) := by
        simp only [List.map_cons, commaSeparated_cons, String.toList_append, List.append_assoc]
        rfl
      rw [htext, lexItems_of_comma (lex_sql hl (closes_cons (by decide) _)), ih hls,
        Option.map_some]

/-- **Literals are read back from a list of them.** -/
theorem lexList_commaSeparated {ls : List Lexeme} (h : ∀ l ∈ ls, l.IsWhole) (after : List Char) :
    lexList ((commaSeparated (ls.map Lexeme.sql)).toList ++ ')' :: after) =
      some (ls, ')' :: after) := by
  cases ls with
  | nil => rfl
  | cons l ls =>
      have hitems := lexItems_commaSeparated h after
      rw [lexList, if_neg ?_, hitems]
      intro hhead
      obtain ⟨rest, hrest⟩ := List.head?_eq_some_iff.mp hhead
      rw [hrest, lexItems_parenthesis] at hitems
      cases hitems

end Sql

end RelaySql
