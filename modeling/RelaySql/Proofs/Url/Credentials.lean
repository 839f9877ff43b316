import Mathlib.Data.List.TakeDrop
import RelaySql.Proofs.Outcome
import RelaySql.Settings.Database

/-!
# Url — credentials in a URL

The user and the password stand before the last `@` of the authority.  Whether a URL is accepted
depends on what follows that `@`, and of the credentials only on whether there are any.

* `Url.clean_split`: what is left out of a text around a character that stays.
* `Url.isOk_ofAuthority`: whether an authority is accepted.
* `Url.isOk_ofAuthority_password`: it does not depend on the password, if that is not empty.
-/

namespace RelaySql.Url

/-! ### Cleaning -/

/-- A character that stays inside a URL. -/
def isKept (c : Char) : Bool := c ≠ '\t' ∧ c ≠ '\n' ∧ c ≠ '\r'

/-- The text without the padding at its end. -/
def trimEnd (cs : List Char) : List Char := (cs.reverse.dropWhile isPadding).reverse

theorem isKept_of_not_isPadding {c : Char} (h : isPadding c = false) : isKept c = true := by
  have hne : ∀ d, isPadding d = true → c ≠ d := fun d hd heq => by
    rw [heq, hd] at h
    cases h
  simp [isKept, hne '\t' rfl, hne '\n' rfl, hne '\r' rfl]

theorem trimEnd_eq_self {cs : List Char} (h : ∀ c ∈ cs, isPadding c = false) : trimEnd cs = cs := by
  have hback : cs.reverse.dropWhile isPadding = cs.reverse := by
    match hcs : cs.reverse with
    | [] => rfl
    | c :: rest =>
        have hc : c ∈ cs := List.mem_reverse.mp (hcs ▸ List.mem_cons_self)
        exact List.dropWhile_cons_of_neg (Bool.eq_false_iff.mp (h c hc))
  rw [trimEnd, hback, List.reverse_reverse]

theorem trimEnd_split {s : Char} (hs : isPadding s = false) (xs ys : List Char) :
    trimEnd (xs ++ s :: ys) = xs ++ s :: trimEnd ys := by
  simp only [trimEnd, List.reverse_append, List.reverse_cons, List.append_assoc,
    List.dropWhile_append]
  split
  · next h => simp [List.isEmpty_iff.mp h, hs]
  · simp

/-- **What is left out of a text** around a character that stays: padding only before what begins
with no padding, and after the character. -/
theorem clean_split {first s : Char} (hfirst : isPadding first = false) (hs : isPadding s = false)
    (xs ys : List Char) :
    clean (first :: xs ++ s :: ys) =
      (first :: xs).filter isKept ++ s :: (trimEnd ys).filter isKept := by
  have hfront : (first :: xs ++ s :: ys).dropWhile isPadding = first :: xs ++ s :: ys := by
    rw [List.cons_append, List.dropWhile_cons_of_neg (by simp [hfirst])]
  have hclean : clean (first :: xs ++ s :: ys) =
      (trimEnd ((first :: xs ++ s :: ys).dropWhile isPadding)).filter isKept := rfl
  rw [hclean, hfront, trimEnd_split hs, List.filter_append,
    List.filter_cons_of_pos (isKept_of_not_isPadding hs)]

/-! ### Reading -/

/-- A URL of a database is read from its authority on. -/
theorem ofText_of_clean {s : String} {cs : List Char}
    (h : clean s.toList = "postgres://".toList ++ cs) :
    ofText s = ofAuthority Settings.databaseScheme cs := by
  have hscheme : scheme? ("postgres://".toList ++ cs) =
      some (Settings.databaseScheme, '/' :: '/' :: cs) := by
    rfl
  rw [ofText, h, hscheme]
  rfl

/-- What ends the authority of a database URL. -/
def endsAuthority (c : Char) : Bool := c ∈ ['/', '?', '#']

/-- A backslash ends the authority of a URL of the web only. -/
theorem stays_eq :
    (fun c => decide (c ∉ ['/', '?', '#'] ∧
      ¬(decide (Settings.databaseScheme ∈ webSchemes) = true ∧ c = '\\'))) =
      fun c => !endsAuthority c := by
  funext c
  simp [endsAuthority, Settings.databaseScheme, webSchemes]

/-- An address after an `@` is accepted, if anything follows it and if there are credentials. -/
def acceptsAddress (followed credentials : Bool) (address : List Char) : Bool :=
  let (name, after) := splitHost false address
  if followed ∧ address = [] then false
  else match readHost name with
    | .error _ => false
    | .ok host =>
      if host = none ∧ after ≠ [] then false
      else match readPort (after.drop 1) with
        | .error _ => false
        | .ok _ => !(host.isNone && credentials)

/-- There is a user or a password. -/
def hasCredentials (info : List Char) : Bool :=
  (userInfo info).1 ≠ "" || (userInfo info).2.isSome

/-- **Whether an authority is accepted.** -/
theorem isOk_ofAuthority {cs authority rest address : List Char} {info : Option (List Char)}
    (hspan : cs.span (fun c => !endsAuthority c) = (authority, rest))
    (hinfo : splitUserInfo authority = (info, address)) :
    (ofAuthority Settings.databaseScheme cs).isOk =
      acceptsAddress (info = some [] ∧ rest ≠ []) (hasCredentials (info.getD [])) address := by
  have hweb : decide (Settings.databaseScheme ∈ webSchemes) = false := by decide
  simp only [ofAuthority, stays_eq, hspan, hinfo, acceptsAddress, hasCredentials]
  rcases userInfo (info.getD []) with ⟨user, password⟩
  rcases splitHost false address with ⟨name, after⟩
  simp only [hweb, Bool.false_eq_true, false_and, if_false]
  by_cases hbare : info = some [] ∧ address = [] ∧ rest ≠ []
  · rw [if_pos hbare, if_pos ⟨decide_eq_true ⟨hbare.1, hbare.2.2⟩, hbare.2.1⟩]
    rfl
  rw [if_neg hbare, if_neg fun h => hbare ⟨(of_decide_eq_true h.1).1, h.2, (of_decide_eq_true h.1).2⟩]
  cases readHost name with
  | error fault => rfl
  | ok host =>
      by_cases hlost : host = none ∧ after ≠ []
      · simp only [bind, Except.bind, if_pos hlost]
        rfl
      simp only [bind, Except.bind, if_neg hlost]
      cases readPort (after.drop 1) with
      | error fault => rfl
      | ok port =>
          have hnone : (host.isNone && (decide (user ≠ "") || password.isSome)) =
              decide (host = none ∧ (user ≠ "" ∨ password.isSome = true)) := by
            cases host <;> simp
          rw [hnone]
          by_cases hrefused : host = none ∧ (user ≠ "" ∨ password.isSome = true)
          · simp only [if_pos hrefused, decide_eq_true hrefused]
            rfl
          · simp only [if_neg hrefused, decide_eq_false hrefused]
            rfl

/-- A URL that is read has the scheme that it was read with. -/
theorem scheme_of_ofAuthority {scheme : String} {cs : List Char} {url : Url}
    (h : ofAuthority scheme cs = .ok url) : url.scheme = scheme := by
  simp only [ofAuthority] at h
  split at h
  · cases h
  split at h
  · cases h
  obtain ⟨host, -, h⟩ := Except.bind_eq_ok.mp h
  split at h
  · cases h
  obtain ⟨⟨port, after⟩, -, h⟩ := Except.bind_eq_ok.mp h
  simp only at h
  split at h
  · cases h
  · obtain rfl := Except.ok.inj h
    rfl

/-! ### The password -/

/-- A text is split before the first character that does not stay. -/
theorem span_append_cons {stays : Char → Bool} {xs ys : List Char} {y : Char}
    (hxs : ∀ x ∈ xs, stays x = true) (hy : stays y = false) :
    (xs ++ y :: ys).span stays = (xs, y :: ys) := by
  have hneg : ¬ stays y = true := Bool.eq_false_iff.mp hy
  rw [List.span_eq_takeWhile_dropWhile, List.takeWhile_append_of_pos hxs,
    List.dropWhile_append_of_pos hxs, List.takeWhile_cons_of_neg hneg,
    List.dropWhile_cons_of_neg hneg, List.append_nil]

/-- What stands before the last `@`. -/
theorem splitUserInfo_append {info address : List Char} (h : '@' ∉ address) :
    splitUserInfo (info ++ '@' :: address) = (some info, address) := by
  have hspan : (info ++ '@' :: address).reverse.span (· ≠ '@') =
      (address.reverse, '@' :: info.reverse) := by
    rw [List.reverse_append, List.reverse_cons, List.append_assoc]
    refine span_append_cons (fun c hc => decide_eq_true fun heq => h ?_) (by decide)
    exact heq ▸ List.mem_reverse.mp hc
  simp only [splitUserInfo, hspan, List.reverse_reverse]

/-- The user ends at the first colon, and anything behind the colon is a password. -/
theorem userInfo_append {user : List Char} (h : ':' ∉ user) (password : List Char) :
    (userInfo (user ++ ':' :: password)).1 =
      String.ofList (Percent.encode Percent.inUserInfo user) ∧
    ((userInfo (user ++ ':' :: password)).2.isSome ↔ password ≠ []) := by
  have hspan : (user ++ ':' :: password).span (· ≠ ':') = (user, ':' :: password) :=
    span_append_cons (fun c hc => decide_eq_true fun heq => h (heq ▸ hc)) (by decide)
  simp only [userInfo, hspan]
  cases password with
  | nil => exact ⟨rfl, iff_of_false Bool.false_ne_true fun h => h rfl⟩
  | cons first rest => exact ⟨rfl, iff_of_true rfl (List.cons_ne_nil _ _)⟩

/-- Of a password that is not empty it does not matter which one it is. -/
theorem hasCredentials_password (user after : List Char) {p q : List Char} (h : p = [] ↔ q = []) :
    hasCredentials (user ++ ':' :: (p ++ after)) = hasCredentials (user ++ ':' :: (q ++ after)) := by
  -- the first colon is in the user, or the one behind it
  obtain ⟨name, rest, hname, hcolon⟩ :=
    List.eq_append_cons_of_mem (List.mem_append_right user (List.mem_singleton_self ':'))
  have hsplit : ∀ cs, user ++ ':' :: cs = name ++ ':' :: (rest ++ cs) := fun cs => by
    rw [← List.singleton_append, ← List.append_assoc, hname, List.append_assoc, List.cons_append]
  obtain ⟨huser, hpassword⟩ := userInfo_append hcolon (rest ++ (p ++ after))
  obtain ⟨huser', hpassword'⟩ := userInfo_append hcolon (rest ++ (q ++ after))
  rw [hasCredentials, hasCredentials, hsplit, hsplit, huser, huser']
  congr 1
  rw [Bool.eq_iff_iff, hpassword, hpassword']
  simp [h]

/-- What an authority goes on with ends where it ends behind anything that does not end it. -/
theorem span_behind (cs : List Char) : ∃ near rest, ∀ front : List Char,
    (∀ d ∈ front, endsAuthority d = false) →
      (front ++ cs).span (fun c => !endsAuthority c) = (front ++ near, rest) := by
  refine ⟨cs.takeWhile (fun c => !endsAuthority c), cs.dropWhile (fun c => !endsAuthority c),
    fun front hfront => ?_⟩
  have hall : ∀ d ∈ front, (!endsAuthority d) = true := fun d hd => by rw [hfront d hd]; rfl
  rw [List.span_eq_takeWhile_dropWhile, List.takeWhile_append_of_pos hall,
    List.dropWhile_append_of_pos hall]

/-- The last `@` of a text that begins with one. -/
theorem exists_last_at (cs : List Char) :
    ∃ before address, '@' :: cs = before ++ '@' :: address ∧ '@' ∉ address := by
  obtain ⟨after, before, hsplit, hnone⟩ :=
    List.eq_append_cons_of_mem (List.mem_reverse.mpr (List.mem_cons_self (a := '@') (l := cs)))
  refine ⟨before.reverse, after.reverse, ?_, fun h => hnone (List.mem_reverse.mp h)⟩
  have hreverse := congrArg List.reverse hsplit
  simpa using hreverse

/-- Where the authority ends, so does what decides whether it is accepted. -/
theorem isOk_ofAuthority_of_ends {near : List Char} {c : Char}
    (hnear : ∀ d ∈ near, endsAuthority d = false) (hc : endsAuthority c = true)
    (cs cs' : List Char) :
    (ofAuthority Settings.databaseScheme (near ++ c :: cs)).isOk =
      (ofAuthority Settings.databaseScheme (near ++ c :: cs')).isOk := by
  rcases hinfo : splitUserInfo near with ⟨info, address⟩
  have haccepts : ∀ rest, (ofAuthority Settings.databaseScheme (near ++ c :: rest)).isOk =
      acceptsAddress (info = some []) (hasCredentials (info.getD [])) address := by
    intro rest
    have hspan : (near ++ c :: rest).span (fun c => !endsAuthority c) = (near, c :: rest) :=
      span_append_cons (fun d hd => by rw [hnear d hd]; rfl) (by rw [hc]; rfl)
    rw [isOk_ofAuthority hspan hinfo]
    simp
  rw [haccepts, haccepts]

/-- Behind a user that does not end the authority, the password is part of the credentials, and the
address does not depend on it. -/
theorem exists_address (user after : List Char) (huser : ∀ c ∈ user, endsAuthority c = false) :
    ∃ before address, ∀ password : List Char, (∀ c ∈ password, endsAuthority c = false) →
      (ofAuthority Settings.databaseScheme (user ++ ':' :: (password ++ '@' :: after))).isOk =
        acceptsAddress false (hasCredentials (user ++ ':' :: (password ++ before))) address := by
  obtain ⟨near, rest, hspan⟩ := span_behind after
  obtain ⟨before, address, hlast, haddress⟩ := exists_last_at near
  refine ⟨before, address, fun password hpassword => ?_⟩
  have hfront : ∀ d ∈ user ++ ':' :: (password ++ ['@']), endsAuthority d = false := by
    intro d hd
    simp only [List.mem_append, List.mem_cons, List.not_mem_nil, or_false] at hd
    obtain hd | rfl | hd | rfl := hd
    · exact huser d hd
    · rfl
    · exact hpassword d hd
    · rfl
  have hinfo : splitUserInfo ((user ++ ':' :: (password ++ ['@'])) ++ near) =
      (some (user ++ ':' :: (password ++ before)), address) := by
    rw [← splitUserInfo_append haddress]
    simp [hlast]
  have hwhole : user ++ ':' :: (password ++ '@' :: after) =
      user ++ ':' :: (password ++ ['@']) ++ after := by simp
  rw [hwhole, isOk_ofAuthority (hspan _ hfront) hinfo]
  simp

/-- **Whether a URL is accepted does not depend on its password**, but for an empty one. -/
theorem isOk_ofAuthority_password (user after : List Char) {p q : List Char}
    (hp : ∀ c ∈ p, endsAuthority c = false) (hq : ∀ c ∈ q, endsAuthority c = false)
    (h : p = [] ↔ q = []) :
    (ofAuthority Settings.databaseScheme (user ++ ':' :: (p ++ '@' :: after))).isOk =
      (ofAuthority Settings.databaseScheme (user ++ ':' :: (q ++ '@' :: after))).isOk := by
  cases hends : user.find? endsAuthority with
  | some c =>
      obtain ⟨hc, near, rest, rfl, hnear⟩ := List.find?_eq_some_iff_append.mp hends
      rw [List.append_assoc, List.append_assoc, List.cons_append, List.cons_append]
      exact isOk_ofAuthority_of_ends (fun d hd => by simpa using hnear d hd) hc _ _
  | none =>
      have huser : ∀ c ∈ user, endsAuthority c = false := fun c hc => by
        simpa using List.find?_eq_none.mp hends c hc
      obtain ⟨before, address, haccepts⟩ := exists_address user after huser
      rw [haccepts p hp, haccepts q hq, hasCredentials_password user before h]

end RelaySql.Url
