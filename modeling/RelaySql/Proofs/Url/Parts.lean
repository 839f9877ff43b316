import Mathlib.Data.List.TakeWhile
import RelaySql.Proofs.Url.Credentials

/-!
# Url — the parts of an address

An authority is read part by part, each up to the character that ends it.  Letters, digits, dots and
hyphens end no part and are never encoded.

* `Url.eq_of_ofAuthority`: the credentials of a URL are those before the last `@` of its authority.
* `Url.ofAuthority_of_parts`: an address of plain parts is read as these parts, whatever password
  stands before them.
-/

namespace RelaySql.Url

/-! ### Plain characters -/

/-- A letter, a digit, a dot or a hyphen. -/
def isPlain (c : Char) : Bool := c.isAlphanum || c = '.' || c = '-'

theorem isPlain_of_isAlphanum {c : Char} (h : c.isAlphanum = true) : isPlain c = true := by
  simp [isPlain, h]

theorem isUpper_iff {c : Char} :
    c.isUpper = true ↔ 'A'.toNat ≤ c.toNat ∧ c.toNat ≤ 'Z'.toNat :=
  decide_eq_true_iff

theorem isLower_iff {c : Char} :
    c.isLower = true ↔ 'a'.toNat ≤ c.toNat ∧ c.toNat ≤ 'z'.toNat :=
  Bool.and_eq_true_iff.trans (and_congr decide_eq_true_iff decide_eq_true_iff)

theorem isAlphanum_iff {c : Char} :
    c.isAlphanum = true ↔ (c.isUpper = true ∨ c.isLower = true) ∨ c.isDigit = true :=
  Bool.or_eq_true_iff.trans (or_congr_left Bool.or_eq_true_iff)

theorem isAlphanum_of_isDigit {c : Char} (h : c.isDigit = true) : c.isAlphanum = true :=
  isAlphanum_iff.mpr (.inr h)

theorem isAlphanum_of_hexValue? {c : Char} {n : Nat} (h : Percent.hexValue? c = some n) :
    c.isAlphanum = true := by
  simp only [Percent.hexValue?] at h
  split at h
  · next hdigit => exact isAlphanum_of_isDigit hdigit
  split at h
  · next hlower =>
      have hlast : c.toNat ≤ 'f'.toNat := hlower.2
      have hlower := isLower_iff.mpr ⟨hlower.1, Nat.le_trans hlast (by decide)⟩
      exact isAlphanum_iff.mpr (.inl (.inr hlower))
  split at h
  · next hupper =>
      have hlast : c.toNat ≤ 'F'.toNat := hupper.2
      have hupper := isUpper_iff.mpr ⟨hupper.1, Nat.le_trans hlast (by decide)⟩
      exact isAlphanum_iff.mpr (.inl (.inl hupper))
  · cases h

/-- A plain character is none of the characters that are not plain. -/
theorem not_mem_of_isPlain {c : Char} (h : isPlain c = true) {cs : List Char}
    (hcs : cs.all (!isPlain ·) = true) : c ∉ cs := fun hc => by
  simpa [h] using List.all_eq_true.mp hcs c hc

theorem ne_of_isPlain {c d : Char} (h : isPlain c = true) (hd : isPlain d = false) : c ≠ d :=
  fun heq => by rw [heq, hd] at h; cases h

theorem toNat_of_isAlphanum {c : Char} (h : c.isAlphanum = true) :
    '0'.toNat ≤ c.toNat ∧ c.toNat ≤ 'z'.toNat := by
  obtain (hupper | hlower) | hdigit := isAlphanum_iff.mp h
  · obtain ⟨hl, hu⟩ := isUpper_iff.mp hupper
    exact ⟨Nat.le_trans (by decide) hl, Nat.le_trans hu (by decide)⟩
  · obtain ⟨hl, hu⟩ := isLower_iff.mp hlower
    exact ⟨Nat.le_trans (by decide) hl, hu⟩
  · obtain ⟨hl, hu⟩ := Char.isDigit_iff_toNat.mp hdigit
    exact ⟨hl, Nat.le_trans hu (by decide)⟩

theorem toNat_of_isPlain {c : Char} (h : isPlain c = true) :
    '-'.toNat ≤ c.toNat ∧ c.toNat ≤ 'z'.toNat := by
  simp only [isPlain, Bool.or_eq_true, decide_eq_true_eq] at h
  obtain (h | rfl) | rfl := h
  · obtain ⟨hl, hu⟩ := toNat_of_isAlphanum h
    exact ⟨Nat.le_trans (by decide) hl, hu⟩
  · decide
  · decide

theorem not_inHost_of_isPlain {c : Char} (h : isPlain c = true) : Percent.inHost c = false := by
  obtain ⟨hlow, hhigh⟩ := toNat_of_isPlain h
  simp only [Percent.inHost, Bool.or_eq_false_iff, decide_eq_false_iff_not, Nat.not_lt, Nat.not_le]
  exact ⟨Nat.le_trans (by decide) hlow, Nat.lt_of_le_of_lt hhigh (by decide)⟩

theorem not_inPath_of_isPlain {c : Char} (h : isPlain c = true) : Percent.inPath c = false := by
  simp only [Percent.inPath, not_inHost_of_isPlain h, Bool.false_or, decide_eq_false_iff_not]
  exact not_mem_of_isPlain h (by decide)

theorem not_inUserInfo_of_isPlain {c : Char} (h : isPlain c = true) :
    Percent.inUserInfo c = false := by
  simp only [Percent.inUserInfo, not_inPath_of_isPlain h, Bool.false_or, decide_eq_false_iff_not]
  exact not_mem_of_isPlain h (by decide)

theorem not_endsAuthority_of_isPlain {c : Char} (h : isPlain c = true) :
    endsAuthority c = false :=
  decide_eq_false (not_mem_of_isPlain h (by decide))

theorem not_isPadding_of_isPlain {c : Char} (h : isPlain c = true) : isPadding c = false :=
  decide_eq_false (Nat.not_le.mpr (Nat.lt_of_lt_of_le (by decide) (toNat_of_isPlain h).1))

/-- A text is not split where every character stays. -/
theorem span_of_forall {stays : Char → Bool} {cs : List Char} (h : ∀ c ∈ cs, stays c = true) :
    cs.span stays = (cs, []) := by
  rw [List.span_eq_takeWhile_dropWhile, List.takeWhile_eq_self_iff.mpr h,
    List.dropWhile_eq_nil_iff.mpr h]

/-! ### Credentials -/

/-- The credentials of a URL are those before the last `@` of its authority. -/
theorem eq_of_ofAuthority {cs authority rest : List Char} {url : Url}
    (hspan : cs.span (fun c => !endsAuthority c) = (authority, rest))
    (h : ofAuthority Settings.databaseScheme cs = .ok url) :
    (url.user, url.password) = userInfo ((splitUserInfo authority).1.getD []) := by
  simp only [ofAuthority, stays_eq, hspan] at h
  split at h
  · cases h
  split at h
  · cases h
  obtain ⟨host, -, h⟩ := Except.bind_eq_ok.mp h
  split at h
  · cases h
  obtain ⟨⟨port, after⟩, -, h⟩ := Except.bind_eq_ok.mp h
  simp only at h
  split at h
  · cases h
  · obtain rfl := Except.ok.inj h
    rfl

/-- Without an `@` there are no credentials. -/
theorem splitUserInfo_of_not_mem {authority : List Char} (h : '@' ∉ authority) :
    splitUserInfo authority = (none, authority) := by
  have hspan : authority.reverse.span (· ≠ '@') = (authority.reverse, []) :=
    span_of_forall fun c hc => decide_eq_true fun heq => h (heq ▸ List.mem_reverse.mp hc)
  simp only [splitUserInfo, hspan]

/-- The last `@` of a text that has one. -/
theorem exists_last_at_of_mem {cs : List Char} (h : '@' ∈ cs) :
    ∃ before address, cs = before ++ '@' :: address ∧ '@' ∉ address := by
  obtain ⟨front, back, rfl⟩ := List.append_of_mem h
  obtain ⟨before, address, hlast, haddress⟩ := exists_last_at back
  exact ⟨front ++ before, address, by rw [hlast, List.append_assoc], haddress⟩

/-- The password is what follows the first colon, encoded. -/
theorem password_userInfo {user : List Char} (h : ':' ∉ user) (password : List Char) :
    (userInfo (user ++ ':' :: password)).2.getD "" =
      String.ofList (Percent.encode Percent.inUserInfo password) := by
  have hspan : (user ++ ':' :: password).span (· ≠ ':') = (user, ':' :: password) :=
    span_append_cons (fun c hc => decide_eq_true fun heq => h (heq ▸ hc)) (by decide)
  simp only [userInfo, hspan]
  cases password <;> rfl

/-! ### The host, the port and the path -/

theorem splitHost_append {host : List Char} (h : ∀ c ∈ host, isPlain c = true) (after : List Char) :
    splitHost false (host ++ ':' :: after) = (host, ':' :: after) := by
  induction host with
  | nil => rfl
  | cons c host ih =>
      obtain ⟨hc, hhost⟩ := List.forall_mem_cons.mp h
      have hcolon : ¬ (c = ':' ∧ (!false) = true) := fun h => ne_of_isPlain hc (by decide) h.1
      simp only [List.cons_append, splitHost, if_neg hcolon,
        if_neg (ne_of_isPlain hc (by decide : isPlain '[' = false)),
        if_neg (ne_of_isPlain hc (by decide : isPlain ']' = false)), ih hhost]

theorem readHost_of_plain {host : List Char} (hne : host ≠ []) (h : ∀ c ∈ host, isPlain c = true) :
    readHost host = .ok (some (String.ofList host)) := by
  have hencoded : Percent.encode Percent.inHost host = host :=
    Percent.encode_eq_self fun c hc => not_inHost_of_isPlain (h c hc)
  have hallowed : ¬ host.any forbiddenInHost = true := by
    rw [List.any_eq_true]
    rintro ⟨c, hc, hforbidden⟩
    exact not_mem_of_isPlain (h c hc) (by decide) (of_decide_eq_true hforbidden)
  match host with
  | c :: host =>
      have hc := h c List.mem_cons_self
      rw [readHost.eq_3 (c :: host) (fun h => nomatch h)
        fun _ heq => ne_of_isPlain hc (by decide) (List.cons.inj heq).1, if_neg hallowed, hencoded]

theorem readPort_toDigits {port : Nat} (h : port ≤ 65535) :
    readPort (Nat.toDigits 10 port) = .ok (some port, []) := by
  have hspan : (Nat.toDigits 10 port).span Char.isDigit = (Nat.toDigits 10 port, []) :=
    span_of_forall fun c hc => Nat.isDigit_of_mem_toDigits (by decide) (by decide) hc
  have hvalue : ofDigits (Nat.toDigits 10 port) = port := Nat.ofDigitChars_ten_toDigits
  simp only [readPort, hspan, hvalue]
  rw [if_neg (Nat.not_lt.mpr h), if_pos (.inl trivial), if_neg Nat.toDigits_ne_nil]

theorem le_toNat_toLower (c : Char) : c.toNat ≤ c.toLower.toNat := by
  by_cases h : c.val ≥ 'A'.val ∧ c.val ≤ 'Z'.val
  · have hval : c.toLower.toNat = (c.val + ('a'.val - 'A'.val)).toNat :=
      congrArg Char.toNat (dif_pos h)
    have hupper : c.val.toNat ≤ 'Z'.val.toNat := UInt32.le_iff_toNat_le.mp h.2
    have hbound : c.val.toNat + ('a'.val - 'A'.val).toNat < 2 ^ 32 :=
      Nat.lt_of_le_of_lt (Nat.add_le_add_right hupper _) (by decide)
    rw [hval, UInt32.toNat_add, Nat.mod_eq_of_lt hbound]
    exact Nat.le_add_right _ _
  · have hsame : c.toLower = c := dif_neg h
    exact Nat.le_of_eq (congrArg Char.toNat hsame.symm)

/-- A name of letters and digits consists of no dots. -/
theorem dots?_of_plain {name : List Char} (h : ∀ c ∈ name, c.isAlphanum = true) :
    Path.dots? name = none := by
  match name with
  | [] => decide
  | c :: name =>
      have hlow : '0'.toNat ≤ c.toLower.toNat :=
        Nat.le_trans (toNat_of_isAlphanum (h c List.mem_cons_self)).1 (le_toNat_toLower c)
      have hother : ∀ texts : List String,
          texts.all (fun s => s.toList.head?.any (·.toNat < '0'.toNat)) = true →
            String.ofList ((c :: name).map Char.toLower) ∉ texts := by
        intro texts htexts hmem
        have hhead := List.all_eq_true.mp htexts _ hmem
        simp only [String.toList_ofList, List.map_cons, List.head?_cons, Option.any_some,
          decide_eq_true_eq] at hhead
        exact absurd hhead (Nat.not_lt.mpr hlow)
      simp only [Path.dots?]
      rw [if_neg (hother _ (by decide)), if_neg (hother _ (by decide))]

/-- A name of letters and digits is the only segment of its path. -/
theorem pathAndQuery_of_plain {name : List Char} (h : ∀ c ∈ name, c.isAlphanum = true) :
    pathAndQuery ('/' :: name) = ([String.ofList name], none) := by
  have hplain : ∀ c ∈ name, isPlain c = true := fun c hc => isPlain_of_isAlphanum (h c hc)
  have hfront : ('/' :: name).takeWhile (· ≠ '#') = '/' :: name :=
    List.takeWhile_eq_self_iff.mpr <| List.forall_mem_cons.mpr
      ⟨by decide, fun c hc => decide_eq_true (ne_of_isPlain (hplain c hc) (by decide))⟩
  have hspan : ('/' :: name).span (· ≠ '?') = ('/' :: name, []) :=
    span_of_forall <| List.forall_mem_cons.mpr
      ⟨by decide, fun c hc => decide_eq_true (ne_of_isPlain (hplain c hc) (by decide))⟩
  have hencoded : Percent.encode Percent.inPath name = name :=
    Percent.encode_eq_self fun c hc => not_inPath_of_isPlain (hplain c hc)
  have hslash : '/' ∉ name := fun hc => ne_of_isPlain (hplain _ hc) (by decide) rfl
  have hsegments : Path.segments name = [name] := by
    rw [Path.segments, hencoded, List.splitOn_eq_singleton hslash]
    simp only [Path.resolve, dots?_of_plain h, List.reverse_cons, List.reverse_nil, List.nil_append]
  simp only [pathAndQuery, hfront, hspan, hsegments, List.map_cons, List.map_nil]

/-! ### The whole address -/

/-- Credentials stay in the authority if their password does. -/
theorem stays_credentials {user password : List Char} (huser : ∀ c ∈ user, isPlain c = true)
    (hpassword : ∀ c ∈ password, endsAuthority c = false) :
    ∀ c ∈ user ++ ':' :: password, (!endsAuthority c) = true := by
  intro c hc
  rw [Bool.not_eq_true']
  obtain hc | hc := List.mem_append.mp hc
  · exact not_endsAuthority_of_isPlain (huser c hc)
  obtain rfl | hc := List.mem_cons.mp hc
  · rfl
  · exact hpassword c hc

theorem isPlain_of_mem_address {host : List Char} (hhost : ∀ c ∈ host, isPlain c = true)
    (port : Nat) :
    ∀ c ∈ host ++ ':' :: Nat.toDigits 10 port, isPlain c = true ∨ c = ':' := by
  intro c hc
  obtain hc | hc := List.mem_append.mp hc
  · exact .inl (hhost c hc)
  obtain rfl | hc := List.mem_cons.mp hc
  · exact .inr rfl
  · exact .inl (isPlain_of_isAlphanum (isAlphanum_of_isDigit
      (Nat.isDigit_of_mem_toDigits (by decide) (by decide) hc)))

/-- **An address of plain parts** is read as these parts, whatever password stands before them that
does not end the authority. -/
theorem ofAuthority_of_parts {user password host name : List Char} {port : Nat}
    (huser : ∀ c ∈ user, c.isAlphanum = true)
    (hpassword : ∀ c ∈ password, endsAuthority c = false) (hne : host ≠ [])
    (hhost : ∀ c ∈ host, isPlain c = true) (hport : port ≤ 65535)
    (hname : ∀ c ∈ name, c.isAlphanum = true) :
    ofAuthority Settings.databaseScheme (user ++ ':' :: (password ++ '@' ::
        (host ++ ':' :: (Nat.toDigits 10 port ++ '/' :: name)))) = .ok {
      scheme := Settings.databaseScheme
      user := String.ofList user
      password := (userInfo (user ++ ':' :: password)).2
      host := some (String.ofList host)
      port := some port
      segments := [String.ofList name] } := by
  have huser' : ∀ c ∈ user, isPlain c = true := fun c hc => isPlain_of_isAlphanum (huser c hc)
  have haddress := isPlain_of_mem_address hhost port
  have hspan : (user ++ ':' :: (password ++ '@' ::
        (host ++ ':' :: (Nat.toDigits 10 port ++ '/' :: name)))).span (fun c => !endsAuthority c) =
      (user ++ ':' :: password ++ '@' :: (host ++ ':' :: Nat.toDigits 10 port), '/' :: name) := by
    have hstays : ∀ c ∈ user ++ ':' :: password ++ '@' :: (host ++ ':' :: Nat.toDigits 10 port),
        (!endsAuthority c) = true := by
      intro c hc
      obtain hc | hc := List.mem_append.mp hc
      · exact stays_credentials huser' hpassword c hc
      obtain rfl | hc := List.mem_cons.mp hc
      · rfl
      obtain hc | rfl := haddress c hc
      · rw [not_endsAuthority_of_isPlain hc]
        rfl
      · rfl
    rw [← span_append_cons hstays (y := '/') rfl]
    simp
  have hinfo :
      splitUserInfo (user ++ ':' :: password ++ '@' :: (host ++ ':' :: Nat.toDigits 10 port)) =
        (some (user ++ ':' :: password), host ++ ':' :: Nat.toDigits 10 port) := by
    refine splitUserInfo_append fun hat => ?_
    obtain hat | hat := haddress _ hat
    · exact ne_of_isPlain hat (by decide) rfl
    · exact absurd hat (by decide)
  obtain ⟨shown, hshown⟩ : ∃ shown,
      userInfo (user ++ ':' :: password) = (String.ofList user, shown) := by
    have hcolon : ':' ∉ user := fun hc => ne_of_isPlain (huser' _ hc) (by decide) rfl
    have hname : (userInfo (user ++ ':' :: password)).1 = String.ofList user := by
      rw [(userInfo_append hcolon password).1,
        Percent.encode_eq_self fun c hc => not_inUserInfo_of_isPlain (huser' c hc)]
    exact ⟨_, Prod.ext hname rfl⟩
  have hweb : decide (Settings.databaseScheme ∈ webSchemes) = false := by decide
  simp only [ofAuthority, stays_eq, hspan, hinfo, Option.getD_some, hshown, splitHost_append hhost,
    readHost_of_plain hne hhost, List.drop_one, List.tail_cons]
  simp [bind, Except.bind, pure, Except.pure, hne, hweb, readPort_toDigits hport,
    pathAndQuery_of_plain hname]

end RelaySql.Url
