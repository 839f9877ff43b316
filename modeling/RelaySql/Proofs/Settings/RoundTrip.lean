import RelaySql.Proofs.Settings.Diagnostics
import RelaySql.Proofs.Url.Parts
import RelaySql.Proofs.Url.Percent

/-!
# Settings — an address read back from its URL

The URL of an address shows each part of the address as it is.  A password may hold characters that
mean something else there: those that end the authority cut it off, and those that URLs leave out
are lost.  All others are read back, encoded where they must be.

* `Database.ofUrl_url`: what is read of the URL of a plain address whose password ends no authority.
* `Database.not_keeps_of_ends`: where it ends the authority, the user or the end of the password is
  lost.
* `Database.ofUrl_keeps_iff`: the address is read back exactly when its password fits.
* `Database.ofUrl_loses_slash`: a password with a slash, which is not read back.
-/

namespace RelaySql.Settings.Database

/-- An address whose user and database are of letters and digits, whose host is of letters, digits,
dots and hyphens, and whose port is a number.  Its password may be any text. -/
structure IsPlain (d : Database) : Prop where
  user_ne : d.user ≠ ""
  user : ∀ c ∈ d.user.toList, c.isAlphanum = true
  host_ne : d.host ≠ ""
  host : ∀ c ∈ d.host.toList, Url.isPlain c = true
  port : ∃ n, 1 ≤ n ∧ n ≤ 65535 ∧ d.port = toString n
  database_ne : d.database ≠ ""
  database : ∀ c ∈ d.database.toList, c.isAlphanum = true

/-- The addresses are the same, up to percent encoding of the password. -/
structure Keeps (d e : Database) : Prop where
  user : e.user = d.user
  password : Url.Percent.Equiv e.password d.password
  host : e.host = d.host
  port : e.port = d.port
  database : e.database = d.database

/-- A password as a URL gives it back. -/
def encoded (password : List Char) : String :=
  String.ofList (Url.Percent.encode Url.Percent.inUserInfo password)

variable {d : Database}

/-! ### The URL of a plain address -/

theorem not_isPadding_behindPassword (h : d.IsPlain) :
    ∀ c ∈ d.behindPassword, Url.isPadding c = false := by
  obtain ⟨n, -, -, hport⟩ := h.port
  intro c hc
  simp only [behindPassword, hport, Nat.toString_eq_ofList_toDigits, String.toList_append,
    String.toList_ofList, List.mem_append] at hc
  obtain (((hc | hc) | hc) | hc) | hc := hc
  · exact Url.not_isPadding_of_isPlain (h.host c hc)
  · obtain rfl := List.mem_singleton.mp (show c ∈ [':'] from hc)
    rfl
  · have hdigit := Nat.isDigit_of_mem_toDigits (by decide) (by decide) hc
    exact Url.not_isPadding_of_isPlain
      (Url.isPlain_of_isAlphanum (Url.isAlphanum_of_isDigit hdigit))
  · obtain rfl := List.mem_singleton.mp (show c ∈ ['/'] from hc)
    rfl
  · exact Url.not_isPadding_of_isPlain (Url.isPlain_of_isAlphanum (h.database c hc))

/-- Of a plain address nothing but characters of the password is left out. -/
theorem ofText_url_of_plain (h : d.IsPlain) :
    Url.ofText d.url = Url.ofAuthority databaseScheme (d.user.toList ++
      ':' :: (d.password.toList.filter Url.isKept ++ '@' :: d.behindPassword)) := by
  have hbehind := not_isPadding_behindPassword h
  have huser : d.user.toList.filter Url.isKept = d.user.toList :=
    List.filter_eq_self.mpr fun c hc => Url.isKept_of_not_isPadding
      (Url.not_isPadding_of_isPlain (Url.isPlain_of_isAlphanum (h.user c hc)))
  have hkept : d.behindPassword.filter Url.isKept = d.behindPassword :=
    List.filter_eq_self.mpr fun c hc => Url.isKept_of_not_isPadding (hbehind c hc)
  rw [ofText_url_kept, huser, Url.trimEnd_eq_self hbehind, hkept]

/-- The address of a URL with a host, a port and one segment. -/
theorem ofUrl_of_parts {s user host name : String} {password : Option String} {port : Nat}
    (h : Url.ofText s = .ok {
      scheme := databaseScheme, user, password, host := some host, port := some port,
      segments := [name] }) (hne : name ≠ "") :
    ofUrl s = .ok ⟨user, password.getD "", host, toString port, name⟩ := by
  simp only [ofUrl, h, List.head?_cons, bind, Except.bind]
  rw [if_neg (fun hscheme => hscheme rfl)]
  rfl

/-- The credentials of an address that is read are those of its URL. -/
theorem exists_url_of_ofUrl {s : String} {e : Database} (h : ofUrl s = .ok e) :
    ∃ url, Url.ofText s = .ok url ∧ e.user = url.user ∧ e.password = url.password.getD "" := by
  simp only [ofUrl] at h
  obtain ⟨url, hurl, h⟩ := Except.bind_eq_ok.mp h
  refine ⟨url, hurl, ?_⟩
  split at h
  · cases h
  split at h
  · cases h
  · obtain rfl := Except.ok.inj h
    exact ⟨rfl, rfl⟩

/-- **What is read of the URL of a plain address** whose password ends no authority: the address,
with the rest of its password encoded. -/
theorem ofUrl_url (h : d.IsPlain)
    (hends : ∀ c ∈ d.password.toList.filter Url.isKept, Url.endsAuthority c = false) :
    ofUrl d.url = .ok (d.withPassword (encoded (d.password.toList.filter Url.isKept))) := by
  obtain ⟨n, -, hle, hport⟩ := h.port
  have hbehind : d.behindPassword =
      d.host.toList ++ ':' :: (Nat.toDigits 10 n ++ '/' :: d.database.toList) := by
    simp only [behindPassword, hport, Nat.toString_eq_ofList_toDigits, String.toList_append,
      String.toList_ofList, List.append_assoc]
    rfl
  have hhost : d.host.toList ≠ [] := fun hnil => h.host_ne (String.toList_eq_nil_iff.mp hnil)
  have hcolon : ':' ∉ d.user.toList := fun hc =>
    absurd (h.user _ hc) (by decide)
  have hurl := ofText_url_of_plain h
  rw [hbehind, Url.ofAuthority_of_parts h.user hends hhost h.host hle h.database,
    String.ofList_toList, String.ofList_toList, String.ofList_toList] at hurl
  rw [ofUrl_of_parts hurl h.database_ne, Url.password_userInfo hcolon, ← hport]
  rfl

/-! ### Passwords that are not read back -/

/-- Digits and percent signs are kept. -/
theorem spares_isKept : Url.Percent.Spares Url.isKept where
  percent := by decide
  digit h := Url.isKept_of_not_isPadding
    (Url.not_isPadding_of_isPlain (Url.isPlain_of_isAlphanum (Url.isAlphanum_of_hexValue? h)))

theorem spares_inUserInfo : Url.Percent.Spares fun c => !Url.Percent.inUserInfo c where
  percent := by decide
  digit h := by
    rw [Url.not_inUserInfo_of_isPlain
      (Url.isPlain_of_isAlphanum (Url.isAlphanum_of_hexValue? h))]
    rfl

theorem decode_encoded (password : List Char) :
    Url.Percent.decode (encoded password).toList = Url.Percent.decode password := by
  rw [encoded, String.toList_ofList, Url.Percent.decode_encode spares_inUserInfo]

/-- A part of a password before an `@` is not the password. -/
theorem not_equiv_of_cut {password : String} {before after : List Char}
    (h : password.toList.filter Url.isKept = before ++ '@' :: after) :
    ¬ Url.Percent.Equiv (encoded before) password := by
  intro hequiv
  have hshorter := Url.Percent.length_decode_lt_append (c := '@') rfl (by decide) before after
  have hlength := Url.Percent.length_decode_filter spares_isKept password.toList
  rw [← h, ← decode_encoded before, hequiv] at hshorter
  omega

/-- A password that is read back up to percent encoding has lost none of its characters. -/
theorem isKept_of_equiv {password : String}
    (h : Url.Percent.Equiv (encoded (password.toList.filter Url.isKept)) password) :
    ∀ c ∈ password.toList, Url.isKept c = true := by
  have hlength := Url.Percent.length_decode_filter spares_isKept password.toList
  rw [← decode_encoded, h] at hlength
  have hnone : (password.toList.filter fun c => !Url.isKept c).length = 0 := by omega
  intro c hc
  simpa using List.filter_eq_nil_iff.mp (List.length_eq_zero_iff.mp hnone) c hc

/-- Where the password ends the authority, the credentials are read from what stands before. -/
theorem exists_cut (h : d.IsPlain) {c : Char} (hc : c ∈ d.password.toList.filter Url.isKept)
    (hends : Url.endsAuthority c = true) {url : Url} (hurl : Url.ofText d.url = .ok url) :
    ∃ near far, d.password.toList.filter Url.isKept = near ++ far ∧
      (url.user, url.password) =
        Url.userInfo ((Url.splitUserInfo (d.user.toList ++ ':' :: near)).1.getD []) := by
  obtain ⟨first, hfirst⟩ := Option.isSome_iff_exists.mp (List.find?_isSome.mpr ⟨c, hc, hends⟩)
  obtain ⟨hends, near, rest, hsplit, hnear⟩ := List.find?_eq_some_iff_append.mp hfirst
  refine ⟨near, first :: rest, hsplit, ?_⟩
  have hstays := Url.stays_credentials (fun c hc => Url.isPlain_of_isAlphanum (h.user c hc))
    fun c hc => (Bool.not_eq_true' _).mp (hnear c hc)
  have hspan : (d.user.toList ++ ':' :: (d.password.toList.filter Url.isKept ++
        '@' :: d.behindPassword)).span (fun c => !Url.endsAuthority c) =
      (d.user.toList ++ ':' :: near, first :: (rest ++ '@' :: d.behindPassword)) := by
    rw [hsplit, ← Url.span_append_cons hstays (y := first) (by rw [hends]; rfl)]
    simp
  rw [ofText_url_of_plain h] at hurl
  exact Url.eq_of_ofAuthority hspan hurl

/-- **Where the password ends the authority**, the user or the end of the password is lost. -/
theorem not_keeps_of_ends (h : d.IsPlain) {c : Char}
    (hc : c ∈ d.password.toList.filter Url.isKept) (hends : Url.endsAuthority c = true)
    {e : Database} (he : ofUrl d.url = .ok e) : ¬ d.Keeps e := by
  intro hkeeps
  obtain ⟨url, hurl, huser, hpassword⟩ := exists_url_of_ofUrl he
  obtain ⟨near, far, hsplit, hcredentials⟩ := exists_cut h hc hends hurl
  by_cases hat : '@' ∈ near
  · -- the credentials end at an `@` of the password
    obtain ⟨before, address, rfl, haddress⟩ := Url.exists_last_at_of_mem hat
    have hcolon : ':' ∉ d.user.toList := fun hc => absurd (h.user _ hc) (by decide)
    have hinfo : Url.splitUserInfo (d.user.toList ++ ':' :: (before ++ '@' :: address)) =
        (some (d.user.toList ++ ':' :: before), address) := by
      rw [← Url.splitUserInfo_append haddress, List.append_assoc, List.cons_append]
    rw [hinfo, Option.getD_some] at hcredentials
    have hread : e.password = encoded before := by
      rw [hpassword, encoded, ← Url.password_userInfo hcolon before, ← hcredentials]
    rw [List.append_assoc, List.cons_append] at hsplit
    exact not_equiv_of_cut hsplit (hread ▸ hkeeps.password)
  · -- without an `@` there are no credentials
    have hnone : '@' ∉ d.user.toList ++ ':' :: near := by
      simp only [List.mem_append, List.mem_cons, not_or]
      exact ⟨fun hc => absurd (h.user _ hc) (by decide), by decide, hat⟩
    rw [Url.splitUserInfo_of_not_mem hnone] at hcredentials
    have hempty : e.user = "" := huser.trans (congrArg Prod.fst hcredentials)
    exact h.user_ne (hkeeps.user.symm.trans hempty)

/-! ### The round trip -/

/-- **What a URL keeps of a plain address.**  It is read back, up to percent encoding of the
password, exactly when the password fits: it holds no slash, question mark or number sign, and no
tab or line break.  The password then comes back encoded, and decoding that gives the password
itself exactly if it held no encoded byte. -/
theorem ofUrl_keeps_iff (h : d.IsPlain) :
    ((∃ e, ofUrl d.url = .ok e ∧ d.Keeps e) ↔ Fits d.password) ∧
    (Fits d.password →
      ofUrl d.url = .ok (d.withPassword (encoded d.password.toList)) ∧
      (Url.Percent.decode (encoded d.password.toList).toList =
          d.password.toList.flatMap String.utf8EncodeChar ↔
        ¬ Url.Percent.HoldsByte d.password.toList)) := by
  have hread : Fits d.password →
      ofUrl d.url = .ok (d.withPassword (encoded d.password.toList)) := by
    intro hfits
    have hkept : d.password.toList.filter Url.isKept = d.password.toList :=
      List.filter_eq_self.mpr fun c hc => (hfits c hc).2
    have hurl := ofUrl_url h fun c hc => (hfits c (List.mem_of_mem_filter hc)).1
    rwa [hkept] at hurl
  refine ⟨⟨?_, ?_⟩, fun hfits => ⟨hread hfits, ?_⟩⟩
  · rintro ⟨e, he, hkeeps⟩
    by_cases hends : ∀ c ∈ d.password.toList.filter Url.isKept, Url.endsAuthority c = false
    · rw [ofUrl_url h hends] at he
      obtain rfl := Except.ok.inj he
      have hkept := isKept_of_equiv hkeeps.password
      exact fun c hc => ⟨hends c (List.mem_filter.mpr ⟨hc, hkept c hc⟩), hkept c hc⟩
    · simp only [not_forall, Bool.not_eq_false] at hends
      obtain ⟨c, hc, hends⟩ := hends
      exact absurd hkeeps (not_keeps_of_ends h hc hends he)
  · intro hfits
    exact ⟨_, hread hfits, rfl, decode_encoded _, rfl, rfl, rfl⟩
  · rw [decode_encoded, Url.Percent.decode_eq_self_iff]

/-- An address whose password has most of the characters that mean something in a URL. -/
def oddAddress : Database where
  user := "jimmy"
  password := "p@ss:wörd[1] %7g"
  host := "db-1.local"
  port := "6543"
  database := "monster"

/-- The odd address is read back with its password encoded. -/
theorem ofUrl_keeps_iff_oddAddress : oddAddress.IsPlain ∧ Fits oddAddress.password ∧
    ofUrl oddAddress.url = .ok (oddAddress.withPassword "p%40ss%3Aw%C3%B6rd%5B1%5D%20%7g") ∧
    oddAddress.Keeps (oddAddress.withPassword "p%40ss%3Aw%C3%B6rd%5B1%5D%20%7g") := by
  have hplain : oddAddress.IsPlain :=
    ⟨by decide, List.all_eq_true.mp (by decide), by decide, List.all_eq_true.mp (by decide),
      ⟨6543, by decide, by decide, by decide⟩, by decide, List.all_eq_true.mp (by decide)⟩
  have hfits : Fits oddAddress.password := by
    have hall : oddAddress.password.toList.all fun c => !Url.endsAuthority c && Url.isKept c := by
      decide
    simpa only [Fits, List.all_eq_true, Bool.and_eq_true, Bool.not_eq_true'] using hall
  have hencoded : encoded oddAddress.password.toList = "p%40ss%3Aw%C3%B6rd%5B1%5D%20%7g" := by
    decide +kernel
  obtain ⟨hkeeps, hread⟩ := ofUrl_keeps_iff hplain
  obtain ⟨hurl, -⟩ := hread hfits
  obtain ⟨e, he, hsame⟩ := hkeeps.mpr hfits
  rw [hurl, hencoded] at he
  obtain rfl := Except.ok.inj he
  exact ⟨hplain, hfits, by rw [hurl, hencoded], hsame⟩

/-- **A password with a slash is not read back**: what stands before the slash is taken for the port
of a host that is called like the user. -/
theorem ofUrl_loses_slash :
    ¬ ∀ d : Database, d.IsPlain → ∃ e, ofUrl d.url = .ok e ∧ d.Keeps e := by
  intro hclaim
  have hplain : IsPlain ⟨"jimmy", "se/cret", "localhost", "5432", "monster"⟩ :=
    ⟨by decide, List.all_eq_true.mp (by decide), by decide, List.all_eq_true.mp (by decide),
      ⟨5432, by decide, by decide, by decide⟩, by decide, List.all_eq_true.mp (by decide)⟩
  obtain ⟨e, he, -⟩ := hclaim _ hplain
  have hrefused : (ofUrl "postgres://jimmy:se/cret@localhost:5432/monster").isOk = false := by
    decide +kernel
  have hurl : Database.url ⟨"jimmy", "se/cret", "localhost", "5432", "monster"⟩ =
      "postgres://jimmy:se/cret@localhost:5432/monster" := by decide
  rw [hurl] at he
  rw [he] at hrefused
  cases hrefused

end RelaySql.Settings.Database
