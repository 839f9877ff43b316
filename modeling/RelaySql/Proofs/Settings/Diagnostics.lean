import RelaySql.Proofs.Text.Quoted
import RelaySql.Proofs.Url.Credentials
import RelaySql.Settings.Basic
import RelaySql.Settings.Connection

/-!
# Settings — what diagnostics reveal of the password

The settings mask the password where they are shown.  The URL of the database holds it, and a URL
that is refused is shown as it is.

* `Database.refusal?_withPassword`: an address is refused with its whole URL, or not at all.
* `Database.refusal?_eq_none_iff`: whether it is refused does not depend on the password, but for an
  empty one.
* `Database.refusal_reveals_iff`: what is said of a refusal is the same for two passwords exactly
  when they are the same, or nothing is refused.
* `Database.refusal_reveals_badPort`: an address whose port is no number shows its password.
-/

namespace RelaySql.Settings

/-- The password holds none of the characters that end the authority of a URL or are left out of it.
Letters and digits are no such characters. -/
def Fits (password : String) : Prop :=
  ∀ c ∈ password.toList, Url.endsAuthority c = false ∧ Url.isKept c = true

theorem fits_of_alphanum {password : String} (h : password.toList.all Char.isAlphanum) :
    Fits password := by
  intro c hc
  have hne : ∀ d : Char, d.isAlphanum = false → c ≠ d := fun d hd heq => by
    have hc := List.all_eq_true.mp h c hc
    rw [heq, hd] at hc
    cases hc
  simp [Url.endsAuthority, Url.isKept, hne '/' rfl, hne '?' rfl, hne '#' rfl, hne '\t' rfl,
    hne '\n' rfl, hne '\r' rfl]

/-- Settings show of their address what the address shows. -/
theorem Config.debug_congr (c : Config) {d e : Database} (h : d.debug = e.debug) :
    { c with database := d }.debug = { c with database := e }.debug := by
  unfold Config.debug
  rw [h]

/-- The fault of a check that refuses the URL: it is no URL, or not that of a known backend. -/
def refusalOf : Except SourceFault Url → Option SourceFault
  | .error (.invalidConnectionString url) => some (.invalidConnectionString url)
  | .error (.backendNotSupported scheme) => some (.backendNotSupported scheme)
  | .error (.driver _) | .error (.rowDecode _) | .ok _ => none

namespace Database

/-- The address with another password. -/
def withPassword (d : Database) (password : String) : Database := { d with password }

/-- An address shows nothing of its password. -/
theorem debug_withPassword (d : Database) (p q : String) :
    (d.withPassword p).debug = (d.withPassword q).debug :=
  (d.debug_setPassword p).trans (d.debug_setPassword q).symm

/-- The fault of an address whose URL is refused. -/
def refusal? (d : Database) : Option SourceFault := refusalOf d.check

/-- What follows the password in the URL, behind an `@`. -/
def behindPassword (d : Database) : List Char :=
  (d.host ++ ":" ++ d.port ++ "/" ++ d.database).toList

theorem toList_url (d : Database) (p : String) :
    (d.withPassword p).url.toList =
      "postgres://".toList ++ d.user.toList ++ ':' :: (p.toList ++ '@' :: d.behindPassword) := by
  have hscheme : "postgres://".toList = databaseScheme.toList ++ "://".toList := by decide
  have hcolon : ":".toList = [':'] := by decide
  have hat : "@".toList = ['@'] := by decide
  simp only [url, withPassword, behindPassword, String.toList_append, hscheme, hcolon, hat,
    List.append_assoc, List.cons_append, List.nil_append]

/-- The URL of an address is read from its user on, without what is left out of it. -/
theorem ofText_url_kept (d : Database) :
    Url.ofText d.url = Url.ofAuthority databaseScheme
      (d.user.toList.filter Url.isKept ++ ':' :: (d.password.toList.filter Url.isKept ++
        '@' :: (Url.trimEnd d.behindPassword).filter Url.isKept)) := by
  refine Url.ofText_of_clean ?_
  have hscheme : "postgres://".toList = 'p' :: "ostgres://".toList := by decide
  have hurl : d.url.toList =
      'p' :: ("ostgres://".toList ++ d.user.toList ++ ':' :: d.password.toList) ++
        '@' :: d.behindPassword := by
    rw [show d.url.toList = _ from toList_url d d.password, hscheme]
    simp only [List.cons_append, List.append_assoc]
  have hfront :
      ('p' :: ("ostgres://".toList ++ d.user.toList ++ ':' :: d.password.toList)).filter
          Url.isKept =
        "postgres://".toList ++
          (d.user.toList.filter Url.isKept ++ ':' :: d.password.toList.filter Url.isKept) := by
    rw [← List.cons_append, ← List.cons_append, ← hscheme, List.filter_append, List.filter_append,
      List.filter_cons_of_pos (by decide), List.append_assoc]
    congr 1
  rw [hurl, Url.clean_split rfl rfl, hfront]
  simp only [List.cons_append, List.append_assoc]

/-- A password that fits is read as it is. -/
theorem ofText_url (d : Database) {p : String} (hp : Fits p) :
    Url.ofText (d.withPassword p).url = Url.ofAuthority databaseScheme
      (d.user.toList.filter Url.isKept ++
        ':' :: (p.toList ++ '@' :: (Url.trimEnd d.behindPassword).filter Url.isKept)) := by
  have hkept : p.toList.filter Url.isKept = p.toList :=
    List.filter_eq_self.mpr fun c hc => (hp c hc).2
  have hurl := (d.withPassword p).ofText_url_kept
  simp only [withPassword, hkept] at hurl
  exact hurl

/-- A text that is read as the URL of a database is not refused. -/
theorem checkUrl_of_ok {s : String} {url : Url} (h : Url.ofText s = .ok url)
    (hscheme : url.scheme = databaseScheme) :
    checkUrl s = if isPossible url then .ok url else .error (.driver .configuration) := by
  rw [checkUrl, h]
  exact if_neg fun hne => hne hscheme

/-- An address is refused with its whole URL, or not at all. -/
theorem refusal?_withPassword (d : Database) {p : String} (hp : Fits p) :
    (d.withPassword p).refusal? =
      if (Url.ofText (d.withPassword p).url).isOk then none
      else some (.invalidConnectionString (d.withPassword p).url) := by
  rw [refusal?, check]
  cases hurl : Url.ofText (d.withPassword p).url with
  | error fault =>
      rw [checkUrl, hurl]
      rfl
  | ok url =>
      have hscheme : url.scheme = databaseScheme := by
        rw [ofText_url d hp] at hurl
        exact Url.scheme_of_ofAuthority hurl
      rw [checkUrl_of_ok hurl hscheme]
      split <;> rfl

/-- **Whether an address is refused** does not depend on its password, but for an empty one. -/
theorem refusal?_eq_none_iff (d : Database) {p q : String} (hp : Fits p) (hq : Fits q)
    (h : p = "" ↔ q = "") :
    (d.withPassword p).refusal? = none ↔ (d.withPassword q).refusal? = none := by
  have hempty : p.toList = [] ↔ q.toList = [] := by
    rwa [String.toList_eq_nil_iff, String.toList_eq_nil_iff]
  have hsame :
      (Url.ofText (d.withPassword p).url).isOk = (Url.ofText (d.withPassword q).url).isOk := by
    rw [ofText_url d hp, ofText_url d hq]
    exact Url.isOk_ofAuthority_password _ _ (fun c hc => (hp c hc).1) (fun c hc => (hq c hc).1)
      hempty
  rw [refusal?_withPassword d hp, refusal?_withPassword d hq, hsame]
  split <;> simp

theorem url_withPassword_inj {d : Database} {p q : String}
    (h : (d.withPassword p).url = (d.withPassword q).url) : p = q := by
  have hlist := congrArg String.toList h
  rw [toList_url, toList_url] at hlist
  have hpassword := (List.cons.inj (List.append_cancel_left hlist)).2
  exact String.toList_inj.mp (List.append_cancel_right hpassword)

/-- The message of a refusal tells which URL was refused. -/
theorem invalidConnectionString_inj {url url' : String}
    (h : (SourceFault.invalidConnectionString url).message =
      (SourceFault.invalidConnectionString url').message) : url = url' :=
  Text.quoted_injective (String.append_right_inj _ |>.mp h)

/-- **What diagnostics reveal of the password.**  The settings show nothing of it.  Whether an
address is refused, always as one that is no URL, depends on it only if it is empty.  But the
message of a refusal shows it: two passwords are told apart as soon as one of them is refused. -/
theorem refusal_reveals_iff (d : Database) {p q : String} (hp : Fits p) (hq : Fits q) :
    ((d.withPassword p).debug = (d.withPassword q).debug ∧
      ∀ c : Config, { c with database := d.withPassword p }.debug =
        { c with database := d.withPassword q }.debug) ∧
    (∀ fault, (d.withPassword p).refusal? = some fault →
      fault = .invalidConnectionString (d.withPassword p).url) ∧
    ((p = "" ↔ q = "") →
      ((d.withPassword p).refusal? = none ↔ (d.withPassword q).refusal? = none)) ∧
    ((d.withPassword p).refusal?.map SourceFault.message =
        (d.withPassword q).refusal?.map SourceFault.message ↔
      p = q ∨ (d.withPassword p).refusal? = none ∧ (d.withPassword q).refusal? = none) := by
  have hmasked := debug_withPassword d p q
  refine ⟨⟨hmasked, fun c => c.debug_congr hmasked⟩, fun fault hfault => ?_,
    refusal?_eq_none_iff d hp hq, ?_⟩
  · rw [refusal?_withPassword d hp] at hfault
    split at hfault
    · cases hfault
    · exact (Option.some.inj hfault).symm
  · constructor
    · intro h
      rw [refusal?_withPassword d hp, refusal?_withPassword d hq] at h ⊢
      split at h <;> split at h
      · next hp hq => exact .inr ⟨if_pos hp, if_pos hq⟩
      · cases h
      · cases h
      · exact .inl (url_withPassword_inj (invalidConnectionString_inj (Option.some.inj h)))
    · rintro (rfl | ⟨hp, hq⟩)
      · rfl
      · rw [hp, hq]

/-- Nothing is said of two passwords for the default address, which is not refused. -/
theorem refusal_reveals_iff_default : Fits "secret1" ∧ Fits "other2" ∧
    (({} : Database).withPassword "secret1").debug = (({} : Database).withPassword "other2").debug ∧
    (({} : Database).withPassword "secret1").refusal?.map SourceFault.message =
      (({} : Database).withPassword "other2").refusal?.map SourceFault.message := by
  have hp : Fits "secret1" := fits_of_alphanum (by decide)
  have hq : Fits "other2" := fits_of_alphanum (by decide)
  obtain ⟨⟨hdebug, -⟩, -, -, htold⟩ := refusal_reveals_iff {} hp hq
  exact ⟨hp, hq, hdebug, htold.mpr (.inr ⟨by decide +kernel, by decide +kernel⟩)⟩

/-- An address whose port is no number is refused with a message that shows its password. -/
theorem refusal_reveals_badPort :
    ¬ ∀ (d : Database) (p q : String), p.toList.all Char.isAlphanum →
      q.toList.all Char.isAlphanum →
      (d.withPassword p).refusal?.map SourceFault.message =
        (d.withPassword q).refusal?.map SourceFault.message := by
  intro hclaim
  have htold := hclaim { port := "5432a" } "secret1" "other2" (by decide) (by decide)
  exact absurd htold (by decide +kernel)

end Database

end RelaySql.Settings
