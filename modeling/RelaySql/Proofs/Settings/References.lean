import RelaySql.Proofs.Outcome
import RelaySql.Settings.File

/-!
# Settings — references to environment variables

A text that begins with a dollar sign refers to a variable: to the name between braces behind the
dollar sign, or without both braces to all that follows it.  The parts of an address are replaced by
the variables they refer to, each on its own.

* `refers_iff`: what a text refers to.
* `Database.resolvePart_eq_ok_iff`, `Database.resolvePart_eq_error_iff`: what a text is replaced by,
  and when that fails.
* `Config.resolve_eq_ok_iff`, `Config.resolve_eq_error_iff`: the same of settings, whose address
  alone is replaced.
-/

namespace RelaySql.Settings

/-! ### The name that a text refers to -/

/-- The text refers to the variable of this name: it is the name between braces behind a dollar
sign, or else the name behind a dollar sign. -/
inductive Refers : String → String → Prop where
  | braced (name : String) : Refers ("$\x7b" ++ name ++ "\x7d") name
  | bare (name : String) (h : ∀ inner, "$" ++ name ≠ "$\x7b" ++ inner ++ "\x7d") :
      Refers ("$" ++ name) name

theorem between?_eq_some_iff {opening cs name : List Char} {closing : Char} :
    between? opening closing cs = some name ↔ cs = opening ++ name ++ [closing] := by
  constructor
  · intro h
    simp only [between?] at h
    obtain ⟨hopening, h⟩ := Option.ite_none_right_eq_some.mp h
    obtain ⟨hclosing, h⟩ := Option.ite_none_right_eq_some.mp h
    obtain ⟨inner, rfl⟩ := List.isPrefixOf_iff_prefix.mp hopening
    rw [List.drop_left] at hclosing h
    obtain rfl := Option.some.inj h
    rw [List.append_assoc, List.dropLast_append_getLast? _ hclosing]
  · rintro rfl
    have hprefix : opening.isPrefixOf (opening ++ name ++ [closing]) = true :=
      List.isPrefixOf_iff_prefix.mpr (by rw [List.append_assoc]; exact List.prefix_append _ _)
    simp only [between?, if_pos hprefix]
    rw [List.append_assoc, List.drop_left, if_pos List.getLast?_concat, List.dropLast_concat]

theorem toList_braced (name : String) :
    ("$\x7b" ++ name ++ "\x7d").toList = ['$', '\x7b'] ++ name.toList ++ ['\x7d'] := by
  simp only [String.toList_append]
  rfl

theorem toList_bare (name : String) : ("$" ++ name).toList = '$' :: name.toList := by
  simp only [String.toList_append]
  rfl

theorem referredName_braced (name : String) :
    referredName ("$\x7b" ++ name ++ "\x7d") = name := by
  have hname := between?_eq_some_iff.mpr (toList_braced name)
  simp only [referredName, hname, String.ofList_toList]

theorem isReference_bare (name : String) : isReference ("$" ++ name) = true := by
  rw [isReference, toList_bare]
  rfl

theorem referredName_bare {name : String}
    (h : ∀ inner, "$" ++ name ≠ "$\x7b" ++ inner ++ "\x7d") :
    referredName ("$" ++ name) = name := by
  have hname : between? ['$', '\x7b'] '\x7d' ("$" ++ name).toList = none := by
    refine Option.eq_none_iff_forall_not_mem.mpr fun inner hinner => h (String.ofList inner) ?_
    rw [← String.toList_inj, between?_eq_some_iff.mp hinner, toList_braced, String.toList_ofList]
  simp only [referredName, hname, isReference_bare, if_true]
  rw [toList_bare, List.tail_cons, String.ofList_toList]

/-- A text that begins with a dollar sign refers to a variable. -/
theorem refers_referredName {text : String} (h : isReference text = true) :
    Refers text (referredName text) := by
  have hdollar : text.toList.head? = some '$' := of_decide_eq_true h
  obtain ⟨name, rfl⟩ : ∃ name, text = "$" ++ name := by
    refine ⟨String.ofList text.toList.tail, ?_⟩
    rw [← String.toList_inj, toList_bare, String.toList_ofList, List.cons_head?_tail hdollar]
  by_cases hbraced : ∃ inner, "$" ++ name = "$\x7b" ++ inner ++ "\x7d"
  · obtain ⟨inner, heq⟩ := hbraced
    rw [heq, referredName_braced]
    exact .braced inner
  · have hbare := not_exists.mp hbraced
    rw [referredName_bare hbare]
    exact .bare name hbare

/-- **What a text refers to**, if it begins with a dollar sign. -/
theorem refers_iff {text name : String} :
    Refers text name ↔ isReference text = true ∧ referredName text = name := by
  constructor
  · rintro (_ | ⟨_, h⟩)
    · refine ⟨?_, referredName_braced name⟩
      rw [isReference, toList_braced]
      rfl
    · exact ⟨isReference_bare name, referredName_bare h⟩
  · rintro ⟨h, rfl⟩
    exact refers_referredName h

/-! ### Replacing a text -/

/-- The text is replaced by the value: that of the variable it refers to, or its own. -/
structure Replaces (env : Environment) (text value : String) : Prop where
  reference : ∀ name, Refers text name → env.get? name = some value
  plain : (∀ name, ¬ Refers text name) → value = text

/-- The text refers to a variable that is not set. -/
def Dangles (env : Environment) (text : String) : Prop :=
  ∃ name, Refers text name ∧ env.get? name = none

variable {env : Environment}

theorem Database.resolvePart_eq_ok_iff {text value : String} :
    resolvePart env text = .ok value ↔ Replaces env text value := by
  by_cases h : isReference text = true
  · have hrefers := refers_referredName h
    rw [resolvePart, if_pos h]
    constructor
    · intro hvalue
      split at hvalue
      · next found hfound =>
          obtain rfl := Except.ok.inj hvalue
          refine ⟨fun name hname => ?_, fun hplain => absurd hrefers (hplain _)⟩
          rwa [← (refers_iff.mp hname).2]
      · cases hvalue
    · intro hreplaces
      rw [hreplaces.reference _ hrefers]
  · have hplain : ∀ name, ¬ Refers text name := fun name hname => h (refers_iff.mp hname).1
    rw [resolvePart, if_neg h]
    constructor
    · intro hvalue
      exact ⟨fun name hname => absurd hname (hplain name), fun _ => (Except.ok.inj hvalue).symm⟩
    · intro hreplaces
      rw [hreplaces.plain hplain]

theorem Database.resolvePart_eq_error_iff {text : String} {fault : SettingsFault} :
    resolvePart env text = .error fault ↔ Dangles env text ∧ fault = .unsetVariable := by
  by_cases h : isReference text = true
  · rw [resolvePart, if_pos h]
    constructor
    · intro hfault
      split at hfault
      · cases hfault
      · next hnone => exact ⟨⟨_, refers_referredName h, hnone⟩, (Except.error.inj hfault).symm⟩
    · rintro ⟨⟨name, hname, hnone⟩, rfl⟩
      rw [(refers_iff.mp hname).2, hnone]
  · rw [resolvePart, if_neg h]
    refine iff_of_false (fun hfault => nomatch hfault) ?_
    rintro ⟨⟨name, hname, -⟩, -⟩
    exact h (refers_iff.mp hname).1

/-! ### Replacing the parts of an address -/

/-- A part of the address of a database. -/
inductive Part where
  | user
  | password
  | host
  | port
  | database
deriving DecidableEq, Repr

namespace Part

/-- All parts, in order. -/
def all : List Part := [user, password, host, port, database]

/-- The name of a part in a document. -/
def name : Part → String
  | user => "user"
  | password => "password"
  | host => "host"
  | port => "port"
  | database => "database"

/-- The text of a part. -/
def of (p : Part) (d : Database) : String :=
  match p with
  | user => d.user
  | password => d.password
  | host => d.host
  | port => d.port
  | database => d.database

end Part

/-- One part is replaced, and the rest follows. -/
theorem Database.run_replace {α : Type} (env : Environment) (part : Database → String)
    (put : String → Database → Database) (rest : ExceptT SettingsFault (StateM Database) α)
    (d : Database) :
    (do
        let text ← Database.resolvePart env (part (← get))
        modify (put text)
        rest : ExceptT SettingsFault (StateM Database) α).run.run d =
      match Database.resolvePart env (part d) with
      | .ok text => rest.run.run (put text d)
      | .error fault => (.error fault, d) := by
  change (do
    let text ← Database.resolvePart env (part d)
    modify (put text)
    rest : ExceptT SettingsFault (StateM Database) α).run.run d = _
  cases Database.resolvePart env (part d) <;> rfl

namespace Config

/-- The parts of the address are replaced one after another. -/
theorem resolve_eq (c : Config) (env : Environment) :
    c.resolve env = do
      let user ← Database.resolvePart env c.database.user
      let password ← Database.resolvePart env c.database.password
      let host ← Database.resolvePart env c.database.host
      let port ← Database.resolvePart env c.database.port
      let database ← Database.resolvePart env c.database.database
      return { c with database := ⟨user, password, host, port, database⟩ } := by
  rcases c with ⟨logLevel, verbose, ⟨user, password, host, port, database⟩⟩
  simp only [resolve, Database.resolved, Database.resolveReferences]
  rw [Database.run_replace env (·.user) fun text d => { d with user := text }]
  rcases Database.resolvePart env user with fault | user'
  · rfl
  simp only
  rw [Database.run_replace env (·.password) fun text d => { d with password := text }]
  rcases Database.resolvePart env password with fault | password'
  · rfl
  simp only
  rw [Database.run_replace env (·.host) fun text d => { d with host := text }]
  rcases Database.resolvePart env host with fault | host'
  · rfl
  simp only
  rw [Database.run_replace env (·.port) fun text d => { d with port := text }]
  rcases Database.resolvePart env port with fault | port'
  · rfl
  simp only
  have hlast := Database.run_replace env (·.database) (fun text d => { d with database := text })
    (pure ()) ⟨user', password', host', port', database⟩
  simp only [bind_pure_unit] at hlast
  rw [hlast]
  rcases Database.resolvePart env database with fault | database' <;> rfl

/-- **What settings become**: each part of the address is replaced on its own, and nothing else
is. -/
theorem resolve_eq_ok_iff {c c' : Config} :
    c.resolve env = .ok c' ↔ c'.logLevel = c.logLevel ∧ c'.verbose = c.verbose ∧
      ∀ p : Part, Replaces env (p.of c.database) (p.of c'.database) := by
  rw [resolve_eq]
  constructor
  · intro h
    obtain ⟨user, huser, h⟩ := Except.bind_eq_ok.mp h
    obtain ⟨password, hpassword, h⟩ := Except.bind_eq_ok.mp h
    obtain ⟨host, hhost, h⟩ := Except.bind_eq_ok.mp h
    obtain ⟨port, hport, h⟩ := Except.bind_eq_ok.mp h
    obtain ⟨database, hdatabase, h⟩ := Except.bind_eq_ok.mp h
    obtain rfl := Except.ok.inj h
    refine ⟨rfl, rfl, fun p => ?_⟩
    cases p with
    | user => exact Database.resolvePart_eq_ok_iff.mp huser
    | password => exact Database.resolvePart_eq_ok_iff.mp hpassword
    | host => exact Database.resolvePart_eq_ok_iff.mp hhost
    | port => exact Database.resolvePart_eq_ok_iff.mp hport
    | database => exact Database.resolvePart_eq_ok_iff.mp hdatabase
  · rintro ⟨hlevel, hverbose, hparts⟩
    have hread : ∀ p : Part, Database.resolvePart env (p.of c.database) = .ok (p.of c'.database) :=
      fun p => Database.resolvePart_eq_ok_iff.mpr (hparts p)
    rw [show Database.resolvePart env c.database.user = _ from hread .user,
      show Database.resolvePart env c.database.password = _ from hread .password,
      show Database.resolvePart env c.database.host = _ from hread .host,
      show Database.resolvePart env c.database.port = _ from hread .port,
      show Database.resolvePart env c.database.database = _ from hread .database,
      ← hlevel, ← hverbose]
    rfl

theorem dangles_of_resolve_eq_error {c : Config} {fault : SettingsFault}
    (h : c.resolve env = .error fault) :
    (∃ p : Part, Dangles env (p.of c.database)) ∧ fault = .unsetVariable := by
  have hpart (p : Part) (hp : Database.resolvePart env (p.of c.database) = .error fault) :
      (∃ p : Part, Dangles env (p.of c.database)) ∧ fault = .unsetVariable :=
    (Database.resolvePart_eq_error_iff.mp hp).imp_left fun hdangles => ⟨p, hdangles⟩
  rw [resolve_eq] at h
  obtain huser | ⟨_, -, h⟩ := Except.bind_eq_error.mp h
  · exact hpart .user huser
  obtain hpassword | ⟨_, -, h⟩ := Except.bind_eq_error.mp h
  · exact hpart .password hpassword
  obtain hhost | ⟨_, -, h⟩ := Except.bind_eq_error.mp h
  · exact hpart .host hhost
  obtain hport | ⟨_, -, h⟩ := Except.bind_eq_error.mp h
  · exact hpart .port hport
  obtain hdatabase | ⟨_, -, h⟩ := Except.bind_eq_error.mp h
  · exact hpart .database hdatabase
  · cases h

/-- **Settings fail** exactly if a part of their address refers to a variable that is not set. -/
theorem resolve_eq_error_iff {c : Config} {fault : SettingsFault} :
    c.resolve env = .error fault ↔
      (∃ p : Part, Dangles env (p.of c.database)) ∧ fault = .unsetVariable := by
  refine ⟨dangles_of_resolve_eq_error, ?_⟩
  rintro ⟨⟨p, name, hname, hnone⟩, rfl⟩
  rcases h : c.resolve env with fault | c'
  · rw [(dangles_of_resolve_eq_error h).2]
  · have hvalue := ((resolve_eq_ok_iff.mp h).2.2 p).reference name hname
    rw [hnone] at hvalue
    cases hvalue

end Config

end RelaySql.Settings
