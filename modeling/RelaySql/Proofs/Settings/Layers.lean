import RelaySql.Proofs.Settings.References

/-!
# Settings — the defaults, a file over them, and the environment

The settings of a file come in three layers: the defaults, what the file's document says over them,
and the environment variables that the parts of the address then refer to.

* `Config.lay_eq`: a document is laid over settings exactly if each of its keys is admitted, one key
  after the other.
* `Config.lay_eq_ok_iff`, `Config.lay_eq_error_iff`: when that succeeds, and with which fault it
  fails.
* `Config.ofFile_layers`: when a file gives settings, which ones, and which fault it has otherwise.
-/

namespace RelaySql.Yaml.Value

/-- The value that names lead to, one inside the other. -/
def at? (v : Value) (path : List String) : Option Value := path.foldlM member? v

theorem at?_concat (v : Value) (path : List String) (name : String) :
    v.at? (path ++ [name]) = (v.at? path).bind (·.member? name) := by
  rw [at?, List.foldlM_append]
  refine congrArg (Option.bind (v.at? path)) (funext fun w => ?_)
  rw [List.foldlM_cons]
  exact bind_pure _

theorem member?_eq_none {v : Value} (h : ∀ pairs, v ≠ .mapping pairs) (name : String) :
    v.member? name = none := by
  cases v with
  | mapping pairs => exact absurd rfl (h pairs)
  | null | boolean | number | string | sequence => rfl

/-- A section that is missing or no mapping holds nothing. -/
theorem at?_concat_eq_none {v : Value} {path : List String}
    (h : ∀ pairs, v.at? path ≠ some (.mapping pairs)) (name : String) :
    v.at? (path ++ [name]) = none := by
  rw [at?_concat]
  rcases hsection : v.at? path with _ | w
  · rfl
  · exact member?_eq_none (fun pairs hw => h pairs (hsection.trans (congrArg some hw))) name

end RelaySql.Yaml.Value

namespace RelaySql.Settings

/-! ### The keys of a settings file -/

/-- A key of a settings file. -/
inductive Key where
  | logLevel
  | verbose
  | part (p : Part)
deriving DecidableEq, Repr

/-- What may stand where a text belongs. -/
def isTextual : Option Yaml.Value → Bool
  | none | some .null | some (.string _) | some (.number _) => true
  | some (.boolean _) | some (.sequence _) | some (.mapping _) => false

/-- What may stand where a truth value belongs. -/
def isTruth : Option Yaml.Value → Bool
  | none | some (.boolean _) => true
  | some _ => false

/-- The text of a string or a number, or else the one below. -/
def textOr (below : String) : Option Yaml.Value → String
  | some (.string s) => s
  | some (.number n) => n.text
  | _ => below

/-- The truth value, or else the one below. -/
def truthOr (below : Bool) : Option Yaml.Value → Bool
  | some (.boolean b) => b
  | _ => below

namespace Key

/-- All keys, in the order in which they are read. -/
def all : List Key := logLevel :: verbose :: Part.all.map part

theorem mem_all (k : Key) : k ∈ all := by
  rcases k with _ | _ | (_ | _ | _ | _ | _) <;> decide

/-- The name of a key, as a fault gives it. -/
def name : Key → String
  | logLevel => "log_level"
  | verbose => "verbose"
  | part p => p.name

/-- The names that lead to a key. -/
def path : Key → List String
  | logLevel => ["log_level"]
  | verbose => ["verbose"]
  | part p => ["database", databaseScheme, p.name]

/-- What may stand under a key. -/
def admits : Key → Option Yaml.Value → Bool
  | logLevel => isTextual
  | verbose => isTruth
  | part _ => isTextual

end Key

/-- The value under a name is accepted, or the name is at fault. -/
def accept (accepted : Bool) (name : String) : Except SettingsFault Unit :=
  if accepted then .ok () else .error (.invalidValue name)

/-- What a document says under a key is accepted, or the key is at fault. -/
def Key.check (document : Yaml.Value) (k : Key) : Except SettingsFault Unit :=
  accept (k.admits (document.at? k.path)) k.name

theorem accept_eq_ok_iff {accepted : Bool} {name : String} {u : Unit} :
    accept accepted name = .ok u ↔ accepted = true := by
  cases accepted with
  | false => exact iff_of_false (fun h => nomatch h) Bool.false_ne_true
  | true => exact iff_of_true rfl rfl

theorem accept_eq_error_iff {accepted : Bool} {name : String} {fault : SettingsFault} :
    accept accepted name = .error fault ↔ accepted = false ∧ fault = .invalidValue name := by
  cases accepted with
  | false => exact ⟨fun h => ⟨rfl, (Except.error.inj h).symm⟩, fun h => h.2 ▸ rfl⟩
  | true => exact iff_of_false (fun h => nomatch h) fun h => nomatch h.1

/-! ### A document over settings -/

/-- The address with a text for each of its parts. -/
def Database.ofTexts (text : Part → String) : Database :=
  ⟨text .user, text .password, text .host, text .port, text .database⟩

/-- What a document says, and below it the settings it is laid over. -/
def Config.laid (c : Config) (document : Yaml.Value) : Config where
  logLevel := textOr c.logLevel (document.at? Key.logLevel.path)
  verbose := truthOr c.verbose (document.at? Key.verbose.path)
  database := .ofTexts fun p => textOr (p.of c.database) (document.at? (Key.part p).path)

theorem layText_eq (node : Yaml.Value) (key below : String) :
    layText node key below =
      (accept (isTextual (node.member? key)) key).map fun _ => textOr below (node.member? key) := by
  simp only [layText, textUnder]
  rcases node.member? key with _ | (_ | _ | _ | _ | _ | _) <;> rfl

theorem Config.layVerbose_eq (document : Yaml.Value) (below : Bool) :
    layVerbose document below =
      (accept (isTruth (document.member? "verbose")) "verbose").map fun _ =>
        truthOr below (document.member? "verbose") := by
  simp only [layVerbose]
  rcases document.member? "verbose" with _ | (_ | _ | _ | _ | _ | _) <;> rfl

/-- A section is laid over an address part by part. -/
theorem Database.lay_eq (d : Database) (node : Yaml.Value) :
    d.lay node =
      (Part.all.mapM fun p => accept (isTextual (node.member? p.name)) p.name).map fun _ =>
        .ofTexts fun p => textOr (p.of d) (node.member? p.name) := by
  simp only [lay, layText_eq, Part.all, List.mapM_cons, List.mapM_nil, Part.name]
  rcases accept (isTextual (node.member? "user")) "user" with _ | _
  · rfl
  rcases accept (isTextual (node.member? "password")) "password" with _ | _
  · rfl
  rcases accept (isTextual (node.member? "host")) "host" with _ | _
  · rfl
  rcases accept (isTextual (node.member? "port")) "port" with _ | _
  · rfl
  rcases accept (isTextual (node.member? "database")) "database" with _ | _ <;> rfl

namespace Config

theorem at?_name (document : Yaml.Value) (name : String) :
    document.at? [name] = document.member? name :=
  document.at?_concat [] name

theorem at?_part (document : Yaml.Value) (p : Part) :
    document.at? (Key.part p).path =
      ((document.member? "database").bind (·.member? databaseScheme)).bind (·.member? p.name) := by
  have hpart := document.at?_concat ["database", databaseScheme] p.name
  have hsection := document.at?_concat ["database"] databaseScheme
  rw [at?_name] at hsection
  exact hpart.trans (congrArg (Option.bind · _) hsection)

/-- **A document is laid over settings** if its keys are accepted, one after the other. -/
theorem lay_eq (c : Config) (document : Yaml.Value) :
    c.lay document = (Key.all.mapM (Key.check document)).map fun _ => c.laid document := by
  simp only [lay, laid, layText_eq, layVerbose_eq, Key.all, List.mapM_cons, List.mapM_map,
    Key.check, Function.comp_def, Key.admits, Key.name, at?_part]
  simp only [Key.path, at?_name]
  rcases accept (isTextual (document.member? "log_level")) "log_level" with _ | _
  · rfl
  rcases accept (isTruth (document.member? "verbose")) "verbose" with _ | _
  · rfl
  rcases (document.member? "database").bind (·.member? databaseScheme) with _ | node
  · -- without a section each of its parts is absent, and so admitted
    rfl
  simp only [Database.lay_eq, Option.bind_some]
  rcases hparts : Part.all.mapM fun p => accept (isTextual (node.member? p.name)) p.name with _ | _
  · rw [hparts]
    rfl
  · rw [hparts]
    rfl

/-- A document can be laid over settings exactly if all of its keys are admitted. -/
theorem lay_eq_ok_iff {c c' : Config} {document : Yaml.Value} :
    c.lay document = .ok c' ↔
      (∀ k : Key, k.admits (document.at? k.path) = true) ∧ c.laid document = c' := by
  rw [lay_eq, Except.map_eq_ok]
  constructor
  · rintro ⟨checked, hchecked, hlaid⟩
    refine ⟨fun k => ?_, hlaid⟩
    obtain ⟨_, -, hk⟩ := Except.mem_of_mapM_eq_ok hchecked k.mem_all
    exact accept_eq_ok_iff.mp hk
  · rintro ⟨hadmits, hlaid⟩
    rcases hchecked : Key.all.mapM (Key.check document) with fault | checked
    · obtain ⟨_, k, _, -, -, hk⟩ := Except.mapM_eq_error.mp hchecked
      exact absurd ((hadmits k).symm.trans (accept_eq_error_iff.mp hk).1) Bool.false_ne_true.symm
    · exact ⟨checked, rfl, hlaid⟩

/-- **A document fails over settings** with its first key that is not admitted. -/
theorem lay_eq_error_iff {c : Config} {document : Yaml.Value} {fault : SettingsFault} :
    c.lay document = .error fault ↔ ∃ before k after, Key.all = before ++ k :: after ∧
      (∀ k' ∈ before, k'.admits (document.at? k'.path) = true) ∧
      k.admits (document.at? k.path) = false ∧ fault = .invalidValue k.name := by
  rw [lay_eq, Except.map_eq_error, Except.mapM_eq_error]
  simp only [Key.check, accept_eq_ok_iff, accept_eq_error_iff, exists_const]

/-! ### The settings of a file -/

/-- What a document says, and where it says nothing the defaults. -/
def stated (document : Yaml.Value) : Config := ({} : Config).laid document

theorem ofFile_eq {text : String} {document : Yaml.Value}
    (h : Yaml.Value.ofText? text = some document) (env : Environment) :
    ofFile (some text) env = ({} : Config).lay document >>= (·.resolve env) := by
  simp only [ofFile, h]
  rfl

section

variable {text : String} {document : Yaml.Value} {env : Environment}

/-- What the settings of a file are. -/
theorem ofFile_eq_ok_iff (h : Yaml.Value.ofText? text = some document) {c : Config} :
    ofFile (some text) env = .ok c ↔
      (∀ k : Key, k.admits (document.at? k.path) = true) ∧
        c.logLevel = (stated document).logLevel ∧ c.verbose = (stated document).verbose ∧
          ∀ p : Part, Replaces env (p.of (stated document).database) (p.of c.database) := by
  rw [ofFile_eq h, Except.bind_eq_ok]
  constructor
  · rintro ⟨c', hlay, hresolve⟩
    obtain ⟨hadmits, rfl⟩ := lay_eq_ok_iff.mp hlay
    exact ⟨hadmits, resolve_eq_ok_iff.mp hresolve⟩
  · rintro ⟨hadmits, hresolve⟩
    exact ⟨_, lay_eq_ok_iff.mpr ⟨hadmits, rfl⟩, resolve_eq_ok_iff.mpr hresolve⟩

/-- Why a file gives no settings: first its keys are checked, then references are replaced. -/
theorem ofFile_eq_error_iff (h : Yaml.Value.ofText? text = some document) {fault : SettingsFault} :
    ofFile (some text) env = .error fault ↔
      (∃ before k after, Key.all = before ++ k :: after ∧
        (∀ k' ∈ before, k'.admits (document.at? k'.path) = true) ∧
        k.admits (document.at? k.path) = false ∧ fault = .invalidValue k.name) ∨
      ((∀ k : Key, k.admits (document.at? k.path) = true) ∧
        (∃ p : Part, Dangles env (p.of (stated document).database)) ∧ fault = .unsetVariable) := by
  rw [ofFile_eq h, Except.bind_eq_error]
  refine or_congr lay_eq_error_iff ?_
  constructor
  · rintro ⟨c, hlay, hresolve⟩
    obtain ⟨hadmits, rfl⟩ := lay_eq_ok_iff.mp hlay
    exact ⟨hadmits, resolve_eq_error_iff.mp hresolve⟩
  · rintro ⟨hadmits, hresolve⟩
    exact ⟨_, lay_eq_ok_iff.mpr ⟨hadmits, rfl⟩, resolve_eq_error_iff.mpr hresolve⟩

theorem exists_ofFile_iff (h : Yaml.Value.ofText? text = some document) :
    (∃ c, ofFile (some text) env = .ok c) ↔
      (∀ k : Key, k.admits (document.at? k.path) = true) ∧
        ∀ (p : Part) (name : String), Refers (p.of (stated document).database) name →
          ∃ value, env.get? name = some value := by
  constructor
  · rintro ⟨c, hc⟩
    obtain ⟨hadmits, -, -, hparts⟩ := (ofFile_eq_ok_iff h).mp hc
    exact ⟨hadmits, fun p name hname => ⟨_, (hparts p).reference name hname⟩⟩
  · rintro ⟨hadmits, hset⟩
    rcases hfile : ofFile (some text) env with fault | c
    · obtain ⟨_, k, _, -, -, hk, -⟩ | ⟨-, ⟨p, name, hname, hnone⟩, -⟩ :=
        (ofFile_eq_error_iff h).mp hfile
      · rw [hadmits k] at hk
        cases hk
      · obtain ⟨value, hvalue⟩ := hset p name hname
        rw [hnone] at hvalue
        cases hvalue
    · exact ⟨c, rfl⟩

end

/-- **The layers of a settings file.**  A file gives settings exactly if all of its keys are
admitted and every variable that a part of the address then refers to is set.  They are what the
file says, and where it says nothing the defaults, with every part of the address replaced once and
on its own.  Otherwise the first key that is not admitted is at fault, and behind all keys a
variable that is not set.  A section that is missing or no mapping holds nothing. -/
theorem ofFile_layers {text : String} {document : Yaml.Value} (env : Environment)
    (h : Yaml.Value.ofText? text = some document) :
    ((∃ c, ofFile (some text) env = .ok c) ↔
        (∀ k : Key, k.admits (document.at? k.path) = true) ∧
          ∀ (p : Part) (name : String), Refers (p.of (stated document).database) name →
            ∃ value, env.get? name = some value) ∧
      (∀ c, ofFile (some text) env = .ok c →
        c.logLevel = (stated document).logLevel ∧ c.verbose = (stated document).verbose ∧
          ∀ p : Part, Replaces env (p.of (stated document).database) (p.of c.database)) ∧
      (∀ fault, ofFile (some text) env = .error fault ↔
        (∃ before k after, Key.all = before ++ k :: after ∧
          (∀ k' ∈ before, k'.admits (document.at? k'.path) = true) ∧
          k.admits (document.at? k.path) = false ∧ fault = .invalidValue k.name) ∨
        ((∀ k : Key, k.admits (document.at? k.path) = true) ∧
          (∃ p : Part, Dangles env (p.of (stated document).database)) ∧
          fault = .unsetVariable)) ∧
      ∀ (path : List String) (name : String),
        (∀ pairs, document.at? path ≠ some (.mapping pairs)) →
          document.at? (path ++ [name]) = none :=
  ⟨exists_ofFile_iff h, fun _ hc => ((ofFile_eq_ok_iff h).mp hc).2,
    fun _ => ofFile_eq_error_iff h, fun _ name hpath => Yaml.Value.at?_concat_eq_none hpath name⟩

/-- A settings file with a reference, and with a number for a text. -/
def referringFile : String :=
  "database:\n  postgres:\n    password: $\x7bSECRET\x7d\n    port: 6543\n"

/-- The document of that file. -/
def referringDocument : Yaml.Value :=
  .mapping [(.string "database", .mapping [(.string "postgres", .mapping
    [(.string "password", .string "$\x7bSECRET\x7d"),
      (.string "port", .number (.finite (.whole 6543)))])])]

/-- A variable's value that itself looks like a reference is not looked up again. -/
theorem ofFile_layers_referringFile :
    Yaml.Value.ofText? referringFile = some referringDocument ∧
      ∃ c, ofFile (some referringFile) [("SECRET", "$HOME"), ("HOME", "/root")] = .ok c ∧
        c.database.password = "$HOME" ∧ c.database.port = "6543" := by
  have hread : Yaml.Value.ofText? referringFile = some referringDocument := by rfl
  have hparts : (stated referringDocument).database =
      { password := "$\x7bSECRET\x7d", port := "6543" } := by rfl
  obtain ⟨hgives, hvalues, -⟩ := ofFile_layers [("SECRET", "$HOME"), ("HOME", "/root")] hread
  rw [hparts] at hgives hvalues
  have hadmits : ∀ k : Key, k.admits (referringDocument.at? k.path) = true := by
    rintro (_ | _ | (_ | _ | _ | _ | _)) <;> rfl
  obtain ⟨c, hc⟩ : ∃ c, ofFile (some referringFile) _ = .ok c := by
    refine hgives.mpr ⟨hadmits, fun p name hname => ?_⟩
    obtain ⟨hdollar, rfl⟩ := refers_iff.mp hname
    cases p with
    | password => exact ⟨"$HOME", by decide⟩
    | user | host | port | database => exact absurd hdollar (by decide)
  obtain ⟨-, -, hreplaced⟩ := hvalues c hc
  refine ⟨hread, c, hc, ?_, ?_⟩
  · exact (Option.some.inj ((hreplaced .password).reference "SECRET" (.braced "SECRET"))).symm
  · refine (hreplaced .port).plain fun name hname => ?_
    exact absurd (refers_iff.mp hname).1 (by decide)

end Config

end RelaySql.Settings
