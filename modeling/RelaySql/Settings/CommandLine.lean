import RelaySql.Settings.Basic

/-!
# Settings — the command line

Options have a long name, and some a letter; letters may be joined behind one dash.  An option
takes a value, which stands behind an equals sign, behind the letter, or is the next word.  The
next word is no value if it begins with a dash, unless it is the dash alone.

A word that begins an option is looked at before the value of the option before it is checked, so
an unknown option or a request for help is answered first.

* `CommandLine.ofWords` reads the words.
* `CommandLine.config` is what they say, completed from the environment and by defaults.
-/

namespace RelaySql.Settings

/-- What a command line answers other than settings. -/
inductive Usage where
  | unknownArgument
  | invalidValue
  | emptyValue
  | tooManyValues
  | multipleUsage
  | help
  | version
deriving DecidableEq, Repr

/-- An option with a value. -/
inductive ValueOption where
  | logLevel
  | config
  | backend
  | user
  | database
  | password
  | host
  | port
deriving DecidableEq, Repr

/-- An option without a value. -/
inductive Switch where
  | verbose
  | help
  | version
deriving DecidableEq, Repr

/-- An option of either kind. -/
abbrev CommandOption := ValueOption ⊕ Switch

namespace CommandLine

/-- The options by long name. -/
def longNames : Fields CommandOption := [
  ("log-level", .inl .logLevel), ("config", .inl .config), ("database", .inl .backend),
  ("postgres-user", .inl .user), ("postgres-database", .inl .database),
  ("postgres-password", .inl .password), ("postgres-host", .inl .host),
  ("postgres-port", .inl .port), ("verbose", .inr .verbose), ("help", .inr .help),
  ("version", .inr .version)]

/-- The option of a letter. -/
def ofLetter? : Char → Option CommandOption
  | 'c' => some (.inl .config)
  | 'v' => some (.inr .verbose)
  | 'h' => some (.inr .help)
  | 'V' => some (.inr .version)
  | _ => none

/-- The levels that can be asked for. -/
def logLevels : List String := ["info", "debug", "error", "warn", "trace"]

/-- The kinds of database that can be asked for. -/
def backends : List String := [databaseScheme]

end CommandLine

namespace ValueOption

/-- The option takes this value. -/
def accepts : ValueOption → String → Bool
  | logLevel, value => CommandLine.logLevels.contains value
  | backend, value => CommandLine.backends.contains value
  | _, _ => true

/-- A later value replaces an earlier one; other options may stand only once. -/
def replaces : ValueOption → Bool
  | logLevel | backend => true
  | _ => false

end ValueOption

/-- What has been read of a command line. -/
structure CommandLine where
  /-- The options with their values, in order. -/
  values : List (ValueOption × String) := []
  /-- How often the switch for verbose logging stands. -/
  verbose : Nat := 0
  /-- The option whose value may be the next word, or is the word just read. -/
  pending : Option (ValueOption × Option String) := none
deriving DecidableEq, Repr

namespace CommandLine

/-- Takes the value of an option. -/
def take (l : CommandLine) (o : ValueOption) (value : String) : Except Usage CommandLine :=
  if o.accepts value then .ok { l with values := l.values ++ [(o, value)] }
  else .error .invalidValue

/-- Takes the pending value, if an option is pending. -/
def settle (l : CommandLine) : Except Usage CommandLine :=
  match l.pending with
  | none => .ok l
  | some (_, none) => .error .emptyValue
  | some (o, some value) => { l with pending := none }.take o value

/-- A switch. -/
def switch (l : CommandLine) : Switch → Except Usage CommandLine
  | .help => .error .help
  | .version => .error .version
  | .verbose => do
    let l ← l.settle
    return { l with verbose := l.verbose + 1 }

/-- An option, with its value if it is attached. -/
def valueOption (l : CommandLine) (o : ValueOption) (attached : Option String) :
    Except Usage CommandLine := do
  let l ← l.settle
  match attached with
  | some value => l.take o value
  | none => return { l with pending := some (o, none) }

/-- A word behind two dashes. -/
def long (l : CommandLine) (cs : List Char) : Except Usage CommandLine :=
  let (name, rest) := cs.span (· ≠ '=')
  let attached := match rest with
    | [] => none
    | _ :: value => some (String.ofList value)
  match longNames.get? (String.ofList name), attached with
  | none, _ => .error .unknownArgument
  | some (.inl o), attached => l.valueOption o attached
  | some (.inr _), some _ => .error .tooManyValues
  | some (.inr s), none => l.switch s

/-- Letters behind one dash; what follows the letter of an option is its value. -/
def letters (l : CommandLine) : List Char → Except Usage CommandLine
  | [] => .ok l
  | c :: rest =>
    match ofLetter? c with
    | none => .error .unknownArgument
    | some (.inr s) => do letters (← l.switch s) rest
    | some (.inl o) =>
      let attached := match rest with
        | [] => none
        | '=' :: value => some (String.ofList value)
        | value => some (String.ofList value)
      l.valueOption o attached

/-- A word that begins no option: a value, if one is awaited. -/
def plain (l : CommandLine) (word : String) : Except Usage CommandLine :=
  match l.pending with
  | some (o, none) => .ok { l with pending := some (o, some word) }
  | _ => .error .unknownArgument

/-- Reads words one after another. -/
def words (l : CommandLine) : List String → Except Usage CommandLine
  | [] => l.settle
  | word :: rest =>
    match word.toList with
    | ['-', '-'] => if rest = [] then l.settle else .error .unknownArgument
    | '-' :: '-' :: cs => do words (← l.long cs) rest
    | '-' :: c :: cs => do words (← l.letters (c :: cs)) rest
    | _ => do words (← l.plain word) rest

/-- The values of an option, in order. -/
def valuesOf (l : CommandLine) (o : ValueOption) : List String :=
  l.values.filterMap fun (p, value) => if p = o then some value else none

/-- An option stands more often than it may. -/
def repeats (l : CommandLine) : Bool :=
  1 < l.verbose || l.values.any fun (o, _) => !o.replaces && 1 < (l.valuesOf o).length

/-- The options of a command line; its first word is the program. -/
def ofWords (argv : List String) : Except Usage CommandLine := do
  let l ← ({} : CommandLine).words argv.tail
  if l.repeats then throw .multipleUsage else return l

/-- The value of an option, if it stands. -/
def value? (l : CommandLine) (o : ValueOption) : Option String := (l.valuesOf o).getLast?

/-- The settings of a command line; a part of the address that it does not give is taken from the
environment. -/
def config (l : CommandLine) (env : Environment) : Config :=
  let part (o : ValueOption) (v : Variable) (default : String) : String :=
    (l.value? o).getD (v.valueOr env default)
  let defaults : Config := {}
  { logLevel := (l.value? .logLevel).getD defaults.logLevel
    verbose := 0 < l.verbose
    database :=
      { user := part .user .user defaults.database.user
        password := part .password .password defaults.database.password
        host := part .host .host defaults.database.host
        port := part .port .port defaults.database.port
        database := part .database .database defaults.database.database } }

/-- The settings file that a command line names. -/
def file? (l : CommandLine) : Option String := l.value? .config

end CommandLine

end RelaySql.Settings
