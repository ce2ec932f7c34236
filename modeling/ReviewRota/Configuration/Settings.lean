import ReviewRota.Configuration.DatabaseUrl

/-!
# Settings

The settings come from environment variables. Each has a default for when it is not set; the first
one that cannot be read, in the order of reading, is reported.
-/

namespace ReviewRota

inductive Database where
  | file (name : String)
  | server (url : DatabaseUrl) (statementTimeout : Int)
  deriving DecidableEq

structure Settings where
  secretKey : String
  debug : Bool
  allowedHosts : List String
  database : Database
  maxReviewers : Int
  operationTimeout : Option Binary64
  statementTimeout : Int
  logLevel : String
  deriving DecidableEq

abbrev Environment := List (String × String)

namespace Settings

/-- Messages show at most this many characters of a text that is no whole number. -/
def shownNumeral : Nat := 200

def wholeNumber (s : String) : Except Failure Int :=
  match Numeral.int? s.toList with
  | .ok i => .ok i
  | .error .malformed =>
    .error (.fault ⟨.value, "invalid literal for int() with base 10: " ++
      String.ofList ((quoted s).toList.take shownNumeral)⟩)
  | .error (.tooLong digits) =>
    .error (.fault ⟨.value, "Exceeds the limit (" ++ toString Numeral.maxDigits ++
      " digits) for integer string conversion: value has " ++ toString digits ++
      " digits; use sys.set_int_max_str_digits() to increase the limit"⟩)

/-- A decimal, where nothing and the empty text both stand for none. -/
def optionalDecimal : Option String → Except Failure (Option Binary64)
  | none => .ok none
  | some s =>
    if s.isEmpty then .ok none
    else
      match Numeral.float? s.toList with
      | some x => .ok (some x)
      | none => .error (.fault ⟨.value, "could not convert string to float: " ++ quoted s⟩)

def databaseOf (url : String) (statementTimeout : Int) : Except Failure Database :=
  if url.isEmpty then .ok (.file "db.sqlite3")
  else do
    let parts ← DatabaseUrl.parse url
    return .server parts statementTimeout

def ofEnvironment (env : Environment) : Except Failure Settings := do
  let var (name default : String) : String := (env.lookup name).getD default
  let secretKey := var "DJANGO_SECRET_KEY" "django-insecure-reviewer-assigner-local-only"
  let debug := Case.lower (var "DJANGO_DEBUG" "false") = "true"
  let allowedHosts := (var "DJANGO_ALLOWED_HOSTS" "*").splitOn ","
  let statementTimeout ← wholeNumber (var "DB_STATEMENT_TIMEOUT_MS" "5000")
  let database ← databaseOf (var "DATABASE_URL" "") statementTimeout
  let maxReviewers ← wholeNumber (var "MAX_REVIEWERS_PER_PR" "2")
  let operationTimeout ← optionalDecimal (env.lookup "OPERATION_TIMEOUT_SECONDS")
  let logLevel := Case.upper (var "LOG_LEVEL" "INFO")
  return ⟨secretKey, debug, allowedHosts, database, maxReviewers, operationTimeout,
    statementTimeout, logLevel⟩

end Settings

/-- The options for connections to a server: its limit for every statement. -/
def Database.connectionOptions (statementTimeout : Int) : String :=
  "-c statement_timeout=" ++ toString statementTimeout

/-- The text of a port: none for the port zero, which no server listens on. -/
def DatabaseUrl.portText (u : DatabaseUrl) : String :=
  match u.port with
  | some 0 => ""
  | some p => toString p
  | none => ""

end ReviewRota
