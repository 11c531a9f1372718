import SortView.Lib.Case
import SortView.Lib.JsonPaths
import SortView.Lib.Pattern

/-!
# What may reach the error tracker

`services/privacy_hardening.py`: the scrubbing of an event before it is sent. An event is a mapping of text keys. The word
characters of `\w` and the spelling of a value that is no text are parameters.
-/

namespace SortView

open PyText

namespace PrivacyHardening

def filtered : Text := "[Filtered]".toList

def dbErrorRedacted : Text := "[Filtered: database error text can contain row values]".toList

/-! ### What is sensitive -/

/-- `_SENSITIVE_EXACT`. -/
def sensitiveExact : List Text :=
  ["patronid".toList, "patronname".toList, "patrontype".toList, "rawmessage".toList, "rawline".toList, "barcode".toList,
    "barcodekey".toList, "title".toList,
    "authorization".toList, "proxyauthorization".toList, "cookie".toList, "cookies".toList, "setcookie".toList,
    "xapikey".toList, "apikey".toList, "bearer".toList, "enrollmentcode".toList, "databaseurl".toList, "dsn".toList,
    "sentrydsn".toList, "password".toList, "passwd".toList, "secret".toList,
    "dbparams".toList, "parameters".toList]

/-- `_SENSITIVE_SUFFIXES`. -/
def sensitiveSuffixes : List Text :=
  ["token".toList, "password".toList, "secret".toList, "apikey".toList, "authorization".toList, "cookie".toList,
    "databaseurl".toList]

/-- What `_NON_ALNUM` keeps of a key in lower case. -/
def normalised (key : Text) : Text := (lower key).filter fun c => c.isLower || c.isDigit

/-- `_is_sensitive_key`, of a key or of `None`. -/
def isSensitiveKey : Option Text → Bool
  | none => false
  | some key => normalised key ∈ sensitiveExact || sensitiveSuffixes.any fun suffix => suffix.isSuffixOf (normalised key)

/-! ### Secrets in a text -/

/-- `tolower` of one character, as far as its lower case is of ASCII. -/
def simpleLower (c : Char) : Char :=
  if c.isUpper then c.toLower
  else if c.toNat = 0x212a then 'k'
  else if c.toNat = 0x130 then 'i'
  else c

/-- A letter of a pattern with `(?i)` and a character: the dotless `i` and the long `s` are the letters too. -/
def sameLetter (letter c : Char) : Bool :=
  simpleLower c = letter || (letter = 'i' && c.toNat = 0x131) || (letter = 's' && c.toNat = 0x17f)

/-- A word of a pattern, as it is written. -/
def exactly (letters : Text) : Pattern := .word (fun letter c => c = letter) letters

/-- A word of a pattern with `(?i)`. -/
def anyCase (letters : Text) : Pattern := .word sameLetter letters

def isHex (c : Char) : Bool := c.isDigit || ('a' ≤ c && c ≤ 'f') || ('A' ≤ c && c ≤ 'F')

/-- `[A-Za-z0-9._~+/=\-]` with `(?i)`. -/
def isTokenChar (c : Char) : Bool :=
  c.isAlphanum || c.toNat ∈ [0x212a, 0x130, 0x131, 0x17f] || "._~+/=-".toList.contains c

/-- `_URL_CREDENTIALS`. -/
def urlCredentials : Redaction where
  boundary := false
  kept := exactly "://".toList
  dropped := .seq (.many (fun c => !(c = '/' || isSpace c || c = ':' || c = '@')) 1)
    (.seq (.one (· = ':')) (.seq (.many (fun c => !(c = '/' || isSpace c || c = '@')) 1) (.one (· = '@'))))
  mark := filtered ++ ['@']

/-- `_DSN_KEY`. -/
def dsnKey : Redaction where
  boundary := false
  kept := .seq (exactly "http".toList) (.seq (.optional (.one (· = 's'))) (exactly "://".toList))
  dropped := .seq (.many isHex 16) (.one (· = '@'))
  mark := filtered ++ ['@']

/-- `_BEARER`. -/
def bearer : Redaction where
  boundary := true
  kept := anyCase "bearer".toList
  dropped := .seq (.many isSpace 1) (.many isTokenChar 8)
  mark := ' ' :: filtered

/-- `_SENSITIVE_PAIR`. -/
def sensitivePair (isWord : Char → Bool) : Redaction where
  boundary := true
  kept := .seq (.many (fun c => isWord c || c = '.' || c = '-') 0)
    (.alt (anyCase "token".toList) (.alt (anyCase "password".toList) (.alt (anyCase "secret".toList)
      (.alt (.seq (anyCase "api".toList) (.seq (.optional (.one fun c => c = '_' || c = '-')) (anyCase "key".toList)))
        (.alt (.seq (anyCase "patron".toList) (.seq (.optional (.one fun c => c = '_' || c = '-')) (anyCase "id".toList)))
          (.alt (.seq (anyCase "raw".toList) (.seq (.optional (.one fun c => c = '_' || c = '-')) (anyCase "message".toList)))
            (anyCase "barcode".toList)))))))
  dropped := .seq (.one (· = '=')) (.many (fun c => !(c = '&' || isSpace c)) 1)
  mark := '=' :: filtered

/-- `_scrub_text`. -/
def scrubText (isWord : Char → Bool) (text : Text) : Text :=
  (sensitivePair isWord).sub isWord (bearer.sub isWord (dsnKey.sub isWord (urlCredentials.sub isWord text)))

/-! ### Values -/

/-- `_MAX_DEPTH`. -/
def maxDepth : Nat := 40

section Scrubbing

variable (isWord : Char → Bool)

mutual

/-- `_scrub`. -/
def scrub (key : Option Text) (depth : Nat) : Json → Json
  | .object items =>
      if isSensitiveKey key then .text filtered
      else if maxDepth < depth then .text filtered
      else .object (scrubItems depth items)
  | .array items =>
      if isSensitiveKey key then .text filtered
      else if maxDepth < depth then .text filtered
      else .array (scrubElements depth items)
  | .text value =>
      if isSensitiveKey key then .text filtered
      else if maxDepth < depth then .text filtered
      else .text (scrubText isWord value)
  | value =>
      if isSensitiveKey key then .text filtered
      else if maxDepth < depth then .text filtered
      else value

def scrubItem (depth : Nat) : Text × Json → Text × Json
  | (key, value) => (key, scrub (some key) (depth + 1) value)

def scrubItems (depth : Nat) : List (Text × Json) → List (Text × Json)
  | [] => []
  | item :: items => scrubItem depth item :: scrubItems depth items

def scrubElements (depth : Nat) : List Json → List Json
  | [] => []
  | item :: items => scrub none (depth + 1) item :: scrubElements depth items

end

end Scrubbing

/-! ### Events -/

/-- `_DB_MODULES`. -/
def dbModules : List Text :=
  ["sqlalchemy".toList, "psycopg2".toList, "psycopg".toList, "asyncpg".toList, "sqlite3".toList, "pg8000".toList]

/-- `_DB_TYPE_NAMES`. -/
def dbTypeNames : List Text :=
  ["DBAPIError".toList, "StatementError".toList, "OperationalError".toList, "IntegrityError".toList, "DataError".toList,
    "ProgrammingError".toList, "InternalError".toList, "DatabaseError".toList, "NotSupportedError".toList,
    "InterfaceError".toList]

/-- `str(value or "")`. -/
def strOrEmpty (other : Json → Text) (value : Json) : Text := if value.truthy then value.str other else []

/-- `_is_database_exception`. -/
def isDatabaseException (other : Json → Text) (items : List (Text × Json)) : Bool :=
  (split '.' (strOrEmpty other (Json.get items "module".toList))).headD [] ∈ dbModules
    || strOrEmpty other (Json.get items "type".toList) ∈ dbTypeNames

/-- `for element in value or []`, where only mappings are edited: the elements of a list, while the keys of a mapping and the
characters of a text are none. `none` is the `TypeError` of a value that cannot be iterated. -/
def editElements (edit : Json → Option Json) : Json → Option Json
  | .array items => (Json.editAll edit items).map .array
  | .object items => some (.object items)
  | .text value => some (.text value)
  | value => if value.truthy then none else some value

/-- An edit of a mapping; anything else is left. -/
def editMapping (edit : List (Text × Json) → Option (List (Text × Json))) : Json → Option Json
  | .object items => (edit items).map .object
  | value => some value

/-- `request["data"] = FILTERED`, where the request has data. -/
def filterBody (items : List (Text × Json)) : Option (List (Text × Json)) :=
  if (items.lookup "data".toList).isSome then some (Json.putItem items "data".toList (.text filtered)) else some items

/-- `frame.pop("vars", None)`. -/
def dropVars (items : List (Text × Json)) : Option (List (Text × Json)) := some (Json.popItem items "vars".toList)

def editFrames (items : List (Text × Json)) : Option (List (Text × Json)) :=
  Json.editItem "frames".toList (editElements (editMapping dropVars)) items

/-- What is done to one exception of the event. -/
def editException (other : Json → Text) (items : List (Text × Json)) : Option (List (Text × Json)) :=
  let items :=
    if isDatabaseException other items then Json.putItem items "value".toList (.text dbErrorRedacted) else items
  Json.editItem "stacktrace".toList (editMapping editFrames) items

/-- `scrub_sentry_event`; `none` where it raises. -/
def scrubSentryEvent (isWord : Char → Bool) (other : Json → Text) (event : List (Text × Json)) : Option (List (Text × Json)) := do
  let scrubbed := scrubItems isWord 0 event
  let scrubbed ← Json.editItem "request".toList (editMapping filterBody) scrubbed
  Json.editItem "exception".toList
    (editMapping (Json.editItem "values".toList (editElements (editMapping (editException other))))) scrubbed

end PrivacyHardening

end SortView
