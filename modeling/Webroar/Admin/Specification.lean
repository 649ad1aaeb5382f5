import Mathlib
import Webroar.Configurator.Settings
import Webroar.Library.Chars

/-! # What the admin panel writes for an application

The form for an application is validated by the admin panel and then written to the configuration
file. A text for the resolver is a base URI or a list of host names; which of the two it is shows
only when it is validated, and it overwrites that attribute, not the other one.

Texts are those of Ruby, lists of characters. An exception ends a validation, which then has no
result.
-/

open Chars (utf8)

namespace ApplicationSpecification

/-! ### Strings of Ruby -/

/-- `String#split` at a character: the empty parts at the end are dropped. -/
def split (separator : Char) (text : List Char) : List (List Char) :=
  (text.splitOn separator).rdropWhile (· = [])

/-- What `^` and `$` take for lines: there is none behind the last line feed. -/
def lines (text : List Char) : List (List Char) :=
  let parts := text.splitOn '\n'
  if 1 < parts.length ∧ parts.getLast? = some [] then parts.dropLast else parts

/-- White space of `String#strip`. -/
def isSpace (c : Char) : Bool := c = ' ' || ('\t' ≤ c && c ≤ '\r')

/-- `String#strip`; at the end NUL counts as white space. -/
def strip (text : List Char) : List Char :=
  (text.dropWhile isSpace).rdropWhile fun c => isSpace c || c = '\x00'

/-- `String#downcase` changes ASCII letters. -/
def downcase (text : List Char) : List Char := text.map Char.toLower

/-- `String#blank?`. -/
def isBlank (text : List Char) : Bool :=
  text.all fun c => c = ' ' || c = '\t' || c = '\n' || c = '\x0c' || c = '\r'

/-- `String#index` of a character from a position on. -/
def index (c : Char) (start : Nat) (text : List Char) : Option Nat :=
  ((text.drop start).findIdx? (· = c)).map (start + ·)

def isAlnum (c : Char) : Bool :=
  ('a' ≤ c && c ≤ 'z') || ('A' ≤ c && c ≤ 'Z') || ('0' ≤ c && c ≤ '9')

/-- A letter, a digit or a hyphen. -/
def isLdh (c : Char) : Bool := isAlnum c || c = '-'

/-- `[A-Za-z0-9_\-]` of a regular expression that ignores case: the long s and the Kelvin sign are
the same letters as `s` and `k`. -/
def isWord (c : Char) : Bool := isLdh c || c = '_' || c = '\u017f' || c = '\u212a'

/-- `File.join` of a path and a name. -/
def join (path name : List Char) : List Char :=
  path ++ (if path.getLast? = some '/' then [] else ['/']) ++ name

/-- `File.exists?`; a NUL raises an exception. -/
def fileExists (stat : List UInt8 → Bool) (path : List Char) : Option Bool :=
  if '\x00' ∈ path then none else some (stat (utf8 path))

/-! ### The attributes -/

/-- A number of the form: whether `Kernel.Float` reads it, and the decimal it is cast to. -/
structure Number where
  numeric : Bool
  value : ℚ
deriving DecidableEq

/-- `BigDecimal#to_i`, and that of `nil`. -/
def toI (number : Option Number) : Int :=
  match number with
  | none => 0
  | some number => number.value.num.tdiv number.value.den

end ApplicationSpecification

/-- The attributes of the form; `nil` where they are missing. -/
structure ApplicationSpecification where
  /-- `app_id.to_i`. -/
  appId : Option Int
  name : Option (List Char)
  hostNames : Option (List Char)
  baseuri : Option (List Char)
  resolver : Option (List Char)
  path : Option (List Char)
  runAsUser : Option (List Char)
  type1 : Option (List Char)
  analytics : Option (List Char)
  environment : Option (List Char)
  minWorker : Option ApplicationSpecification.Number
  maxWorker : Option ApplicationSpecification.Number
deriving DecidableEq

namespace ApplicationSpecification

/-- An entry of `Application Specification` in the configuration file. -/
structure AppInfo where
  name : Option (List Char)
  baseuri : Option (List Char)
  hostNames : Option (List Char)

/-- An attribute and what is wrong with it. -/
abbrev Wrong := String × String

def base (text : String) : Wrong := ("base", text)

/-! ### The messages -/

def maxWorkersValidation1 : Wrong :=
  base ("Application must have maximum number of worker greater than or equal to minimum number " ++
    "of workers.")

def analyticsValidation : Wrong := base "Analytics should be either enabled or disabled."

def typeValidation : Wrong := base "Application type should be either Rails or Rack."

def baseuriFormat : Wrong :=
  base "BaseURI must start with '/' and contains characters A-Z, a-z, 0-9 , _ , -  and /."

def baseuriAsAdminPanelBaseuriValidation : Wrong :=
  base "'/admin-panel' is reserved as Admin Panel's base uri."

def baseuriExistanceValidation : Wrong :=
  base "Base URI is same as one of the previously added application."

def baseuriAndHostnamesExist : Wrong :=
  base ("Please correct the entered text for 'Resolver'. It cannot have both base URI (like /app1) " ++
    "and virtual hostname (www.company1.com) specified together.")

def startWthTild : String := "Hostname should start with '~', as it contains wildcard '*'."

def wildcardAtStartOrEnd : String :=
  "Hostname can only have the wildcard character either at start or at end. Please enter it again."

def consecutiveDots : String :=
  "Hostname should not have consecutive dots. Please enter it again."

def subdivisionExceeds127 : Wrong :=
  base "Hostname subdivision can go down to maximum 127 levels."

def hostnameLengthExceeds : Wrong := base "Hostname exceeds total length of 253."

def hostnameLdh : Wrong :=
  base ("Hostname can contain only letters in upper or lower case, digits, hyphen and dot(.) to " ++
    "separate the labels.")

def labelLengthExceeds : Wrong := base "Length of the label exceeds 63."

def hostnameRepeated : String := "Hostname is repeated."

def applicationNameRepeated : String :=
  "Application name already exists. Please provide a different name."

/-! ### Host names -/

/-- What a turn of the loop over the host names comes to: the errors, whether the name is taken, and
whether the loop ends. -/
structure Looked where
  errors : List Wrong
  taken : Bool
  ends : Bool

/-- A label between the first and the last. -/
def middleErrors (label : List Char) : List Wrong :=
  if 63 < label.length then [labelLengthExceeds]
  else if label.all isLdh then []
  else [hostnameLdh]

/-- The labels of a host name. -/
def checkLabels (labels : List (List Char)) : Option Looked :=
  -- the first and the last label have their own checks
  let middle := (labels.drop 1).dropLast
  let errors := middle.flatMap middleErrors
  let wrong := some ⟨errors ++ [hostnameLdh], false, false⟩
  match labels.head?, labels.getLast? with
  | some first, some last =>
      if middle.any fun label => label.length ≤ 63 && !label.all isLdh then
        some ⟨errors, false, false⟩
      else
        -- `nil >= 'a'` raises an exception
        match first with
        | [] => none
        | [c] => if isAlnum c || c = '~' then none else wrong
        | c :: d :: rest =>
            if !(isAlnum c || c = '~') then wrong
            else if !(isAlnum d || d = '*') then wrong
            else if !rest.all isLdh then wrong
            else
              match last.getLast? with
              | none => none
              | some e =>
                  if !(isAlnum e || e = '*') then wrong
                  else
                    -- the first character of the last label is not looked at
                    let others := (last.drop 1).dropLast.filter fun c => !(isAlnum c || c = '*')
                    some ⟨errors ++ others.map fun _ => hostnameLdh, others.isEmpty, false⟩
  | _, _ => none

/-- A turn of the loop. -/
def checkToken (token : List Char) : Option Looked :=
  let labels := split '.' token
  let wrong (text : Wrong) : Option Looked := some ⟨[text], false, false⟩
  let named (text : String) : Wrong := base (String.ofList token ++ " - " ++ text)
  if 253 < token.length then wrong hostnameLengthExceeds
  else if 127 < labels.length then wrong subdivisionExceeds127
  else if token.head? = some '/' then some ⟨[baseuriAndHostnamesExist], false, true⟩
  else if '*' ∈ token ∧ ¬ ∃ line ∈ lines token, line.head? = some '~' then
    wrong (named startWthTild)
  else if ∃ pos ∈ index '*' 1 token, pos ≠ 1 ∧ pos ≠ token.length - 1 then
    wrong (named wildcardAtStartOrEnd)
  else if ∃ pos ∈ index '*' 2 token, pos ≠ token.length - 1 then
    wrong (named wildcardAtStartOrEnd)
  else if ['.', '.'] <:+: token then wrong (named consecutiveDots)
  else checkLabels labels

/-- The loop: the errors, and the names that are taken. -/
def checkTokens : List (List Char) → Option (List Wrong × List (List Char))
  | [] => some ([], [])
  | token :: rest =>
      if token = [] then checkTokens rest
      else
        match checkToken token with
        | none => none
        | some looked =>
            if looked.ends then some (looked.errors, [])
            else
              match checkTokens rest with
              | none => none
              | some (errors, names) =>
                  some (looked.errors ++ errors, if looked.taken then token :: names else names)

/-! ### The validations -/

variable (stat : List UInt8 → Bool) (info : List AppInfo) (spec : ApplicationSpecification)

/-- Is a text `nil` or blank? -/
def presence (field : String) (value : Option (List Char)) : List Wrong :=
  if value.all isBlank then [(field, "can't be blank")] else []

def maximum (field : String) (value : Option (List Char)) : List Wrong :=
  if value.any fun text => decide (30 < text.length) then
    [(field, "is too long (maximum is 30 characters)")]
  else []

/-- Some line of the name is fine. -/
def nameFormat : List Wrong :=
  if spec.name.all fun text => (lines text).any (·.all isWord) then []
  else [("name", " must consist of A-Z, a-z, 0-9 , _ , -  and /.")]

/-- A number from 0 to `ALLOWED_MAX_WORKERS`. -/
def workers (field : String) (number : Option Number) : List Wrong :=
  (if number.any (·.numeric) then [] else [(field, "is not a number")]) ++
    if number.any fun number => decide (0 ≤ number.value ∧ number.value ≤ 20) then []
    else [(field, "is not included in the list")]

/-- What the validations of single attributes find. -/
def attributeErrors : List Wrong :=
  presence "name" spec.name ++ nameFormat spec ++ maximum "name" spec.name ++
    presence "resolver" spec.resolver ++ presence "path" spec.path ++
    presence "run_as_user" spec.runAsUser ++ maximum "run_as_user" spec.runAsUser ++
    presence "type1" spec.type1 ++
    presence "environment" spec.environment ++ maximum "environment" spec.environment ++
    workers "min_worker" spec.minWorker ++ workers "max_worker" spec.maxWorker

/-- The numbers of workers, what is analysed, and the type. -/
def settingErrors : List Wrong :=
  (if toI spec.maxWorker < toI spec.minWorker then [maxWorkersValidation1] else []) ++
    (if spec.type1 = some "Rails".toList ∧ spec.analytics.any (fun text =>
        decide (downcase text ≠ "enabled".toList ∧ downcase text ≠ "disabled".toList)) then
      [analyticsValidation]
    else []) ++
    if spec.type1.any fun text =>
        decide (downcase text ≠ "rails".toList ∧ downcase text ≠ "rack".toList) then
      [typeValidation]
    else []

/-- Is a file of the type in the path? -/
def pathErrors : Option (List Wrong) :=
  match spec.path, spec.type1 with
  | some path, some type =>
      if downcase type = "rails".toList then
        (fileExists stat (join path "config/environment.rb".toList)).map fun found =>
          if found then [] else
            [base "The entered application path is not a valid Rails application path."]
      else if downcase type = "rack".toList then
        (fileExists stat (join path "config.ru".toList)).map fun found =>
          if found then [] else
            [base "The entered application path is not a valid Rack application path."]
      else some []
  | _, _ => some []

/-- Is a text for the resolver a base URI? -/
def isBaseuri (resolver : List Char) : Bool :=
  match split ' ' resolver with
  | [token] => token.head? = some '/'
  | _ => false

/-- A base URI: some line of it is fine. -/
def baseuriErrors (baseuri : List Char) : List Wrong :=
  if (lines (strip baseuri)).any fun line =>
      line.head? = some '/' && line.all fun c => isWord c || c = '/' then []
  else [baseuriFormat]

/-- The text for the resolver overwrites the base URI or the host names; the errors, and the host
names that are taken. -/
def resolve (resolver : List Char) :
    Option (List Wrong × List (List Char) × ApplicationSpecification) :=
  if isBaseuri resolver then
    some (baseuriErrors resolver, [], { spec with baseuri := some resolver })
  else
    (checkTokens (split ' ' resolver)).map fun (errors, names) =>
      (errors, names, { spec with hostNames := some resolver })

/-- The other applications. -/
def others : List AppInfo :=
  (info.zipIdx.filter fun app => decide (spec.appId.getD (-1) ≠ app.2)).map (·.1)

/-- The name and the base URI of an application are its own. -/
def ownErrors (app : AppInfo) : List Wrong :=
  (if app.name = spec.name then
    [base (String.ofList (spec.name.getD []) ++ " - " ++ applicationNameRepeated)]
  else []) ++
    if spec.baseuri.isSome ∧ app.baseuri = spec.baseuri.map strip then
      [baseuriExistanceValidation]
    else []

/-- No host name comes twice, here and in the other applications. -/
def repeatedErrors (names : List (List Char)) : List Wrong :=
  if names = [] then []
  else
    let allHostNames := (others info spec).flatMap fun app =>
      (app.hostNames.map (split ' ')).getD []
    (if names.length ≠ names.eraseDups.length then [base hostnameRepeated] else []) ++
      (names.filter fun name => decide (name ∈ allHostNames)).map fun name =>
        base (String.ofList name ++ "-" ++ hostnameRepeated)

/-- The part of `ensure_validations` about the resolver. -/
def resolverErrors : Option (List Wrong × ApplicationSpecification) :=
  match spec.resolver with
  | none => some ([], spec)
  | some resolver =>
      (resolve spec resolver).map fun (errors, names, saved) =>
        (errors ++
          (if saved.baseuri.any fun uri => decide (strip uri = "/admin-panel".toList) then
            [baseuriAsAdminPanelBaseuriValidation]
          else []) ++
          (others info saved).flatMap (ownErrors saved) ++ repeatedErrors info saved names, saved)

def ensureValidations : Option (List Wrong × ApplicationSpecification) :=
  match pathErrors stat spec, resolverErrors info spec with
  | some place, some (errors, saved) => some (settingErrors spec ++ place ++ errors, saved)
  | _, _ => none

/-- `valid?`: the errors, and the attributes afterwards. -/
def validate : Option (List Wrong × ApplicationSpecification) :=
  (ensureValidations stat info spec).map fun (errors, saved) =>
    (attributeErrors spec ++ errors, saved)

/-! ### The entry -/

/-- A value that is written to the file. -/
inductive Scalar where
  | null
  | text (text : List Char)
  | number (number : Int)

def Scalar.ofOption : Option (List Char) → Scalar
  | none => null
  | some value => text value

/-- `obj_to_hash`. -/
def objToHash : List (String × Scalar) :=
  [("name", .ofOption spec.name), ("path", .ofOption spec.path)] ++
    (spec.runAsUser.map fun value => ("run_as_user", .text (downcase value))).toList ++
    (spec.type1.map fun value => ("type", .text (downcase value))).toList ++
    (spec.analytics.map fun value => ("analytics", .text (downcase value))).toList ++
    (spec.environment.map fun value => ("environment", .text (downcase value))).toList ++
    [("min_worker", .number (toI spec.minWorker)), ("max_worker", .number (toI spec.maxWorker))] ++
    (spec.baseuri.map fun value => ("baseuri", .text (strip value))).toList ++
    (spec.hostNames.map fun value => ("host_names", .text value)).toList

/-- What the server reads of a value: the C string of the scalar that was written. -/
def Scalar.read : Scalar → Text
  | null => Configurator.cString []
  | text value => Configurator.cString (utf8 value)
  | number value => Configurator.cString (Decimal.ofInt value)

/-- The node of the configuration file. -/
def block : Configurator.AppBlock where
  value key := ((objToHash spec).lookup key).map Scalar.read
  variableKeys := []

end ApplicationSpecification
