import KiroProxy.Lib.Greatest
import KiroProxy.Lib.Words
import KiroProxy.Translate.ModelMapping

/-! A client's model name resolved against the exact ids of one account. Texts inside are lists of characters. -/
namespace KiroProxy.ResolveModel

open Greatest

def isAlphanumeric (c : Char) : Bool := c.isDigit || c.isLower || c.isUpper

/-- The words of a name: its ASCII letters and digits in lower case, cut at everything else. -/
def words (cs : List Char) : List (List Char) :=
  Words.words (!isAlphanumeric ·) (cs.map Char.toLower)

def modelTokens (cs : List Char) : List (List Char) :=
  (words cs).filter fun token => token ≠ "latest".toList ∧ token ≠ "model".toList

def claudeFamilies : List (List Char) := ["opus".toList, "sonnet".toList, "haiku".toList]

def tokenModelMatch (requested candidate : List Char) : Bool :=
  let requested := modelTokens requested
  let candidate := modelTokens candidate
  if requested = [] ∨ ¬ requested.all candidate.contains then false
  else claudeFamilies.all fun family => requested.contains family == candidate.contains family

/-- Without its hyphens at the ends, and with single hyphens between its parts. -/
def rejoin (cs : List Char) : List Char := ['-'].intercalate ((cs.splitOn '-').filter (· ≠ []))

def dashed (cs : List Char) : List Char := cs.map fun c => if c = '_' ∨ c = '.' then '-' else c

/-- The first family that is at the front decides. -/
def expandCompactClaudeAlias (normalized : List Char) : Option (List Char) := do
  let model := ("claude-".toList.isPrefixOf? normalized <|> "claude".toList.isPrefixOf? normalized).getD normalized
  let (family, version) ← claudeFamilies.findSome? fun family =>
    (family.isPrefixOf? model).map fun version => (family, version)
  let version := (['-'].isPrefixOf? version).getD version
  if version = [] ∨ ¬ version.all (fun c => c.isDigit || c == '-' || c == '.') ∨ ¬ version.any Char.isDigit then none
  else some ("claude-".toList ++ (family ++ '-' :: rejoin (version.map fun c => if c = '.' then '-' else c)))

def plainName (cs : List Char) : List Char := rejoin (dashed ((Text.trimChars cs).map Char.toLower))

def normalizeModelName (cs : List Char) : List Char :=
  (expandCompactClaudeAlias (plainName cs)).getD (plainName cs)

def prefixVersionMatch (longer shorter : List Char) : Bool :=
  match shorter.isPrefixOf? longer with
  | none => false
  | some [] => true
  | some (c :: rest) => c = '-' && rest.head?.any Char.isDigit

/-- `str::parse::<u32>`: one sign, then at least one digit. -/
def parseU32 (part : List Char) : Option Nat :=
  let digits := match part with
    | '+' :: rest => rest
    | cs => cs
  if digits ≠ [] ∧ digits.all Char.isDigit then
    let n := digits.foldl (fun n c => n * 10 + (c.toNat - 48)) 0
    if n < 2 ^ 32 then some n else none
  else none

/-- What stands in front of the first part that begins with a digit, and the numbers from there on. -/
def modelFamily (cs : List Char) : Option (List Char × List Nat) :=
  let parts := (normalizeModelName cs).splitOn '-'
  let firstVersion := parts.findIdx fun part => part.head?.any Char.isDigit
  if firstVersion = parts.length ∨ firstVersion = 0 then none
  else
    let version := ((parts.drop firstVersion).takeWhile (·.all Char.isDigit)).filterMap parseU32
    if version = [] then none else some (['-'].intercalate (parts.take firstVersion), version)

/-- A component that is not there counts as 0. -/
def compareVersion (left right : List Nat) : Ordering :=
  (((List.range (max left.length right.length)).map fun index =>
    compare (left[index]?.getD 0) (right[index]?.getD 0)).find? (· ≠ .eq)).getD .eq

def comparePrefixed (left right : String) : Ordering :=
  match modelFamily left.toList, modelFamily right.toList with
  | some (leftFamily, leftVersion), some (rightFamily, rightVersion) =>
    if leftFamily = rightFamily then compareVersion leftVersion rightVersion
    else compare (normalizeModelName left.toList) (normalizeModelName right.toList)
  | _, _ => compare (normalizeModelName left.toList) (normalizeModelName right.toList)

/-- The shorter one is the greater, then the one that comes later in the order of texts. -/
def compareShortest (left right : String) : Ordering :=
  (compare right.utf8ByteSize left.utf8ByteSize).then (compare left.toList right.toList)

def compareTokenMatches (left right : String) : Ordering :=
  match modelFamily left.toList, modelFamily right.toList with
  | some (leftFamily, leftVersion), some (rightFamily, rightVersion) =>
    if leftFamily = rightFamily then (compareVersion leftVersion rightVersion).then (compareShortest left right)
    else compareShortest left right
  | _, _ => compareShortest left right

/-- The ids of which the name is a beginning, up to a version, or the other way round. -/
def prefixed (requested : List Char) (available : List String) : List String :=
  available.filter fun candidate =>
    let normalized := normalizeModelName candidate.toList
    prefixVersionMatch requested normalized || prefixVersionMatch normalized requested

def tokenMatched (model : List Char) (available : List String) : List String :=
  available.filter fun candidate => tokenModelMatch model candidate.toList

def familyVersions (family : List Char) (available : List String) : List (List Nat × String) :=
  available.filterMap fun candidate => do
    let (candidateFamily, version) ← modelFamily candidate.toList
    if candidateFamily = family then some (version, candidate) else none

def resolveDynamicModel (model : String) (available : List String) : Option String :=
  if available.isEmpty then none
  else match available.find? fun candidate => Text.eqIgnoreAsciiCase candidate model with
    | some exact => some exact
    | none =>
      let model := (ModelMapping.stripDiscoveryPrefix model).toList
      let requested := normalizeModelName model
      match available.find? fun candidate => normalizeModelName candidate.toList = requested with
      | some exact => some exact
      | none => match maxBy comparePrefixed (prefixed requested available) with
        | some candidate => some candidate
        | none => match maxBy compareTokenMatches (tokenMatched model available) with
          | some candidate => some candidate
          | none => do
            let (family, _) ← modelFamily model
            (maxBy (fun left right => compareVersion left.1 right.1) (familyVersions family available)).map (·.2)

end KiroProxy.ResolveModel
