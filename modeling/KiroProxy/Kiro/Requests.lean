import KiroProxy.Json
import KiroProxy.Kiro.Endpoint
import KiroProxy.Lib.Net
import KiroProxy.Translate.ToolHistoryCheck

/-! The requests of the Kiro client: where each operation sends them, with which profile ARN, and what it
does with the replies. -/
namespace KiroProxy.Kiro

structure EndpointOverrides where
  codewhispererUrl : Option String := none
  amazonqUrl : Option String := none
  mcpUrl : Option String := none
  runtimeUrl : Option String := none
  managementUrl : Option String := none
  deriving DecidableEq

structure EndpointDefinition where
  key : EndpointKey
  url : String
  origin : String
  amzTarget : String
  name : String
  deriving DecidableEq

/-- `str::replace` of the placeholder for a region. -/
def replaceRegion (template region : String) : String :=
  String.ofList (region.toList.intercalate
    (Text.splitChars "\x7bregion\x7d".toList (by decide) template.toList))

def EndpointDefinition.forKey (key : EndpointKey) (overrides : EndpointOverrides) : EndpointDefinition :=
  let streaming := "AmazonCodeWhispererStreamingService.GenerateAssistantResponse"
  match key with
  | .codewhisperer =>
    { key, url := overrides.codewhispererUrl.getD
        "https://codewhisperer.us-east-1.amazonaws.com/generateAssistantResponse"
      origin := "AI_EDITOR", amzTarget := streaming, name := "CodeWhisperer" }
  | .amazonq =>
    { key, url := overrides.amazonqUrl.getD "https://q.us-east-1.amazonaws.com/generateAssistantResponse"
      origin := "AI_EDITOR", amzTarget := "", name := "AmazonQ" }
  | .runtime =>
    { key, url := overrides.runtimeUrl.getD "https://runtime.us-east-1.kiro.dev/"
      origin := "KIRO_CLI", amzTarget := streaming, name := "KiroRuntime" }

def EndpointDefinition.forAccount (key : EndpointKey) (overrides : EndpointOverrides) (account : Account) :
    Except KiroError EndpointDefinition := do
  let region ← accountApiRegion account
  let url := match key with
    | .codewhisperer => overrides.codewhispererUrl.getD
        ("https://codewhisperer." ++ region ++ ".amazonaws.com/generateAssistantResponse")
    | .amazonq => overrides.amazonqUrl.getD ("https://q." ++ region ++ ".amazonaws.com/generateAssistantResponse")
    | .runtime => overrides.runtimeUrl.getD ("https://runtime." ++ region ++ ".kiro.dev/")
  return { forKey key overrides with url := replaceRegion url region }

/-! ### Requests and replies -/

structure Url where
  scheme : String
  host : String
  path : String
  query : List (String × String) := []
  username : String := ""
  password : Option String := none

inductive Body where
  | empty
  | json (value : Value)
  /-- The history keeps its model names, or loses them. -/
  | generation (payload : KiroPayload) (historyModels : Bool)

structure Request where
  url : Url
  body : Body := .empty
  profileHeader : Option String := none

inductive HttpReply where
  | failed (message : String)
  | answered (status : Nat) (body : Except (Option Nat × String) String)

/-- What an operation does to the outside; the two marks are on the endpoint cache. -/
inductive Act where
  | contact (request : Request)
  | markSuccess (purpose : EndpointPurpose) (endpoint : EndpointKey) (expectedRevision : Option Nat)
  | markDisabled (purpose : EndpointPurpose) (endpoint : EndpointKey) (expectedRevision : Option Nat)

abbrev Act.Answer : Act → Type
  | .contact _ => HttpReply
  | _ => Unit

abbrev Work (α : Type) := Net Act Act.Answer KiroError α

structure Outside where
  parseUrl : String → Except String Url
  readJson : String → Except String Value
  readProfiles : String → Except String (List (Option String))
  readModels : String → Except String (List Value)
  readUsage : String → Except String Value
  readSubscriptions : String → Except String Value
  readSearch : String → Except String Value
  staticModels : Account → List Value
  searchId : String
  statusText : Nat → String

structure KiroClient where
  overrides : EndpointOverrides := {}
  preferredEndpoint : Option EndpointKey := none
  webSearchEndpoint : Option String := none

def buildError (message : String) : KiroError := ⟨none, "transport", message⟩

def isSuccess (status : Nat) : Bool := 200 ≤ status && status < 300

def truncateChars (value : String) (maximum : Nat) : String := String.ofList (value.toList.take maximum)

def nonemptyErrorBody (status : Nat) (body : String) : String :=
  if Text.trim body = "" then s!"upstream returned HTTP {status} without an error message" else truncateChars body 2000

def boundedText (endpoint : String) (body : Except (Option Nat × String) String) : Except KiroError String :=
  body.mapError fun (status, message) => ⟨status, endpoint, message⟩

def responseError (outside : Outside) (endpoint : EndpointDefinition) (status : Nat)
    (body : Except (Option Nat × String) String) : KiroError :=
  let text := match body with
    | .ok text => text
    | .error _ => outside.statusText status
  ⟨some status, endpoint.name, nonemptyErrorBody status text⟩

/-! ### Where the requests go -/

def stripSuffix (text back : String) : Option String :=
  if Text.endsWith text back then some (String.ofList (text.toList.take (text.toList.length - back.toList.length)))
  else none

def operationUrl (outside : Outside) (endpoint operation : String) : Except KiroError Url := do
  let url ← (outside.parseUrl endpoint).mapError buildError
  let currentPath := String.ofList (url.path.toList.rdropWhile (· = '/'))
  let basePath := (stripSuffix currentPath "/generateAssistantResponse").getD currentPath
  return { url with path := basePath ++ "/" ++ operation, query := [] }

def builderIdProfileArn : String := "arn:aws:codewhisperer:us-east-1:638616132270:profile/AAAACCCCXXXX"

def socialProfileArn : String := "arn:aws:codewhisperer:us-east-1:699475941385:profile/EHGA3GRVQMUK"

def govCloudArn : String := "arn:aws-us-gov:codewhisperer:us-gov-"

def Account.givenArn (account : Account) : Option String :=
  (account.profileArn.map Text.trim).filter (· ≠ "")

def usageProfileArn (account : Account) : Option String :=
  if account.authMethod = .apiKey then none
  else
    (account.givenArn.filter fun arn =>
      !Text.startsWith (Text.trim account.region) "us-gov-" || Text.startsWith arn govCloudArn).filter fun arn =>
        account.authMethod ≠ .idc || arn ≠ builderIdProfileArn

def withProfile (account : Account) (url : Url) (pairs : List (String × String)) : Url :=
  { url with query := url.query ++ pairs ++ ((usageProfileArn account).map ("profileArn", ·)).toList }

def usageLimitsUrl (outside : Outside) (endpoint : String) (account : Account) : Except KiroError Url := do
  let url ← operationUrl outside endpoint "getUsageLimits"
  return withProfile account url
    [("origin", "AI_EDITOR"), ("resourceType", "AGENTIC_REQUEST"), ("isEmailRequired", "true")]

def modelsUrl (outside : Outside) (endpoint : String) (account : Account) : Except KiroError Url := do
  let url ← operationUrl outside endpoint "ListAvailableModels"
  return withProfile account url [("origin", "AI_EDITOR"), ("maxResults", "50")]

def canonicalApiRegion (region : String) : String :=
  if Text.startsWith (Text.trim region) "eu-" then "eu-central-1" else "us-east-1"

/-- Unlike the region of an account, this one looks at the partition loosely and trims. -/
def profileArnRegion (profileArn : String) : Option String :=
  match (profileArn.toList.splitOn ':').map String.ofList with
  | first :: partition :: service :: region :: _ =>
    let region := Text.trim region
    if first = "arn" ∧ Text.startsWith partition "aws" ∧ service = "codewhisperer" ∧ isRegion region then
      some region
    else none
  | _ => none

def usageApiRegions (account : Account) : List String :=
  let primary := (account.profileArn.bind profileArnRegion).getD (canonicalApiRegion account.region)
  if Text.startsWith (Text.trim account.region) "us-gov-" then [Text.trim account.region]
  else if Text.startsWith primary "us-gov-" ∨ account.authMethod = .apiKey then
    [(accountApiRegion account).toOption.getD primary]
  else
    let fallback := if primary = "us-east-1" then "eu-central-1" else "us-east-1"
    if primary ≠ fallback then [primary, fallback] else [primary]

namespace KiroClient

variable (client : KiroClient) (outside : Outside) (account : Account)

def usageLimitsUrls : Except KiroError (List Url) := do
  let _ ← accountApiRegion account
  match client.overrides.amazonqUrl with
  | some endpoint => return [← usageLimitsUrl outside endpoint account]
  | none => (usageApiRegions account).mapM fun region =>
      usageLimitsUrl outside ("https://q." ++ region ++ ".amazonaws.com") account

def profileDiscoveryUrls : Except KiroError (List Url) :=
  match client.overrides.amazonqUrl with
  | some endpoint => do return [← operationUrl outside endpoint "ListAvailableProfiles"]
  | none =>
    if !isRegion (Text.trim account.region) then
      .error ⟨none, "ListAvailableProfiles", "account has an invalid API region"⟩
    else (usageApiRegions account).mapM fun region =>
      operationUrl outside ("https://q." ++ region ++ ".amazonaws.com") "ListAvailableProfiles"

def webSearchUrl : Except KiroError Url := do
  let region ← accountApiRegion account
  let template := (client.overrides.mcpUrl <|> client.webSearchEndpoint).getD
    "https://runtime.\x7bregion\x7d.kiro.dev/mcp"
  let url ← (outside.parseUrl (replaceRegion template region)).mapError buildError
  if (url.scheme ≠ "http" ∧ url.scheme ≠ "https") ∨ url.username ≠ "" ∨ url.password.isSome then
    .error ⟨none, "MCP web_search", "web search endpoint must be an HTTP(S) URL without credentials"⟩
  else .ok url

/-! ### The operations -/

def contact (request : Request) : Work HttpReply := Net.send (Act.contact request)

def markSuccess (purpose : EndpointPurpose) (endpoint : EndpointKey) (expectedRevision : Option Nat) : Work Unit :=
  Net.send (Act.markSuccess purpose endpoint expectedRevision)

def markDisabled (purpose : EndpointPurpose) (endpoint : EndpointKey) (expectedRevision : Option Nat) : Work Unit :=
  Net.send (Act.markDisabled purpose endpoint expectedRevision)

def usableArn (govcloud : Bool) (arns : List (Option String)) : Option String :=
  (arns.reduceOption.map Text.trim).find? fun arn =>
    Text.startsWith arn "arn:" && decide (arn.utf8ByteSize ≤ 2048) && (!govcloud || Text.startsWith arn govCloudArn)

def discoverProfile (govcloud : Bool) : List Url → Bool → Option KiroError → Work String
  | [], fallbackAllowed, lastError =>
    if fallbackAllowed && !govcloud then pure builderIdProfileArn
    else .fail (lastError.getD
      ⟨some 502, "ListAvailableProfiles", "profile discovery returned no usable profile ARN"⟩)
  | url :: rest, _, lastError => do
    match ← contact { url := url, body := .json (.object []) } with
    | .failed message => .fail ⟨none, "ListAvailableProfiles", message⟩
    | .answered status body =>
      let body ← Net.lift (boundedText "ListAvailableProfiles" body)
      if isSuccess status then
        let arns ← Net.lift ((outside.readProfiles body).mapError fun error =>
          ⟨some 502, "ListAvailableProfiles", s!"invalid profile discovery response: {error}"⟩)
        match usableArn govcloud arns with
        | some arn => pure arn
        | none => discoverProfile govcloud rest true lastError
      else
        let error : KiroError := ⟨some status, "ListAvailableProfiles", nonemptyErrorBody status body⟩
        -- An account without an enterprise profile may not list any.
        if status = 403 && !textIsAuthError error.message then discoverProfile govcloud rest true (some error)
        else .fail error

/-- Calls for one account and one token wait for one discovery and share its result. -/
def fetchProfileArnOnce : Work String := do
  let urls ← Net.lift (client.profileDiscoveryUrls outside account)
  let region ← Net.lift (accountApiRegion account)
  discoverProfile outside (Text.startsWith region "us-gov-") urls false none

def resolveProfileArn : Work String :=
  if account.authMethod = .apiKey then
    .fail ⟨some 400, "ListAvailableProfiles", "Kiro API keys do not use profile ARNs"⟩
  else do
    let region ← Net.lift (accountApiRegion account)
    let govcloud := Text.startsWith region "us-gov-"
    match account.givenArn.filter fun arn => !govcloud || Text.startsWith arn govCloudArn with
    | some arn => pure arn
    | none =>
      if account.authMethod = .social ∧ !govcloud then pure socialProfileArn
      else client.fetchProfileArnOnce outside account

def setPayloadOrigin (payload : KiroPayload) (origin : String) : KiroPayload :=
  let state := payload.conversationState
  let current := state.currentMessage.userInputMessage
  { payload with conversationState := { state with
      currentMessage := { state.currentMessage with userInputMessage := { current with origin := origin } }
      history := state.history.map fun message =>
        { message with userInputMessage := message.userInputMessage.map fun user => { user with origin := origin } } } }

def payloadArn : Work (Option String) :=
  if account.authMethod = .apiKey then pure none
  else do
    let profileArn ← client.resolveProfileArn outside account
    return some profileArn

/-- The payload and the endpoint for the runtime: both follow the resolved profile. -/
def routeRuntime (payload : KiroPayload) : Work (KiroPayload × EndpointDefinition) := do
  let payload := { payload with
    conversationState := { payload.conversationState with agentContinuationId := none } }
  let profileArn ← client.payloadArn outside account
  let endpoint ← Net.lift (EndpointDefinition.forAccount .runtime client.overrides
    { account with profileArn := profileArn })
  return ({ payload with profileArn := profileArn }, endpoint)

def sendGeneration (payload : KiroPayload) (endpoint : EndpointDefinition) : Work EndpointDefinition := do
  let payload := setPayloadOrigin payload endpoint.origin
  let (payload, endpoint) ← if endpoint.key = .runtime then client.routeRuntime outside account payload
    else pure (payload, endpoint)
  Net.lift ((ToolHistory.validateKiroToolHistory payload).mapError fun message =>
    ⟨some 400, endpoint.name,
      "Kiro payload reached the transport without prepared tool history: " ++ message⟩)
  let url ← Net.lift ((outside.parseUrl endpoint.url).mapError fun message => ⟨none, endpoint.name, message⟩)
  match ← contact { url := url, body := .generation payload (endpoint.key ≠ .runtime) } with
  | .failed message => .fail ⟨none, endpoint.name, message⟩
  | .answered status body =>
    if isSuccess status then pure endpoint else .fail (responseError outside endpoint status body)

structure Rejections where
  auth : Nat := 0
  forbidden : Nat := 0

def generateAt (payload : KiroPayload) (attemptCount : Nat) :
    List EndpointKey → Rejections → Work EndpointDefinition
  | [], rejections =>
    if rejections.auth = attemptCount then
      .fail ⟨some 403, "all",
        if account.authMethod = .apiKey then "Kiro rejected the API key; replace or reissue the key"
        else if rejections.forbidden = attemptCount then "All Kiro endpoints returned 403; token refresh required"
        else "All Kiro endpoints returned 401/403; token refresh required"⟩
    else .fail ⟨none, "none", "no usable upstream endpoint"⟩
  | key :: rest, rejections => do
    let endpoint ← Net.lift (EndpointDefinition.forAccount key client.overrides account)
    match ← (client.sendGeneration outside account payload endpoint).attempt with
    | .ok served =>
      markSuccess .generation endpoint.key none
      pure served
    | .error error =>
      if error.status = some 401 then
        generateAt payload attemptCount rest { rejections with auth := rejections.auth + 1 }
      else if error.status = some 403 then
        if error.isQuota || error.isThrottle then .fail { error with status := some 429 }
        else do
          markDisabled .generation endpoint.key none
          generateAt payload attemptCount rest ⟨rejections.auth + 1, rejections.forbidden + 1⟩
      else .fail error

/-- The cache is asked once, at the start. -/
def generate (cache : EndpointCacheState) (now : Nat) (payload : KiroPayload) (explicit : Option EndpointKey) :
    Work EndpointDefinition :=
  let order := (cache.order now account (explicit <|> client.preferredEndpoint) .generation).2
  if order.isEmpty then
    .fail ⟨some 403, "all", "All Kiro endpoints previously returned 403; token refresh required"⟩
  else client.generateAt outside account payload order.length order {}

def modelsRequest (endpoint : EndpointDefinition) : Work Request :=
  if endpoint.key = .runtime then do
    let profile ← client.resolveProfileArn outside account
    let region ← Net.lift (accountApiRegion { account with profileArn := some profile })
    let text := replaceRegion (client.overrides.managementUrl.getD ("https://management." ++ region ++ ".kiro.dev/"))
      region
    let url ← Net.lift ((outside.parseUrl text).mapError buildError)
    return { url := url, body := .json (.object [("origin", .string "KIRO_CLI"), ("profileArn", .string profile)]) }
  else do
    return { url := ← Net.lift (modelsUrl outside endpoint.url account) }

def fetchModelsAt (revision : Nat) : List EndpointKey → Option KiroError → Work (List Value)
  | [], lastError => .fail (lastError.getD ⟨none, "models", "upstream returned no models"⟩)
  | key :: rest, _ => do
    let endpoint ← Net.lift (EndpointDefinition.forAccount key client.overrides account)
    let request ← client.modelsRequest outside account endpoint
    match ← contact request with
    | .failed message => .fail (buildError message)
    | .answered status body =>
      if isSuccess status then
        let body ← Net.lift (body.mapError fun (_, message) => buildError message)
        let models ← Net.lift ((outside.readModels body).mapError buildError)
        if models.isEmpty then
          fetchModelsAt revision rest (some ⟨none, endpoint.name, "upstream returned an empty model list"⟩)
        else do
          markSuccess .models key (some revision)
          pure models
      else
        let error := responseError outside endpoint status body
        if status = 401 then fetchModelsAt revision rest (some error)
        else if status = 403 then
          if error.isQuota || error.isThrottle then .fail { error with status := some 429 }
          else do
            markDisabled .models key (some revision)
            fetchModelsAt revision rest (some error)
        else .fail error

def listModels (cache : EndpointCacheState) (now : Nat) : Work (List Value) :=
  if account.authMethod = .apiKey then pure (outside.staticModels account)
  else do
    let order := (cache.order now account client.preferredEndpoint .models).2
    match ← (client.fetchModelsAt outside account (cache.revision account.id) order none).attempt with
    | .ok models => pure models
    | .error error =>
      let models := outside.staticModels account
      if models.isEmpty then .fail error else pure models

def usageLimitsAt : List Url → Option KiroError → Work Value
  | [], lastError => .fail (lastError.getD ⟨none, "getUsageLimits", "no usable Kiro usage endpoint"⟩)
  | url :: rest, _ => do
    let endpoint := "getUsageLimits (" ++ url.host ++ ")"
    match ← contact { url := url } with
    | .failed message => .fail ⟨none, endpoint, message⟩
    | .answered status body =>
      let body ← Net.lift (boundedText endpoint body)
      if isSuccess status then
        Net.lift ((outside.readUsage body).mapError fun error =>
          ⟨some 502, endpoint, s!"invalid usage limits response: {error}"⟩)
      else
        let error : KiroError := ⟨some status, endpoint, nonemptyErrorBody status body⟩
        if status = 403 ∧ !rest.isEmpty then usageLimitsAt rest (some error) else .fail error

def getUsageLimits : Work Value := do
  let urls ← Net.lift (client.usageLimitsUrls outside account)
  usageLimitsAt outside urls none

/-- Whatever goes wrong with the reply, the list is empty then. -/
def listSubscriptions : Work (Option Value) := do
  let key := if account.authMethod = .apiKey then .amazonq
    else EndpointCacheState.endpointForAuth account.authMethod
  let endpoint ← Net.lift (EndpointDefinition.forAccount key client.overrides account)
  let base := ((Text.splitOnce endpoint.url "/generateAssistantResponse").map (·.1)).getD endpoint.url
  match outside.parseUrl (base ++ "/listAvailableSubscriptions") with
  | .error _ => pure none
  | .ok url =>
    match ← contact { url := url, body := .json (.object []) } with
    | .failed _ => pure none
    | .answered status body =>
      if isSuccess status then pure (body.toOption.bind fun text => (outside.readSubscriptions text).toOption)
      else pure none

/-- The JSON text in the first text block of the reply that can be read. -/
def readEnvelope (body : String) : Except KiroError Value := do
  let fail (message : String) : Except KiroError Value := .error ⟨some 502, "MCP web_search", message⟩
  let envelope ← (outside.readJson body).mapError fun error =>
    ⟨some 502, "MCP web_search", s!"invalid JSON-RPC response: {error}"⟩
  match (envelope.get "error").filter (!·.isNull) with
  | some error => fail ("JSON-RPC error: " ++ truncateChars error.render 1000)
  | none =>
    if (envelope.pointer ["result", "isError"]).bind Value.asBool = some true then
      fail "Kiro MCP web_search returned an error result"
    else match (envelope.pointer ["result", "content"]).bind Value.asArray with
    | none => fail "MCP response is missing result.content"
    | some content =>
      let texts := content.filterMap fun block => if block.kind = some "text" then block.getStr "text" else none
      match texts.findSome? fun text => (outside.readSearch text).toOption with
      | some results => .ok results
      | none => fail "MCP response contains no valid web search JSON text block"

def webSearch (query : String) : Work Value := do
  let query := Text.trim query
  if query = "" then .fail ⟨some 400, "MCP web_search", "web search query must not be empty"⟩
  else if 2000 < query.toList.length then
    .fail ⟨some 400, "MCP web_search", "web search query exceeds 2000 characters"⟩
  else
    let url ← Net.lift (client.webSearchUrl outside account)
    let profileHeader := if account.authMethod = .apiKey then none else account.givenArn
    if account.authMethod ≠ .apiKey ∧ profileHeader.isNone then
      .fail ⟨none, "MCP web_search", "account profile ARN was not resolved before web search"⟩
    else
      let body : Value := .object [("id", .string outside.searchId), ("jsonrpc", .string "2.0"),
        ("method", .string "tools/call"), ("params", .object
          [("arguments", .object [("query", .string query)]), ("name", .string "web_search")])]
      match ← contact { url := url, body := .json body, profileHeader := profileHeader } with
      | .failed message => .fail ⟨none, "MCP web_search", message⟩
      | .answered status body =>
        let body ← Net.lift (boundedText "MCP web_search" body)
        if isSuccess status then Net.lift (readEnvelope outside body)
        else .fail ⟨some status, "MCP web_search", nonemptyErrorBody status body⟩

end KiroClient

end KiroProxy.Kiro
