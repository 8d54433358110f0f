import KiroProxy.Lib.Bytes
import KiroProxy.Translate.ModelMapping
import KiroProxy.Translate.Responses

/-! How a request is routed to a provider: by the prefix of its model or the default of the service, then
by the mapping rules, with the scopes of the service and of the key at each turn. -/
namespace KiroProxy.Http.ProviderRoute

open Bytes ModelMapping

structure ProviderRoutingConfig where
  defaultModelId : String := ""
  allowCrossProviderFallback : Bool := false

structure ProviderConfig where
  id : String := "kiro"
  kind : String := "kiro"
  enabled : Bool := true
  routing : ProviderRoutingConfig := {}

structure Config where
  provider : List ProviderConfig := []
  modelMapping : List ModelMappingRule := []

structure ProxyServiceConfig where
  id : String
  defaultProvider : String := ""
  allowedProviders : List String := []

structure AuthenticatedApiKey where
  id : String
  allowedProviders : List String := []
  allowedModels : List String := []

inductive ErrorFormat where
  | claude
  | openAi
  deriving DecidableEq

structure ApiError where
  status : Nat
  message : String
  format : ErrorFormat
  providerId : String

/-- No provider at all stands for the one that there was before there were several. -/
def Config.effectiveProviders (config : Config) : List ProviderConfig :=
  if config.provider.isEmpty then [{}] else config.provider

def effectiveScope (values : List String) : List String := if values.isEmpty then ["kiro"] else values

def defaultProviderForService (service : ProxyServiceConfig) : String :=
  if Text.trim service.defaultProvider = "" then "kiro" else service.defaultProvider

/-! ### Provider names -/

def ProviderId.Valid (value : String) : Prop :=
  value ≠ "all" ∧ value ≠ "" ∧ value.utf8ByteSize ≤ 64 ∧ value.toList.head?.any Char.isLower = true ∧
    value.toList.tail.all (fun c => c.isLower || c.isDigit || c = '-') = true

structure ProviderId where
  value : String
  valid : ProviderId.Valid value

def ProviderId.parse (value : String) : Except String ProviderId :=
  let fail (reason : String) : Except String ProviderId := .error s!"invalid provider id \x60{value}\x60: {reason}"
  if reserved : value = "all" then fail "\x60all\x60 is reserved for selectors"
  else if size : value = "" ∨ 64 < value.utf8ByteSize then fail "length must be between 1 and 64 bytes"
  else if first : value.toList.head?.any Char.isLower = true then
    if rest : value.toList.tail.all (fun c => c.isLower || c.isDigit || c = '-') = true then
      .ok ⟨value, reserved, fun empty => size (.inl empty), Nat.le_of_not_lt fun long => size (.inr long), first, rest⟩
    else fail "only lowercase ASCII letters, digits, and hyphens are allowed"
  else fail "the first character must be a lowercase ASCII letter"

theorem ProviderId.parse_value {value : String} {id : ProviderId} (parsed : ProviderId.parse value = .ok id) :
    id.value = value := by
  unfold ProviderId.parse at parsed
  dsimp only at parsed
  split at parsed
  · cases parsed
  · split at parsed
    · cases parsed
    · split at parsed
      · split at parsed
        · cases parsed
          rfl
        · cases parsed
      · cases parsed

/-! ### The two authorizations -/

def authorizeProvider (service : ProxyServiceConfig) (authenticatedKey : Option AuthenticatedApiKey)
    (providerId : String) (format : ErrorFormat) : Except ApiError Unit :=
  let serviceAllowed := effectiveScope service.allowedProviders
  let keyAllowed := authenticatedKey.elim serviceAllowed fun key => effectiveScope key.allowedProviders
  if !serviceAllowed.contains providerId || !keyAllowed.contains providerId then
    .error ⟨403, s!"provider {providerId} is not allowed for this service and API key", format, providerId⟩
  else .ok ()

def modelIsAllowed (allowedModels : List String) (providerId model : String) : Bool :=
  allowedModels.isEmpty || allowedModels.any fun pattern =>
    modelGlobMatches pattern model || modelGlobMatches pattern (providerId ++ "/" ++ model)

def authorizeModel (authenticatedKey : Option AuthenticatedApiKey) (providerId model : String)
    (format : ErrorFormat) : Except ApiError Unit :=
  match authenticatedKey with
  | none => .ok ()
  | some key =>
    if key.allowedModels.isEmpty then .ok ()
    else if modelIsAllowed key.allowedModels providerId model then .ok ()
    else .error ⟨403, s!"model {providerId}/{model} is not allowed for this API key", format, providerId⟩

/-! ### The route -/

def known (providers : List ProviderConfig) (id : String) : Bool := providers.any (·.id = id)

/-- The provider that the model names by a prefix, or the default, and the model without the prefix. -/
def initialProvider (providers : List ProviderConfig) (defaultProvider originalModel : String) : String × String :=
  match Text.splitOnce originalModel "/" with
  | some (front, model) => if known providers front then (front, model) else (defaultProvider, originalModel)
  | none => (defaultProvider, originalModel)

def crosses (providers : List ProviderConfig) (initial model : String) : Bool :=
  (Text.splitOnce model "/").any fun (target, _) => target ≠ initial && known providers target

def canCross (providers : List ProviderConfig) (initial : String) (rule : ModelMappingRule) : Bool :=
  rule.targetModels.any (crosses providers initial)

def hasCrossProviderRule (config : Config) (initial : String) : Bool :=
  config.modelMapping.any fun rule =>
    rule.enabled &&
    (if rule.providers.isEmpty then initial = "kiro" else rule.providers.contains initial) &&
    canCross config.effectiveProviders initial rule

def ruleCanCross (config : Config) (initial : String) (route : ModelRoute) : Bool :=
  route.ruleIndex.any fun index => config.modelMapping[index]?.any (canCross config.effectiveProviders initial)

/-- The rules are not asked for a provider of the kind `kiro` unless one of them can leave it. -/
def mapRoute (config : Config) (service : ProxyServiceConfig) (authenticatedKey : Option AuthenticatedApiKey)
    (provider : ProviderConfig) (initial unqualifiedModel : String) (draws : MappingDraws) : ModelRoute :=
  let context : ModelMappingContext :=
    { providerId := initial, serviceId := some service.id, apiKeyId := authenticatedKey.map (·.id) }
  let unmapped : ModelRoute := { original := unqualifiedModel, mapped := unqualifiedModel }
  if provider.kind = "kiro" ∧ hasCrossProviderRule config initial then
    let candidate := mapModelForProvider unqualifiedModel config.modelMapping context "" draws
    if crosses config.effectiveProviders initial candidate.mapped || ruleCanCross config initial candidate then candidate
    else unmapped
  else if provider.kind = "kiro" then unmapped
  else mapModelForProvider unqualifiedModel config.modelMapping context provider.routing.defaultModelId draws

def target (config : Config) (service : ProxyServiceConfig) (authenticatedKey : Option AuthenticatedApiKey)
    (provider : ProviderConfig) (initial : String) (route : ModelRoute) (format : ErrorFormat) :
    Except ApiError (String × String) :=
  match Text.splitOnce route.mapped "/" with
  | none => .ok (initial, route.mapped)
  | some (targetProvider, targetModel) =>
    if known config.effectiveProviders targetProvider then
      if targetProvider ≠ initial ∧ !provider.routing.allowCrossProviderFallback then
        let rule := route.rule.getD "<unnamed>"
        .error ⟨400, s!"model mapping {rule} crosses from {initial} to {targetProvider} but cross-provider " ++
          "routing is disabled", format, initial⟩
      else do
        authorizeProvider service authenticatedKey targetProvider format
        return (targetProvider, targetModel)
    else .ok (initial, route.mapped)

def findProvider (config : Config) (id : String) (format : ErrorFormat) : Except ApiError ProviderConfig :=
  match config.effectiveProviders.find? (·.id = id) with
  | none => .error ⟨400, s!"unknown provider {id}", format, id⟩
  | some provider => .ok provider

def requireEnabled (provider : ProviderConfig) (format : ErrorFormat) : Except ApiError Unit :=
  if provider.enabled then .ok ()
  else .error ⟨503, s!"provider {provider.id} is disabled", format, provider.id⟩

/-- A provider of the kind `kiro` is asked for its models only after the account is chosen. -/
def authorizeUpstream (provider : ProviderConfig) (authenticatedKey : Option AuthenticatedApiKey) (model : String)
    (format : ErrorFormat) : Except ApiError Unit :=
  if provider.kind = "kiro" then .ok () else authorizeModel authenticatedKey provider.id model format

def providerId (id : String) (format : ErrorFormat) : Except ApiError ProviderId :=
  (ProviderId.parse id).mapError fun message => ⟨500, message, format, id⟩

structure SelectedProviderRoute where
  providerId : ProviderId
  providerKind : String
  originalModel : String
  upstreamModel : String
  mappingRule : Option String
  lockKiroMapping : Bool
  body : List UInt8

def readModel (fromSlice : List UInt8 → Option Value) (service : ProxyServiceConfig) (body : List UInt8)
    (format : ErrorFormat) : Except ApiError (List (String × Value) × String) :=
  let fail (message : String) : Except ApiError (List (String × Value) × String) :=
    .error ⟨400, message, format, defaultProviderForService service⟩
  match fromSlice body with
  | none => fail "Invalid JSON in request body"
  | some (.object fields) =>
    match (fields.lookup "model").bind Value.asStr with
    | none => fail "model is required"
    | some model => if Text.trim model = "" then fail "model must not be empty" else .ok (fields, Text.trim model)
  | some _ => fail "request body must be a JSON object"

/-- `fromSlice` reads the bytes of the request as JSON; writing a value back cannot fail. -/
def selectProviderRoute (fromSlice : List UInt8 → Option Value) (draws : MappingDraws) (config : Config)
    (service : ProxyServiceConfig) (authenticatedKey : Option AuthenticatedApiKey) (body : List UInt8)
    (format : ErrorFormat) : Except ApiError SelectedProviderRoute := do
  let (fields, originalModel) ← readModel fromSlice service body format
  let providers := config.effectiveProviders
  let (initial, unqualifiedModel) := initialProvider providers (defaultProviderForService service) originalModel
  authorizeProvider service authenticatedKey initial format
  let provider ← findProvider config initial format
  requireEnabled provider format
  let route := mapRoute config service authenticatedKey provider initial unqualifiedModel draws
  let (selectedProvider, upstreamModel) ← target config service authenticatedKey provider initial route format
  let selected ← findProvider config selectedProvider format
  authorizeUpstream selected authenticatedKey upstreamModel format
  requireEnabled selected format
  let fields := Responses.setField "model" (.string upstreamModel) fields
  return {
    providerId := ← providerId selectedProvider format
    providerKind := selected.kind
    originalModel := originalModel
    upstreamModel := upstreamModel
    mappingRule := route.rule
    lockKiroMapping := selected.kind = "kiro" ∧ (selectedProvider ≠ initial ∨ ruleCanCross config initial route)
    body := utf8 (Value.render (.object fields)) }

/-! ### What the checks have passed -/

section Passed

variable {config : Config} {service : ProxyServiceConfig} {authenticatedKey : Option AuthenticatedApiKey}
  {format : ErrorFormat} {id model : String} {provider : ProviderConfig}

def Permitted (service : ProxyServiceConfig) (authenticatedKey : Option AuthenticatedApiKey) (id : String) : Prop :=
  id ∈ effectiveScope service.allowedProviders ∧
    ∀ key, authenticatedKey = some key → id ∈ effectiveScope key.allowedProviders

structure Reachable (config : Config) (service : ProxyServiceConfig) (authenticatedKey : Option AuthenticatedApiKey)
    (provider : ProviderConfig) : Prop where
  configured : provider ∈ config.effectiveProviders
  enabled : provider.enabled = true
  permitted : Permitted service authenticatedKey provider.id

theorem authorizeProvider_ok (passed : authorizeProvider service authenticatedKey id format = .ok ()) :
    Permitted service authenticatedKey id := by
  unfold authorizeProvider at passed
  dsimp only at passed
  split at passed
  case isTrue => cases passed
  case isFalse allowed =>
    simp only [Bool.or_eq_true, Bool.not_eq_true', not_or, Bool.not_eq_false, List.contains_iff_mem] at allowed
    constructor
    · exact allowed.1
    · intro key same
      subst same
      exact allowed.2

theorem findProvider_ok (found : findProvider config id format = .ok provider) :
    provider ∈ config.effectiveProviders ∧ provider.id = id := by
  unfold findProvider at found
  split at found
  case h_1 => cases found
  case h_2 first here =>
    cases found
    have same := List.find?_some here
    exact ⟨List.mem_of_find?_eq_some here, of_decide_eq_true same⟩

theorem requireEnabled_ok (passed : requireEnabled provider format = .ok ()) : provider.enabled = true := by
  unfold requireEnabled at passed
  split at passed
  case isTrue enabled => exact enabled
  case isFalse => cases passed

theorem authorizeModel_ok (passed : authorizeModel authenticatedKey id model format = .ok ()) :
    ∀ key, authenticatedKey = some key → modelIsAllowed key.allowedModels id model = true := by
  intro key same
  subst same
  unfold authorizeModel at passed
  dsimp only at passed
  split at passed
  case isTrue every => rw [modelIsAllowed, every, Bool.true_or]
  case isFalse =>
    split at passed
    case isTrue allowed => exact allowed
    case isFalse => cases passed

theorem authorizeUpstream_ok (passed : authorizeUpstream provider authenticatedKey model format = .ok ())
    (other : provider.kind ≠ "kiro") :
    ∀ key, authenticatedKey = some key → modelIsAllowed key.allowedModels provider.id model = true := by
  unfold authorizeUpstream at passed
  rw [if_neg other] at passed
  exact authorizeModel_ok passed

theorem providerId_ok {parsed : ProviderId} (accepted : providerId id format = .ok parsed) : parsed.value = id := by
  unfold providerId at accepted
  cases read : ProviderId.parse id with
  | error message =>
    rw [read] at accepted
    cases accepted
  | ok value =>
    rw [read] at accepted
    cases accepted
    exact ProviderId.parse_value read

theorem target_ok {initial selected upstream : String} {route : ModelRoute}
    (chosen : target config service authenticatedKey provider initial route format = .ok (selected, upstream))
    (permitted : Permitted service authenticatedKey initial) :
    Permitted service authenticatedKey selected ∧
      (selected ≠ initial → provider.routing.allowCrossProviderFallback = true) := by
  unfold target at chosen
  split at chosen
  case h_1 =>
    cases chosen
    exact ⟨permitted, fun other => absurd rfl other⟩
  case h_2 targetProvider targetModel _ =>
    split at chosen
    case isTrue =>
      split at chosen
      case isTrue => cases chosen
      case isFalse open_ =>
        obtain ⟨⟨⟩, passed, same⟩ := bind_ok.1 chosen
        cases same
        refine ⟨authorizeProvider_ok passed, fun other => ?_⟩
        by_contra closed
        exact open_ ⟨other, by simpa using closed⟩
    case isFalse =>
      cases chosen
      exact ⟨permitted, fun other => absurd rfl other⟩

theorem readModel_ok {fromSlice : List UInt8 → Option Value} {body : List UInt8} {fields : List (String × Value)}
    (read : readModel fromSlice service body format = .ok (fields, model)) :
    fromSlice body = some (.object fields) ∧
      ∃ raw, fields.lookup "model" = some (.string raw) ∧ model = Text.trim raw ∧ model ≠ "" := by
  unfold readModel at read
  dsimp only at read
  split at read
  case h_1 => cases read
  case h_2 object parsed =>
    split at read
    case h_1 => cases read
    case h_2 raw named =>
      split at read
      case isTrue => cases read
      case isFalse filled =>
        cases read
        obtain ⟨value, here, text⟩ := Option.bind_eq_some_iff.1 named
        cases value with
        | string s =>
          cases text
          exact ⟨parsed, raw, here, rfl, filled⟩
        | _ => cases text
  case h_3 => cases read

end Passed

/-- The route leads to a provider that may be reached, by way of the named one or of the default, which may be
reached as well; and what is sent is the request with another model. -/
def Scoped (fromSlice : List UInt8 → Option Value) (config : Config) (service : ProxyServiceConfig)
    (authenticatedKey : Option AuthenticatedApiKey) (body : List UInt8) (route : SelectedProviderRoute) : Prop :=
  ∃ fields raw, fromSlice body = some (.object fields) ∧ fields.lookup "model" = some (.string raw) ∧
    (∃ named provider,
      named.id = (initialProvider config.effectiveProviders (defaultProviderForService service) (Text.trim raw)).1 ∧
      Reachable config service authenticatedKey named ∧
      provider.id = route.providerId.value ∧ provider.kind = route.providerKind ∧
      Reachable config service authenticatedKey provider ∧
      (provider.id ≠ named.id → named.routing.allowCrossProviderFallback = true) ∧
      (provider.kind ≠ "kiro" → ∀ key, authenticatedKey = some key →
        modelIsAllowed key.allowedModels provider.id route.upstreamModel = true)) ∧
    ∃ sent, route.body = utf8 (Value.render (.object sent)) ∧
      sent.lookup "model" = some (.string route.upstreamModel) ∧
      ∀ other, other ≠ "model" → sent.lookup other = fields.lookup other

theorem route_scoped {fromSlice : List UInt8 → Option Value} {draws : MappingDraws} {config : Config}
    {service : ProxyServiceConfig} {authenticatedKey : Option AuthenticatedApiKey} {body : List UInt8}
    {format : ErrorFormat} {route : SelectedProviderRoute}
    (selected : selectProviderRoute fromSlice draws config service authenticatedKey body format = .ok route) :
    Scoped fromSlice config service authenticatedKey body route := by
  unfold selectProviderRoute at selected
  obtain ⟨⟨fields, model⟩, read, selected⟩ := bind_ok.1 selected
  obtain ⟨parsed, raw, asked, rfl, _⟩ := readModel_ok read
  dsimp only at selected
  generalize named : initialProvider config.effectiveProviders (defaultProviderForService service) (Text.trim raw) =
    first at selected
  obtain ⟨initial, unqualifiedModel⟩ := first
  obtain ⟨⟨⟩, permitted, selected⟩ := bind_ok.1 selected
  obtain ⟨provider, found, selected⟩ := bind_ok.1 selected
  obtain ⟨⟨⟩, enabled, selected⟩ := bind_ok.1 selected
  obtain ⟨⟨selectedProvider, upstream⟩, aimed, selected⟩ := bind_ok.1 selected
  obtain ⟨chosen, foundToo, selected⟩ := bind_ok.1 selected
  have allowed := authorizeProvider_ok permitted
  obtain ⟨configured, rfl⟩ := findProvider_ok found
  obtain ⟨listed, rfl⟩ := findProvider_ok foundToo
  obtain ⟨allowedToo, crossing⟩ := target_ok aimed allowed
  have first : Reachable config service authenticatedKey provider := ⟨configured, requireEnabled_ok enabled, allowed⟩
  obtain ⟨⟨⟩, modelPassed, selected⟩ := bind_ok.1 selected
  obtain ⟨⟨⟩, enabledToo, selected⟩ := bind_ok.1 selected
  obtain ⟨id, accepted, same⟩ := bind_ok.1 selected
  cases same
  refine ⟨fields, raw, parsed, asked, ⟨provider, chosen, ?_, first, (providerId_ok accepted).symm, rfl, ?_, crossing, ?_⟩,
    Responses.setField "model" (.string upstream) fields, rfl, ?_, ?_⟩
  · rw [named]
  · exact ⟨listed, requireEnabled_ok enabledToo, allowedToo⟩
  · exact authorizeUpstream_ok modelPassed
  · rw [Responses.lookup_setField, if_pos rfl]
  · intro other different
    rw [Responses.lookup_setField, if_neg different]

/-! A rule that leads from the default provider to another one, for a key with a list of models. -/

def crossingConfig : Config where
  provider := [
    { routing := { allowCrossProviderFallback := true } },
    { id := "copilot", kind := "copilot" }]
  modelMapping := [{
    name := "kiro-to-copilot"
    sourceModels := ["team-*"]
    targetModels := ["copilot/gpt-test"]
    providers := ["kiro"] }]

def crossingService : ProxyServiceConfig := { id := "svc", allowedProviders := ["kiro", "copilot"] }

def crossingKey : AuthenticatedApiKey :=
  { id := "ak", allowedProviders := ["kiro", "copilot"], allowedModels := ["copilot/gpt-*"] }

def crossingRequest (_ : List UInt8) : Option Value :=
  some (.object [("max_tokens", .number (.posInt 16)), ("model", .string " team-fast ")])

theorem route_scoped_crossing :
    ∃ route, selectProviderRoute crossingRequest ⟨fun _ => {}, fun _ => 0⟩ crossingConfig crossingService
        (some crossingKey) [] .openAi = .ok route ∧ route.upstreamModel = "gpt-test" ∧
      Scoped crossingRequest crossingConfig crossingService (some crossingKey) [] route := by
  have sent : (selectProviderRoute crossingRequest ⟨fun _ => {}, fun _ => 0⟩ crossingConfig crossingService
      (some crossingKey) [] .openAi).toOption.map (·.upstreamModel) = some "gpt-test" := by decide
  cases run : selectProviderRoute crossingRequest ⟨fun _ => {}, fun _ => 0⟩ crossingConfig crossingService
      (some crossingKey) [] .openAi with
  | error e =>
    rw [run] at sent
    cases sent
  | ok route =>
    rw [run] at sent
    exact ⟨route, rfl, Option.some.inj sent, route_scoped run⟩

end KiroProxy.Http.ProviderRoute
