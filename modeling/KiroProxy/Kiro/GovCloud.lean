import KiroProxy.Kiro.Requests
import KiroProxy.Lib.Bytes

/-! A GovCloud account never leaves its partition: all requests go to hosts of its own region, and no profile
of the commercial partition is named in them. -/
namespace KiroProxy.Kiro

/-! ### Regions -/

section Region

variable {account : Account} {region : String}

structure InGovCloud (account : Account) (region : String) : Prop where
  trimmed : Text.trim account.region = region
  valid : isRegion region = true
  gov : Text.startsWith region "us-gov-" = true

theorem InGovCloud.withArn (inside : InGovCloud account region) (arn : Option String) :
    InGovCloud { account with profileArn := arn } region := ⟨inside.trimmed, inside.valid, inside.gov⟩

theorem InGovCloud.apiRegion (inside : InGovCloud account region) : accountApiRegion account = .ok region := by
  unfold accountApiRegion
  simp [inside.trimmed, inside.valid, inside.gov]

theorem InGovCloud.usageRegions (inside : InGovCloud account region) : usageApiRegions account = [region] := by
  unfold usageApiRegions
  simp [inside.trimmed, inside.gov]

theorem region_plain (valid : isRegion region = true) {c : Char} (special : (c.isAlphanum || c = '-') = false) :
    c ∉ region.toList := by
  intro member
  unfold isRegion at valid
  have plain := List.all_eq_true.1 (of_decide_eq_true valid).2 c member
  rw [special] at plain
  cases plain

theorem InGovCloud.order (inside : InGovCloud account region) (cache : EndpointCacheState) (now : Nat)
    (explicit : Option EndpointKey) (purpose : EndpointPurpose) :
    ∀ key ∈ (cache.order now account explicit purpose).2, key = .runtime := by
  intro key member
  unfold EndpointCacheState.order at member
  rw [inside.apiRegion] at member
  simp only [Except.toOption, Option.any_some, inside.gov, or_true, if_true] at member
  unfold EndpointCacheState.pushEnabled at member
  simp only [List.contains_nil, Bool.false_eq_true, if_false, List.nil_append] at member
  split at member
  · cases member
  · exact List.mem_singleton.1 member

end Region

/-! ### URLs -/

def services : List (String × String) :=
  [("q.", ".amazonaws.com"), ("codewhisperer.", ".amazonaws.com"), ("runtime.", ".kiro.dev"),
   ("management.", ".kiro.dev")]

def regionalHosts (region : String) : List String :=
  services.map fun (front, back) => front ++ Text.toAsciiLowercase region ++ back

def paths : List String := ["", "/", "/generateAssistantResponse", "/mcp", "/listAvailableSubscriptions"]

def ParsesRegional (parseUrl : String → Except String Url) : Prop :=
  ∀ region, isRegion region = true → Text.startsWith region "us-gov-" = true →
    ∀ service ∈ services, ∀ path ∈ paths, parseUrl ("https://" ++ service.1 ++ region ++ service.2 ++ path) = .ok
      { scheme := "https"
        host := service.1 ++ Text.toAsciiLowercase region ++ service.2
        path := if path = "" then "/" else path }

theorem replaceRegion_plain {template : String} (plain : '\x7b' ∉ template.toList) (region : String) :
    replaceRegion template region = template := by
  have none : Text.splitOnceChars "\x7bregion\x7d".toList template.toList = none :=
    Text.splitOnceChars_absent plain _
  unfold replaceRegion
  rw [Text.splitChars]
  split
  case h_1 _ _ cut =>
    rw [none] at cut
    cases cut
  case h_2 => simp

variable {url : Url} {endpoint : EndpointDefinition}

section Urls

variable {outside : Outside} {account : Account} {region : String}

def OfRegion (region : String) (url : Url) : Prop := url.host ∈ regionalHosts region

variable {path : String}

theorem parse_regional (parses : ParsesRegional outside.parseUrl) (inside : InGovCloud account region)
    {service : String × String} (known : service ∈ services) {text : String} (listed : path ∈ paths)
    (same : text = "https://" ++ service.1 ++ region ++ service.2 ++ path) (parsed : outside.parseUrl text = .ok url) :
    OfRegion region url ∧ url.query = [] := by
  rw [same, parses region inside.valid inside.gov service known path listed] at parsed
  cases parsed
  exact ⟨List.mem_map_of_mem known, rfl⟩

theorem mapError_ok {ε δ α : Type} {f : ε → δ} {result : Except ε α} {a : α} (ok : result.mapError f = .ok a) :
    result = .ok a := by
  cases result with
  | ok b =>
    cases ok
    rfl
  | error e => cases ok

theorem replaceRegion_search (region : String) :
    replaceRegion "https://runtime.\x7bregion\x7d.kiro.dev/mcp" region =
      "https://runtime." ++ region ++ ".kiro.dev/mcp" := by
  have first : Text.splitOnceChars "\x7bregion\x7d".toList "https://runtime.\x7bregion\x7d.kiro.dev/mcp".toList =
      some ("https://runtime.".toList, ".kiro.dev/mcp".toList) := by decide
  have second : Text.splitOnceChars "\x7bregion\x7d".toList ".kiro.dev/mcp".toList = none := by decide
  have pieces : Text.splitChars "\x7bregion\x7d".toList (by decide)
      "https://runtime.\x7bregion\x7d.kiro.dev/mcp".toList =
        ["https://runtime.".toList, ".kiro.dev/mcp".toList] := by
    rw [Text.splitChars]
    split
    case h_1 _ _ cut =>
      rw [first] at cut
      cases cut
      dsimp only
      rw [Text.splitChars]
      split
      case h_1 _ _ cut =>
        rw [second] at cut
        cases cut
      case h_2 => rfl
    case h_2 cut =>
      rw [first] at cut
      cases cut
  apply String.toList_inj.1
  rw [replaceRegion, pieces]
  simp [List.intercalate, List.intersperse]

theorem regional_text {front back first last : String} (opens : first = "https://" ++ front)
    (closes : last = back ++ path) :
    first ++ region ++ last = "https://" ++ front ++ region ++ back ++ path := by
  have grouped : "https://" ++ front ++ region ++ back ++ path = "https://" ++ front ++ region ++ (back ++ path) :=
    String.append_assoc
  rw [opens, closes, grouped]

theorem replace_regional (valid : isRegion region = true) {first last : String} (plain : '\x7b' ∉ first.toList)
    (plainToo : '\x7b' ∉ last.toList) : replaceRegion (first ++ region ++ last) region = first ++ region ++ last := by
  apply replaceRegion_plain
  have absent := region_plain valid (show ('\x7b'.isAlphanum || '\x7b' = '-') = false by decide)
  simp [plain, plainToo, absent]

theorem operationUrl_regional (parses : ParsesRegional outside.parseUrl) (inside : InGovCloud account region)
    {service : String × String} (known : service ∈ services) {text operation : String} (listed : path ∈ paths)
    (same : text = "https://" ++ service.1 ++ region ++ service.2 ++ path)
    (made : operationUrl outside text operation = .ok url) : OfRegion region url ∧ url.query = [] := by
  unfold operationUrl at made
  obtain ⟨base, parsed, rest⟩ := Bytes.bind_ok.1 made
  have host : base.host ∈ regionalHosts region :=
    (parse_regional parses inside known listed same (mapError_ok parsed)).1
  rw [← Except.ok.inj rest]
  exact ⟨host, rfl⟩

def home : EndpointKey → (String × String) × String
  | .codewhisperer => (("codewhisperer.", ".amazonaws.com"), "/generateAssistantResponse")
  | .amazonq => (("q.", ".amazonaws.com"), "/generateAssistantResponse")
  | .runtime => (("runtime.", ".kiro.dev"), "/")

theorem home_listed (key : EndpointKey) : (home key).1 ∈ services ∧ (home key).2 ∈ paths := by
  cases key <;> decide

theorem forAccount_regional (inside : InGovCloud account region) {key : EndpointKey}
    (made : EndpointDefinition.forAccount key {} account = .ok endpoint) : endpoint.key = key ∧
      endpoint.url = "https://" ++ (home key).1.1 ++ region ++ (home key).1.2 ++ (home key).2 := by
  unfold EndpointDefinition.forAccount at made
  rw [inside.apiRegion] at made
  cases made
  cases key with
  | codewhisperer =>
    dsimp only [Option.getD_none]
    rw [replace_regional inside.valid (by decide) (by decide)]
    exact ⟨rfl, regional_text rfl rfl⟩
  | amazonq =>
    dsimp only [Option.getD_none]
    rw [replace_regional inside.valid (by decide) (by decide)]
    exact ⟨rfl, regional_text rfl rfl⟩
  | runtime =>
    dsimp only [Option.getD_none]
    rw [replace_regional inside.valid (by decide) (by decide)]
    exact ⟨rfl, regional_text rfl rfl⟩

end Urls

/-! ### Profiles -/

section Profiles

variable {account : Account} {region : String}

theorem InGovCloud.usageArn (inside : InGovCloud account region) {arn : String}
    (used : usageProfileArn account = some arn) : Text.startsWith arn govCloudArn = true := by
  unfold usageProfileArn at used
  split at used
  · cases used
  · obtain ⟨kept, _⟩ := Option.filter_eq_some_iff.1 used
    obtain ⟨_, gov⟩ := Option.filter_eq_some_iff.1 kept
    rw [inside.trimmed, inside.gov] at gov
    simpa using gov

def Body.profileArns : Body → List String
  | .empty => []
  | .json value => (value.getStr "profileArn").toList
  | .generation payload _ => payload.profileArn.toList

def Request.profileArns (request : Request) : List String :=
  request.body.profileArns ++ (request.url.query.filter (·.1 = "profileArn")).map (·.2)

/-- A request that stays in the partition and in the region; marks on the cache leave the machine in no case. -/
def Stays (region : String) : Act → Prop
  | .contact request =>
    OfRegion region request.url ∧ ∀ arn ∈ request.profileArns, Text.startsWith arn govCloudArn = true
  | _ => True

theorem withProfile_arns (inside : InGovCloud account region) (bare : url.query = []) {pairs : List (String × String)}
    (others : ∀ pair ∈ pairs, pair.1 ≠ "profileArn") :
    ∀ arn ∈ ({ url := withProfile account url pairs } : Request).profileArns,
      Text.startsWith arn govCloudArn = true := by
  intro arn member
  unfold Request.profileArns withProfile at member
  simp only [Body.profileArns, bare, List.nil_append, List.mem_map, List.mem_filter, List.mem_append,
    decide_eq_true_eq] at member
  obtain ⟨pair, ⟨listed, named⟩, rfl⟩ := member
  rcases listed with plain | added
  · exact absurd named (others pair plain)
  · obtain ⟨used, found, rfl⟩ : ∃ used, usageProfileArn account = some used ∧ ("profileArn", used) = pair := by
      simpa using added
    exact inside.usageArn found

end Profiles

/-! ### What the operations send -/

namespace KiroClient

section Sends

variable {client : KiroClient} {outside : Outside} {account : Account} {region : String}

theorem contact_sends {request : Request} (stays : Stays region (.contact request)) :
    (contact request).Sends (Stays region) fun _ => True := Net.Sends.send stays

theorem discoverProfile_sends {urls : List Url} (all : ∀ url ∈ urls, OfRegion region url ∧ url.query = [])
    (fallbackAllowed : Bool) (lastError : Option KiroError) :
    (discoverProfile outside true urls fallbackAllowed lastError).Sends (Stays region)
      fun arn => Text.startsWith arn govCloudArn = true := by
  induction urls generalizing fallbackAllowed lastError with
  | nil =>
    rw [discoverProfile, Bool.not_true, Bool.and_false, if_neg Bool.false_ne_true]
    exact .fail
  | cons url rest ih =>
    obtain ⟨home, bare⟩ := all url List.mem_cons_self
    have later := ih fun other member => all other (List.mem_cons_of_mem url member)
    have stays : Stays region (.contact { url := url, body := .json (.object []) }) := by
      refine ⟨home, ?_⟩
      simp [Request.profileArns, Body.profileArns, bare, Value.getStr, Value.get]
    rw [discoverProfile]
    apply Net.Sends.bind (contact_sends stays)
    intro reply _
    cases reply with
    | failed message => exact .fail
    | answered status body =>
      dsimp only
      apply Net.Sends.bind (Net.Sends.lift fun text _ => trivial)
      intro text _
      split
      case isTrue =>
        apply Net.Sends.bind (Net.Sends.lift fun arns _ => trivial)
        intro arns _
        cases found : usableArn true arns with
        | some arn =>
          have usable := List.find?_some found
          simp only [Bool.not_true, Bool.false_or, Bool.and_eq_true] at usable
          exact .done usable.2
        | none => exact later true lastError
      case isFalse =>
        split
        case isTrue => exact later true _
        case isFalse => exact .fail

theorem resolveProfileArn_sends (open_ : client.overrides = {}) (parses : ParsesRegional outside.parseUrl)
    (inside : InGovCloud account region) :
    (client.resolveProfileArn outside account).Sends (Stays region)
      fun arn => Text.startsWith arn govCloudArn = true := by
  unfold resolveProfileArn
  split
  case isTrue => exact .fail
  case isFalse =>
    rw [inside.apiRegion, Net.lift_ok_bind]
    dsimp only
    rw [inside.gov]
    cases given : account.givenArn.filter fun arn => !true || Text.startsWith arn govCloudArn with
    | some arn =>
      have gov := (Option.filter_eq_some_iff.1 given).2
      rw [Bool.not_true, Bool.false_or] at gov
      exact .done gov
    | none =>
      dsimp only
      rw [if_neg (by simp)]
      have discovered : (Net.lift (client.profileDiscoveryUrls outside account) : Work (List Url)).Sends (Stays region)
          fun urls => ∀ url ∈ urls, OfRegion region url ∧ url.query = [] := by
        apply Net.Sends.lift
        intro urls listed
        unfold profileDiscoveryUrls at listed
        rw [open_, inside.trimmed, inside.valid, inside.usageRegions] at listed
        intro url member
        obtain ⟨name, named, made⟩ := (Bytes.mem_of_mapM listed).2 url member
        rw [List.mem_singleton.1 named] at made
        have known : ("q.", ".amazonaws.com") ∈ services := by decide
        exact operationUrl_regional parses inside known (show "" ∈ paths by decide) (regional_text rfl rfl) made
      unfold fetchProfileArnOnce
      apply discovered.bind
      intro urls all
      rw [inside.apiRegion, Net.lift_ok_bind, inside.gov]
      exact discoverProfile_sends all false none

theorem sendGeneration_sends (open_ : client.overrides = {}) (parses : ParsesRegional outside.parseUrl)
    (inside : InGovCloud account region) (payload : KiroPayload) (runtime : endpoint.key = .runtime) :
    (client.sendGeneration outside account payload endpoint).Sends (Stays region) fun _ => True := by
  have profile : (client.payloadArn outside account).Sends (Stays region)
      fun arn => ∀ name ∈ arn.toList, Text.startsWith name govCloudArn = true := by
    unfold payloadArn
    split
    case isTrue => exact .done (List.forall_mem_nil _)
    case isFalse =>
      apply (resolveProfileArn_sends open_ parses inside).bind
      intro arn gov
      refine .done fun name member => ?_
      rw [List.mem_singleton.1 member]
      exact gov
  have routed (payload : KiroPayload) : (client.routeRuntime outside account payload).Sends (Stays region)
      fun (sent : KiroPayload × EndpointDefinition) =>
        (∀ name ∈ sent.1.profileArn.toList, Text.startsWith name govCloudArn = true) ∧
        ∃ service ∈ services, ∃ path ∈ paths,
          sent.2.url = "https://" ++ service.1 ++ region ++ service.2 ++ path := by
    unfold routeRuntime
    apply profile.bind
    intro arn gov
    have moved : (Net.lift (EndpointDefinition.forAccount .runtime client.overrides
        { account with profileArn := arn }) : Work EndpointDefinition).Sends (Stays region) fun endpoint =>
        ∃ service ∈ services, ∃ path ∈ paths,
          endpoint.url = "https://" ++ service.1 ++ region ++ service.2 ++ path := by
      apply Net.Sends.lift
      intro endpoint made
      rw [open_] at made
      obtain ⟨known, listed⟩ := home_listed .runtime
      exact ⟨_, known, _, listed, (forAccount_regional (inside.withArn arn) made).2⟩
    apply moved.bind
    intro endpoint regional
    exact .done ⟨gov, regional⟩
  unfold sendGeneration
  dsimp only
  rw [if_pos runtime]
  apply (routed _).bind
  rintro ⟨sent, target⟩ ⟨gov, service, known, path, listed, same⟩
  apply Net.Sends.bind (Net.Sends.lift fun checked _ => trivial)
  intro checked _
  have parsed : (Net.lift ((outside.parseUrl target.url).mapError fun message => ⟨none, target.name, message⟩) :
      Work Url).Sends (Stays region) fun url => OfRegion region url ∧ url.query = [] := by
    apply Net.Sends.lift
    intro url made
    exact parse_regional parses inside known listed same (mapError_ok made)
  apply parsed.bind
  rintro url ⟨home, bare⟩
  have stays : Stays region (.contact { url := url, body := .generation sent (target.key ≠ .runtime) }) := by
    refine ⟨home, fun arn member => ?_⟩
    apply gov arn
    simpa [Request.profileArns, Body.profileArns, bare] using member
  apply Net.Sends.bind (contact_sends stays)
  intro reply _
  cases reply with
  | failed message => exact .fail
  | answered status body =>
    dsimp only
    split
    case isTrue => exact .done trivial
    case isFalse => exact .fail

theorem runtimeEndpoint_sends (open_ : client.overrides = {}) (inside : InGovCloud account region) :
    (Net.lift (EndpointDefinition.forAccount .runtime client.overrides account) : Work EndpointDefinition).Sends
      (Stays region) fun endpoint => endpoint.key = .runtime := by
  apply Net.Sends.lift
  intro endpoint made
  rw [open_] at made
  exact (forAccount_regional inside made).1

theorem generate_sends (open_ : client.overrides = {}) (parses : ParsesRegional outside.parseUrl)
    (inside : InGovCloud account region) (cache : EndpointCacheState) (now : Nat) (payload : KiroPayload)
    (explicit : Option EndpointKey) :
    (client.generate outside account cache now payload explicit).Sends (Stays region) fun _ => True := by
  have each (count : Nat) (order : List EndpointKey) (runtime : ∀ key ∈ order, key = .runtime)
      (rejections : Rejections) :
      (client.generateAt outside account payload count order rejections).Sends (Stays region) fun _ => True := by
    induction order generalizing rejections with
    | nil =>
      rw [generateAt]
      split
      case isTrue => exact .fail
      case isFalse => exact .fail
    | cons key rest ih =>
      have later := ih fun other member => runtime other (List.mem_cons_of_mem key member)
      obtain rfl := runtime key List.mem_cons_self
      rw [generateAt]
      apply (runtimeEndpoint_sends open_ inside).bind
      intro endpoint here
      apply (sendGeneration_sends open_ parses inside payload here).attempt.bind
      intro result _
      cases result with
      | ok served => exact .ask trivial fun _ => .done trivial
      | error error =>
        dsimp only
        split
        case isTrue => exact later _
        case isFalse =>
          split
          case isTrue =>
            split
            case isTrue => exact .fail
            case isFalse => exact .ask trivial fun _ => later _
          case isFalse => exact .fail
  unfold generate
  dsimp only
  split
  case isTrue => exact .fail
  case isFalse => exact each _ _ (inside.order cache now _ .generation) {}

theorem modelsRequest_sends (open_ : client.overrides = {}) (parses : ParsesRegional outside.parseUrl)
    (inside : InGovCloud account region) (runtime : endpoint.key = .runtime) :
    (client.modelsRequest outside account endpoint).Sends (Stays region)
      fun request => Stays region (.contact request) := by
  unfold modelsRequest
  rw [if_pos runtime]
  apply (resolveProfileArn_sends open_ parses inside).bind
  intro arn gov
  rw [(inside.withArn (some arn)).apiRegion, Net.lift_ok_bind, open_]
  dsimp only [Option.getD_none]
  rw [replace_regional inside.valid (by decide) (by decide)]
  have parsed : (Net.lift ((outside.parseUrl ("https://management." ++ region ++ ".kiro.dev/")).mapError buildError) :
      Work Url).Sends (Stays region) fun url => OfRegion region url ∧ url.query = [] := by
    apply Net.Sends.lift
    intro url made
    have known : ("management.", ".kiro.dev") ∈ services := by decide
    exact parse_regional parses inside known (show "/" ∈ paths by decide) (regional_text rfl rfl) (mapError_ok made)
  apply parsed.bind
  rintro url ⟨home, bare⟩
  refine .done ⟨home, fun name member => ?_⟩
  have only : name = arn := by
    simpa [Request.profileArns, Body.profileArns, bare, Value.getStr, Value.get, Value.asStr, List.lookup_cons] using member
  rw [only]
  exact gov

theorem listModels_sends (open_ : client.overrides = {}) (parses : ParsesRegional outside.parseUrl)
    (inside : InGovCloud account region) (cache : EndpointCacheState) (now : Nat) :
    (client.listModels outside account cache now).Sends (Stays region) fun _ => True := by
  have each (revision : Nat) (order : List EndpointKey) (runtime : ∀ key ∈ order, key = .runtime)
      (lastError : Option KiroError) :
      (client.fetchModelsAt outside account revision order lastError).Sends (Stays region) fun _ => True := by
    induction order generalizing lastError with
    | nil => exact .fail
    | cons key rest ih =>
      have later := ih fun other member => runtime other (List.mem_cons_of_mem key member)
      obtain rfl := runtime key List.mem_cons_self
      rw [fetchModelsAt]
      apply (runtimeEndpoint_sends open_ inside).bind
      intro endpoint here
      apply (modelsRequest_sends open_ parses inside here).bind
      intro request stays
      apply Net.Sends.bind (contact_sends stays)
      intro reply _
      cases reply with
      | failed message => exact .fail
      | answered status body =>
        dsimp only
        split
        case isTrue =>
          apply Net.Sends.bind (Net.Sends.lift fun text _ => trivial)
          intro text _
          apply Net.Sends.bind (Net.Sends.lift fun models _ => trivial)
          intro models _
          split
          case isTrue => exact later _
          case isFalse => exact .ask trivial fun _ => .done trivial
        case isFalse =>
          split
          case isTrue => exact later _
          case isFalse =>
            split
            case isTrue =>
              split
              case isTrue => exact .fail
              case isFalse => exact .ask trivial fun _ => later _
            case isFalse => exact .fail
  unfold listModels
  split
  case isTrue => exact .done trivial
  case isFalse =>
    dsimp only
    apply (each _ _ (inside.order cache now _ .models) none).attempt.bind
    intro result _
    cases result with
    | ok models => exact .done trivial
    | error error =>
      dsimp only
      split
      case isTrue => exact .fail
      case isFalse => exact .done trivial

theorem getUsageLimits_sends (open_ : client.overrides = {}) (parses : ParsesRegional outside.parseUrl)
    (inside : InGovCloud account region) :
    (client.getUsageLimits outside account).Sends (Stays region) fun _ => True := by
  have each (urls : List Url) (all : ∀ url ∈ urls, Stays region (.contact { url := url }))
      (lastError : Option KiroError) :
      (usageLimitsAt outside urls lastError).Sends (Stays region) fun _ => True := by
    induction urls generalizing lastError with
    | nil => exact .fail
    | cons url rest ih =>
      have later := ih fun other member => all other (List.mem_cons_of_mem url member)
      rw [usageLimitsAt]
      apply Net.Sends.bind (contact_sends (all url List.mem_cons_self))
      intro reply _
      cases reply with
      | failed message => exact .fail
      | answered status body =>
        apply Net.Sends.bind (Net.Sends.lift fun text _ => trivial)
        intro text _
        split
        case isTrue => exact Net.Sends.lift fun usage _ => trivial
        case isFalse =>
          dsimp only
          split
          case isTrue => exact later _
          case isFalse => exact .fail
  have listed : (Net.lift (client.usageLimitsUrls outside account) : Work (List Url)).Sends (Stays region)
      fun urls => ∀ url ∈ urls, Stays region (.contact { url := url }) := by
    apply Net.Sends.lift
    intro urls made
    unfold usageLimitsUrls at made
    rw [inside.apiRegion, open_, inside.usageRegions] at made
    intro url member
    obtain ⟨name, named, made⟩ := (Bytes.mem_of_mapM made).2 url member
    rw [List.mem_singleton.1 named] at made
    unfold usageLimitsUrl at made
    obtain ⟨base, parsed, same⟩ := Bytes.bind_ok.1 made
    have known : ("q.", ".amazonaws.com") ∈ services := by decide
    obtain ⟨home, bare⟩ :=
      operationUrl_regional parses inside known (show "" ∈ paths by decide) (regional_text rfl rfl) parsed
    rw [← Except.ok.inj same]
    exact ⟨home, withProfile_arns inside bare (by decide)⟩
  unfold getUsageLimits
  apply listed.bind
  intro urls all
  exact each urls all none

theorem splitOnce_operation {host : List Char} {first : Char} (plain : '/' ∉ first :: host) (other : first ≠ 'g') :
    Text.splitOnceChars "/generateAssistantResponse".toList
      ("https://".toList ++ (first :: host ++ "/generateAssistantResponse".toList)) =
        some ("https://".toList ++ (first :: host), []) := by
  have here := Text.splitOnceChars_here "/generateAssistantResponse".toList [] (by decide)
  have skipped := Text.splitOnceChars_skip plain "generateAssistantResponse".toList "/generateAssistantResponse".toList
  rw [List.append_nil] at here
  rw [show '/' :: "generateAssistantResponse".toList = "/generateAssistantResponse".toList from rfl, here] at skipped
  have opened := Text.splitOnceChars_skip (show '/' ∉ "https:".toList by decide) "generateAssistantResponse".toList
    ('/' :: '/' :: (first :: host ++ "/generateAssistantResponse".toList))
  have slashes : Text.splitOnceChars "/generateAssistantResponse".toList
      ('/' :: '/' :: (first :: host ++ "/generateAssistantResponse".toList)) =
        some ('/' :: '/' :: (first :: host), []) := by
    have once : "/generateAssistantResponse".toList.isPrefixOf?
        ('/' :: '/' :: (first :: host ++ "/generateAssistantResponse".toList)) = none := by
      simp [List.isPrefixOf?]
    have twice : "/generateAssistantResponse".toList.isPrefixOf?
        ('/' :: (first :: host ++ "/generateAssistantResponse".toList)) = none := by
      simp [List.isPrefixOf?, Ne.symm other]
    rw [Text.splitOnceChars, once]
    dsimp only
    rw [Text.splitOnceChars, twice]
    dsimp only
    rw [skipped]
    simp
  rw [show '/' :: "generateAssistantResponse".toList = "/generateAssistantResponse".toList from rfl, slashes] at opened
  exact opened

theorem operation_base (valid : isRegion region = true) {front back : String} {first : Char} {name : List Char}
    (opens : front.toList = first :: name) (other : first ≠ 'g') (plain : '/' ∉ front.toList)
    (plainToo : '/' ∉ back.toList) :
    Text.splitOnce ("https://" ++ front ++ region ++ back ++ "/generateAssistantResponse")
      "/generateAssistantResponse" = some ("https://" ++ front ++ region ++ back, "") := by
  have absent := region_plain valid (show ('/'.isAlphanum || '/' = '-') = false by decide)
  have host : '/' ∉ first :: (name ++ region.toList ++ back.toList) := by
    rw [opens] at plain
    simp only [List.mem_cons, List.mem_append, not_or] at plain ⊢
    exact ⟨plain.1, ⟨plain.2, absent⟩, plainToo⟩
  have whole : ("https://" ++ front ++ region ++ back ++ "/generateAssistantResponse").toList =
      "https://".toList ++
        (first :: (name ++ region.toList ++ back.toList) ++ "/generateAssistantResponse".toList) := by
    simp [opens]
  have start : String.ofList ("https://".toList ++ (first :: (name ++ region.toList ++ back.toList))) =
      "https://" ++ front ++ region ++ back := by
    apply String.toList_inj.1
    simp [opens]
  rw [Text.splitOnce, whole, splitOnce_operation host other, Option.map_some]
  dsimp only
  rw [start]

theorem listSubscriptions_sends (open_ : client.overrides = {}) (parses : ParsesRegional outside.parseUrl)
    (inside : InGovCloud account region) :
    (client.listSubscriptions outside account).Sends (Stays region) fun _ => True := by
  have sent (key : EndpointKey) (served : key ≠ .runtime) :
      (Net.lift (EndpointDefinition.forAccount key client.overrides account) : Work EndpointDefinition).Sends
        (Stays region) fun endpoint => ∃ service ∈ services,
          ((Text.splitOnce endpoint.url "/generateAssistantResponse").map (·.1)).getD endpoint.url ++
            "/listAvailableSubscriptions" =
              "https://" ++ service.1 ++ region ++ service.2 ++ "/listAvailableSubscriptions" := by
    apply Net.Sends.lift
    intro endpoint made
    rw [open_] at made
    rw [(forAccount_regional inside made).2]
    refine ⟨(home key).1, (home_listed key).1, ?_⟩
    cases key with
    | codewhisperer =>
      dsimp only [home]
      rw [operation_base inside.valid rfl (by decide) (by decide) (by decide)]
      rfl
    | amazonq =>
      dsimp only [home]
      rw [operation_base inside.valid rfl (by decide) (by decide) (by decide)]
      rfl
    | runtime => exact absurd rfl served
  have served : (if account.authMethod = .apiKey then .amazonq
      else EndpointCacheState.endpointForAuth account.authMethod) ≠ EndpointKey.runtime := by
    cases account.authMethod <;> decide
  unfold listSubscriptions
  dsimp only
  apply (sent _ served).bind
  rintro endpoint ⟨service, known, same⟩
  cases parsed : outside.parseUrl
      (((Text.splitOnce endpoint.url "/generateAssistantResponse").map (·.1)).getD endpoint.url ++
        "/listAvailableSubscriptions") with
  | error message => exact .done trivial
  | ok url =>
    obtain ⟨home, bare⟩ := parse_regional parses inside known (show "/listAvailableSubscriptions" ∈ paths by decide)
      same parsed
    have stays : Stays region (.contact { url := url, body := .json (.object []) }) := by
      refine ⟨home, ?_⟩
      simp [Request.profileArns, Body.profileArns, bare, Value.getStr, Value.get]
    apply Net.Sends.bind (contact_sends stays)
    intro reply _
    cases reply with
    | failed message => exact .done trivial
    | answered status body =>
      dsimp only
      split
      case isTrue => exact .done trivial
      case isFalse => exact .done trivial

theorem webSearch_sends (open_ : client.overrides = {}) (unset : client.webSearchEndpoint = none)
    (parses : ParsesRegional outside.parseUrl) (inside : InGovCloud account region) (query : String) :
    (client.webSearch outside account query).Sends (Stays region) fun _ => True := by
  have address : (Net.lift (client.webSearchUrl outside account) : Work Url).Sends (Stays region)
      fun url => OfRegion region url ∧ url.query = [] := by
    apply Net.Sends.lift
    intro url made
    unfold webSearchUrl at made
    rw [inside.apiRegion, open_, unset] at made
    obtain ⟨_, same, made⟩ := Bytes.bind_ok.1 made
    cases same
    obtain ⟨parsedUrl, parsed, made⟩ := Bytes.bind_ok.1 made
    have known : ("runtime.", ".kiro.dev") ∈ services := by decide
    have text : replaceRegion "https://runtime.\x7bregion\x7d.kiro.dev/mcp" region =
        "https://" ++ "runtime." ++ region ++ ".kiro.dev" ++ "/mcp" :=
      (replaceRegion_search region).trans (regional_text rfl rfl)
    have regional := parse_regional parses inside known (show "/mcp" ∈ paths by decide) text (mapError_ok parsed)
    split at made
    case isTrue => cases made
    case isFalse =>
      rw [← Except.ok.inj made]
      exact regional
  unfold webSearch
  dsimp only
  by_cases empty : Text.trim query = ""
  · rw [if_pos empty]
    exact .fail
  · rw [if_neg empty]
    cases Classical.em (2000 < (Text.trim query).toList.length) with
    | inl long =>
      rw [if_pos long]
      exact .fail
    | inr short =>
      rw [if_neg short]
      apply address.bind
      rintro url ⟨home, bare⟩
      generalize (if account.authMethod = .apiKey then none else account.givenArn) = profileHeader
      split
      case isTrue => exact .fail
      case isFalse =>
        apply Net.Sends.bind (contact_sends ⟨home, by
          simp [Request.profileArns, Body.profileArns, bare, Value.getStr, Value.get, List.lookup_cons]⟩)
        intro reply _
        cases reply with
        | failed message => exact .fail
        | answered status body =>
          apply Net.Sends.bind (Net.Sends.lift fun text _ => True.intro)
          intro text _
          split
          case isTrue => exact Net.Sends.lift fun results _ => True.intro
          case isFalse => exact .fail

end Sends

inductive Operation where
  | generate (cache : EndpointCacheState) (now : Nat) (payload : KiroPayload) (explicit : Option EndpointKey)
  | listModels (cache : EndpointCacheState) (now : Nat)
  | getUsageLimits
  | resolveProfileArn
  | listSubscriptions
  | webSearch (query : String)

def acts (client : KiroClient) (outside : Outside) (account : Account)
    (reply : Nat → (act : Act) → act.Answer) : Operation → List Act
  | .generate cache now payload explicit =>
    (client.generate outside account cache now payload explicit).trace reply 0
  | .listModels cache now => (client.listModels outside account cache now).trace reply 0
  | .getUsageLimits => (client.getUsageLimits outside account).trace reply 0
  | .resolveProfileArn => (client.resolveProfileArn outside account).trace reply 0
  | .listSubscriptions => (client.listSubscriptions outside account).trace reply 0
  | .webSearch query => (client.webSearch outside account query).trace reply 0

def plainParse (text : String) : Except String Url :=
  match Text.stripPrefix text "https://" with
  | none => .error "relative URL without a base"
  | some rest =>
    let (host, path) := (Text.splitOnce rest "/").getD (rest, "")
    .ok { scheme := "https", host := Text.toAsciiLowercase host, path := "/" ++ path }

theorem plainParse_regional : ParsesRegional plainParse := by
  intro region valid _ service known path listed
  have absent := region_plain valid (show ('/'.isAlphanum || '/' = '-') = false by decide)
  have host : '/' ∉ (service.1 ++ region ++ service.2).toList := by
    have plain : ∀ service ∈ services, '/' ∉ service.1.toList ∧ '/' ∉ service.2.toList := by decide
    simp [absent, plain service known]
  have small : Text.toAsciiLowercase (service.1 ++ region ++ service.2) =
      service.1 ++ Text.toAsciiLowercase region ++ service.2 := by
    have lower : ∀ service ∈ services, service.1.toList.map Char.toLower = service.1.toList ∧
        service.2.toList.map Char.toLower = service.2.toList := by decide
    apply String.toList_inj.1
    simp [Text.toAsciiLowercase, lower service known]
  have rest : Text.stripPrefix ("https://" ++ service.1 ++ region ++ service.2 ++ path) "https://" =
      some (service.1 ++ region ++ service.2 ++ path) := by
    have front : "https://".toList.isPrefixOf? ("https://" ++ service.1 ++ region ++ service.2 ++ path).toList =
        some (service.1 ++ region ++ service.2 ++ path).toList := by
      rw [List.isPrefixOf?_eq_some_iff_append_eq]
      simp
    rw [Text.stripPrefix, front, Option.map_some, String.ofList_toList]
  have parts : (Text.splitOnce (service.1 ++ region ++ service.2 ++ path) "/").getD
      (service.1 ++ region ++ service.2 ++ path, "") =
        (service.1 ++ region ++ service.2, String.ofList (path.toList.drop 1)) := by
    unfold Text.splitOnce
    rw [String.toList_append, show "/".toList = ['/'] from rfl, Text.splitOnceChars_skip host []]
    by_cases empty : path = ""
    · simp [empty, Text.splitOnceChars]
    · obtain ⟨tail, slash⟩ : ∃ tail, path.toList = ['/'] ++ tail := by
        have starts : ∀ path ∈ paths, path ≠ "" → path.toList = ['/'] ++ path.toList.drop 1 := by decide
        exact ⟨_, starts path listed empty⟩
      rw [slash, Text.splitOnceChars_here ['/'] tail (by decide)]
      simp [String.append_assoc]
  have slash : "/" ++ String.ofList (path.toList.drop 1) = if path = "" then "/" else path := by
    have each : ∀ path ∈ paths, "/" ++ String.ofList (path.toList.drop 1) = if path = "" then "/" else path := by
      decide
    exact each path listed
  unfold plainParse
  rw [rest]
  dsimp only
  rw [parts]
  dsimp only
  rw [small, slash]

def strayAccount : Account where
  id := "a"
  authMethod := .idc
  region := " us-gov-west-1 "
  profileArn := some builderIdProfileArn

def answering : Outside where
  parseUrl := plainParse
  readJson _ := .error "expected value"
  readProfiles _ := .ok [some builderIdProfileArn, some "arn:aws-us-gov:codewhisperer:us-gov-west-1:1:profile/P"]
  readModels _ := .ok [.null]
  readUsage _ := .error "expected value"
  readSubscriptions _ := .error "expected value"
  readSearch _ := .error "expected value"
  staticModels _ := []
  searchId := ""
  statusText _ := ""

def replyEmpty (_ : Nat) : (act : Act) → act.Answer
  | .contact _ => .answered 200 (.ok "")
  | .markSuccess _ _ _ => ()
  | .markDisabled _ _ _ => ()

end KiroClient

end KiroProxy.Kiro
