/- path: Scand/Catalog/Connection
   layer: results
   digest: The address under which the clients that main builds and the pull of the catalogue ask 1C,
   and when the two agree. -/

import Scand.Catalog.LinkTables
import Scand.Onec.AcceptedUrls

set_option autoImplicit false
set_option relaxedAutoImplicit false

namespace Scand.Catalog.Connection

open Scand.Catalog.Database
open Scand.Catalog.LinkTables (sampleConfig sampleEnv)
open Scand.Catalog.Pull
open Scand.Foundation.InternetAddress (Text)
open Scand.Foundation.Transaction (Tx)
open Scand.Onec.AcceptedUrls
open Scand.Onec.Strings (Resolver trim)
open Scand.Onec.UrlNormalizer

structure ServiceConfig extends Config where
  onecAllowPrivateNetwork : Bool := false

/-- The members of a client of 1C that its constructor sets. -/
structure Client where
  baseUrl : Text
  root : Text
  username : String
  password : String
  timeoutMs : Int
  allowInsecureHttp : Bool
  allowPrivateNetwork : Bool

/-- The constructor of a client: it throws where the address is refused. -/
def makeClient (resolve : Resolver) (baseUrl username password : String) (timeoutMs : Int)
    (allowInsecureHttp allowPrivateNetwork : Bool) : Except String Client :=
  (normalizeOnecPublicationUrl resolve (bytes baseUrl) { allowInsecureHttp, allowPrivateNetwork }).map
    fun base => {
      baseUrl := base
      root := odataRoot base
      username, password, timeoutMs, allowInsecureHttp, allowPrivateNetwork }

section Main

variable (resolve : Resolver) (cfg : ServiceConfig)

def onecCatalog : Except String Client :=
  makeClient resolve cfg.onecBaseUrl cfg.onecUser cfg.onecPassword cfg.onecTimeoutMs
    cfg.onecAllowInsecureHttp cfg.onecAllowPrivateNetwork

def ka2Inventory : Except String Client :=
  makeClient resolve cfg.onecBaseUrl cfg.onecUser cfg.onecPassword cfg.onecTimeoutMs
    cfg.onecAllowInsecureHttp cfg.onecAllowPrivateNetwork

end Main

/-- The connection step of `pull_onec_product_catalog`, up to the root that its requests have. -/
def connect (env : Env) (cfg : Config) : Except String Text :=
  if cfg.complete = false then .error incompleteConfig
  else (Pull.publicationUrl env cfg).map odataRoot

section Pull

variable {env : Env} {cfg : Config}

theorem pull_of_refused {text : String} (refused : connect env cfg = .error text) (server : Server)
    (tenantId : Int) (tx : Tx CatalogDb) :
    pullOnecProductCatalog env cfg server tenantId tx = ⟨[], .error (.thrown text), tx⟩ := by
  unfold connect at refused
  unfold pullOnecProductCatalog readAllRows
  split at refused
  · rename_i incomplete
    cases refused
    rw [if_pos incomplete]
  · rename_i complete
    rw [if_neg complete]
    cases address : Pull.publicationUrl env cfg with
    | error e =>
        rw [address] at refused
        cases refused
        rfl
    | ok base =>
        rw [address] at refused
        cases refused

theorem request_of_connected {root : Text} (connected : connect env cfg = .ok root) :
    ∃ base, Pull.publicationUrl env cfg = .ok base ∧ ∀ pageSize offset,
      (pageRequest cfg base pageSize offset).url = root ++ bytes "/Catalog_Номенклатура" := by
  unfold connect at connected
  split at connected
  · cases connected
  · cases address : Pull.publicationUrl env cfg with
    | error e =>
        rw [address] at connected
        cases connected
    | ok base =>
        rw [address] at connected
        cases connected
        exact ⟨base, rfl, fun _ _ => rfl⟩

end Pull

/-- The pull and the clients take the same addresses, and ask under the same root. -/
structure SameAddress (env : Env) (cfg : ServiceConfig) : Prop where
  accepted : (∃ root, connect env cfg.toConfig = .ok root) ↔
    (∃ c, onecCatalog env.resolve cfg = .ok c) ∧ ∃ k, ka2Inventory env.resolve cfg = .ok k
  root : ∀ root c k, connect env cfg.toConfig = .ok root → onecCatalog env.resolve cfg = .ok c →
    ka2Inventory env.resolve cfg = .ok k → c.root = root ∧ k.root = root

def internalHost (resolve : Resolver) (p : ParsedUrl) : Bool :=
  if (isIpLiteral p.hostname).isSome then isPrivateIp p.hostname
  else hostnameResolvesToInternal resolve p.hostname

structure InternalOnly (resolve : Resolver) (rawUrl : Text) (allowInsecureHttp : Bool)
    (p : ParsedUrl) : Prop where
  fits : Fits rawUrl
  parsed : parseUrl (trim rawUrl) = some p
  plain : p.hasUserinfo = false ∧ p.hasQuery = false ∧ p.hasFragment = false
  secured : p.scheme = http → isLoopbackIp p.hostname = false → allowInsecureHttp = true
  internal : internalHost resolve p = true
  remote : localTestTarget { allowInsecureHttp } p = false

section Options

variable {resolve : Resolver} {rawUrl url : Text} {insecure : Bool}

theorem accepted_of_public {p : ParsedUrl} (options : Options)
    (accepted : Accepted resolve rawUrl { allowInsecureHttp := options.allowInsecureHttp } p) :
    Accepted resolve rawUrl options p where
  parsed := accepted.parsed
  plain := accepted.plain
  literal := fun _ => accepted.literal rfl
  resolved := fun _ => accepted.resolved rfl
  secured := accepted.secured

theorem normalize_of_public (options : Options)
    (ok : normalizeOnecPublicationUrl resolve rawUrl
      { allowInsecureHttp := options.allowInsecureHttp } = .ok url) :
    normalizeOnecPublicationUrl resolve rawUrl options = .ok url := by
  obtain ⟨p, accepted, rfl⟩ := accepted_of_ok ok
  exact ok_of_accepted (fits_of_ok ok) (accepted_of_public options accepted)

theorem accepted_public_iff {p : ParsedUrl} (accepted : Accepted resolve rawUrl
      { allowInsecureHttp := insecure, allowPrivateNetwork := true } p) :
    Accepted resolve rawUrl { allowInsecureHttp := insecure } p ↔
      internalHost resolve p = false ∨
        localTestTarget { allowInsecureHttp := insecure } p = true := by
  constructor
  · intro shown
    by_cases target : localTestTarget { allowInsecureHttp := insecure } p = true
    · exact Or.inr target
    · rw [Bool.not_eq_true] at target
      left
      unfold internalHost
      split
      · rename_i literal
        exact shown.literal rfl target literal
      · rename_i named
        exact shown.resolved rfl target (Bool.eq_false_iff.mpr named)
  · intro either
    exact {
      parsed := accepted.parsed
      plain := accepted.plain
      literal := by
        intro _ tested literal
        rcases either with outside | target
        · rwa [internalHost, if_pos literal] at outside
        · rw [tested] at target
          cases target
      resolved := by
        intro _ tested named
        rcases either with outside | target
        · rwa [internalHost, if_neg (Bool.eq_false_iff.mp named)] at outside
        · rw [tested] at target
          cases target
      secured := accepted.secured }

theorem InternalOnly.accepted {p : ParsedUrl} (only : InternalOnly resolve rawUrl insecure p) :
    Accepted resolve rawUrl { allowInsecureHttp := insecure, allowPrivateNetwork := true } p where
  parsed := only.parsed
  plain := only.plain
  literal := fun shut => by cases shut
  resolved := fun shut => by cases shut
  secured := only.secured

theorem internalOnly_iff :
    (∃ p, InternalOnly resolve rawUrl insecure p) ↔
      (∃ url, normalizeOnecPublicationUrl resolve rawUrl
        { allowInsecureHttp := insecure, allowPrivateNetwork := true } = .ok url) ∧
      ¬ ∃ url, normalizeOnecPublicationUrl resolve rawUrl { allowInsecureHttp := insecure } =
        .ok url := by
  constructor
  · rintro ⟨p, only⟩
    refine ⟨⟨_, ok_of_accepted only.fits only.accepted⟩, ?_⟩
    rintro ⟨url, ok⟩
    obtain ⟨q, shown, -⟩ := accepted_of_ok ok
    obtain rfl := Option.some.inj (only.parsed.symm.trans shown.parsed)
    rcases (accepted_public_iff only.accepted).mp shown with outside | target
    · rw [only.internal] at outside
      cases outside
    · rw [only.remote] at target
      cases target
  · rintro ⟨⟨url, ok⟩, refused⟩
    obtain ⟨p, accepted, -⟩ := accepted_of_ok ok
    have fits := fits_of_ok ok
    have neither : ¬ (internalHost resolve p = false ∨
        localTestTarget { allowInsecureHttp := insecure } p = true) := by
      intro either
      have shown := (accepted_public_iff accepted).mpr either
      exact refused ⟨_, ok_of_accepted fits shown⟩
    rw [not_or, Bool.not_eq_false, Bool.not_eq_true] at neither
    exact ⟨p, fits, accepted.parsed, accepted.plain, accepted.secured, neither.1, neither.2⟩

end Options

section Agreement

variable {env : Env} {cfg : ServiceConfig}

theorem makeClient_ok_iff {resolve : Resolver} {c : Client} :
    onecCatalog resolve cfg = .ok c ↔
      ∃ base, normalizeOnecPublicationUrl resolve (bytes cfg.onecBaseUrl) {
          allowInsecureHttp := cfg.onecAllowInsecureHttp
          allowPrivateNetwork := cfg.onecAllowPrivateNetwork } = .ok base ∧
        c = {
          baseUrl := base
          root := odataRoot base
          username := cfg.onecUser
          password := cfg.onecPassword
          timeoutMs := cfg.onecTimeoutMs
          allowInsecureHttp := cfg.onecAllowInsecureHttp
          allowPrivateNetwork := cfg.onecAllowPrivateNetwork } := by
  unfold onecCatalog makeClient
  cases normalizeOnecPublicationUrl resolve (bytes cfg.onecBaseUrl) {
      allowInsecureHttp := cfg.onecAllowInsecureHttp
      allowPrivateNetwork := cfg.onecAllowPrivateNetwork } with
  | error e => simp [Except.map]
  | ok base => simp [Except.map, eq_comm]

theorem connect_ok_iff (user : cfg.onecUser ≠ "") (password : cfg.onecPassword ≠ "") {root : Text} :
    connect env cfg.toConfig = .ok root ↔
      ∃ base, normalizeOnecPublicationUrl env.resolve (bytes cfg.onecBaseUrl)
        { allowInsecureHttp := cfg.onecAllowInsecureHttp } = .ok base ∧ root = odataRoot base := by
  unfold connect
  by_cases complete : cfg.complete = false
  · have empty : cfg.onecBaseUrl = "" := by
      by_contra filled
      simp [Config.complete, filled, user, password] at complete
    rw [if_pos complete, empty]
    constructor
    · intro absurd_ok
      cases absurd_ok
    · rintro ⟨base, ok, -⟩
      cases ok
  · rw [if_neg complete]
    unfold Pull.publicationUrl
    cases normalizeOnecPublicationUrl env.resolve (bytes cfg.onecBaseUrl)
        { allowInsecureHttp := cfg.onecAllowInsecureHttp } with
    | error e => simp [Except.map]
    | ok base => simp [Except.map, eq_comm]

end Agreement

/-- The pull reaches 1C under the address of the clients exactly where the private network is not
allowed, or the URL needs no permission of it. -/
theorem same_address_iff (env : Env) (cfg : ServiceConfig) (user : cfg.onecUser ≠ "")
    (password : cfg.onecPassword ≠ "") :
    SameAddress env cfg ↔ cfg.onecAllowPrivateNetwork = false ∨
      ¬ ∃ p, InternalOnly env.resolve (bytes cfg.onecBaseUrl) cfg.onecAllowInsecureHttp p := by
  have public_client : ∀ {root}, connect env cfg.toConfig = .ok root →
      ∃ c, onecCatalog env.resolve cfg = .ok c ∧ c.root = root := by
    intro root connected
    obtain ⟨base, ok, rfl⟩ := (connect_ok_iff user password).mp connected
    have both := normalize_of_public {
      allowInsecureHttp := cfg.onecAllowInsecureHttp
      allowPrivateNetwork := cfg.onecAllowPrivateNetwork } ok
    exact ⟨_, makeClient_ok_iff.mpr ⟨base, both, rfl⟩, rfl⟩
  have same_client : ka2Inventory env.resolve cfg = onecCatalog env.resolve cfg := rfl
  constructor
  · intro same
    by_cases shut : cfg.onecAllowPrivateNetwork = false
    · exact Or.inl shut
    · refine Or.inr fun only => ?_
      obtain ⟨⟨url, ok⟩, refused⟩ := internalOnly_iff.mp only
      rw [← Bool.not_eq_false _ |>.mp shut] at ok
      have client : ∃ c, onecCatalog env.resolve cfg = .ok c :=
        ⟨_, makeClient_ok_iff.mpr ⟨url, ok, rfl⟩⟩
      obtain ⟨root, connected⟩ := same.accepted.mpr ⟨client, same_client ▸ client⟩
      obtain ⟨base, ok', -⟩ := (connect_ok_iff user password).mp connected
      exact refused ⟨base, ok'⟩
  · intro fine
    have connects : (∃ c, onecCatalog env.resolve cfg = .ok c) →
        ∃ root, connect env cfg.toConfig = .ok root := by
      rintro ⟨c, built⟩
      obtain ⟨base, ok, -⟩ := makeClient_ok_iff.mp built
      have open_ok : ∃ url, normalizeOnecPublicationUrl env.resolve (bytes cfg.onecBaseUrl)
          { allowInsecureHttp := cfg.onecAllowInsecureHttp } = .ok url := by
        rcases fine with shut | needless
        · rw [shut] at ok
          exact ⟨base, ok⟩
        · by_contra refused
          cases allowed : cfg.onecAllowPrivateNetwork with
          | false =>
              rw [allowed] at ok
              exact refused ⟨base, ok⟩
          | true =>
              rw [allowed] at ok
              exact needless (internalOnly_iff.mpr ⟨⟨base, ok⟩, refused⟩)
      obtain ⟨url, ok⟩ := open_ok
      exact ⟨_, (connect_ok_iff user password).mpr ⟨url, ok, rfl⟩⟩
    refine ⟨⟨?_, fun clients => connects clients.1⟩, ?_⟩
    · rintro ⟨root, connected⟩
      obtain ⟨c, built, -⟩ := public_client connected
      exact ⟨⟨c, built⟩, c, same_client.trans built⟩
    · intro root c k connected built_c built_k
      obtain ⟨c', built, rfl⟩ := public_client connected
      obtain rfl := Except.ok.inj (built.symm.trans built_c)
      obtain rfl := Except.ok.inj ((same_client.symm.trans built_k).symm.trans built)
      exact ⟨rfl, rfl⟩

section Example

def inOffice : ServiceConfig where
  onecBaseUrl := "https://192.168.1.5/base"
  onecUser := "odata"
  onecPassword := "secret"
  onecAllowPrivateNetwork := true

/-- With the permission for the private network the service starts, and its pull refuses the address. -/
theorem pull_refuses_office : ¬ SameAddress sampleEnv inOffice := by
  intro same
  have built : (onecCatalog sampleEnv.resolve inOffice).toOption.map Client.root =
      some (bytes "https://192.168.1.5/base/odata/standard.odata") := by decide +kernel
  have refused : (connect sampleEnv inOffice.toConfig).toOption = none := by decide +kernel
  obtain ⟨c, toOption, -⟩ := Option.map_eq_some_iff.mp built
  have client : ∃ c, onecCatalog sampleEnv.resolve inOffice = .ok c := by
    cases made : onecCatalog sampleEnv.resolve inOffice with
    | error e =>
        rw [made] at toOption
        cases toOption
    | ok c => exact ⟨c, rfl⟩
  obtain ⟨root, connected⟩ := same.accepted.mpr ⟨client, client⟩
  rw [connected] at refused
  cases refused

theorem same_address_public : SameAddress sampleEnv { toConfig := sampleConfig } :=
  (same_address_iff sampleEnv { toConfig := sampleConfig } (by decide) (by decide)).mpr (Or.inl rfl)

end Example

end Scand.Catalog.Connection
