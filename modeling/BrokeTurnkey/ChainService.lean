import BrokeTurnkey.GasService

/-!
# Chains and their RPC endpoints

`libs/gas/src/chain.service.ts` and `chain.config.ts`: every supported chain is
registered at start-up with the URLs of its own numbered variables, or with the two
legacy variables if it has none of its own.  The legacy variables belong to a setup
with one chain, so `Separated` says which chain that is and what holds of all others.
-/

namespace BrokeTurnkey.ChainService

open Interaction Text

structure NativeCurrency where
  name : Text
  symbol : Text
  decimals : Nat
deriving DecidableEq

/-- An entry of `SUPPORTED_CHAINS`. -/
structure ChainMeta where
  chainId : Nat
  name : Text
  envKey : Text
  blockExplorerUrl : Text
  nativeCurrency : NativeCurrency
deriving DecidableEq

/-- `ChainConfig`, an entry together with its URLs. -/
structure ChainConfig where
  entry : ChainMeta
  rpcUrls : List Text
deriving DecidableEq

def ether : NativeCurrency := ⟨"Ether".toList, "ETH".toList, 18⟩

/-- `SUPPORTED_CHAINS`, in the order of `Object.entries`: integer keys ascend. -/
def supportedChains : List ChainMeta :=
  [⟨1, "Ethereum".toList, "ETH_MAINNET".toList, "https://etherscan.io".toList, ether⟩,
   ⟨10, "OP Mainnet".toList, "OP_MAINNET".toList, "https://optimistic.etherscan.io".toList, ether⟩,
   ⟨137, "Polygon".toList, "POLYGON_MAINNET".toList, "https://polygonscan.com".toList,
    ⟨"POL".toList, "POL".toList, 18⟩⟩,
   ⟨8453, "Base".toList, "BASE_MAINNET".toList, "https://basescan.org".toList, ether⟩,
   ⟨42161, "Arbitrum One".toList, "ARB_MAINNET".toList, "https://arbiscan.io".toList, ether⟩,
   ⟨84532, "Base Sepolia".toList, "BASE_SEPOLIA".toList, "https://sepolia.basescan.org".toList,
    ether⟩,
   ⟨11155111, "Ethereum Sepolia".toList, "ETH_SEPOLIA".toList, "https://sepolia.etherscan.io".toList,
    ⟨"Sepolia Ether".toList, "ETH".toList, 18⟩⟩]

/-- `ConfigService.get` of a string. -/
abbrev Env := Text → Option Text

/-- `if (url) urls.push(url)`: unset and empty variables are passed over. -/
def configured (env : Env) (names : List Text) : List Text :=
  names.filterMap fun name => (env name).filter (· ≠ [])

def numberedNames (envKey : Text) : List Text :=
  [1, 2, 3, 4, 5].map fun i => "RPC_".toList ++ envKey ++ "_".toList ++ decimal i

def legacyNames : List Text := ["RPC_URL".toList, "RPC_URL_FALLBACK".toList]

def resolveRpcUrls (env : Env) (envKey : Text) : List Text :=
  let urls := configured env (numberedNames envKey)
  if urls = [] then configured env legacyNames else urls

/-- `this.chains`, in the order of registration. -/
abbrev Chains := List ChainConfig

/-- `Map.set`, which keeps the place of a key that is there. -/
def setChain (chains : Chains) (config : ChainConfig) : Chains :=
  if chains.any (fun other => other.entry.chainId = config.entry.chainId) then
    chains.map fun other => if other.entry.chainId = config.entry.chainId then config else other
  else chains ++ [config]

/-- One turn of the loop over `SUPPORTED_CHAINS`. -/
def registerChain (env : Env) (chains : Chains) (entry : ChainMeta) : Chains :=
  let rpcUrls := resolveRpcUrls env entry.envKey
  if rpcUrls = [] then chains else setChain chains ⟨entry, rpcUrls⟩

def onModuleInit (env : Env) : Chains := supportedChains.foldl (registerChain env) []

def getSupportedChainIds (chains : Chains) : List Nat := chains.map fun config => config.entry.chainId

def isSupported (chains : Chains) (chainId : Nat) : Bool :=
  chains.any fun config => config.entry.chainId = chainId

def getChain (chains : Chains) (chainId : Nat) : Except JsError ChainConfig :=
  match chains.find? fun config => config.entry.chainId = chainId with
  | none => .error (JsError.error ("Unsupported chain ID: ".toList ++ decimal chainId ++
      ". Supported: ".toList ++
      List.intercalate ", ".toList ((getSupportedChainIds chains).map decimal)))
  | some chain => .ok chain

def getRpcUrls (chains : Chains) (chainId : Nat) : Except JsError (List Text) := do
  let chain ← getChain chains chainId
  return chain.rpcUrls

/-! ### What is registered -/

/-- The URLs of a chain's own variables. -/
def ownUrls (env : Env) (entry : ChainMeta) : List Text := configured env (numberedNames entry.envKey)

def legacyUrls (env : Env) : List Text := configured env legacyNames

/-- No chain but one is served by the legacy endpoints. -/
structure Separated (env : Env) (legacyChain : Nat) : Prop where
  /-- a chain without variables of its own is not registered -/
  unregistered : ∀ entry ∈ supportedChains, ownUrls env entry = [] → entry.chainId ≠ legacyChain →
    isSupported (onModuleInit env) entry.chainId = false
  /-- the legacy endpoints are attached to one chain at most -/
  attached : ∀ entry ∈ supportedChains, ∀ other ∈ supportedChains,
    ownUrls env entry = [] → ownUrls env other = [] →
    isSupported (onModuleInit env) entry.chainId = true →
    isSupported (onModuleInit env) other.chainId = true → entry.chainId = other.chainId
  /-- every other chain has URLs of its own only -/
  own : ∀ chainId urls, getRpcUrls (onModuleInit env) chainId = .ok urls → chainId ≠ legacyChain →
    ∃ entry ∈ supportedChains, entry.chainId = chainId ∧ ∀ url ∈ urls, url ∈ ownUrls env entry

theorem resolveRpcUrls_eq (env : Env) (entry : ChainMeta) :
    resolveRpcUrls env entry.envKey =
      if ownUrls env entry = [] then legacyUrls env else ownUrls env entry := rfl

/-- The entry with the URLs it is registered with, if it has any. -/
def registration (env : Env) (entry : ChainMeta) : Option ChainConfig :=
  if resolveRpcUrls env entry.envKey = [] then none
  else some ⟨entry, resolveRpcUrls env entry.envKey⟩

/-- Chains with different ids are registered one behind the other. -/
theorem foldl_registerChain (env : Env) : ∀ (entries : List ChainMeta) (chains : Chains),
    (entries.map ChainMeta.chainId).Nodup →
    (∀ entry ∈ entries, ∀ config ∈ chains, config.entry.chainId ≠ entry.chainId) →
    entries.foldl (registerChain env) chains = chains ++ entries.filterMap (registration env)
  | [], chains, _, _ => by simp
  | entry :: rest, chains, hnodup, hnew => by
    rw [List.map_cons, List.nodup_cons] at hnodup
    have hrest := fun other hother => hnew other (List.mem_cons_of_mem entry hother)
    rw [List.foldl_cons, List.filterMap_cons]
    by_cases hnone : resolveRpcUrls env entry.envKey = []
    · rw [registerChain, if_pos hnone, registration, if_pos hnone]
      exact foldl_registerChain env rest chains hnodup.2 hrest
    · have hset : setChain chains ⟨entry, resolveRpcUrls env entry.envKey⟩ =
          chains ++ [⟨entry, resolveRpcUrls env entry.envKey⟩] := by
        apply if_neg
        intro hany
        obtain ⟨config, hconfig, heq⟩ := List.any_eq_true.mp hany
        exact hnew entry List.mem_cons_self config hconfig (of_decide_eq_true heq)
      rw [registerChain, if_neg hnone, registration, if_neg hnone, hset,
        foldl_registerChain env rest _ hnodup.2, List.append_assoc]
      · rfl
      · intro other hother config hconfig
        rcases List.mem_append.mp hconfig with hold | hnow
        · exact hrest other hother config hold
        · rw [List.mem_singleton.mp hnow]
          intro heq
          exact hnodup.1 (List.mem_map.mpr ⟨other, hother, heq.symm⟩)

theorem mem_onModuleInit {env : Env} {config : ChainConfig} : config ∈ onModuleInit env ↔
    ∃ entry ∈ supportedChains, resolveRpcUrls env entry.envKey ≠ [] ∧
      config = ⟨entry, resolveRpcUrls env entry.envKey⟩ := by
  have hnodup : (supportedChains.map ChainMeta.chainId).Nodup := by decide
  rw [onModuleInit, foldl_registerChain env _ _ hnodup (by simp), List.nil_append,
    List.mem_filterMap]
  constructor
  · rintro ⟨entry, hentry, hregistered⟩
    rw [registration] at hregistered
    split at hregistered
    · cases hregistered
    · rename_i hsome
      exact ⟨entry, hentry, hsome, (Option.some.inj hregistered).symm⟩
  · rintro ⟨entry, hentry, hsome, rfl⟩
    exact ⟨entry, hentry, if_neg hsome⟩

theorem chainId_injective {entry other : ChainMeta} (h : entry ∈ supportedChains)
    (h' : other ∈ supportedChains) (heq : entry.chainId = other.chainId) : entry = other := by
  have hall : ∀ a ∈ supportedChains, ∀ b ∈ supportedChains, a.chainId = b.chainId → a = b := by
    decide
  exact hall entry h other h' heq

theorem isSupported_iff {env : Env} {entry : ChainMeta} (h : entry ∈ supportedChains) :
    isSupported (onModuleInit env) entry.chainId = true ↔
      resolveRpcUrls env entry.envKey ≠ [] := by
  rw [isSupported, List.any_eq_true]
  constructor
  · rintro ⟨config, hconfig, heq⟩
    obtain ⟨other, hother, hsome, rfl⟩ := mem_onModuleInit.mp hconfig
    rwa [chainId_injective hother h (of_decide_eq_true heq)] at hsome
  · intro hsome
    exact ⟨_, mem_onModuleInit.mpr ⟨entry, h, hsome, rfl⟩, decide_eq_true rfl⟩

theorem getRpcUrls_eq_ok {env : Env} {chainId : Nat} {urls : List Text}
    (h : getRpcUrls (onModuleInit env) chainId = .ok urls) : ∃ entry ∈ supportedChains,
      entry.chainId = chainId ∧ resolveRpcUrls env entry.envKey ≠ [] ∧
        urls = resolveRpcUrls env entry.envKey := by
  simp only [getRpcUrls, getChain] at h
  split at h
  · cases h
  · rename_i config hfind
    cases h
    obtain ⟨entry, hentry, hsome, rfl⟩ := mem_onModuleInit.mp (List.mem_of_find?_eq_some hfind)
    have hid := List.find?_some hfind
    exact ⟨entry, hentry, of_decide_eq_true hid, hsome, rfl⟩

/-- A chain without variables of its own is registered as soon as there are legacy ones. -/
theorem isSupported_of_legacy {env : Env} {entry : ChainMeta} (h : entry ∈ supportedChains)
    (hown : ownUrls env entry = []) :
    isSupported (onModuleInit env) entry.chainId = true ↔ legacyUrls env ≠ [] := by
  rw [isSupported_iff h, resolveRpcUrls_eq, if_pos hown]

/-- **When chains keep to their own endpoints.**  For every environment and every choice
    of the legacy chain: the chains are separated exactly if no legacy variable is set or
    every other chain has a numbered variable of its own. -/
theorem separated_iff (env : Env) (legacyChain : Nat) :
    Separated env legacyChain ↔ legacyUrls env = [] ∨
      ∀ entry ∈ supportedChains, entry.chainId ≠ legacyChain → ownUrls env entry ≠ [] := by
  constructor
  · intro h
    by_contra hneither
    rw [not_or] at hneither
    obtain ⟨hlegacy, hothers⟩ := hneither
    apply hothers
    intro entry hentry hid hown
    have hout := h.unregistered entry hentry hown hid
    rw [(isSupported_of_legacy hentry hown).mpr hlegacy] at hout
    cases hout
  · intro hcond
    have hout : ∀ entry ∈ supportedChains, ownUrls env entry = [] → entry.chainId ≠ legacyChain →
        ¬isSupported (onModuleInit env) entry.chainId = true := by
      intro entry hentry hown hid
      rw [isSupported_of_legacy hentry hown, not_not]
      rcases hcond with hnone | hall
      · exact hnone
      · exact absurd hown (hall entry hentry hid)
    constructor
    case unregistered =>
      intro entry hentry hown hid
      exact Bool.eq_false_iff.mpr (hout entry hentry hown hid)
    case attached =>
      intro entry hentry other hother hown hown' hsupported hsupported'
      have hid : entry.chainId = legacyChain := by
        by_contra hne
        exact hout entry hentry hown hne hsupported
      have hid' : other.chainId = legacyChain := by
        by_contra hne
        exact hout other hother hown' hne hsupported'
      rw [hid, hid']
    case own =>
      intro chainId urls hurls hne
      obtain ⟨entry, hentry, rfl, hsome, rfl⟩ := getRpcUrls_eq_ok hurls
      refine ⟨entry, hentry, rfl, ?_⟩
      have hown : ownUrls env entry ≠ [] := by
        intro hown
        exact hout entry hentry hown hne ((isSupported_iff hentry).mpr hsome)
      rw [resolveRpcUrls_eq, if_neg hown]
      exact fun url hurl => hurl

/-- With `RPC_URL` alone, the endpoint of Ethereum serves Optimism and Base too. -/
theorem legacy_serves_every_chain :
    let env : Env := fun name =>
      if name = "RPC_URL".toList then some "https://rpc.ankr.com/eth".toList else none
    getRpcUrls (onModuleInit env) 10 = .ok ["https://rpc.ankr.com/eth".toList] ∧
      getRpcUrls (onModuleInit env) 8453 = .ok ["https://rpc.ankr.com/eth".toList] ∧
      ¬∃ legacyChain, Separated env legacyChain := by
  refine ⟨by decide, by decide, ?_⟩
  rintro ⟨legacyChain, h⟩
  have hsame := h.attached supportedChains[1] (by decide) supportedChains[3] (by decide)
    (by decide) (by decide) (by decide) (by decide)
  exact absurd hsame (by decide)

end BrokeTurnkey.ChainService
