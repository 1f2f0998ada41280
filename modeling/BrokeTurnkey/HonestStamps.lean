import BrokeTurnkey.Api.KeyIds
import BrokeTurnkey.Der
import BrokeTurnkey.StampSpelling

/-!
# Stamps as clients make them

A client signs the time and the digest of its body with ES256 and sends the pair of
numbers that results in the distinguished encoding.  Before the guard verifies anything
it wants the encoding to have at least 68 bytes.  That is so for nearly every pair, but
not for all: each number takes a byte less whenever its highest nine bits are clear.
-/

namespace BrokeTurnkey

open Interaction StampVerifierGuard Text

/-! ### Signatures -/

/-- The order of P-256. -/
def Es256.order : Nat := 0xffffffff00000000ffffffffffffffffbce6faada7179e84f3b9cac2fc632551

/-- Which pairs of numbers are ES256 signatures of a payload under a P-256 key, and that
    `crypto.verify` accepts the encoding of every one of them. -/
structure Es256 (cfg : ApiConfig) where
  Signs : Text → Text → Nat → Nat → Prop
  lt_order : ∀ {publicKey payload r s}, Signs publicKey payload r s →
    r < Es256.order ∧ s < Es256.order
  verifies : ∀ {publicKey payload r s}, Signs publicKey payload r s →
    cfg.verify publicKey payload (Der.signature r s) = some true

/-- The number of bytes of the signature. -/
theorem Es256.length_signature {cfg : ApiConfig} (es256 : Es256 cfg) {publicKey payload : Text}
    {r s : Nat} (h : es256.Signs publicKey payload r s) :
    (Der.signature r s).length = 6 + Der.contentLength r + Der.contentLength s ∧
      (Der.signature r s).length ≤ 72 := by
  obtain ⟨hr, hs⟩ := es256.lt_order h
  have horder : Es256.order < 2 ^ 256 := by decide
  exact Der.length_signature (hr.trans horder) (hs.trans horder)

/-! ### Nothing goes wrong -/

/-- Every statement is answered. -/
def answered : Guard ApiCmd Choice ApiEvent ApiWorld where
  command := fun _ choice _ => ∃ id, choice = .done id
  event := fun _ _ => True

/-- Every run of the program returns the value and leaves the world as it is. -/
def Gives {α : Type} (cfg : ApiConfig) (w : ApiWorld) (p : Api α) (value : α) : Prop :=
  ∀ history, Meets (api cfg) answered (fun outcome w' _ => outcome = .ok value ∧ w' = w)
    p w history

namespace Gives

variable {cfg : ApiConfig} {w : ApiWorld} {α β : Type}

theorem ret (value : α) : Gives cfg w (.ret value) value := fun _ => ⟨rfl, rfl⟩

theorem bind {p : Api α} {f : α → Api β} {value : α} {result : β} (hp : Gives cfg w p value)
    (hf : Gives cfg w (f value) result) : Gives cfg w (p >>= f) result := by
  intro history
  refine Meets.bind (hp history) ?_ ?_
  · rintro value' w' history' ⟨hvalue, rfl⟩
    rw [Except.ok.inj hvalue]
    exact hf history'
  · rintro error w' history' ⟨herror, _⟩
    cases herror

theorem now : Gives cfg w Api.now w.clock := by
  intro history
  exact Meets.perform fun choice reply w' _ hexec => ApiCmd.exec_now hexec

theorem fork (job : ApiJob) : Gives cfg w (Api.fork job) () := by
  intro history
  refine Meets.perform fun choice reply w' hanswered hexec => ?_
  obtain ⟨id, rfl⟩ := hanswered
  cases hexec
  exact ⟨rfl, rfl⟩

theorem keyFindByKeyId {keyId : Text} {row : Option ApiKey}
    (hfound : w.tables.apiKeys.find? (fun key => key.keyId = keyId) = row) :
    Gives cfg w (Api.sql (.keyFindByKeyId keyId)) row := by
  intro history
  refine Meets.perform fun choice reply w' hanswered hexec => ?_
  obtain ⟨id, rfl⟩ := hanswered
  cases hexec
  rw [← hfound]
  exact ⟨rfl, rfl⟩

theorem isExpired {expiresAt : Option Int}
    (hlive : ∀ time, expiresAt = some time → ¬time < w.clock) :
    Gives cfg w (isExpired expiresAt) false := by
  cases expiresAt with
  | none => exact ret false
  | some time =>
    refine now.bind ?_
    have hfalse : decide (time < w.clock) = false := decide_eq_false (hlive time rfl)
    rw [← hfalse]
    exact ret _

end Gives

namespace StampVerifierGuard

variable {cfg : ApiConfig} {request : HttpRequest} {w : ApiWorld} {stamp : Parsed} {key : ApiKey}

theorem Accepts.gives_acceptKey (h : Accepts cfg request w stamp key) :
    Gives cfg w (acceptKey cfg request stamp key) key.user := by
  rw [acceptKey, if_neg (not_not_intro h.active)]
  refine (Gives.isExpired h.unexpired).bind ?_
  rw [if_neg Bool.noConfusion, h.signed]
  refine Gives.bind (Gives.ret ()) ?_
  refine Gives.now.bind ?_
  exact (Gives.fork _).bind (Gives.ret _)

/-- A stamp of the key gets its request through in every run. -/
theorem Accepts.gives {route : Route} (h : Accepts cfg request w stamp key)
    (hroute : route.isPublic = false) :
    Gives cfg w (canActivate cfg route request) (some key.user) := by
  obtain ⟨header, hheader, hparsed⟩ := Option.map_eq_some_iff.mp h.parsed
  have hverify : Gives cfg w (verifyStamp cfg request header) key.user := by
    rw [verifyStamp, hparsed]
    refine Gives.bind (Gives.ret stamp) ?_
    refine Gives.now.bind ?_
    rw [if_neg (by simp [h.timely])]
    exact (Gives.keyFindByKeyId h.found).bind h.gives_acceptKey
  rw [canActivate, if_neg (by simp [hroute]), hheader]
  exact hverify.bind (Gives.ret _)

/-- The guard lets the request through, in every run. -/
def AlwaysAdmits (cfg : ApiConfig) (route : Route) (request : HttpRequest) (w : ApiWorld)
    (user : AuthUser) : Prop :=
  Admits cfg route request w user ∧ Gives cfg w (canActivate cfg route request) (some user)

/-! ### Honest stamps -/

/-- The request with the stamp its client makes. -/
def honestRequest (request : HttpRequest) (timestamp : Nat) (keyId : Text) (r s : Nat) :
    HttpRequest :=
  { request with xStamp := some (canonicalStamp (Der.signature r s) timestamp keyId) }

theorem checkSignature_eq_ok {publicKey payload : Text} {signature : List UInt8} :
    checkSignature cfg publicKey (Base64url.encode signature) payload = .ok () ↔
      (68 ≤ signature.length ∧ signature.length ≤ 75) ∧
        cfg.verify publicKey payload signature = some true := by
  rw [checkSignature, Base64url.decode_encode]
  split
  · rename_i hlength
    constructor
    · intro h
      cases h
    · rintro ⟨hwithin, _⟩
      omega
  · rename_i hlength
    have hwithin : 68 ≤ signature.length ∧ signature.length ≤ 75 := by omega
    split
    · rename_i hverify
      exact iff_of_true rfl ⟨hwithin, hverify⟩
    · rename_i hverify
      constructor
      · intro h
        cases h
      · intro h
        exact absurd h.2 hverify

/-- The header is read if its number has at most sixteen digits. -/
theorem parse_canonicalStamp_iff {signature : List UInt8} {timestamp : Nat} {keyId : Text}
    (hkeyId : '.' ∉ keyId) :
    parseStamp (canonicalStamp signature timestamp keyId) = .ok stamp ↔
      timestamp < 10 ^ 16 ∧ stamp = ⟨Base64url.encode signature, timestamp, keyId⟩ := by
  have hdecimal := parseDecimal_decimal timestamp
  have hdigits : (decimal timestamp).length ≤ 16 ↔ timestamp < 10 ^ 16 :=
    Nat.length_toDigits_le_iff (by decide) (by decide)
  have hsplit : (canonicalStamp signature timestamp keyId).splitOn '.' =
      [Base64url.encode signature, decimal timestamp, keyId] :=
    splitOn_eq_three.mpr
      ⟨rfl, dot_not_mem_encode signature, not_mem_of_parseDecimal (by decide) hdecimal, hkeyId⟩
  constructor
  · intro hparsed
    obtain ⟨timestampMs, hsplit', htimestamp⟩ := parseStamp_eq_ok.mp hparsed
    rw [hsplit, List.cons.injEq, List.cons.injEq, List.cons.injEq] at hsplit'
    obtain ⟨hsignature, rfl, hkey, _⟩ := hsplit'
    obtain ⟨hlength, hnumber⟩ := parseTimestamp_eq_some.mp htimestamp
    rw [hdecimal, Option.some.injEq] at hnumber
    refine ⟨hdigits.mp hlength, ?_⟩
    rw [hsignature, hnumber, hkey]
  · rintro ⟨hlt, rfl⟩
    exact reads_canonicalStamp (hdigits.mpr hlt) hkeyId signature

/-- What is accepted was read and had at least 68 bytes. -/
theorem le_length_of_admits {route : Route} {timestamp : Nat} {keyId : Text} {r s : Nat}
    {user : AuthUser} (hkeyId : '.' ∉ keyId)
    (hadmits : Admits cfg route (honestRequest request timestamp keyId r s) w user) :
    68 ≤ (Der.signature r s).length ∧ timestamp < 10 ^ 16 := by
  obtain ⟨_, stamp, key, haccepts, _⟩ := admits_iff.mp hadmits
  have hparsed := haccepts.parsed_header rfl
  obtain ⟨hlt, rfl⟩ := (parse_canonicalStamp_iff hkeyId).mp hparsed
  obtain ⟨⟨hleast, _⟩, _⟩ := checkSignature_eq_ok.mp haccepts.signed
  exact ⟨hleast, hlt⟩

end StampVerifierGuard

/-- **When an honest stamp is accepted.**  In every state the API reaches from empty
    tables, the guard accepts the stamp a client makes with an active unexpired key in
    the window, if and only if the two numbers of the signature take at least 62 bytes
    and the timestamp has at most sixteen digits. -/
theorem honest_stamp_iff {cfg : ApiConfig} (es256 : Es256 cfg) {activities : List Activity}
    {clock : Int} {violation : JsError} {p : ApiPool}
    (hreach : Reach (api cfg) Guard.any (apiPool cfg activities (ApiWorld.empty clock violation)) p)
    {key : ApiKey} (hkey : key ∈ p.state.tables.apiKeys) (hactive : key.status = .active)
    (hunexpired : ∀ expiresAt, key.expiresAt = some expiresAt → ¬expiresAt < p.state.clock)
    {route : Route} (hroute : route.isPublic = false) (request : HttpRequest) {timestamp : Nat}
    (hwindow : inWindow timestamp p.state.clock = true) {r s : Nat}
    (hsigns : es256.Signs key.publicKey (signedPayload cfg timestamp request.rawBody) r s) :
    AlwaysAdmits cfg route (honestRequest request timestamp key.keyId r s) p.state key.user ↔
      62 ≤ Der.contentLength r + Der.contentLength s ∧ timestamp < 10 ^ 16 := by
  have hids := mintedIds_of_reach hreach
  have hkeyId := hids.dot_not_mem hkey
  obtain ⟨hlength, hmost⟩ := es256.length_signature hsigns
  constructor
  · rintro ⟨hadmits, _⟩
    obtain ⟨hleast, hlt⟩ := le_length_of_admits hkeyId hadmits
    exact ⟨by omega, hlt⟩
  · rintro ⟨hleast, hlt⟩
    have hparsed :=
      (@parse_canonicalStamp_iff _ (Der.signature r s) timestamp _ hkeyId).mpr ⟨hlt, rfl⟩
    have haccepts : StampVerifierGuard.Accepts cfg
        (honestRequest request timestamp key.keyId r s) p.state
        ⟨Base64url.encode (Der.signature r s), timestamp, key.keyId⟩ key := by
      constructor
      case parsed =>
        have hne : canonicalStamp (Der.signature r s) timestamp key.keyId ≠ [] := by
          simp [canonicalStamp]
        have htruthy : truthy (honestRequest request timestamp key.keyId r s).xStamp =
            some (canonicalStamp (Der.signature r s) timestamp key.keyId) := by
          simp [truthy, honestRequest, hne]
        rw [htruthy, Option.map_some, hparsed]
      case timely => exact hwindow
      case found => exact hids.find hkey
      case active => exact hactive
      case unexpired => exact hunexpired
      case signed =>
        exact checkSignature_eq_ok.mpr ⟨⟨by omega, by omega⟩, es256.verifies hsigns⟩
    exact ⟨admits_iff.mpr ⟨hroute, _, key, haccepts, rfl⟩, haccepts.gives hroute⟩

/-! ### A key of a client -/

namespace ClientSample

def publicKey : Text :=
  ("-----BEGIN PUBLIC KEY-----\n" ++
    "MFkwEwYHKoZIzj0CAQYIKoZIzj0DAQcDQgAEAL/+EK+3X+bvqZiDBKXVSuoyhhSb\n" ++
    "jWpZwa0xs2EwT8Ft3D1dkb5rzVA1oIiM/4PsZNzPu9QRRCvpInLPpQhlPg==\n" ++
    "-----END PUBLIC KEY-----\n").toList

def timestamp : Nat := 1718000000000

/-- The timestamp and the digest of the empty body. -/
def payload : Text := "1718000000000.47DEQpj8HBSa-_TImW-5JCeuQeRkm5NMpJWZG3hSuFU".toList

/-- The SHA-256 digest of nothing. -/
def emptyDigest : List UInt8 :=
  [227, 176, 196, 66, 152, 252, 28, 20, 154, 251, 244, 200, 153, 111, 185, 36, 39, 174, 65, 228,
    100, 155, 147, 76, 164, 149, 153, 27, 120, 82, 184, 85]

def firstR : Nat := 37263640658952236931385148604308847054689523147166775218611868117537302383963

def secondR : Nat := 9252124709984553940783668039754194328925335441478407241682196908367832590249

def secondS : Nat := 75158574269259376733520214383372608925543356954103148830160557591023931501692

/-- Two signatures of the payload; the second number of the first one is small. -/
def signatures : List (Nat × Nat) := [(firstR, 1), (secondR, secondS)]

def config : ApiConfig :=
  { ApiSample.config with
    digest := fun bytes => if bytes = [] then emptyDigest else bytes
    verify := fun key text bytes => some (key = publicKey ∧ text = payload ∧
      bytes ∈ signatures.map fun pair => Der.signature pair.1 pair.2) }

def es256 : Es256 config where
  Signs := fun key text r s => key = publicKey ∧ text = payload ∧ (r, s) ∈ signatures
  lt_order := by
    rintro key text r s ⟨_, _, hmem⟩
    have hall : ∀ pair ∈ signatures, pair.1 < Es256.order ∧ pair.2 < Es256.order := by decide
    exact hall _ hmem
  verifies := by
    rintro key text r s ⟨hkey, htext, hmem⟩
    have hbytes := List.mem_map_of_mem (f := fun pair => Der.signature pair.1 pair.2) hmem
    exact congrArg some (decide_eq_true ⟨hkey, htext, hbytes⟩)

/-- An organization is made, and its administrator registers the key. -/
def activities : List Activity :=
  [.createOrganization "Org".toList "org".toList,
    .registerApiKey ⟨"admin".toList, publicKey, none⟩
      { method := "POST".toList
        path := "/api-keys".toList
        xStamp := none
        xBootstrapToken := some (Sample.freshId 5).toText
        rawBody := none }]

def moves : List (Move Choice ApiEvent) :=
  [.done (Sample.freshId 0), .done (Sample.freshId 1), Sample.run,
    .created ⟨"seed".toList, "nonce".toList, "dek".toList, "0xwallet".toList⟩, Sample.run,
    .done (Sample.freshId 2), Sample.run, .done (Sample.freshId 5), Sample.run].map
      (Move.thread 0) ++
  [Sample.run, Sample.run, Sample.run, .done (Sample.freshId 6), .done (Sample.freshId 7),
    Sample.run, Sample.run].map (Move.thread 1)

/-- The key as it is registered. -/
def key : ApiKey where
  id := Sample.freshId 7
  orgId := Sample.freshId 1
  name := "admin".toList
  publicKey := publicKey
  keyId := (Sample.freshId 6).toText
  scopes := AuthService.bootstrapDefaultScopes
  status := .active
  lastUsedAt := none
  expiresAt := none
  createdAt := timestamp
  revokedAt := none

/-- A request without a body. -/
def request : HttpRequest := ApiSample.stamped "GET".toList "/wallets".toList

theorem registered : ∃ p,
    Reach (api config) Guard.any
      (apiPool config activities (ApiWorld.empty timestamp wrappedViolation)) p ∧
      p.state.tables.apiKeys = [key] ∧ p.state.clock = timestamp := by
  obtain ⟨p, hreach, hp⟩ := Reach.exists_of_run (api config) Guard.any
    (apiPool config activities (ApiWorld.empty timestamp wrappedViolation)) moves
    (fun p => decide (p.state.tables.apiKeys = [key] ∧ p.state.clock = timestamp))
    (by decide +kernel)
  exact ⟨p, hreach, of_decide_eq_true hp⟩

theorem signs {r s : Nat} (h : (r, s) ∈ signatures) :
    es256.Signs key.publicKey (signedPayload config timestamp request.rawBody) r s := by
  have hpayload : signedPayload config timestamp request.rawBody = payload := by decide
  have hkey : key.publicKey = publicKey := by rw [key]
  exact ⟨hkey, hpayload, h⟩

end ClientSample

open ClientSample in
/-- The stamp with the longer signature is accepted. -/
theorem honest_stamp_iff_registered : ∃ p,
    Reach (api config) Guard.any
      (apiPool config activities (ApiWorld.empty timestamp wrappedViolation)) p ∧
      key ∈ p.state.tables.apiKeys ∧ ∃ r s, (r, s) ∈ signatures ∧
        AlwaysAdmits config ⟨false, false⟩ (honestRequest request timestamp key.keyId r s)
          p.state key.user := by
  obtain ⟨p, hreach, hkeys, hclock⟩ := registered
  have hkey : key ∈ p.state.tables.apiKeys := hkeys ▸ List.mem_singleton.mpr rfl
  have hwindow : inWindow timestamp p.state.clock = true := by
    rw [hclock]
    decide
  have hmem : (secondR, secondS) ∈ signatures := List.mem_cons_of_mem _ List.mem_cons_self
  refine ⟨p, hreach, hkey, secondR, secondS, hmem, ?_⟩
  apply (honest_stamp_iff es256 hreach hkey rfl nofun rfl request hwindow (signs hmem)).mpr
  decide +kernel

open ClientSample in
/-- A signature whose second number is 1 takes 39 bytes, and no run accepts its stamp. -/
theorem honest_stamp_refused : ∃ p,
    Reach (api config) Guard.any
      (apiPool config activities (ApiWorld.empty timestamp wrappedViolation)) p ∧
      key ∈ p.state.tables.apiKeys ∧ key.status = .active ∧ key.expiresAt = none ∧
      inWindow timestamp p.state.clock = true ∧ ∃ r s,
        es256.Signs key.publicKey (signedPayload config timestamp request.rawBody) r s ∧
        ¬Admits config ⟨false, false⟩ (honestRequest request timestamp key.keyId r s)
          p.state key.user := by
  obtain ⟨p, hreach, hkeys, hclock⟩ := registered
  have hkey : key ∈ p.state.tables.apiKeys := hkeys ▸ List.mem_singleton.mpr rfl
  have hwindow : inWindow timestamp p.state.clock = true := by
    rw [hclock]
    decide
  have hmem : (firstR, 1) ∈ signatures := List.mem_cons_self
  refine ⟨p, hreach, hkey, rfl, rfl, hwindow, firstR, 1, signs hmem, ?_⟩
  intro hadmits
  have hlength := (le_length_of_admits ((mintedIds_of_reach hreach).dot_not_mem hkey) hadmits).1
  exact absurd hlength (by decide +kernel)

end BrokeTurnkey
