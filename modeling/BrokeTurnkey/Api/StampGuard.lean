import BrokeTurnkey.Api.Footprint

/-!
# What the guard lets through

On a route that is not public, the guard attaches a user to a request exactly when
the request's stamp is well-formed and timely and names an active, unexpired key whose
public key verifies the signature over timestamp and body.  It leaves the world as it
is.
-/

namespace BrokeTurnkey

open Interaction

/-- The row's columns as the guard attaches them. -/
def ApiKey.user (key : ApiKey) : AuthUser where
  orgId := key.orgId.toText
  apiKeyId := key.id.toText
  keyId := key.keyId
  scopes := key.scopes

namespace StampVerifierGuard

/-- The stamp of the request is one of the key. -/
structure Accepts (cfg : ApiConfig) (request : HttpRequest) (w : ApiWorld) (stamp : Parsed)
    (key : ApiKey) : Prop where
  parsed : (truthy request.xStamp).map parseStamp = some (.ok stamp)
  timely : inWindow stamp.timestamp w.clock = true
  found : w.tables.apiKeys.find? (fun row => row.keyId = stamp.keyId) = some key
  active : key.status = .active
  unexpired : ∀ expiresAt, key.expiresAt = some expiresAt → ¬expiresAt < w.clock
  signed : checkSignature cfg key.publicKey stamp.signatureB64
    (signedPayload cfg stamp.timestamp request.rawBody) = .ok ()

variable {cfg : ApiConfig} {guard : Guard ApiCmd Choice ApiEvent ApiWorld} {request : HttpRequest}
  {w : ApiWorld}

theorem isExpired_meets {expiresAt : Option Int} {history : List ApiEntry} :
    Meets (api cfg) guard (fun outcome w' _ => w' = w ∧ ∀ expired, outcome = .ok expired →
      (expired = true ↔ ∃ time, expiresAt = some time ∧ time < w.clock))
      (isExpired expiresAt) w history := by
  cases expiresAt with
  | none => exact ⟨rfl, fun expired hexpired => by simp [← Except.ok.inj hexpired]⟩
  | some time =>
    refine meets_now_bind fun history' => ⟨rfl, fun expired hexpired => ?_⟩
    simp [← Except.ok.inj hexpired]

theorem acceptKey_meets {stamp : Parsed} {key : ApiKey} {history : List ApiEntry} :
    Meets (api cfg) guard (fun outcome w' _ => w' = w ∧ ∀ user, outcome = .ok user →
      user = key.user ∧ key.status = .active ∧
      (∀ expiresAt, key.expiresAt = some expiresAt → ¬expiresAt < w.clock) ∧
      checkSignature cfg key.publicKey stamp.signatureB64
        (signedPayload cfg stamp.timestamp request.rawBody) = .ok ())
      (acceptKey cfg request stamp key) w history := by
  simp only [acceptKey]
  split
  · exact ⟨rfl, (by simp)⟩
  · rename_i hactive
    refine Meets.bind isExpired_meets ?_ (fun error w' history' h => ⟨h.1, (by simp)⟩)
    rintro expired w' history' ⟨rfl, hexpired⟩
    have hiff := hexpired expired rfl
    split
    · exact ⟨rfl, (by simp)⟩
    · rename_i hlive
      apply meets_ofExcept_bind
      · intro _ hsigned
        refine meets_now_bind fun _ => meets_fork_bind fun _ => ⟨rfl, fun user huser => ?_⟩
        refine ⟨(Except.ok.inj huser).symm, of_not_not hactive, fun expiresAt hat hlt => ?_, hsigned⟩
        exact hlive (hiff.mpr ⟨expiresAt, hat, hlt⟩)
      · exact fun error _ => ⟨rfl, (by simp)⟩

theorem verifyStamp_meets {header : Text} {history : List ApiEntry} :
    Meets (api cfg) guard (fun outcome w' _ => w' = w ∧ ∀ user, outcome = .ok user →
      truthy request.xStamp = some header →
      ∃ stamp key, Accepts cfg request w stamp key ∧ user = key.user)
      (verifyStamp cfg request header) w history := by
  apply meets_ofExcept_bind
  · intro stamp hparsed
    refine meets_now_bind fun _ => ?_
    split
    · exact ⟨rfl, (by simp)⟩
    · rename_i hwindow
      refine meets_select_bind rfl (fun row id history' hrow => ?_) (fun _ _ => ⟨rfl, (by simp)⟩)
      have hfound : w.tables.apiKeys.find? (fun key => key.keyId = stamp.keyId) = row :=
        Except.ok.inj hrow
      cases row with
      | none => exact ⟨rfl, (by simp)⟩
      | some key =>
        refine Meets.mono ?_ acceptKey_meets
        rintro outcome w' _ ⟨hw, h⟩
        refine ⟨hw, fun user huser hheader => ?_⟩
        obtain ⟨hkey, hactive, hunexpired, hsigned⟩ := h user huser
        refine ⟨stamp, key, ⟨?_, ?_, hfound, hactive, hunexpired, hsigned⟩, hkey⟩
        · rw [hheader, Option.map_some, hparsed]
        · exact Bool.not_eq_false _ ▸ hwindow
  · exact fun error _ => ⟨rfl, (by simp)⟩

theorem canActivate_meets {route : Route} {history : List ApiEntry} :
    Meets (api cfg) guard (fun outcome w' _ => w' = w ∧ ∀ user, outcome = .ok (some user) →
      ∃ stamp key, Accepts cfg request w stamp key ∧ user = key.user)
      (canActivate cfg route request) w history := by
  simp only [canActivate]
  split
  · exact ⟨rfl, (by simp)⟩
  · split
    · split
      · exact ⟨rfl, (by simp)⟩
      · exact ⟨rfl, (by simp)⟩
    · rename_i header hheader
      refine Meets.bind verifyStamp_meets ?_ (fun error w' history' h => ⟨h.1, (by simp)⟩)
      rintro user w' history' ⟨rfl, h⟩
      refine ⟨rfl, fun user' huser => ?_⟩
      rw [← Option.some.inj (Except.ok.inj huser)]
      exact h user rfl hheader

/-! ### Nothing more is asked -/

/-- A choice for a command that needs none. -/
def anyChoice : Choice := .done ⟨List.replicate 16 0, rfl⟩

theorem attains_now (w : ApiWorld) : Attains (api cfg) Guard.any Api.now w (.ok w.clock) w := by
  have hexec : (api cfg).exec (.base .now) anyChoice w = some (.ok w.clock, w) := rfl
  exact .perform trivial hexec

theorem attains_fork (w : ApiWorld) (job : ApiJob) :
    Attains (api cfg) Guard.any (Api.fork job) w (.ok ()) w := by
  have hexec : (api cfg).exec (.fork job) anyChoice w = some (.ok (), w) := rfl
  exact .perform trivial hexec

theorem attains_keyFindByKeyId {keyId : Text} {row : Option ApiKey}
    (hfound : w.tables.apiKeys.find? (fun key => key.keyId = keyId) = row) :
    Attains (api cfg) Guard.any (Api.sql (.keyFindByKeyId keyId)) w (.ok row) w := by
  have hexec : (api cfg).exec (.sql (.keyFindByKeyId keyId)) anyChoice w = some (.ok row, w) := by
    rw [← hfound]
    rfl
  exact .perform trivial hexec

theorem attains_isExpired {expiresAt : Option Int}
    (hlive : ∀ time, expiresAt = some time → ¬time < w.clock) :
    Attains (api cfg) Guard.any (isExpired expiresAt) w (.ok false) w := by
  cases expiresAt with
  | none => exact .ret false w
  | some time =>
    refine (attains_now w).bind ?_
    have hfalse : decide (time < w.clock) = false := decide_eq_false (hlive time rfl)
    rw [← hfalse]
    exact .ret _ w

theorem Accepts.attains_acceptKey {stamp : Parsed} {key : ApiKey}
    (h : Accepts cfg request w stamp key) :
    Attains (api cfg) Guard.any (acceptKey cfg request stamp key) w (.ok key.user) w := by
  rw [acceptKey, if_neg (not_not_intro h.active)]
  refine (attains_isExpired h.unexpired).bind ?_
  rw [if_neg Bool.noConfusion, h.signed]
  refine Attains.bind (.ret () w) ?_
  refine (attains_now w).bind ?_
  exact (attains_fork w _).bind (.ret _ w)

/-- **A stamp of the key gets its request through**, as the key's user. -/
theorem Accepts.attains {route : Route} {stamp : Parsed} {key : ApiKey}
    (h : Accepts cfg request w stamp key) (hroute : route.isPublic = false) :
    Attains (api cfg) Guard.any (canActivate cfg route request) w (.ok (some key.user)) w := by
  obtain ⟨header, hheader, hparsed⟩ := Option.map_eq_some_iff.mp h.parsed
  have hverify : Attains (api cfg) Guard.any (verifyStamp cfg request header) w
      (.ok key.user) w := by
    rw [verifyStamp, hparsed]
    refine Attains.bind (.ret stamp w) ?_
    refine (attains_now w).bind ?_
    rw [if_neg (by simp [h.timely])]
    exact (attains_keyFindByKeyId h.found).bind h.attains_acceptKey
  rw [canActivate, if_neg (by simp [hroute]), hheader]
  exact hverify.bind (.ret _ w)

end StampVerifierGuard

/-- The sample key has signed a request without a body, whatever its route. -/
theorem ApiSample.accepts (scopes : List Text) (method path : Text) :
    StampVerifierGuard.Accepts config (stamped method path) (world [key scopes])
      ⟨Base64url.encode signature, 7, keyId⟩ (key scopes) where
  parsed := by
    have hparsed : StampVerifierGuard.parseStamp header =
        .ok ⟨Base64url.encode signature, 7, keyId⟩ := by decide
    have hheader : truthy (some header) = some header := by decide
    rw [stamped, hheader, Option.map_some, hparsed]
  timely := rfl
  found := by simp [world, key]
  active := rfl
  unexpired := nofun
  signed := by
    have hsigned : StampVerifierGuard.checkSignature config publicKey
        (Base64url.encode signature) payload = .ok () := by decide
    exact hsigned

end BrokeTurnkey
