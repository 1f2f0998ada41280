import BrokeTurnkey.Api.Endpoints
import BrokeTurnkey.Api.StampGuard
import BrokeTurnkey.Interaction.Given

/-!
# Complete mediation

A request passes three guards and a pipe before its handler runs.  The guard that reads
the stamp looks at the world three times while other requests change it, so a key is
admitted on what the run showed at these times.  Whatever else a request does it does as
a user who was let through like that.
-/

namespace BrokeTurnkey

open Interaction

/-! ### Letting a request through -/

namespace StampVerifierGuard

/-- The request carries a stamp of the key, on what was seen in the worlds of a run. -/
structure Admitted (cfg : ApiConfig) (run : ApiWorld → Prop) (request : HttpRequest)
    (stamp : Parsed) (key : ApiKey) : Prop where
  parsed : (truthy request.xStamp).map parseStamp = some (.ok stamp)
  timely : ∃ w, run w ∧ inWindow stamp.timestamp w.clock = true
  found : ∃ w, run w ∧ w.tables.apiKeys.find? (fun row => row.keyId = stamp.keyId) = some key
  active : key.status = .active
  unexpired : ∀ expiresAt, key.expiresAt = some expiresAt → ∃ w, run w ∧ ¬expiresAt < w.clock
  signed : checkSignature cfg key.publicKey stamp.signatureB64
    (signedPayload cfg stamp.timestamp request.rawBody) = .ok ()

/-- What was seen in a run was seen in a longer one. -/
theorem Admitted.mono {cfg : ApiConfig} {run run' : ApiWorld → Prop} {request : HttpRequest}
    {stamp : Parsed} {key : ApiKey} (h : Admitted cfg run request stamp key)
    (himp : ∀ w, run w → run' w) : Admitted cfg run' request stamp key where
  parsed := h.parsed
  timely := h.timely.imp fun w hw => ⟨himp w hw.1, hw.2⟩
  found := h.found.imp fun w hw => ⟨himp w hw.1, hw.2⟩
  active := h.active
  unexpired expiresAt hat := (h.unexpired expiresAt hat).imp fun w hw => ⟨himp w hw.1, hw.2⟩
  signed := h.signed

/-- The user the guard attaches, if it attaches one. -/
inductive Identified (cfg : ApiConfig) (run : ApiWorld → Prop) (route : Route)
    (request : HttpRequest) : Option AuthUser → Prop where
  | anyone : route.isPublic = true → Identified cfg run route request none
  | unstamped : route.optionalStamp = true → truthy request.xStamp = none →
      Identified cfg run route request none
  | stamped {stamp : Parsed} {key : ApiKey} : Admitted cfg run request stamp key →
      Identified cfg run route request (some key.user)

/-- What the guard does of its own: read the clock, look up the key the stamp names, and
    note the use of a key it admits. -/
inductive Issued (cfg : ApiConfig) (run : ApiWorld → Prop) (request : HttpRequest) :
    ApiCmd → Prop where
  | now : Issued cfg run request (.base .now)
  | lookup {stamp : Parsed} : (truthy request.xStamp).map parseStamp = some (.ok stamp) →
      Issued cfg run request (.sql (.keyFindByKeyId stamp.keyId))
  | touch {stamp : Parsed} {key : ApiKey} (lastUsedAt : Int) :
      Admitted cfg run request stamp key → Issued cfg run request (.fork (.touch key.id lastUsedAt))

/-- The replies of a run tell what its worlds hold. -/
structure Tells (run : ApiWorld → Prop)
    (Fact : (command : ApiCmd) → Except JsError command.Reply → Prop) : Prop where
  now : ∀ time, Fact (.base .now) (.ok time) → ∃ w, run w ∧ w.clock = time
  key : ∀ keyId row, Fact (.sql (.keyFindByKeyId keyId)) (.ok row) →
    ∃ w, run w ∧ w.tables.apiKeys.find? (fun key => key.keyId = keyId) = row
  org : ∀ orgId row, Fact (.sql (.orgFindById orgId)) (.ok row) →
    ∃ w, run w ∧ OrganizationRepository.findById orgId w.tables = .ok row

section Given

variable {cfg : ApiConfig} {run : ApiWorld → Prop}
  {Fact : (command : ApiCmd) → Except JsError command.Reply → Prop} (hfact : Tells run Fact)
  {request : HttpRequest}
include hfact

theorem now_given : Api.now.Given Fact (Issued cfg run request)
    fun outcome => ∀ time, outcome = .ok time → ∃ w, run w ∧ w.clock = time := by
  refine Prog.Given.perform .now fun reply hreply time htime => ?_
  rw [htime] at hreply
  exact hfact.now time hreply

theorem isExpired_given (expiresAt : Option Int) :
    (isExpired expiresAt).Given Fact (Issued cfg run request) fun outcome =>
      outcome = .ok false → ∀ time, expiresAt = some time → ∃ w, run w ∧ ¬time < w.clock := by
  cases expiresAt with
  | none => rintro _ _ ⟨⟩
  | some expiresAt =>
    refine Prog.Given.bind (now_given hfact) (fun now hnow hlive time htime => ?_) ?_
    · obtain ⟨w, hw, hclock⟩ := hnow now rfl
      refine ⟨w, hw, ?_⟩
      rw [hclock, ← Option.some.inj htime]
      exact of_decide_eq_false (Except.ok.inj hlive)
    · rintro error _ ⟨⟩

theorem acceptKey_given {stamp : Parsed} {key : ApiKey}
    (hparsed : (truthy request.xStamp).map parseStamp = some (.ok stamp))
    (htimely : ∃ w, run w ∧ inWindow stamp.timestamp w.clock = true)
    (hfound : ∃ w, run w ∧ w.tables.apiKeys.find? (fun row => row.keyId = stamp.keyId) = some key) :
    (acceptKey cfg request stamp key).Given Fact (Issued cfg run request) fun outcome =>
      ∀ user, outcome = .ok user → Admitted cfg run request stamp key ∧ user = key.user := by
  simp only [acceptKey]
  split
  · rintro user ⟨⟩
  · rename_i hactive
    refine Prog.Given.bind (isExpired_given hfact key.expiresAt) ?_ ?_
    · intro expired hexpired
      split
      · rintro user ⟨⟩
      · rename_i hlive
        rw [Bool.not_eq_true] at hlive
        cases hsigned : checkSignature cfg key.publicKey stamp.signatureB64
            (signedPayload cfg stamp.timestamp request.rawBody) with
        | error error => rintro user ⟨⟩
        | ok _ =>
          have hadmitted : Admitted cfg run request stamp key :=
            ⟨hparsed, htimely, hfound, of_not_not hactive, hexpired (by rw [hlive]), hsigned⟩
          refine Prog.Given.bind (Q := fun _ => True) trivial (fun _ _ => ?_) (by rintro _ _ _ ⟨⟩)
          refine Prog.Given.bind (now_given hfact) (fun now _ => ?_) (by rintro _ _ _ ⟨⟩)
          refine Prog.Given.bind (Prog.Given.perform (Q := fun _ => True) (.touch now hadmitted)
            fun _ _ => trivial) (fun _ _ => ?_) (by rintro _ _ _ ⟨⟩)
          intro user huser
          exact ⟨hadmitted, (Except.ok.inj huser).symm⟩
    · rintro error _ user ⟨⟩

theorem canActivate_given (route : Route) :
    (canActivate cfg route request).Given Fact (Issued cfg run request) fun outcome =>
      ∀ user, outcome = .ok user → Identified cfg run route request user := by
  simp only [canActivate]
  split
  · rename_i hpublic
    rintro user ⟨⟩
    exact .anyone hpublic
  · split
    · rename_i hnone
      split
      · rename_i hoptional
        rintro user ⟨⟩
        exact .unstamped hoptional hnone
      · rintro user ⟨⟩
    · rename_i header hheader
      have hverify : (verifyStamp cfg request header).Given Fact (Issued cfg run request)
          fun outcome => ∀ user, outcome = .ok user →
            ∃ stamp key, Admitted cfg run request stamp key ∧ user = key.user := by
        rw [verifyStamp]
        cases hparse : parseStamp header with
        | error error => rintro user ⟨⟩
        | ok stamp =>
          have hparsed : (truthy request.xStamp).map parseStamp = some (.ok stamp) := by
            rw [hheader, Option.map_some, hparse]
          refine Prog.Given.bind (Q := fun outcome => outcome = .ok stamp) rfl ?_ (by rintro _ ⟨⟩)
          rintro _ ⟨⟩
          refine Prog.Given.bind (now_given hfact) (fun now hnow => ?_) (by rintro _ _ _ ⟨⟩)
          split
          · rintro user ⟨⟩
          · rename_i hwindow
            obtain ⟨w, hw, hclock⟩ := hnow now rfl
            have htimely : ∃ w, run w ∧ inWindow stamp.timestamp w.clock = true :=
              ⟨w, hw, hclock ▸ Bool.not_eq_false _ ▸ hwindow⟩
            refine Prog.Given.bind (Prog.Given.perform (.lookup hparsed) fun _ h => h) ?_
              (by rintro _ _ _ ⟨⟩)
            intro row hrow
            cases row with
            | none => rintro user ⟨⟩
            | some key =>
              refine (acceptKey_given hfact hparsed htimely (hfact.key _ _ hrow)).mono
                (fun _ h => h) fun outcome h user huser => ?_
              exact ⟨stamp, key, h user huser⟩
      refine Prog.Given.bind hverify (fun user huser => ?_) (by rintro _ _ _ ⟨⟩)
      obtain ⟨stamp, key, hadmitted, rfl⟩ := huser user rfl
      rintro _ ⟨⟩
      exact .stamped hadmitted

end Given

end StampVerifierGuard

/-! ### The whole chain -/

/-- The guards and the pipe let the request through to its handler. -/
structure LetThrough (cfg : ApiConfig) (run : ApiWorld → Prop) (incoming : Incoming)
    (user : Option AuthUser) : Prop where
  identified : StampVerifierGuard.Identified cfg run incoming.endpoint.route incoming.request user
  unthrottled : incoming.throttle (ApiKeyThrottlerGuard.getTracker user incoming.ip) = .ok ()
  inScope : ScopesGuard.canActivate incoming.endpoint.scopes user = .ok ()
  valid : incoming.validate = .ok ()

section Given

variable {cfg : ApiConfig} {Fact : (command : ApiCmd) → Except JsError command.Reply → Prop}
  {P : ApiCmd → Prop} {α β : Type}

/-- A computed value is passed on without a command. -/
theorem given_ofExcept_bind {Q : Except JsError β → Prop} {result : Except JsError α}
    {f : α → Api β} (hok : ∀ value, result = .ok value → (f value).Given Fact P Q)
    (herr : ∀ error, result = .error error → Q (.error error)) :
    (Api.ofExcept result >>= f).Given Fact P Q := by
  cases result with
  | ok value => exact hok value rfl
  | error error => exact herr error rfl

/-- What the guards issue, and then what the handler does for a user who was let through. -/
theorem Incoming.handle_given {run : ApiWorld → Prop}
    (hfact : StampVerifierGuard.Tells run Fact) {incoming : Incoming}
    {Q : Except JsError Response → Prop}
    (hguard : ∀ command, StampVerifierGuard.Issued cfg run incoming.request command → P command)
    (hhandler : ∀ user, LetThrough cfg run incoming user →
      (incoming.endpoint.handler cfg incoming.request user).Given Fact P Q)
    (herr : ∀ error, Q (.error error)) : (incoming.handle cfg).Given Fact P Q := by
  refine Prog.Given.bind ((StampVerifierGuard.canActivate_given hfact _).mono hguard fun _ h => h)
    (fun user huser => ?_) (fun error _ => herr error)
  refine given_ofExcept_bind (fun _ hthrottle => ?_) (fun error _ => herr error)
  refine given_ofExcept_bind (fun _ hscopes => ?_) (fun error _ => herr error)
  refine given_ofExcept_bind (fun _ hvalid => ?_) (fun error _ => herr error)
  exact hhandler user ⟨huser user rfl, hthrottle, hscopes, hvalid⟩

end Given

/-- Replies that were given in a run tell what its worlds hold. -/
theorem tells_of_answered {cfg : ApiConfig} {guard : Guard ApiCmd Choice ApiEvent ApiWorld}
    {start p : EdgePool} {i : Nat} :
    StampVerifierGuard.Tells (Visits (edge cfg) guard start p)
      (Answered (edge cfg) guard start p i) := by
  constructor
  case now =>
    intro time h
    obtain ⟨choice, w, w', hw, _, hexec⟩ := h.visits
    exact ⟨w, hw, (Except.ok.inj (ApiCmd.exec_now hexec).1).symm⟩
  case key =>
    intro keyId row h
    obtain ⟨choice, w, w', hw, _, hexec⟩ := h.visits
    exact ⟨w, hw, (ApiCmd.exec_keyFindByKeyId hexec).2.symm⟩
  case org =>
    intro orgId row h
    obtain ⟨choice, w, w', hw, _, hexec⟩ := h.visits
    obtain ⟨_, id, hanswer⟩ := ApiCmd.exec_select rfl hexec
    exact ⟨w, hw, hanswer⟩

/-- The thread of a request that arrived. -/
theorem edgePool_arrival {cfg : ApiConfig} {arrivals : List Arrival} {w : ApiWorld} {i : Nat}
    {arrival : Arrival} (hat : arrivals[i]? = some arrival) :
    (edgePool cfg arrivals w).threads[i]? = some (arrival.start cfg) := by
  rw [edgePool, List.getElem?_map, hat]
  rfl

theorem edgePool_thread {cfg : ApiConfig} {arrivals : List Arrival} {w : ApiWorld} {i : Nat}
    {incoming : Incoming} (hat : arrivals[i]? = some (.request incoming)) :
    (edgePool cfg arrivals w).threads[i]? = some (incoming.handle cfg) :=
  edgePool_arrival hat

/-- The worlds a run from `arrivals` on `w` may have gone through. -/
abbrev EdgeRun (cfg : ApiConfig) (arrivals : List Arrival) (w : ApiWorld) (p : EdgePool) :
    ApiWorld → Prop :=
  Visits (edge cfg) .any (edgePool cfg arrivals w) p

/-- What a request issues, and who is answered. -/
theorem Incoming.handle_through (cfg : ApiConfig) (arrivals : List Arrival) (w : ApiWorld)
    (p : EdgePool) (i : Nat) (incoming : Incoming) :
    (incoming.handle cfg).Given (Answered (edge cfg) .any (edgePool cfg arrivals w) p i)
      (fun command =>
        StampVerifierGuard.Issued cfg (EdgeRun cfg arrivals w p) incoming.request command ∨
          ∃ user, LetThrough cfg (EdgeRun cfg arrivals w p) incoming user ∧
            (incoming.endpoint.handler cfg incoming.request user).Issues command)
      (fun outcome => ∀ response, outcome = .ok response →
        ∃ user, LetThrough cfg (EdgeRun cfg arrivals w p) incoming user) := by
  refine Incoming.handle_given tells_of_answered (fun command hissued => .inl hissued)
    (fun user hthrough => ?_) (by rintro _ _ ⟨⟩)
  refine (Prog.Given.issued _).mono (fun command hissues => .inr ⟨user, hthrough, hissues⟩) ?_
  exact fun _ _ _ _ => ⟨user, hthrough⟩

/-- **Complete mediation.**  In every run of the API, whatever arrives with it and however
    it interleaves, a request issues what the guard issues, and beyond that only what its
    handler does for a user the three guards and the pipe have let through; and only
    such a request is answered. -/
theorem requests_mediated {cfg : ApiConfig} {arrivals : List Arrival} {w : ApiWorld} {p : EdgePool}
    (hreach : Reach (edge cfg) .any (edgePool cfg arrivals w) p) {i : Nat} {incoming : Incoming}
    (hat : arrivals[i]? = some (.request incoming)) :
    (∀ entry ∈ p.history, entry.thread = i →
      StampVerifierGuard.Issued cfg (EdgeRun cfg arrivals w p) incoming.request entry.command ∨
        ∃ user, LetThrough cfg (EdgeRun cfg arrivals w p) incoming user ∧
          (incoming.endpoint.handler cfg incoming.request user).Issues entry.command) ∧
      ∀ response, p.threads[i]? = some (.ret response) →
        ∃ user, LetThrough cfg (EdgeRun cfg arrivals w p) incoming user := by
  obtain ⟨hentries, hended⟩ := Reach.given rfl hreach (edgePool_thread hat)
    (incoming.handle_through cfg arrivals w p i)
  exact ⟨hentries, fun response hret => hended (.ok response) hret response rfl⟩

namespace ApiSample

/-- The key revokes itself. -/
def revocation : Incoming where
  endpoint := .revokeApiKey keyId
  request := stamped "DELETE".toList "/api-keys/key".toList
  ip := none
  throttle := fun _ => .ok ()
  validate := .ok ()

/-- The thread has returned. -/
def answered {α : Type} (thread : Api α) : Bool :=
  match thread with
  | .ret _ => true
  | _ => false

theorem answered_iff {α : Type} {thread : Api α} :
    answered thread = true ↔ ∃ value, thread = .ret value := by
  simp only [answered]
  split
  · exact ⟨fun _ => ⟨_, rfl⟩, fun _ => rfl⟩
  · rename_i hne
    exact ⟨fun h => absurd h (by decide), fun ⟨value, hvalue⟩ => absurd hvalue (hne value)⟩

/-- The guard runs, and then the handler. -/
theorem revoked : ∃ p,
    Reach (edge config) .any
      (edgePool config [.request revocation] (world [key [AuthService.keyWrite]])) p ∧
      (∃ response, p.threads[0]? = some (.ret response)) ∧
      ∃ row ∈ p.state.tables.apiKeys, row.status = .revoked := by
  obtain ⟨p, hreach, hp⟩ := Reach.exists_of_run (edge config) .any
    (edgePool config [.request revocation] (world [key [AuthService.keyWrite]]))
    ((List.replicate 8 Sample.run).map (Move.thread 0))
    (fun p => p.threads[0]?.any answered &&
      p.state.tables.apiKeys.any fun row => row.status = .revoked)
    (by decide)
  obtain ⟨hanswered, hrevoked⟩ := Bool.and_eq_true_iff.mp hp
  obtain ⟨thread, hthread, hret⟩ := (Option.any_eq_true _ _).mp hanswered
  obtain ⟨response, rfl⟩ := answered_iff.mp hret
  obtain ⟨row, hrow, hstatus⟩ := List.any_eq_true.mp hrevoked
  exact ⟨p, hreach, ⟨response, hthread⟩, row, hrow, of_decide_eq_true hstatus⟩

end ApiSample

open ApiSample in
/-- A key with `key:write` is let through to revoke itself. -/
theorem requests_mediated_revocation : ∃ p,
    Reach (edge config) .any
      (edgePool config [.request revocation] (world [key [AuthService.keyWrite]])) p ∧
      (∃ row ∈ p.state.tables.apiKeys, row.status = .revoked) ∧
      ∃ user, LetThrough config
        (EdgeRun config [.request revocation] (world [key [AuthService.keyWrite]]) p) revocation
        user := by
  obtain ⟨p, hreach, ⟨response, hthread⟩, hrevoked⟩ := revoked
  exact ⟨p, hreach, hrevoked, (requests_mediated hreach (i := 0) rfl).2 response hthread⟩

end BrokeTurnkey
