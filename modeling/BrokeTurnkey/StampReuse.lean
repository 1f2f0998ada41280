import BrokeTurnkey.Api.Growth
import BrokeTurnkey.Api.StampGuard

/-!
# What a stamp is good for

A stamp signs the time and the body of a request, not its method or path, and the guard
remembers nothing of the stamps it has seen.  So a stamp is accepted with any method
and path that has its body, and again until it is too old.  What the signature does
ensure is that nothing else is accepted: if nobody sends a stamp but for the request it
was made for, and once, then no request is accepted that its key did not stamp.
-/

namespace BrokeTurnkey

open Interaction

/-! ### Stamped and accepted requests -/

/-- A request as the holder of a key stamped it. -/
structure Stamped where
  publicKey : Text
  timestamp : Nat
  method : Text
  path : Text
  rawBody : List UInt8
deriving DecidableEq

/-- What the holder signed. -/
def Stamped.payload (cfg : ApiConfig) (s : Stamped) : Text :=
  StampVerifierGuard.signedPayload cfg s.timestamp (some s.rawBody)

/-- The stamps differ in nothing that is signed. -/
def Stamped.SameContent (s s' : Stamped) : Prop :=
  s.publicKey = s'.publicKey ∧ s.timestamp = s'.timestamp ∧ s.rawBody = s'.rawBody

namespace HttpRequest

/-- The stamp in the header, if it is well-formed. -/
def stamp? (request : HttpRequest) : Option StampVerifierGuard.Parsed :=
  ((truthy request.xStamp).map StampVerifierGuard.parseStamp).bind Except.toOption

/-- The request is the stamped one, as far as it tells. -/
def carries (request : HttpRequest) (s : Stamped) : Bool :=
  (request.stamp?.any fun stamp => stamp.timestamp = s.timestamp) && request.method = s.method &&
    request.path = s.path && request.rawBody.getD [] = s.rawBody

/-- The signature in the header is the key's over the timestamp and the body. -/
def signedBy (cfg : ApiConfig) (request : HttpRequest) (publicKey : Text) : Bool :=
  request.stamp?.any fun stamp =>
    (StampVerifierGuard.checkSignature cfg publicKey stamp.signatureB64
      (StampVerifierGuard.signedPayload cfg stamp.timestamp request.rawBody)).isOk

end HttpRequest

/-- The request is sent as this stamped one, with a signature of its key. -/
def Activity.presents (cfg : ApiConfig) (s : Stamped) : Activity → Bool
  | .canActivate _ request => request.carries s && request.signedBy cfg s.publicKey
  | _ => false

/-- The public key of a key id. -/
def publicKeyOf (keyId : Text) (t : ApiTables) : Option Text :=
  (t.apiKeys.find? fun row => row.keyId = keyId).map ApiKey.publicKey

/-- The guard has accepted the request for the key of the stamp, as the stamped one. -/
def acceptedAs (s : Stamped) (t : ApiTables) : Activity × Api ApiOutcome → Bool
  | (.canActivate _ request, .ret (.admitted (some user))) =>
    publicKeyOf user.keyId t = some s.publicKey && request.carries s
  | _ => false

/-- How many requests were accepted as this one. -/
def acceptances (activities : List Activity) (p : ApiPool) (s : Stamped) : Nat :=
  (activities.zip p.threads).countP (acceptedAs s p.state.tables)

/-! ### What is assumed -/

/-- The key is in the database in some state of some run. -/
def Registered (cfg : ApiConfig) (activities : List Activity) (w : ApiWorld) (publicKey : Text) :
    Prop :=
  ∃ p keyId, Reach (api cfg) Guard.any (apiPool cfg activities w) p ∧
    publicKeyOf keyId p.state.tables = some publicKey

/-- No request carries a signature of a registered key over its timestamp and body that
    the holder of the key did not make. -/
def Unforged (cfg : ApiConfig) (stamps : List Stamped) (activities : List Activity)
    (w : ApiWorld) : Prop :=
  ∀ route request, Activity.canActivate route request ∈ activities →
    ∀ stamp, request.stamp? = some stamp → ∀ publicKey, Registered cfg activities w publicKey →
      request.signedBy cfg publicKey = true →
      ∃ made ∈ stamps, made.publicKey = publicKey ∧
        made.payload cfg = StampVerifierGuard.signedPayload cfg stamp.timestamp request.rawBody

/-- A request that carries what a key has signed is the one the stamp was made for, and
    sent no more often than it was stamped. -/
def SentAsStamped (cfg : ApiConfig) (stamps : List Stamped) (activities : List Activity) : Prop :=
  ∀ s, (∃ made ∈ stamps, made.SameContent s) →
    activities.countP (Activity.presents cfg s) ≤ stamps.count s

/-! ### The signed text -/

/-- Time and body can be read off the signed text. -/
theorem signedPayload_inj {cfg : ApiConfig} (hdigest : Function.Injective cfg.digest)
    {timestamp timestamp' : Nat} {rawBody rawBody' : Option (List UInt8)}
    (heq : StampVerifierGuard.signedPayload cfg timestamp rawBody =
      StampVerifierGuard.signedPayload cfg timestamp' rawBody') :
    timestamp = timestamp' ∧ rawBody.getD [] = rawBody'.getD [] := by
  have hdot : ∀ n, '.' ∉ Text.decimal n := Text.not_mem_decimal (by decide)
  obtain ⟨htime, hbody⟩ := Text.append_cons_inj (hdot timestamp) (hdot timestamp') heq
  exact ⟨Text.decimal_injective htime, hdigest (Base64url.encode_injective hbody)⟩

/-! ### The guard -/

theorem publicKeyOf_grows {t t' : ApiTables} (h : t.Grows t') {keyId publicKey : Text}
    (hkey : publicKeyOf keyId t = some publicKey) : publicKeyOf keyId t' = some publicKey := by
  obtain ⟨key, hfound, rfl⟩ := Option.map_eq_some_iff.mp hkey
  obtain ⟨key', hfound', hfixed⟩ :=
    h.apiKeys.find? (P := fun fixed => decide (fixed.2.2.1 = keyId)) hfound
  have hsame : key'.publicKey = key.publicKey := congrArg (fun fixed => fixed.2.2.2) hfixed
  rw [← hsame]
  exact Option.map_eq_some_iff.mpr ⟨key', hfound', rfl⟩

section Guard

variable {cfg : ApiConfig} {request : HttpRequest} {guard : Guard ApiCmd Choice ApiEvent ApiWorld}

/-- The user was attached for a key that signed the request. -/
def Vouched (cfg : ApiConfig) (request : HttpRequest) (user : AuthUser) (t : ApiTables) : Prop :=
  ∃ publicKey, publicKeyOf user.keyId t = some publicKey ∧
    request.signedBy cfg publicKey = true

/-- The program ends with `Q`, whatever else goes on. -/
abbrev Ends (guard : Guard ApiCmd Choice ApiEvent ApiWorld) (cfg : ApiConfig) {α : Type}
    (Q : Except JsError α → ApiWorld → List ApiEntry → Prop) (p : Api α) (w : ApiWorld)
    (history : List ApiEntry) : Prop :=
  Keeps (apiGrowth cfg guard) (fun _ _ => True) Q p w history

theorem Vouched.grows {user : AuthUser} {t t' : ApiTables} (h : Vouched cfg request user t)
    (hgrows : t.Grows t') : Vouched cfg request user t' := by
  obtain ⟨publicKey, hkey, hsigned⟩ := h
  exact ⟨publicKey, publicKeyOf_grows hgrows hkey, hsigned⟩

/-- Continue after a part of which nothing needs to be known. -/
theorem keeps_skip {α β : Type} {Q : Except JsError β → ApiWorld → List ApiEntry → Prop}
    {p : Api α} {f : α → Api β} {w : ApiWorld} {history : List ApiEntry}
    (hok : ∀ value w' history', w.tables.Grows w'.tables → Ends guard cfg Q (f value) w' history')
    (herr : ∀ error w' history', Q (.error error) w' history') :
    Ends guard cfg Q (p >>= f) w history := by
  have hall : p.All (Harmless guard (api cfg) fun _ _ => True) :=
    p.all_true.mono fun _ _ _ _ _ _ _ _ _ _ _ => trivial
  refine Keeps.harmless_bind hall ?_ fun error w' history' _ => herr error w' history'
  intro value w' history' hgrows
  exact hok value w' history' hgrows.1

theorem acceptKey_vouched {stamp : StampVerifierGuard.Parsed} {key : ApiKey} {w : ApiWorld}
    {history : List ApiEntry} (hstamp : request.stamp? = some stamp)
    (hkey : publicKeyOf key.keyId w.tables = some key.publicKey) :
    Ends guard cfg (fun outcome w' _ => ∀ user, outcome = .ok user →
      Vouched cfg request user w'.tables)
      (StampVerifierGuard.acceptKey cfg request stamp key) w history := by
  simp only [StampVerifierGuard.acceptKey]
  split
  · rintro user ⟨⟩
  · refine keeps_skip (fun expired w' history' hgrows => ?_) (fun _ _ _ => (by simp))
    split
    · rintro user ⟨⟩
    · cases hsigned : StampVerifierGuard.checkSignature cfg key.publicKey stamp.signatureB64
          (StampVerifierGuard.signedPayload cfg stamp.timestamp request.rawBody) with
      | error error => rintro user ⟨⟩
      | ok value =>
        refine keeps_skip (fun _ w'' _ hgrows' => ?_) (fun _ _ _ => (by simp))
        refine keeps_skip (fun _ w''' _ hgrows'' => ?_) (fun _ _ _ => (by simp))
        refine keeps_skip (fun _ w4 _ hgrows3 => ?_) (fun _ _ _ => (by simp))
        intro user huser
        rw [← Except.ok.inj huser]
        refine ⟨key.publicKey, ?_, ?_⟩
        · exact publicKeyOf_grows (hgrows.trans (hgrows'.trans (hgrows''.trans hgrows3))) hkey
        · rw [HttpRequest.signedBy, hstamp, Option.any_some, hsigned]
          rfl

theorem verifyStamp_vouched {header : Text} {w : ApiWorld} {history : List ApiEntry}
    (hheader : truthy request.xStamp = some header) :
    Ends guard cfg (fun outcome w' _ => ∀ user, outcome = .ok user →
      Vouched cfg request user w'.tables)
      (StampVerifierGuard.verifyStamp cfg request header) w history := by
  rw [StampVerifierGuard.verifyStamp]
  cases hparsed : StampVerifierGuard.parseStamp header with
  | error error => rintro user ⟨⟩
  | ok stamp =>
    have hstamp : request.stamp? = some stamp := by
      rw [HttpRequest.stamp?, hheader, Option.map_some, hparsed]
      rfl
    change Ends guard cfg _ (Api.now >>= _) w history
    refine keeps_skip (fun now w' history' _ => ?_) (fun _ _ _ => (by simp))
    split
    · rintro user ⟨⟩
    · refine Keeps.bind (P := fun outcome w'' _ => ∀ key, outcome = .ok (some key) →
        publicKeyOf key.keyId w''.tables = some key.publicKey) ?_ ?_ (fun _ _ _ _ => (by simp))
      · refine Keeps.perform fun i choice reply s t history'' _ _ _ hexec => ⟨trivial, ?_⟩
        rintro key rfl
        obtain ⟨rfl, hfound⟩ := ApiCmd.exec_keyFindByKeyId hexec
        have hid := List.find?_some hfound.symm
        rw [decide_eq_true_eq] at hid
        rw [publicKeyOf, hid, ← hfound, Option.map_some]
      · intro row w'' history'' _ hrow
        cases row with
        | none => rintro user ⟨⟩
        | some key => exact acceptKey_vouched hstamp (hrow key rfl)

/-- A user the guard attaches is the user of a key that signed the request. -/
theorem canActivate_vouched {route : Route} {w : ApiWorld} {history : List ApiEntry} :
    Ends guard cfg (fun outcome w' _ => ∀ user, outcome = .ok (.admitted (some user)) →
      Vouched cfg request user w'.tables)
      ((Activity.canActivate route request).start cfg) w history := by
  have hguard : Ends guard cfg (fun outcome w' _ => ∀ user, outcome = .ok (some user) →
      Vouched cfg request user w'.tables)
      (StampVerifierGuard.canActivate cfg route request) w history := by
    simp only [StampVerifierGuard.canActivate]
    split
    · rintro user ⟨⟩
    · split
      · split
        · rintro user ⟨⟩
        · rintro user ⟨⟩
      · rename_i header hheader
        refine Keeps.bind (verifyStamp_vouched hheader) ?_ (fun _ _ _ _ => (by simp))
        rintro user w' history' _ hvouched user' huser
        rw [← Option.some.inj (Except.ok.inj huser)]
        exact hvouched user rfl
  refine Keeps.bind hguard ?_ (fun _ _ _ _ => (by simp))
  rintro user w' history' _ hvouched user' huser
  cases huser
  exact hvouched user' rfl

end Guard

/-! ### Every run -/

section Runs

variable {cfg : ApiConfig} {stamps : List Stamped} {activities : List Activity} {w : ApiWorld}
  {p : ApiPool}

/-- What is accepted as a request was sent as that request, with a signature of its key. -/
theorem presents_of_accepted (hreach : Reach (api cfg) Guard.any (apiPool cfg activities w) p)
    {s : Stamped} {activity : Activity} {thread : Api ApiOutcome}
    (hmem : (activity, thread) ∈ activities.zip p.threads)
    (haccepted : acceptedAs s p.state.tables (activity, thread) = true) :
    activity.presents cfg s = true := by
  obtain ⟨i, hi⟩ := List.getElem?_of_mem hmem
  obtain ⟨hactivity, hthread⟩ := List.getElem?_zip_eq_some.mp hi
  simp only [acceptedAs] at haccepted
  split at haccepted
  · rename_i route request user heq
    cases heq
    rw [Bool.and_eq_true, decide_eq_true_eq] at haccepted
    obtain ⟨hkey, hcarries⟩ := haccepted
    have hstart : (apiPool cfg activities w).threads[i]? =
        some ((Activity.canActivate route request).start cfg) := by
      simp [apiPool, hactivity]
    obtain ⟨thread', hthread', hkept⟩ := Reach.thread_keeps (apiGrowth cfg Guard.any)
      (fun outcome t _ t' _ hgrows h user huser => (h user huser).grows hgrows.1) hreach hstart
      canActivate_vouched
    rw [hthread, Option.some.injEq] at hthread'
    subst hthread'
    obtain ⟨publicKey, hkey', hsigned⟩ := hkept user rfl
    rw [hkey', Option.some.injEq] at hkey
    rw [Activity.presents, hcarries, ← hkey, hsigned]
    rfl
  · cases haccepted

/-- What is sent with a signature of its registered key has the content of a stamp. -/
theorem stamped_of_presents (hdigest : Function.Injective cfg.digest)
    (hunforged : Unforged cfg stamps activities w) {s : Stamped}
    (hregistered : Registered cfg activities w s.publicKey) {activity : Activity}
    (hmem : activity ∈ activities) (hpresents : activity.presents cfg s = true) :
    ∃ made ∈ stamps, made.SameContent s := by
  cases activity with
  | canActivate route request =>
    simp only [Activity.presents, HttpRequest.carries, Bool.and_eq_true, Option.any_eq_true,
      decide_eq_true_eq] at hpresents
    obtain ⟨⟨⟨⟨⟨stamp, hstamp, htime⟩, _⟩, _⟩, hbody⟩, hsigned⟩ := hpresents
    obtain ⟨made, hmade, hkey, hpayload⟩ :=
      hunforged route request hmem stamp hstamp _ hregistered hsigned
    obtain ⟨htime', hbody'⟩ := signedPayload_inj hdigest hpayload
    exact ⟨made, hmade, hkey, htime'.trans htime, hbody'.trans hbody⟩
  | _ => cases hpresents

/-- **An accepted request carries the timestamp and body of a stamp of its key.** -/
theorem stamped_of_accepted (hdigest : Function.Injective cfg.digest)
    (hunforged : Unforged cfg stamps activities w)
    (hreach : Reach (api cfg) Guard.any (apiPool cfg activities w) p) {s : Stamped}
    (haccepted : 0 < acceptances activities p s) : ∃ made ∈ stamps, made.SameContent s := by
  obtain ⟨⟨activity, thread⟩, hmem, hpair⟩ := List.countP_pos_iff.mp haccepted
  refine stamped_of_presents hdigest hunforged ?_ (List.of_mem_zip hmem).1
    (presents_of_accepted hreach hmem hpair)
  simp only [acceptedAs] at hpair
  split at hpair
  · rename_i user _
    rw [Bool.and_eq_true, decide_eq_true_eq] at hpair
    exact ⟨p, user.keyId, hreach, hpair.1⟩
  · cases hpair

/-- Requests that are sent as they were stamped are accepted no more often than that. -/
theorem acceptances_le (hdigest : Function.Injective cfg.digest)
    (hunforged : Unforged cfg stamps activities w) (hsent : SentAsStamped cfg stamps activities)
    (hreach : Reach (api cfg) Guard.any (apiPool cfg activities w) p) (s : Stamped) :
    acceptances activities p s ≤ stamps.count s := by
  have hfirst : (activities.zip p.threads).countP (fun pair => pair.1.presents cfg s) ≤
      activities.countP (Activity.presents cfg s) := by
    have hleading : (activities.zip p.threads).map Prod.fst <+: activities := by
      rw [List.zip_eq_zip_take_min, List.map_fst_zip (by simp)]
      exact List.take_prefix _ _
    calc (activities.zip p.threads).countP (fun pair => pair.1.presents cfg s)
        = ((activities.zip p.threads).map Prod.fst).countP (Activity.presents cfg s) := by
          rw [List.countP_map]
          rfl
      _ ≤ activities.countP (Activity.presents cfg s) := hleading.sublist.countP_le
  have haccepted : acceptances activities p s ≤
      (activities.zip p.threads).countP (fun pair => pair.1.presents cfg s) :=
    List.countP_mono_left fun pair hpair h => presents_of_accepted hreach hpair h
  by_cases hmade : ∃ made ∈ stamps, made.SameContent s
  · exact haccepted.trans (hfirst.trans (hsent s hmade))
  · rcases Nat.eq_zero_or_pos (acceptances activities p s) with hnone | hsome
    · rw [hnone]
      exact Nat.zero_le _
    · exact absurd (stamped_of_accepted hdigest hunforged hreach hsome) hmade

end Runs

/-! ### The condition is needed -/

/-- A request that is accepted is accepted with any other method and path. -/
theorem StampVerifierGuard.Accepts.reroute {cfg : ApiConfig} {request : HttpRequest}
    {w : ApiWorld} {stamp : Parsed} {key : ApiKey} (h : Accepts cfg request w stamp key)
    (method path : Text) : Accepts cfg { request with method, path } w stamp key :=
  ⟨h.parsed, h.timely, h.found, h.active, h.unexpired, h.signed⟩

/-- Every signature of a key that is sent is timely and comes with the id of that key,
    which is in use. -/
def Live (cfg : ApiConfig) (w : ApiWorld) (activities : List Activity) : Prop :=
  ∀ activity ∈ activities, ∀ s, activity.presents cfg s = true →
    ∃ route request stamp key, activity = .canActivate route request ∧ route.isPublic = false ∧
      StampVerifierGuard.Accepts cfg request w stamp key ∧ key.publicKey = s.publicKey

section Needed

variable {cfg : ApiConfig} {stamps : List Stamped} {activities : List Activity} {w : ApiWorld}

/-- The guard lets the requests through that present the stamp, one after the other. -/
theorem reach_accepting (hlive : Live cfg w activities) (s : Stamped) :
    ∀ k ≤ activities.length, ∃ p, Reach (api cfg) Guard.any (apiPool cfg activities w) p ∧
      p.state = w ∧ activities.length ≤ p.threads.length ∧
      (∀ i activity, i < k → activities[i]? = some activity → activity.presents cfg s = true →
        ∃ thread, p.threads[i]? = some thread ∧
          acceptedAs s w.tables (activity, thread) = true) ∧
      ∀ i, k ≤ i → i < activities.length →
        p.threads[i]? = (activities.map (Activity.start cfg))[i]? := by
  intro k
  induction k with
  | zero =>
    intro _
    refine ⟨apiPool cfg activities w, .refl, rfl, by simp [apiPool], nofun, fun _ _ _ => rfl⟩
  | succ k ih =>
    intro hk
    obtain ⟨p, hreach, hstate, hlength, hdone, hrest⟩ := ih (Nat.le_of_succ_le hk)
    by_cases hpresents : activities[k].presents cfg s = true
    · obtain ⟨route, request, stamp, key, hactivity, hroute, haccepts, hkey⟩ :=
        hlive _ (List.getElem_mem hk) s hpresents
      have hthread : p.threads[k]? = some ((Activity.canActivate route request).start cfg) := by
        rw [hrest k le_rfl hk, List.getElem?_map, List.getElem?_eq_getElem hk, hactivity]
        rfl
      have hattains : Attains (api cfg) Guard.any ((Activity.canActivate route request).start cfg) w
          (.ok (.admitted (some key.user))) w :=
        (haccepts.attains hroute).bind (.ret _ w)
      obtain ⟨history', hrun⟩ := hattains []
      obtain ⟨p', hreach', hstate', hended, hlength', hothers⟩ := hrun.in_pool hstate hthread
      refine ⟨p', hreach.trans hreach', hstate', hlength.trans hlength', ?_, ?_⟩
      · intro i activity hi hget hpresent
        by_cases hik : i = k
        · subst hik
          rw [List.getElem?_eq_getElem hk, Option.some.injEq] at hget
          refine ⟨_, hended, ?_⟩
          rw [← hget, hactivity] at hpresent ⊢
          rw [Activity.presents, Bool.and_eq_true] at hpresent
          have hid := List.find?_some haccepts.found
          rw [decide_eq_true_eq] at hid
          have hpublic : publicKeyOf key.user.keyId w.tables = some s.publicKey := by
            rw [publicKeyOf, ApiKey.user, hid, haccepts.found, Option.map_some, hkey]
          simp [acceptedAs, Prog.ended, hpublic, hpresent.1]
        · obtain ⟨thread, hthread', haccepted⟩ := hdone i activity (by omega) hget hpresent
          exact ⟨thread, (hothers i (by omega) hik).trans hthread', haccepted⟩
      · intro i hi hlt
        rw [hothers i (by omega) (by omega), hrest i (by omega) hlt]
    · refine ⟨p, hreach, hstate, hlength, ?_, fun i hi hlt => hrest i (by omega) hlt⟩
      intro i activity hi hget hpresent
      by_cases hik : i = k
      · subst hik
        rw [List.getElem?_eq_getElem hk, Option.some.injEq] at hget
        exact absurd (hget ▸ hpresent) hpresents
      · exact hdone i activity (by omega) hget hpresent

/-- What every run accepts no more often than it was stamped is sent so. -/
theorem sentAsStamped_of_runs (hlive : Live cfg w activities)
    (hruns : ∀ p s, Reach (api cfg) Guard.any (apiPool cfg activities w) p →
      acceptances activities p s ≤ stamps.count s) : SentAsStamped cfg stamps activities := by
  intro s _
  obtain ⟨p, hreach, hstate, hlength, hdone, _⟩ := reach_accepting hlive s _ le_rfl
  have haccepted : activities.countP (Activity.presents cfg s) ≤ acceptances activities p s := by
    calc activities.countP (Activity.presents cfg s)
        = ((activities.zip p.threads).map Prod.fst).countP (Activity.presents cfg s) := by
          rw [List.map_fst_zip hlength]
      _ = (activities.zip p.threads).countP (fun pair => pair.1.presents cfg s) := by
          rw [List.countP_map]
          rfl
      _ ≤ acceptances activities p s := by
          apply List.countP_mono_left
          rintro ⟨activity, thread⟩ hmem hpresents
          obtain ⟨i, hi⟩ := List.getElem?_of_mem hmem
          obtain ⟨hactivity, hthread⟩ := List.getElem?_zip_eq_some.mp hi
          obtain ⟨thread', hthread', haccepted⟩ := hdone i activity
            (List.getElem?_eq_some_iff.mp hactivity).1 hactivity hpresents
          obtain rfl : thread = thread' := by
            rw [hthread, Option.some.injEq] at hthread'
            exact hthread'
          rw [hstate]
          exact haccepted
  exact haccepted.trans (hruns p s hreach)

/-- **Every accepted request is one its key stamped, and each stamp is good for one**, in
    every run in which signatures are sent as they were stamped; and only then, where
    the signatures that are sent are live.  However they are sent, what is accepted has
    the timestamp and the body of a stamp. -/
theorem accepted_as_stamped (hdigest : Function.Injective cfg.digest)
    (hunforged : Unforged cfg stamps activities w) :
    (∀ p s, Reach (api cfg) Guard.any (apiPool cfg activities w) p →
      0 < acceptances activities p s → ∃ made ∈ stamps, made.SameContent s) ∧
    (SentAsStamped cfg stamps activities → ∀ p s,
      Reach (api cfg) Guard.any (apiPool cfg activities w) p →
        acceptances activities p s ≤ stamps.count s) ∧
    (Live cfg w activities → (∀ p s, Reach (api cfg) Guard.any (apiPool cfg activities w) p →
      acceptances activities p s ≤ stamps.count s) → SentAsStamped cfg stamps activities) := by
  refine ⟨?_, ?_, ?_⟩
  · intro p s hreach haccepted
    exact stamped_of_accepted hdigest hunforged hreach haccepted
  · intro hsent p s hreach
    exact acceptances_le hdigest hunforged hsent hreach s
  · intro hlive hruns
    exact sentAsStamped_of_runs hlive hruns

end Needed

namespace ApiSample

/-- The key holder asks for the policies. -/
def listPolicies : Stamped where
  publicKey := publicKey
  timestamp := 7
  method := "GET".toList
  path := "/policies".toList
  rawBody := []

/-- Nobody has stamped this. -/
def deletePolicy : Stamped :=
  { listPolicies with method := "DELETE".toList, path := "/policies/1".toList }

/-- Send the stamp of the holder with this method and path. -/
def send (s : Stamped) : Activity := .canActivate ⟨false, false⟩ (stamped s.method s.path)

/-- The stamp of the holder on a body that was not stamped. -/
def tamperedRequest : HttpRequest :=
  { stamped "GET".toList "/policies".toList with rawBody := some [1] }

def tampered : Activity := .canActivate ⟨false, false⟩ tamperedRequest

/-- The moves of the guard for one request. -/
def admitting (i : Nat) : List (Move Choice ApiEvent) :=
  List.replicate 4 (.thread i (.done keyRow))

/-- The moves of the guard up to the signature. -/
def refusing (i : Nat) : List (Move Choice ApiEvent) :=
  List.replicate 2 (.thread i (.done keyRow))

theorem stamp_stamped (method path : Text) :
    (stamped method path).stamp? = some ⟨Base64url.encode signature, 7, keyId⟩ := by
  have hparsed := (accepts [] method path).parsed
  rw [HttpRequest.stamp?, hparsed]
  rfl

theorem tampered_unsigned (publicKey' : Text) :
    tamperedRequest.signedBy config publicKey' = false := by
  have hstamp : tamperedRequest.stamp? = some ⟨Base64url.encode signature, 7, keyId⟩ :=
    stamp_stamped "GET".toList "/policies".toList
  have hpayload : StampVerifierGuard.signedPayload config 7 tamperedRequest.rawBody ≠ payload := by
    decide
  have hverify : ∀ bytes, config.verify publicKey'
      (StampVerifierGuard.signedPayload config 7 tamperedRequest.rawBody) bytes = some false := by
    intro bytes
    simp only [config, Option.some.injEq, decide_eq_false_iff_not]
    rintro ⟨_, heq, _⟩
    exact hpayload heq
  simp only [HttpRequest.signedBy, hstamp, Option.any_some, StampVerifierGuard.checkSignature,
    hverify]
  split <;> rfl

theorem unforged (sent : List Stamped) (others : List Activity)
    (hothers : ∀ activity ∈ others, activity = tampered) (w : ApiWorld) :
    Unforged config [listPolicies] (sent.map send ++ others) w := by
  intro route request hmem stamp hstamp publicKey' _ hsigned
  rcases List.mem_append.mp hmem with hsent | hother
  · obtain ⟨s, _, heq⟩ := List.mem_map.mp hsent
    cases heq
    rw [HttpRequest.signedBy, hstamp, Option.any_some] at hsigned
    rw [stamp_stamped, Option.some.injEq] at hstamp
    subst hstamp
    refine ⟨listPolicies, List.mem_singleton.mpr rfl, ?_, ?_⟩
    · by_contra hkey
      have hverify : ∀ text bytes, config.verify publicKey' text bytes = some false := by
        intro text bytes
        simp only [config, Option.some.injEq, decide_eq_false_iff_not]
        rintro ⟨heq, _⟩
        exact hkey heq.symm
      simp only [StampVerifierGuard.checkSignature, hverify] at hsigned
      split at hsigned <;> cases hsigned
    · change listPolicies.payload config = StampVerifierGuard.signedPayload config 7 none
      decide
  · cases hothers _ hother
    rw [tampered_unsigned] at hsigned
    cases hsigned

end ApiSample

theorem ApiSample.sentAsStamped :
    SentAsStamped config [listPolicies] ([listPolicies].map send ++ [tampered]) := by
  rintro s ⟨made, hmade, hkey, -, -⟩
  rw [List.mem_singleton.mp hmade] at hkey
  have hrefused : tampered.presents config s = false := by
    rw [tampered, Activity.presents, tampered_unsigned, Bool.and_false]
  rw [List.countP_append, List.countP_singleton, hrefused, if_neg Bool.false_ne_true, Nat.add_zero]
  by_cases hpresents : (send listPolicies).presents config s = true
  · have hcarries : (stamped listPolicies.method listPolicies.path).carries s = true :=
      (Bool.and_eq_true _ _ ▸ hpresents).1
    simp only [HttpRequest.carries, stamp_stamped, Option.any_some, Bool.and_eq_true,
      decide_eq_true_eq] at hcarries
    obtain ⟨⟨⟨htime, hmethod⟩, hpath⟩, hbody⟩ := hcarries
    have hs : s = listPolicies := by
      cases s
      simp only [listPolicies, Stamped.mk.injEq]
      exact ⟨hkey.symm, htime.symm, hmethod.symm, hpath.symm, hbody.symm⟩
    rw [hs, List.count_singleton_self]
    exact List.countP_le_length
  · rw [List.map_singleton, List.countP_singleton, if_neg hpresents]
    exact Nat.zero_le _

open ApiSample in
/-- The stamped request is accepted, once, and the stamp is refused with another body. -/
theorem accepted_as_stamped_once :
    ∃ p, Reach (api config) .any (apiPool config ([listPolicies].map send ++ [tampered])
        (world [key []])) p ∧
      acceptances ([listPolicies].map send ++ [tampered]) p listPolicies = 1 ∧
      ((p.threads.take 2).map fun thread => (thread.isDone, thread.value?.isSome)) =
        [(true, true), (true, false)] ∧
      ∀ s, acceptances ([listPolicies].map send ++ [tampered]) p s ≤ [listPolicies].count s := by
  obtain ⟨p, hreach, hp⟩ := Reach.exists_of_run (api config) .any
    (apiPool config ([listPolicies].map send ++ [tampered]) (world [key []]))
    (admitting 0 ++ refusing 1)
    (fun p => decide (acceptances ([listPolicies].map send ++ [tampered]) p listPolicies = 1 ∧
      ((p.threads.take 2).map fun thread => (thread.isDone, thread.value?.isSome)) =
        [(true, true), (true, false)])) (by decide)
  obtain ⟨haccepted, hended⟩ := of_decide_eq_true hp
  refine ⟨p, hreach, haccepted, hended, fun s => ?_⟩
  exact (accepted_as_stamped (fun _ _ h => h) (unforged [listPolicies] [tampered]
    (fun _ h => List.mem_singleton.mp h) _)).2.1 sentAsStamped p s hreach

open ApiSample in
/-- One stamped `GET` is accepted twice, and for a `DELETE`. -/
theorem stamp_reused :
    Unforged config [listPolicies] (List.map send [listPolicies, listPolicies, deletePolicy])
        (world [key []]) ∧
      ∃ p, Reach (api config) .any (apiPool config
          (List.map send [listPolicies, listPolicies, deletePolicy]) (world [key []])) p ∧
        [listPolicies].count listPolicies <
          acceptances (List.map send [listPolicies, listPolicies, deletePolicy]) p listPolicies ∧
        [listPolicies].count deletePolicy <
          acceptances (List.map send [listPolicies, listPolicies, deletePolicy]) p deletePolicy := by
  refine ⟨?_, ?_⟩
  · have hunforged := unforged [listPolicies, listPolicies, deletePolicy] []
      (fun _ h => absurd h List.not_mem_nil) (world [key []])
    rwa [List.append_nil] at hunforged
  obtain ⟨p, hreach, hp⟩ := Reach.exists_of_run (api config) .any (apiPool config
      (List.map send [listPolicies, listPolicies, deletePolicy]) (world [key []]))
    (admitting 0 ++ admitting 1 ++ admitting 2)
    (fun p => decide (acceptances (List.map send [listPolicies, listPolicies, deletePolicy]) p
        listPolicies = 2 ∧
      acceptances (List.map send [listPolicies, listPolicies, deletePolicy]) p deletePolicy = 1))
    (by decide)
  obtain ⟨hlist, hdelete⟩ := of_decide_eq_true hp
  refine ⟨p, hreach, ?_, ?_⟩
  · rw [hlist]
    decide
  · rw [hdelete]
    decide

end BrokeTurnkey
