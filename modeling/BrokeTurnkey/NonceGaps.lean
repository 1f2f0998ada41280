import BrokeTurnkey.NonceSafety
import BrokeTurnkey.Stages
import Mathlib.Data.Int.Range

/-!
# Where the counter stands after concurrent calls

Calls on one wallet and chain take nonces from one counter.  A call whose signature
fails gives its nonce back only while it is the newest, and a rejected broadcast gives
nothing back: `syncNonce` only raises the counter.  The code accepts that nonces are
consumed for good this way.  So once all calls and their background jobs have finished,
the counter is at or above the first nonce that the chain has not accepted, and it is
equal to it exactly where every release found the newest nonce and every transaction
that was handed to the providers was accepted.
-/

namespace BrokeTurnkey

open Interaction

namespace NonceGaps

/-! ### What the chain and the counter are at a point of a run -/

/-- A provider has accepted a transaction with this nonce. -/
def Accepted (history : List ServiceEntry) (nonce : Int) : Prop :=
  ∃ entry ∈ history, entry.choice.accepted = true ∧
    ∃ rawTx ∈ entry.command.submits, rawTx.fields.nonce = nonce

/-- The chain's next expected nonce, where `first` was it at the start. -/
structure Expected (first : Nat) (history : List ServiceEntry) (nonce : Int) : Prop where
  low : (first : Int) ≤ nonce
  notAccepted : ¬ Accepted history nonce
  accepted : ∀ n, (first : Int) ≤ n → n < nonce → Accepted history n

/-- The value the next reservation returns. -/
def nextNonce (slot : Uuid × Nat) (t : Tables) : Int := (t.counter slot).getD 0

/-- The counter that the reservations and releases of a run lead to. -/
def counterAfter (first : Int) : List ServiceEntry → Int
  | [] => first
  | entry :: past =>
    match entry.command with
    | .sql (.nonceReserve _ _) =>
      if entry.answered = true then counterAfter first past + 1 else counterAfter first past
    | .sql (.nonceRelease _ _ nonce) =>
      if counterAfter first past = nonce + 1 then nonce else counterAfter first past
    | _ => counterAfter first past

/-- The nonce a command gives back. -/
def releases : Cmd → Option Int
  | .sql (.nonceRelease _ _ nonce) => some nonce
  | _ => none

/-- Every release found its nonce to be the newest. -/
def ReleasesNewest (first : Int) : List ServiceEntry → Prop
  | [] => True
  | entry :: past =>
    (∀ nonce ∈ releases entry.command, counterAfter first past = nonce + 1) ∧
      ReleasesNewest first past

/-- Every transaction that was handed to `broadcastTransaction` was accepted. -/
def AllAccepted (history : List ServiceEntry) : Prop :=
  ∀ entry ∈ history, ∀ rawTx ∈ entry.command.handed, Accepted history rawTx.fields.nonce

/-! ### What is assumed of a run -/

/-- The database answers, and values fit their columns; a provider accepts what it answers
    with a result, and nothing else; and the pending count is the chain's next expected
    nonce. -/
def HonestAnswer (first : Nat) (past : List ServiceEntry) : Cmd → Choice → Prop
  | .sql statement, choice =>
    choice.ran = true ∧ choice.isLost = false ∧ (Cmd.sql statement).fits = true
  | .fetch _ (.sendRawTransaction _), choice => choice.accepted = choice.result.isSome
  | .fetch _ (.getTransactionCount _), choice =>
      ∀ value ∈ choice.result, ∃ n ∈ value.count, Expected first past n
  | _, _ => True

def HonestEntry (first : Nat) (past : List ServiceEntry) (entry : ServiceEntry) : Prop :=
  HonestAnswer first past entry.command entry.choice

def HonestRun (first : Nat) : List ServiceEntry → Prop
  | [] => True
  | entry :: past => HonestEntry first past entry ∧ HonestRun first past

/-! ### What a call has of its nonce -/

/-- Where the nonce of a thread stands. -/
inductive Hold where
  | out
  | held (nonce : Int)
  | handed (nonce : Int)
  | taken (nonce : Int)
  | wasted (nonce : Int)

def Hold.ticket : Hold → Option Int
  | .out => none
  | .held nonce => some nonce
  | .handed nonce => some nonce
  | .taken nonce => some nonce
  | .wasted nonce => some nonce

def holdOf : Phase → Hold
  | .held _ nonce => .held nonce
  | .paying _ txFields => .held txFields.nonce
  | .refused _ txFields => .held txFields.nonce
  | .releasing txFields => .held txFields.nonce
  | .wasted nonce => .wasted nonce
  | .signed _ txFields _ => .held txFields.nonce
  | .stored _ txFields _ => .held txFields.nonce
  | .sending _ txFields _ => .handed txFields.nonce
  | .taken _ txFields => .taken txFields.nonce
  | .unrecorded _ txFields => .taken txFields.nonce
  | .rejected txFields => .handed txFields.nonce
  | .recorded txFields => .taken txFields.nonce
  | _ => .out

def hold : Stage → Hold
  | .client _ phase => holdOf phase
  | _ => .out

/-- What is known of the data of a phase in an honest run. -/
def Coherent (call : SignCall) : Phase → Prop
  | .paying _ txFields => txFields.chainId = call.req.chainId
  | .refused _ txFields => txFields.chainId = call.req.chainId
  | .releasing txFields => txFields.chainId = call.req.chainId
  | .signed _ txFields result => result.rawTx.fields = txFields
  | .stored _ txFields result => result.rawTx.fields = txFields
  | .sending _ txFields result => result.rawTx.fields = txFields
  | .unrecorded _ _ => False
  | _ => True

/-! ### The statements on the counter of one wallet and chain -/

section Counter

variable {slot : Uuid × Nat} {walletId : Text} {chainId : Nat} {t : Tables}

theorem counter_setNonce_self (hchain : chainId = slot.2) (nonce : Int) :
    (t.setNonce slot.1 chainId nonce).counter slot = some nonce := by
  rw [Tables.counter_setNonce, hchain, Function.update_self]

/-- A reservation returns the counter and advances it. -/
theorem reserve_spec (hwallet : Uuid.ofText walletId = some slot.1) (hchain : chainId = slot.2) :
    (WalletNonceRepository.reserve walletId chainId t).1 = .ok (nextNonce slot t) ∧
        nextNonce slot t + 1 ≤ int4Max ∧
        (WalletNonceRepository.reserve walletId chainId t).2.counter slot =
          some (nextNonce slot t + 1) ∨
      (∃ error, (WalletNonceRepository.reserve walletId chainId t).1 = .error error) ∧
        (WalletNonceRepository.reserve walletId chainId t).2 = t := by
  have hcounter : t.counter slot = t.nonces slot.1 slot.2 := rfl
  simp only [WalletNonceRepository.reserve, withUuid, hwallet, nextNonce, hcounter, ← hchain]
  cases hnonce : t.nonces slot.1 chainId with
  | none => exact .inl ⟨rfl, by decide, counter_setNonce_self hchain 1⟩
  | some nonce =>
    dsimp only
    split
    · exact .inr ⟨⟨_, rfl⟩, rfl⟩
    · rename_i hle
      exact .inl ⟨rfl, by simpa using hle, counter_setNonce_self hchain _⟩

/-- A release rewinds the counter where the nonce is the newest, and says so. -/
theorem release_spec (hwallet : Uuid.ofText walletId = some slot.1) (hchain : chainId = slot.2)
    {nonce : Int} (hlow : 0 ≤ nonce) (hhigh : nonce + 1 ≤ int4Max) :
    nextNonce slot t = nonce + 1 ∧
        (WalletNonceRepository.release walletId chainId nonce t).1 = .ok true ∧
        (WalletNonceRepository.release walletId chainId nonce t).2.counter slot = some nonce ∨
      nextNonce slot t ≠ nonce + 1 ∧
        (WalletNonceRepository.release walletId chainId nonce t).1 = .ok false ∧
        (WalletNonceRepository.release walletId chainId nonce t).2 = t := by
  have hrange : ¬ (nonce < int4Min ∨ nonce + 1 > int4Max) := by
    simp only [int4Min, int4Max] at hhigh ⊢
    omega
  have hcounter : t.counter slot = t.nonces slot.1 slot.2 := rfl
  simp only [WalletNonceRepository.release, withUuid, hwallet, hrange, if_false, nextNonce,
    hcounter, ← hchain]
  by_cases hnewest : t.nonces slot.1 chainId = some (nonce + 1)
  · simp only [hnewest, if_true, Option.getD_some]
    exact .inl ⟨trivial, trivial, counter_setNonce_self hchain nonce⟩
  · simp only [hnewest, if_false]
    refine .inr ⟨fun hnext => hnewest ?_, trivial, trivial⟩
    cases hnonce : t.nonces slot.1 chainId with
    | none =>
      rw [hnonce, Option.getD_none] at hnext
      omega
    | some n =>
      rw [hnonce, Option.getD_some] at hnext
      rw [hnext]

/-- A synchronisation with a count that is not above the counter leaves it. -/
theorem sync_spec (slot : Uuid × Nat) {nonce : Int} (hle : nonce ≤ nextNonce slot t)
    (hunset : t.counter slot = none → nonce = 0) :
    nextNonce slot (WalletNonceRepository.syncFromChain walletId chainId (some nonce) t).2 =
      nextNonce slot t := by
  simp only [WalletNonceRepository.syncFromChain, withUuid]
  split
  · rename_i wallet hwallet
    by_cases hslot : (wallet, chainId) = slot
    · subst hslot
      have hcounter : t.counter (wallet, chainId) = t.nonces wallet chainId := rfl
      rw [nextNonce, hcounter] at hle
      split
      · rfl
      · split
        · rename_i hnone
          rw [nextNonce, nextNonce, Tables.counter_setNonce, Function.update_self, hcounter, hnone,
            hunset hnone]
          rfl
        · rename_i n hsome
          rw [hsome, Option.getD_some] at hle
          have hnot : ¬ n < nonce := by omega
          simp only [hnot, if_false]
    · have hother : ∀ n, nextNonce slot (t.setNonce wallet chainId n) = nextNonce slot t := by
        intro n
        rw [nextNonce, Tables.counter_setNonce, Function.update_of_ne (Ne.symm hslot), nextNonce]
      split
      · rfl
      · split
        · exact hother _
        · split
          · exact hother _
          · rfl
  · rfl

end Counter

/-! ### What a transition means for the nonces -/

/-- The entry neither hands over, nor has accepted, nor gives back a nonce. -/
structure Quiet (entry : ServiceEntry) : Prop where
  handed : entry.command.handed = none
  accepted : entry.choice.accepted = true → entry.command.submits = none
  releases : releases entry.command = none

/-- The effect of an entry on the counters before and after it and on its thread. -/
inductive Effect (first : Int) (past : List ServiceEntry) (entry : ServiceEntry)
    (next next' : Int) : Hold → Hold → Prop where
  | same {h : Hold} (hnext : next' = next)
      (hafter : counterAfter first (entry :: past) = counterAfter first past)
      (hquiet : Quiet entry) : Effect first past entry next next' h h
  | reserve (hmax : next + 1 ≤ int4Max) (hnext : next' = next + 1)
      (hafter : counterAfter first (entry :: past) = counterAfter first past + 1)
      (hquiet : Quiet entry) : Effect first past entry next next' .out (.held next)
  | release {walletId : Text} {chainId : Nat} {nonce : Int} (hnewest : next = nonce + 1) (hnext : next' = nonce)
      (hreleases : entry.command = .sql (.nonceRelease walletId chainId nonce)) :
      Effect first past entry next next' (.held nonce) .out
  | waste {walletId : Text} {chainId : Nat} {nonce : Int} (hnewest : next ≠ nonce + 1)
      (hnext : next' = next)
      (hreleases : entry.command = .sql (.nonceRelease walletId chainId nonce)) :
      Effect first past entry next next' (.held nonce) (.wasted nonce)
  | hand {rawTx : RawTx} {chainId : Nat} (hnext : next' = next)
      (hcommand : entry.command = .log (.broadcasting rawTx chainId)) :
      Effect first past entry next next' (.held rawTx.fields.nonce) (.handed rawTx.fields.nonce)
  | take {rawTx : RawTx} {rpcUrl : Text} (hnext : next' = next)
      (hcommand : entry.command = .fetch rpcUrl (.sendRawTransaction rawTx))
      (haccepted : entry.choice.accepted = true) :
      Effect first past entry next next' (.handed rawTx.fields.nonce) (.taken rawTx.fields.nonce)

/-- Other commands than reservations, releases and synchronisations. -/
theorem steady_of_writes {command : Cmd} {choice : Choice} {w w' : World}
    {reply : Except JsError command.Reply} (hexec : exec command choice w = some (reply, w'))
    (hwrites : command.writes ≠ some .nonces) (slot : Uuid × Nat) (first : Int) (i : Nat)
    (past : List ServiceEntry) :
    nextNonce slot w'.tables = nextNonce slot w.tables ∧
      counterAfter first (entryOf i command choice reply :: past) = counterAfter first past ∧
      releases command = none := by
  refine ⟨?_, ?_, ?_⟩
  · rw [nextNonce, Tables.counter, (exec_agree hexec).nonces hwrites, nextNonce, Tables.counter]
  · cases command with
    | sql statement =>
      cases statement with
      | nonceReserve walletId chainId => exact absurd rfl hwrites
      | nonceRelease walletId chainId nonce => exact absurd rfl hwrites
      | _ => rfl
    | _ => rfl
  · cases command with
    | sql statement =>
      cases statement with
      | nonceRelease walletId chainId nonce => exact absurd rfl hwrites
      | _ => rfl
    | _ => rfl

/-- A statement that was answered. -/
theorem exec_answered {statement : Sql} {choice : Choice} {w w' : World}
    {reply : Except JsError statement.Reply}
    (hexec : exec (.sql statement) choice w = some (reply, w'))
    (hran : choice.ran = true) (hlost : choice.isLost = false) :
    ∃ id, w'.tables = (statement.exec id w.clock w.tables).2 ∧
      reply = (statement.exec id w.clock w.tables).1 := by
  rcases exec_sql hexec with ⟨id, _, rfl, ⟨_, rfl⟩ | ⟨error, rfl, _, _⟩⟩ | ⟨error, rfl, _, _, _⟩
  · exact ⟨id, rfl, rfl⟩
  · cases hlost
  · cases hran

section Step

variable {cfg : Config} {first : Nat} {slot : Uuid × Nat} {i : Nat} {s s' : Stage} {command : Cmd}
  {choice : Choice} {w w' : World} {past : List ServiceEntry}
  {reply : Except JsError command.Reply}

/-- A command that is not about nonces, and hands over or has accepted nothing. -/
theorem effect_same (hexec : exec command choice w = some (reply, w'))
    (hwrites : command.writes ≠ some .nonces) (hhanded : command.handed = none)
    (haccepted : choice.accepted = true → command.submits = none) (h : Hold) :
    Effect first past (entryOf i command choice reply) (nextNonce slot w.tables)
      (nextNonce slot w'.tables) h h := by
  obtain ⟨hnext, hafter, hreleases⟩ := steady_of_writes hexec hwrites slot first i past
  exact .same hnext hafter ⟨hhanded, haccepted, hreleases⟩

theorem handed_of_query (h : command.isQuery = true) : command.handed = none := by
  cases command with
  | log line => cases h
  | _ => rfl

theorem slot_of_call {call : SignCall} (h : call.slot = some slot) :
    Uuid.ofText call.walletId = some slot.1 ∧ call.req.chainId = slot.2 := by
  obtain ⟨wallet, hwallet, rfl⟩ := Option.map_eq_some_iff.mp h
  exact ⟨hwallet, rfl⟩

theorem effect_reserve {call : SignCall} (hslot : call.slot = some slot)
    {reply : Except JsError Int}
    (hexec : exec (.sql (.nonceReserve call.walletId call.req.chainId)) choice w = some (reply, w'))
    (hhonest : choice.ran = true ∧ choice.isLost = false) :
    (∀ nonce, reply = .ok nonce → Effect first past
      ⟨i, .sql (.nonceReserve call.walletId call.req.chainId), choice, reply.isOk⟩
      (nextNonce slot w.tables) (nextNonce slot w'.tables) .out (.held nonce)) ∧
    ∀ error, reply = .error error → Effect first past
      ⟨i, .sql (.nonceReserve call.walletId call.req.chainId), choice, reply.isOk⟩
      (nextNonce slot w.tables) (nextNonce slot w'.tables) .out .out := by
  obtain ⟨hwallet, hchain⟩ := slot_of_call hslot
  obtain ⟨id, htables, hreply⟩ := exec_answered hexec hhonest.1 hhonest.2
  simp only [Sql.exec] at htables hreply
  constructor
  · rintro nonce rfl
    rcases reserve_spec hwallet hchain with ⟨hok, hmax, hcounter⟩ | ⟨⟨error, herror⟩, _⟩
    · have hnonce : nonce = nextNonce slot w.tables := Except.ok.inj (hreply.trans hok)
      rw [hnonce]
      apply Effect.reserve hmax
      · rw [htables, nextNonce, hcounter, Option.getD_some]
      · rfl
      · exact ⟨rfl, fun _ => rfl, rfl⟩
    · cases hreply.trans herror
  · rintro error rfl
    rcases reserve_spec hwallet hchain with ⟨hok, _⟩ | ⟨_, hsame⟩
    · cases hreply.trans hok
    · apply Effect.same
      · rw [htables, hsame]
      · rfl
      · exact ⟨rfl, fun _ => rfl, rfl⟩

theorem effect_release {call : SignCall} (hslot : call.slot = some slot) {chainId : Nat}
    (hchainId : chainId = call.req.chainId) {nonce : Int} (hlow : 0 ≤ nonce)
    (hhigh : nonce + 1 ≤ int4Max) {reply : Except JsError Bool}
    (hexec : exec (.sql (.nonceRelease call.walletId chainId nonce)) choice w = some (reply, w'))
    (hhonest : choice.ran = true ∧ choice.isLost = false) :
    (reply = .ok true → Effect first past
      ⟨i, .sql (.nonceRelease call.walletId chainId nonce), choice, reply.isOk⟩
      (nextNonce slot w.tables) (nextNonce slot w'.tables) (.held nonce) .out) ∧
    (reply ≠ .ok true → Effect first past
      ⟨i, .sql (.nonceRelease call.walletId chainId nonce), choice, reply.isOk⟩
      (nextNonce slot w.tables) (nextNonce slot w'.tables) (.held nonce) (.wasted nonce)) := by
  obtain ⟨hwallet, hchain⟩ := slot_of_call hslot
  obtain ⟨id, htables, hreply⟩ := exec_answered hexec hhonest.1 hhonest.2
  simp only [Sql.exec] at htables hreply
  rcases release_spec (t := w.tables) hwallet (hchainId.trans hchain) hlow hhigh with
    ⟨hnewest, hok, hcounter⟩ | ⟨hnewest, hok, hsame⟩
  · constructor
    · intro _
      apply Effect.release hnewest _ rfl
      rw [htables, nextNonce, hcounter, Option.getD_some]
    · intro hnot
      exact absurd (hreply.trans hok) hnot
  · constructor
    · intro htrue
      cases htrue.symm.trans (hreply.trans hok)
    · intro _
      apply Effect.waste hnewest _ rfl
      rw [htables, hsame]

theorem result_eq_some {reply : Except JsError HttpReply} {taken : Bool} {value : RpcResult}
    (h : (Choice.fetched reply taken).result = some value) : reply = .ok (.result value) := by
  cases reply with
  | error error => cases h
  | ok response =>
    cases response with
    | result value' => cases h; rfl
    | _ => cases h

/-- An answered update is not an error. -/
theorem update_answered {id : Uuid} {fields : SigningRequestUpdate} {error : JsError}
    (hexec : exec (.sql (.requestUpdate id fields)) choice w = some (.error error, w'))
    (hhonest : choice.ran = true ∧ choice.isLost = false ∧
      (Cmd.sql (.requestUpdate id fields)).fits = true) : False := by
  rcases exec_update_of_fits (of_decide_eq_true hhonest.2.2) hexec with
    ⟨_, _, hreply | ⟨hlost, _⟩⟩ | ⟨hnot, _⟩
  · cases hreply
  · cases hlost.symm.trans hhonest.2.1
  · cases hnot.symm.trans hhonest.1

theorem effect_of_client {call : SignCall} {phase phase' : Phase}
    (hstep : ClientStep call phase command reply phase')
    (hexec : exec command choice w = some (reply, w'))
    (hhonest : HonestEntry first past (entryOf i command choice reply))
    (hslot : call.slot = some slot) (hcoherent : Coherent call phase)
    (hrange : ∀ n, (holdOf phase).ticket = some n → 0 ≤ n ∧ n + 1 ≤ int4Max) :
    Effect first past (entryOf i command choice reply) (nextNonce slot w.tables)
      (nextNonce slot w'.tables) (holdOf phase) (holdOf phase') := by
  have hwrite : ∀ {id fields} {reply : Except JsError Unit},
      exec (.sql (.requestUpdate id fields)) choice w = some (reply, w') → ∀ h,
      Effect first past ⟨i, .sql (.requestUpdate id fields), choice, reply.isOk⟩
        (nextNonce slot w.tables) (nextNonce slot w'.tables) h h :=
    fun hexec h => effect_same hexec nofun rfl (fun _ => rfl) h
  cases hstep with
  | found => exact effect_same hexec nofun rfl (fun _ => rfl) _
  | created => exact effect_same hexec nofun rfl (fun _ => rfl) _
  | notCreated => exact effect_same hexec nofun rfl (fun _ => rfl) _
  | conflicts => exact effect_same hexec nofun rfl (fun _ => rfl) _
  | reset => exact hwrite hexec _
  | notReset => exact hwrite hexec _
  | reserved => exact (effect_reserve hslot hexec ⟨hhonest.1, hhonest.2.1⟩).1 _ rfl
  | notReserved => exact (effect_reserve hslot hexec ⟨hhonest.1, hhonest.2.1⟩).2 _ rfl
  | prepared hnonce =>
    simp only [holdOf, hnonce]
    exact hwrite hexec _
  | notPrepared => exact (update_answered hexec hhonest).elim
  | signs => exact effect_same hexec nofun rfl (fun _ => rfl) _
  | refuses => exact effect_same hexec nofun rfl (fun _ => rfl) _
  | unsigned => exact hwrite hexec _
  | notUnsigned => exact (update_answered hexec hhonest).elim
  | released =>
    obtain ⟨hlow, hhigh⟩ := hrange _ rfl
    exact (effect_release hslot hcoherent hlow hhigh hexec ⟨hhonest.1, hhonest.2.1⟩).1 rfl
  | notReleased hreply =>
    obtain ⟨hlow, hhigh⟩ := hrange _ rfl
    exact (effect_release hslot hcoherent hlow hhigh hexec ⟨hhonest.1, hhonest.2.1⟩).2 hreply
  | stores => exact hwrite hexec _
  | notStores => exact (update_answered hexec hhonest).elim
  | @enters id txFields result chainId reply =>
    have hfields : result.rawTx.fields = txFields := hcoherent
    simp only [holdOf, ← hfields]
    apply Effect.hand _ rfl
    rw [(exec_local rfl hexec).2]
  | @takes id txFields result rpcUrl value =>
    have hfields : result.rawTx.fields = txFields := hcoherent
    obtain ⟨taken, rfl, hw⟩ := exec_fetch hexec
    simp only [holdOf, ← hfields]
    apply Effect.take _ rfl hhonest
    rw [hw, World.accept_tables]
  | @notTakes id txFields result rpcUrl reply hreply =>
    obtain ⟨taken, rfl, _⟩ := exec_fetch hexec
    apply effect_same hexec nofun rfl
    intro haccepted
    have hsome : (Choice.fetched reply taken).result.isSome = true := hhonest.symm.trans haccepted
    obtain ⟨value, hvalue⟩ := Option.isSome_iff_exists.mp hsome
    exact absurd (result_eq_some hvalue) (hreply value)
  | records => exact hwrite hexec _
  | notRecords => exact hwrite hexec _
  | unsent => exact hwrite hexec _
  | disowned => exact hcoherent.elim
  | forks => exact effect_same hexec nofun rfl (fun _ => rfl) _

/-- What a background job was told is not above the counter. -/
def Known (slot : Uuid × Nat) (t : Tables) (value : RpcResult) : Prop :=
  ∃ n, value.count = some n ∧ n ≤ nextNonce slot t ∧ (t.counter slot = none → n = 0)

theorem effect_of_step (hstep : Step cfg s command reply s')
    (hexec : exec command choice w = some (reply, w'))
    (hhonest : HonestEntry first past (entryOf i command choice reply))
    (hmonitor : s.isMonitor = false)
    (hcall : ∀ call phase, s = .client call phase → call.slot = some slot ∧ Coherent call phase)
    (hknown : ∀ value, s = .background (some value) → Known slot w.tables value)
    (hrange : ∀ n, (hold s).ticket = some n → 0 ≤ n ∧ n + 1 ≤ int4Max) :
    Effect first past (entryOf i command choice reply) (nextNonce slot w.tables)
      (nextNonce slot w'.tables) (hold s) (hold s') := by
  cases hstep with
  | query hquery =>
    apply effect_same hexec _ (handed_of_query hquery) fun _ => Cmd.submits_of_query hquery
    rw [Cmd.writes_of_query hquery]
    exact nofun
  | audit => exact effect_same hexec nofun rfl (fun _ => rfl) _
  | never hlocal => cases (exec_local hlocal hexec).1
  | monitor h => cases hmonitor
  | asks => exact effect_same hexec nofun rfl (fun _ => rfl) _
  | @syncs walletId chainId value reply =>
    obtain ⟨n, hcount, hle, hunset⟩ := hknown value rfl
    obtain ⟨id, htables, _⟩ := exec_answered hexec hhonest.1 hhonest.2.1
    apply Effect.same
    · rw [htables, hcount]
      exact sync_spec slot hle hunset
    · rfl
    · exact ⟨rfl, fun _ => rfl, rfl⟩
  | client h =>
    obtain ⟨hslot, hcoherent⟩ := hcall _ _ rfl
    exact effect_of_client h hexec hhonest hslot hcoherent hrange

/-- The data of a phase stay coherent. -/
theorem coherent_of_client {call : SignCall} {phase phase' : Phase}
    (hstep : ClientStep call phase command reply phase')
    (hexec : exec command choice w = some (reply, w'))
    (hhonest : HonestEntry first past (entryOf i command choice reply))
    (hcoherent : Coherent call phase) : Coherent call phase' := by
  cases hstep with
  | prepared _ hchain => exact hchain
  | signs => exact (exec_signTransaction hexec).2
  | refuses => exact hcoherent
  | unsigned => exact hcoherent
  | stores => exact hcoherent
  | enters => exact hcoherent
  | notTakes => exact hcoherent
  | notRecords => exact (update_answered hexec hhonest).elim
  | _ => trivial

/-- The call of a thread does not change. -/
theorem client_of_step {call : SignCall} {phase' : Phase} (hstep : Step cfg s command reply s')
    (hexec : exec command choice w = some (reply, w')) (hs' : s' = .client call phase')
    (hhonest : HonestEntry first past (entryOf i command choice reply)) :
    ∃ phase, s = .client call phase ∧ (Coherent call phase → Coherent call phase') := by
  cases hstep with
  | query => exact ⟨phase', hs', id⟩
  | audit => exact ⟨phase', hs', id⟩
  | never hlocal => cases (exec_local hlocal hexec).1
  | monitor h => cases hs'
  | asks => cases hs'
  | syncs => cases hs'
  | client h =>
    cases hs'
    exact ⟨_, rfl, coherent_of_client h hexec hhonest⟩

end Step

/-! ### The invariant -/

/-- The nonce of a thread is in the hands of the providers. -/
def Hold.IsHanded (nonce : Int) (h : Hold) : Prop := h = .handed nonce ∨ h = .taken nonce

def Hold.IsWasted (h : Hold) : Prop := ∃ nonce, h = .wasted nonce

/-- A transaction with this nonce was handed to `broadcastTransaction`. -/
def Handed (history : List ServiceEntry) (nonce : Int) : Prop :=
  ∃ entry ∈ history, ∃ rawTx ∈ entry.command.handed, rawTx.fields.nonce = nonce

/-- What the history says of the nonces, and where they are. -/
structure Agrees (first next : Int) (history : List ServiceEntry) (holds : Nat → Hold) : Prop where
  counter : counterAfter first history = next
  small : ∀ i n, (holds i).ticket = some n → n + 1 ≤ int4Max
  allOut : AllOut first next fun i => (holds i).ticket
  accepted : ∀ n, Accepted history n ↔ ∃ i, holds i = .taken n
  handed : ∀ n, Handed history n ↔ ∃ i, (holds i).IsHanded n
  newest : ReleasesNewest first history ↔ ¬ ∃ i, (holds i).IsWasted

section Agrees

variable {first next next' : Int} {past : List ServiceEntry} {entry : ServiceEntry}
  {holds : Nat → Hold} {i : Nat} {h' : Hold}

theorem accepted_cons (entry : ServiceEntry) (past : List ServiceEntry) (n : Int) :
    Accepted (entry :: past) n ↔ (entry.choice.accepted = true ∧
      ∃ rawTx ∈ entry.command.submits, rawTx.fields.nonce = n) ∨ Accepted past n := by
  simp only [Accepted, List.mem_cons, or_and_right, exists_or, exists_eq_left]

theorem handed_cons (entry : ServiceEntry) (past : List ServiceEntry) (n : Int) :
    Handed (entry :: past) n ↔
      (∃ rawTx ∈ entry.command.handed, rawTx.fields.nonce = n) ∨ Handed past n := by
  simp only [Handed, List.mem_cons, or_and_right, exists_or, exists_eq_left]

/-- Some thread is so after one thread has changed for the better. -/
theorem exists_update {P : Hold → Prop} (hmono : P (holds i) → P h') :
    (∃ j, P (Function.update holds i h' j)) ↔ P h' ∨ ∃ j, P (holds j) := by
  constructor
  · rintro ⟨j, hj⟩
    by_cases hji : j = i
    · rw [hji, Function.update_self] at hj
      exact .inl hj
    · rw [Function.update_of_ne hji] at hj
      exact .inr ⟨j, hj⟩
  · rintro (hnew | ⟨j, hj⟩)
    · exact ⟨i, by rwa [Function.update_self]⟩
    · by_cases hji : j = i
      · exact ⟨i, by rw [Function.update_self]; exact hmono (hji ▸ hj)⟩
      · exact ⟨j, by rwa [Function.update_of_ne hji]⟩

theorem ticket_update (holds : Nat → Hold) (i : Nat) (h' : Hold) :
    (fun j => (Function.update holds i h' j).ticket) =
      Function.update (fun j => (holds j).ticket) i h'.ticket := by
  funext j
  by_cases hji : j = i
  · rw [hji, Function.update_self, Function.update_self]
  · rw [Function.update_of_ne hji, Function.update_of_ne hji]

/-- A thread keeps its nonce. -/
theorem ticket_update_eq (heq : h'.ticket = (holds i).ticket) :
    (fun j => (Function.update holds i h' j).ticket) = fun j => (holds j).ticket := by
  rw [ticket_update, heq]
  exact Function.update_eq_self i fun j => (holds j).ticket

theorem Agrees.counter_step (h : Agrees first next past holds)
    (heffect : Effect first past entry next next' (holds i) h') :
    counterAfter first (entry :: past) = next' := by
  have hcounter := h.counter
  generalize holds i = before at heffect
  cases heffect with
  | same hnext hafter => rw [hafter, hcounter, hnext]
  | reserve _ hnext hafter => rw [hafter, hcounter, hnext]
  | release hnewest hnext hcommand =>
    simp only [counterAfter, hcommand, hcounter, hnewest, if_true, hnext]
  | waste hnewest hnext hcommand =>
    simp only [counterAfter, hcommand, hcounter, hnewest, if_false, hnext]
  | hand hnext hcommand => simp only [counterAfter, hcommand, hcounter, hnext]
  | take hnext hcommand => simp only [counterAfter, hcommand, hcounter, hnext]

theorem Agrees.allOut_step (h : Agrees first next past holds)
    (heffect : Effect first past entry next next' (holds i) h') :
    AllOut first next' fun j => (Function.update holds i h' j).ticket := by
  have hallOut := h.allOut
  generalize hbefore : holds i = before at heffect
  cases heffect with
  | same hnext =>
    rw [ticket_update_eq (by rw [hbefore]), hnext]
    exact hallOut
  | reserve _ hnext =>
    rw [ticket_update, hnext]
    exact hallOut.reserve (by rw [hbefore]; rfl)
  | release hnewest hnext =>
    rw [hnewest] at hallOut
    rw [ticket_update, hnext]
    exact hallOut.release (by rw [hbefore]; rfl)
  | waste _ hnext =>
    rw [ticket_update_eq (by rw [hbefore]; rfl), hnext]
    exact hallOut
  | hand hnext =>
    rw [ticket_update_eq (by rw [hbefore]; rfl), hnext]
    exact hallOut
  | take hnext =>
    rw [ticket_update_eq (by rw [hbefore]; rfl), hnext]
    exact hallOut

theorem Agrees.small_step (h : Agrees first next past holds)
    (heffect : Effect first past entry next next' (holds i) h') {j : Nat} {n : Int}
    (hj : (Function.update holds i h' j).ticket = some n) : n + 1 ≤ int4Max := by
  by_cases hji : j = i
  · have hsmall := h.small i
    rw [hji, Function.update_self] at hj
    generalize holds i = before at heffect hsmall
    cases heffect with
    | same => exact hsmall n hj
    | reserve hmax =>
      cases hj
      exact hmax
    | release => cases hj
    | waste => exact hsmall n hj
    | hand => exact hsmall n hj
    | take => exact hsmall n hj
  · rw [Function.update_of_ne hji] at hj
    exact h.small j n hj

/-- The entry has a nonce accepted where its thread comes to have it taken. -/
theorem Agrees.accepted_step (h : Agrees first next past holds)
    (heffect : Effect first past entry next next' (holds i) h') (n : Int) :
    Accepted (entry :: past) n ↔ ∃ j, Function.update holds i h' j = .taken n := by
  have haccepted := h.accepted n
  generalize hbefore : holds i = before at heffect
  have hmono : holds i = .taken n → h' = .taken n := by
    intro htaken
    rw [hbefore] at htaken
    subst htaken
    cases heffect with
    | same => rfl
  rw [accepted_cons, haccepted, exists_update (P := (· = .taken n)) hmono]
  -- what remains is the entry against the thread that made it
  cases heffect with
  | same _ _ hquiet =>
    constructor
    · rintro (⟨hyes, rawTx, hsubmits, _⟩ | hsome)
      · rw [hquiet.accepted hyes] at hsubmits
        cases hsubmits
      · exact .inr hsome
    · rintro (htaken | hsome)
      · exact .inr ⟨i, hbefore.trans htaken⟩
      · exact .inr hsome
  | reserve _ _ _ hquiet =>
    constructor
    · rintro (⟨hyes, rawTx, hsubmits, _⟩ | hsome)
      · rw [hquiet.accepted hyes] at hsubmits
        cases hsubmits
      · exact .inr hsome
    · rintro (htaken | hsome)
      · cases htaken
      · exact .inr hsome
  | release _ _ hcommand => simp [hcommand, Cmd.submits]
  | waste _ _ hcommand => simp [hcommand, Cmd.submits]
  | hand _ hcommand => simp [hcommand, Cmd.submits]
  | take _ hcommand hyes => simp [hcommand, Cmd.submits, hyes]

theorem Agrees.handed_step (h : Agrees first next past holds)
    (heffect : Effect first past entry next next' (holds i) h') (n : Int) :
    Handed (entry :: past) n ↔ ∃ j, (Function.update holds i h' j).IsHanded n := by
  have hhanded := h.handed n
  generalize hbefore : holds i = before at heffect
  have hmono : (holds i).IsHanded n → h'.IsHanded n := by
    intro hyes
    rw [hbefore] at hyes
    rcases hyes with hyes | hyes
    · subst hyes
      cases heffect with
      | same => exact .inl rfl
      | take => exact .inr rfl
    · subst hyes
      cases heffect with
      | same => exact .inr rfl
  rw [handed_cons, hhanded, exists_update hmono]
  cases heffect with
  | same _ _ hquiet =>
    rw [hquiet.handed]
    constructor
    · rintro (⟨rawTx, hnone, _⟩ | hsome)
      · cases hnone
      · exact .inr hsome
    · rintro (hyes | hsome)
      · exact .inr ⟨i, hbefore ▸ hyes⟩
      · exact .inr hsome
  | reserve _ _ _ hquiet => simp [hquiet.handed, Hold.IsHanded]
  | release _ _ hcommand => simp [hcommand, Cmd.handed, Hold.IsHanded]
  | waste _ _ hcommand => simp [hcommand, Cmd.handed, Hold.IsHanded]
  | hand _ hcommand => simp [hcommand, Cmd.handed, Hold.IsHanded]
  | @take rawTx _ _ hcommand hyes =>
    constructor
    · rintro (⟨_, hnone, _⟩ | hsome)
      · rw [hcommand] at hnone
        cases hnone
      · exact .inr hsome
    · rintro (hnew | hsome)
      · rcases hnew with hnew | hnew
        · cases hnew
        · cases hnew
          exact .inr ⟨i, .inl hbefore⟩
      · exact .inr hsome

/-- A release that does not find its nonce the newest wastes it. -/
theorem Agrees.newest_step (h : Agrees first next past holds)
    (heffect : Effect first past entry next next' (holds i) h') :
    ReleasesNewest first (entry :: past) ↔ ¬ ∃ j, (Function.update holds i h' j).IsWasted := by
  have hnewest := h.newest
  have hcounter := h.counter
  generalize hbefore : holds i = before at heffect
  have hmono : (holds i).IsWasted → h'.IsWasted := by
    rintro ⟨nonce, hwasted⟩
    rw [hbefore] at hwasted
    subst hwasted
    cases heffect with
    | same => exact ⟨nonce, rfl⟩
  rw [ReleasesNewest, hnewest, exists_update hmono, hcounter]
  cases heffect with
  | same _ _ hquiet =>
    rw [hquiet.releases]
    constructor
    · rintro ⟨_, hnone⟩ (hwasted | hsome)
      · exact hnone ⟨i, hbefore ▸ hwasted⟩
      · exact hnone hsome
    · intro hnone
      exact ⟨nofun, fun hsome => hnone (.inr hsome)⟩
  | reserve _ _ _ hquiet => simp [hquiet.releases, Hold.IsWasted]
  | release hfound _ hcommand => simp [hcommand, releases, Hold.IsWasted, hfound]
  | waste hfound _ hcommand => simp [hcommand, releases, Hold.IsWasted, hfound]
  | hand _ hcommand => simp [hcommand, releases, Hold.IsWasted]
  | take _ hcommand => simp [hcommand, releases, Hold.IsWasted]

/-- **One entry keeps the agreement.** -/
theorem Agrees.step (h : Agrees first next past holds)
    (heffect : Effect first past entry next next' (holds i) h') :
    Agrees first next' (entry :: past) (Function.update holds i h') where
  counter := h.counter_step heffect
  small := fun _ _ hj => h.small_step heffect hj
  allOut := h.allOut_step heffect
  accepted := h.accepted_step heffect
  handed := h.handed_step heffect
  newest := h.newest_step heffect

theorem Agrees.start (first : Int) : Agrees first first [] fun _ => .out where
  counter := rfl
  small := fun _ _ h => by cases h
  allOut := AllOut.start first
  accepted := by simp [Accepted]
  handed := by simp [Handed, Hold.IsHanded]
  newest := by simp [ReleasesNewest, Hold.IsWasted]

/-- What was accepted is below the counter. -/
theorem Agrees.below (h : Agrees first next past holds) {n : Int} (haccepted : Accepted past n) :
    first ≤ n ∧ n < next := by
  obtain ⟨i, hi⟩ := (h.accepted n).mp haccepted
  exact h.allOut.range (i := i) (by rw [hi]; rfl)

end Agrees

/-- What holds throughout an honest run of calls on one wallet and chain. -/
structure Inv (slot : Uuid × Nat) (first : Nat) (w : World) (history : List ServiceEntry)
    (stage : Nat → Stage) : Prop where
  agrees : Agrees first (nextNonce slot w.tables) history fun i => hold (stage i)
  unset : w.tables.counter slot = none → first = 0
  noMonitor : ∀ i, (stage i).isMonitor = false
  client : ∀ i call phase, stage i = .client call phase →
    call.slot = some slot ∧ Coherent call phase
  told : ∀ i value, stage i = .background (some value) →
    ∃ n ∈ value.count, (first : Int) ≤ n ∧ ∀ m, (first : Int) ≤ m → m < n → Accepted history m

/-- A background job was told a count that is still not above the counter. -/
theorem Inv.known {slot : Uuid × Nat} {first : Nat} {w : World} {history : List ServiceEntry}
    {stage : Nat → Stage} (h : Inv slot first w history stage) {i : Nat} {value : RpcResult}
    (hstage : stage i = .background (some value)) : Known slot w.tables value := by
  obtain ⟨n, hcount, hlow, haccepted⟩ := h.told i value hstage
  have hle : n ≤ nextNonce slot w.tables := by
    by_contra hgt
    have hbelow := h.agrees.below (haccepted _ h.agrees.allOut.low (by omega))
    omega
  refine ⟨n, hcount, hle, fun hunset => ?_⟩
  have hfirst := h.unset hunset
  rw [nextNonce, hunset, Option.getD_none] at hle
  omega

section Keeps

variable {cfg : Config} {slot : Uuid × Nat} {first i : Nat} {command : Cmd} {choice : Choice}
  {w w' : World} {past : List ServiceEntry} {stage : Nat → Stage} {stage' : Stage}
  {reply : Except JsError command.Reply}

theorem Inv.effect (h : Inv slot first w past stage)
    (hstep : Step cfg (stage i) command reply stage')
    (hexec : exec command choice w = some (reply, w'))
    (hhonest : HonestEntry first past (entryOf i command choice reply)) :
    Effect first past (entryOf i command choice reply) (nextNonce slot w.tables)
      (nextNonce slot w'.tables) (hold (stage i)) (hold stage') := by
  apply effect_of_step hstep hexec hhonest (h.noMonitor i) (h.client i)
  · intro value hvalue
    exact h.known hvalue
  · intro n hticket
    have hrange := h.agrees.allOut.range (i := i) hticket
    exact ⟨by omega, h.agrees.small i n hticket⟩

theorem unset_of_setNonce {t : Tables} {wallet : Uuid} {chainId : Nat} {nonce : Int}
    (hnone : (t.setNonce wallet chainId nonce).counter slot = none) : t.counter slot = none := by
  rw [Tables.counter_setNonce] at hnone
  by_cases hslot : slot = (wallet, chainId)
  · rw [hslot, Function.update_self] at hnone
    cases hnone
  · rwa [Function.update_of_ne hslot] at hnone

/-- A counter that is there stays. -/
theorem unset_of_exec (hexec : exec command choice w = some (reply, w'))
    (hnone : w'.tables.counter slot = none) : w.tables.counter slot = none := by
  by_cases hwrites : command.writes = some .nonces
  · cases command with
    | sql statement =>
      rcases exec_sql hexec with ⟨id, _, rfl, _⟩ | ⟨error, _, _, _, rfl⟩
      · cases statement with
        | nonceReserve walletId chainId =>
          simp only [Sql.exec] at hnone
          rcases WalletNonceRepository.reserve_cases walletId chainId w.tables with
            ⟨wallet, n, _, _, heq⟩ | ⟨error, heq⟩
          · rw [heq] at hnone
            exact unset_of_setNonce hnone
          · rwa [heq] at hnone
        | nonceRelease walletId chainId nonce =>
          simp only [Sql.exec] at hnone
          rcases WalletNonceRepository.release_cases walletId chainId nonce w.tables with
            ⟨wallet, _, _, heq⟩ | ⟨answer, heq⟩
          · rw [heq] at hnone
            exact unset_of_setNonce hnone
          · rwa [heq] at hnone
        | nonceSyncFromChain walletId chainId chainNonce =>
          simp only [Sql.exec] at hnone
          rcases WalletNonceRepository.syncFromChain_cases walletId chainId chainNonce w.tables with
            ⟨wallet, n, _, _, heq⟩ | ⟨answer, heq⟩
          · rw [heq] at hnone
            exact unset_of_setNonce hnone
          · rwa [heq] at hnone
        | _ => cases hwrites
      · exact hnone
    | _ => cases hwrites
  · rwa [Tables.counter, (exec_agree hexec).nonces hwrites] at hnone

/-- A background job comes to know what the chain has answered. -/
theorem told_of_step {s : Stage} {value : RpcResult} (hstep : Step cfg s command reply stage')
    (hexec : exec command choice w = some (reply, w')) (hs' : stage' = .background (some value))
    (hhonest : HonestEntry first past (entryOf i command choice reply)) :
    s = .background (some value) ∨ ∃ n ∈ value.count, Expected first past n := by
  cases hstep with
  | query => exact .inl hs'
  | audit => exact .inl hs'
  | never hlocal => cases (exec_local hlocal hexec).1
  | client h => cases hs'
  | monitor h => cases hs'
  | asks =>
    cases hs'
    obtain ⟨taken, rfl, _⟩ := exec_fetch hexec
    exact .inr (hhonest value rfl)
  | syncs => exact .inl hs'

/-- The history only grows. -/
theorem Accepted.cons {n : Int} (h : Accepted past n) (entry : ServiceEntry) :
    Accepted (entry :: past) n :=
  (accepted_cons entry past n).mpr (.inr h)

theorem Inv.told_step (h : Inv slot first w past stage)
    (hstep : Step cfg (stage i) command reply stage')
    (hexec : exec command choice w = some (reply, w'))
    (hhonest : HonestEntry first past (entryOf i command choice reply)) {j : Nat}
    {value : RpcResult} (hj : Function.update stage i stage' j = .background (some value)) :
    ∃ n ∈ value.count, (first : Int) ≤ n ∧ ∀ m, (first : Int) ≤ m → m < n →
      Accepted (entryOf i command choice reply :: past) m := by
  have hbefore : stage j = .background (some value) ∨ ∃ n ∈ value.count, Expected first past n := by
    by_cases hji : j = i
    · rw [hji, Function.update_self] at hj
      rw [hji]
      exact told_of_step hstep hexec hj hhonest
    · rw [Function.update_of_ne hji] at hj
      exact .inl hj
  rcases hbefore with hbefore | ⟨n, hcount, hexpected⟩
  · obtain ⟨n, hcount, hlow, haccepted⟩ := h.told j value hbefore
    exact ⟨n, hcount, hlow, fun m hm hlt => (haccepted m hm hlt).cons _⟩
  · exact ⟨n, hcount, hexpected.low, fun m hm hlt => (hexpected.accepted m hm hlt).cons _⟩

theorem Inv.client_step (h : Inv slot first w past stage)
    (hstep : Step cfg (stage i) command reply stage')
    (hexec : exec command choice w = some (reply, w'))
    (hhonest : HonestEntry first past (entryOf i command choice reply)) {j : Nat}
    {call : SignCall} {phase : Phase}
    (hj : Function.update stage i stage' j = .client call phase) :
    call.slot = some slot ∧ Coherent call phase := by
  by_cases hji : j = i
  · rw [hji, Function.update_self] at hj
    obtain ⟨phase', hbefore, hcoherent⟩ := client_of_step hstep hexec hj hhonest
    obtain ⟨hslot, hphase'⟩ := h.client i call phase' hbefore
    exact ⟨hslot, hcoherent hphase'⟩
  · rw [Function.update_of_ne hji] at hj
    exact h.client j call phase hj

/-- The invariant of honest runs. -/
def HonestInv (slot : Uuid × Nat) (first : Nat) (w : World) (history : List ServiceEntry)
    (stage : Nat → Stage) : Prop :=
  HonestRun first history → Inv slot first w history stage

theorem keeps : Automaton.Keeps (Step cfg) (services cfg) .any (HonestInv slot first) := by
  rintro i command choice w w' past stage stage' reply hstep hinv _ hexec ⟨hhonest, hpast⟩
  have h := hinv hpast
  have hholds : (fun j => hold (Function.update stage i stage' j)) =
      Function.update (fun j => hold (stage j)) i (hold stage') := by
    funext j
    by_cases hji : j = i
    · rw [hji, Function.update_self, Function.update_self]
    · rw [Function.update_of_ne hji, Function.update_of_ne hji]
  constructor
  · rw [hholds]
    exact h.agrees.step (i := i) (h.effect hstep hexec hhonest)
  · intro hnone
    exact h.unset (unset_of_exec hexec hnone)
  · intro j
    by_cases hji : j = i
    · rw [hji, Function.update_self, isMonitor_of_step hstep hexec]
      exact h.noMonitor i
    · rw [Function.update_of_ne hji]
      exact h.noMonitor j
  · intro j call phase hj
    exact h.client_step hstep hexec hhonest hj
  · intro j value hj
    exact h.told_step hstep hexec hhonest hj

end Keeps

theorem start_inv {calls : List SignCall} {w : World} {slot : Uuid × Nat} {first : Nat}
    (hslot : ∀ call ∈ calls, call.slot = some slot) (hfirst : nextNonce slot w.tables = first) :
    Inv slot first w [] (startStage calls []) := by
  have hstage : ∀ i, (∃ call ∈ calls, startStage calls [] i = .client call .start) ∨
      startStage calls [] i = .background none := by
    intro i
    by_cases hlt : i < calls.length
    · exact .inl ⟨_, List.getElem_mem hlt, startStage_client (List.getElem?_eq_getElem hlt)⟩
    · exact .inr (startStage_idle (by simpa using hlt))
  have hholds : (fun i => hold (startStage calls [] i)) = fun _ => .out := by
    funext i
    rcases hstage i with ⟨call, _, hi⟩ | hi <;> rw [hi] <;> rfl
  constructor
  · rw [hholds, hfirst]
    exact Agrees.start first
  · intro hnone
    rw [nextNonce, hnone, Option.getD_none] at hfirst
    exact Int.natCast_eq_zero.mp hfirst.symm
  · intro i
    rcases hstage i with ⟨call, _, hi⟩ | hi <;> rw [hi] <;> rfl
  · intro i call phase hphase
    rcases hstage i with ⟨call', hmem, hi⟩ | hi
    · cases hi.symm.trans hphase
      exact ⟨hslot call hmem, trivial⟩
    · cases hi.symm.trans hphase
  · intro i value hvalue
    rcases hstage i with ⟨call, _, hi⟩ | hi <;> cases hi.symm.trans hvalue

theorem Inv.event {slot : Uuid × Nat} {first : Nat} {w w' : World} {event : Event}
    {history : List ServiceEntry} {stage : Nat → Stage} (h : Inv slot first w history stage)
    (hevent : w.event event = some w') : Inv slot first w' history stage := by
  have hcounter : w'.tables.counter slot = w.tables.counter slot := by
    rw [Tables.counter, (World.event_tables hevent).2.1, Tables.counter]
  constructor
  · rw [nextNonce, hcounter]
    exact h.agrees
  · rw [hcounter]
    exact h.unset
  · exact h.noMonitor
  · exact h.client
  · exact h.told

/-- There is a first nonce that is not accepted, at most the counter. -/
theorem exists_expected {first : Nat} {next : Int} {history : List ServiceEntry}
    (hlow : (first : Int) ≤ next) (hnext : ¬ Accepted history next) :
    ∃ expected, Expected first history expected ∧ expected ≤ next := by
  classical
  have hoffset : (first : Int) + (next - first).toNat = next := by omega
  have hat : ¬ Accepted history (first + (next - first).toNat) := by rwa [hoffset]
  have hsome : ∃ k : Nat, ¬ Accepted history (first + k) := ⟨_, hat⟩
  refine ⟨first + Nat.find hsome, ⟨by omega, Nat.find_spec hsome, ?_⟩, ?_⟩
  · intro n hn hlt
    obtain ⟨k, rfl⟩ : ∃ k : Nat, n = first + k := ⟨(n - first).toNat, by omega⟩
    exact not_not.mp (Nat.find_min hsome (by omega))
  · have hle : Nat.find hsome ≤ (next - first).toNat := Nat.find_min' hsome hat
    omega

/-- A finished thread has no nonce, or one that is wasted or handed over. -/
theorem hold_of_rest {stage : Stage} (h : stage.isRest = true) {n : Int}
    (hticket : (hold stage).ticket = some n) : hold stage = .wasted n ∨ (hold stage).IsHanded n := by
  cases stage with
  | monitor phase => cases hticket
  | background answer => cases hticket
  | client call phase =>
    cases phase with
    | wasted nonce =>
      cases hticket
      exact .inl rfl
    | rejected txFields =>
      cases hticket
      exact .inr (.inl rfl)
    | recorded txFields =>
      cases hticket
      exact .inr (.inr rfl)
    | start => cases hticket
    | conflicted => cases hticket
    | done => cases hticket
    | _ => cases h

/-- Once all threads have finished, the counter is the chain's next expected nonce
    exactly where no nonce was wasted or handed over in vain. -/
theorem Agrees.next_eq_iff {first : Nat} {next expected : Int} {history : List ServiceEntry}
    {holds : Nat → Hold} (h : Agrees first next history holds)
    (hrest : ∀ i n, (holds i).ticket = some n → holds i = .wasted n ∨ (holds i).IsHanded n)
    (hexpected : Expected first history expected) (hle : expected ≤ next) :
    next = expected ↔ ReleasesNewest first history ∧ AllAccepted history := by
  constructor
  · rintro rfl
    have hall : ∀ i n, (holds i).ticket = some n → Accepted history n := by
      intro i n hticket
      have hrange := h.allOut.range (i := i) hticket
      exact hexpected.accepted n hrange.1 hrange.2
    constructor
    · rw [h.newest]
      rintro ⟨i, n, hwasted⟩
      have hticket : (holds i).ticket = some n := by rw [hwasted]; rfl
      obtain ⟨j, htaken⟩ := (h.accepted n).mp (hall i n hticket)
      have hji : j = i := h.allOut.distinct (n := n) (by rw [htaken]; rfl) hticket
      rw [hji, hwasted] at htaken
      cases htaken
    · intro entry hentry rawTx hhanded
      obtain ⟨i, hi⟩ := (h.handed rawTx.fields.nonce).mp ⟨entry, hentry, rawTx, hhanded, rfl⟩
      apply hall i
      rcases hi with hi | hi <;> rw [hi] <;> rfl
  · rintro ⟨hnewest, hallAccepted⟩
    by_contra hne
    obtain ⟨i, hticket⟩ := h.allOut.cover hexpected.low (by omega)
    rcases hrest i expected hticket with hwasted | hhanded
    · exact h.newest.mp hnewest ⟨i, expected, hwasted⟩
    · obtain ⟨entry, hentry, rawTx, hrawTx, hnonce⟩ := (h.handed expected).mpr ⟨i, hhanded⟩
      exact hexpected.notAccepted (hnonce ▸ hallAccepted entry hentry rawTx hrawTx)

end NonceGaps

open NonceGaps in
/-- **Where the next reservation stands.**  Once all calls on a wallet and chain and all
    their background jobs have finished, the next reserved nonce is not below the chain's
    next expected one, and it is equal to it exactly where every release found its nonce
    the newest and every transaction that was handed to the providers was accepted. -/
theorem reserve_expected_iff {cfg : Config} {calls : List SignCall} {w : World}
    {slot : Uuid × Nat} {first : Nat} (hslot : ∀ call ∈ calls, call.slot = some slot)
    (hfirst : nextNonce slot w.tables = first) {p : ServicePool}
    (hreach : Reach (services cfg) .any (SignCall.pool cfg calls w) p)
    (hhonest : HonestRun first p.history) (hdone : ∀ thread ∈ p.threads, thread.isDone = true)
    {walletId : Text} (hwallet : Uuid.ofText walletId = some slot.1) {next : Int}
    (hreserve : (WalletNonceRepository.reserve walletId slot.2 p.state.tables).1 = .ok next) :
    ∃ expected, Expected first p.history expected ∧ expected ≤ next ∧
      (next = expected ↔ ReleasesNewest first p.history ∧ AllAccepted p.history) := by
  have hpool : SignCall.pool cfg calls w = deployment cfg calls [] w := by
    simp only [SignCall.pool, deployment, List.map_nil, List.append_nil]
  rw [hpool] at hreach
  have hstart : HonestInv slot first w [] (startStage calls []) := fun _ => start_inv hslot hfirst
  obtain ⟨stage, hstaged, hinv⟩ := services_invariant keeps
    (fun event w w' history stage hinv _ hevent hhonest => (hinv hhonest).event hevent)
    (deployment_staged cfg calls [] w) hstart hreach
  have hagrees := (hinv hhonest).agrees
  have hnext : next = nextNonce slot p.state.tables := by
    rcases reserve_spec (t := p.state.tables) hwallet rfl with ⟨hok, _⟩ | ⟨⟨error, herror⟩, _⟩
    · exact Except.ok.inj (hreserve.symm.trans hok)
    · cases hreserve.symm.trans herror
  rw [← hnext] at hagrees
  have hrest : ∀ i n, (hold (stage i)).ticket = some n →
      hold (stage i) = .wasted n ∨ (hold (stage i)).IsHanded n := by
    intro i n
    apply hold_of_rest
    by_cases hlt : i < p.threads.length
    · have hthread := List.getElem?_eq_getElem hlt
      have hisDone := hdone _ (List.getElem_mem hlt)
      cases hprog : p.threads[i] with
      | ret value => exact hstaged.returned (hthread.trans (congrArg some hprog))
      | throw error => exact hstaged.thrown (hthread.trans (congrArg some hprog))
      | call command rest =>
        rw [hprog] at hisDone
        cases hisDone
    · rw [hstaged.idle i (Nat.not_lt.mp hlt)]
      rfl
  have hnot : ¬ Accepted p.history next := by
    intro haccepted
    exact absurd (hagrees.below haccepted).2 (Int.lt_irrefl next)
  obtain ⟨expected, hexpected, hle⟩ := exists_expected hagrees.allOut.low hnot
  exact ⟨expected, hexpected, hle, hagrees.next_eq_iff hrest hexpected hle⟩

namespace NonceGaps

instance (history : List ServiceEntry) (nonce : Int) : Decidable (Accepted history nonce) :=
  inferInstanceAs (Decidable (∃ entry ∈ history, entry.choice.accepted = true ∧
    ∃ rawTx ∈ entry.command.submits, rawTx.fields.nonce = nonce))

instance (first : Nat) (history : List ServiceEntry) (nonce : Int) :
    Decidable (Expected first history nonce) :=
  decidable_of_iff ((first : Int) ≤ nonce ∧ ¬ Accepted history nonce ∧
      ∀ n, (first : Int) ≤ n → n < nonce → Accepted history n)
    ⟨fun ⟨h1, h2, h3⟩ => ⟨h1, h2, h3⟩, fun ⟨h1, h2, h3⟩ => ⟨h1, h2, h3⟩⟩

instance decidableHonestAnswer (first : Nat) (past : List ServiceEntry) :
    ∀ command choice, Decidable (HonestAnswer first past command choice)
  | .sql statement, choice => inferInstanceAs (Decidable
      (choice.ran = true ∧ choice.isLost = false ∧ (Cmd.sql statement).fits = true))
  | .fetch _ (.sendRawTransaction _), choice =>
      inferInstanceAs (Decidable (choice.accepted = choice.result.isSome))
  | .fetch _ (.getTransactionCount _), choice =>
      inferInstanceAs (Decidable (∀ value ∈ choice.result, ∃ n ∈ value.count, Expected first past n))
  | .fetch _ (.estimateGas _ _ _ _), _ => isTrue trivial
  | .fetch _ .feeHistory, _ => isTrue trivial
  | .fetch _ (.getTransactionReceipt _), _ => isTrue trivial
  | .fetch _ (.getTransactionByHash _), _ => isTrue trivial
  | .sidecar _, _ => isTrue trivial
  | .now, _ => isTrue trivial
  | .log _, _ => isTrue trivial
  | .fork _, _ => isTrue trivial

instance decidableHonestRun (first : Nat) : ∀ history, Decidable (HonestRun first history)
  | [] => isTrue trivial
  | entry :: past =>
    have := decidableHonestRun first past
    inferInstanceAs (Decidable (HonestAnswer first past entry.command entry.choice ∧
      HonestRun first past))

instance decidableReleasesNewest (first : Int) : ∀ history, Decidable (ReleasesNewest first history)
  | [] => isTrue trivial
  | entry :: past =>
    have := decidableReleasesNewest first past
    inferInstanceAs (Decidable ((∀ nonce ∈ releases entry.command,
      counterAfter first past = nonce + 1) ∧ ReleasesNewest first past))

instance (history : List ServiceEntry) : Decidable (AllAccepted history) :=
  inferInstanceAs (Decidable (∀ entry ∈ history, ∀ rawTx ∈ entry.command.handed,
    Accepted history rawTx.fields.nonce))

open Sample

/-- Two calls reserve a nonce each. -/
def reserved : List (Move Choice Event) :=
  moves 0 (untilFees ++ [.done (freshId 1), run, run]) ++
    moves 1 (untilFees ++ [.done (freshId 2), run, run])

/-- The signature of the first call fails, and its nonce is not the newest any more. -/
def unsigned : List (Move Choice Event) :=
  moves 0 [.reject (.error "timeout".toList), run, run]

/-- The call goes through. -/
def sends (i : Nat) : List (Move Choice Event) :=
  moves i [.signed "s".toList "0x1".toList, run, run, run, accepts, run, run, run]

/-- What the wallet's next reservation returns. -/
def reservesNext (p : ServicePool) (next : Int) : Bool :=
  (WalletNonceRepository.reserve wallet.toText 1 p.state.tables).1.toOption = some next

theorem reserve_of_reservesNext {p : ServicePool} {next : Int} (h : reservesNext p next = true) :
    (WalletNonceRepository.reserve wallet.toText 1 p.state.tables).1 = .ok next := by
  have hsome := of_decide_eq_true h
  generalize (WalletNonceRepository.reserve wallet.toText 1 p.state.tables).1 = answer at hsome
  cases answer with
  | ok value =>
    rw [Except.toOption, Option.some.injEq] at hsome
    rw [hsome]
  | error error => cases hsome

end NonceGaps

open Sample NonceGaps in
/-- The first of two calls fails in its signature and cannot give its nonce back: the
    chain expects nonce 0 ever after, and the next reservation returns 2. -/
theorem reserve_not_expected :
    ∃ p, Reach (services config) .any
        (SignCall.pool config [transfer "1".toList, transfer "2".toList] world) p ∧
      HonestRun 0 p.history ∧ (∀ thread ∈ p.threads, thread.isDone = true) ∧
      (WalletNonceRepository.reserve wallet.toText 1 p.state.tables).1 = .ok 2 ∧
      Expected 0 p.history 0 := by
  obtain ⟨p, hreach, hp⟩ := Reach.exists_of_run (services config) .any
    (SignCall.pool config [transfer "1".toList, transfer "2".toList] world)
    (reserved ++ unsigned ++ sends 1)
    (fun p => decide (HonestRun 0 p.history ∧ (∀ thread ∈ p.threads, thread.isDone = true) ∧
      reservesNext p 2 = true ∧ Expected 0 p.history 0))
    (by decide)
  obtain ⟨hhonest, hdone, hnext, hexpected⟩ := of_decide_eq_true hp
  exact ⟨p, hreach, hhonest, hdone, reserve_of_reservesNext hnext, hexpected⟩

open Sample NonceGaps in
/-- Both calls go through, and the next reservation is what the chain expects. -/
theorem reserve_expected_iff_sent :
    ∃ p, Reach (services config) .any
        (SignCall.pool config [transfer "1".toList, transfer "2".toList] world) p ∧
      ∃ expected, Expected 0 p.history expected ∧ expected ≤ 2 ∧
        (2 = expected ↔ ReleasesNewest (0 : Nat) p.history ∧ AllAccepted p.history) := by
  obtain ⟨p, hreach, hp⟩ := Reach.exists_of_run (services config) .any
    (SignCall.pool config [transfer "1".toList, transfer "2".toList] world)
    (reserved ++ sends 0 ++ sends 1)
    (fun p => decide (HonestRun 0 p.history ∧ (∀ thread ∈ p.threads, thread.isDone = true) ∧
      reservesNext p 2 = true))
    (by decide)
  obtain ⟨hhonest, hdone, hnext⟩ := of_decide_eq_true hp
  have hslot : ∀ call ∈ [transfer "1".toList, transfer "2".toList],
      call.slot = some (wallet, 1) := by decide
  exact ⟨p, hreach, reserve_expected_iff hslot rfl hreach hhonest hdone (by decide)
    (reserve_of_reservesNext hnext)⟩

end BrokeTurnkey
