import BrokeTurnkey.Footprint
import BrokeTurnkey.Interaction.Ledger

/-!
# Nonces are handed to broadcast once

The counter of `wallet_nonces` is advanced by `reserve`, rewound by `release`
after a failed signature, and raised by the background `syncNonce`.  Seen as a
ledger of numbers that are out, a thread takes its nonce from the counter of its
wallet and chain, gives it back only before it has signed, and otherwise keeps
it.  Hence no two calls broadcast with the same nonce, in any interleaving, and
every nonce that was broadcast stays below the counter.
-/

namespace BrokeTurnkey

open Interaction

/-! ### The statements on the counter -/

/-- The counters by wallet and chain. -/
def Tables.counter (t : Tables) (slot : Uuid × Nat) : Option Int := t.nonces slot.1 slot.2

theorem Tables.counter_setNonce (t : Tables) (wallet : Uuid) (chainId : Nat) (nonce : Int) :
    (t.setNonce wallet chainId nonce).counter =
      Function.update t.counter (wallet, chainId) (some nonce) := by
  funext slot
  obtain ⟨wallet', chainId'⟩ := slot
  simp only [counter, setNonce, Function.update_apply, Prod.mk.injEq]
  by_cases hw : wallet' = wallet
  · subst hw
    simp only [if_true, true_and, Function.update_apply]
  · rw [if_neg hw, if_neg fun h => hw h.1]

namespace WalletNonceRepository

theorem reserve_cases (walletId : Text) (chainId : Nat) (t : Tables) :
    (∃ wallet n, Uuid.ofText walletId = some wallet ∧
      (t.counter (wallet, chainId) = some n ∨ t.counter (wallet, chainId) = none) ∧
      reserve walletId chainId t = (.ok n, t.setNonce wallet chainId (n + 1))) ∨
    ∃ error, reserve walletId chainId t = (.error error, t) := by
  simp only [reserve, withUuid]
  split
  · rename_i wallet hwallet
    split
    · rename_i hnone
      exact .inl ⟨wallet, 0, hwallet, .inr hnone, rfl⟩
    · rename_i nonce hsome
      split
      · exact .inr ⟨_, rfl⟩
      · exact .inl ⟨wallet, nonce, hwallet, .inl hsome, rfl⟩
  · exact .inr ⟨_, rfl⟩

theorem release_cases (walletId : Text) (chainId : Nat) (nonce : Int) (t : Tables) :
    (∃ wallet, Uuid.ofText walletId = some wallet ∧
      t.counter (wallet, chainId) = some (nonce + 1) ∧
      release walletId chainId nonce t = (.ok true, t.setNonce wallet chainId nonce)) ∨
    ∃ answer, release walletId chainId nonce t = (answer, t) := by
  simp only [release, withUuid]
  split
  · rename_i wallet hwallet
    split
    · exact .inr ⟨_, rfl⟩
    · split
      · rename_i hnonce
        exact .inl ⟨wallet, hwallet, hnonce, rfl⟩
      · exact .inr ⟨_, rfl⟩
  · exact .inr ⟨_, rfl⟩

theorem syncFromChain_cases (walletId : Text) (chainId : Nat) (chainNonce : Option Int)
    (t : Tables) :
    (∃ wallet n, Uuid.ofText walletId = some wallet ∧
      (∀ c, t.counter (wallet, chainId) = some c → c ≤ n) ∧
      syncFromChain walletId chainId chainNonce t = (.ok (), t.setNonce wallet chainId n)) ∨
    ∃ answer, syncFromChain walletId chainId chainNonce t = (answer, t) := by
  simp only [syncFromChain, withUuid]
  split
  · rename_i wallet hwallet
    split
    · exact .inr ⟨_, rfl⟩
    · rename_i n
      split
      · exact .inr ⟨_, rfl⟩
      · split
        · rename_i hnone
          refine .inl ⟨wallet, n, hwallet, fun c hc => ?_, rfl⟩
          rw [Tables.counter, hnone] at hc
          cases hc
        · rename_i nonce hsome
          split
          · rename_i hlt
            refine .inl ⟨wallet, n, hwallet, fun c hc => ?_, rfl⟩
            rw [Tables.counter, hsome, Option.some.injEq] at hc
            omega
          · exact .inr ⟨_, rfl⟩
  · exact .inr ⟨_, rfl⟩

end WalletNonceRepository

/-! ### What is being claimed -/

/-- The wallet and chain a call signs for. -/
def SignCall.slot (call : SignCall) : Option (Uuid × Nat) :=
  (Uuid.ofText call.walletId).map fun wallet => (wallet, call.req.chainId)

namespace NonceSafety

/-! ### The invariant -/

/-- How far a thread has come with its nonce. -/
inductive Stage where
  | fresh
  | held (nonce : Int)
  | handed (nonce : Int)

/-- The wallet and chain of a thread, which do not change, and its stage. -/
structure Duty where
  slot : Option (Uuid × Nat)
  stage : Stage

def Duty.ticket (duty : Duty) : Option ((Uuid × Nat) × Int) :=
  match duty.stage with
  | .fresh => none
  | .held nonce | .handed nonce => duty.slot.map fun slot => (slot, nonce)

structure Inv (calls : List SignCall) (w : World) (history : List ServiceEntry)
    (duty : Nat → Duty) : Prop where
  ledger : Ledger w.tables.counter fun i => (duty i).ticket
  slot : ∀ i, (duty i).slot = calls[i]?.bind SignCall.slot
  handed : ∀ i rawTx, HandedBy history i rawTx →
    (duty i).slot.isSome = true ∧ (duty i).stage = .handed rawTx.fields.nonce

theorem handedBy_cons {entry : ServiceEntry} {history : List ServiceEntry} {i : Nat}
    {rawTx : RawTx} (h : HandedBy (entry :: history) i rawTx) :
    (entry.thread = i ∧ entry.command.handed = some rawTx) ∨
      HandedBy history i rawTx := by
  obtain ⟨entry', hmem, hthread, hcommand⟩ := h
  rcases List.mem_cons.mp hmem with rfl | hmem
  · exact .inl ⟨hthread, hcommand⟩
  · exact .inr ⟨entry', hmem, hthread, hcommand⟩

section Steps

variable {calls : List SignCall} {w w' : World} {history : List ServiceEntry} {duty : Nat → Duty}
  {command : Cmd} {choice : Choice} {reply : Except JsError command.Reply} {i : Nat}

theorem Inv.step (h : Inv calls w history duty) {d : Duty} (hslot : d.slot = (duty i).slot)
    (hledger : Ledger w'.tables.counter
      (Function.update (fun j => (duty j).ticket) i d.ticket))
    (hhanded : ∀ rawTx, HandedBy (entryOf i command choice reply :: history) i rawTx →
      d.slot.isSome = true ∧ d.stage = .handed rawTx.fields.nonce) :
    Inv calls w' (entryOf i command choice reply :: history) (Function.update duty i d) := by
  refine ⟨?_, fun j => ?_, fun j rawTx hj => ?_⟩
  · have hticket : (fun j => (Function.update duty i d j).ticket) =
        Function.update (fun j => (duty j).ticket) i d.ticket := by
      funext j
      exact Function.apply_update (fun _ => Duty.ticket) duty i d j
    rw [hticket]
    exact hledger
  · by_cases hji : j = i
    · rw [hji, Function.update_self, hslot]
      exact h.slot i
    · rw [Function.update_of_ne hji]
      exact h.slot j
  · by_cases hji : j = i
    · rw [hji] at hj ⊢
      rw [Function.update_self]
      exact hhanded rawTx hj
    · rw [Function.update_of_ne hji]
      rcases handedBy_cons hj with ⟨hthread, _⟩ | hold
      · exact absurd hthread.symm hji
      · exact h.handed j rawTx hold

/-- A step that hands nothing over by a thread that has handed nothing over. -/
theorem Inv.step_fresh (h : Inv calls w history duty) (hlog : command.handed = none)
    (hstage : ∀ nonce, (duty i).stage ≠ .handed nonce) {d : Duty}
    (hslot : d.slot = (duty i).slot)
    (hledger : Ledger w'.tables.counter
      (Function.update (fun j => (duty j).ticket) i d.ticket)) :
    Inv calls w' (entryOf i command choice reply :: history) (Function.update duty i d) := by
  refine h.step hslot hledger fun rawTx hi => ?_
  rcases handedBy_cons hi with ⟨_, hcommand⟩ | hold
  · cases hlog.symm.trans hcommand
  · exact absurd (h.handed i rawTx hold).2 (hstage _)

/-- A step that raises a counter or leaves all of them alone. -/
theorem Inv.keep (h : Inv calls w history duty) (hlog : command.handed = none)
    (hledger : Ledger w'.tables.counter fun j => (duty j).ticket) :
    Inv calls w' (entryOf i command choice reply :: history) duty := by
  refine ⟨hledger, h.slot, fun j rawTx hj => ?_⟩
  rcases handedBy_cons hj with ⟨_, hcommand⟩ | hold
  · cases hlog.symm.trans hcommand
  · exact h.handed j rawTx hold

end Steps

/-! ### One specification for each kind of command -/

section Specs

variable {cfg : Config} {calls : List SignCall} {g : Duty}

/-- The duty of a thread that has drawn a nonce. -/
structure Holds (g : Duty) (walletId : Text) (chainId : Nat) (nonce : Int) : Prop where
  slot : g.slot = (Uuid.ofText walletId).map fun wallet => (wallet, chainId)
  isSome : g.slot.isSome = true
  stage : g.stage = .held nonce

/-- Commands that neither write a counter nor hand a transaction over. -/
def Quiet (command : Cmd) : Prop := command.handed = none ∧ command.writes ≠ some .nonces

theorem quiet_of_query {command : Cmd} (h : command.isQuery = true) : Quiet command := by
  cases command with
  | sql statement =>
    refine ⟨rfl, ?_⟩
    rw [Cmd.writes, show statement.writes = none from of_decide_eq_true h]
    nofun
  | fetch rpcUrl request => exact ⟨rfl, nofun⟩
  | now => exact ⟨rfl, nofun⟩
  | sidecar request => exact ⟨rfl, nofun⟩
  | log line => cases h
  | fork job => exact ⟨rfl, nofun⟩

theorem quiet_spec {command : Cmd} (h : Quiet command) :
    Spec (services cfg) .any (Inv calls) g command fun g' _ => g' = g := by
  refine Spec.frame fun i choice w history duty reply w' _ hinv _ hexec => ?_
  refine hinv.keep h.1 ?_
  have hsame : w'.tables.counter = w.tables.counter := by
    funext slot
    rw [Tables.counter, (exec_agree hexec).nonces h.2]
    rfl
  rw [hsame]
  exact hinv.ledger

theorem quiet_all {α : Type} {p : Js α} (h : p.All Quiet) :
    p.All fun command => Spec (services cfg) .any (Inv calls) g command fun g' _ => g' = g :=
  h.mono fun _ => quiet_spec

theorem sync_spec (walletId : Text) (chainId : Nat) (chainNonce : Option Int) :
    Spec (services cfg) .any (Inv calls) g
      (.sql (.nonceSyncFromChain walletId chainId chainNonce)) fun g' _ => g' = g := by
  refine Spec.frame fun i choice w history duty reply w' _ hinv _ hexec => ?_
  refine hinv.keep rfl ?_
  rcases exec_sql hexec with ⟨id, _, rfl, _⟩ | ⟨error, _, _, _, rfl⟩
  · simp only [Sql.exec]
    rcases WalletNonceRepository.syncFromChain_cases walletId chainId chainNonce w.tables with
      ⟨wallet, n, _, hle, heq⟩ | ⟨answer, heq⟩
    · rw [heq, Tables.counter_setNonce]
      exact hinv.ledger.raise hle
    · rw [heq]
      exact hinv.ledger
  · exact hinv.ledger

theorem reserve_spec {walletId : Text} {chainId : Nat}
    (hslot : g.slot = (Uuid.ofText walletId).map fun wallet => (wallet, chainId))
    (hstage : g.stage = .fresh) :
    Spec (services cfg) .any (Inv calls) g (.sql (.nonceReserve walletId chainId))
      (AtValue fun g' nonce => Holds g' walletId chainId nonce) := by
  intro i choice w history duty reply w' hg hinv _ hexec
  have hlog : (Cmd.sql (.nonceReserve walletId chainId)).handed = none := rfl
  have hsame : g.slot = (duty i).slot := by rw [hg]
  have hfresh : ∀ nonce, (duty i).stage ≠ .handed nonce := by
    intro nonce
    rw [hg, hstage]
    nofun
  have hkeep : Function.update (fun j => (duty j).ticket) i g.ticket =
      fun j => (duty j).ticket := by
    rw [← hg]
    exact Function.update_eq_self i _
  rcases exec_sql hexec with ⟨id, _, rfl, hreply⟩ | ⟨error, _, _, rfl, rfl⟩
  · simp only [Sql.exec] at hreply ⊢
    rcases WalletNonceRepository.reserve_cases walletId chainId w.tables with
      ⟨wallet, n, hwallet, hn, heq⟩ | ⟨error, heq⟩
    · rw [heq] at hreply ⊢
      have hsome : g.slot = some (wallet, chainId) := by rw [hslot, hwallet, Option.map_some]
      -- where the answer is lost, the number is drawn and never used
      rcases hreply with ⟨_, rfl⟩ | ⟨error, _, _, rfl⟩
      · refine ⟨⟨g.slot, .held n⟩, hinv.step_fresh hlog hfresh hsame ?_, ?_⟩
        · rw [Tables.counter_setNonce, Duty.ticket]
          simp only [hsome, Option.map_some]
          exact hinv.ledger.reserve hn
        · exact ⟨hslot, by rw [hsome]; rfl, rfl⟩
      · refine ⟨g, hinv.step_fresh hlog hfresh hsame ?_, trivial⟩
        rw [Tables.counter_setNonce, hkeep]
        refine hinv.ledger.raise fun c hc => ?_
        rcases hn with hn | hn
        · rw [hn, Option.some.injEq] at hc
          omega
        · rw [hn] at hc
          cases hc
    · rw [heq] at hreply ⊢
      refine ⟨g, hinv.step_fresh hlog hfresh hsame ?_, ?_⟩
      · rw [hkeep]
        exact hinv.ledger
      · rcases hreply with ⟨_, rfl⟩ | ⟨_, _, _, rfl⟩ <;> trivial
  · refine ⟨g, hinv.step_fresh hlog hfresh hsame ?_, trivial⟩
    rw [hkeep]
    exact hinv.ledger

theorem release_spec {walletId : Text} {chainId : Nat} {nonce : Int}
    (hholds : Holds g walletId chainId nonce) :
    Spec (services cfg) .any (Inv calls) g (.sql (.nonceRelease walletId chainId nonce))
      fun _ _ => True := by
  intro i choice w history duty reply w' hg hinv _ hexec
  have hlog : (Cmd.sql (.nonceRelease walletId chainId nonce)).handed = none := rfl
  have hsame : g.slot = (duty i).slot := by rw [hg]
  have hfresh : ∀ n, (duty i).stage ≠ .handed n := by
    intro n
    rw [hg, hholds.stage]
    nofun
  refine ⟨⟨g.slot, .fresh⟩, hinv.step_fresh hlog hfresh hsame ?_, trivial⟩
  have hdrop : Ledger w.tables.counter
      (Function.update (fun j => (duty j).ticket) i none) := hinv.ledger.drop i
  rcases exec_sql hexec with ⟨id, _, rfl, _⟩ | ⟨error, _, _, _, rfl⟩
  · simp only [Sql.exec]
    rcases WalletNonceRepository.release_cases walletId chainId nonce w.tables with
      ⟨wallet, hwallet, hc, heq⟩ | ⟨answer, heq⟩
    · rw [heq, Tables.counter_setNonce]
      refine hinv.ledger.release ?_ hc
      rw [hg, Duty.ticket, hholds.stage, hholds.slot, hwallet]
      rfl
    · rw [heq]
      exact hdrop
  · exact hdrop

theorem broadcasting_spec {rawTx : RawTx} {walletId : Text} {chainId chainId' : Nat}
    (hholds : Holds g walletId chainId' rawTx.fields.nonce) :
    Spec (services cfg) .any (Inv calls) g (.log (.broadcasting rawTx chainId))
      fun _ _ => True := by
  intro i choice w history duty reply w' hg hinv _ hexec
  obtain ⟨_, rfl⟩ := exec_local rfl hexec
  have hkeep : Function.update (fun j => (duty j).ticket) i
      (Duty.ticket ⟨g.slot, .handed rawTx.fields.nonce⟩) = fun j => (duty j).ticket := by
    have hticket : Duty.ticket ⟨g.slot, .handed rawTx.fields.nonce⟩ = (duty i).ticket := by
      rw [hg, Duty.ticket, Duty.ticket, hholds.stage]
    rw [hticket]
    exact Function.update_eq_self i _
  refine ⟨⟨g.slot, .handed rawTx.fields.nonce⟩, hinv.step (by rw [hg]) ?_ ?_, trivial⟩
  · rw [hkeep]
    exact hinv.ledger
  · intro other hother
    rcases handedBy_cons hother with ⟨_, hcommand⟩ | hold
    · cases hcommand
      exact ⟨hholds.isSome, rfl⟩
    · have hhanded := (hinv.handed i other hold).2
      rw [hg, hholds.stage] at hhanded
      cases hhanded

end Specs

/-! ### The signing pipeline -/

section Pipeline

variable {cfg : Config} {calls : List SignCall} {g : Duty}

theorem quiet_update (id : Uuid) (fields : SigningRequestUpdate) :
    Quiet (.sql (.requestUpdate id fields)) := ⟨rfl, nofun⟩

theorem quiet_audit (data : NewAuditLog) : Quiet (.sql (.auditCreate data)) := ⟨rfl, nofun⟩

theorem quiet_sidecar (request : SidecarRequest) : Quiet (.sidecar request) := ⟨rfl, nofun⟩

theorem createOrReuse_quiet (orgId walletId : Text) (req : SignRequest) (key : Text) :
    (WalletService.createOrReuse orgId walletId req key).All Quiet :=
  WalletService.createOrReuse_all (fun _ => quiet_of_query) (fun _ => ⟨rfl, nofun⟩) quiet_update
    orgId walletId req key

theorem prepareFields_safe {walletId : Text} {req : SignRequest}
    (hslot : g.slot = (Uuid.ofText walletId).map fun wallet => (wallet, req.chainId))
    (hstage : g.stage = .fresh) (fees : FeeEstimate) (signingRequestId : Uuid) :
    Safe (services cfg) .any (Inv calls)
      (AtValue fun g' txFields => Holds g' walletId txFields.chainId txFields.nonce)
      g (WalletService.prepareFields walletId req fees signingRequestId) := by
  refine Safe.bind (Safe.perform (reserve_spec hslot hstage)) (fun g' nonce hholds => ?_)
    fun _ _ _ => trivial
  exact Safe.frame_bind (quiet_all (Prog.All.perform (quiet_update ..))) (fun _ => hholds)
    fun _ => trivial

theorem signStep_safe {walletId : Text} {txFields : TxFields}
    (hholds : Holds g walletId txFields.chainId txFields.nonce) (seedRow : OrganizationSeed)
    (wallet : Wallet) (signingRequestId : Uuid) :
    Safe (services cfg) .any (Inv calls)
      (AtValue fun g' result => g' = g ∧ result.rawTx.fields = txFields)
      g (WalletService.signStep seedRow wallet walletId txFields signingRequestId) := by
  refine Safe.tryCatch (P := fun g' outcome => g' = g ∧
    ∀ result, outcome = .ok result → result.rawTx.fields = txFields) (Safe.perform ?_) ?_ ?_
  · intro i choice w history duty reply w' hg hinv hguard hexec
    obtain ⟨g', hinv', rfl⟩ :=
      quiet_spec (quiet_sidecar _) i choice w history duty reply w' hg hinv hguard hexec
    refine ⟨g', hinv', rfl, fun result hresult => ?_⟩
    subst hresult
    exact (exec_signTransaction hexec).2
  · intro g' result hpost
    exact ⟨hpost.1, hpost.2 _ rfl⟩
  · rintro g' error ⟨rfl, _⟩
    refine Safe.frame_bind (quiet_all (Prog.All.perform (quiet_update ..))) (fun _ => ?_)
      fun _ => trivial
    exact Safe.bind (Safe.perform (release_spec hholds)) (fun _ _ _ => trivial)
      fun _ _ _ => trivial

theorem broadcastStep_safe {walletId : Text} {chainId chainId' : Nat}
    {signResult : SignTransactionResult}
    (hholds : Holds g walletId chainId' signResult.rawTx.fields.nonce) (wallet : Wallet)
    (signingRequestId : Uuid) :
    Safe (services cfg) .any (Inv calls) (fun _ _ => True) g
      (WalletService.broadcastStep cfg wallet walletId chainId signResult signingRequestId) := by
  refine Safe.tryCatch (P := fun _ _ => True) ?_ (fun _ _ _ => trivial) fun g' error _ => ?_
  · refine Safe.bind (P := fun _ _ => True) ?_ (fun g' _ _ => ?_) (fun _ _ _ => trivial)
    · refine Safe.bind (Safe.perform (broadcasting_spec hholds)) (fun g' _ _ => ?_)
        (fun _ _ _ => trivial)
      exact (Safe.of_all (quiet_all (rpcCallWithRetry_all (fun _ => ⟨rfl, nofun⟩) ..))).mono
        fun _ _ _ => trivial
    · refine Safe.frame_bind (quiet_all (Prog.All.perform (quiet_of_query rfl))) (fun now => ?_)
        fun _ => trivial
      exact (Safe.perform (quiet_spec (quiet_update ..))).mono fun _ _ _ => trivial
  · refine Safe.frame_bind (quiet_all (Prog.All.perform (quiet_update ..))) (fun _ => ?_)
      fun _ => trivial
    exact Safe.frame_bind (quiet_all (Prog.All.perform ⟨rfl, nofun⟩)) (fun _ => trivial)
      fun _ => trivial

theorem submit_safe {walletId : Text} {req : SignRequest}
    (hslot : g.slot = (Uuid.ofText walletId).map fun wallet => (wallet, req.chainId))
    (hstage : g.stage = .fresh) (orgId : Text) (seedRow : OrganizationSeed) (wallet : Wallet)
    (key : Text) (fees : FeeEstimate) (signingRequestId : Uuid) :
    Safe (services cfg) .any (Inv calls) (fun _ _ => True) g
      (WalletService.submit cfg orgId walletId req seedRow wallet key fees signingRequestId) := by
  refine Safe.bind (prepareFields_safe hslot hstage fees signingRequestId)
    (fun g' txFields hholds => ?_) (fun _ _ _ => trivial)
  refine Safe.bind (signStep_safe hholds seedRow wallet signingRequestId)
    (fun g'' signResult hsigned => ?_) (fun _ _ _ => trivial)
  obtain ⟨rfl, hfields⟩ := hsigned
  refine Safe.frame_bind (quiet_all ?_) (fun _ => ?_) fun _ => trivial
  · exact Prog.All.bind (Prog.All.perform (quiet_of_query rfl)) fun now =>
      Prog.All.perform (quiet_update ..)
  · have hraw : Holds g'' walletId txFields.chainId signResult.rawTx.fields.nonce := by
      rw [hfields]
      exact hholds
    refine Safe.bind (broadcastStep_safe hraw wallet signingRequestId) (fun g' _ _ => ?_)
      (fun _ _ _ => trivial)
    exact Safe.frame_bind (quiet_all (Prog.All.perform (quiet_audit _))) (fun _ => trivial)
      fun _ => trivial

theorem requestSign_safe {walletId : Text} {req : SignRequest}
    (hslot : g.slot = (Uuid.ofText walletId).map fun wallet => (wallet, req.chainId))
    (hstage : g.stage = .fresh) (orgId : Text) :
    Safe (services cfg) .any (Inv calls) (fun _ _ => True) g
      (WalletService.requestSign cfg orgId walletId req) := by
  have hqueries : ∀ {α : Type} {p : Js α}, Queries p → p.All Quiet :=
    fun hp => hp.mono fun _ => quiet_of_query
  refine Safe.frame_bind
    (quiet_all (hqueries (WalletService.loadPrerequisites_queries orgId walletId)))
    (fun prerequisites => ?_) fun _ => trivial
  refine Safe.frame_bind (quiet_all (hqueries (sql_queries rfl))) (fun existing => ?_)
    fun _ => trivial
  split
  · trivial
  · refine Safe.frame_bind (quiet_all (WalletService.evaluatePolicy_all
      (fun _ => quiet_of_query) (fun _ _ => quiet_audit _) cfg req)) (fun _ => ?_) fun _ => trivial
    refine Safe.frame_bind (quiet_all (hqueries (estimateFees_queries ..))) (fun fees => ?_)
      fun _ => trivial
    refine Safe.frame_bind (quiet_all (createOrReuse_quiet ..)) (fun claimed => ?_)
      fun _ => trivial
    cases claimed with
    | existing result => trivial
    | own signingRequestId => exact submit_safe hslot hstage orgId _ _ _ fees signingRequestId

end Pipeline

/-! ### Every run -/

theorem start_safe {cfg : Config} {calls : List SignCall} (call : SignCall) :
    Safe (services cfg) .any (Inv calls) (fun _ _ => True) ⟨call.slot, .fresh⟩
      (call.start cfg) :=
  Safe.bind (requestSign_safe rfl rfl call.orgId) (fun _ _ _ => trivial) fun _ _ _ => trivial

theorem spawned_safe {cfg : Config} {calls : List SignCall} {g : Duty} (command : Cmd)
    (thread : Js Outcome) (h : thread ∈ spawns cfg command) :
    Safe (services cfg) .any (Inv calls) (fun _ _ => True) g thread := by
  cases command with
  | fork job =>
    rw [spawns, List.mem_singleton] at h
    subst h
    cases job with
    | syncNonce walletId chainId walletAddress =>
      refine (Safe.of_all ?_).mono fun _ _ _ => trivial
      refine Prog.All.bind (Prog.All.bind ?_ fun result => ?_) fun _ => trivial
      · exact quiet_all (rpcCallWithRetry_all (fun _ => ⟨rfl, nofun⟩) ..)
      · exact Prog.All.perform (sync_spec _ _ _)
  | _ => cases h

/-- The ghosts the calls start with. -/
def duties (calls : List SignCall) (i : Nat) : Duty := ⟨calls[i]?.bind SignCall.slot, .fresh⟩

theorem start_invariant (cfg : Config) (calls : List SignCall) (w : World) :
    Invariant (services cfg) .any (Inv calls) (fun _ _ => True) ⟨none, .fresh⟩
      (SignCall.pool cfg calls w) (duties calls) := by
  refine ⟨⟨⟨nofun, nofun⟩, fun _ => rfl, ?_⟩, fun i thread hi => ?_, fun i hi => ?_⟩
  · rintro i rawTx ⟨entry, hmem, _⟩
    cases hmem
  · rw [SignCall.pool, List.getElem?_map, Option.map_eq_some_iff] at hi
    obtain ⟨call, hcall, rfl⟩ := hi
    have hduty : duties calls i = ⟨call.slot, .fresh⟩ := by
      rw [duties, hcall, Option.bind_some]
    rw [hduty]
    exact start_safe call
  · rw [SignCall.pool, List.length_map] at hi
    rw [duties, List.getElem?_eq_none hi, Option.bind_none]

theorem reach_inv {cfg : Config} {calls : List SignCall} {w : World} {p : ServicePool}
    (hreach : Reach (services cfg) .any (SignCall.pool cfg calls w) p) :
    ∃ duty, Inv calls p.state p.history duty := by
  obtain ⟨duty, hp⟩ := hreach.invariant (start_invariant cfg calls w) spawned_safe
    fun event w w' history duty hinv _ hevent => by
      refine ⟨?_, hinv.slot, hinv.handed⟩
      have hsame : w'.tables.counter = w.tables.counter := by
        funext slot
        rw [Tables.counter, (World.event_tables hevent).2.1]
        rfl
      rw [hsame]
      exact hinv.ledger
  exact ⟨duty, hp.inv⟩

end NonceSafety

/-- **Nonce safety.**  In every interleaving of any calls, two calls for one wallet
    and chain never hand over transactions with the same nonce, and every nonce
    that was handed over is below the counter of its wallet and chain. -/
theorem requestSign_nonce_safety {cfg : Config} {calls : List SignCall} {w : World}
    {p : ServicePool} (hreach : Reach (services cfg) .any (SignCall.pool cfg calls w) p) :
    (∀ i j call call' rawTx rawTx', i ≠ j → calls[i]? = some call → calls[j]? = some call' →
      call.slot = call'.slot → HandedBy p.history i rawTx → HandedBy p.history j rawTx' →
      rawTx.fields.nonce ≠ rawTx'.fields.nonce) ∧
    (∀ i rawTx, HandedBy p.history i rawTx → ∃ call wallet counter, calls[i]? = some call ∧
      Uuid.ofText call.walletId = some wallet ∧
      p.state.tables.nonces wallet call.req.chainId = some counter ∧
      rawTx.fields.nonce < counter) := by
  obtain ⟨duty, hinv⟩ := NonceSafety.reach_inv hreach
  have hticket : ∀ i rawTx, HandedBy p.history i rawTx → ∃ slot, (duty i).slot = some slot ∧
      (duty i).ticket = some (slot, rawTx.fields.nonce) := by
    intro i rawTx hi
    obtain ⟨hsome, hstage⟩ := hinv.handed i rawTx hi
    obtain ⟨slot, hslot⟩ := Option.isSome_iff_exists.mp hsome
    exact ⟨slot, hslot, by rw [NonceSafety.Duty.ticket, hstage, hslot]; rfl⟩
  refine ⟨fun i j call call' rawTx rawTx' hij hi hj hslots hrawi hrawj heq => hij ?_,
    fun i rawTx hi => ?_⟩
  · obtain ⟨slot, hsloti, hti⟩ := hticket i rawTx hrawi
    obtain ⟨slot', hslotj, htj⟩ := hticket j rawTx' hrawj
    have hsame : slot = slot' := by
      rw [hinv.slot, hi, Option.bind_some, hslots] at hsloti
      rw [hinv.slot, hj, Option.bind_some, hsloti] at hslotj
      exact Option.some.inj hslotj
    rw [← hsame, ← heq] at htj
    exact hinv.ledger.distinct hti htj
  · obtain ⟨slot, hslot, hti⟩ := hticket i rawTx hi
    obtain ⟨counter, hcounter, hlt⟩ := hinv.ledger.below hti
    rw [hinv.slot, Option.bind_eq_some_iff] at hslot
    obtain ⟨call, hcall, hslot⟩ := hslot
    rw [SignCall.slot, Option.map_eq_some_iff] at hslot
    obtain ⟨wallet, hwallet, rfl⟩ := hslot
    exact ⟨call, wallet, counter, hcall, hwallet, hcounter, hlt⟩

open Sample in
/-- Two calls, the second overtaking the first after both drew their nonces. -/
theorem requestSign_nonce_safety_overtaking :
    ∃ p, Reach (services config) .any
        (SignCall.pool config [transfer "1".toList, transfer "2".toList] world) p ∧
      HandedBy p.history 0 (sent 1 "1" 0 "signature") ∧
      HandedBy p.history 1 (sent 2 "2" 1 "signature") ∧
      (sent 1 "1" 0 "signature").fields.nonce ≠ (sent 2 "2" 1 "signature").fields.nonce := by
  obtain ⟨p, hreach, hp⟩ := Reach.exists_of_run (services config) .any
    (SignCall.pool config [transfer "1".toList, transfer "2".toList] world)
    (moves 0 (untilFees ++ [.done (freshId 1), run]) ++
      moves 1 (untilFees ++ .done (freshId 2) :: signs "signature".toList "hash2".toList ++ [run]) ++
      moves 0 (signs "signature".toList "hash1".toList).tail ++ moves 0 [run])
    (fun p => HandedBy p.history 0 (sent 1 "1" 0 "signature") ∧
      HandedBy p.history 1 (sent 2 "2" 1 "signature")) (by decide)
  have hhanded := of_decide_eq_true hp
  exact ⟨p, hreach, hhanded.1, hhanded.2,
    (requestSign_nonce_safety hreach).1 0 1 _ _ _ _ (by decide) rfl rfl rfl hhanded.1 hhanded.2⟩

end BrokeTurnkey
