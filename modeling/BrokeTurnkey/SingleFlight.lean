import BrokeTurnkey.Rows

/-!
# One owner per idempotency key

Between winning step 5, by inserting the row of its key or by resetting a failed
one, and its final status write, a call owns the row: it alone may reserve a
nonce and broadcast.  The unique index gives the row to one inserter, and the
callers it turns away look for its code on the error they catch.

drizzle-orm wraps the error of the database in one that has no code.  So whoever
is turned away fails there, the reset of a failed row is never taken, and of all
calls for one key at most one ever reserves or broadcasts.  With a driver that
shows the code this would not be so: the reset is a read followed by an
unconditional update, and two calls that both read a failed row both send a
transaction.
-/

namespace BrokeTurnkey

open Interaction

/-! ### Ownership -/

/-- The call wins step 5: its row is created, or a failed row is reset. -/
def wins (entry : ServiceEntry) : Bool :=
  match entry.command with
  | .sql (.requestCreate _) => entry.answered
  | .sql (.requestUpdate _ fields) => fields.status = some .pending && entry.answered
  | _ => false

/-- The final status write of a call.  A call whose `broadcasted` write is not
    answered goes on to write `failed`. -/
def finishes (entry : ServiceEntry) : Bool :=
  match entry.command with
  | .sql (.requestUpdate _ fields) =>
    (fields.status = some .broadcasted && entry.answered) ||
      (fields.status = some .failed && entry.choice.ran)
  | _ => false

/-- The thread is past winning step 5 and not past its final status write. -/
def owns (i : Nat) : List ServiceEntry → Bool
  | [] => false
  | entry :: history =>
    if entry.thread = i then
      if wins entry then true else if finishes entry then false else owns i history
    else owns i history

theorem owns_of_wins {entry : ServiceEntry} (h : wins entry = true)
    (history : List ServiceEntry) : owns entry.thread (entry :: history) = true := by
  rw [owns, if_pos rfl, if_pos h]

theorem owns_of_finishes {entry : ServiceEntry} (hwins : wins entry = false)
    (h : finishes entry = true) (history : List ServiceEntry) :
    owns entry.thread (entry :: history) = false := by
  rw [owns, if_pos rfl, hwins, if_neg Bool.false_ne_true, if_pos h]

theorem owns_of_neither {entry : ServiceEntry} (hwins : wins entry = false)
    (hfinishes : finishes entry = false) (i : Nat) (history : List ServiceEntry) :
    owns i (entry :: history) = owns i history := by
  rw [owns, hwins, hfinishes, if_neg Bool.false_ne_true, if_neg Bool.false_ne_true, ite_self]

/-- Reserving a nonce and handing a transaction to broadcast. -/
def Cmd.acts : Cmd → Bool
  | .sql (.nonceReserve _ _) => true
  | .log (.broadcasting _ _) => true
  | _ => false

/-- Whoever reserved a nonce or broadcast did so as an owner. -/
def ActedAsOwner : List ServiceEntry → Prop
  | [] => True
  | entry :: history =>
    (entry.command.acts = true → owns entry.thread history = true) ∧ ActedAsOwner history

namespace SingleFlight

/-! ### The invariant -/

/-- Where a thread stands with the row of the key: before winning step 5, past it, or past
    its final status write. -/
inductive Role where
  | out
  | owner
  | done
deriving DecidableEq

def Role.isOwner : Role → Bool
  | .owner => true
  | _ => false

/-- Only one thread ever gets past step 5, and then the key has its row. -/
structure Inv (key : Text) (w : World) (history : List ServiceEntry) (role : Nat → Role) :
    Prop where
  wraps : w.tables.Wraps
  sole : ∀ i j, role i ≠ .out → role j ≠ .out → i = j
  rowed : ∀ i, role i ≠ .out → (keyRow key w.tables).isSome = true
  roles : ∀ i, owns i history = (role i).isOwner
  acted : ActedAsOwner history
  actors : ∀ entry ∈ history, entry.command.acts = true → role entry.thread ≠ .out

section Steps

variable {key : Text} {w w' : World} {history : List ServiceEntry} {role : Nat → Role}
  {command : Cmd} {choice : Choice} {reply : Except JsError command.Reply} {i : Nat}

theorem owns_other {j : Nat} (h : j ≠ i) :
    owns j (entryOf i command choice reply :: history) = owns j history := by
  rw [owns, if_neg]
  exact fun heq => h heq.symm

/-- Rows are never removed, so the key keeps the one it has. -/
theorem keyRow_exec {key : Text} (hexec : exec command choice w = some (reply, w'))
    (h : (keyRow key w.tables).isSome = true) : (keyRow key w'.tables).isSome = true := by
  rcases exec_requests hexec with heq | ⟨id, fields, _, heq⟩ | ⟨_, _, _, _, _, _, _, _, heq⟩
  · rw [keyRow, heq]
    exact h
  · have hupdated : keyRow key w'.tables =
        keyRow key (SigningRequestRepository.updated id fields w.tables) := by
      rw [keyRow, heq]
      rfl
    rw [hupdated, keyRow_update, Option.isSome_map]
    exact h
  · rw [keyRow, heq, List.find?_append, Option.isSome_or]
    exact Bool.or_eq_true_iff.mpr (.inl h)

/-- One step, by what it makes of its thread. -/
theorem Inv.step (h : Inv key w history role) {r : Role}
    (hexec : exec command choice w = some (reply, w'))
    (hpast : role i ≠ .out → r ≠ .out)
    (hnew : r ≠ .out → role i = .out →
      (∀ j, role j = .out) ∧ (keyRow key w'.tables).isSome = true)
    (howns : owns i (entryOf i command choice reply :: history) = r.isOwner)
    (hacts : command.acts = true → (role i).isOwner = true) :
    Inv key w' (entryOf i command choice reply :: history) (Function.update role i r) := by
  have hsole : ∀ j k, j ≠ i → role j ≠ .out → r ≠ .out → k = i → j = k := by
    intro j k hji hj hr hki
    by_cases hi : role i = .out
    · exact absurd ((hnew hr hi).1 j) hj
    · exact (h.sole j i hj hi).trans hki.symm
  refine ⟨exec_wraps hexec h.wraps, fun j k hj hk => ?_, fun j hj => ?_, fun j => ?_,
    ⟨fun hcommand => (h.roles i).trans (hacts hcommand), h.acted⟩, fun entry hentry hcommand => ?_⟩
  · by_cases hji : j = i <;> by_cases hki : k = i
    · rw [hji, hki]
    · rw [hji, Function.update_self] at hj
      rw [Function.update_of_ne hki] at hk
      exact (hsole k j hki hk hj hji).symm
    · rw [hki, Function.update_self] at hk
      rw [Function.update_of_ne hji] at hj
      exact hsole j k hji hj hk hki
    · rw [Function.update_of_ne hji] at hj
      rw [Function.update_of_ne hki] at hk
      exact h.sole j k hj hk
  · by_cases hji : j = i
    · rw [hji, Function.update_self] at hj
      by_cases hi : role i = .out
      · exact (hnew hj hi).2
      · exact keyRow_exec hexec (h.rowed i hi)
    · rw [Function.update_of_ne hji] at hj
      exact keyRow_exec hexec (h.rowed j hj)
  · by_cases hji : j = i
    · rw [hji, Function.update_self, howns]
    · rw [Function.update_of_ne hji, owns_other hji, h.roles]
  · rcases List.mem_cons.mp hentry with rfl | hentry
    · have howner := hacts hcommand
      simp only [entryOf, Function.update_self]
      refine hpast fun hout => ?_
      rw [hout] at howner
      cases howner
    · by_cases hi : entry.thread = i
      · rw [hi, Function.update_self]
        exact hpast (hi ▸ h.actors entry hentry hcommand)
      · rw [Function.update_of_ne hi]
        exact h.actors entry hentry hcommand

/-- The thread stays where it is. -/
theorem Inv.stay (h : Inv key w history role) (hexec : exec command choice w = some (reply, w'))
    (howns : owns i (entryOf i command choice reply :: history) = owns i history)
    (hacts : command.acts = true → (role i).isOwner = true) :
    Inv key w' (entryOf i command choice reply :: history) role := by
  have hstep := h.step (r := role i) hexec id (fun hr hout => absurd hout hr)
    (howns.trans (h.roles i)) hacts
  rwa [Function.update_eq_self] at hstep

end Steps

/-! ### One specification for each kind of command -/

section Specs

variable {cfg : Config} {key : Text} {g : Role}

/-- Commands that neither write a signing request nor act. -/
def Quiet (command : Cmd) : Prop := command.acts = false ∧ command.writes ≠ some .requests

theorem quiet_of_query {command : Cmd} (h : command.isQuery = true) : Quiet command := by
  cases command with
  | sql statement =>
    have hnone : statement.writes = none := of_decide_eq_true h
    refine ⟨?_, by rw [Cmd.writes, hnone]; nofun⟩
    cases statement with
    | nonceReserve walletId chainId => cases hnone
    | _ => rfl
  | fetch rpcUrl request => exact ⟨rfl, nofun⟩
  | now => exact ⟨rfl, nofun⟩
  | sidecar request => cases h
  | log line => cases h
  | fork job => cases h

theorem owns_unwritten {command : Cmd} (h : command.writes ≠ some .requests) (i : Nat)
    (choice : Choice) (reply : Except JsError command.Reply) (history : List ServiceEntry) (j : Nat) :
    owns j (entryOf i command choice reply :: history) = owns j history := by
  have hwins : wins (entryOf i command choice reply) = false := by
    cases command with
    | sql statement =>
      cases statement with
      | requestCreate data => exact absurd rfl h
      | requestUpdate id fields => exact absurd rfl h
      | _ => rfl
    | _ => rfl
  have hfinishes : finishes (entryOf i command choice reply) = false := by
    cases command with
    | sql statement =>
      cases statement with
      | requestUpdate id fields => exact absurd rfl h
      | _ => rfl
    | _ => rfl
  exact owns_of_neither hwins hfinishes j history

/-- A command that writes no signing request, by an owner if it acts. -/
theorem frame_spec {command : Cmd} (hwrites : command.writes ≠ some .requests)
    (hacts : command.acts = true → g.isOwner = true) :
    Spec (services cfg) .any (Inv key) g command fun g' _ => g' = g := by
  refine Spec.frame fun i choice w history role reply w' hg hinv _ hexec => ?_
  exact hinv.stay hexec (owns_unwritten hwrites i choice reply history i)
    fun hcommand => hg ▸ hacts hcommand

theorem quiet_spec {command : Cmd} (h : Quiet command) :
    Spec (services cfg) .any (Inv key) g command fun g' _ => g' = g :=
  frame_spec h.2 fun hacts => Bool.noConfusion (h.1.symm.trans hacts)

theorem quiet_all {α : Type} {p : Js α} (h : p.All Quiet) :
    p.All fun command => Spec (services cfg) .any (Inv key) g command fun g' _ => g' = g :=
  h.mono fun _ => quiet_spec

/-- What an insert makes of its caller. -/
def Inserted : Role → Except JsError SigningRequest → Prop
  | g', .ok _ => g' = .owner
  | g', .error error => g' = .out ∧ error.code ≠ some uniqueViolation

/-- The insert wins where there was no row, so nobody had won before. -/
theorem create_spec {data : NewSigningRequest} (hkey : data.idempotencyKey = key) :
    Spec (services cfg) .any (Inv key) .out (.sql (.requestCreate data)) Inserted := by
  intro i choice w history role reply w' hg hinv _ hexec
  cases reply with
  | error error =>
    have hstay := hinv.stay hexec (owns_of_neither rfl rfl i history) nofun
    rw [← Function.update_eq_self i role, hg] at hstay
    exact ⟨.out, hstay, rfl, exec_create_wrapped hinv.wraps hexec⟩
  | ok row =>
    rcases exec_insert hexec with ⟨id, org, wallet, _, _, _, hfree, rfl, _⟩ | ⟨_, hfails⟩
    · rw [hkey] at hfree
      have hnone := keyRow_eq_none hfree
      have hnobody : ∀ j, role j = .out := by
        intro j
        by_contra hpast
        have hsome := hinv.rowed j hpast
        rw [hnone] at hsome
        cases hsome
      have hnewkey :
          (SigningRequestRepository.newRow data id org wallet w.clock).idempotencyKey = key := hkey
      refine ⟨.owner, hinv.step hexec (fun hpast => absurd hg hpast) (fun _ _ => ⟨hnobody, ?_⟩)
        (owns_of_wins rfl history) nofun, rfl⟩
      rw [keyRow_append hnone hnewkey]
      rfl
    · cases hfails

/-- An owner's write of a status other than `failed` leaves it the owner; only the
    answered `broadcasted` write is its last. -/
theorem progress_spec {id : Uuid} {fields : SigningRequestUpdate}
    (hpending : fields.status ≠ some .pending) (hfailed : fields.status ≠ some .failed) :
    Spec (services cfg) .any (Inv key) .owner (.sql (.requestUpdate id fields))
      fun g' reply => g' = .owner ∨ reply.isOk = true ∧ fields.status = some .broadcasted := by
  intro i choice w history role reply w' hg hinv _ hexec
  have hwins : wins (entryOf i (.sql (.requestUpdate id fields)) choice reply) = false := by
    simp [wins, entryOf, hpending]
  by_cases hlast : reply.isOk = true ∧ fields.status = some .broadcasted
  · refine ⟨.done, hinv.step hexec (fun _ => nofun) (fun _ hout => ?_)
      (owns_of_finishes hwins ?_ history) nofun, .inr hlast⟩
    · cases hg.symm.trans hout
    · simp [finishes, entryOf, hlast.1, hlast.2]
  · have hfinishes :
        finishes (entryOf i (.sql (.requestUpdate id fields)) choice reply) = false := by
      simp only [finishes, entryOf, hfailed, decide_false, Bool.false_and, Bool.or_false]
      rw [Bool.and_eq_false_iff, decide_eq_false_iff_not]
      by_cases hok : reply.isOk = true
      · exact .inl fun hstatus => hlast ⟨hok, hstatus⟩
      · exact .inr (Bool.eq_false_iff.mpr hok)
    have hstay := hinv.stay hexec (owns_of_neither hwins hfinishes i history) nofun
    rw [← Function.update_eq_self i role, hg] at hstay
    exact ⟨.owner, hstay, .inl rfl⟩

/-- An owner's last write. -/
theorem failing_spec {id : Uuid} {fields : SigningRequestUpdate}
    (hfailed : fields.status = some .failed) :
    Spec (services cfg) .any (Inv key) .owner (.sql (.requestUpdate id fields))
      fun _ _ => True := by
  intro i choice w history role reply w' hg hinv _ hexec
  have hwins : wins (entryOf i (.sql (.requestUpdate id fields)) choice reply) = false := by
    simp [wins, entryOf, hfailed]
  by_cases hlast : finishes (entryOf i (.sql (.requestUpdate id fields)) choice reply) = true
  · refine ⟨.done, hinv.step hexec (fun _ => nofun) (fun _ hout => ?_)
      (owns_of_finishes hwins hlast history) nofun, trivial⟩
    cases hg.symm.trans hout
  · have hfinishes := eq_false_of_ne_true hlast
    have hstay := hinv.stay hexec (owns_of_neither hwins hfinishes i history) nofun
    rw [← Function.update_eq_self i role, hg] at hstay
    exact ⟨.owner, hstay, trivial⟩

end Specs

/-! ### The signing pipeline -/

section Pipeline

variable {cfg : Config} {key : Text} {id : Uuid}

theorem all_quiet {α : Type} {p : Js α} (h : Queries p) : p.All Quiet :=
  h.mono fun _ => quiet_of_query

/-- The callers that the index turns away throw. -/
theorem createOrReuse_safe (orgId walletId : Text) (req : SignRequest) :
    Safe (services cfg) .any (Inv key)
      (AtValue fun g' claimed => ∀ id, claimed = .own id → g' = .owner) .out
      (WalletService.createOrReuse orgId walletId req key) := by
  refine Safe.tryCatch (P := fun g' outcome => match outcome with
    | .ok claimed => ∀ id, claimed = .own id → g' = .owner
    | .error error => error.code ≠ some uniqueViolation) ?_ (fun _ _ h => h)
    fun g' error hcode => ?_
  · refine Safe.bind (Safe.perform (create_spec rfl)) (fun g' row hg' => ?_) fun _ _ h => h.2
    exact fun _ _ => hg'
  · rw [if_pos hcode]
    trivial

theorem prepareFields_safe (walletId : Text) (req : SignRequest) (fees : FeeEstimate) :
    Safe (services cfg) .any (Inv key) (AtValue fun g' _ => g' = .owner) .owner
      (WalletService.prepareFields walletId req fees id) := by
  refine Safe.bind (Safe.perform (frame_spec nofun fun _ => rfl)) (fun g' nonce hg' => ?_)
    fun _ _ _ => trivial
  subst hg'
  refine Safe.bind (Safe.perform (progress_spec nofun nofun)) (fun g' _ hg' => ?_)
    fun _ _ _ => trivial
  exact hg'.resolve_right fun h => by cases h.2

theorem signStep_safe (seedRow : OrganizationSeed) (wallet : Wallet) (walletId : Text)
    (txFields : TxFields) :
    Safe (services cfg) .any (Inv key) (AtValue fun g' _ => g' = .owner) .owner
      (WalletService.signStep seedRow wallet walletId txFields id) := by
  refine Safe.tryCatch (Safe.perform (quiet_spec ⟨rfl, nofun⟩)) (fun _ _ h => h)
    fun g' error hg' => ?_
  subst hg'
  refine Safe.bind (Safe.perform (failing_spec rfl)) (fun g' _ _ => ?_) fun _ _ _ => trivial
  exact Safe.frame_bind (quiet_all (Prog.All.perform ⟨rfl, nofun⟩)) (fun _ => trivial)
    fun _ => trivial

theorem storeSigned_safe (signResult : SignTransactionResult) :
    Safe (services cfg) .any (Inv key) (AtValue fun g' _ => g' = .owner) .owner
      (WalletService.storeSigned id signResult) := by
  refine Safe.frame_bind (quiet_all (all_quiet now_queries)) (fun now => ?_) fun _ => trivial
  refine (Safe.perform (progress_spec (by nofun) (by nofun))).mono fun g' outcome hg' => ?_
  cases outcome with
  | ok value => exact hg'.resolve_right fun h => by cases h.2
  | error error => trivial

theorem broadcastStep_safe (wallet : Wallet) (walletId : Text) (chainId : Nat)
    (signResult : SignTransactionResult) :
    Safe (services cfg) .any (Inv key) (fun _ _ => True) .owner
      (WalletService.broadcastStep cfg wallet walletId chainId signResult id) := by
  refine Safe.tryCatch (P := fun g' outcome => match outcome with
    | .ok _ => True
    | .error _ => g' = .owner) ?_ (fun _ _ _ => trivial) fun g' error hg' => ?_
  · refine Safe.bind (P := fun g' _ => g' = .owner) ?_ (fun g' _ hg' => ?_) fun _ _ h => h
    · refine Safe.bind (Safe.perform (frame_spec nofun fun _ => rfl)) (fun g' _ hg' => ?_)
        fun _ _ h => h
      subst hg'
      exact Safe.of_all (quiet_all (rpcCallWithRetry_all (fun _ => ⟨rfl, nofun⟩) cfg chainId))
    · subst hg'
      refine Safe.frame_bind (quiet_all (all_quiet now_queries)) (fun now => ?_) fun _ => rfl
      refine (Safe.perform (progress_spec (by nofun) (by nofun))).mono fun g' outcome hg' => ?_
      cases outcome with
      | ok value => trivial
      | error error => exact hg'.resolve_right fun h => by cases h.1
  · subst hg'
    refine Safe.bind (Safe.perform (failing_spec rfl)) (fun g' _ _ => ?_) fun _ _ _ => trivial
    exact Safe.frame_bind (quiet_all (Prog.All.perform ⟨rfl, nofun⟩)) (fun _ => trivial)
      fun _ => trivial

theorem submit_safe (orgId walletId : Text) (req : SignRequest) (seedRow : OrganizationSeed)
    (wallet : Wallet) (fees : FeeEstimate) :
    Safe (services cfg) .any (Inv key) (fun _ _ => True) .owner
      (WalletService.submit cfg orgId walletId req seedRow wallet key fees id) := by
  refine Safe.bind (prepareFields_safe walletId req fees) (fun g' txFields hg' => ?_)
    fun _ _ _ => trivial
  subst hg'
  refine Safe.bind (signStep_safe seedRow wallet walletId txFields) (fun g' signResult hg' => ?_)
    fun _ _ _ => trivial
  subst hg'
  refine Safe.bind (storeSigned_safe signResult) (fun g' _ hg' => ?_) fun _ _ _ => trivial
  subst hg'
  refine Safe.bind (broadcastStep_safe wallet walletId req.chainId signResult)
    (fun g' _ _ => ?_) fun _ _ _ => trivial
  exact Safe.frame_bind (quiet_all (Prog.All.perform ⟨rfl, nofun⟩)) (fun _ => trivial)
    fun _ => trivial

theorem requestSign_safe (orgId walletId : Text) (req : SignRequest) :
    Safe (services cfg) .any (Inv (WalletService.computeIdempotencyKey cfg walletId req))
      (fun _ _ => True) .out (WalletService.requestSign cfg orgId walletId req) := by
  refine Safe.frame_bind
    (quiet_all (all_quiet (WalletService.loadPrerequisites_queries orgId walletId)))
    (fun prerequisites => ?_) fun _ => trivial
  refine Safe.frame_bind (quiet_all (all_quiet (sql_queries rfl))) (fun existing => ?_)
    fun _ => trivial
  split
  · trivial
  · refine Safe.frame_bind (quiet_all (WalletService.evaluatePolicy_all
      (fun _ => quiet_of_query) (fun _ _ => ⟨rfl, nofun⟩) cfg req)) (fun _ => ?_) fun _ => trivial
    refine Safe.frame_bind (quiet_all (all_quiet (estimateFees_queries ..))) (fun fees => ?_)
      fun _ => trivial
    refine Safe.bind (createOrReuse_safe orgId walletId req) (fun g' claimed hg' => ?_)
      fun _ _ _ => trivial
    cases claimed with
    | existing result => trivial
    | own id =>
      rw [hg' id rfl]
      exact submit_safe orgId walletId req _ _ fees

end Pipeline

/-! ### Every run -/

theorem spawned_safe {cfg : Config} {key : Text} (command : Cmd) (thread : Js Outcome)
    (h : thread ∈ spawns cfg command) :
    Safe (services cfg) .any (Inv key) (fun _ _ => True) .out thread := by
  cases command with
  | fork job =>
    rw [spawns, List.mem_singleton] at h
    subst h
    cases job with
    | syncNonce walletId chainId walletAddress =>
      refine (Safe.of_all (quiet_all ?_)).mono fun _ _ _ => trivial
      refine Prog.All.bind (Prog.All.bind ?_ fun result => ?_) fun _ => trivial
      · exact rpcCallWithRetry_all (fun _ => ⟨rfl, nofun⟩) cfg chainId
      · exact Prog.All.perform ⟨rfl, nofun⟩
  | _ => cases h

theorem reach_inv {cfg : Config} {calls : List SignCall} {w : World} {p : ServicePool}
    {walletId : Text} {req : SignRequest} (hwraps : w.tables.Wraps)
    (hsame : ∀ call ∈ calls, call.walletId = walletId ∧ call.req = req)
    (hreach : Reach (services cfg) .any (SignCall.pool cfg calls w) p) :
    ∃ role, Inv (WalletService.computeIdempotencyKey cfg walletId req) p.state p.history role := by
  have hstart : Invariant (services cfg) .any
      (Inv (WalletService.computeIdempotencyKey cfg walletId req)) (fun _ _ => True) .out
      (SignCall.pool cfg calls w) fun _ => .out := by
    refine ⟨⟨hwraps, fun _ _ h => absurd rfl h, fun _ h => absurd rfl h, fun _ => rfl, trivial,
      fun _ hentry => absurd hentry List.not_mem_nil⟩, fun i thread hi => ?_, fun _ _ => rfl⟩
    rw [SignCall.pool, List.getElem?_map, Option.map_eq_some_iff] at hi
    obtain ⟨call, hcall, rfl⟩ := hi
    obtain ⟨rfl, rfl⟩ := hsame call (List.mem_of_getElem? hcall)
    exact Safe.bind (requestSign_safe call.orgId call.walletId call.req) (fun _ _ _ => trivial)
      fun _ _ _ => trivial
  obtain ⟨role, hp⟩ := hreach.invariant hstart spawned_safe
    fun event w w' history role hinv _ hevent => by
      refine ⟨World.event_wraps hevent hinv.wraps, hinv.sole, fun i hi => ?_, hinv.roles,
        hinv.acted, hinv.actors⟩
      rw [keyRow, (World.event_tables hevent).1]
      exact hinv.rowed i hi
  exact ⟨role, hp.inv⟩

end SingleFlight

/-- **Single flight.**  Take any calls with the same wallet id and request, and any state
    to start from.  In every interleaving at most one call owns the row at any moment, only
    the owner reserves a nonce or broadcasts, and whatever is reserved or broadcast is
    reserved and broadcast by one call. -/
theorem requestSign_single_flight {cfg : Config} {calls : List SignCall} {w : World}
    {p : ServicePool} {walletId : Text} {req : SignRequest} (hwraps : w.tables.Wraps)
    (hsame : ∀ call ∈ calls, call.walletId = walletId ∧ call.req = req)
    (hreach : Reach (services cfg) .any (SignCall.pool cfg calls w) p) :
    (∀ i j, owns i p.history = true → owns j p.history = true → i = j) ∧
      ActedAsOwner p.history ∧
      ∀ entry ∈ p.history, ∀ other ∈ p.history, entry.command.acts = true →
        other.command.acts = true → entry.thread = other.thread := by
  obtain ⟨role, hinv⟩ := SingleFlight.reach_inv hwraps hsame hreach
  have hpast : ∀ i, owns i p.history = true → role i ≠ .out := by
    intro i hi hout
    rw [hinv.roles, hout] at hi
    cases hi
  refine ⟨fun i j hi hj => hinv.sole i j (hpast i hi) (hpast j hj), hinv.acted, ?_⟩
  intro entry hentry other hother hacts hacts'
  exact hinv.sole _ _ (hinv.actors entry hentry hacts) (hinv.actors other hother hacts')

open Sample in
/-- Two calls race for the row.  The first wins it and sends its transaction, the second
    is turned away by the index. -/
theorem requestSign_single_flight_race :
    ∃ p, Reach (services config) .any
        (SignCall.pool config [transfer "1".toList, transfer "1".toList] world) p ∧
      owns 0 p.history = true ∧ owns 1 p.history = false ∧
      p.state.live = [sent 1 "1" 0 "first"] ∧
      ∀ entry ∈ p.history, entry.command.acts = true → entry.thread = 0 := by
  obtain ⟨p, hreach, hp⟩ := Reach.exists_of_run (services config) .any
    (SignCall.pool config [transfer "1".toList, transfer "1".toList] world)
    (moves 0 untilFees ++ moves 1 untilFees ++ moves 0 [.done (freshId 1)] ++ moves 1 [run] ++
      moves 0 (signs "first".toList "hash1".toList ++ [run, accepts]))
    (fun p => owns 0 p.history && p.state.live = [sent 1 "1" 0 "first"] &&
      p.history.any fun entry => entry.command.acts && entry.thread = 0) (by decide)
  simp only [Bool.and_eq_true, decide_eq_true_eq] at hp
  have hsame : ∀ call ∈ [transfer "1".toList, transfer "1".toList],
      call.walletId = wallet.toText ∧ call.req = (transfer "1".toList).req := by decide
  obtain ⟨hsole, _, hone⟩ := requestSign_single_flight (w := world) rfl hsame hreach
  obtain ⟨actor, hactor, hacted⟩ := List.any_eq_true.mp hp.2
  simp only [Bool.and_eq_true, decide_eq_true_eq] at hacted
  refine ⟨p, hreach, hp.1.1, ?_, hp.1.2, fun entry hentry hacts => ?_⟩
  · cases hother : owns 1 p.history with
    | false => rfl
    | true => exact absurd (hsole 0 1 hp.1.1 hother) (by decide)
  · exact (hone entry hentry actor hactor hacts hacted.1).trans hacted.2

/-! ### A driver that shows the code -/

namespace SingleFlight

open Sample

/-- The deployment with a request that failed. -/
def failedWorld : World :=
  { world with tables := { world.tables with
      requests := [{ SigningRequestRepository.newRow
        { orgId := org.toText, walletId := wallet.toText, chainId := 1, status := .failed,
          idempotencyKey := WalletService.computeIdempotencyKey config wallet.toText
            (transfer "1".toList).req } (freshId 1) org wallet 0 with
        failureReason := some "broadcast failed".toList }] } }

end SingleFlight

open Sample SingleFlight in
/-- The hypothesis on the driver is needed: with one that shows the code, two concurrent
    retries of a failed request both read the failed row before either resets it.  Both own
    the row, and both send a transaction. -/
theorem requestSign_double_flight :
    ∃ p, Reach (services config) .any
        (SignCall.pool config [transfer "1".toList, transfer "1".toList] (exposing failedWorld))
        p ∧
      owns 0 p.history = true ∧ owns 1 p.history = true ∧
      p.state.live = [sent 1 "1" 1 "second", sent 1 "1" 0 "first"] := by
  obtain ⟨p, hreach, hp⟩ := Reach.exists_of_run (services config) .any
    (SignCall.pool config [transfer "1".toList, transfer "1".toList] (exposing failedWorld))
    (moves 0 (untilFees ++ [run, run]) ++ moves 1 (untilFees ++ [run, run]) ++
      moves 0 (run :: signs "first".toList "hash1".toList ++ [run, accepts]) ++
      moves 1 (run :: signs "second".toList "hash2".toList ++ [run, accepts]))
    (fun p => owns 0 p.history && owns 1 p.history &&
      p.state.live = [sent 1 "1" 1 "second", sent 1 "1" 0 "first"]) (by decide)
  simp only [Bool.and_eq_true, decide_eq_true_eq] at hp
  exact ⟨p, hreach, hp.1.1, hp.1.2, hp.2⟩

end BrokeTurnkey
