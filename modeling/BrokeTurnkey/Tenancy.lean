import BrokeTurnkey.Api.Growth
import BrokeTurnkey.NonceSafety
import BrokeTurnkey.PolicyAuthority

/-!
# Statements on behalf of one org

No table is split by org: a row names its org, and every service compares it with the
org of the caller.  `Cmd.Within` is what a command must satisfy for that, an insert
naming the org and an update a row of it.  Such a command leaves the rows of all other
orgs alone, as long as ids are not shared and a signing request has the org of its
wallet.  `requestSign` relies on the second, since it finds requests by their key.
-/

namespace BrokeTurnkey

open Interaction

/-! ### What belongs to an org -/

/-- The text names this org. -/
def isOrg (orgId : Text) (org : Uuid) : Bool := Uuid.ofText orgId = some org

theorem isOrg_iff {orgId : Text} {org : Uuid} :
    isOrg orgId org = true ↔ Uuid.ofText orgId = some org := decide_eq_true_iff

/-- No row of another org was created, changed or removed, nor a counter of its wallets. -/
structure Tables.Spared (orgId : Text) (t t' : Tables) : Prop where
  wallets : Spares Wallet.orgId (isOrg orgId) t.wallets t'.wallets
  requests : Spares SigningRequest.orgId (isOrg orgId) t.requests t'.requests
  policies : Spares Policy.orgId (isOrg orgId) t.policies t'.policies
  auditLog : Spares AuditLog.orgId (isOrg orgId) t.auditLog t'.auditLog
  nonces : ∀ row ∈ t.wallets, isOrg orgId row.orgId = false → t'.nonces row.id = t.nonces row.id

namespace Tables.Spared

theorem refl (orgId : Text) (t : Tables) : Spared orgId t t :=
  ⟨.refl _ _ _, .refl _ _ _, .refl _ _ _, .refl _ _ _, fun _ _ _ => rfl⟩

theorem trans {orgId : Text} {t t' t'' : Tables} (h : Spared orgId t t')
    (h' : Spared orgId t' t'') : Spared orgId t t'' where
  wallets := h.wallets.trans h'.wallets
  requests := h.requests.trans h'.requests
  policies := h.policies.trans h'.policies
  auditLog := h.auditLog.trans h'.auditLog
  nonces := by
    intro row hrow hnot
    rw [h'.nonces row ((h.wallets.mem_iff hnot).mpr hrow) hnot, h.nonces row hrow hnot]

/-- Tables that agree but for one are spared if that one is. -/
theorem of_agree {orgId : Text} {written : Option Table} {t t' : Tables}
    (h : Agree written t t')
    (hwallets : written = some .wallets → Spares Wallet.orgId (isOrg orgId) t.wallets t'.wallets)
    (hrequests : written = some .requests →
      Spares SigningRequest.orgId (isOrg orgId) t.requests t'.requests)
    (haudit : written = some .auditLog →
      Spares AuditLog.orgId (isOrg orgId) t.auditLog t'.auditLog)
    (hnonces : written = some .nonces → ∀ row ∈ t.wallets, isOrg orgId row.orgId = false →
      t'.nonces row.id = t.nonces row.id) : Spared orgId t t' where
  wallets := (em _).elim hwallets fun hne => .of_eq (h.wallets hne)
  requests := (em _).elim hrequests fun hne => .of_eq (h.requests hne)
  policies := .of_eq h.policies
  auditLog := (em _).elim haudit fun hne => .of_eq (h.auditLog hne)
  nonces := (em _).elim hnonces fun hne _ _ _ => by rw [h.nonces hne]

end Tables.Spared

/-- Ids are not shared, and a signing request has the org of its wallet and a key that
    was computed for it. -/
structure Linked (cfg : Config) (t : Tables) : Prop where
  wallets : UniqueBy Wallet.id t.wallets
  requests : UniqueBy SigningRequest.id t.requests
  policies : UniqueBy Policy.id t.policies
  owned : ∀ row ∈ t.requests, ∃ wallet ∈ t.wallets,
    wallet.id = row.walletId ∧ wallet.orgId = row.orgId
  keyed : ∀ row ∈ t.requests, PolicyAuthority.Keyed cfg row

/-- The text names a wallet of the org. -/
def HoldsWallet (orgId walletId : Text) (t : Tables) : Prop :=
  Has (fun row => some row.id) Wallet.orgId (isOrg orgId) (Uuid.ofText walletId) t.wallets

/-- A signing request of the org has this id. -/
def HoldsRequest (orgId : Text) (id : Uuid) (t : Tables) : Prop :=
  Has SigningRequest.id SigningRequest.orgId (isOrg orgId) id t.requests

/-- The insert names a wallet of its org and the key of a call for this wallet. -/
def NewSigningRequest.Linked (cfg : Config) (data : NewSigningRequest) (t : Tables) : Prop :=
  HoldsWallet data.orgId data.walletId t ∧ ∃ req : SignRequest, req.chainId = data.chainId ∧
    data.idempotencyKey = WalletService.computeIdempotencyKey cfg data.walletId req

/-- The command writes only for the org, and the job it starts will. -/
def Cmd.Within (cfg : Config) (orgId : Text) (t : Tables) : Cmd → Prop
  | .sql (.walletCreate data) => data.orgId = orgId
  | .sql (.requestCreate data) => data.orgId = orgId ∧ data.Linked cfg t
  | .sql (.requestUpdate id _) => HoldsRequest orgId id t
  | .sql (.nonceReserve walletId _) => HoldsWallet orgId walletId t
  | .sql (.nonceRelease walletId _ _) => HoldsWallet orgId walletId t
  | .sql (.nonceSyncFromChain walletId _ _) => HoldsWallet orgId walletId t
  | .sql (.auditCreate data) => data.orgId = orgId
  | .fork (.syncNonce walletId _ _) => HoldsWallet orgId walletId t
  | _ => True

theorem Cmd.within_of_query {cfg : Config} {orgId : Text} {t : Tables} {command : Cmd}
    (h : command.isQuery = true) : command.Within cfg orgId t := by
  cases command with
  | sql statement =>
    cases statement with
    | walletCreate data => cases h
    | requestCreate data => cases h
    | requestUpdate id fields => cases h
    | nonceReserve walletId chainId => cases h
    | nonceRelease walletId chainId nonce => cases h
    | nonceSyncFromChain walletId chainId chainNonce => cases h
    | auditCreate data => cases h
    | _ => trivial
  | fork job => cases h
  | _ => trivial

/-! ### What one command does to the other orgs -/

section Step

variable {cfg : Config} {orgId walletId : Text} {t : Tables}

/-- A wallet of another org is not the one the text names. -/
theorem HoldsWallet.ne (h : HoldsWallet orgId walletId t) (hunique : UniqueBy Wallet.id t.wallets)
    {row : Wallet} (hrow : row ∈ t.wallets) (hnot : isOrg orgId row.orgId = false) :
    Uuid.ofText walletId ≠ some row.id :=
  (Has.ne h (hunique.comp (Option.some_injective _)) hrow hnot).symm

/-- A request of a wallet of the org is the org's. -/
theorem Linked.own (h : Linked cfg t) (hheld : HoldsWallet orgId walletId t) {row : SigningRequest}
    (hrow : row ∈ t.requests) (hid : Uuid.ofText walletId = some row.walletId) :
    isOrg orgId row.orgId = true := by
  obtain ⟨owner, howner, hownerid, hownerorg⟩ := h.owned row hrow
  rw [← hownerorg]
  refine Has.mine_of_id hheld (h.wallets.comp (Option.some_injective _)) howner ?_
  rw [hid, hownerid]

theorem setNonce_of_ne {wallet other : Uuid} (hid : Uuid.ofText walletId = some wallet)
    (hne : Uuid.ofText walletId ≠ some other) (chainId : Nat) (nonce : Int) :
    (t.setNonce wallet chainId nonce).nonces other = t.nonces other := by
  have hother : other ≠ wallet := by
    rintro rfl
    exact hne hid
  exact Function.update_of_ne hother _ _

/-- The statements on a counter leave those of other wallets alone. -/
theorem Sql.exec_nonces_of_ne {statement : Sql} (hwrites : statement.writes = some .nonces)
    (hwithin : (Cmd.sql statement).Within cfg orgId t) (hunique : UniqueBy Wallet.id t.wallets)
    (id : Uuid) (now : Int) {row : Wallet} (hrow : row ∈ t.wallets)
    (hnot : isOrg orgId row.orgId = false) :
    (statement.exec id now t).2.nonces row.id = t.nonces row.id := by
  cases statement with
  | nonceReserve walletId chainId =>
    have hne : Uuid.ofText walletId ≠ some row.id := HoldsWallet.ne hwithin hunique hrow hnot
    simp only [Sql.exec]
    rcases WalletNonceRepository.reserve_cases walletId chainId t with
      ⟨wallet, n, hid, _, heq⟩ | ⟨error, heq⟩
    · rw [heq]
      exact setNonce_of_ne hid hne _ _
    · rw [heq]
  | nonceRelease walletId chainId nonce =>
    have hne : Uuid.ofText walletId ≠ some row.id := HoldsWallet.ne hwithin hunique hrow hnot
    simp only [Sql.exec]
    rcases WalletNonceRepository.release_cases walletId chainId nonce t with
      ⟨wallet, hid, _, heq⟩ | ⟨answer, heq⟩
    · rw [heq]
      exact setNonce_of_ne hid hne _ _
    · rw [heq]
  | nonceSyncFromChain walletId chainId chainNonce =>
    have hne : Uuid.ofText walletId ≠ some row.id := HoldsWallet.ne hwithin hunique hrow hnot
    simp only [Sql.exec]
    rcases WalletNonceRepository.syncFromChain_cases walletId chainId chainNonce t with
      ⟨wallet, n, hid, _, heq⟩ | ⟨answer, heq⟩
    · rw [heq]
      exact setNonce_of_ne hid hne _ _
    · rw [heq]
  | _ => cases hwrites

/-- A statement issued for the org leaves the others alone. -/
theorem Sql.exec_spared {statement : Sql} (hlinked : Linked cfg t)
    (hwithin : (Cmd.sql statement).Within cfg orgId t) (id : Uuid) (now : Int) :
    t.Spared orgId (statement.exec id now t).2 := by
  refine .of_agree (statement.exec_agree id now t) ?_ ?_ ?_ ?_
  · intro hwrites
    cases statement with
    | walletCreate data =>
      have hdata : data.orgId = orgId := hwithin
      simp only [Sql.exec]
      rcases walletCreate_cases data id t with ⟨org, user, horg, _, heq⟩ | ⟨error, heq⟩
      · rw [heq]
        exact .append (isOrg_iff.mpr (hdata ▸ horg))
      · rw [heq]
        exact .refl _ _ _
    | _ => cases hwrites
  · intro hwrites
    cases statement with
    | requestCreate data =>
      have hdata : data.orgId = orgId := hwithin.1
      simp only [Sql.exec]
      rcases requestCreate_cases data id now t with ⟨org, wallet, horg, _, _, heq⟩ | ⟨error, heq⟩
      · rw [heq]
        exact .append (isOrg_iff.mpr (hdata ▸ horg))
      · rw [heq]
        exact .refl _ _ _
    | requestUpdate requestId fields =>
      simp only [Sql.exec]
      rcases requestUpdate_cases requestId fields t with ⟨_, heq⟩ | ⟨_, error, heq⟩
      · rw [heq]
        refine .map_id hlinked.requests hwithin (fun other => ?_) fun other hne =>
          updateRow_of_ne hne
        exact congrArg (fun fixed => fixed.2.1) (fixed_updateRequest fields other)
      · rw [heq]
        exact .refl _ _ _
    | _ => cases hwrites
  · intro hwrites
    cases statement with
    | auditCreate data =>
      have hdata : data.orgId = orgId := hwithin
      simp only [Sql.exec]
      rcases auditCreate_cases data now t with ⟨org, user, wallet, horg, heq⟩ | ⟨error, heq⟩
      · rw [heq]
        exact .append (isOrg_iff.mpr (hdata ▸ horg))
      · rw [heq]
        exact .refl _ _ _
    | _ => cases hwrites
  · intro hwrites row hrow hnot
    exact Sql.exec_nonces_of_ne hwrites hwithin hlinked.wallets id now hrow hnot

end Step

section Exec

variable {cfg : Config} {orgId : Text} {command : Cmd} {choice : Choice} {w w' : World}
  {reply : Except JsError command.Reply}

/-- A command issued for the org leaves the others alone. -/
theorem exec_spared (hexec : exec command choice w = some (reply, w'))
    (hlinked : Linked cfg w.tables) (hwithin : command.Within cfg orgId w.tables) :
    w.tables.Spared orgId w'.tables := by
  by_cases hquery : command.writes = none
  · have hagree := exec_agree hexec
    rw [hquery] at hagree
    rw [hagree.eq]
    exact .refl _ _
  · cases command with
    | sql statement =>
      rcases exec_sql hexec with ⟨id, _, rfl, _⟩ | ⟨error, _, _, _, rfl⟩
      · exact Sql.exec_spared hlinked hwithin id w.clock
      · exact .refl _ _
    | _ => exact absurd rfl hquery

/-- Every command keeps the tables linked if what it inserts is. -/
theorem Linked.exec (h : Linked cfg w.tables)
    (hexec : BrokeTurnkey.exec command choice w = some (reply, w'))
    (hcreate : ∀ data, command = .sql (.requestCreate data) → data.Linked cfg w.tables) :
    Linked cfg w'.tables where
  wallets := by
    rcases exec_wallets hexec with heq | ⟨data, id, org, user, _, hfresh, heq⟩
    · rw [heq]
      exact h.wallets
    · rw [heq]
      exact h.wallets.append hfresh
  requests := UniqueIds.exec hexec h.requests
  policies := by
    rw [(exec_agree hexec).policies]
    exact h.policies
  owned := by
    have hlater := (exec_appends hexec).wallets.subset
    refine rows_exec hexec (fun row hrow => ?_) (fun id fields _ row _ hrow => ?_) ?_
    · obtain ⟨wallet, hwallet, hown⟩ := h.owned row hrow
      exact ⟨wallet, hlater hwallet, hown⟩
    · have hfixed := @fixed_updateRequest id fields row
      simp only [SigningRequest.fixed, Prod.mk.injEq] at hfixed
      rw [hfixed.2.1, hfixed.2.2.1]
      exact hrow
    · intro data id org wallet hcommand horg hid
      obtain ⟨⟨owner, howner, hownerid, hownerorg⟩, _⟩ := hcreate data hcommand
      rw [hid, Option.some.injEq] at hownerid
      rw [isOrg_iff, horg, Option.some.injEq] at hownerorg
      exact ⟨owner, hlater howner, hownerid, hownerorg.symm⟩
  keyed := by
    refine rows_exec hexec h.keyed (fun id fields _ row _ hrow => ?_) ?_
    · exact PolicyAuthority.keyed_updateRow hrow id fields
    · intro data id org wallet hcommand _ hid
      obtain ⟨_, req, hchain, hkey⟩ := hcreate data hcommand
      exact ⟨data.walletId, req, hid, hchain, hkey⟩

end Exec

/-! ### Facts that stay -/

/-- Wallets are added, requests keep their org and their wallet, and the history grows. -/
def owners (cfg : Config) : Evolution (services cfg) .any where
  Grows := fun w history w' history' => w.tables.wallets <+: w'.tables.wallets ∧
    Extends SigningRequest.fixed w.tables.requests w'.tables.requests ∧ history <:+ history'
  refl := fun _ _ => ⟨List.prefix_refl _, .refl _ _, List.suffix_refl _⟩
  trans := fun h h' => ⟨h.1.trans h'.1, h.2.1.trans h'.2.1, h.2.2.trans h'.2.2⟩
  command := fun _ _ hexec =>
    ⟨(exec_appends hexec).wallets, exec_extends hexec, List.suffix_cons _ _⟩
  event := fun _ _ hevent =>
    ⟨(event_appends hevent).wallets, .of_eq (World.event_tables hevent).1, List.suffix_refl _⟩

theorem HoldsWallet.mono {orgId walletId : Text} {t t' : Tables} (h : HoldsWallet orgId walletId t)
    (hwallets : t.wallets <+: t'.wallets) : HoldsWallet orgId walletId t' :=
  Has.of_prefix h hwallets

/-- A request keeps its id, whatever it is named by, and its org. -/
theorem Has.requests {κ : Type} (name : Uuid → κ) {orgId : Text} {i : κ}
    {rows rows' : List SigningRequest}
    (h : Has (fun row => name row.id) SigningRequest.orgId (isOrg orgId) i rows)
    (hrows : Extends SigningRequest.fixed rows rows') :
    Has (fun row => name row.id) SigningRequest.orgId (isOrg orgId) i rows' := by
  refine Has.stays h hrows fun row row' hsame => ?_
  simp only [SigningRequest.fixed, Prod.mk.injEq] at hsame
  exact ⟨congrArg name hsame.1, hsame.2.1⟩

theorem HoldsRequest.mono {orgId : Text} {id : Uuid} {t t' : Tables} (h : HoldsRequest orgId id t)
    (hrequests : Extends SigningRequest.fixed t.requests t'.requests) :
    HoldsRequest orgId id t' :=
  Has.requests (fun id => id) h hrequests

/-- An invariant that every command issued for the org keeps, and that knows of the
    tables that they are linked. -/
structure Keeper (cfg : Config) (orgId : Text) (J : World → List ServiceEntry → Prop) :
    Prop where
  linked : ∀ {w history}, J w history → Linked cfg w.tables
  step : ∀ {w history i command choice reply w'}, J w history →
    command.Within cfg orgId w.tables → exec command choice w = some (reply, w') →
    J w' (entryOf i command choice reply :: history)

namespace Keeper

variable {cfg : Config} {orgId : Text} {J : World → List ServiceEntry → Prop}
  (hJ : Keeper cfg orgId J) {α β : Type} {w : World} {history : List ServiceEntry}
include hJ

/-! ### Rules for the programs of the services -/

/-- Continue after a program whose commands are for the org as long as a fact holds. -/
theorem while_bind {F : Tables → Prop}
    (hstable : ∀ s history s' history', (owners cfg).Grows s history s' history' →
      F s.tables → F s'.tables)
    {P : β → World → List ServiceEntry → Prop} {p : Js α} {f : α → Js β}
    (hp : p.All fun command => ∀ t, F t → command.Within cfg orgId t) (hw : F w.tables)
    (hf : ∀ value w' history', (owners cfg).Grows w history w' history' → F w'.tables →
      Yields (owners cfg) J P (f value) w' history') :
    Yields (owners cfg) J P (p >>= f) w history := by
  refine Yields.while_bind (F := fun w => F w.tables) hstable ?_ hw hf
  exact hp.mono fun command hwithin i choice reply s s' history hs hinv _ hexec =>
    hJ.step hinv (hwithin s.tables hs) hexec

/-- Continue after a program whose commands are for the org whatever is stored. -/
theorem skip {P : β → World → List ServiceEntry → Prop} {p : Js α} {f : α → Js β}
    (hp : p.All fun command => ∀ t, command.Within cfg orgId t)
    (hf : ∀ value w' history', (owners cfg).Grows w history w' history' →
      Yields (owners cfg) J P (f value) w' history') :
    Yields (owners cfg) J P (p >>= f) w history := by
  refine hJ.while_bind (F := fun _ => True) (fun _ _ _ _ _ h => h) ?_ trivial
    fun value w' history' hgrows _ => hf value w' history' hgrows
  exact hp.mono fun command hwithin t _ => hwithin t

/-- A statement for the org, and what its answer tells. -/
theorem sql {statement : Sql} {P : statement.Reply → World → Prop}
    (hwithin : ∀ s history', (owners cfg).Grows w history s history' →
      (Cmd.sql statement).Within cfg orgId s.tables)
    (hpost : ∀ choice value s t, Linked cfg s.tables → w.tables.wallets <+: s.tables.wallets →
      exec (.sql statement) choice s = some (.ok value, t) → P value t) :
    Yields (owners cfg) J (fun value t _ => P value t) (Js.sql statement) w history := by
  refine Yields.perform fun i choice reply s t history' hgrows hinv _ hexec =>
    ⟨hJ.step hinv (hwithin s history' hgrows) hexec, ?_⟩
  rintro value rfl
  exact hpost choice value s t (hJ.linked hinv) hgrows.1 hexec

end Keeper

end BrokeTurnkey
