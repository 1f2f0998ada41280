import BrokeTurnkey.Growth
import BrokeTurnkey.Signer.WalletHandlers

/-!
# Wallets, their seed and their index

A wallet row is written by the API: its address comes from the signer, its path is
printed by the signer or, for the first wallet, by the API itself, and its index was
a count of rows read some time before.  Two facts about every row are kept by all
calls together.  The row's org has a seed row, which is never replaced, and the
address is that of the key at the row's path; and the paths of an org are those of
the indices below the number of its wallets.

A stale count never leaves a hole: if rows were added since it was read, the index it
gives is taken, and the insert is refused.
-/

namespace BrokeTurnkey

open Interaction Signer

/-! ### Calls and an honest signer -/

inductive WalletCall where
  | onBoardOrganization (orgId : Text)
  | deriveWallet (orgId : Text) (userId : Option Text) (label : Text) (chainId : Option Nat)

def WalletCall.start : WalletCall → Js Outcome
  | .onBoardOrganization orgId => do
    let result ← WalletService.onBoardOrganization orgId
    return .onboarded result
  | .deriveWallet orgId userId label chainId => do
    let wallet ← WalletService.deriveWallet orgId userId label chainId
    return .derived wallet

/-- The calls started together on a world. -/
def WalletCall.pool (calls : List WalletCall) (w : World) : ServicePool where
  state := w
  threads := calls.map WalletCall.start
  history := []

/-- What the signer makes of a derivation request: an index from 2^32 on is no uint32. -/
def deriveRequest (encryptedSeed seedNonce encryptedDek : Text) (derivIndex : Nat) :
    Request DeriveWalletRequest where
  method := "POST".toList
  body :=
    if derivIndex < 2 ^ 32 then
      some ⟨encryptedSeed, seedNonce, encryptedDek, UInt32.ofNat derivIndex⟩
    else none

/-- The sidecar answers as the handlers of the signer do, under an honest Vault, and
    wallets and seeds are written by the calls alone. -/
def honestSigner (lib : Libraries) (transit : Text → Option Text) :
    Guard Cmd Choice Event World where
  command
    | .sidecar .createWallet, .created response, _ =>
      ∃ r s history, Completes (signer lib) (honestVault transit) (handleCreateWallet lib r) () []
        (.ok ⟨201, .createWallet response⟩) s history
    | .sidecar (.deriveWallet encryptedSeed seedNonce encryptedDek derivIndex),
        .derived response, _ =>
      ∃ s history, Completes (signer lib) (honestVault transit)
        (handleDeriveWallet lib (deriveRequest encryptedSeed seedNonce encryptedDek derivIndex))
        () [] (.ok ⟨200, .deriveWallet response⟩) s history
    | _, _, _ => True
  event
    | .newWallet _, _ => False
    | .newSeed _, _ => False
    | _, _ => True

/-- The address of the key at an index of an org's seed. -/
def KeyAt (lib : Libraries) (transit : Text → Option Text) (seedRow : OrganizationSeed)
    (index : Nat) (address : Text) : Prop :=
  index < 2 ^ 32 ∧ ∃ seed key,
    seedOf lib transit seedRow.encryptedSeed seedRow.seedNonce seedRow.encryptedDek = some seed ∧
    deriveAddress lib seed (UInt32.ofNat index) = .ok (address, key)

section

variable {lib : Libraries} {transit : Text → Option Text}

theorem keyAt_of_created (hopen : OpensSealed lib) {choice : Choice} {w w' : World}
    {response : CreateWalletResponse}
    (hguard : (honestSigner lib transit).command (.sidecar .createWallet) choice w)
    (hexec : exec (.sidecar .createWallet) choice w = some (.ok response, w')) (org : Uuid) :
    KeyAt lib transit ⟨org, response.encryptedSeed, response.seedNonce, response.encryptedDek⟩ 0
      response.firstAddress := by
  have hreply := (exec_sidecar hexec).1
  cases choice with
  | created answer =>
    cases hreply
    obtain ⟨r, s, history, hrun⟩ := hguard
    obtain ⟨seed, key, hseed, hkey⟩ :=
      hrun.meets (meets_handleCreateWallet hopen transit r) response rfl
    exact ⟨by decide, seed, key, hseed, hkey⟩
  | _ => cases hreply

theorem keyAt_of_derived {seedRow : OrganizationSeed} {derivIndex : Nat} {choice : Choice}
    {w w' : World} {response : DeriveWalletResponse}
    (hguard : (honestSigner lib transit).command (.sidecar (.deriveWallet seedRow.encryptedSeed
      seedRow.seedNonce seedRow.encryptedDek derivIndex)) choice w)
    (hexec : exec (.sidecar (.deriveWallet seedRow.encryptedSeed seedRow.seedNonce
      seedRow.encryptedDek derivIndex)) choice w = some (.ok response, w')) :
    response.derivationPath = derivationPath derivIndex ∧
      KeyAt lib transit seedRow derivIndex response.address := by
  have hreply := (exec_sidecar hexec).1
  cases choice with
  | derived answer =>
    cases hreply
    obtain ⟨s, history, hrun⟩ := hguard
    obtain ⟨req, hbody, hpath, seed, key, hseed, hkey⟩ :=
      hrun.meets (meets_handleDeriveWallet transit _) response rfl
    simp only [deriveRequest] at hbody
    split at hbody
    · rename_i hindex
      cases hbody
      rw [UInt32.toNat_ofNat_of_lt' hindex] at hpath
      exact ⟨hpath, hindex, seed, key, hseed, hkey⟩
    · cases hbody
  | _ => cases hreply

end

/-! ### The paths of an org -/

def paths (org : Uuid) (t : Tables) : List Text :=
  (t.wallets.filter fun row => row.orgId = org).map Wallet.derivationPath

/-- The indices in use are those below their number. -/
def Dense (paths : List Text) : Prop :=
  paths.Perm ((List.range paths.length).map derivationPath)

theorem Dense.append {paths : List Text} (h : Dense paths) {index : Nat}
    (hle : index ≤ paths.length) (hnew : derivationPath index ∉ paths) :
    Dense (paths ++ [derivationPath index]) := by
  have hindex : index = paths.length := by
    apply Nat.le_antisymm hle
    apply Nat.le_of_not_lt
    intro hlt
    apply hnew
    rw [h.mem_iff]
    exact List.mem_map_of_mem (List.mem_range.mpr hlt)
  rw [Dense, List.length_append, List.length_singleton, List.range_succ, List.map_append, hindex]
  exact h.append_right _

theorem paths_grow {t t' : Tables} (h : t.Appends t') (org : Uuid) :
    paths org t <+: paths org t' := by
  obtain ⟨rest, hrest⟩ := h.wallets
  rw [paths, paths, ← hrest, List.filter_append, List.map_append]
  exact List.prefix_append _ _

theorem length_paths (org : Uuid) (t : Tables) :
    (paths org t).length = t.wallets.countP fun row => row.orgId = org := by
  rw [paths, List.length_map, List.countP_eq_length_filter]

/-! ### The invariant -/

/-- The row's address is the address of the key at the row's path. -/
def Keyed (lib : Libraries) (transit : Text → Option Text) (t : Tables) (row : Wallet) : Prop :=
  ∃ seedRow index, t.seed? row.orgId = some seedRow ∧ row.derivationPath = derivationPath index ∧
    KeyAt lib transit seedRow index row.address

structure WalletRows (lib : Libraries) (transit : Text → Option Text) (t : Tables) : Prop where
  keyed : ∀ row ∈ t.wallets, Keyed lib transit t row
  dense : ∀ org, Dense (paths org t)

/-- What a call knows when it inserts a wallet: the address belongs to the index, and
    the index was the number of the org's wallets at some time. -/
structure Ready (lib : Libraries) (transit : Text → Option Text) (t : Tables) (org : Uuid)
    (index : Nat) (address : Text) : Prop where
  key : ∃ seedRow, t.seed? org = some seedRow ∧ KeyAt lib transit seedRow index address
  counted : index ≤ (paths org t).length

section

variable {lib : Libraries} {transit : Text → Option Text}

theorem Keyed.appends {t t' : Tables} (happends : t.Appends t') {row : Wallet}
    (h : Keyed lib transit t row) : Keyed lib transit t' row := by
  obtain ⟨seedRow, index, hseed, hpath, hkey⟩ := h
  exact ⟨seedRow, index, happends.seed? hseed, hpath, hkey⟩

theorem Ready.appends {t t' : Tables} (happends : t.Appends t') {org : Uuid} {index : Nat}
    {address : Text} (h : Ready lib transit t org index address) :
    Ready lib transit t' org index address := by
  obtain ⟨seedRow, hseed, hkey⟩ := h.key
  constructor
  · exact ⟨seedRow, happends.seed? hseed, hkey⟩
  · exact h.counted.trans (paths_grow happends org).length_le

/-- The same wallets, and perhaps more seeds. -/
theorem WalletRows.same {t t' : Tables} (hwallets : t'.wallets = t.wallets)
    (happends : t.Appends t') (h : WalletRows lib transit t) : WalletRows lib transit t' := by
  constructor
  · rw [hwallets]
    intro row hrow
    exact (h.keyed row hrow).appends happends
  · intro org
    rw [paths, hwallets]
    exact h.dense org

/-- Commands that write no wallet keep the invariant. -/
theorem WalletRows.exec {command : Cmd} (hwrites : command.writes ≠ some .wallets)
    {choice : Choice} {w w' : World} {reply : Except JsError command.Reply}
    (hexec : exec command choice w = some (reply, w')) (h : WalletRows lib transit w.tables) :
    WalletRows lib transit w'.tables :=
  h.same ((exec_agree hexec).wallets hwrites) (exec_appends hexec)

/-- An insert that is ready keeps the invariant. -/
theorem WalletRows.create {data : NewWallet} {choice : Choice} {w w' : World}
    {reply : Except JsError Wallet} {index : Nat}
    (hexec : BrokeTurnkey.exec (.sql (.walletCreate data)) choice w = some (reply, w'))
    (hpath : data.derivationPath = derivationPath index)
    (hready : ∀ org, Uuid.ofText data.orgId = some org →
      Ready lib transit w.tables org index data.address)
    (h : WalletRows lib transit w.tables) :
    WalletRows lib transit w'.tables ∧
      ∀ row, reply = .ok row → row ∈ w'.tables.wallets ∧ row.address = data.address := by
  rcases exec_sql hexec with ⟨id, _, rfl, hreply⟩ | ⟨error, _, _, rfl, rfl⟩
  · simp only [Sql.exec] at hreply ⊢
    rcases walletCreate_cases data id w.tables with ⟨org, user, horg, hfree, heq⟩ | ⟨error, heq⟩
    · simp only [heq] at hreply ⊢
      obtain ⟨⟨seedRow, hseed, hkey⟩, hcounted⟩ := hready org horg
      constructor
      · constructor
        · intro row hrow
          rcases List.mem_append.mp hrow with hrow | hrow
          · exact h.keyed row hrow
          · rw [List.mem_singleton.mp hrow]
            exact ⟨seedRow, index, hseed, hpath, hkey⟩
        · intro other
          simp only [paths, List.filter_append, List.map_append]
          by_cases hother : org = other
          · subst hother
            have hnew : derivationPath index ∉ paths org w.tables := by
              intro hmem
              obtain ⟨row, hrow, hrowpath⟩ := List.mem_map.mp hmem
              obtain ⟨hrow, horg⟩ := List.mem_filter.mp hrow
              exact hfree row hrow (of_decide_eq_true horg) (hrowpath.trans hpath.symm)
            have hdense := (h.dense org).append hcounted hnew
            rw [← hpath] at hdense
            simpa [WalletRepository.newRow, paths] using hdense
          · simpa [WalletRepository.newRow, paths, hother] using h.dense other
      · intro row hrow
        rcases hreply with ⟨_, rfl⟩ | ⟨error, _, _, rfl⟩
        · cases hrow
          exact ⟨List.mem_append_right _ List.mem_cons_self, rfl⟩
        · cases hrow
    · simp only [heq] at hreply ⊢
      refine ⟨h, ?_⟩
      intro row hrow
      rcases hreply with ⟨_, rfl⟩ | ⟨error, _, _, rfl⟩
      · cases hrow
      · cases hrow
  · exact ⟨h, fun row hrow => by cases hrow⟩

end

/-! ### The calls keep the invariant -/

/-- Seeds and wallets are only added, whoever moves. -/
def appending (cfg : Config) (guard : Guard Cmd Choice Event World) :
    Evolution (services cfg) guard where
  Grows := fun w _ w' _ => w.tables.Appends w'.tables
  refl := fun _ _ => .refl _
  trans := fun h h' => h.trans h'
  command := fun _ _ hexec => exec_appends hexec
  event := fun _ _ hexec => event_appends hexec

/-- The wallet that was returned is stored with the address that was returned. -/
def ReturnsStored (outcome : Except JsError Outcome) (w : World) (_ : List ServiceEntry) : Prop :=
  ∀ result, outcome = .ok (.derived result) →
    ∃ row ∈ w.tables.wallets, row.id.toText = result.walletId ∧ row.address = result.address

theorem returnsStored_grows {cfg : Config} {guard : Guard Cmd Choice Event World}
    (outcome : Except JsError Outcome) (w : World) (history : List ServiceEntry) (w' : World)
    (history' : List ServiceEntry) (hgrows : (appending cfg guard).Grows w history w' history')
    (h : ReturnsStored outcome w history) : ReturnsStored outcome w' history' := by
  intro result heq
  obtain ⟨row, hrow, hrest⟩ := h result heq
  exact ⟨row, hgrows.wallets.subset hrow, hrest⟩

section

variable {cfg : Config} {lib : Libraries} {transit : Text → Option Text} {w : World}
  {history : List ServiceEntry}

/-- The invariant as a property of a running system. -/
def RowsInv (lib : Libraries) (transit : Text → Option Text) (w : World)
    (_ : List ServiceEntry) : Prop :=
  WalletRows lib transit w.tables

theorem harmless_of_writes {guard : Guard Cmd Choice Event World} {command : Cmd}
    (h : command.writes ≠ some .wallets) :
    Harmless guard (services cfg) (RowsInv lib transit) command :=
  fun _ _ _ _ _ _ hinv _ hexec => hinv.exec h hexec

theorem harmless_of_queries {guard : Guard Cmd Choice Event World} {α : Type} {p : Js α}
    (h : Queries p) : p.All (Harmless guard (services cfg) (RowsInv lib transit)) := by
  apply Prog.All.mono _ h
  intro command hquery
  apply harmless_of_writes
  cases command with
  | sql statement =>
    rw [Cmd.writes, of_decide_eq_true hquery]
    exact Option.some_ne_none _ |>.symm
  | _ => exact Option.some_ne_none _ |>.symm

/-- A command that writes no wallet keeps the invariant, and its answer says `Q`. -/
theorem keeps_perform {command : Cmd} (hwrites : command.writes ≠ some .wallets)
    {Q : Except JsError command.Reply → World → List ServiceEntry → Prop}
    (hpost : ∀ choice reply w₁ w₂ history', (honestSigner lib transit).command command choice w₁ →
      exec command choice w₁ = some (reply, w₂) → Q reply w₂ history') :
    Keeps (appending cfg (honestSigner lib transit)) (RowsInv lib transit) Q
      (Prog.perform command) w history := by
  apply Keeps.perform
  intro i choice reply w₁ w₂ history' _ hinv hguard hexec
  constructor
  · exact hinv.exec hwrites hexec
  · exact hpost choice reply w₁ w₂ _ hguard hexec

/-- A count that was read is not above the number of wallets from then on. -/
theorem keeps_count {orgId : Text} {org : Uuid} (horg : Uuid.ofText orgId = some org) :
    Keeps (appending cfg (honestSigner lib transit)) (RowsInv lib transit)
      (fun outcome w _ => ∀ count : Nat, outcome = .ok count → count ≤ (paths org w.tables).length)
      (Js.sql (.walletCountByOrgId orgId)) w history := by
  apply keeps_perform (by rintro ⟨⟩)
  rintro choice reply w₁ w₂ _ _ hexec count rfl
  have hw : w₂ = w₁ := exec_query rfl hexec
  rcases exec_sql hexec with ⟨_, _, _, ⟨_, heq⟩ | ⟨error, _, _, heq⟩⟩ | ⟨error, _, _, heq, _⟩
  · simp only [Sql.exec, WalletRepository.countByOrgId, withUuid, horg] at heq
    cases heq
    rw [hw, length_paths]
  · cases heq
  · cases heq

/-- A wallet that is ready is inserted, or the call fails. -/
theorem keeps_walletCreate {data : NewWallet} {index : Nat}
    (hpath : data.derivationPath = derivationPath index)
    (hready : ∀ org, Uuid.ofText data.orgId = some org →
      Ready lib transit w.tables org index data.address) :
    Keeps (appending cfg (honestSigner lib transit)) (RowsInv lib transit)
      (fun outcome w _ => ∀ row : Wallet, outcome = .ok row →
        row ∈ w.tables.wallets ∧ row.address = data.address)
      (Js.sql (.walletCreate data)) w history := by
  apply Keeps.perform
  intro i choice reply w₁ w₂ history' hgrows hinv _ hexec
  exact hinv.create hexec hpath fun org horg => (hready org horg).appends hgrows

theorem keeps_onBoardOrganization (hopen : OpensSealed lib) (orgId : Text) :
    Keeps (appending cfg (honestSigner lib transit)) (RowsInv lib transit)
      (fun _ _ _ => True) (WalletService.onBoardOrganization orgId) w history := by
  apply Keeps.harmless_bind (harmless_of_queries (sql_queries rfl))
  · intro found w₁ history₁ _
    cases found with
    | some row => trivial
    | none =>
      apply Keeps.bind (P := fun outcome _ _ => ∀ response : CreateWalletResponse,
        outcome = .ok response → ∀ org, KeyAt lib transit
          ⟨org, response.encryptedSeed, response.seedNonce, response.encryptedDek⟩ 0
          response.firstAddress)
      · apply keeps_perform (by rintro ⟨⟩)
        rintro choice reply w₂ w₃ _ hguard hexec response rfl org
        exact keyAt_of_created hopen hguard hexec org
      · intro created w₂ history₂ _ hcreated
        apply Keeps.bind (P := fun outcome w _ => outcome = .ok () →
          ∃ org, Uuid.ofText orgId = some org ∧ w.tables.seed? org =
            some ⟨org, created.encryptedSeed, created.seedNonce, created.encryptedDek⟩)
        · apply keeps_perform (by rintro ⟨⟩)
          rintro choice reply w₃ w₄ _ _ hexec rfl
          exact exec_seedCreate hexec
        · rintro ⟨⟩ w₃ history₃ _ hstored
          obtain ⟨org, horg, hseed⟩ := hstored rfl
          have hpath : WalletService.firstDerivationPath = derivationPath 0 := rfl
          apply Keeps.bind (keeps_walletCreate hpath ?_)
          · intro wallet w₄ history₄ _ _
            apply Keeps.harmless_bind
            · apply Prog.All.perform
              exact harmless_of_writes (by rintro ⟨⟩)
            · intro _ _ _ _
              trivial
            · intro _ _ _ _
              trivial
          · intro _ _ _ _
            trivial
          · intro org' horg'
            rw [horg, Option.some.injEq] at horg'
            subst horg'
            exact ⟨⟨_, hseed, hcreated created rfl org⟩, Nat.zero_le _⟩
        · intro _ _ _ _
          trivial
      · intro _ _ _ _
        trivial
  · intro _ _ _ _
    trivial

/-- What `deriveWallet` promises of the wallet it returns. -/
def WalletStored (outcome : Except JsError DerivedWallet) (w : World) (_ : List ServiceEntry) :
    Prop :=
  ∀ result, outcome = .ok result →
    ∃ row ∈ w.tables.wallets, row.id.toText = result.walletId ∧ row.address = result.address

theorem keeps_insertDerived {orgId : Text} {userId : Option Text} {label : Text} {chainId : Nat}
    {derived : DeriveWalletResponse} {index : Nat}
    (hpath : derived.derivationPath = derivationPath index)
    (hready : ∀ org, Uuid.ofText orgId = some org →
      Ready lib transit w.tables org index derived.address) :
    Keeps (appending cfg (honestSigner lib transit)) (RowsInv lib transit) WalletStored
      (WalletService.insertDerived orgId userId label chainId derived) w history := by
  apply Keeps.bind (keeps_walletCreate hpath hready)
  · intro wallet w₁ history₁ _ hwallet
    obtain ⟨hrow, haddress⟩ := hwallet wallet rfl
    apply Keeps.harmless_bind
    · apply Prog.All.perform
      exact harmless_of_writes (by rintro ⟨⟩)
    · intro _ w₂ history₂ hgrows result heq
      cases heq
      exact ⟨wallet, hgrows.wallets.subset hrow, rfl, haddress⟩
    · intro error w₂ history₂ _ result heq
      cases heq
  · intro error w₁ history₁ _ result heq
    cases heq

/-- Every attempt inserts under an index that was the number of wallets at some time. -/
theorem keeps_deriveAttempts {orgId : Text} {userId : Option Text} {label : Text} {chainId : Nat}
    {seedRow : OrganizationSeed} {org : Uuid} (horg : Uuid.ofText orgId = some org)
    (attempts : Nat) : ∀ (derivIndex : Nat) (w : World) (history : List ServiceEntry),
      w.tables.seed? org = some seedRow → derivIndex ≤ (paths org w.tables).length →
      Keeps (appending cfg (honestSigner lib transit)) (RowsInv lib transit) WalletStored
        (WalletService.deriveAttempts orgId userId label chainId seedRow attempts derivIndex)
        w history := by
  induction attempts with
  | zero =>
    intro derivIndex w history _ _ result heq
    cases heq
  | succ attempts ih =>
    intro derivIndex w history hseed hcount
    apply Keeps.bind (P := fun outcome _ _ => ∀ response : DeriveWalletResponse,
      outcome = .ok response → response.derivationPath = derivationPath derivIndex ∧
        KeyAt lib transit seedRow derivIndex response.address)
    · apply keeps_perform (by rintro ⟨⟩)
      rintro choice reply w₁ w₂ _ hguard hexec response rfl
      exact keyAt_of_derived hguard hexec
    · intro derived w₁ history₁ hgrows hderived
      obtain ⟨hpath, hkey⟩ := hderived derived rfl
      have hready : Ready lib transit w.tables org derivIndex derived.address :=
        ⟨⟨seedRow, hseed, hkey⟩, hcount⟩
      apply Keeps.tryCatch (keeps_insertDerived hpath ?_)
      · intro result w₂ history₂ hstored
        exact hstored
      · intro error w₂ history₂ hgrows' _
        have hgrown := hgrows.trans hgrows'
        split
        · intro result heq
          cases heq
        · split
          · intro result heq
            cases heq
          · apply Keeps.bind (keeps_count horg)
            · intro count w₃ history₃ hgrows'' hcount'
              exact ih count w₃ history₃ ((hgrown.trans hgrows'').seed? hseed) (hcount' count rfl)
            · intro error w₃ history₃ _ result heq
              cases heq
      · intro org' horg'
        rw [horg, Option.some.injEq] at horg'
        subst horg'
        exact hready.appends hgrows
    · intro error w₁ history₁ _ result heq
      cases heq

theorem keeps_deriveWallet (orgId : Text) (userId : Option Text) (label : Text)
    (chainId : Option Nat) :
    Keeps (appending cfg (honestSigner lib transit)) (RowsInv lib transit) WalletStored
      (WalletService.deriveWallet orgId userId label chainId) w history := by
  apply Keeps.bind (P := fun outcome w _ => ∀ seedRow, outcome = .ok (some seedRow) →
    Uuid.ofText orgId = some seedRow.orgId ∧ w.tables.seed? seedRow.orgId = some seedRow)
  · apply keeps_perform (by rintro ⟨⟩)
    rintro choice reply w₁ w₂ _ _ hexec seedRow rfl
    exact exec_seedFindByOrgId hexec
  · intro found w₁ history₁ _ hfound
    cases found with
    | none =>
      intro result heq
      cases heq
    | some seedRow =>
      obtain ⟨horg, hseed⟩ := hfound seedRow rfl
      apply Keeps.harmless_bind (harmless_of_queries (WalletService.checkUser_queries orgId _))
      · intro _ w₂ history₂ hgrows
        apply Keeps.bind (keeps_count horg)
        · intro count w₃ history₃ hgrows' hcount
          exact keeps_deriveAttempts horg _ count w₃ history₃
            ((hgrows.trans hgrows').seed? hseed) (hcount count rfl)
        · intro error w₃ history₃ _ result heq
          cases heq
      · intro error w₂ history₂ _ result heq
        cases heq
  · intro error w₁ history₁ _ result heq
    cases heq

theorem keeps_call (hopen : OpensSealed lib) (call : WalletCall) :
    Keeps (appending cfg (honestSigner lib transit)) (RowsInv lib transit) ReturnsStored
      call.start w history := by
  cases call with
  | onBoardOrganization orgId =>
    apply Keeps.bind (keeps_onBoardOrganization hopen orgId)
    · intro onboarded w₁ history₁ _ _ result heq
      cases heq
    · intro error w₁ history₁ _ result heq
      cases heq
  | deriveWallet orgId userId label chainId =>
    apply Keeps.bind (keeps_deriveWallet orgId userId label chainId)
    · intro wallet w₁ history₁ _ hstored result heq
      cases heq
      exact hstored wallet rfl
    · intro error w₁ history₁ _ result heq
      cases heq

theorem keeps_spawned {command : Cmd} {thread : Js Outcome}
    (hmem : thread ∈ (services cfg).spawns command) :
    Keeps (appending cfg (honestSigner lib transit)) (RowsInv lib transit) ReturnsStored
      thread w history := by
  cases command with
  | fork job =>
    cases job with
    | syncNonce walletId chainId walletAddress =>
      rw [List.mem_singleton.mp hmem]
      apply Keeps.harmless_bind
      · apply Prog.All.bind
        · exact harmless_of_queries (rpcCallWithRetry_queries rfl cfg chainId)
        · intro _
          apply Prog.All.perform
          exact harmless_of_writes (by rintro ⟨⟩)
      · intro _ _ _ _ result heq
        cases heq
      · intro error _ _ _ result heq
        cases heq
  | _ => cases hmem

theorem walletRows_event {event : Event} {w w' : World}
    (hguard : (honestSigner lib transit).event event w) (hevent : w.event event = some w')
    (h : WalletRows lib transit w.tables) : WalletRows lib transit w'.tables := by
  cases event with
  | tick duration => cases hevent; exact h
  | evict keep => cases hevent; exact h
  | policies rows => cases hevent; exact ⟨h.keyed, h.dense⟩
  | newWallet row => exact hguard.elim
  | newSeed row => exact hguard.elim

end

/-- **Every reachable state** of calls started without wallets: each row has its seed
    and its key, the indices of each org are dense, and what was returned is stored. -/
theorem walletRows_of_reach {cfg : Config} {lib : Libraries} {transit : Text → Option Text}
    (hopen : OpensSealed lib) {calls : List WalletCall} {w : World}
    (hwallets : w.tables.wallets = []) {p : ServicePool}
    (hreach : Reach (services cfg) (honestSigner lib transit) (WalletCall.pool calls w) p) :
    WalletRows lib transit p.state.tables ∧
      ∀ result, .ret (.derived result) ∈ p.threads →
        ∃ row ∈ p.state.tables.wallets, row.id.toText = result.walletId ∧
          row.address = result.address := by
  have hstart : WalletRows lib transit w.tables := by
    constructor
    · intro row hrow
      rw [hwallets] at hrow
      cases hrow
    · intro org
      rw [paths, hwallets]
      exact .nil
  have hinv₀ : RowsInv lib transit (WalletCall.pool calls w).state
      (WalletCall.pool calls w).history := hstart
  obtain ⟨hinv, hthreads⟩ := Reach.outcomes (Q := ReturnsStored)
    (appending cfg (honestSigner lib transit)) returnsStored_grows hreach hinv₀
    (by
      intro thread hmem
      obtain ⟨call, _, rfl⟩ := List.mem_map.mp hmem
      exact keeps_call hopen call)
    (by
      intro command thread w history hmem
      exact keeps_spawned hmem)
    (by
      intro event w w' history hinv hguard hevent
      exact walletRows_event hguard hevent hinv)
  constructor
  · exact hinv
  · intro result hmem
    exact hthreads _ hmem result rfl

end BrokeTurnkey
