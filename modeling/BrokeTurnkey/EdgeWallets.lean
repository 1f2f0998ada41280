import BrokeTurnkey.Api.TenantCalls
import BrokeTurnkey.EdgeRecords
import BrokeTurnkey.Sidecar

/-!
# The wallets of the running system

Of all that the API does only two calls write wallet rows, and they were shown to keep
the rows right under an honest signer.  Nothing else it does can harm them.  So in every
run of the API against the signer, over the wire and whatever is called, each stored
address is that of the key at the stored path, and the indices of each org are dense.
-/

namespace BrokeTurnkey

open Interaction Signer

/-! ### The rows -/

theorem ApiCmd.exec_appends {command : ApiCmd} {choice : Choice} {w w' : ApiWorld}
    {reply : Except JsError command.Reply} (hexec : command.exec choice w = some (reply, w')) :
    w.tables.view.Appends w'.tables.view := by
  by_cases hbase : ∃ base, command = .base base
  · obtain ⟨base, rfl⟩ := hbase
    obtain ⟨t, hbase, rfl⟩ := exec_base hexec
    have happends := BrokeTurnkey.exec_appends hbase
    exact ⟨happends.wallets, happends.seeds⟩
  · have hwallets : command.effect ≠ some .wallets := by
      rintro h
      cases command with
      | base base => exact hbase ⟨base, rfl⟩
      | sql statement => cases statement <;> simp [ApiCmd.effect, ApiSql.effect] at h
      | _ => cases h
    have hseeds : command.effect ≠ some .onboarding := by
      rintro h
      cases command with
      | base base => exact hbase ⟨base, rfl⟩
      | sql statement => cases statement <;> simp [ApiCmd.effect, ApiSql.effect] at h
      | _ => cases h
    have hsameWallets : w'.tables.base.wallets = w.tables.base.wallets :=
      exec_unchanged hexec hwallets
    have hsameSeeds : w'.tables.base.seeds = w.tables.base.seeds := exec_unchanged hexec hseeds
    exact ⟨hsameWallets ▸ List.prefix_refl _, hsameSeeds ▸ List.prefix_refl _⟩

/-- Seeds and wallets are only added, whoever moves. -/
def edgeAppending (cfg : ApiConfig) (guard : Guard ApiCmd Choice ApiEvent ApiWorld) :
    Evolution (edge cfg) guard where
  Grows := fun w _ w' _ => w.tables.view.Appends w'.tables.view
  refl := fun _ _ => .refl _
  trans := fun h h' => h.trans h'
  command := fun _ _ hexec => ApiCmd.exec_appends hexec
  event := by
    rintro event w w' _ _ ⟨⟩
    cases event with
    | tick duration => exact .refl _
    | evict keep => exact .refl _

/-- The wallet rows of a running API. -/
def EdgeRows (sc : Sidecar) (w : ApiWorld) (_ : List ApiEntry) : Prop :=
  WalletRows sc.lib sc.transit w.tables.view

section

variable {cfg : ApiConfig} {sc : Sidecar} {w : ApiWorld} {history : List ApiEntry}

theorem harmless_of_effect {command : ApiCmd} (h : command.effect ≠ some .wallets) :
    Harmless sc.guard (edge cfg) (EdgeRows sc) command := by
  intro i choice reply w w' history hrows _ hexec
  have hwallets : w'.tables.view.wallets = w.tables.view.wallets :=
    ApiCmd.exec_unchanged hexec h
  exact WalletRows.same hwallets (ApiCmd.exec_appends hexec) hrows

theorem harmless_of_affects {effects : List Effect} {α : Type} {p : Api α}
    (h : p.All (ApiCmd.Affects effects)) (hnone : .wallets ∉ effects) :
    p.All (Harmless sc.guard (edge cfg) (EdgeRows sc)) :=
  h.mono fun _ haffects => harmless_of_effect fun heffect => hnone (haffects _ heffect)

/-- What the services keep under an honest signer, the API keeps under the signer. -/
theorem keeps_api {α : Type} {Q : Except JsError α → World → List ServiceEntry → Prop} {p : Js α}
    (hp : ∀ w history, Keeps (appending cfg.services (honestSigner sc.lib sc.transit))
      (RowsInv sc.lib sc.transit) Q p w history) :
    Keeps (edgeAppending cfg sc.guard) (EdgeRows sc) (fun _ _ _ => True) p.api w history := by
  have hembedding : Embedding (services cfg.services) (edge cfg) ApiCmd.base
      (fun _ reply => reply) ApiWorld.view ApiWorld.put :=
    ⟨(services_embedding cfg).put_view, (services_embedding cfg).answers⟩
  have hpast : ∀ i command choice (reply : Except JsError (ApiCmd.Reply (.base command))) history,
      past (entryOf i (.base command) choice reply :: history) =
        ⟨i, command, choice, reply.isOk⟩ :: past history := fun _ _ _ _ _ => rfl
  have hkept : Keeps (edgeAppending cfg sc.guard)
      (fun s' history' => RowsInv sc.lib sc.transit s'.view (past history') ∧ True)
      (fun outcome s' history' => Q outcome s'.view (past history')) p.api w history :=
    hembedding.keeps_guarded (fun hexec => ApiCmd.exec_base hexec) sc.guard_honest hpast
      (fun h => h) (fun _ _ _ _ _ _ _ _ => trivial) (hp w.view (past history))
  simp only [and_true] at hkept
  exact hkept.mono fun _ _ _ _ => trivial

/-- An organization is created with its first wallet. -/
theorem OrganizationsService.create_rows (hopen : OpensSealed sc.lib) (name slug : Text) :
    Keeps (edgeAppending cfg sc.guard) (EdgeRows sc) (fun _ _ _ => True) (create cfg name slug) w
      history := by
  apply Keeps.harmless_bind (Prog.All.perform (harmless_of_effect (by rintro ⟨⟩)))
  · intro found w₁ history₁ _
    cases found with
    | some org => trivial
    | none =>
      apply Keeps.harmless_bind (Prog.All.perform (harmless_of_effect (by rintro ⟨⟩)))
      · intro org w₂ history₂ _
        apply Keeps.bind (keeps_api fun _ _ => keeps_onBoardOrganization hopen _)
        · intro wallet w₃ history₃ _ _
          apply Keeps.harmless_bind
          · have hpermitted : (AuthService.generateBootstrapToken cfg org.id.toText).All
                (ApiCmd.Permitted cfg org.id.toText [.organizations]) :=
              AuthService.generateBootstrapToken_permitted (.head [])
            exact harmless_of_affects (affects_of_permitted hpermitted) (by decide)
          · exact fun _ _ _ _ => trivial
          · exact fun _ _ _ _ => trivial
        · exact fun _ _ _ _ => trivial
      · exact fun _ _ _ _ => trivial
  · exact fun _ _ _ _ => trivial

theorem Endpoint.handler_rows (hopen : OpensSealed sc.lib) (request : HttpRequest)
    (user : Option AuthUser) (endpoint : Endpoint) :
    Keeps (edgeAppending cfg sc.guard) (EdgeRows sc) (fun _ _ _ => True)
      (endpoint.handler cfg request user) w history := by
  by_cases hwallets : Effect.wallets ∈ endpoint.effects
  · cases endpoint with
    | createOrganization body =>
      exact Keeps.map (OrganizationsService.create_rows hopen _ _)
    | derive body =>
      apply Keeps.harmless_bind (all_ofExcept _)
      · intro orgId w₁ history₁ _
        have hderives : Keeps (edgeAppending cfg sc.guard) (EdgeRows sc) (fun _ _ _ => True)
            (WalletService.deriveWallet orgId body.userId body.label body.chainId).api w₁
            history₁ :=
          keeps_api fun _ _ => keeps_deriveWallet _ _ _ _
        exact Keeps.map (Keeps.map hderives)
      · exact fun _ _ _ _ => trivial
    | _ => simp [Endpoint.effects] at hwallets
  · apply Keeps.of_harmless
    exact harmless_of_affects (Endpoint.handler_affects request _) hwallets

theorem Arrival.start_rows (hopen : OpensSealed sc.lib) (arrival : Arrival) :
    Keeps (edgeAppending cfg sc.guard) (EdgeRows sc) (fun _ _ _ => True) (arrival.start cfg) w
      history := by
  cases arrival with
  | request incoming =>
    apply Keeps.harmless_bind
    · exact StampVerifierGuard.canActivate_all (harmless_of_effect (by rintro ⟨⟩))
        (fun _ => harmless_of_effect (by rintro ⟨⟩))
        (fun _ => harmless_of_effect (by rintro ⟨⟩)) _ _ _
    · intro user w₁ history₁ _
      apply Keeps.harmless_bind (all_ofExcept _)
      · intro _ w₂ history₂ _
        apply Keeps.harmless_bind (all_ofExcept _)
        · intro _ w₃ history₃ _
          apply Keeps.harmless_bind (all_ofExcept _)
          · intro _ w₄ history₄ _
            exact Endpoint.handler_rows hopen _ _ _
          · exact fun _ _ _ _ => trivial
        · exact fun _ _ _ _ => trivial
      · exact fun _ _ _ _ => trivial
    · exact fun _ _ _ _ => trivial
  | monitor cycles =>
    apply Keeps.of_harmless
    refine (Arrival.monitor_signs cycles).mono fun command hsigns => ?_
    refine harmless_of_effect fun heffect => ?_
    cases hsigns _ heffect

end

/-! ### Every run -/

/-- The rows are right in every state the system reaches. -/
theorem edge_walletRows {cfg : ApiConfig} {sc : Sidecar} (hopen : OpensSealed sc.lib)
    {arrivals : List Arrival} {w : ApiWorld} (hrows : WalletRows sc.lib sc.transit w.tables.view)
    {p : EdgePool} (hreach : Reach (edge cfg) sc.guard (edgePool cfg arrivals w) p) :
    WalletRows sc.lib sc.transit p.state.tables.view := by
  have hstart : EdgeRows sc (edgePool cfg arrivals w).state (edgePool cfg arrivals w).history :=
    hrows
  refine (Reach.keeps (edgeAppending cfg sc.guard) hreach hstart ?_ ?_ ?_).1
  · intro thread hthread
    obtain ⟨arrival, _, rfl⟩ := List.mem_map.mp hthread
    exact arrival.start_rows hopen
  · intro command thread hthread
    refine (edge_spawned hthread).mono fun later hsigns => harmless_of_effect fun heffect => ?_
    cases (hsigns.2 _ heffect).1
  · rintro event w₁ w₂ history hkept _ ⟨⟩
    cases event with
    | tick duration => exact hkept
    | evict keep => exact hkept

end BrokeTurnkey
